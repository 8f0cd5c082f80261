import BulkTraffic.Queue.Task

/-!
# The options of `enqueue`

`QueueOptionsParser`: the checks and defaults of the options of `QueueService.enqueue`, in
the order in which `normalizeEnqueueOptions` makes them. A check that fails throws, with
the text given here. The counter `workloadGeneralQueueFallbackCount` keeps what was counted
before a later check throws.
-/

namespace BulkTraffic.Queue

open BulkTraffic.Js

/-- `EnqueueOptions`, as a caller may fill them in. -/
structure EnqueueOptions where
  priority : JsValue := .undefined
  requestId : Option RequestId := none
  category : JsValue := .undefined
  batch : JsValue := .undefined
  size : JsValue := .undefined
  timeout : JsValue := .undefined
  workloadType : JsValue := .undefined
  params : JsValue := .undefined
  functionCode : JsValue := .undefined

/-- `NormalizedEnqueueOptions`. -/
structure NormalizedEnqueueOptions where
  priority : ℤ
  category : String
  size : ℕ
  timeout : ℕ
  workloadType : Option WorkloadType
  params : Record
  functionCode : Option String
  batch : Bool
  requestId : Option RequestId

/-- The fields of `QueueOptionsParser`. -/
structure QueueOptionsParser where
  /-- `ALLOW_CUSTOM_WORKLOAD === 'true'`. -/
  allowCustomWorkload : Bool := false
  workloadGeneralQueueFallbackCount : ℕ := 0

namespace QueueOptionsParser

/-- `parsePositiveIntegerOption(value, optionName, fallback)`. -/
def parsePositiveIntegerOption (value : JsValue) (optionName : String) (fallback : ℕ) :
    Except String ℕ :=
  if value.isNullish then .ok fallback
  else match value.toNumber.toInteger? with
    | some n =>
      if n ≤ 0 then .error (optionName ++ " 값은 0보다 큰 정수여야 합니다.") else .ok n.toNat
    | none => .error (optionName ++ " 값은 0보다 큰 정수여야 합니다.")

/-- `parsePriorityOption(value)`. -/
def parsePriorityOption (value : JsValue) : Except String ℤ :=
  if value.isNullish then .ok 0
  else match value.toNumber.toInteger? with
    | some n => .ok n
    | none => .error "priority는 정수여야 합니다."

/-- `parseCategoryOption(value)`. -/
def parseCategoryOption (value : JsValue) : Except String String :=
  if value.isNullish then .ok "default"
  else match value with
    | .str s =>
      if trim s = "" then .error "category는 빈 문자열일 수 없습니다." else .ok (trim s)
    | _ => .error "category는 문자열이어야 합니다."

/-- `parseParamsOption(value)`. -/
def parseParamsOption (value : JsValue) : Except String Record :=
  if value.isNullish then .ok []
  else match value with
    | .obj fields => .ok fields
    | _ => .error "params는 객체 형태여야 합니다."

/-- The refusal of custom workloads where they are not allowed. -/
def customDisabledMessage : String := "custom workload 기능이 비활성화되어 있습니다."

/-- `value === undefined || value === null || value === ''`. -/
def isBlank (value : JsValue) : Bool :=
  match value with
  | .undefined | .null => true
  | .str s => s == ""
  | _ => false

/-- `parseFunctionCodeOption(value)`. -/
def parseFunctionCodeOption (p : QueueOptionsParser) (value : JsValue) :
    Except String (Option String) :=
  if isBlank value then .ok none
  else match value with
    | .str s => if p.allowCustomWorkload then .ok (some s) else .error customDisabledMessage
    | _ => .error "functionCode는 문자열이어야 합니다."

/-- `parseWorkloadTypeOption(value)`: a type that is not recognised falls back to `unknown`,
and is counted. -/
def parseWorkloadTypeOption (p : QueueOptionsParser) (value : JsValue) :
    Except String (Option WorkloadType) × QueueOptionsParser :=
  if isBlank value then (.ok none, p)
  else match value with
    | .str s =>
      let normalized := toLowerCase (trim s)
      if normalized = "cpu" then (.ok (some .cpu), p)
      else if normalized = "memory" then (.ok (some .memory), p)
      else if normalized = "custom" then
        (if p.allowCustomWorkload then .ok (some .custom) else .error customDisabledMessage, p)
      else (.ok (some .unknown),
        { p with workloadGeneralQueueFallbackCount := p.workloadGeneralQueueFallbackCount + 1 })
    | _ => (.error "workloadType은 문자열이어야 합니다.", p)

/-- The options `normalizeEnqueueOptions` reads before the workload type. -/
def parseLeading (options : EnqueueOptions) (defaultTimeout : ℕ) :
    Except String (ℤ × String × ℕ × ℕ) := do
  let priority ← parsePriorityOption options.priority
  let category ← parseCategoryOption options.category
  let size ← parsePositiveIntegerOption options.size "size" 1
  let timeout ← parsePositiveIntegerOption options.timeout "timeout" defaultTimeout
  return (priority, category, size, timeout)

/-- The options `normalizeEnqueueOptions` reads after the workload type. -/
def parseTrailing (p : QueueOptionsParser) (options : EnqueueOptions) :
    Except String (Record × Option String) := do
  let params ← parseParamsOption options.params
  let functionCode ← p.parseFunctionCodeOption options.functionCode
  return (params, functionCode)

/-- `options.batch === true`. -/
def isBatch (options : EnqueueOptions) : Bool :=
  match options.batch with
  | .bool b => b
  | _ => false

/-- `normalizeEnqueueOptions(options, defaultTimeout)`. -/
def normalizeEnqueueOptions (p : QueueOptionsParser) (options : EnqueueOptions)
    (defaultTimeout : ℕ) : Except String NormalizedEnqueueOptions × QueueOptionsParser :=
  match parseLeading options defaultTimeout with
  | .error message => (.error message, p)
  | .ok (priority, category, size, timeout) =>
    let (workloadType, p) := p.parseWorkloadTypeOption options.workloadType
    match workloadType with
    | .error message => (.error message, p)
    | .ok workloadType =>
      match p.parseTrailing options with
      | .error message => (.error message, p)
      | .ok (params, functionCode) =>
        (.ok {
          priority := priority
          category := category
          size := size
          timeout := timeout
          workloadType := workloadType
          params := params
          functionCode := functionCode
          batch := isBatch options
          requestId := options.requestId }, p)

/-- What a check that passes returns is positive. -/
theorem parsePositiveIntegerOption_pos {value : JsValue} {name : String} {fallback n : ℕ}
    (hf : 0 < fallback) (h : parsePositiveIntegerOption value name fallback = .ok n) : 0 < n := by
  unfold parsePositiveIntegerOption at h
  split at h
  · cases h
    exact hf
  · split at h
    · split at h
      · cases h
      · cases h
        omega
    · cases h

/-- The checks `parseLeading` has passed. -/
theorem parseLeading_ok {options : EnqueueOptions} {defaultTimeout : ℕ} {priority : ℤ}
    {category : String} {size timeout : ℕ}
    (h : parseLeading options defaultTimeout = .ok (priority, category, size, timeout)) :
    parsePriorityOption options.priority = .ok priority ∧
      parsePositiveIntegerOption options.size "size" 1 = .ok size ∧
      parsePositiveIntegerOption options.timeout "timeout" defaultTimeout = .ok timeout := by
  simp only [parseLeading, bind, Except.bind, pure, Except.pure] at h
  split at h
  · cases h
  · rename_i priority' hpriority
    split at h
    · cases h
    · split at h
      · cases h
      · rename_i size' hsize
        split at h
        · cases h
        · rename_i timeout' htimeout
          cases h
          exact ⟨hpriority, hsize, htimeout⟩

/-- What is normalised has passed the leading checks. -/
theorem normalizeEnqueueOptions_leading {p : QueueOptionsParser} {options : EnqueueOptions}
    {defaultTimeout : ℕ} {n : NormalizedEnqueueOptions}
    (h : (p.normalizeEnqueueOptions options defaultTimeout).1 = .ok n) :
    parseLeading options defaultTimeout = .ok (n.priority, n.category, n.size, n.timeout) := by
  unfold normalizeEnqueueOptions at h
  split at h
  · cases h
  · rename_i priority category size timeout hleading
    dsimp only at h
    split at h
    · cases h
    · split at h
      · cases h
      · obtain rfl := Except.ok.inj h
        exact hleading

/-- **Accepted options carry a size of at least one.** -/
theorem normalizeEnqueueOptions_size_pos {p q : QueueOptionsParser} {options : EnqueueOptions}
    {defaultTimeout : ℕ} {n : NormalizedEnqueueOptions}
    (h : p.normalizeEnqueueOptions options defaultTimeout = (.ok n, q)) : 0 < n.size := by
  have hleading := normalizeEnqueueOptions_leading (congrArg Prod.fst h)
  exact parsePositiveIntegerOption_pos (by decide) (parseLeading_ok hleading).2.1

/-! ### Failed checks -/

/-- The text of the check of a positive integer. -/
def notPositiveMessage (optionName : String) : String := optionName ++ " 값은 0보다 큰 정수여야 합니다."

/-- The texts `normalizeEnqueueOptions` throws. -/
def checkMessages : List String :=
  [notPositiveMessage "size", notPositiveMessage "timeout", "priority는 정수여야 합니다.",
    "category는 빈 문자열일 수 없습니다.", "category는 문자열이어야 합니다.",
    "params는 객체 형태여야 합니다.", customDisabledMessage, "functionCode는 문자열이어야 합니다.",
    "workloadType은 문자열이어야 합니다."]

variable {p : QueueOptionsParser} {options : EnqueueOptions} {value : JsValue} {message : String}

theorem parsePositiveIntegerOption_error {name : String} {fallback : ℕ}
    (h : parsePositiveIntegerOption value name fallback = .error message) :
    message = notPositiveMessage name := by
  unfold parsePositiveIntegerOption at h
  split at h
  · cases h
  · split at h
    · split at h
      · exact (Except.error.inj h).symm
      · cases h
    · exact (Except.error.inj h).symm

theorem parseLeading_error {defaultTimeout : ℕ}
    (h : parseLeading options defaultTimeout = .error message) : message ∈ checkMessages := by
  simp only [parseLeading, bind, Except.bind, pure, Except.pure] at h
  split at h
  · rename_i hpriority
    cases h
    simp only [parsePriorityOption] at hpriority
    split at hpriority
    · cases hpriority
    · split at hpriority
      · cases hpriority
      · cases hpriority
        simp [checkMessages]
  · split at h
    · rename_i hcategory
      cases h
      simp only [parseCategoryOption] at hcategory
      split at hcategory
      · cases hcategory
      · split at hcategory
        · split at hcategory
          · cases hcategory
            simp [checkMessages]
          · cases hcategory
        · cases hcategory
          simp [checkMessages]
    · split at h
      · rename_i hsize
        cases h
        simp [checkMessages, parsePositiveIntegerOption_error hsize]
      · split at h
        · rename_i htimeout
          cases h
          simp [checkMessages, parsePositiveIntegerOption_error htimeout]
        · cases h

theorem parseWorkloadTypeOption_error (h : (p.parseWorkloadTypeOption value).1 = .error message) :
    message ∈ checkMessages := by
  unfold parseWorkloadTypeOption at h
  split at h
  · cases h
  · split at h
    · dsimp only at h
      split at h
      · cases h
      · split at h
        · cases h
        · split at h
          · dsimp only at h
            split at h
            · cases h
            · cases h
              simp [checkMessages]
          · cases h
    · cases h
      simp [checkMessages]

theorem parseTrailing_error (h : p.parseTrailing options = .error message) :
    message ∈ checkMessages := by
  simp only [parseTrailing, bind, Except.bind, pure, Except.pure] at h
  split at h
  · rename_i hparams
    cases h
    simp only [parseParamsOption] at hparams
    split at hparams
    · cases hparams
    · split at hparams
      · cases hparams
      · cases hparams
        simp [checkMessages]
  · split at h
    · rename_i hcode
      cases h
      simp only [parseFunctionCodeOption] at hcode
      split at hcode
      · cases hcode
      · split at hcode
        · split at hcode
          · cases hcode
          · cases hcode
            simp [checkMessages]
        · cases hcode
          simp [checkMessages]
    · cases h

/-- **Every error of the parser is the text of one of its checks.** -/
theorem normalizeEnqueueOptions_error {defaultTimeout : ℕ}
    (h : (p.normalizeEnqueueOptions options defaultTimeout).1 = .error message) :
    message ∈ checkMessages := by
  unfold normalizeEnqueueOptions at h
  split at h
  · rename_i hleading
    cases h
    exact parseLeading_error hleading
  · dsimp only at h
    split at h
    · rename_i hworkload
      cases h
      exact parseWorkloadTypeOption_error hworkload
    · split at h
      · rename_i htrailing
        cases h
        exact parseTrailing_error htrailing
      · cases h

end QueueOptionsParser

end BulkTraffic.Queue
