import BulkTraffic.GoEngine.Handlers
import BulkTraffic.GoEngine.Retry
import BulkTraffic.Js.Stringify
import BulkTraffic.Lib.Utf8

/-!
# The execution of a task in the Go engine

The Node side writes the parameters of a task with `JSON.stringify`, a handler reads them with
`json.Unmarshal` and writes its result with `json.Marshal`, and the Node side reads that with
`JSON.parse`. `execution` is what `executeWithRetry` returns for the handler of a pool.

* `unmarshalMap_stringified`: the handler reads the parameters as the Node side would.
* `read_marshal`: the Node side reads the value the handler returned.
* `result_of_execution`: a result is one that the handler returned for the task.
-/

namespace BulkTraffic.GoEngine

open BulkTraffic.Js BulkTraffic.Lib

/-! ### From Node to Go -/

mutual

/-- How deep arrays and objects are nested. -/
def depth : Json → ℕ
  | .arr items => itemsDepth items + 1
  | .obj members => membersDepth members + 1
  | _ => 0

/-- How deep they are nested in the items of an array. -/
def itemsDepth : List Json → ℕ
  | [] => 0
  | item :: items => max (depth item) (itemsDepth items)

/-- How deep they are nested in the members of an object. -/
def membersDepth : List (String × Json) → ℕ
  | [] => 0
  | (_, value) :: members => max (depth value) (membersDepth members)

end

/-- `json.Unmarshal` reads what `JSON.stringify` writes, up to the depth it allows. -/
def GoRuntime.ReadsStringified (runtime : GoRuntime) : Prop :=
  ∀ value : Json, value.WellFormed → depth value ≤ 10000 →
    runtime.parseJson (Utf8.encode value.text) = .ok value

mutual

/-- A JavaScript number is a `float64`. -/
theorem inRange_toJson (value : JsValue) (h : value.Doubles) : inRange value.toJson = true := by
  cases value with
  | num n =>
    cases n with
    | finite q =>
      have hread : numberOfString (numberText (.finite q)) = .finite q :=
        (survives_of_isDouble h).2
      rw [JsValue.toJson, Json.ofNumber, inRange, hread]
      rfl
    | _ => rfl
  | arr items => exact itemsInRange_toJson items h
  | obj fields => exact membersInRange_toJson fields h
  | _ => rfl

theorem itemsInRange_toJson (items : List JsValue) (h : JsValue.ItemsDoubles items) :
    itemsInRange (JsValue.itemsToJson items) = true := by
  cases items with
  | nil => rfl
  | cons item items =>
    rw [JsValue.itemsToJson, itemsInRange, inRange_toJson item h.1, itemsInRange_toJson items h.2]
    rfl

theorem membersInRange_toJson (fields : Record) (h : JsValue.FieldsDoubles fields) :
    membersInRange (JsValue.fieldsToJson fields) = true := by
  cases fields with
  | nil => rfl
  | cons field fields =>
    obtain ⟨name, value⟩ := field
    have hrest := membersInRange_toJson fields h.2
    by_cases hundefined : value = .undefined
    · subst hundefined
      exact hrest
    · rw [JsValue.fieldsToJson.eq_3 _ _ _ hundefined, membersInRange, inRange_toJson value h.1, hrest]
      rfl

end

/-- The bytes of `JSON.stringify(params)`. -/
def stringified (params : Record) : List UInt8 := Utf8.encode (JsValue.obj params).toJson.text

/-- **A handler reads the parameters** as `JSON.parse` would. -/
theorem unmarshalMap_stringified {runtime : GoRuntime} (hreads : runtime.ReadsStringified)
    {params : Record} (hdoubles : JsValue.FieldsDoubles params)
    (hdepth : depth (JsValue.obj params).toJson ≤ 10000) :
    unmarshalMap runtime (stringified params) = .ok (JsValue.reparsedFields params) := by
  have hparse := hreads _ (JsValue.wellFormed_toJson (.obj params) hdoubles) hdepth
  have hrange := membersInRange_toJson params hdoubles
  have hfields := JsValue.parseMembers_fieldsToJson params hdoubles
  rw [unmarshalMap, stringified, hparse]
  simp only [JsValue.toJson, hrange, if_true, hfields]

/-! ### From Go to Node -/

/-- What `json.Marshal` writes for one character within a string. -/
def marshalChar (c : Char) : List Char :=
  if c = '<' then ['\\', 'u', '0', '0', '3', 'c']
  else if c = '>' then ['\\', 'u', '0', '0', '3', 'e']
  else if c = '&' then ['\\', 'u', '0', '0', '2', '6']
  else if c.toNat = 0x2028 then ['\\', 'u', '2', '0', '2', '8']
  else if c.toNat = 0x2029 then ['\\', 'u', '2', '0', '2', '9']
  else Json.escapeChar c

/-- `json.Marshal(value)`. -/
def marshal (value : Json) : List UInt8 := Utf8.encode (value.textWith marshalChar)

theorem undone_marshalChar : Json.Undone marshalChar where
  read c rest := by
    have hof : ∀ n, c.toNat = n → Char.ofNat n = c := fun n hn => hn ▸ Char.ofNat_toNat c
    unfold marshalChar
    split
    · rename_i h
      rw [h]
      rfl
    split
    · rename_i h
      rw [h]
      rfl
    split
    · rename_i h
      rw [h]
      rfl
    split
    · rename_i h
      rw [← hof _ h]
      rfl
    split
    · rename_i h
      rw [← hof _ h]
      rfl
    · exact Json.readChar_escapeChar c rest
  head c := by
    unfold marshalChar
    repeat' split
    all_goals first
      | exact ⟨_, _, rfl, by decide⟩
      | exact Json.head_escapeChar c

/-- **The Node side reads the value** that was marshalled. -/
theorem read_marshal {value : Json} (h : value.WellFormed) :
    Json.read (Utf8.decode (marshal value)) = some value := by
  rw [marshal, Utf8.decode_encode, Json.read_textWith undone_marshalChar h]

theorem marshal_ne_nil {value : Json} (h : value.WellFormed) : marshal value ≠ [] := by
  intro hnil
  have hread := read_marshal h
  rw [hnil] at hread
  cases hread

theorem wellFormed_jsonInt (n : ℤ) : (jsonInt n).WellFormed := by
  change IsNumber (toString n).toList
  cases n with
  | ofNat n =>
    change IsNumber (Nat.repr n).toList
    rw [Nat.repr_eq_ofList_toDigits, String.toList_ofList]
    exact .positive (isMagnitude_toDigits n)
  | negSucc n =>
    change IsNumber ("-" ++ Nat.repr (n + 1)).toList
    rw [String.toList_append, Nat.repr_eq_ofList_toDigits]
    change IsNumber ('-' :: (String.ofList (Nat.toDigits 10 (n + 1))).toList)
    rw [String.toList_ofList]
    exact .negative (isMagnitude_toDigits (n + 1))

theorem itemsWellFormed_map {α : Type} (f : α → Json) (h : ∀ a, (f a).WellFormed) (l : List α) :
    Json.ItemsWellFormed (l.map f) := by
  induction l with
  | nil => trivial
  | cons a l ih => exact ⟨h a, ih⟩

/-- What a handler returns has numbers that can be read. -/
theorem wellFormed_of_result {runtime : GoRuntime} {pool taskID : String} {ctx : HandlerContext}
    {payload : List UInt8} {value : Json} (h : handlerOf pool runtime ctx taskID payload = .result value) :
    value.WellFormed := by
  rw [handlerOf] at h
  split at h
  · rw [ioHandler] at h
    split at h
    · cases h
    · cases h
      exact ⟨wellFormed_jsonInt _, trivial, trivial, trivial⟩
  split at h
  · rw [batchHandler] at h
    split at h
    · cases h
    split at h
    · cases h
    · cases h
      exact ⟨wellFormed_jsonInt _, wellFormed_jsonInt _, itemsWellFormed_map .str (fun _ => trivial) _,
        trivial, trivial⟩
  · rw [cpuHandler] at h
    split at h
    · cases h
    dsimp only at h
    split at h
    · split at h
      · cases h
        have hprimes : ∀ primes : List ℕ,
            Json.ItemsWellFormed (primes.map fun (p : ℕ) => jsonInt p) :=
          itemsWellFormed_map _ fun p => wellFormed_jsonInt p
        exact ⟨hprimes _, hprimes _, wellFormed_jsonInt _, trivial, trivial⟩
      · cases h
      · cases h
    · split at h
      · cases h
      · cases h
        exact ⟨trivial, wellFormed_jsonInt _, trivial, trivial⟩

/-! ### Execution -/

/-- The `Retry` settings of `main`, in nanoseconds. -/
def mainRetry (pool : String) : RetryConfig :=
  if pool = "io" then { maxRetries := 3, baseDelay := 200000000, maxDelay := 5000000000 }
  else if pool = "batch" then { maxRetries := 3, baseDelay := 500000000, maxDelay := 10000000000 }
  else { maxRetries := 3, baseDelay := 100000000, maxDelay := 2000000000 }

/-- What comes from outside while a task is executed. -/
structure Attempts where
  /-- The context as the handler sees it, in each attempt. -/
  context : ℕ → HandlerContext
  /-- `ctx.Err()`, where the wait after an attempt ends with the context. -/
  contextDone : ℕ → Option String
  /-- The random numbers of the waits. -/
  random : ℕ → ℕ

/-- What a handler returns, if it does. -/
def HandlerOutcome.returned? : HandlerOutcome → Option HandlerResult
  | .result value => some (.ok (marshal value))
  | .error message => some (.error message)
  | .panicked _ => none

/-- What `executeWithRetry` returns, if it does. -/
def RetryOutcome.returned? : RetryOutcome → Option HandlerResult
  | .returned result none => some (.ok result)
  | .returned _ (some message) => some (.error message)
  | .panicked _ => none

/-- What an attempt returns. -/
def attempt (runtime : GoRuntime) (pool taskID : String) (payload : List UInt8) (attempts : Attempts)
    (i : ℕ) : Option HandlerResult :=
  (handlerOf pool runtime (attempts.context i) taskID payload).returned?

/-- The run of `executeWithRetry(..)` for a task of a pool of `main`. -/
def retryRun (runtime : GoRuntime) (pool taskID : String) (payload : List UInt8) (attempts : Attempts) :
    RetryRun :=
  (mainRetry pool).executeWithRetry
    { handler := fun i => (attempt runtime pool taskID payload attempts i).getD (.error "")
      contextDone := attempts.contextDone
      random := attempts.random }

/-- What `executeWithRetry(..)` returns. It does not return if an attempt panics. -/
def execution (runtime : GoRuntime) (pool taskID : String) (payload : List UInt8) (attempts : Attempts) :
    Option HandlerResult :=
  let run := retryRun runtime pool taskID payload attempts
  if (List.range run.calls.length).all fun i => (attempt runtime pool taskID payload attempts i).isSome then
    run.outcome.returned?
  else none

theorem retries_mainRetry (pool : String) : (mainRetry pool).retries.toInt = 3 := by
  unfold mainRetry
  split_ifs <;> decide

theorem attempt_ok {runtime : GoRuntime} {pool taskID : String} {payload bytes : List UInt8}
    {attempts : Attempts} {i : ℕ} (h : attempt runtime pool taskID payload attempts i = some (.ok bytes)) :
    ∃ value, handlerOf pool runtime (attempts.context i) taskID payload = .result value ∧
      bytes = marshal value := by
  rw [attempt] at h
  cases houtcome : handlerOf pool runtime (attempts.context i) taskID payload with
  | result value =>
    rw [houtcome] at h
    exact ⟨value, rfl, (Except.ok.inj (Option.some.inj h)).symm⟩
  | error message =>
    rw [houtcome] at h
    cases h
  | panicked message =>
    rw [houtcome] at h
    cases h

/-- **A result is one that the handler returned** for this task. -/
theorem result_of_execution {runtime : GoRuntime} {pool taskID : String} {payload bytes : List UInt8}
    {attempts : Attempts} (h : execution runtime pool taskID payload attempts = some (.ok bytes)) :
    ∃ ctx value, handlerOf pool runtime ctx taskID payload = .result value ∧ bytes = marshal value := by
  rw [execution] at h
  split at h
  · rename_i hall
    have houtcome : (retryRun runtime pool taskID payload attempts).outcome = .returned bytes none := by
      unfold RetryOutcome.returned? at h
      split at h
      · rename_i hreturned
        rw [hreturned, Except.ok.inj (Option.some.inj h)]
      · cases h
      · cases h
    -- the result is that of the last call, and this call was made
    have hends : RetryConfig.Ends (retryRun runtime pool taskID payload attempts) := by
      refine RetryConfig.ends_retryLoop _ 0 none (.inl ?_)
      rw [retries_mainRetry]
      decide
    have hmem : .ok bytes ∈ (retryRun runtime pool taskID payload attempts).calls := by
      rcases hends with ⟨failed, result, hreturned, hcalls, -⟩ | ⟨hreturned, -⟩
      · rw [houtcome, RetryOutcome.returned.injEq] at hreturned
        rw [hcalls, hreturned.1]
        exact List.mem_append_right _ List.mem_cons_self
      · exact absurd houtcome (hreturned bytes)
    have hmade : (retryRun runtime pool taskID payload attempts).calls = _ :=
      RetryConfig.calls_retryLoop _ _ _ _ _
    rw [hmade] at hmem
    obtain ⟨i, hi, hcall⟩ := List.mem_map.mp hmem
    have hreturns := List.all_eq_true.mp hall i hi
    obtain ⟨result, hresult⟩ := Option.isSome_iff_exists.mp hreturns
    simp only [Nat.zero_add, hresult, Option.getD_some] at hcall
    obtain ⟨value, hvalue, hbytes⟩ := attempt_ok (hresult.trans (congrArg some hcall))
    exact ⟨_, value, hvalue, hbytes⟩
  · cases h

end BulkTraffic.GoEngine
