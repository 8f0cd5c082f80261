import BulkTraffic.Js.IntegerText
import BulkTraffic.Js.Rounding
import BulkTraffic.Lab.ConsumerConfig
import BulkTraffic.LoadTest.Compare

/-!
# Strict integer settings

`readNonNegativeIntEnv` and `requirePositiveIntEnv` refuse a malformed value instead of falling back,
and `validateEnv` refuses one when the server starts. All three ask `parseInt`, which reads the
leading digits and leaves the rest of the text unread.

`strictIntegers` says for which values each of them keeps to the decimal notation of an integer: the
value begins with no number in range, or the number ends the value and is one that JavaScript can
hold. `12abc`, `3.7` and `1e3` are read as `12`, `3` and `1` (`not_strict_of_garbage`).
-/

namespace BulkTraffic.Config

open BulkTraffic.Js BulkTraffic.Lab BulkTraffic.LoadTest

/-! ### Required variables -/

/-- The message for a variable that is missing. -/
def missingEnv (name : String) : String :=
  s!"{name} 환경변수가 필요합니다. 기본값으로 대신하면 의도하지 않은 대상에 접속할 수 있어 대신하지 않습니다."

/-- `requireEnv(name)`. -/
def requireEnv (env : Env) (name : String) : Except String String :=
  match env name with
  | none => .error (missingEnv name)
  | some raw => if trim raw = "" then .error (missingEnv name) else .ok (trim raw)

/-- `requirePositiveIntEnv(name)`. -/
def requirePositiveIntEnv (env : Env) (name : String) : Except String Number := do
  let raw ← requireEnv env name
  let parsed := parseInt raw
  if !parsed.isFinite || Number.le parsed (.finite 0) then
    .error s!"{name}는 0보다 큰 정수여야 합니다. 현재 값: {raw}"
  else .ok parsed

/-! ### Checking the environment at the start -/

/-- `EnvMap`. -/
abbrev EnvMap := String → JsValue

mutual

/-- `String(value)`, of a value that can be converted. -/
def stringOf : JsValue → String
  | .undefined => "undefined"
  | .null => "null"
  | .bool b => if b then "true" else "false"
  | .num n => numberText n
  | .str s => s
  | .arr items => ",".intercalate (itemTexts items)
  | .obj _ => "[object Object]"

/-- The texts of the items of an array. -/
def itemTexts : List JsValue → List String
  | [] => []
  | item :: items => (if item.isNullish then "" else stringOf item) :: itemTexts items

end

/-- `String(value)`. -/
def toText (value : JsValue) : Except String String :=
  if value.isConvertible then .ok (stringOf value)
  else .error "Cannot convert object to primitive value"

/-- `POSITIVE_INT_KEYS`. -/
def positiveIntKeys : List String :=
  ["PORT", "UV_THREADPOOL_SIZE", "QUEUE_CONCURRENT_TASKS", "QUEUE_MAX_CONCURRENT_REQUESTS",
   "QUEUE_TASK_TIMEOUT_MS", "QUEUE_EXECUTION_TIMEOUT_MS", "QUEUE_OVERFLOW_THRESHOLD",
   "QUEUE_PROCESS_INTERVAL_MS", "QUEUE_MEMORY_CHECK_INTERVAL_MS", "QUEUE_STATS_LOG_INTERVAL_MS",
   "QUEUE_SNAPSHOT_INTERVAL_MS", "QUEUE_SNAPSHOT_MAX_AGE_MS", "WORKER_POOL_SIZE",
   "WORKER_MAX_CPU_CONCURRENCY", "WORKER_MAX_MEMORY_CONCURRENCY", "WORKER_MAX_CUSTOM_CONCURRENCY"]

/-- `value === undefined || value === null || value === ''`. -/
def isUnset : JsValue → Bool
  | .undefined | .null => true
  | .str s => s == ""
  | _ => false

/-- `assertPositiveInt(value, key)`. -/
def assertPositiveInt (value : JsValue) (key : String) : Except String Unit :=
  if isUnset value then .ok ()
  else do
    let text ← toText value
    let parsed := parseInt text
    if !parsed.isFinite || Number.le parsed (.finite 0) then .error s!"{key}는 0보다 큰 정수여야 합니다."
    else .ok ()

/-- A setting that is not set or one of two words. -/
def assertOneOf (value : JsValue) (first second message : String) : Except String Unit :=
  match value with
  | .undefined => .ok ()
  | .str s => if s = first ∨ s = second then .ok () else .error message
  | _ => .error message

/-- A setting that is not set or a string. -/
def assertString (value : JsValue) (message : String) : Except String Unit :=
  match value with
  | .undefined | .str _ => .ok ()
  | _ => .error message

/-- `WORKER_ENGINES.join(', ')`. -/
def workerEnginesText : String := "node, go, both, kafka"

/-- `parseWorkerEngine(raw)`. -/
def parseWorkerEngine (raw : Option String) : Option WorkerEngine :=
  match raw with
  | none => none
  | some raw =>
    let normalized := toLowerCase (trim raw)
    if normalized = "" then none
    else if normalized = "node" then some .node
    else if normalized = "go" then some .go
    else if normalized = "both" then some .both
    else if normalized = "kafka" then some .kafka
    else none

example : parseWorkerEngine (some " Kafka ") = some .kafka := by decide +kernel

/-- Kafka needs the address of a broker. -/
def assertBrokers (brokers : JsValue) : Except String Unit := do
  assertString brokers "KAFKA_BROKERS는 콤마(,)로 구분된 문자열이어야 합니다."
  let parsedBrokers := match brokers with
    | .str s => commaSeparated s
    | _ => []
  if parsedBrokers.length = 0 then
    .error "WORKER_ENGINE=kafka 이면 KAFKA_BROKERS에 브로커 주소가 최소 하나 있어야 합니다."
  else .ok ()

/-- The engine is not set, blank, or one of the four. -/
def assertWorkerEngine (workerEngine brokers : JsValue) : Except String Unit :=
  if workerEngine.isNullish then .ok ()
  else do
    let text ← toText workerEngine
    if trim text = "" then .ok ()
    else match parseWorkerEngine (some text) with
      | none => .error s!"WORKER_ENGINE은 {workerEnginesText} 중 하나여야 합니다."
      | some .kafka => assertBrokers brokers
      | some _ => .ok ()

/-- `validateEnv(config)`. -/
def validateEnv (config : EnvMap) : Except String EnvMap := do
  positiveIntKeys.forM fun key => assertPositiveInt (config key) key
  assertOneOf (config "DISABLE_WORKERS") "true" "false"
    "DISABLE_WORKERS는 true 또는 false 문자열이어야 합니다."
  assertOneOf (config "ALLOW_CUSTOM_WORKLOAD") "true" "false"
    "ALLOW_CUSTOM_WORKLOAD는 true 또는 false 문자열이어야 합니다."
  assertOneOf (config "QUEUE_PERSISTENCE") "file" "none"
    "QUEUE_PERSISTENCE는 file 또는 none 문자열이어야 합니다."
  assertString (config "QUEUE_SNAPSHOT_PATH") "QUEUE_SNAPSHOT_PATH는 문자열이어야 합니다."
  assertString (config "ALLOWED_ORIGINS") "ALLOWED_ORIGINS는 콤마(,)로 구분된 문자열이어야 합니다."
  assertWorkerEngine (config "WORKER_ENGINE") (config "KAFKA_BROKERS")
  return config

/-! ### Which numbers are read -/

/-- `parseInt` finds a number in the text that JavaScript can hold, and it is not below `low`. -/
def Reads (low : ℤ) (text : String) : Prop :=
  (integerParts text).digits ≠ [] ∧ low ≤ (integerParts text).value ∧
    (binary64 (integerParts text).value).isFinite = true

instance (low : ℤ) (text : String) : Decidable (Reads low text) :=
  inferInstanceAs (Decidable (_ ∧ _ ∧ _))

/-- What `parseInt` gives where it finds a number. -/
def readValue (text : String) : Number := binary64 (integerParts text).value

/-- A number is returned only for its own notation. -/
def ReturnsOnly (low : ℤ) (text : String) (result : Except String Number) : Prop :=
  ∀ n, result = .ok n → ∃ z : ℤ, n = .finite z ∧ low ≤ z ∧ IsNotation text.toList z

/-- A number that is read ends the text and is one that JavaScript can hold. -/
def ReadsExactly (low : ℤ) (text : String) : Prop :=
  Reads low text → (integerParts text).rest = [] ∧ readValue text = .finite (integerParts text).value

instance (low : ℤ) (text : String) : Decidable (ReadsExactly low text) :=
  inferInstanceAs (Decidable (Reads low text → _ ∧ _))

theorem parseInt_of_digits {text : String} (h : (integerParts text).digits ≠ []) :
    parseInt text = readValue text := by
  rw [parseInt_eq, if_neg h, readValue]

theorem parseInt_of_reads {low : ℤ} {text : String} (h : Reads low text) : parseInt text = readValue text :=
  parseInt_of_digits h.1

/-- `!Number.isFinite(parsed) || parsed < 0`, or with another comparison. -/
theorem refused_eq {low : ℤ} (below : Number → Bool) (hbelow : ∀ z : ℤ, below (binary64 z) = decide (z < low))
    (text : String) : (!(parseInt text).isFinite || below (parseInt text)) = !decide (Reads low text) := by
  by_cases hdigits : (integerParts text).digits = []
  · have hnot : ¬ Reads low text := fun h => h.1 hdigits
    rw [parseInt_eq, if_pos hdigits, decide_eq_false hnot]
    rfl
  · rw [parseInt_eq, if_neg hdigits, hbelow, Bool.eq_iff_iff]
    simp only [Reads, ne_eq, hdigits, not_false_eq_true, true_and, Bool.or_eq_true, Bool.not_eq_true',
      decide_eq_true_eq, decide_eq_false_iff_not, not_and_or, Bool.not_eq_true, not_le]
    exact or_comm

/-- `parsed < 0` leaves the numbers from `0` on. -/
theorem refused_lt (text : String) :
    (!(parseInt text).isFinite || Number.lt (parseInt text) (.finite 0)) = !decide (Reads 0 text) :=
  refused_eq (fun n => Number.lt n (.finite 0)) Number.lt_binary64_zero text

/-- `parsed <= 0` leaves the numbers from `1` on. -/
theorem refused_le (text : String) :
    (!(parseInt text).isFinite || Number.le (parseInt text) (.finite 0)) = !decide (Reads 1 text) :=
  refused_eq (fun n => Number.le n (.finite 0)) Number.le_binary64_zero text

/-! ### The two readers -/

/-- A reader that refuses the texts without a number, and returns the number otherwise. -/
def ReadBy (low : ℤ) (text : String) (result : Except String Number) : Prop :=
  ∃ e, result = if Reads low text then .ok (readValue text) else .error e

theorem readBy_of_refused {low : ℤ} {text : String} {refused : Bool} (e : String)
    (h : refused = !decide (Reads low text)) :
    ReadBy low text (if refused then .error e else .ok (parseInt text)) := by
  refine ⟨e, ?_⟩
  by_cases hreads : Reads low text
  · rw [h, decide_eq_true hreads, if_pos hreads, parseInt_of_reads hreads]
    rfl
  · rw [h, decide_eq_false hreads, if_neg hreads]
    rfl

theorem readBy_readNonNegativeIntEnv {env : Env} {name raw : String} (henv : env name = some raw)
    (hne : raw ≠ "") (fallback : Number) :
    ReadBy 0 (trim raw) (readNonNegativeIntEnv env name fallback) := by
  rw [readNonNegativeIntEnv_of_ne henv hne, ← parseInt_trim]
  exact readBy_of_refused _ (refused_lt (trim raw))

theorem requirePositiveIntEnv_of_error {env : Env} {name e : String} (h : requireEnv env name = .error e) :
    requirePositiveIntEnv env name = .error e := by
  rw [requirePositiveIntEnv, h]
  rfl

theorem requirePositiveIntEnv_of_ok {env : Env} {name raw : String} (h : requireEnv env name = .ok raw) :
    requirePositiveIntEnv env name =
      if !(parseInt raw).isFinite || Number.le (parseInt raw) (.finite 0) then
        .error s!"{name}는 0보다 큰 정수여야 합니다. 현재 값: {raw}"
      else .ok (parseInt raw) := by
  rw [requirePositiveIntEnv, h]
  rfl

theorem readBy_requirePositiveIntEnv {env : Env} {name raw : String} (henv : env name = some raw) :
    ReadBy 1 (trim raw) (requirePositiveIntEnv env name) := by
  by_cases hblank : trim raw = ""
  · have hempty : ¬ Reads 1 "" := by decide
    have herror : requireEnv env name = .error (missingEnv name) := by
      rw [requireEnv, henv]
      exact if_pos hblank
    refine ⟨missingEnv name, ?_⟩
    rw [requirePositiveIntEnv_of_error herror, hblank, if_neg hempty]
  · have hok : requireEnv env name = .ok (trim raw) := by
      rw [requireEnv, henv]
      exact if_neg hblank
    rw [requirePositiveIntEnv_of_ok hok]
    exact readBy_of_refused _ (refused_le (trim raw))

/-- **When such a reader keeps to notations.** -/
theorem returnsOnly_iff {low : ℤ} {text : String} {result : Except String Number}
    (h : ReadBy low text result) (htrim : text.toList.dropWhile isWhite = text.toList) :
    ReturnsOnly low text result ↔ ReadsExactly low text := by
  obtain ⟨e, rfl⟩ := h
  constructor
  · intro hreturns hreads
    rw [if_pos hreads] at hreturns
    obtain ⟨z, hn, hlow, hwritten⟩ := hreturns _ rfl
    obtain ⟨hdigits, -, hrest, rfl⟩ := (isNotation_iff text z).mp hwritten
    exact ⟨hrest, hn⟩
  · intro hexact n hn
    by_cases hreads : Reads low text
    · obtain ⟨hrest, hvalue⟩ := hexact hreads
      rw [if_pos hreads] at hn
      rw [← Except.ok.inj hn]
      exact ⟨_, hvalue, hreads.2.1, (isNotation_iff text _).mpr ⟨hreads.1, htrim, hrest, rfl⟩⟩
    · rw [if_neg hreads] at hn
      cases hn

/-- What is the notation of a number JavaScript can hold is read as that number. -/
theorem eq_ok_of_isNotation {low z : ℤ} {text : String} {result : Except String Number}
    (h : ReadBy low text result) (hlow : low ≤ z) (hwritten : IsNotation text.toList z)
    (hexact : binary64 z = .finite z) : result = .ok (.finite z) := by
  obtain ⟨e, rfl⟩ := h
  obtain ⟨hdigits, -, -, rfl⟩ := (isNotation_iff text z).mp hwritten
  have hfinite : (binary64 (integerParts text).value).isFinite = true := by rw [hexact]; rfl
  rw [if_pos ⟨hdigits, hlow, hfinite⟩, readValue, hexact]

/-! ### The check at the start -/

/-- Every environment that sets the key to the text and is accepted sets it to nothing or to a
positive integer. -/
def AcceptsOnly (key raw : String) : Prop :=
  ∀ config result, config key = .str raw → validateEnv config = .ok result →
    raw = "" ∨ ∃ z : ℤ, 0 < z ∧ IsNotation raw.toList z

/-- A number that is read is the whole text. -/
def IsReadWhole (raw : String) : Prop :=
  Reads 1 raw → raw.toList.dropWhile isWhite = raw.toList ∧ (integerParts raw).rest = []

instance (raw : String) : Decidable (IsReadWhole raw) :=
  inferInstanceAs (Decidable (Reads 1 raw → _ ∧ _))

theorem forM_eq_ok {α ε : Type} {l : List α} {f : α → Except ε Unit} :
    l.forM f = .ok () ↔ ∀ a ∈ l, f a = .ok () := by
  induction l with
  | nil => simp [pure, Except.pure]
  | cons a l ih =>
    rw [List.forall_mem_cons, ← ih, List.forM]
    cases f a with
    | error e => simp [bind, Except.bind]
    | ok u => simp [bind, Except.bind]

theorem assertPositiveInt_str (raw key : String) :
    assertPositiveInt (.str raw) key = .ok () ↔ raw = "" ∨ Reads 1 raw := by
  by_cases hempty : raw = ""
  · subst hempty
    exact iff_of_true rfl (.inl rfl)
  · have hset : isUnset (.str raw) = false := by simp [isUnset, hempty]
    have hassert : assertPositiveInt (.str raw) key =
        if !(parseInt raw).isFinite || Number.le (parseInt raw) (.finite 0) then
          .error s!"{key}는 0보다 큰 정수여야 합니다."
        else .ok () := by
      rw [assertPositiveInt, hset]
      rfl
    rw [hassert, refused_le, or_iff_right hempty]
    by_cases hreads : Reads 1 raw
    · simp [hreads]
    · simp [hreads]

/-- An accepted environment has passed the checks of its integers. -/
theorem assertPositiveInt_of_accepted {config result : EnvMap} (h : validateEnv config = .ok result)
    {key : String} (hkey : key ∈ positiveIntKeys) : assertPositiveInt (config key) key = .ok () := by
  obtain ⟨u, hall, -⟩ := bind_eq_ok h
  exact forM_eq_ok.mp hall key hkey

/-- An environment with one integer only is accepted if the integer is. -/
theorem validateEnv_single {key raw : String} (hkey : key ∈ positiveIntKeys)
    (h : assertPositiveInt (.str raw) key = .ok ()) :
    ∃ config, config key = .str raw ∧ validateEnv config = .ok config := by
  refine ⟨fun k => if k = key then .str raw else .undefined, if_pos rfl, ?_⟩
  have hother : ∀ k, k ∉ positiveIntKeys → (if k = key then JsValue.str raw else .undefined) = .undefined := by
    rintro k hk
    apply if_neg
    rintro rfl
    exact hk hkey
  have hall : (positiveIntKeys.forM fun k =>
      assertPositiveInt (if k = key then .str raw else .undefined) k) = .ok () := by
    rw [forM_eq_ok]
    intro k hk
    by_cases heq : k = key
    · rw [if_pos heq, heq]
      exact h
    · rw [if_neg heq]
      rfl
  simp only [validateEnv, hall]
  rw [hother "DISABLE_WORKERS" (by decide), hother "ALLOW_CUSTOM_WORKLOAD" (by decide),
    hother "QUEUE_PERSISTENCE" (by decide), hother "QUEUE_SNAPSHOT_PATH" (by decide),
    hother "ALLOWED_ORIGINS" (by decide), hother "WORKER_ENGINE" (by decide)]
  rfl

/-- **When the check at the start lets positive integers through only.** -/
theorem acceptsOnly_iff {key : String} (hkey : key ∈ positiveIntKeys) (raw : String) :
    AcceptsOnly key raw ↔ IsReadWhole raw := by
  constructor
  · intro honly hreads
    obtain ⟨config, hconfig, haccepted⟩ :=
      validateEnv_single hkey ((assertPositiveInt_str raw key).mpr (.inr hreads))
    rcases honly config config hconfig haccepted with rfl | ⟨z, -, hwritten⟩
    · exact absurd hreads (by decide)
    · obtain ⟨-, hdrop, hrest, -⟩ := (isNotation_iff raw z).mp hwritten
      exact ⟨hdrop, hrest⟩
  · intro hwhole config result hconfig haccepted
    have hassert := assertPositiveInt_of_accepted haccepted hkey
    rw [hconfig] at hassert
    apply ((assertPositiveInt_str raw key).mp hassert).imp_right
    intro hreads
    obtain ⟨hdrop, hrest⟩ := hwhole hreads
    exact ⟨_, hreads.2.1, (isNotation_iff raw _).mpr ⟨hreads.1, hdrop, hrest, rfl⟩⟩

/-- **Which values of a variable each of the three readers reads strictly.** The notation of a number
in range that JavaScript can hold is always read as that number. -/
theorem strictIntegers {env : Env} {name raw : String} (henv : env name = some raw) {key : String}
    (hkey : key ∈ positiveIntKeys) (fallback : Number) :
    (raw = "" → readNonNegativeIntEnv env name fallback = .ok fallback) ∧
    (raw ≠ "" → (ReturnsOnly 0 (trim raw) (readNonNegativeIntEnv env name fallback) ↔
      ReadsExactly 0 (trim raw))) ∧
    (ReturnsOnly 1 (trim raw) (requirePositiveIntEnv env name) ↔ ReadsExactly 1 (trim raw)) ∧
    (AcceptsOnly key raw ↔ IsReadWhole raw) ∧
    (∀ z : ℤ, IsNotation (trim raw).toList z → binary64 z = .finite z →
      (0 ≤ z → readNonNegativeIntEnv env name fallback = .ok (.finite z)) ∧
      (1 ≤ z → requirePositiveIntEnv env name = .ok (.finite z))) ∧
    (∀ unset : Env, unset name = none → readNonNegativeIntEnv unset name fallback = .ok fallback ∧
      requirePositiveIntEnv unset name = .error (missingEnv name)) := by
  have hpositive := readBy_requirePositiveIntEnv henv
  have hdrop := dropWhile_trim raw
  refine ⟨?_, ?_, returnsOnly_iff hpositive hdrop, acceptsOnly_iff hkey raw, ?_, ?_⟩
  · rintro rfl
    simp only [readNonNegativeIntEnv, henv]
  · intro hne
    exact returnsOnly_iff (readBy_readNonNegativeIntEnv henv hne fallback) hdrop
  · intro z hwritten hexact
    refine ⟨fun hlow => ?_, fun hlow => eq_ok_of_isNotation hpositive hlow hwritten hexact⟩
    have hne : raw ≠ "" := by
      rintro rfl
      obtain ⟨hdigits, -⟩ := (isNotation_iff _ z).mp hwritten
      exact hdigits (by decide)
    exact eq_ok_of_isNotation (readBy_readNonNegativeIntEnv henv hne fallback) hlow hwritten hexact
  · intro unset hunset
    have herror : requireEnv unset name = .error (missingEnv name) := by simp only [requireEnv, hunset]
    constructor
    · simp only [readNonNegativeIntEnv, hunset]
    · exact requirePositiveIntEnv_of_error herror

/-- ` 42 ` is read as `42`. -/
theorem strictIntegers_of_spaces :
    readNonNegativeIntEnv (fun _ => some " 42 ") "PORT" (.finite 0) = .ok (.finite 42) ∧
    ReturnsOnly 1 (trim " 42 ") (requirePositiveIntEnv (fun _ => some " 42 ") "PORT") := by
  obtain ⟨-, -, hpositive, -, hread, -⟩ := @strictIntegers (fun _ => some " 42 ") "PORT" " 42 " rfl "PORT"
    (by decide) (.finite 0)
  have hwritten : IsNotation (trim " 42 ").toList 42 :=
    @IsNotation.unsigned ['4', '2'] (by decide) (List.all_eq_true.mp rfl)
  have hexact : binary64 (42 : ℤ) = .finite (42 : ℤ) := by exact_mod_cast binary64_natCast (n := 42) (by decide)
  exact ⟨(hread 42 hwritten hexact).1 (by decide), hpositive.mpr (by decide +kernel)⟩

/-- `12abc` is read as `12`, `3.7` as `3`, and `1e3` starts the server. -/
theorem not_strict_of_garbage :
    ¬ ReturnsOnly 0 (trim "12abc")
        (readNonNegativeIntEnv (fun _ => some "12abc") "CONSUMER_DELAY_MS" (.finite 0)) ∧
    ¬ ReturnsOnly 1 (trim "3.7") (requirePositiveIntEnv (fun _ => some "3.7") "BENCH_PG_PORT") ∧
    ¬ AcceptsOnly "PORT" "1e3" := by
  have hdelay := @readBy_readNonNegativeIntEnv (fun _ => some "12abc") "CONSUMER_DELAY_MS" "12abc" rfl
    (by decide) (.finite 0)
  have hport := @readBy_requirePositiveIntEnv (fun _ => some "3.7") "BENCH_PG_PORT" "3.7" rfl
  rw [returnsOnly_iff hdelay (dropWhile_trim _), returnsOnly_iff hport (dropWhile_trim _),
    acceptsOnly_iff (by decide)]
  exact ⟨by decide +kernel, by decide +kernel, by decide +kernel⟩

end BulkTraffic.Config
