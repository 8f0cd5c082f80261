import BulkTraffic.Lib.Runs
import BulkTraffic.Queue.Router
import BulkTraffic.Workload.FindPrimes

/-!
# The worker thread

`worker.js`: the operations a worker has, `withTimeout`, and the listener for the messages of the
pool.

An operation runs to its end before the thread handles another message or a timer fires. What it
then does is an `OperationOutcome`; `Performs` says which are possible. Where the operation calculates with
`Math.random` or runs the code of a task, many are. `await` hands on a promise that the operation
returns, and the listener goes on with other messages.

The code of a task runs in the realm of the script. It can replace what the script uses, such as
`clearTimeout` or `Math.min`; the model is of a thread whose globals are left alone, and the results
are about threads that run no code of tasks.

* `Orderly`: where the messages of a thread are, in every run.
* `answers_in_order`: what a thread without custom code has answered. No timer ever fires.
-/

namespace BulkTraffic.Queue

open BulkTraffic.Lib BulkTraffic.Js BulkTraffic.Workload

/-! ### The operations -/

/-- What the listener is called with. -/
structure WorkerRequest where
  type : Option String := none
  operation : Option String := none
  params : Option Record := none
  functionCode : Option String := none
  timeout : Option ℕ := none

/-- The operations of `processors`. -/
inductive Operation where
  | ping
  | findPrimes
  | fibonacci
  | matrixMultiply
  | largeArray
  | objectCloning
  | execute
  /-- What `processors` or one of its objects inherits. -/
  | inherited
  deriving DecidableEq

/-- `processors`. -/
def processors : List (String × List (String × Operation)) :=
  [("system", [("ping", .ping)]),
    ("cpu", [("findPrimes", .findPrimes), ("fibonacci", .fibonacci),
      ("matrixMultiply", .matrixMultiply)]),
    ("memory", [("largeArray", .largeArray), ("objectCloning", .objectCloning)]),
    ("custom", [("execute", .execute)])]

/-- The names every object inherits. -/
def inheritedNames : List String :=
  ["constructor", "__defineGetter__", "__defineSetter__", "hasOwnProperty", "__lookupGetter__",
    "__lookupSetter__", "isPrototypeOf", "propertyIsEnumerable", "toString", "valueOf", "__proto__",
    "toLocaleString"]

/-- The operation of a request, or the error thrown. -/
def lookupOperation (data : WorkerRequest) : Except String Operation :=
  if !isText data.type || !isText data.operation then
    .error "유효하지 않은 작업 요청: type과 operation이 필요합니다"
  else
    let type := data.type.getD ""
    let operation := data.operation.getD ""
    match processors.lookup type with
    | none =>
      if inheritedNames.contains type then .ok .inherited
      else .error ("지원되지 않는 작업 유형: " ++ type)
    | some processor =>
      match processor.lookup operation with
      | some op => .ok op
      | none =>
        if inheritedNames.contains operation then .ok .inherited
        else .error ("'" ++ type ++ "' 유형에서 지원되지 않는 작업: " ++ operation)

/-- What the call of an operation does. -/
inductive OperationOutcome where
  | returns (value : JsValue)
  /-- It returns a value that `postMessage` cannot copy, and throws the error. -/
  | uncloneable (error : String)
  | promise
  | throws (thrown : Thrown)

/-- The values of `i` in the loop of `fibonacci`. -/
def fibonacciRounds (n : Number) : List ℕ := (List.range 45).takeWhile fun i => Number.lt (.finite i) n

/-- `n` of `processors.cpu.fibonacci(params)`. -/
def fibonacciIndex (params : Record) : Number :=
  Number.min ((params.field "n").orElse (.ofInt 40)).asNumber (.finite 45)

/-- The variables `a` and `b` after the loop. -/
def fibonacciPair (n : Number) : ℕ × ℕ :=
  (fibonacciRounds n).foldl (fun pair _ => (pair.2, pair.1 + pair.2)) (0, 1)

/-- `processors.cpu.fibonacci(params)`. -/
def fibonacci (params : Record) : JsValue :=
  let n := fibonacciIndex params
  .obj [("n", .num n), ("result", .ofInt (fibonacciPair n).1)]

/-- What `findPrimes` returns, as a value. -/
def primesValue (primes : Primes) : JsValue :=
  .obj [("primeCount", .ofInt primes.primeCount),
    ("first10Primes", .arr (primes.first10Primes.map fun p => .ofInt p)),
    ("last10Primes", .arr (primes.last10Primes.map fun p => .ofInt p))]

/-- The error of `custom.execute` when the code throws. -/
def codeError : Thrown → String
  | .error message => "함수 실행 중 오류: " ++ message
  | .other => "함수 실행 중 알 수 없는 오류"

/-- What the call `operationFn(params, functionCode)` may do. `allow` is `ALLOW_CUSTOM_WORKLOAD`: with
it, this is for code that leaves the globals of the thread alone. No inherited function returns a
promise. -/
def Performs (allow : Bool) (data : WorkerRequest) : Operation → OperationOutcome → Prop
  | .ping, outcome => outcome = .returns (.obj [("pong", .bool true)])
  | .findPrimes, outcome =>
    outcome = match Node.findPrimes (data.params.getD []) with
      | .ok primes => .returns (primesValue primes)
      | .error message => .throws (.error message)
  | .fibonacci, outcome => outcome = .returns (fibonacci (data.params.getD []))
  | .matrixMultiply, outcome | .largeArray, outcome | .objectCloning, outcome =>
    match outcome with
    | .returns _ | .throws (.error _) => True
    | .throws .other | .uncloneable _ | .promise => False
  | .execute, outcome =>
    if !allow then outcome = .throws (.error "custom workload 기능이 비활성화되어 있습니다")
    else if !isText data.functionCode then
      outcome = .throws (.error "실행할 함수 코드가 제공되지 않았습니다")
    else
      match outcome with
      | .throws thrown => ∃ cause, thrown = .error (codeError cause)
      | .returns _ | .uncloneable _ | .promise => True
  | .inherited, outcome => outcome ≠ .promise

/-! ### The answers -/

/-- `postMessage` in the `catch` block. The fields `operation` and `duration`, which the pool does not
read, are left out. -/
def failureAnswer (error : String) : WorkerMessage := { success := false, error := some error }

/-- Is it the ping of a health check? -/
def WorkerRequest.isPing (data : WorkerRequest) : Bool :=
  data.type == some "system" && data.operation == some "ping"

/-- What is posted when the operation has ended. -/
def answerOf (data : WorkerRequest) : OperationOutcome → WorkerMessage
  | .returns value =>
    if data.isPing then { healthCheck := true, success := true, result := value }
    else { success := true, result := value }
  | .uncloneable error => failureAnswer error
  | .throws (.error message) => failureAnswer message
  | .throws .other | .promise => failureAnswer "알 수 없는 오류"

/-- `DEFAULT_TIMEOUTS`. -/
def defaultTimeouts : List (String × ℕ) :=
  [("cpu", 30000), ("memory", 15000), ("custom", 10000), ("system", 1000)]

/-- `timeout || DEFAULT_TIMEOUTS[type] || 10000`. -/
def timeoutValue (data : WorkerRequest) : ℕ :=
  match data.timeout with
  | some (n + 1) => n + 1
  | _ => (defaultTimeouts.lookup (data.type.getD "")).getD 10000

/-- The error of a timer that fires. -/
def timeoutText (data : WorkerRequest) : String :=
  "작업 실행 시간이 " ++ toString (timeoutValue data) ++ "ms를 초과했습니다"

/-! ### The thread -/

/-- An operation that is running. -/
structure RunningOperation where
  number : ℕ
  data : WorkerRequest
  operation : Operation

/-- A worker thread. The messages posted to it are numbered. -/
structure WorkerThread where
  /-- The script has run to its end and has posted `initialized`. -/
  initialized : Bool := false
  posted : List WorkerRequest := []
  /-- How many messages the listener was called with. -/
  begun : ℕ := 0
  running : Option RunningOperation := none
  /-- The armed timers of `withTimeout`, by message. -/
  timers : List ℕ := []
  /-- The messages whose promise has not been settled. -/
  suspended : List ℕ := []
  /-- What was answered, and to which message. -/
  answers : List (ℕ × WorkerMessage) := []
  /-- The messages whose operation returned a promise. -/
  promised : List ℕ := []

/-- What happens to a thread. -/
inductive ThreadEvent where
  /-- The pool posts a message. -/
  | post (data : WorkerRequest)
  /-- The script ends. -/
  | start
  /-- The listener is called. -/
  | message
  /-- The operation ends. -/
  | ends (outcome : OperationOutcome)
  /-- A timer fires. -/
  | timeout (number : ℕ)
  /-- A promise is settled. -/
  | settles (number : ℕ) (outcome : OperationOutcome)

namespace WorkerThread

/-- Everything the thread has posted. -/
def sent (s : WorkerThread) : List WorkerMessage :=
  if s.initialized then { success := true, initialized := true } :: s.answers.map Prod.snd else []

/-- The answer to a message. -/
def reply (s : WorkerThread) (number : ℕ) (result : WorkerMessage) : WorkerThread :=
  { s with answers := s.answers ++ [(number, result)] }

/-- The listener, up to the call of the operation in `withTimeout`. -/
def listen (s : WorkerThread) (data : WorkerRequest) : WorkerThread :=
  match lookupOperation data with
  | .error error => { s with begun := s.begun + 1 }.reply s.begun (failureAnswer error)
  | .ok operation =>
    { s with
      begun := s.begun + 1
      running := some { number := s.begun, data := data, operation := operation }
      timers := s.begun :: s.timers }

/-- `withTimeout` after the call, and the listener. -/
def finish (s : WorkerThread) (r : RunningOperation) (outcome : OperationOutcome) : WorkerThread :=
  let s := { s with running := none, timers := s.timers.filter fun n => n != r.number }
  match outcome with
  | .promise =>
    { s with suspended := s.suspended ++ [r.number], promised := s.promised ++ [r.number] }
  | outcome => s.reply r.number (answerOf r.data outcome)

/-- One event. -/
def step (s : WorkerThread) : ThreadEvent → Option WorkerThread
  | .post data => some { s with posted := s.posted ++ [data] }
  | .start => if s.initialized then none else some { s with initialized := true }
  | .message =>
    match s.running, s.posted[s.begun]? with
    | none, some data => if s.initialized then some (s.listen data) else none
    | _, _ => none
  | .ends outcome => s.running.map fun r => s.finish r outcome
  | .timeout number =>
    match s.running, s.posted[number]? with
    | none, some data =>
      if number ∈ s.timers then
        some ({ s with timers := s.timers.filter fun n => n != number }.reply number
          (failureAnswer (timeoutText data)))
      else none
    | _, _ => none
  | .settles number outcome =>
    match s.running, s.posted[number]?, outcome with
    | _, _, .promise => none
    | none, some data, outcome =>
      if number ∈ s.suspended then
        some ({ s with suspended := s.suspended.filter fun n => n != number }.reply number
          (answerOf data outcome))
      else none
    | _, _, _ => none

/-- The operations do what they may. -/
def Legit (allow : Bool) (s : WorkerThread) : ThreadEvent → Prop
  | .ends outcome => ∀ r, s.running = some r → Performs allow r.data r.operation outcome
  | _ => True

/-! ### Every run -/

variable {allow : Bool} {s u : WorkerThread}

/-- The answers a message may get. -/
inductive Answers (allow : Bool) (data : WorkerRequest) : WorkerMessage → Prop where
  /-- There is no such operation. -/
  | refused (error : String) : lookupOperation data = .error error →
      Answers allow data (failureAnswer error)
  /-- The operation has ended. -/
  | ended (operation : Operation) (outcome : OperationOutcome) : lookupOperation data = .ok operation →
      Performs allow data operation outcome → outcome ≠ .promise →
      Answers allow data (answerOf data outcome)
  /-- The promise it returned was settled. -/
  | settled (operation : Operation) (outcome : OperationOutcome) : lookupOperation data = .ok operation →
      Performs allow data operation .promise → Answers allow data (answerOf data outcome)

/-- The numbers of the messages answered. -/
def answered (s : WorkerThread) : List ℕ := s.answers.map Prod.fst

/-- The number of the message whose operation is running. -/
def current (s : WorkerThread) : List ℕ := s.running.toList.map RunningOperation.number

/-- In how many places a message is: answered, waiting for its promise, or running. -/
def places (s : WorkerThread) (n : ℕ) : ℕ :=
  s.answered.count n + s.suspended.count n + s.current.count n

/-- How many messages the listener is done with, but for their promises. -/
def finished (s : WorkerThread) : ℕ := s.begun - s.current.length

/-- What holds of a thread. -/
structure Orderly (allow : Bool) (s : WorkerThread) : Prop where
  places : ∀ n, s.places n = if n < s.begun then 1 else 0
  /-- The operation that is running is the last one begun. -/
  running : ∀ r, s.running = some r → r.number + 1 = s.begun ∧
    s.posted[r.number]? = some r.data ∧ lookupOperation r.data = .ok r.operation
  /-- Only its timer is armed. -/
  timers : s.timers = s.current
  promised : ∀ n ∈ s.promised, n < s.finished
  suspended : ∀ n ∈ s.suspended, n ∈ s.promised ∧ ∃ data operation, s.posted[n]? = some data ∧
    lookupOperation data = .ok operation ∧ Performs allow data operation .promise
  order : s.answered.filter (fun n => n ∉ s.promised) =
    (List.range s.finished).filter fun n => n ∉ s.promised
  right : ∀ a ∈ s.answers, ∃ data, s.posted[a.1]? = some data ∧ Answers allow data a.2

theorem Orderly.initial (allow : Bool) : Orderly allow {} where
  places n := by simp [WorkerThread.places, answered, current]
  running r hr := by cases hr
  timers := rfl
  promised n hn := by cases hn
  suspended n hn := by cases hn
  order := rfl
  right a ha := by cases ha

/-- A message keeps its number. -/
theorem getElem?_post {posted : List WorkerRequest} {n : ℕ} {data : WorkerRequest}
    (h : posted[n]? = some data) (more : List WorkerRequest) : (posted ++ more)[n]? = some data := by
  rw [List.getElem?_append_left (List.getElem?_eq_some_iff.mp h).1, h]

theorem Orderly.post (h : Orderly allow s) (data : WorkerRequest) :
    Orderly allow { s with posted := s.posted ++ [data] } where
  places := h.places
  running r hr := by
    obtain ⟨hn, hdata, hop⟩ := h.running r hr
    exact ⟨hn, getElem?_post hdata _, hop⟩
  timers := h.timers
  promised := h.promised
  suspended n hn := by
    obtain ⟨hpromised, d, op, hd, hop, hperforms⟩ := h.suspended n hn
    exact ⟨hpromised, d, op, getElem?_post hd _, hop, hperforms⟩
  order := h.order
  right a ha := by
    obtain ⟨d, hd, hanswers⟩ := h.right a ha
    exact ⟨d, getElem?_post hd _, hanswers⟩

/-- Nothing runs: what has begun is finished. -/
theorem finished_of_idle (h : s.running = none) : s.finished = s.begun := by
  rw [finished, current, h]
  rfl

/-- A message that is nowhere has not begun. -/
theorem Orderly.not_mem_promised (h : Orderly allow s) {n : ℕ} (hn : s.finished ≤ n) :
    n ∉ s.promised :=
  fun hmem => absurd (h.promised n hmem) (Nat.not_lt.mpr hn)

@[simp] theorem answered_reply (s : WorkerThread) (n : ℕ) (result : WorkerMessage) :
    (s.reply n result).answered = s.answered ++ [n] := by
  rw [answered, reply, List.map_append]
  rfl

/-- One message more has begun. -/
theorem lt_succ_count (n k : ℕ) :
    (if n < k + 1 then 1 else 0) = (if n < k then 1 else 0) + [k].count n := by
  rw [List.count_singleton]
  simp only [beq_iff_eq]
  split_ifs <;> omega

/-- Answering the next message keeps the order. -/
theorem filter_snoc {l promised : List ℕ} {n : ℕ}
    (h : l.filter (fun k => k ∉ promised) = (List.range n).filter fun k => k ∉ promised) :
    (l ++ [n]).filter (fun k => k ∉ promised) =
      (List.range (n + 1)).filter fun k => k ∉ promised := by
  rw [List.filter_append, h, List.range_succ, List.filter_append]

/-- A message that is promised an answer is left out on both sides. -/
theorem filter_promised {l promised : List ℕ} {n : ℕ}
    (h : l.filter (fun k => k ∉ promised) = (List.range n).filter fun k => k ∉ promised)
    (hn : n ∉ l) : l.filter (fun k => k ∉ promised ++ [n]) =
      (List.range (n + 1)).filter fun k => k ∉ promised ++ [n] := by
  have hsame : ∀ l : List ℕ, n ∉ l →
      l.filter (fun k => k ∉ promised ++ [n]) = l.filter fun k => k ∉ promised := by
    intro l hn
    refine List.filter_congr fun k hk => ?_
    have hne : k ≠ n := fun hkn => hn (hkn ▸ hk)
    simp [hne]
  have hlast : [n].filter (fun k => k ∉ promised ++ [n]) = [] := by simp
  rw [hsame l hn, h, List.range_succ, List.filter_append, hlast, List.append_nil,
    hsame _ (by simp)]

theorem Orderly.listen (h : Orderly allow s) (hidle : s.running = none) {data : WorkerRequest}
    (hdata : s.posted[s.begun]? = some data) : Orderly allow (s.listen data) := by
  have hfinished := finished_of_idle hidle
  have hcurrent : s.current = [] := by rw [current, hidle]; rfl
  unfold WorkerThread.listen
  cases hop : lookupOperation data with
  | error error =>
    constructor
    case places =>
      intro n
      have hplaces := h.places n
      rw [WorkerThread.places] at hplaces ⊢
      show _ = if n < s.begun + 1 then 1 else 0
      rw [lt_succ_count, ← hplaces, answered_reply, List.count_append]
      show s.answered.count n + _ + s.suspended.count n + s.current.count n = _
      omega
    case running =>
      intro r hr
      rw [show s.running = some r from hr] at hidle
      cases hidle
    case timers => exact h.timers
    case promised =>
      intro n hn
      have hlt := h.promised n hn
      have hsame : s.current.length = 0 := by rw [hcurrent]; rfl
      show n < s.begun + 1 - s.current.length
      omega
    case suspended => exact h.suspended
    case order =>
      have hsame : ({ s with begun := s.begun + 1 }.reply s.begun (failureAnswer error)).finished =
          s.begun + 1 := by
        show s.begun + 1 - s.current.length = _
        rw [hcurrent]
        rfl
      rw [hsame]
      rw [answered_reply]
      exact filter_snoc (hfinished ▸ h.order)
    case right =>
      intro a ha
      rcases List.mem_append.mp ha with ha | ha
      · exact h.right a ha
      · cases List.mem_singleton.mp ha
        exact ⟨data, hdata, .refused error hop⟩
  | ok operation =>
    constructor
    case places =>
      intro n
      have hplaces := h.places n
      rw [WorkerThread.places, hcurrent] at hplaces
      show s.answered.count n + s.suspended.count n + [s.begun].count n =
        if n < s.begun + 1 then 1 else 0
      rw [lt_succ_count, ← hplaces]
      rfl
    case running =>
      rintro r ⟨⟩
      exact ⟨rfl, hdata, hop⟩
    case timers =>
      show s.begun :: s.timers = [s.begun]
      rw [h.timers, hcurrent]
    case promised => exact fun n hn => hfinished ▸ h.promised n hn
    case suspended => exact h.suspended
    case order => exact hfinished ▸ h.order
    case right => exact h.right

theorem Orderly.finish (h : Orderly allow s) {r : RunningOperation} (hr : s.running = some r)
    {outcome : OperationOutcome} (hperforms : Performs allow r.data r.operation outcome) :
    Orderly allow (s.finish r outcome) := by
  obtain ⟨hnumber, hdata, hop⟩ := h.running r hr
  have hcurrent : s.current = [r.number] := by rw [current, hr]; rfl
  have hfinished : s.finished = r.number := by
    rw [finished, hcurrent, ← hnumber]
    rfl
  have htimers : (s.timers.filter fun n => n != r.number) = [] := by
    rw [h.timers, hcurrent]
    simp
  have hnot : r.number ∉ s.answered := by
    have hplaces := h.places r.number
    rw [WorkerThread.places, hcurrent, List.count_singleton_self] at hplaces
    intro hmem
    have hone := List.one_le_count_iff.mpr hmem
    split at hplaces <;> omega
  have hplaces : ∀ n, s.answered.count n + s.suspended.count n + [r.number].count n =
      if n < s.begun then 1 else 0 := fun n => by
    rw [← hcurrent]
    exact h.places n
  have hpromised : r.number ∉ s.promised := h.not_mem_promised hfinished.le
  have horder := h.order
  rw [hfinished] at horder
  by_cases hpromise : outcome = .promise
  · subst hpromise
    have hu : s.finish r .promise = { s with
        running := none
        timers := s.timers.filter fun n => n != r.number
        suspended := s.suspended ++ [r.number]
        promised := s.promised ++ [r.number] } := rfl
    rw [hu]
    constructor
    case places =>
      intro n
      show s.answered.count n + (s.suspended ++ [r.number]).count n + 0 = if n < s.begun then 1 else 0
      rw [List.count_append, ← hplaces]
      omega
    case running => rintro r' ⟨⟩
    case timers => exact htimers
    case promised =>
      intro n hn
      show n < s.begun
      rcases List.mem_append.mp hn with hn | hn
      · have hlt := h.promised n hn
        omega
      · cases List.mem_singleton.mp hn
        omega
    case suspended =>
      intro n hn
      rcases List.mem_append.mp hn with hn | hn
      · obtain ⟨hmem, hrest⟩ := h.suspended n hn
        exact ⟨List.mem_append_left _ hmem, hrest⟩
      · cases List.mem_singleton.mp hn
        exact ⟨List.mem_append_right _ hn, r.data, r.operation, hdata, hop, hperforms⟩
    case order =>
      show s.answered.filter _ = (List.range s.begun).filter _
      rw [← hnumber]
      exact filter_promised horder hnot
    case right => exact h.right
  · have hu : s.finish r outcome = { s with
        running := none
        timers := s.timers.filter fun n => n != r.number }.reply r.number
          (answerOf r.data outcome) := by
      cases outcome with
      | promise => exact absurd rfl hpromise
      | returns value => rfl
      | uncloneable error => rfl
      | throws thrown => rfl
    rw [hu]
    constructor
    case places =>
      intro n
      rw [WorkerThread.places, answered_reply, List.count_append]
      show s.answered.count n + _ + s.suspended.count n + 0 = if n < s.begun then 1 else 0
      rw [← hplaces]
      omega
    case running => rintro r' ⟨⟩
    case timers => exact htimers
    case promised =>
      intro n hn
      have hlt := h.promised n hn
      show n < s.begun
      omega
    case suspended => exact h.suspended
    case order =>
      rw [answered_reply]
      show _ = (List.range s.begun).filter _
      rw [← hnumber]
      exact filter_snoc horder
    case right =>
      intro a ha
      rcases List.mem_append.mp ha with ha | ha
      · exact h.right a ha
      · cases List.mem_singleton.mp ha
        exact ⟨r.data, hdata, .ended r.operation outcome hop hperforms hpromise⟩

/-- A promise is settled while nothing runs. -/
theorem Orderly.settle (h : Orderly allow s) (hidle : s.running = none) {n : ℕ}
    {data : WorkerRequest} (hdata : s.posted[n]? = some data) (hn : n ∈ s.suspended)
    (outcome : OperationOutcome) :
    Orderly allow ({ s with suspended := s.suspended.filter fun k => k != n }.reply n
      (answerOf data outcome)) := by
  obtain ⟨hpromised, d, op, hd, hop, hperforms⟩ := h.suspended n hn
  rw [hdata] at hd
  cases hd
  have hone : s.suspended.count n = 1 := by
    have hplaces := h.places n
    have hpos := List.one_le_count_iff.mpr hn
    rw [WorkerThread.places] at hplaces
    split at hplaces <;> omega
  constructor
  case places =>
    intro k
    have hplaces := h.places k
    rw [WorkerThread.places] at hplaces ⊢
    rw [answered_reply, List.count_append]
    show s.answered.count k + _ + (s.suspended.filter fun k => k != n).count k + s.current.count k = _
    show _ = if k < s.begun then 1 else 0
    rw [← hplaces]
    by_cases hkn : k = n
    · subst hkn
      have hnone : (s.suspended.filter fun j => j != k).count k = 0 :=
        List.count_eq_zero.mpr (by simp)
      rw [hnone, hone, List.count_singleton_self]
    · have hsame : (s.suspended.filter fun j => j != n).count k = s.suspended.count k :=
        List.count_filter (by simpa using hkn)
      have hzero : [n].count k = 0 := List.count_eq_zero.mpr (by simpa using hkn)
      rw [hsame, hzero, Nat.add_zero]
  case running =>
    intro r hr
    rw [show s.running = some r from hr] at hidle
    cases hidle
  case timers => exact h.timers
  case promised => exact h.promised
  case suspended => exact fun k hk => h.suspended k (List.mem_filter.mp hk).1
  case order =>
    rw [answered_reply, List.filter_append]
    have hlast : [n].filter (fun k => k ∉ s.promised) = [] := by simp [hpromised]
    show _ ++ [n].filter (fun k => k ∉ s.promised) = _
    rw [hlast, List.append_nil]
    exact h.order
  case right =>
    intro a ha
    rcases List.mem_append.mp ha with ha | ha
    · exact h.right a ha
    · cases List.mem_singleton.mp ha
      exact ⟨data, hdata, .settled op outcome hop hperforms⟩

/-- While nothing runs, no timer is armed. -/
theorem Orderly.timers_of_idle (h : Orderly allow s) (hidle : s.running = none) : s.timers = [] := by
  rw [h.timers, current, hidle]
  rfl

/-- No timer fires. -/
theorem Orderly.step_timeout (h : Orderly allow s) (n : ℕ) : s.step (.timeout n) = none := by
  simp only [step]
  split
  · rename_i hidle _
    rw [h.timers_of_idle hidle, if_neg List.not_mem_nil]
  · rfl

theorem Orderly.step {e : ThreadEvent} (h : Orderly allow s) (hok : Legit allow s e)
    (hu : s.step e = some u) : Orderly allow u := by
  cases e with
  | post data =>
    simp only [WorkerThread.step, Option.some.injEq] at hu
    subst hu
    exact h.post data
  | start =>
    simp only [WorkerThread.step] at hu
    split at hu
    · cases hu
    · simp only [Option.some.injEq] at hu
      subst hu
      exact ⟨h.places, h.running, h.timers, h.promised, h.suspended, h.order, h.right⟩
  | message =>
    simp only [WorkerThread.step] at hu
    split at hu
    · rename_i data hidle hdata
      split at hu
      · simp only [Option.some.injEq] at hu
        subst hu
        exact h.listen hidle hdata
      · cases hu
    · cases hu
  | ends outcome =>
    simp only [WorkerThread.step, Option.map_eq_some_iff] at hu
    obtain ⟨r, hr, rfl⟩ := hu
    exact h.finish hr (hok r hr)
  | timeout n =>
    rw [h.step_timeout n] at hu
    cases hu
  | settles n outcome =>
    simp only [WorkerThread.step] at hu
    split at hu
    · cases hu
    · rename_i data hidle hdata _
      split at hu
      · rename_i hn
        simp only [Option.some.injEq] at hu
        subst hu
        exact h.settle hidle hdata hn _
      · cases hu
    · cases hu

/-- Without custom code no operation returns a promise. -/
theorem performs_ne_promise {data : WorkerRequest} {op : Operation} {outcome : OperationOutcome}
    (h : Performs false data op outcome) : outcome ≠ .promise := by
  rintro rfl
  cases op with
  | ping | fibonacci | execute => cases h
  | findPrimes =>
    rw [Performs] at h
    split at h <;> cases h
  | matrixMultiply | largeArray | objectCloning => exact h
  | inherited => exact h rfl

theorem promised_step {e : ThreadEvent} (hs : s.promised = []) (hok : Legit false s e)
    (hu : s.step e = some u) : u.promised = [] := by
  cases e with
  | post data =>
    cases hu
    exact hs
  | start =>
    simp only [WorkerThread.step] at hu
    split at hu
    · cases hu
    · cases hu
      exact hs
  | message =>
    simp only [WorkerThread.step] at hu
    split at hu
    · split at hu
      · cases hu
        unfold listen
        split <;> exact hs
      · cases hu
    · cases hu
  | ends outcome =>
    simp only [WorkerThread.step, Option.map_eq_some_iff] at hu
    obtain ⟨r, hr, rfl⟩ := hu
    have hne := performs_ne_promise (hok r hr)
    cases outcome with
    | promise => exact absurd rfl hne
    | returns _ | uncloneable _ | throws _ => exact hs
  | timeout n =>
    simp only [WorkerThread.step] at hu
    split at hu
    · split at hu
      · cases hu
        exact hs
      · cases hu
    · cases hu
  | settles n outcome =>
    simp only [WorkerThread.step] at hu
    split at hu
    · cases hu
    · split at hu
      · cases hu
        exact hs
      · cases hu
    · cases hu

/-- **What a thread answers** that runs no code of tasks: no timer of `withTimeout` ever fires. Every
message the listener was called with has been answered once, or its operation is running, and the
messages are answered in the order they were posted in, each before the next is begun. Each answer
is one that the message may get. -/
theorem answers_in_order (h : Reaches step (Legit false) {} s) :
    (∀ n, s.step (.timeout n) = none) ∧
    (∀ n, s.answered.count n + s.current.count n = if n < s.begun then 1 else 0) ∧
    s.answered = List.range s.finished ∧
    ∀ a ∈ s.answers, ∃ data, s.posted[a.1]? = some data ∧ Answers false data a.2 := by
  have horderly : Orderly false s := h.invariant (Orderly.initial false)
    fun _ _ _ hs hok hu => hs.step hok hu
  have hpromised : s.promised = [] := h.invariant (P := fun s => s.promised = []) rfl
    fun _ _ _ hs hok hu => promised_step hs hok hu
  have hsuspended : s.suspended = [] := by
    refine List.eq_nil_iff_forall_not_mem.mpr fun n hn => ?_
    have hmem := (horderly.suspended n hn).1
    rw [hpromised] at hmem
    cases hmem
  refine ⟨horderly.step_timeout, fun n => ?_, ?_, horderly.right⟩
  · have hplaces := horderly.places n
    rw [places, hsuspended, List.count_nil, Nat.add_zero] at hplaces
    exact hplaces
  · simpa [hpromised] using horderly.order

/-- A message without an operation, and a task behind it. -/
def unknownRequest : WorkerRequest where
  type := some "cpu"
  operation := some "sort"

def fibonacciRequest : WorkerRequest where
  type := some "cpu"
  operation := some "fibonacci"
  params := some [("n", .ofInt 10)]

/-- The error is the first answer, the number the second one. -/
theorem answers_in_order_of_two :
    ∃ s, Reaches step (Legit false) {} s ∧ s.answered = [0, 1] ∧
      (∀ n, s.step (.timeout n) = none) ∧ s.answered = List.range s.finished := by
  have hposted : Reaches step (Legit false) {}
      { initialized := true, posted := [unknownRequest, fibonacciRequest] } :=
    ((Reaches.refl.next (.post unknownRequest) trivial rfl).next (.post fibonacciRequest) trivial
      rfl).next .start trivial rfl
  have hrefused := hposted.next ThreadEvent.message trivial rfl
  have hcalled := hrefused.next ThreadEvent.message trivial rfl
  have hended := hcalled.next (ThreadEvent.ends (.returns (fibonacci [("n", .ofInt 10)])))
    (fun r hr => by cases hr; rfl) rfl
  obtain ⟨htimeout, -, horder, -⟩ := answers_in_order hended
  exact ⟨_, hended, rfl, htimeout, horder⟩

end WorkerThread

end BulkTraffic.Queue
