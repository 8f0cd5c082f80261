import BulkTraffic.GoEngine.Client

/-!
# The answers of the Go engine

What the Go engine finds for a task to find primes is what the Node worker finds for the same
parameters, from one end to the other: as text to the engine, through a pool, and back as text.

* `answers_are_own`: in every run a call that resolves has what the handler of its pool made of its
  own parameters, and both engines find the same primes.
-/

namespace BulkTraffic.GoEngine

open BulkTraffic.Js BulkTraffic.Lib BulkTraffic.Workload

/-- Parameters that JSON carries: an object of JavaScript, with a nesting that is not too deep for the
engine. -/
structure Carried (params : Record) : Prop where
  /-- No name occurs twice. -/
  nodup : (params.map Prod.fst).Nodup
  /-- The numbers are JavaScript numbers. -/
  doubles : JsValue.FieldsDoubles params
  /-- The nesting is not too deep. -/
  depth : depth (JsValue.obj params).toJson ≤ 10000

theorem truncate_natCast (n : ℕ) : truncate n = n := by
  rw [truncate, Rat.num_natCast, Rat.den_natCast, Nat.cast_one, Int.tdiv_one]

/-- `int(f)` of a natural number below `2 ^ 63`. -/
theorem int_natCast (runtime : GoRuntime) {n : ℕ} (h : n < 2 ^ 63) : (runtime.int n).toInt = n := by
  have htruncate := truncate_natCast n
  rw [runtime.int_eq n (by omega) (by omega), htruncate]

/-- The limit is read as it was written. -/
theorem floatField_reparsed {params : Record} (h : Carried params) {name : String} {q : ℚ}
    (hfield : params.field name = .num (.finite q)) :
    floatField (JsValue.reparsedFields params) name = some q := by
  have hread : JsValue.ReadBack (params.field name) (.num (.finite q)) := by
    rw [hfield]
    exact .written nofun
  rw [floatField, JsValue.field_reparsed h.nodup hread]

/-- **The handler of the cpu pool finds the primes** below the limit that the Node side wrote. -/
theorem cpuHandler_primes {runtime : GoRuntime} (hreads : runtime.ReadsStringified) {params : Record}
    (h : Carried params) {n : ℕ} (hn : n < 2 ^ 63) (hfield : params.field "max" = .num (.finite n))
    {ctx : HandlerContext} {taskID : String} {value : Json}
    (hresult : cpuHandler runtime ctx taskID (stringified params) = .result value) :
    value = primesJson { Primes.below (min n 2000000) with task_id := taskID } := by
  rw [cpuHandler] at hresult
  split at hresult
  · cases hresult
  · have hfields := unmarshalMap_stringified hreads h.doubles h.depth
    simp only [payloadOr, hfields, floatField_reparsed h hfield, int_natCast runtime hn,
      Go.findPrimes_natCast] at hresult
    split at hresult
    · rename_i found hfound
      split at hfound
      · cases hfound
      · rw [← Except.ok.inj hfound] at hresult
        exact (HandlerOutcome.result.inj hresult).symm
    · cases hresult
    · cases hresult

/-- What the Node side reads of primes that the Go engine found. -/
def goPrimes (found : Primes) (taskId : String) : JsValue :=
  .obj [("first10Primes", .arr (found.first10Primes.map fun (p : ℕ) => .ofInt p)),
    ("last10Primes", .arr (found.last10Primes.map fun (p : ℕ) => .ofInt p)),
    ("primeCount", .ofInt found.primeCount), ("task_id", .str taskId)]

theorem parse_jsonInt {n : ℕ} (h : n < 2 ^ 53) : (jsonInt n).parse = .ofInt n := by
  have hread : numberOfString (toString (n : ℤ)) = .finite n := (numberOfString_repr n).trans (binary64_natCast h)
  rw [jsonInt, Json.parse, hread, JsValue.ofInt, Int.cast_natCast]

theorem parseItems_jsonInts {primes : List ℕ} (h : ∀ p ∈ primes, p < 2 ^ 53) :
    Json.parseItems (primes.map fun (p : ℕ) => jsonInt p) = primes.map fun (p : ℕ) => .ofInt p := by
  induction primes with
  | nil => rfl
  | cons p primes ih =>
    obtain ⟨hp, hprimes⟩ := List.forall_mem_cons.mp h
    rw [List.map_cons, Json.parseItems, parse_jsonInt hp, ih hprimes, List.map_cons]

/-- The numbers of the answer are small enough to be read exactly. -/
theorem parse_primesJson {n : ℕ} (h : n ≤ 2000000) (taskID : String) :
    (primesJson { Primes.below n with task_id := taskID }).parse = goPrimes (Primes.below n) taskID := by
  have hmem : ∀ p ∈ (List.range n).filter fun p => decide p.Prime, p < 2 ^ 53 := by
    intro p hp
    have hlt := List.mem_range.mp (List.mem_filter.mp hp).1
    omega
  have hfirst : ∀ p ∈ (Primes.below n).first10Primes, p < 2 ^ 53 := fun p hp => hmem p (List.mem_of_mem_take hp)
  have hlast : ∀ p ∈ (Primes.below n).last10Primes, p < 2 ^ 53 := fun p hp => hmem p (List.mem_of_mem_drop hp)
  have hcount : (Primes.below n).primeCount < 2 ^ 53 := by
    have hle := List.length_filter_le (fun p => decide p.Prime) (List.range n)
    rw [List.length_range] at hle
    change ((List.range n).filter fun p => decide p.Prime).length < 2 ^ 53
    omega
  simp only [primesJson, goPrimes, Json.parse, Json.parseMembers, parseItems_jsonInts hfirst,
    parseItems_jsonInts hlast, parse_jsonInt hcount]

/-- Both engines find the same primes for the task: the call resolves with what the Node worker finds
for the same parameters. -/
def SamePrimes (task : QueueTask) (r : GoEngineResult) : Prop :=
  ∃ found, Node.findPrimes task.fields = .ok found ∧ r.result = goPrimes found r.taskId

/-- **Every answer is one to its own task**, in every run of any number of calls: it has the id of the
task and comes from the Go engine; a success has the value that the handler of the pool for the
task's workload type returned for the task's own parameters, a failure has none. A task of the cpu
pool to find primes below a limit that is a natural number finds those the Node worker finds for the
same parameters, if it succeeds. -/
theorem answers_are_own {runtime : GoRuntime} {configs : String → PoolConfig} {s : EngineRun}
    (hreads : runtime.ReadsStringified)
    (h : Reachable (EngineRun.step runtime configs) EngineRun.initial s) {call : ExecuteCall}
    (hcall : call ∈ s.calls) {r : GoEngineResult} (hr : call.settled = some (.ok r)) :
    Answers runtime call.task r ∧
      ∀ n : ℕ, 1 ≤ n → n < 2 ^ 63 → call.task.fields.field "max" = .num (.finite n) →
        Carried call.task.fields → routedPool call.task.type = "cpu" → r.success = true →
        SamePrimes call.task r := by
  have hanswers := (EngineRun.own_reachable h).answered call hcall r hr
  refine ⟨hanswers, ?_⟩
  intro n hpos hn hfield hcarried hpool hsuccess
  obtain ⟨-, ctx, value, hvalue, hresult⟩ := hanswers.success hsuccess
  have hhandler : handlerOf (routedPool call.task.type) = cpuHandler := by
    rw [hpool]
    rfl
  rw [hhandler] at hvalue
  have hprimes := cpuHandler_primes hreads hcarried hn hfield hvalue
  refine ⟨_, Node.findPrimes_natCast hpos hfield, ?_⟩
  rw [hresult, hprimes, parse_primesJson (Nat.min_le_right n 2000000), hanswers.taskId]

/-- A Go runtime that reads JSON as the Node side does. -/
def textRuntime : GoRuntime where
  int q := Int64.ofInt (truncate q)
  int_eq _ h h' := Int64.toInt_ofInt_of_le h h'
  maxAlloc := 2 ^ 48
  maxAlloc_ge := by decide
  sum256 _ := Vector.replicate 32 0
  parseJson bytes :=
    match Json.read (Utf8.decode bytes) with
    | some value => .ok value
    | none => .error "invalid character"

theorem textRuntime_reads : textRuntime.ReadsStringified := by
  intro value h _
  change (match Json.read (Utf8.decode (Utf8.encode value.text)) with
    | some value => Except.ok value
    | none => .error "invalid character") = .ok value
  rw [Utf8.decode_encode, Json.read_text h]

/-- The task to find the primes below ten, as the comparison makes it. -/
def tenTask : QueueTask where
  id := .finite 1
  workloadType := some "cpu"
  params := some [("max", .num (.finite (10 : ℕ)))]

/-- Is it a task like this, resolved with a success? -/
def foundTen (call : ExecuteCall) : Bool :=
  match call.task.workloadType, call.task.params, call.settled with
  | some workloadType, some [(name, .num (.finite q))], some (.ok r) =>
    workloadType == "cpu" && name == "max" && q == 10 && r.success
  | _, _, _ => false

theorem carried_ten : Carried [("max", .num (.finite (10 : ℕ)))] where
  nodup := by simp
  doubles := ⟨isDouble_natCast (n := 10) (by decide), trivial⟩
  depth := by decide

/-- One call for the primes below ten: both engines find `2, 3, 5, 7`. -/
theorem answers_are_own_of_ten :
    ∃ (s : EngineRun) (call : ExecuteCall) (r : GoEngineResult),
      Reachable (EngineRun.step textRuntime Server.mainConfigs) EngineRun.initial s ∧ call ∈ s.calls ∧
        call.settled = some (.ok r) ∧ Answers textRuntime call.task r ∧ SamePrimes call.task r := by
  let attempts : Attempts :=
    { context := fun _ => { done := fun _ => false, err := "" }
      contextDone := fun _ => none
      random := fun _ => 0 }
  obtain ⟨s, hs, hseen⟩ := exists_reaches_of_runEvents (EngineRun.step textRuntime Server.mainConfigs)
    (fun _ _ => True) (fun s => s.calls.map foundTen) (s := EngineRun.initial)
    [.execute tenTask, .arrive 0, .works (.pool "cpu" (.check 0)), .works (.pool "cpu" (.acquire 0)),
      .works (.pool "cpu" (.callWorks 0 .start)), .finish 0 attempts 3,
      .works (.pool "cpu" (.callWorks 0 .leave)), .works (.pool "cpu" (.callWorks 0 .release)),
      .works (.record 0), .answer 0]
    [true] (by decide +kernel)
  obtain ⟨call, calls, hcalls, hfound, -⟩ := List.map_eq_cons_iff.mp hseen
  have hcall : call ∈ s.calls := hcalls ▸ List.mem_cons_self
  unfold foundTen at hfound
  split at hfound
  · rename_i workloadType name q r htype hparams hr
    simp only [Bool.and_eq_true, beq_iff_eq] at hfound
    obtain ⟨⟨⟨rfl, rfl⟩, rfl⟩, hsuccess⟩ := hfound
    have hfields : call.task.fields = [("max", .num (.finite (10 : ℕ)))] := by
      rw [QueueTask.fields, hparams]
      rfl
    have hpool : routedPool call.task.type = "cpu" := by
      rw [QueueTask.type, htype]
      rfl
    obtain ⟨hanswers, hprimes⟩ := answers_are_own textRuntime_reads hs hcall hr
    exact ⟨s, call, r, hs, hcall, hr, hanswers, hprimes 10 (by decide) (by decide) (by rw [hfields]; rfl)
      (hfields ▸ carried_ten) hpool hsuccess⟩
  · cases hfound

end BulkTraffic.GoEngine
