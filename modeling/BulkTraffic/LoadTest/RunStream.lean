import BulkTraffic.Js.NumberLiteral
import BulkTraffic.LoadTest.Compare
import BulkTraffic.LoadTest.EventStream
import BulkTraffic.LoadTest.TaskMetrics
import BulkTraffic.Orders.Events

/-!
# The stream of a load test

`runStream` runs the tasks of a load test one after the other and reports on its stream: `start`,
a `progress` for every task, and `done` with the metrics. A task that rejects is a result like the
others, so the stream has no other end.

* `RunStream.step`: the load test, on the stream it reports on.
* `stream_reaches`: what it does to the stream, any work may do.
* `Reported`: what it has emitted, over every run.
* `runStream_page`: what the page gets of it.
-/

namespace BulkTraffic.LoadTest

open BulkTraffic.Js BulkTraffic.Lib BulkTraffic.Orders

/-! ### What is reported -/

/-- The body of the request, as far as the report depends on it. -/
structure RunStreamBody where
  /-- `type`. -/
  type : Option String
  /-- `count`. -/
  count : Option Number
  /-- It is a JavaScript number. -/
  double : ∀ n ∈ count, IsDouble n

namespace RunStreamBody

/-- `body.type || 'cpu'`. -/
def testType (body : RunStreamBody) : String :=
  match body.type with
  | none | some "" => "cpu"
  | some type => type

/-- `Math.min(body.count || 20, 500)`. -/
def taskCount (body : RunStreamBody) : Number :=
  match body.count with
  | none | some .nan | some (.finite 0) => .finite 20
  | some n => Number.min n (.finite 500)

/-- How often the body of `for (let i = 0; i < count; i++)` runs. -/
def rounds (body : RunStreamBody) : ℕ := roundCount 500 body.taskCount

end RunStreamBody

/-- A natural as JSON. -/
def naturalJson (n : ℕ) : Json := Json.ofNumber (.finite n)

/-- A latency figure as JSON. -/
def figureJson : Option Number → Json
  | some ms => Json.ofNumber ms
  | none => .null

/-- `emit('start', { type: testType, count, timestamp: Date.now() })`. -/
def RunStreamBody.startEvent (body : RunStreamBody) (timestamp : TimeValue) : Emitted where
  event := "start"
  payload := [("type", .str body.testType), ("count", Json.ofNumber body.taskCount),
    ("timestamp", Json.ofNumber (.finite timestamp.ms))]

/-- `emit('progress', ..)`, of the results up to the last one. -/
def RunStreamBody.progressEvent (body : RunStreamBody) (results : List TaskResult) (last : TaskResult) : Emitted where
  event := "progress"
  payload := [("index", naturalJson last.index), ("total", Json.ofNumber body.taskCount),
    ("ok", .bool last.ok), ("ms", Json.ofNumber last.ms),
    ("fulfilled", naturalJson (results.filter fun r => r.ok).length),
    ("rejected", naturalJson (results.filter fun r => !r.ok).length)]

/-- `emit('done', { type: testType, ...metrics })`. -/
def RunStreamBody.doneEvent (body : RunStreamBody) (metrics : StreamMetrics) : Emitted where
  event := "done"
  payload := [("type", .str body.testType), ("total", naturalJson metrics.total),
    ("fulfilled", naturalJson metrics.fulfilled), ("rejected", naturalJson metrics.rejected),
    ("totalMs", Json.ofNumber metrics.totalMs), ("avgMs", figureJson metrics.avgMs),
    ("p50", figureJson metrics.p50), ("p95", figureJson metrics.p95), ("p99", figureJson metrics.p99),
    ("minMs", figureJson metrics.minMs), ("maxMs", figureJson metrics.maxMs)]

/-- The events of the tasks behind those in `before`. -/
def RunStreamBody.progressEvents (body : RunStreamBody) (before : List TaskResult) : List TaskResult → List Emitted
  | [] => []
  | r :: rs => body.progressEvent (before ++ [r]) r :: body.progressEvents (before ++ [r]) rs

theorem RunStreamBody.progressEvents_append (body : RunStreamBody) (before results : List TaskResult)
    (r : TaskResult) : body.progressEvents before (results ++ [r]) =
      body.progressEvents before results ++ [body.progressEvent (before ++ results ++ [r]) r] := by
  induction results generalizing before with
  | nil => simp [progressEvents]
  | cons x results ih =>
    rw [List.cons_append, progressEvents, progressEvents, ih, List.cons_append, List.append_assoc before,
      List.singleton_append]

/-! ### The load test -/

/-- How far the work of `runStream` is. -/
inductive RunPhase where
  /-- It has not begun. -/
  | before
  /-- A task is awaited. -/
  | awaiting
  /-- `done` has been emitted. -/
  | finished
  deriving DecidableEq

/-- A load test with its stream. -/
structure RunStream where
  /-- The stream. -/
  stream : EventStream := {}
  /-- `results`. -/
  results : List TaskResult := []
  /-- How far it is. -/
  phase : RunPhase := .before

/-- What can happen to it. -/
inductive RunStreamEvent where
  /-- The response subscribes. -/
  | subscribe
  /-- The microtask runs the work up to its first `await`. -/
  | begin (timestamp : TimeValue) (total : Timing)
  /-- The awaited task resolves or rejects. -/
  | settled (ok : Bool) (task total : Timing)
  /-- The callback of `.then`. -/
  | completed
  /-- The client goes away. -/
  | unsubscribe

namespace RunStream

variable (body : RunStreamBody)

/-- The load test at the start. -/
def initial : RunStream := {}

/-- `i < count`, and what follows: the next task, or the metrics. -/
def loopHead (s : RunStream) (total : Timing) : Option RunStream :=
  if Number.lt (.finite s.results.length) body.taskCount then some { s with phase := .awaiting }
  else
    (s.stream.step (.emit (body.doneEvent (computeMetrics s.results (elapsedMs total))))).map
      fun stream => { s with stream := stream, phase := .finished }

/-- One step. -/
def step (s : RunStream) : RunStreamEvent → Option RunStream
  | .subscribe => (s.stream.step .subscribe).map fun stream => { s with stream := stream }
  | .begin timestamp total =>
    if s.phase = .before then
      (s.stream.step .microtask).bind fun stream =>
        (stream.step (.emit (body.startEvent timestamp))).bind fun stream =>
          loopHead body { s with stream := stream } total
    else none
  | .settled ok task total =>
    if s.phase = .awaiting then
      let r := taskResult s.results.length ok task
      (s.stream.step (.emit (body.progressEvent (s.results ++ [r]) r))).bind fun stream =>
        loopHead body { s with stream := stream, results := s.results ++ [r] } total
    else none
  | .completed =>
    if s.phase = .finished then (s.stream.step .fulfilled).map fun stream => { s with stream := stream }
    else none
  | .unsubscribe => (s.stream.step .unsubscribe).map fun stream => { s with stream := stream }

end RunStream

/-! ### What is reported can be written -/

theorem RunStreamBody.isDouble_taskCount (body : RunStreamBody) : IsDouble body.taskCount := by
  have hlimit : IsDouble (.finite 500) := isDouble_natCast (n := 500) (by decide)
  have hdefault : IsDouble (.finite 20) := isDouble_natCast (n := 20) (by decide)
  rw [taskCount]
  split
  · exact hdefault
  · exact hdefault
  · exact hdefault
  · rename_i n _ _ hn
    exact isDouble_min (body.double n hn) hlimit

theorem wellFormed_naturalJson (n : ℕ) : (naturalJson n).WellFormed := by
  have htext : (numberText (.finite n)).toList = naturalText n := by
    rw [numberText_natCast, String.toList_ofList]
  exact .positive (htext ▸ isMagnitude_naturalText n)

theorem wellFormed_figureJson {figure : Option Number} (h : ∀ x ∈ figure, IsDouble x) :
    (figureJson figure).WellFormed := by
  cases figure with
  | none => trivial
  | some x => exact wellFormed_ofNumber (h x rfl)

theorem TaskResult.isDouble_ms (r : TaskResult) : IsDouble r.ms := by
  obtain ⟨q, hq⟩ := r.measured
  exact hq ▸ isDouble_binary64 q

theorem wellFormed_startEvent (body : RunStreamBody) (timestamp : TimeValue) :
    (body.startEvent timestamp).WellFormed := by
  have hms : timestamp.ms.natAbs < 2 ^ 53 := by
    have hbounded := timestamp.bounded
    omega
  exact ⟨trivial, wellFormed_ofNumber body.isDouble_taskCount,
    wellFormed_ofNumber (isDouble_intCast hms), trivial⟩

theorem wellFormed_progressEvent (body : RunStreamBody) (results : List TaskResult) (r : TaskResult) :
    (body.progressEvent results r).WellFormed :=
  ⟨wellFormed_naturalJson _, wellFormed_ofNumber body.isDouble_taskCount, trivial,
    wellFormed_ofNumber r.isDouble_ms, wellFormed_naturalJson _, wellFormed_naturalJson _, trivial⟩

theorem isDouble_percentileBy {times : Scaling} {sorted : List Number} (h : ∀ x ∈ sorted, IsDouble x)
    (ratio : ℚ) : ∀ x ∈ percentileBy times sorted ratio, IsDouble x := by
  intro x hx
  simp only [percentileBy, Option.mem_def] at hx
  split at hx
  · cases hx
  · split at hx
    · split at hx
      · exact h x (List.mem_of_getElem? hx)
      · cases hx
    · cases hx

theorem wellFormed_doneEvent (body : RunStreamBody) (results : List TaskResult) (total : Timing) :
    (body.doneEvent (computeMetrics results (elapsedMs total))).WellFormed := by
  have hdurations : ∀ x ∈ ((results.filter fun r => r.ok).map TaskResult.ms).insertionSort
      (fun a b => sortsBefore a b = true), IsDouble x := by
    intro x hx
    obtain ⟨r, -, rfl⟩ := List.mem_map.mp ((List.mem_insertionSort _).mp hx)
    exact r.isDouble_ms
  have hpercentile := fun ratio => wellFormed_figureJson (@isDouble_percentileBy floating _ hdurations ratio)
  have htotal : IsDouble (elapsedMs total) := isDouble_div _ _
  simp only [Emitted.WellFormed, RunStreamBody.doneEvent, computeMetrics, computeMetricsBy, Json.MembersWellFormed]
  refine ⟨trivial, wellFormed_naturalJson _, wellFormed_naturalJson _, wellFormed_naturalJson _,
    wellFormed_ofNumber htotal, ?_, hpercentile _, hpercentile _, hpercentile _, ?_, ?_, trivial⟩
  · refine wellFormed_figureJson fun x hx => ?_
    split at hx
    · exact Option.some.inj hx ▸ isDouble_div _ _
    · cases hx
  · refine wellFormed_figureJson fun x hx => ?_
    split at hx
    · exact hdurations x (List.mem_of_head? hx)
    · cases hx
  · refine wellFormed_figureJson fun x hx => ?_
    split at hx
    · exact hdurations x (List.mem_of_getLast? hx)
    · cases hx

namespace RunStream

variable {body : RunStreamBody} {s t : RunStream}

/-! ### Any work may do it -/

/-- What the stream of a load test can be brought to. -/
abbrev Goes (a b : EventStream) : Prop := Reaches EventStream.step (fun _ e => e.WellFormed) a b

theorem goes_of_step {a b : EventStream} {e : EventStream.Event} (he : e.WellFormed) (h : a.step e = some b) :
    Goes a b := Reaches.refl.next e he h

theorem goes_emit {a b : EventStream} {e : Emitted} (he : e.WellFormed)
    (h : a.step (.emit e) = some b) : Goes a b := goes_of_step (e := .emit e) he h

theorem goes_loopHead {total : Timing} (h : loopHead body s total = some t) : Goes s.stream t.stream := by
  rw [loopHead] at h
  split at h
  · simp only [Option.some.injEq] at h
    subst h
    exact .refl
  · obtain ⟨stream, hstream, rfl⟩ := Option.map_eq_some_iff.mp h
    exact goes_emit (wellFormed_doneEvent body _ _) hstream

/-- **A load test does to its stream what any work may do.** -/
theorem goes_step {e : RunStreamEvent} (h : step body s e = some t) : Goes s.stream t.stream := by
  cases e with
  | subscribe =>
    obtain ⟨stream, hstream, rfl⟩ := Option.map_eq_some_iff.mp h
    exact goes_of_step (e := .subscribe) trivial hstream
  | begin timestamp total =>
    simp only [step] at h
    split at h
    · obtain ⟨running, hrunning, h⟩ := Option.bind_eq_some_iff.mp h
      obtain ⟨started, hstarted, h⟩ := Option.bind_eq_some_iff.mp h
      have hbegun := goes_of_step (e := .microtask) trivial hrunning
      exact (hbegun.trans (goes_emit (wellFormed_startEvent body timestamp) hstarted)).trans (goes_loopHead h)
    · cases h
  | settled ok task total =>
    simp only [step] at h
    split at h
    · obtain ⟨stream, hstream, h⟩ := Option.bind_eq_some_iff.mp h
      exact (goes_emit (wellFormed_progressEvent body _ _) hstream).trans (goes_loopHead h)
    · cases h
  | completed =>
    simp only [step] at h
    split at h
    · obtain ⟨stream, hstream, rfl⟩ := Option.map_eq_some_iff.mp h
      exact goes_of_step (e := .fulfilled) trivial hstream
    · cases h
  | unsubscribe =>
    obtain ⟨stream, hstream, rfl⟩ := Option.map_eq_some_iff.mp h
    exact goes_of_step (e := .unsubscribe) trivial hstream

theorem stream_reaches (h : Reachable (step body) initial s) : Goes EventStream.initial s.stream :=
  h.invariant (P := fun s => Goes EventStream.initial s.stream) .refl
    fun _ _ _ hs _ ht => hs.trans (goes_step ht)

/-! ### What it has emitted -/

/-- The events of a load test with these results, up to the last task. -/
def reports (body : RunStreamBody) (timestamp : TimeValue) (results : List TaskResult) : List Emitted :=
  body.startEvent timestamp :: body.progressEvents [] results

/-- What a load test has emitted. -/
structure Reported (body : RunStreamBody) (s : RunStream) : Prop where
  /-- The results are those of the tasks from `0` on. -/
  indices : s.results.map TaskResult.index = List.range s.results.length
  /-- No more tasks than there are to run. -/
  bounded : s.results.length ≤ body.rounds
  /-- Nothing before the work begins. -/
  before : s.phase = .before → s.results = [] ∧ s.stream.calls = [] ∧
    (s.stream.work = .deferred ∨ s.stream.work = .queued)
  /-- A report for every result, while a task is awaited. -/
  awaiting : s.phase = .awaiting → s.stream.work = .running ∧ s.results.length < body.rounds ∧
    ∃ timestamp, s.stream.calls = reports body timestamp s.results
  /-- And the metrics behind them. -/
  finished : s.phase = .finished → (s.stream.work = .running ∨ s.stream.work = .settled none) ∧
    s.results.length = body.rounds ∧ ∃ timestamp total, s.stream.calls = reports body timestamp s.results ++
      [body.doneEvent (computeMetrics s.results (elapsedMs total))]

theorem reported_initial : Reported body initial where
  indices := rfl
  bounded := Nat.zero_le _
  before _ := ⟨rfl, rfl, .inl rfl⟩
  awaiting := nofun
  finished := nofun

/-- There are at most as many tasks as the limit says. -/
theorem not_lt_taskCount (body : RunStreamBody) : Number.lt (.finite (500 : ℕ)) body.taskCount = false := by
  have hmin : ∀ n, Number.lt (.finite (500 : ℕ)) (Number.min n (.finite 500)) = false := by
    intro n
    cases n with
    | nan => rfl
    | infinity s => cases s <;> simp [Number.min, Number.lt]
    | finite q =>
      simp only [Number.min, Number.lt, decide_eq_false_iff_not, not_lt]
      split
      · assumption
      · exact le_refl _
  rw [RunStreamBody.taskCount]
  split
  · rfl
  · rfl
  · rfl
  · exact hmin _

/-- The condition of a loop whose count is at most the limit. -/
theorem lt_iff_lt_roundCount {limit : ℕ} {count : Number}
    (hlimit : Number.lt (.finite limit) count = false) {i : ℕ} (h : i ≤ roundCount limit count) :
    Number.lt (.finite i) count = true ↔ i < roundCount limit count := by
  have hrange := roundIndices_eq_range limit count
  rw [roundIndices] at hrange
  have hbelow : ∀ k < roundCount limit count, Number.lt (.finite k) count = true := by
    intro k hk
    have hmem := List.mem_range.mpr hk
    rw [← hrange] at hmem
    exact List.mem_takeWhile_imp (p := fun k : ℕ => Number.lt (.finite k) count) hmem
  refine ⟨fun hlt => Nat.lt_of_le_of_ne h fun heq => ?_, hbelow i⟩
  have hlength := congrArg List.length hrange
  rw [List.length_range] at hlength
  have hle : roundCount limit count ≤ limit := by
    have hprefix := (List.takeWhile_prefix (l := List.range limit)
      fun i => Number.lt (.finite i) count).length_le
    rwa [hlength, List.length_range] at hprefix
  rcases Nat.lt_or_eq_of_le hle with hless | hall
  · -- One more index would have been taken.
    have hsplit : List.range limit = List.range (i + 1) ++ (List.range (limit - (i + 1))).map (i + 1 + ·) := by
      rw [← List.range_add, Nat.add_sub_cancel' (heq ▸ hless)]
    have htaken : ∀ k ∈ List.range (i + 1), Number.lt (.finite k) count = true := by
      intro k hk
      rcases Nat.lt_succ_iff_lt_or_eq.mp (List.mem_range.mp hk) with hk | rfl
      · exact hbelow k (heq ▸ hk)
      · exact hlt
    rw [hsplit, List.takeWhile_append_of_pos htaken, List.length_append, List.length_range] at hlength
    omega
  · rw [heq, hall, hlimit] at hlt
    cases hlt

/-- The condition of the loop. -/
theorem lt_taskCount_iff (body : RunStreamBody) {i : ℕ} (h : i ≤ body.rounds) :
    Number.lt (.finite i) body.taskCount = true ↔ i < body.rounds :=
  lt_iff_lt_roundCount (not_lt_taskCount body) h

/-- **The head of the loop** reports the metrics behind the last task. -/
theorem Reported.loopHead {total : Timing} (h : loopHead body s total = some t)
    (hwork : s.stream.work = .running)
    (hindices : s.results.map TaskResult.index = List.range s.results.length)
    (hbounded : s.results.length ≤ body.rounds)
    (hcalls : ∃ timestamp, s.stream.calls = reports body timestamp s.results) : Reported body t := by
  rw [RunStream.loopHead] at h
  obtain ⟨timestamp, hcalls⟩ := hcalls
  split at h
  · rename_i hlt
    simp only [Option.some.injEq] at h
    subst h
    refine ⟨hindices, hbounded, fun hphase => ?_, fun _ => ?_, fun hphase => ?_⟩
    · cases hphase
    · exact ⟨hwork, (lt_taskCount_iff body hbounded).mp hlt, timestamp, hcalls⟩
    · cases hphase
  · rename_i hge
    obtain ⟨stream, hstream, rfl⟩ := Option.map_eq_some_iff.mp h
    have hrounds : s.results.length = body.rounds :=
      Nat.le_antisymm hbounded (Nat.le_of_not_lt fun hlt => hge ((lt_taskCount_iff body hbounded).mpr hlt))
    simp only [EventStream.step, hwork, Option.some.injEq] at hstream
    subst hstream
    refine ⟨hindices, hbounded, fun hphase => ?_, fun hphase => ?_, fun _ => ?_⟩
    · cases hphase
    · cases hphase
    · exact ⟨.inl hwork, hrounds, timestamp, total, by rw [hcalls]⟩

/-- **One step** keeps the invariant. -/
theorem Reported.step {e : RunStreamEvent} (h : Reported body s) (ht : RunStream.step body s e = some t) :
    Reported body t := by
  cases e with
  | subscribe =>
    obtain ⟨stream, hstream, rfl⟩ := Option.map_eq_some_iff.mp ht
    simp only [EventStream.step] at hstream
    split at hstream
    · rename_i hwork
      simp only [Option.some.injEq] at hstream
      subst hstream
      refine ⟨h.indices, h.bounded, fun hphase => ?_, fun hphase => ?_, fun hphase => ?_⟩
      · exact ⟨(h.before hphase).1, (h.before hphase).2.1, .inr rfl⟩
      · have hrunning := (h.awaiting hphase).1
        rw [hwork] at hrunning
        cases hrunning
      · have hfinished := (h.finished hphase).1
        rw [hwork] at hfinished
        rcases hfinished with hfinished | hfinished <;> cases hfinished
    · cases hstream
  | begin timestamp total =>
    simp only [RunStream.step] at ht
    split at ht
    · rename_i hphase
      obtain ⟨hresults, hcalls, -⟩ := h.before hphase
      obtain ⟨running, hrunning, ht⟩ := Option.bind_eq_some_iff.mp ht
      obtain ⟨started, hstarted, ht⟩ := Option.bind_eq_some_iff.mp ht
      simp only [EventStream.step] at hrunning
      split at hrunning
      · simp only [Option.some.injEq] at hrunning
        subst hrunning
        simp only [EventStream.step, Option.some.injEq] at hstarted
        subst hstarted
        refine Reported.loopHead ht rfl h.indices h.bounded ⟨timestamp, ?_⟩
        simp [hcalls, hresults, reports, RunStreamBody.progressEvents]
      · cases hrunning
    · cases ht
  | settled ok task total =>
    simp only [RunStream.step] at ht
    split at ht
    · rename_i hphase
      obtain ⟨hwork, hlt, timestamp, hcalls⟩ := h.awaiting hphase
      obtain ⟨stream, hstream, ht⟩ := Option.bind_eq_some_iff.mp ht
      simp only [EventStream.step, hwork, Option.some.injEq] at hstream
      subst hstream
      refine Reported.loopHead ht hwork ?_ ?_ ⟨timestamp, ?_⟩
      · simp only [List.map_append, h.indices, List.length_append, List.length_singleton,
          List.range_succ]
        rfl
      · simp only [List.length_append, List.length_singleton]
        omega
      · simp only [hcalls, reports, RunStreamBody.progressEvents_append, List.nil_append,
          List.cons_append]
    · cases ht
  | completed =>
    simp only [RunStream.step] at ht
    split at ht
    · rename_i hphase
      obtain ⟨stream, hstream, rfl⟩ := Option.map_eq_some_iff.mp ht
      obtain ⟨-, hrounds, hcalls⟩ := h.finished hphase
      simp only [EventStream.step] at hstream
      split at hstream
      · simp only [Option.some.injEq] at hstream
        subst hstream
        exact ⟨h.indices, h.bounded, fun hp => absurd (hphase.symm.trans hp) (by decide),
          fun hp => absurd (hphase.symm.trans hp) (by decide), fun _ => ⟨.inr rfl, hrounds, hcalls⟩⟩
      · cases hstream
    · cases ht
  | unsubscribe =>
    obtain ⟨stream, hstream, rfl⟩ := Option.map_eq_some_iff.mp ht
    simp only [EventStream.step] at hstream
    split at hstream
    · simp only [Option.some.injEq] at hstream
      subst hstream
      exact ⟨h.indices, h.bounded, h.before, h.awaiting, h.finished⟩
    · cases hstream

/-- **What a load test has emitted**, over every run. -/
theorem reported_of_reachable (h : Reachable (step body) initial s) : Reported body s :=
  h.invariant reported_initial fun _ _ _ hs _ ht => hs.step ht

/-- **What the page gets of a load test**: at every time, however the bytes of the response are cut
and wherever they break off, it has the first of these events: `start`, a `progress` for every task in
order, `done` with the metrics of the results. Once the stream is complete and its bytes are there it
has all of them, for as many tasks as were asked for. -/
theorem runStream_page (f : Framing) (h : Reachable (step body) initial s) (values : List (List UInt8)) :
    (values.flatten <+: Utf8.encode (f.body s.stream.sent) → ∃ timestamp total,
      readSseStream jsonParse values <+: (reports body timestamp s.results ++
        [body.doneEvent (computeMetrics s.results (elapsedMs total))]).map Emitted.message) ∧
    (s.stream.ended = true → values.flatten = Utf8.encode (f.body s.stream.sent) →
      s.results.map TaskResult.index = List.range body.rounds ∧ ∃ timestamp total,
        readSseStream jsonParse values = (reports body timestamp s.results ++
          [body.doneEvent (computeMetrics s.results (elapsedMs total))]).map Emitted.message) := by
  have hreported := reported_of_reachable h
  have hpage := EventStream.page_receives f (stream_reaches h) values
  constructor
  · intro hvalues
    have hread := hpage.1 hvalues
    cases hphase : s.phase with
    | before =>
      obtain ⟨-, hcalls, hwork⟩ := hreported.before hphase
      have hexpected : s.stream.expected = [] := by
        rcases hwork with hwork | hwork <;> rw [EventStream.expected, hwork, hcalls]
      rw [hexpected, List.map_nil, List.prefix_nil] at hread
      rw [hread]
      exact ⟨.epoch, ⟨0, 0⟩, List.nil_prefix⟩
    | awaiting =>
      obtain ⟨hwork, -, timestamp, hcalls⟩ := hreported.awaiting hphase
      rw [EventStream.expected, hwork, hcalls] at hread
      exact ⟨timestamp, ⟨0, 0⟩, hread.trans ((List.prefix_append _ _).map _)⟩
    | finished =>
      obtain ⟨hwork, -, timestamp, total, hcalls⟩ := hreported.finished hphase
      have hexpected : s.stream.expected = s.stream.calls := by
        rcases hwork with hwork | hwork <;> rw [EventStream.expected, hwork]
      rw [hexpected, hcalls] at hread
      exact ⟨timestamp, total, hread⟩
  · intro hended hvalues
    obtain ⟨reason, hsettled⟩ := (EventStream.delivers_of_reaches (stream_reaches h)).ended hended
    have hphase : s.phase = .finished := by
      cases hphase : s.phase with
      | before =>
        rcases (hreported.before hphase).2.2 with hwork | hwork <;>
          · rw [hsettled] at hwork
            cases hwork
      | awaiting =>
        have hwork := (hreported.awaiting hphase).1
        rw [hsettled] at hwork
        cases hwork
      | finished => rfl
    obtain ⟨hwork, hrounds, timestamp, total, hcalls⟩ := hreported.finished hphase
    refine ⟨hrounds ▸ hreported.indices, timestamp, total, ?_⟩
    rcases hpage.2 hended hvalues with ⟨-, hread⟩ | ⟨reason, hfailed, -⟩
    · rw [hread, hcalls]
    · rw [hfailed] at hwork
      rcases hwork with hwork | hwork <;> cases hwork

/-- A load test of one task. -/
def oneTask : RunStreamBody where
  type := none
  count := some (.finite (1 : ℕ))
  double n hn := Option.some.inj hn ▸ isDouble_natCast (by decide)

/-- The task succeeds, and the response is read to its end. -/
theorem runStream_page_of_one : ∃ s, Reachable (step oneTask) initial s ∧ s.results.length = 1 ∧
    ∃ timestamp total, readSseStream jsonParse [Utf8.encode (EventStream.numbered.body s.stream.sent)] =
      (reports oneTask timestamp s.results ++
        [oneTask.doneEvent (computeMetrics s.results (elapsedMs total))]).map Emitted.message := by
  have hstart : Reachable (step oneTask) initial initial := .refl
  have hsubscribed := hstart.next RunStreamEvent.subscribe trivial rfl
  have hbegun := hsubscribed.next (RunStreamEvent.begin .epoch ⟨0, 0⟩) trivial rfl
  have hsettled := hbegun.next (RunStreamEvent.settled true ⟨0, 2⟩ ⟨0, 3⟩) trivial rfl
  have hfinished := hsettled.next RunStreamEvent.completed trivial rfl
  have hread := (runStream_page EventStream.numbered hfinished
    [Utf8.encode (EventStream.numbered.body _)]).2 rfl (List.append_nil _)
  exact ⟨_, hfinished, rfl, hread.2⟩

end RunStream

end BulkTraffic.LoadTest
