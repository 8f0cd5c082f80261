import BulkTraffic.Js.Value
import BulkTraffic.LoadTest.Metrics

/-!
# Comparing the two engines

`compareEngines` and `compareStream` run the same work on the Node queue and on the Go engine,
round by round, and award each round to the faster engine. A failed round must not enter the
averages: the latency of a failure is not a measurement.

The Go engine fails in two ways: the call rejects, or it answers with `success: false`, which
is how it reports a full queue or a failed handler. Both loops only look at the first way.
Their tallies are right exactly when no round run has the Node side done and a Go answer with
`success: false` (`compare_iff`); such a round is awarded to an engine and its latencies enter
both averages (`compare_awards_failure`). For the same outcomes the two loops always agree
(`tally_agree`).
-/

namespace BulkTraffic.LoadTest

open BulkTraffic.Js

/-- `WORKER_ENGINES`. -/
inductive WorkerEngine where
  /-- `'node'`. -/
  | node
  /-- `'go'`. -/
  | go
  /-- `'both'`. -/
  | both
  /-- `'kafka'`. -/
  | kafka
  deriving DecidableEq

/-! ### Round outcomes -/

/-- What the Node side of a round does. -/
inductive NodeSide where
  /-- The promise rejects. -/
  | rejects
  /-- The promise resolves. -/
  | resolves (timing : Timing)

/-- What the Go side of a round does. -/
inductive GoSide where
  /-- The call rejects. -/
  | rejects
  /-- The engine answers. -/
  | resolves (success : Bool) (timing : Timing)

/-- The outcome of a round. -/
structure RoundOutcome where
  /-- The Node side. -/
  node : NodeSide
  /-- The Go side, which runs when the Node side resolves. -/
  go : GoSide

/-- `CompareRound['winner']`. -/
inductive Winner where
  /-- `'node'`. -/
  | node
  /-- `'go'`. -/
  | go
  /-- `'error'`. -/
  | error
  deriving DecidableEq

/-- The result of a round. A failed round has no latency, which is not a latency of `0`. -/
structure CompareRound where
  /-- The faster engine, or `'error'`. -/
  winner : Winner
  /-- The latency of the Node side. -/
  nodeMs : Option Number
  /-- The latency of the Go side. -/
  goMs : Option Number
  deriving DecidableEq

/-- The measured latencies of one engine. -/
def pickLatencies (rounds : List CompareRound) (key : CompareRound → Option Number) :
    List Number :=
  rounds.filterMap key

/-- The rounds each side won, and the failed ones. -/
structure WinnerCounts where
  /-- Rounds the Node side won. -/
  nodeWins : ℕ
  /-- Rounds the Go side won. -/
  goWins : ℕ
  /-- Failed rounds. -/
  errors : ℕ
  deriving DecidableEq

/-- Counts wins and failures. -/
def countWinners (rounds : List CompareRound) : WinnerCounts where
  nodeWins := (rounds.filter fun round => round.winner == .node).length
  goWins := (rounds.filter fun round => round.winner == .go).length
  errors := (rounds.filter fun round => round.winner == .error).length

/-- `results.filter((result) => result.winner !== 'error')`. -/
def validRounds (rounds : List CompareRound) : List CompareRound :=
  rounds.filter fun round => round.winner != .error

/-- The values `i` takes in `for (let i = 0; i < count; i++)`, for a count of at most `limit`. -/
def roundIndices (limit : ℕ) (count : Number) : List ℕ :=
  (List.range limit).takeWhile fun i => Number.lt (.finite i) count

/-- The text of `task`: a template around a value of the request. -/
inductive TaskLabel where
  /-- `findPrimes(max=${max})`. -/
  | findPrimes (max : JsValue)
  /-- `asyncIO(delay=${delayMs}ms)`. -/
  | asyncIo (delayMs : JsValue)

/-- What both functions say in another mode. -/
def onlyInBothMode : String := "WORKER_ENGINE=both 모드에서만 사용 가능합니다."

/-! ### `compareEngines` -/

/-- `Math.min(body.count || 10, 100)`. -/
def enginesCount (body : Record) : Number :=
  Number.min ((body.field "count").orElse (.ofInt 10)).asNumber (.finite 100)

/-- The body of the `try`: the round, or nothing when a promise rejects. -/
def tryEngineRound (outcome : RoundOutcome) : Option CompareRound :=
  match outcome.node with
  | .rejects => none
  | .resolves nodeTiming =>
    let nodeMs := elapsedMs nodeTiming
    match outcome.go with
    | .rejects => none
    | .resolves _ goTiming =>
      let goMs := elapsedMs goTiming
      some ⟨if Number.le nodeMs goMs then .node else .go, some nodeMs, some goMs⟩

/-- One round of `compareEngines`. -/
def engineRound (outcome : RoundOutcome) : CompareRound :=
  match tryEngineRound outcome with
  | some round => round
  | none => ⟨.error, none, none⟩

/-- What `compareEngines` reports. -/
structure CompareReport where
  /-- The requested number of rounds. -/
  total : Number
  /-- The work. -/
  task : TaskLabel
  /-- Wins and failures. -/
  counts : WinnerCounts
  /-- The average of the Node side. -/
  avgNodeMs : Option Number
  /-- The average of the Go side. -/
  avgGoMs : Option Number
  /-- How many times faster the Go side is; `null` without a sample. -/
  speedup : Option Number
  /-- The rounds. -/
  detail : List CompareRound

/-- The answer of `compareEngines`. -/
inductive CompareAnswer where
  /-- `{ error }`. -/
  | error (text : String)
  /-- The report. -/
  | report (report : CompareReport)

/-- `Math.round((node.avgMs / go.avgMs) * 100) / 100`; `null` unless both averages exist and Go's
is positive. -/
def speedup (node go : Option Number) : Option Number :=
  match node, go with
  | some node, some go =>
    if Number.lt (.finite 0) go then some (toHundredths (Number.div node go)) else none
  | _, _ => none

/-- Compares the engines over at most 100 rounds. -/
def compareEngines (engine : WorkerEngine) (body : Record) (outcomes : ℕ → RoundOutcome) :
    CompareAnswer :=
  if engine ≠ .both then .error onlyInBothMode
  else
    let count := enginesCount body
    let max := (body.field "max").orElse (.ofInt 500000)
    let results := (roundIndices 100 count).foldl
      (fun results i => results ++ [engineRound (outcomes i)]) []
    let valid := validRounds results
    let node := summarizeLatencies (pickLatencies valid CompareRound.nodeMs)
    let go := summarizeLatencies (pickLatencies valid CompareRound.goMs)
    .report
      { total := count
        task := .findPrimes max
        counts := countWinners results
        avgNodeMs := node.avgMs
        avgGoMs := go.avgMs
        speedup := speedup node.avgMs go.avgMs
        detail := results }

/-! ### `compareStream` -/

/-- `Math.min(body.count || 20, 200)`. -/
def streamCount (body : Record) : Number :=
  Number.min ((body.field "count").orElse (.ofInt 20)).asNumber (.finite 200)

/-- The variables of a round when the `try` is left. -/
structure RoundState where
  /-- `nodeMs`. -/
  nodeMs : Option Number
  /-- `goMs`. -/
  goMs : Option Number

/-- The body of the `try`, in either test type: the measured latencies, or nothing when a
promise rejects. -/
def tryStreamRound (outcome : RoundOutcome) : Option RoundState :=
  match outcome.node with
  | .rejects => none
  | .resolves nodeTiming =>
    match outcome.go with
    | .rejects => none
    | .resolves _ goTiming => some ⟨some (elapsedMs nodeTiming), some (elapsedMs goTiming)⟩

/-- One round of `compareStream`. -/
def streamRound (outcome : RoundOutcome) : CompareRound :=
  match tryStreamRound outcome with
  | some ⟨some nodeMs, some goMs⟩ =>
    ⟨if Number.le nodeMs goMs then .node else .go, some nodeMs, some goMs⟩
  | some ⟨nodeMs, goMs⟩ => ⟨.error, nodeMs, goMs⟩
  | none => ⟨.error, none, none⟩

/-- The clock readings of the stream outside its rounds. -/
structure StreamClock where
  /-- `Date.now()` at the start. -/
  timestamp : ℚ
  /-- `startAll` and the reading at the end. -/
  all : Timing

/-- The events of the stream. -/
inductive StreamEvent where
  /-- `start`. -/
  | start (count : Number) (max testType delayMs : JsValue) (engine : WorkerEngine)
      (timestamp : ℚ)
  /-- `error`. -/
  | error (message : String)
  /-- `progress`, with the running tally. -/
  | progress (index : ℕ) (total : Number) (round : CompareRound) (counts : WinnerCounts)
      (avgNodeMs avgGoMs : Option Number)
  /-- `done`. -/
  | done (total : Number) (testType : JsValue) (task : TaskLabel) (totalMs : Number)
      (counts : WinnerCounts) (node go : LatencySummary)

/-- `testType === 'io'`. -/
def isIo : JsValue → Bool
  | .str s => s == "io"
  | _ => false

/-- The `progress` event after a round. -/
def progressEvent (index : ℕ) (total : Number) (results : List CompareRound)
    (round : CompareRound) : StreamEvent :=
  let valid := validRounds results
  .progress index total round (countWinners results)
    (summarizeLatencies (pickLatencies valid CompareRound.nodeMs)).avgMs
    (summarizeLatencies (pickLatencies valid CompareRound.goMs)).avgMs

/-- One pass of the loop: the results so far and the events sent so far. -/
def streamStep (total : Number) (outcomes : ℕ → RoundOutcome)
    (s : List CompareRound × List StreamEvent) (i : ℕ) : List CompareRound × List StreamEvent :=
  let round := streamRound (outcomes i)
  let results := s.1 ++ [round]
  (results, s.2 ++ [progressEvent i total results round])

/-- The events of the comparison over at most 200 rounds. -/
def compareStream (engine : WorkerEngine) (body : Record) (clock : StreamClock)
    (outcomes : ℕ → RoundOutcome) : List StreamEvent :=
  let count := streamCount body
  let max := (body.field "max").orElse (.ofInt 500000)
  let testType := (body.field "testType").orElse (.str "cpu")
  let delayMs := (body.field "delayMs").orElse (.ofInt 100)
  let started := [.start count max testType delayMs engine clock.timestamp]
  if engine ≠ .both then started ++ [.error onlyInBothMode]
  else
    let (results, events) := (roundIndices 200 count).foldl (streamStep count outcomes) ([], started)
    let valid := validRounds results
    let taskLabel := if isIo testType then .asyncIo delayMs else .findPrimes max
    events ++ [.done count testType taskLabel (elapsedMs clock.all) (countWinners results)
      (summarizeLatencies (pickLatencies valid CompareRound.nodeMs))
      (summarizeLatencies (pickLatencies valid CompareRound.goMs))]

/-! ### The rounds that are run -/

/-- How many rounds are run. -/
def roundCount (limit : ℕ) (count : Number) : ℕ := (roundIndices limit count).length

/-- The rounds are run in order, from round `0` on. -/
theorem roundIndices_eq_range (limit : ℕ) (count : Number) :
    roundIndices limit count = List.range (roundCount limit count) := by
  have hprefix : roundIndices limit count <+: List.range limit := List.takeWhile_prefix _
  have htake := List.prefix_iff_eq_take.mp hprefix
  have hle : (roundIndices limit count).length ≤ limit := by
    simpa using hprefix.length_le
  rw [List.take_range, Nat.min_eq_left hle] at htake
  exact htake

/-! ### What a round should count as -/

/-- Both promises resolve and Go answers with `success: false`. -/
def RoundOutcome.AnswersFailure (outcome : RoundOutcome) : Prop :=
  (∃ t, outcome.node = .resolves t) ∧ ∃ t, outcome.go = .resolves false t

/-- The latencies of a round in which both engines did their work. -/
def RoundOutcome.latencies? (outcome : RoundOutcome) : Option (Number × Number) :=
  match outcome.node, outcome.go with
  | .resolves nodeTiming, .resolves true goTiming =>
    some (elapsedMs nodeTiming, elapsedMs goTiming)
  | _, _ => none

/-- The result a round should have: a failure of either engine makes it an error without
latencies, otherwise the engine with the smaller latency wins, and a tie is Node's. -/
def judged (outcome : RoundOutcome) : CompareRound :=
  match outcome.latencies? with
  | some (nodeMs, goMs) =>
    ⟨if Number.lt goMs nodeMs then .go else .node, some nodeMs, some goMs⟩
  | none => ⟨.error, none, none⟩

theorem streamRound_eq_engineRound (outcome : RoundOutcome) :
    streamRound outcome = engineRound outcome := by
  obtain ⟨node, go⟩ := outcome
  cases node with
  | rejects => rfl
  | resolves nodeTiming => cases go <;> rfl

/-- A round counts as it should unless Go answers with `success: false`. -/
theorem engineRound_eq_judged_iff (outcome : RoundOutcome) :
    engineRound outcome = judged outcome ↔ ¬ outcome.AnswersFailure := by
  obtain ⟨node, go⟩ := outcome
  cases node with
  | rejects => simp [engineRound, tryEngineRound, judged, RoundOutcome.latencies?,
      RoundOutcome.AnswersFailure]
  | resolves nodeTiming =>
    cases go with
    | rejects => simp [engineRound, tryEngineRound, judged, RoundOutcome.latencies?,
        RoundOutcome.AnswersFailure]
    | resolves success goTiming =>
      cases success with
      | false => simp [engineRound, tryEngineRound, judged, RoundOutcome.latencies?,
          RoundOutcome.AnswersFailure]
      | true =>
        have hle := le_eq_not_lt (elapsedMs_ne_nan nodeTiming) (elapsedMs_ne_nan goTiming)
        simp only [engineRound, tryEngineRound, judged, RoundOutcome.latencies?, hle]
        cases Number.lt (elapsedMs goTiming) (elapsedMs nodeTiming) <;>
          simp [RoundOutcome.AnswersFailure]

/-- A failed answer of the Go engine wins the round for one of the two. -/
theorem engineRound_of_answersFailure {outcome : RoundOutcome} (h : outcome.AnswersFailure) :
    (engineRound outcome).winner ≠ .error ∧ (engineRound outcome).nodeMs.isSome ∧
      (engineRound outcome).goMs.isSome := by
  obtain ⟨node, go⟩ := outcome
  obtain ⟨⟨nodeTiming, rfl : node = _⟩, ⟨goTiming, rfl : go = _⟩⟩ := h
  refine ⟨?_, rfl, rfl⟩
  show (if Number.le (elapsedMs nodeTiming) (elapsedMs goTiming) then Winner.node else .go) ≠ .error
  split <;> exact Winner.noConfusion

/-! ### Tallies -/

/-- What a comparison reports about its rounds. -/
structure Tally where
  /-- The rounds, in order. -/
  rounds : List CompareRound
  /-- Wins and failures. -/
  counts : WinnerCounts
  /-- The average of the Node side. -/
  avgNodeMs : Option Number
  /-- The average of the Go side. -/
  avgGoMs : Option Number

/-- The tally both functions compute from their rounds. -/
def tallyOf (rounds : List CompareRound) : Tally where
  rounds := rounds
  counts := countWinners rounds
  avgNodeMs := (summarizeLatencies (pickLatencies (validRounds rounds) CompareRound.nodeMs)).avgMs
  avgGoMs := (summarizeLatencies (pickLatencies (validRounds rounds) CompareRound.goMs)).avgMs

/-- The tally in an answer of `compareEngines`. -/
def CompareAnswer.tally? : CompareAnswer → Option Tally
  | .error _ => none
  | .report r => some ⟨r.detail, r.counts, r.avgNodeMs, r.avgGoMs⟩

/-- The round a `progress` event reports. -/
def StreamEvent.round? : StreamEvent → Option CompareRound
  | .progress _ _ round _ _ _ => some round
  | _ => none

/-- The tally in a stream: its `progress` events give the rounds, `done` the sums. -/
def streamTally? (events : List StreamEvent) : Option Tally :=
  match events.getLast? with
  | some (.done _ _ _ _ counts node go) =>
    some ⟨events.filterMap StreamEvent.round?, counts, node.avgMs, go.avgMs⟩
  | _ => none

/-- The tally is right for the outcomes of the rounds. -/
structure Tally.Right (t : Tally) (outcomes : List RoundOutcome) : Prop where
  /-- Every round has the result it should have. -/
  rounds : t.rounds = outcomes.map judged
  /-- Every round is counted once. -/
  sum : t.counts.nodeWins + t.counts.goWins + t.counts.errors = outcomes.length
  /-- The wins are those of the rounds that should be won. -/
  wins : t.counts = countWinners (outcomes.map judged)
  /-- The Node average is over the rounds in which both engines did their work. -/
  avgNode : t.avgNodeMs =
    (summarizeLatencies ((outcomes.filterMap RoundOutcome.latencies?).map Prod.fst)).avgMs
  /-- The Go average is over the same rounds. -/
  avgGo : t.avgGoMs =
    (summarizeLatencies ((outcomes.filterMap RoundOutcome.latencies?).map Prod.snd)).avgMs
  /-- Without such a round there is no average. -/
  null : (outcomes.filterMap RoundOutcome.latencies? = []) ↔
    t.avgNodeMs = none ∧ t.avgGoMs = none

/-- Every round is won by a side or failed. -/
theorem countWinners_sum (rounds : List CompareRound) :
    (countWinners rounds).nodeWins + (countWinners rounds).goWins + (countWinners rounds).errors =
      rounds.length := by
  induction rounds with
  | nil => rfl
  | cons round rounds ih =>
    simp only [countWinners, List.filter_cons, List.length_cons] at ih ⊢
    cases hw : round.winner <;> simp <;> omega

/-- The valid rounds of the right results have the latencies of the rounds that went well. -/
theorem pickLatencies_judged (outcomes : List RoundOutcome) :
    pickLatencies (validRounds (outcomes.map judged)) CompareRound.nodeMs =
        (outcomes.filterMap RoundOutcome.latencies?).map Prod.fst ∧
      pickLatencies (validRounds (outcomes.map judged)) CompareRound.goMs =
        (outcomes.filterMap RoundOutcome.latencies?).map Prod.snd := by
  induction outcomes with
  | nil => exact ⟨rfl, rfl⟩
  | cons outcome outcomes ih =>
    obtain ⟨ihNode, ihGo⟩ := ih
    simp only [pickLatencies, validRounds] at ihNode ihGo ⊢
    cases hl : outcome.latencies? with
    | none =>
      have hj : judged outcome = ⟨.error, none, none⟩ := by simp [judged, hl]
      simp [hj, hl, ihNode, ihGo]
    | some ms =>
      obtain ⟨winner, hw, hj⟩ : ∃ winner, winner ≠ Winner.error ∧
          judged outcome = ⟨winner, some ms.1, some ms.2⟩ := by
        refine ⟨if Number.lt ms.2 ms.1 then .go else .node, ?_, by simp [judged, hl]⟩
        split <;> exact Winner.noConfusion
      simp [hj, hw, hl, ihNode, ihGo]

/-- A tally is right when its rounds have the results they should have. -/
theorem tallyOf_right_iff (rounds : List CompareRound) (outcomes : List RoundOutcome) :
    (tallyOf rounds).Right outcomes ↔ rounds = outcomes.map judged := by
  constructor
  · intro h
    exact h.rounds
  · rintro rfl
    obtain ⟨hnode, hgo⟩ := pickLatencies_judged outcomes
    refine ⟨rfl, ?_, rfl, ?_, ?_, ?_⟩
    · exact (countWinners_sum _).trans (List.length_map _)
    · simp only [tallyOf, hnode]
    · simp only [tallyOf, hgo]
    · simp only [tallyOf, hnode, hgo, summarizeLatencies_avgMs_eq_none, List.map_eq_nil_iff,
        and_self]

/-! ### What the two loops compute -/

/-- The outcomes of the first `n` rounds. -/
def firstOutcomes (outcomes : ℕ → RoundOutcome) (n : ℕ) : List RoundOutcome :=
  (List.range n).map outcomes

/-- The results of the first `n` rounds. -/
def firstRounds (outcomes : ℕ → RoundOutcome) (n : ℕ) : List CompareRound :=
  (firstOutcomes outcomes n).map engineRound

theorem firstRounds_succ (outcomes : ℕ → RoundOutcome) (n : ℕ) :
    firstRounds outcomes (n + 1) = firstRounds outcomes n ++ [engineRound (outcomes n)] := by
  simp [firstRounds, firstOutcomes, List.range_succ]

theorem enginesLoop_eq (outcomes : ℕ → RoundOutcome) (n : ℕ) :
    (List.range n).foldl (fun results i => results ++ [engineRound (outcomes i)]) [] =
      firstRounds outcomes n := by
  induction n with
  | zero => rfl
  | succ n ih => rw [List.range_succ, List.foldl_append, ih, firstRounds_succ]; rfl

/-- Each pass adds its result and an event with the tally of the results so far. -/
theorem streamLoop_eq (total : Number) (outcomes : ℕ → RoundOutcome) (started : List StreamEvent)
    (n : ℕ) :
    (List.range n).foldl (streamStep total outcomes) ([], started) =
      (firstRounds outcomes n,
        started ++ (List.range n).map fun i =>
          progressEvent i total (firstRounds outcomes (i + 1)) (engineRound (outcomes i))) := by
  induction n with
  | zero => simp [firstRounds, firstOutcomes]
  | succ n ih =>
    rw [List.range_succ, List.foldl_append, ih]
    simp only [List.foldl_cons, List.foldl_nil, streamStep, streamRound_eq_engineRound,
      ← firstRounds_succ, List.map_append, List.map_cons, List.map_nil, List.append_assoc]

/-- The number of rounds `compareEngines` runs. -/
def enginesRounds (body : Record) : ℕ := roundCount 100 (enginesCount body)

/-- The number of rounds `compareStream` runs. -/
def streamRounds (body : Record) : ℕ := roundCount 200 (streamCount body)

/-- `compareEngines` reports the tally of its rounds. -/
theorem compareEngines_tally (body : Record) (outcomes : ℕ → RoundOutcome) :
    (compareEngines .both body outcomes).tally? =
      some (tallyOf (firstRounds outcomes (enginesRounds body))) := by
  have hrounds : (roundIndices 100 (enginesCount body)).foldl
      (fun results i => results ++ [engineRound (outcomes i)]) [] =
      firstRounds outcomes (enginesRounds body) := by
    rw [roundIndices_eq_range, enginesLoop_eq, enginesRounds]
  unfold compareEngines
  rw [if_neg (fun h => h rfl)]
  simp only [hrounds, CompareAnswer.tally?, tallyOf]

/-- The events of the stream: `start`, one `progress` a round, `done`. -/
theorem compareStream_events (body : Record) (clock : StreamClock) (outcomes : ℕ → RoundOutcome) :
    ∃ max testType delayMs task,
      compareStream .both body clock outcomes =
        .start (streamCount body) max testType delayMs .both clock.timestamp ::
          ((List.range (streamRounds body)).map fun i =>
            progressEvent i (streamCount body) (firstRounds outcomes (i + 1))
              (engineRound (outcomes i))) ++
          [.done (streamCount body) testType task (elapsedMs clock.all)
            (countWinners (firstRounds outcomes (streamRounds body)))
            (summarizeLatencies (pickLatencies
              (validRounds (firstRounds outcomes (streamRounds body))) CompareRound.nodeMs))
            (summarizeLatencies (pickLatencies
              (validRounds (firstRounds outcomes (streamRounds body))) CompareRound.goMs))] := by
  simp only [compareStream, ne_eq, not_true_eq_false, if_false, roundIndices_eq_range,
    streamLoop_eq, streamRounds]
  exact ⟨_, _, _, _, rfl⟩

/-- `compareStream` reports the tally of its rounds. -/
theorem compareStream_tally (body : Record) (clock : StreamClock) (outcomes : ℕ → RoundOutcome) :
    streamTally? (compareStream .both body clock outcomes) =
      some (tallyOf (firstRounds outcomes (streamRounds body))) := by
  obtain ⟨max, testType, delayMs, task, h⟩ := compareStream_events body clock outcomes
  have hrounds : ((List.range (streamRounds body)).map fun i =>
      progressEvent i (streamCount body) (firstRounds outcomes (i + 1))
        (engineRound (outcomes i))).filterMap StreamEvent.round? =
      firstRounds outcomes (streamRounds body) := by
    simp [List.filterMap_map, Function.comp_def, progressEvent, StreamEvent.round?, firstRounds,
      firstOutcomes, List.filterMap_eq_map']
  rw [h, streamTally?, List.getLast?_concat]
  simp only [List.cons_append, List.filterMap_cons, List.filterMap_append, hrounds,
    StreamEvent.round?, List.filterMap_nil, List.append_nil]
  rfl

/-- Every `progress` event carries the tally of the rounds so far. -/
theorem progress_tally {body : Record} {clock : StreamClock} {outcomes : ℕ → RoundOutcome}
    {index : ℕ} {total : Number} {round : CompareRound} {counts : WinnerCounts}
    {avgNodeMs avgGoMs : Option Number}
    (h : StreamEvent.progress index total round counts avgNodeMs avgGoMs ∈
      compareStream .both body clock outcomes) :
    index < streamRounds body ∧ round = engineRound (outcomes index) ∧
      (⟨firstRounds outcomes (index + 1), counts, avgNodeMs, avgGoMs⟩ : Tally) =
        tallyOf (firstRounds outcomes (index + 1)) := by
  obtain ⟨max, testType, delayMs, task, hevents⟩ := compareStream_events body clock outcomes
  rw [hevents] at h
  simp only [List.cons_append, List.mem_cons, List.mem_append, List.mem_map, List.mem_range,
    reduceCtorEq, false_or, List.not_mem_nil, or_false] at h
  obtain ⟨i, hi, heq⟩ := h
  simp only [progressEvent, StreamEvent.progress.injEq] at heq
  obtain ⟨rfl, -, rfl, rfl, rfl, rfl⟩ := heq
  exact ⟨hi, rfl, rfl⟩

/-- In another mode than `both` no round is run. -/
theorem compare_other_mode {engine : WorkerEngine} (h : engine ≠ .both) (body : Record)
    (clock : StreamClock) (outcomes : ℕ → RoundOutcome) :
    compareEngines engine body outcomes = .error onlyInBothMode ∧
      (compareStream engine body clock outcomes).filterMap StreamEvent.round? = [] := by
  refine ⟨if_pos h, ?_⟩
  simp only [compareStream, h, ne_eq, not_false_eq_true, if_true]
  rfl

/-! ### Main results -/

/-- The two functions agree on equally many rounds with the same outcomes. -/
theorem tally_agree (enginesBody streamBody : Record) (clock : StreamClock)
    (outcomes : ℕ → RoundOutcome) (h : enginesRounds enginesBody = streamRounds streamBody) :
    (compareEngines .both enginesBody outcomes).tally? =
      streamTally? (compareStream .both streamBody clock outcomes) := by
  rw [compareEngines_tally, compareStream_tally, h]

/-- The results of the first rounds are right when none of them has a failed Go answer. -/
theorem firstRounds_eq_judged_iff (outcomes : ℕ → RoundOutcome) (n : ℕ) :
    firstRounds outcomes n = (firstOutcomes outcomes n).map judged ↔
      ∀ i < n, ¬ (outcomes i).AnswersFailure := by
  simp only [firstRounds, List.map_inj_left, firstOutcomes, List.mem_map, List.mem_range,
    forall_exists_index, and_imp, forall_apply_eq_imp_iff₂, engineRound_eq_judged_iff]

/-- The comparison counts only successful rounds: both functions report a right tally, and they
report the same one for the same outcomes. -/
def CountsOnlySuccesses (enginesBody streamBody : Record) (clock : StreamClock)
    (outcomes : ℕ → RoundOutcome) : Prop :=
  (∃ t, (compareEngines .both enginesBody outcomes).tally? = some t ∧
      t.Right (firstOutcomes outcomes (enginesRounds enginesBody))) ∧
    (∃ t, streamTally? (compareStream .both streamBody clock outcomes) = some t ∧
      t.Right (firstOutcomes outcomes (streamRounds streamBody))) ∧
    (enginesRounds enginesBody = streamRounds streamBody →
      (compareEngines .both enginesBody outcomes).tally? =
        streamTally? (compareStream .both streamBody clock outcomes))

/-- **The comparison counts only successful rounds exactly when Go never answers with
`success: false`** in a round whose Node side is done. -/
theorem compare_iff (enginesBody streamBody : Record) (clock : StreamClock)
    (outcomes : ℕ → RoundOutcome) :
    CountsOnlySuccesses enginesBody streamBody clock outcomes ↔
      ∀ i < max (enginesRounds enginesBody) (streamRounds streamBody),
        ¬ (outcomes i).AnswersFailure := by
  have hagree := tally_agree enginesBody streamBody clock outcomes
  simp only [CountsOnlySuccesses, compareEngines_tally, compareStream_tally, Option.some.injEq,
    exists_eq_left', tallyOf_right_iff, firstRounds_eq_judged_iff] at hagree ⊢
  constructor
  · rintro ⟨hengines, hstream, -⟩ i hi
    rcases lt_max_iff.mp hi with hi | hi
    · exact hengines i hi
    · exact hstream i hi
  · intro h
    refine ⟨?_, ?_, hagree⟩
    · intro i hi
      exact h i (lt_max_of_lt_left hi)
    · intro i hi
      exact h i (lt_max_of_lt_right hi)

/-- One round: the Node side takes 5 ms, and the Go engine answers after 1 ms that its queue is
full. The round is Go's win. -/
theorem compare_awards_failure :
    let body : Record := [("count", .ofInt 1)]
    let outcomes : ℕ → RoundOutcome := fun _ => ⟨.resolves ⟨0, 5⟩, .resolves false ⟨5, 6⟩⟩
    ((compareEngines .both body outcomes).tally?.map fun t => (t.rounds, t.counts)) =
        some ([⟨.go, some (.finite 5), some (.finite 1)⟩], ⟨0, 1, 0⟩) ∧
      ¬ CountsOnlySuccesses body body ⟨0, ⟨0, 6⟩⟩ outcomes := by
  refine ⟨by decide +kernel, ?_⟩
  rintro ⟨⟨t, ht, hright⟩, -⟩
  rw [compareEngines_tally] at ht
  obtain rfl := Option.some.inj ht
  rw [tallyOf_right_iff, firstRounds_eq_judged_iff] at hright
  exact hright 0 (by decide +kernel) ⟨⟨_, rfl⟩, ⟨_, rfl⟩⟩

end BulkTraffic.LoadTest
