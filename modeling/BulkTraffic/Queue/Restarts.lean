import BulkTraffic.Js.Stringify
import BulkTraffic.Lib.Utf8
import BulkTraffic.Queue.SnapshotSaves
import BulkTraffic.Queue.Statistics

/-!
# The server over restarts

The queue with the text of its snapshot file: `save` writes the bytes of `JSON.stringify(snapshot)`,
a new process reads what is there and starts with the counter and the totals it finds. `ended`
keeps the queues of the processes before, as they were when they ended.

A process may die at any time. What is asked for (`Continues`) is that the counters were saved in the
state in which it ended, as `onModuleDestroy` does when nothing goes on beside it, and that the next
one starts before the snapshot expires.

* `readSnapshot_snapshotText`: the text of a snapshot is read back.
* `restoreOnInit_of_saved`: what a process takes over of it.
* `counts_over_restarts`: the processes count as one.
-/

namespace BulkTraffic.Queue

open BulkTraffic.Lib BulkTraffic.Js

/-! ### The text of the file -/

/-- What `fs.writeFile` writes for a snapshot. -/
def snapshotText (snapshot : JsValue) : List UInt8 := Utf8.encode snapshot.toJson.text

/-- What `fs.readFile` and `JSON.parse` make of the file. -/
def readSnapshot : Option (List UInt8) → SnapshotFile
  | none => .missing
  | some bytes =>
    match Json.read (Utf8.decode bytes) with
    | some value => .json value.parse
    | none => .unparseable

/-- **The text of a snapshot is read back.** -/
theorem readSnapshot_snapshotText {snapshot : JsValue} (h : snapshot.Doubles) :
    readSnapshot (some (snapshotText snapshot)) = .json snapshot.reparsed := by
  rw [readSnapshot, snapshotText, Utf8.decode_encode, Json.read_text (JsValue.wellFormed_toJson _ h)]
  exact congrArg SnapshotFile.json (JsValue.parse_toJson _ h)

/-! ### What a process takes over -/

/-- A value that has the counters of a call, and queues with lengths. -/
structure HoldsCounters (value stats : JsValue) (c : SaveCall) : Prop where
  timestamp : value.property? "timestamp" = some (.ofInt c.timestamp)
  found : value.property? "stats" = some stats
  totalProcessed : stats.property? "totalProcessed" = some (.ofInt c.stats.totalProcessed)
  totalRejected : stats.property? "totalRejected" = some (.ofInt c.stats.totalRejected)
  totalTimeout : stats.property? "totalTimeout" = some (.ofInt c.stats.totalTimeout)
  taskIdCounter : stats.property? "taskIdCounter" = some (.ofInt c.taskIdCounter)
  lengths : ∀ queue ∈ ["high", "normal", "low"], ∃ n : ℕ, lengthOf? value queue = some (.ofInt n)

/-- The queues of a snapshot, as they are read back. -/
def SaveCall.queues (c : SaveCall) : Record :=
  [("high", serializeQueue c.high), ("normal", serializeQueue c.normal), ("low", serializeQueue c.low)]

theorem lengthOf_reparsed {c : SaveCall} {queue : String} {tasks : List QueueTask}
    (h : c.queues.field queue = serializeQueue tasks) :
    ∃ n : ℕ, lengthOf? c.snapshot.reparsed queue = some (.ofInt n) := by
  have hqueues : c.snapshot.reparsed.property? "queues" = some (JsValue.obj c.queues).reparsed := by
    unfold SaveCall.snapshot
    exact property_reparsed (by simp) (by simp [Record.field]; rfl) (readBack_obj _)
  have htasks : (JsValue.obj c.queues).reparsed.property? queue = some (serializeQueue tasks).reparsed :=
    property_reparsed (by simp [SaveCall.queues]) h (readBack_serializeQueue tasks)
  rw [lengthOf?, hqueues, Option.bind_eq_bind, Option.bind_some, htasks, Option.bind_some]
  exact ⟨_, rfl⟩

theorem holdsCounters_reparsed (c : SaveCall) : ∃ stats, HoldsCounters c.snapshot.reparsed stats c := by
  have hlengths : ∀ queue ∈ ["high", "normal", "low"],
      ∃ n : ℕ, lengthOf? c.snapshot.reparsed queue = some (.ofInt n) := by
    intro queue hqueue
    simp only [List.mem_cons, List.not_mem_nil, or_false] at hqueue
    rcases hqueue with rfl | rfl | rfl
    · have hhigh : c.queues.field "high" = serializeQueue c.high := by simp [SaveCall.queues, Record.field]
      exact lengthOf_reparsed hhigh
    · have hnormal : c.queues.field "normal" = serializeQueue c.normal := by
        simp [SaveCall.queues, Record.field]
      exact lengthOf_reparsed hnormal
    · have hlow : c.queues.field "low" = serializeQueue c.low := by simp [SaveCall.queues, Record.field]
      exact lengthOf_reparsed hlow
  unfold SaveCall.snapshot at hlengths ⊢
  refine ⟨_, ?_, property_reparsed (by simp) (by simp [Record.field]; rfl) (readBack_obj _),
    ?_, ?_, ?_, ?_, hlengths⟩
  · exact property_reparsed (by simp) (by simp [Record.field]) (readBack_ofInt _)
  · exact property_reparsed (by simp) (by simp [Record.field]) (readBack_ofInt _)
  · exact property_reparsed (by simp) (by simp [Record.field]) (readBack_ofInt _)
  · exact property_reparsed (by simp) (by simp [Record.field]) (readBack_ofInt _)
  · exact property_reparsed (by simp) (by simp [Record.field]) (readBack_ofInt _)

/-- What a process takes over from the snapshot of a call. -/
def SaveCall.fields (c : SaveCall) : RestoredFields where
  totalProcessed := .ofInt c.stats.totalProcessed
  totalRejected := .ofInt c.stats.totalRejected
  totalTimeout := .ofInt c.stats.totalTimeout
  lastSnapshotAt := .ofInt c.timestamp
  taskIdCounter := .ofInt c.taskIdCounter

/-- **A process takes over the counters** of the snapshot in the file, while it is young enough. -/
theorem restoreOnInit_of_saved {p : FilePersistenceService} {c : SaveCall} {now : ℕ}
    (hfile : p.file = .json c.snapshot.reparsed) (hnow : now ≤ maxTime)
    (hyoung : now ≤ c.timestamp + p.maxSnapshotAgeMs) (unlinked : Bool) :
    restoreOnInit p now unlinked {} = (some (.ofInt c.taskIdCounter), c.fields) := by
  obtain ⟨stats, h⟩ := holdsCounters_reparsed c
  have hfresh : p.Fresh now c.snapshot.reparsed :=
    ⟨hfile, _, h.timestamp, rfl, FilePersistenceService.isExpired_of_young hnow hyoung⟩
  have hnullish : stats.isNullish = false := by
    by_contra hnull
    have hnone := property_eq_none (by simpa using hnull) "taskIdCounter"
    rw [h.taskIdCounter] at hnone
    cases hnone
  have hlog : Loggable c.snapshot.reparsed stats := by
    constructor
    · intro queue hqueue
      obtain ⟨n, hn⟩ := h.lengths queue hqueue
      exact ⟨_, hn, rfl⟩
    · intro name hname
      simp only [List.mem_cons, List.not_mem_nil, or_false] at hname
      rcases hname with rfl | rfl | rfl
      · exact ⟨_, h.totalProcessed, rfl⟩
      · exact ⟨_, h.totalRejected, rfl⟩
      · exact ⟨_, h.totalTimeout, rfl⟩
  rw [restoreOnInit_of_stats hfresh h.found hnullish]
  obtain ⟨taken, counter, htaken, hsame, hcounter, ⟨-, hrun⟩ | ⟨hnot, -⟩⟩ :=
    run_restoreSnapshot h.found hnullish {}
  · rw [hrun]
    obtain rfl := Option.some.inj (h.taskIdCounter.symm.trans hcounter)
    have heq : taken = { c.fields with taskIdCounter := taken.taskIdCounter } :=
      htaken.eq ⟨h.totalProcessed, h.totalRejected, h.totalTimeout, h.timestamp⟩ rfl
    rw [heq]
    rfl
  · exact absurd hlog hnot

/-- The totals, as a new process has them. -/
def QueueStatsService.totals (stats : QueueStatsService) : QueueStatsService where
  totalProcessed := stats.totalProcessed
  totalRejected := stats.totalRejected
  totalTimeout := stats.totalTimeout

/-- A value as a natural number. -/
def natural? : JsValue → Option ℕ
  | .num (.finite q) => if q.den = 1 ∧ 0 ≤ q.num then some q.num.toNat else none
  | _ => none

theorem natural?_ofInt (n : ℕ) : natural? (.ofInt n) = some n := by
  simp [natural?, JsValue.ofInt]

/-- The counter and the totals of a process, if they are natural numbers. -/
def RestoredFields.counters (fields : RestoredFields) : Option (ℕ × QueueStatsService) := do
  let totalProcessed ← natural? fields.totalProcessed
  let totalRejected ← natural? fields.totalRejected
  let totalTimeout ← natural? fields.totalTimeout
  let taskIdCounter ← natural? fields.taskIdCounter
  some (taskIdCounter,
    { totalProcessed := totalProcessed, totalRejected := totalRejected, totalTimeout := totalTimeout })

theorem SaveCall.counters_fields (c : SaveCall) :
    c.fields.counters = some (c.taskIdCounter, c.stats.totals) := by
  simp [RestoredFields.counters, SaveCall.fields, QueueStatsService.totals, natural?_ofInt]


/-! ### The numbers of the tasks -/

namespace QueueSystem

/-- The accepted tasks are numbered one by one, from the counter on. -/
structure Numbered (counter : ℕ) (s : QueueSystem) : Prop where
  ledger : Ledger s
  ids : s.accepted.map QueueTask.id = List.range' (counter + 1) s.accepted.length
  last : s.state.taskIdCounter = counter + s.accepted.length

theorem accept_fields (s : QueueSystem) (options : NormalizedEnqueueOptions) (now : ℕ) :
    (s.accept options now).accepted = s.accepted ++ [s.newTask options now] ∧
      (s.accept options now).state.taskIdCounter = s.state.taskIdCounter + 1 := by
  have hmoves := (sameTasks_requestProcessQueue
    ((s.register (s.newTask options now)).place (s.newTask options now) options.batch now)).moves
  refine ⟨hmoves.accepted.trans ?_, hmoves.counter.trans ?_⟩
  · rw [place_frame]
    rfl
  · rw [place_frame]
    rfl

variable {counter : ℕ} {s u : QueueSystem}

theorem Numbered.moves (h : Numbered counter s) (hledger : Ledger u) (hm : Moves s u) :
    Numbered counter u := by
  refine ⟨hledger, ?_, ?_⟩
  · rw [hm.accepted]
    exact h.ids
  · rw [hm.accepted, hm.counter]
    exact h.last

theorem Numbered.step {e : QueueEvent} (h : Numbered counter s) (hu : s.step e = some u) :
    Numbered counter u := by
  have hledger := h.ledger.step hu
  obtain hm | ⟨parser, normalized, now, rfl⟩ | ⟨k, task, hk, rfl⟩ := step_cases hu
  · exact h.moves hledger hm
  · obtain ⟨haccepted, hcounter⟩ := accept_fields { s with parser := parser } normalized now
    have hlast := h.last
    refine ⟨hledger, ?_, ?_⟩
    · have hid : (newTask { s with parser := parser } normalized now).id =
          counter + 1 + s.accepted.length := by
        change s.state.taskIdCounter + 1 = _
        omega
      rw [haccepted, List.map_append, h.ids, List.map_singleton, hid, List.length_append,
        List.length_singleton, List.range'_concat, Nat.one_mul]
    · rw [haccepted, hcounter, List.length_append, List.length_singleton]
      change s.state.taskIdCounter + 1 = counter + (s.accepted.length + 1)
      omega
  · have hfired := h.ledger.fire k hk
    have hnumbered : Numbered counter { s with timers := s.timers.eraseIdx k } := ⟨hfired, h.ids, h.last⟩
    exact hnumbered.moves hledger (onQueueWaitTimeout_moves hfired.keyed task)

end QueueSystem

/-! ### The server -/

/-- What the server is configured with. -/
structure ServerSettings where
  config : QueueConfig := {}
  allowCustomWorkload : Bool := false
  useWorkers : Bool := false
  workerCount : ℕ := 4
  cpu : Option ℕ := none
  memory : Option ℕ := none
  custom : Option ℕ := none
  maxSnapshotAgeMs : ℕ := 300000

/-- The queue of a process that starts with these counters. -/
def ServerSettings.start (settings : ServerSettings) (taskIdCounter : ℕ) (stats : QueueStatsService) :
    QueueSystem :=
  .initial settings.config taskIdCounter stats settings.allowCustomWorkload settings.useWorkers
    settings.workerCount settings.cpu settings.memory settings.custom

/-- How `fs.writeFile` ends. -/
inductive FileWrite where
  /-- The text is written. -/
  | written
  /-- It throws, and leaves some bytes or no file. -/
  | failed (left : Option (List UInt8))

/-- The server: the process that runs, and the snapshot file. -/
structure ServerRun where
  queue : QueueSystem
  /-- The bytes of the file, if it is there. -/
  file : Option (List UInt8) := none
  /-- The call whose snapshot the file holds. -/
  saved : Option SaveCall := none
  /-- The queues of the processes before, as they ended. -/
  ended : List QueueSystem := []

/-- What can happen. -/
inductive ServerEvent where
  /-- Something happens in the queue. -/
  | queue (e : QueueEvent)
  /-- A snapshot is saved. -/
  | save (timestamp finished : ℕ) (write : FileWrite)
  /-- The process ends, and a new one starts. -/
  | restart (now : ℕ) (unlinked : Bool)

namespace ServerRun

/-- The call of `save`. -/
def saveCall (s : ServerRun) (timestamp finished : ℕ) (write : FileWrite) : SaveCall where
  high := s.queue.state.highPriorityQueue
  normal := s.queue.state.normalPriorityQueue
  low := s.queue.state.lowPriorityQueue
  stats := s.queue.stats
  taskIdCounter := s.queue.state.taskIdCounter
  timestamp := timestamp
  finished := finished
  write :=
    match write with
    | .written => .written
    | .failed left => .failed (readSnapshot left)

/-- Is the file gone after `restore()`? -/
def cleared (file : SnapshotFile) : Bool :=
  match file with
  | .missing => true
  | _ => false

/-- One step. A write is one step here: `CountersSaved` asks for the counters of the state in which the
process ends, so nothing was counted beside it. A process that starts with counters that are no natural
numbers is not followed. -/
def step (settings : ServerSettings) (s : ServerRun) : ServerEvent → Option ServerRun
  | .queue e => (s.queue.step e).map fun queue => { s with queue := queue }
  | .save timestamp finished .written =>
    let c := s.saveCall timestamp finished .written
    some { s with file := some (snapshotText c.snapshot), saved := some c }
  | .save _ _ (.failed left) => some { s with file := left, saved := none }
  | .restart now unlinked =>
    let p : FilePersistenceService :=
      { maxSnapshotAgeMs := settings.maxSnapshotAgeMs, file := readSnapshot s.file }
    let gone := cleared (restore p now unlinked {}).2.2.file
    (restoreOnInit p now unlinked {}).2.counters.map fun (taskIdCounter, stats) =>
      { queue := settings.start taskIdCounter stats
        file := if gone then none else s.file
        saved := if gone then none else s.saved
        ended := s.ended ++ [s.queue] }

/-- The first process, without a file. -/
def first (settings : ServerSettings) : ServerRun where
  queue := settings.start 0 {}

/-- The file holds the counters of the process, and the snapshot has not expired. -/
structure CountersSaved (settings : ServerSettings) (s : ServerRun) (now : ℕ) (c : SaveCall) : Prop where
  saved : s.saved = some c
  taskIdCounter : c.taskIdCounter = s.queue.state.taskIdCounter
  totals : c.stats.totals = s.queue.stats.totals
  time : now ≤ maxTime
  young : now ≤ c.timestamp + settings.maxSnapshotAgeMs

/-- The numbers of a snapshot are JavaScript numbers. A process ends with its counters saved, and the
next one starts before the snapshot expires. -/
def Continues (settings : ServerSettings) (s : ServerRun) : ServerEvent → Prop
  | .queue _ => True
  | .save timestamp finished write => (s.saveCall timestamp finished write).snapshot.Doubles
  | .restart now _ => ∃ c, CountersSaved settings s now c

/-- All processes, the one that runs last. -/
def processes (s : ServerRun) : List QueueSystem := s.ended ++ [s.queue]

/-- What the processes have counted together: each accepted task has a number of its own, and the
totals are those of the tasks of all processes, but for what groups in progress have not reported. -/
structure CountAsOne (s : ServerRun) : Prop where
  ids : (s.processes.flatMap QueueSystem.accepted).map QueueTask.id =
    List.range' 1 s.queue.state.taskIdCounter
  processed : s.queue.stats.totalProcessed +
      weight (fun q => weight BatchGroup.processed q.groups) s.processes =
    weight (fun q => q.tasksSettled Call.resolved) s.processes
  rejected : s.queue.stats.totalRejected + s.queue.stats.totalTimeout +
      weight (fun q => weight BatchGroup.failed q.groups) s.processes =
    weight (fun q => q.tasksSettled Call.rejected + q.refused) s.processes
  timeout : s.queue.stats.totalTimeout = weight (fun q => q.tasksSettled Call.timedOut) s.processes

/-- **The invariant**: the process that runs has started with what the ones before have counted, and
the file holds the text of the snapshot that was saved last. -/
structure Inv (settings : ServerSettings) (s : ServerRun) : Prop where
  started : ∃ taskIdCounter stats,
    Reachable QueueSystem.step (settings.start taskIdCounter stats) s.queue ∧
    QueueSystem.Numbered taskIdCounter s.queue ∧
    (s.ended.flatMap QueueSystem.accepted).map QueueTask.id = List.range' 1 taskIdCounter ∧
    stats.totalProcessed + weight (fun q => weight BatchGroup.processed q.groups) s.ended =
      weight (fun q => q.tasksSettled Call.resolved) s.ended ∧
    stats.totalRejected + stats.totalTimeout +
        weight (fun q => weight BatchGroup.failed q.groups) s.ended =
      weight (fun q => q.tasksSettled Call.rejected + q.refused) s.ended ∧
    stats.totalTimeout = weight (fun q => q.tasksSettled Call.timedOut) s.ended
  saved : ∀ c, s.saved = some c → s.file = some (snapshotText c.snapshot) ∧ c.snapshot.Doubles

variable {settings : ServerSettings} {s u : ServerRun}

theorem Inv.countAsOne (h : Inv settings s) : CountAsOne s := by
  obtain ⟨taskIdCounter, stats, hreach, hnumbered, hids, hprocessed, hrejected, htimeout⟩ := h.started
  obtain ⟨hprocessed', hrejected', htimeout', -⟩ := QueueSystem.statistics hreach
  have hlast := hnumbered.last
  constructor
  · rw [processes, List.flatMap_append, List.flatMap_singleton, List.map_append, hids, hnumbered.ids,
      hlast, Nat.add_comm taskIdCounter 1, List.range'_append_1]
  · simp only [processes, weight_append, weight_cons, weight_nil]
    omega
  · simp only [processes, weight_append, weight_cons, weight_nil]
    omega
  · simp only [processes, weight_append, weight_cons, weight_nil]
    omega

theorem inv_first (settings : ServerSettings) : Inv settings (first settings) where
  started := ⟨0, {}, .refl, ⟨.initial, rfl, rfl⟩, rfl, rfl, rfl, rfl⟩
  saved _ hc := by cases hc

/-- **A new process goes on** with the counter and the totals of the one before. -/
theorem step_restart (h : Inv settings s) {now : ℕ} {c : SaveCall} (hc : CountersSaved settings s now c)
    (unlinked : Bool) : ∃ u, s.step settings (.restart now unlinked) = some u ∧
      u.queue = settings.start s.queue.state.taskIdCounter s.queue.stats.totals ∧
      u.ended = s.processes ∧ (u.saved = none ∧ u.file = none ∨ u.saved = s.saved ∧ u.file = s.file) := by
  obtain ⟨hfile, hdoubles⟩ := h.saved c hc.saved
  let p : FilePersistenceService :=
    { maxSnapshotAgeMs := settings.maxSnapshotAgeMs, file := readSnapshot s.file }
  have hread : p.file = .json c.snapshot.reparsed :=
    (congrArg readSnapshot hfile).trans (readSnapshot_snapshotText hdoubles)
  have hrestore : restoreOnInit p now unlinked {} = _ :=
    restoreOnInit_of_saved hread hc.time hc.young unlinked
  have hstep : s.step settings (.restart now unlinked) =
      (restoreOnInit p now unlinked {}).2.counters.map _ := rfl
  rw [hrestore, SaveCall.counters_fields, Option.map_some] at hstep
  refine ⟨_, hstep, ?_, rfl, ?_⟩
  · dsimp only
    rw [hc.taskIdCounter, hc.totals]
  · dsimp only
    split
    · exact .inl ⟨rfl, rfl⟩
    · exact .inr ⟨rfl, rfl⟩

theorem Inv.step {e : ServerEvent} (h : Inv settings s) (hok : Continues settings s e)
    (hu : s.step settings e = some u) : Inv settings u := by
  cases e with
  | queue e =>
    obtain ⟨queue, hqueue, rfl⟩ := Option.map_eq_some_iff.mp hu
    obtain ⟨taskIdCounter, stats, hreach, hnumbered, hbefore⟩ := h.started
    exact ⟨⟨taskIdCounter, stats, hreach.next e trivial hqueue, hnumbered.step hqueue, hbefore⟩, h.saved⟩
  | save timestamp finished write =>
    cases write with
    | written =>
      obtain rfl := Option.some.inj hu
      refine ⟨h.started, fun c hc => ?_⟩
      obtain rfl := Option.some.inj hc
      exact ⟨rfl, hok⟩
    | failed left =>
      obtain rfl := Option.some.inj hu
      refine ⟨h.started, fun c hc => ?_⟩
      cases hc
  | restart now unlinked =>
    obtain ⟨c, hc⟩ := hok
    obtain ⟨v, hv, hqueue, hended, hsaved⟩ := step_restart h hc unlinked
    obtain rfl := Option.some.inj (hv.symm.trans hu)
    obtain ⟨hids, hprocessed, hrejected, htimeout⟩ := h.countAsOne
    refine ⟨⟨s.queue.state.taskIdCounter, s.queue.stats.totals, ?_, ?_, ?_, ?_, ?_, ?_⟩, fun d hd => ?_⟩
    · rw [hqueue]
      exact .refl
    · rw [hqueue]
      exact ⟨.initial, rfl, rfl⟩
    · rw [hended]
      exact hids
    · rw [hended]
      exact hprocessed
    · rw [hended]
      exact hrejected
    · rw [hended]
      exact htimeout
    · rcases hsaved with ⟨hnone, -⟩ | ⟨hsame, hfile⟩
      · rw [hnone] at hd
        cases hd
      · rw [hfile]
        exact h.saved d (hsame ▸ hd)

theorem inv_of_reaches (h : Reaches (step settings) (Continues settings) (first settings) s) :
    Inv settings s :=
  h.invariant (inv_first settings) fun _ _ _ hs hok hu => hs.step hok hu

/-- **The processes count as one.** In every run in which each process ends with its counters saved
and the next one starts before the snapshot expires, the tasks of all processes are numbered one by
one, and the totals count what was done to the tasks of all of them. -/
theorem counts_over_restarts (h : Reaches (step settings) (Continues settings) (first settings) s) :
    CountAsOne s :=
  (inv_of_reaches h).countAsOne

/-- What happens in the queue alone. -/
theorem reaches_queue {q : QueueSystem} (h : Reachable QueueSystem.step s.queue q) :
    Reaches (step settings) (Continues settings) s { s with queue := q } := by
  induction h with
  | refl => exact .refl
  | next e _ _ he ih => exact ih.next (.queue e) trivial (congrArg (Option.map _) he)

/-- Are the numbers of a task small, and is it without a request identifier? -/
def isSmall (task : QueueTask) : Bool :=
  decide (task.id < 2 ^ 53) && decide (task.timestamp < 2 ^ 53) && decide (task.priority.natAbs < 2 ^ 53) &&
    decide (task.size.getD 0 < 2 ^ 53) && task.requestId.isNone

theorem doubles_ofInt {z : ℤ} (h : z.natAbs < 2 ^ 53) : (JsValue.ofInt z).Doubles := isDouble_intCast h

theorem doubles_serialize {task : QueueTask} (h : isSmall task = true) : task.serialize.Doubles := by
  simp only [isSmall, Bool.and_eq_true, decide_eq_true_eq, Option.isNone_iff_eq_none] at h
  obtain ⟨⟨⟨⟨hid, htimestamp⟩, hpriority⟩, hsize⟩, hrequest⟩ := h
  have hcategory : (optional (task.category.map .str)).Doubles := by
    cases task.category <;> trivial
  have hoptional : (optional (task.size.map fun size => .ofInt size)).Doubles := by
    cases hs : task.size with
    | none => trivial
    | some size =>
      rw [hs] at hsize
      exact doubles_ofInt hsize
  rw [QueueTask.serialize, hrequest]
  exact ⟨doubles_ofInt hid, trivial, doubles_ofInt htimestamp, doubles_ofInt hpriority, hcategory, hoptional,
    trivial⟩

theorem doubles_serializeQueue {queue : List QueueTask} (h : queue.all isSmall = true) :
    (serializeQueue queue).Doubles := by
  change JsValue.ItemsDoubles (queue.map QueueTask.serialize)
  induction queue with
  | nil => trivial
  | cons task queue ih =>
    rw [List.all_cons, Bool.and_eq_true] at h
    exact ⟨doubles_serialize h.1, ih h.2⟩

/-- What a test looks at of a queue: the counter, the totals, and whether its tasks are small. -/
def seen (q : QueueSystem) : ℕ × (ℕ × ℕ × ℕ) × (Bool × Bool × Bool) :=
  (q.state.taskIdCounter, (q.stats.totalProcessed, q.stats.totalRejected, q.stats.totalTimeout),
    (q.state.highPriorityQueue.all isSmall, q.state.normalPriorityQueue.all isSmall,
      q.state.lowPriorityQueue.all isSmall))

/-- A task, a snapshot, a restart and one more task. -/
theorem counts_over_restarts_of_two_tasks :
    ∃ s, Reaches (step {}) (Continues {}) (first {}) s ∧ s.ended.length = 1 ∧
      s.queue.state.taskIdCounter = 2 ∧ CountAsOne s := by
  obtain ⟨q, hq, hseen⟩ := exists_reaches_of_runEvents QueueSystem.step (fun _ _ => True) seen
    (s := (first {}).queue) [.enqueue {} 900] (1, (0, 0, 0), (true, true, true)) (by decide +kernel)
  simp only [seen, Prod.mk.injEq] at hseen
  obtain ⟨hcounter, ⟨hprocessed, hrejected, htimeout⟩, hhigh, hnormal, hlow⟩ := hseen
  let s₁ : ServerRun := { first {} with queue := q }
  let c := s₁.saveCall 1000 1005 .written
  let s₂ : ServerRun := { s₁ with file := some (snapshotText c.snapshot), saved := some c }
  have h₁ : Reaches (step {}) (Continues {}) (first {}) s₁ := reaches_queue hq
  have hdoubles : c.snapshot.Doubles := by
    refine ⟨doubles_ofInt (z := (1000 : ℕ)) (by decide), ⟨doubles_serializeQueue hhigh,
      doubles_serializeQueue hnormal, doubles_serializeQueue hlow, trivial⟩, ⟨?_, ?_, ?_, ?_, trivial⟩,
      trivial⟩
    · exact doubles_ofInt (z := q.stats.totalProcessed) (by rw [hprocessed]; decide)
    · exact doubles_ofInt (z := q.stats.totalRejected) (by rw [hrejected]; decide)
    · exact doubles_ofInt (z := q.stats.totalTimeout) (by rw [htimeout]; decide)
    · exact doubles_ofInt (z := q.state.taskIdCounter) (by rw [hcounter]; decide)
  have h₂ : Reaches (step {}) (Continues {}) (first {}) s₂ :=
    h₁.next (ServerEvent.save 1000 1005 .written) hdoubles rfl
  have hsaved : CountersSaved {} s₂ 2000 c :=
    ⟨rfl, rfl, rfl, by norm_num [maxTime], by change 2000 ≤ 1000 + 300000; norm_num⟩
  obtain ⟨s₃, hs₃, hqueue, hended, -⟩ := step_restart (inv_of_reaches h₂) hsaved true
  have h₃ := h₂.next (ServerEvent.restart 2000 true) ⟨c, hsaved⟩ hs₃
  have htotals : q.stats.totals = {} := by
    rw [QueueStatsService.totals, hprocessed, hrejected, htimeout]
  obtain ⟨q', hq', hcounter'⟩ := exists_reaches_of_runEvents QueueSystem.step (fun _ _ => True)
    (fun q => q.state.taskIdCounter) (s := ServerSettings.start {} 1 {}) [.enqueue {} 2100] 2
    (by decide +kernel)
  have hstart : s₃.queue = ServerSettings.start {} 1 {} := by
    rw [hqueue]
    change ServerSettings.start {} q.state.taskIdCounter q.stats.totals = _
    rw [hcounter, htotals]
  have h₄ := h₃.trans (reaches_queue (hstart.symm ▸ hq'))
  refine ⟨_, h₄, ?_, hcounter', counts_over_restarts h₄⟩
  change s₃.ended.length = 1
  rw [hended]
  rfl

end ServerRun

end BulkTraffic.Queue
