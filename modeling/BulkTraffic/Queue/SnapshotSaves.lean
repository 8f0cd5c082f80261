import BulkTraffic.Lib.Runs
import BulkTraffic.Queue.Snapshot
import BulkTraffic.Queue.State

/-!
# Saving snapshots

`QueueSnapshotManager.save` with `FilePersistenceService.saveSnapshot`. The latter catches and
logs what `fs.writeFile` throws, so `save` takes every write for a success. A save is over before
the next one begins: two that overlap, as the saves of the timer may, write to one file at once, and
are not modelled.

`reported` is no field of the source: it records the call of `save` that has set
`lastSnapshotAt`.

* `HoldsSave`: the file holds the snapshot of a call, and loads it while it is young enough.
* `saves_honest`: in runs of saves whose writes succeed, the file holds what was reported.
* `save_reports_failed_write`: a write that fails is reported as well.
-/

namespace BulkTraffic.Queue

open BulkTraffic.Lib BulkTraffic.Js

/-! ### The snapshot -/

/-- A request identifier as a value. -/
def RequestId.value : RequestId → JsValue
  | str s => .str s
  | num n => .num n

/-- A member that may be missing. -/
def optional (value : Option JsValue) : JsValue := value.getD .undefined

/-- What `serializeQueue` makes of a task. -/
def QueueTask.serialize (task : QueueTask) : JsValue :=
  .obj [("id", .ofInt task.id),
    ("requestId", optional (task.requestId.map RequestId.value)),
    ("timestamp", .ofInt task.timestamp),
    ("priority", .ofInt task.priority),
    ("category", optional (task.category.map .str)),
    ("size", optional (task.size.map fun size => .ofInt size))]

/-- `serializeQueue(queue)`. -/
def serializeQueue (queue : List QueueTask) : JsValue := .arr (queue.map QueueTask.serialize)

/-- How `fs.writeFile` ends. -/
inductive WriteOutcome where
  /-- The text is written. -/
  | written
  /-- It throws, and leaves the file in some state. -/
  | failed (left : SnapshotFile)

/-- A call of `save`, with the totals it reads, the times of its start and end, and the outcome
of the write. -/
structure SaveCall where
  high : List QueueTask
  normal : List QueueTask
  low : List QueueTask
  stats : QueueStatsService
  taskIdCounter : ℕ
  /-- `Date.now()` for the snapshot. -/
  timestamp : ℕ
  /-- `Date.now()` after the write. -/
  finished : ℕ
  write : WriteOutcome

namespace SaveCall

/-- The snapshot of a call. -/
def snapshot (c : SaveCall) : JsValue :=
  .obj [("timestamp", .ofInt c.timestamp),
    ("queues", .obj [("high", serializeQueue c.high), ("normal", serializeQueue c.normal),
      ("low", serializeQueue c.low)]),
    ("stats", .obj [("totalProcessed", .ofInt c.stats.totalProcessed),
      ("totalRejected", .ofInt c.stats.totalRejected),
      ("totalTimeout", .ofInt c.stats.totalTimeout),
      ("taskIdCounter", .ofInt c.taskIdCounter)])]

/-- Its write has succeeded. -/
def Succeeds (c : SaveCall) : Prop :=
  match c.write with
  | .written => True
  | .failed _ => False

/-- No task has a `NaN` or an infinity as its request identifier: JSON has no text for them. -/
def FiniteIds (c : SaveCall) : Prop :=
  ∀ task ∈ c.high ++ c.normal ++ c.low, ∀ n, task.requestId = some (.num n) → n.isFinite = true

end SaveCall

/-! ### Saving -/

/-- `saveSnapshot(snapshot)`: what it throws, and the file. -/
def FilePersistenceService.saveSnapshot (p : FilePersistenceService) (snapshot : JsValue) :
    WriteOutcome → Except String Unit × FilePersistenceService
  | .written => (.ok (), { p with file := .json snapshot.reparsed })
  -- The error is caught and logged here.
  | .failed left => (.ok (), { p with file := left })

/-- `QueueSnapshotManager`, with the file. -/
structure QueueSnapshotManager where
  lastSnapshotAt : JsValue := .null
  persistence : FilePersistenceService := {}
  /-- The call that has set `lastSnapshotAt`. -/
  reported : Option SaveCall := none

namespace QueueSnapshotManager

/-- `save(queues, taskIdCounter)`. -/
def save (m : QueueSnapshotManager) (c : SaveCall) : QueueSnapshotManager :=
  match m.persistence.saveSnapshot c.snapshot c.write with
  | (.ok (), p) => { persistence := p, lastSnapshotAt := .ofInt c.finished, reported := some c }
  | (.error _, p) => { m with persistence := p }

/-- A call of `save`, as a step. -/
def saveStep (m : QueueSnapshotManager) (c : SaveCall) : Option QueueSnapshotManager :=
  some (m.save c)

end QueueSnapshotManager

/-! ### What is read back -/

/-- A value that holds the data of a task. -/
structure HoldsTask (value : JsValue) (task : QueueTask) : Prop where
  id : value.property? "id" = some (.ofInt task.id)
  requestId : value.property? "requestId" = some (optional (task.requestId.map RequestId.value))
  timestamp : value.property? "timestamp" = some (.ofInt task.timestamp)
  priority : value.property? "priority" = some (.ofInt task.priority)
  category : value.property? "category" = some (optional (task.category.map .str))
  size : value.property? "size" = some (optional (task.size.map fun size => .ofInt size))

/-- A value that holds the data of a queue, task by task. -/
def HoldsQueue (value : JsValue) (queue : List QueueTask) : Prop :=
  ∃ items, value = .arr items ∧ List.Forall₂ HoldsTask items queue

/-- A value that holds exactly what a call has saved. -/
structure HoldsSnapshot (value : JsValue) (c : SaveCall) : Prop where
  timestamp : value.property? "timestamp" = some (.ofInt c.timestamp)
  queues : ∃ queues high normal low, value.property? "queues" = some queues ∧
    queues.property? "high" = some high ∧ HoldsQueue high c.high ∧
    queues.property? "normal" = some normal ∧ HoldsQueue normal c.normal ∧
    queues.property? "low" = some low ∧ HoldsQueue low c.low
  stats : ∃ stats, value.property? "stats" = some stats ∧
    stats.property? "totalProcessed" = some (.ofInt c.stats.totalProcessed) ∧
    stats.property? "totalRejected" = some (.ofInt c.stats.totalRejected) ∧
    stats.property? "totalTimeout" = some (.ofInt c.stats.totalTimeout) ∧
    stats.property? "taskIdCounter" = some (.ofInt c.taskIdCounter)

/-- A member is read back. -/
theorem property_reparsed {fields : List (String × JsValue)} (hnodup : (fields.map Prod.fst).Nodup)
    {name : String} {value read : JsValue} (h : Record.field fields name = value)
    (hread : value.ReadBack read) : (JsValue.obj fields).reparsed.property? name = some read :=
  congrArg some (JsValue.field_reparsed hnodup (h ▸ hread))

theorem readBack_ofInt (n : ℤ) : (JsValue.ofInt n).ReadBack (.ofInt n) :=
  have hread : (JsValue.ofInt n).ReadBack (JsValue.ofInt n).reparsed := .written nofun
  hread

theorem readBack_str (s : String) : (JsValue.str s).ReadBack (.str s) :=
  have hread : (JsValue.str s).ReadBack (JsValue.str s).reparsed := .written nofun
  hread

theorem readBack_obj (fields : Record) :
    (JsValue.obj fields).ReadBack (JsValue.obj fields).reparsed := by
  refine .written ?_
  intro h
  cases h

theorem readBack_serializeQueue (queue : List QueueTask) :
    (serializeQueue queue).ReadBack (serializeQueue queue).reparsed := by
  refine .written ?_
  intro h
  cases h

theorem readBack_optional {value : Option JsValue} (h : ∀ v ∈ value, v.ReadBack v) :
    (optional value).ReadBack (optional value) := by
  cases value with
  | none => exact .leftOut rfl
  | some v => exact h v rfl

/-- A task survives the file. -/
theorem holdsTask_reparsed {task : QueueTask}
    (h : ∀ n, task.requestId = some (.num n) → n.isFinite = true) :
    HoldsTask task.serialize.reparsed task := by
  have hrequest : (optional (task.requestId.map RequestId.value)).ReadBack
      (optional (task.requestId.map RequestId.value)) := by
    refine readBack_optional fun v hv => ?_
    obtain ⟨requestId, hid, rfl⟩ := Option.map_eq_some_iff.mp hv
    cases requestId with
    | str s => exact readBack_str s
    | num n =>
      have hread : (JsValue.num n).reparsed = .num n := if_pos (h n hid)
      have hback : (JsValue.num n).ReadBack (JsValue.num n).reparsed := .written nofun
      rwa [hread] at hback
  have hcategory : (optional (task.category.map .str)).ReadBack
      (optional (task.category.map .str)) := by
    refine readBack_optional fun v hv => ?_
    obtain ⟨s, -, rfl⟩ := Option.map_eq_some_iff.mp hv
    exact readBack_str s
  have hsize : (optional (task.size.map fun size => .ofInt size)).ReadBack
      (optional (task.size.map fun size => .ofInt size)) := by
    refine readBack_optional fun v hv => ?_
    obtain ⟨n, -, rfl⟩ := Option.map_eq_some_iff.mp hv
    exact readBack_ofInt n
  unfold QueueTask.serialize
  exact {
    id := property_reparsed (by simp) (by simp [Record.field]) (readBack_ofInt _)
    requestId := property_reparsed (by simp) (by simp [Record.field]) hrequest
    timestamp := property_reparsed (by simp) (by simp [Record.field]) (readBack_ofInt _)
    priority := property_reparsed (by simp) (by simp [Record.field]) (readBack_ofInt _)
    category := property_reparsed (by simp) (by simp [Record.field]) hcategory
    size := property_reparsed (by simp) (by simp [Record.field]) hsize }

/-- A queue survives the file. -/
theorem holdsQueue_reparsed {queue : List QueueTask}
    (h : ∀ task ∈ queue, ∀ n, task.requestId = some (.num n) → n.isFinite = true) :
    HoldsQueue (serializeQueue queue).reparsed queue := by
  refine ⟨_, rfl, ?_⟩
  induction queue with
  | nil => exact .nil
  | cons task queue ih =>
    exact .cons (holdsTask_reparsed (h task (by simp))) (ih fun t ht => h t (by simp [ht]))

/-- **A snapshot survives the file.** -/
theorem holdsSnapshot_reparsed {c : SaveCall} (h : c.FiniteIds) :
    HoldsSnapshot c.snapshot.reparsed c := by
  have hids : ∀ task, task ∈ c.high ∨ task ∈ c.normal ∨ task ∈ c.low →
      ∀ n, task.requestId = some (.num n) → n.isFinite = true := by
    intro task htask
    refine h task ?_
    simp only [List.mem_append]
    tauto
  unfold SaveCall.snapshot
  refine ⟨property_reparsed (by simp) (by simp [Record.field]) (readBack_ofInt _), ?_, ?_⟩
  · refine ⟨_, (serializeQueue c.high).reparsed, (serializeQueue c.normal).reparsed,
      (serializeQueue c.low).reparsed,
      property_reparsed (by simp) (by simp [Record.field]; rfl) (readBack_obj _), ?_, ?_, ?_, ?_, ?_, ?_⟩
    · exact property_reparsed (by simp) (by simp [Record.field]) (readBack_serializeQueue _)
    · exact holdsQueue_reparsed fun task ht => hids task (.inl ht)
    · exact property_reparsed (by simp) (by simp [Record.field]) (readBack_serializeQueue _)
    · exact holdsQueue_reparsed fun task ht => hids task (.inr (.inl ht))
    · exact property_reparsed (by simp) (by simp [Record.field]) (readBack_serializeQueue _)
    · exact holdsQueue_reparsed fun task ht => hids task (.inr (.inr ht))
  · refine ⟨_, property_reparsed (by simp) (by simp [Record.field]; rfl) (readBack_obj _), ?_, ?_, ?_, ?_⟩
    · exact property_reparsed (by simp) (by simp [Record.field]) (readBack_ofInt _)
    · exact property_reparsed (by simp) (by simp [Record.field]) (readBack_ofInt _)
    · exact property_reparsed (by simp) (by simp [Record.field]) (readBack_ofInt _)
    · exact property_reparsed (by simp) (by simp [Record.field]) (readBack_ofInt _)

/-! ### Reported and stored -/

/-- The largest time value. -/
def maxTime : ℕ := 8640000000000000

/-- A snapshot that is young enough has not expired. -/
theorem FilePersistenceService.isExpired_of_young {p : FilePersistenceService} {now timestamp : ℕ}
    (hnow : now ≤ maxTime) (hyoung : now ≤ timestamp + p.maxSnapshotAgeMs) :
    p.isExpired now (.ofInt timestamp) = false := by
  have hlt : now < 2 ^ 53 := by
    unfold maxTime at hnow
    omega
  have hnumber : (JsValue.ofInt timestamp).asNumber = .finite (timestamp : ℕ) := by
    simp [JsValue.ofInt, JsValue.asNumber]
  unfold FilePersistenceService.isExpired
  rw [hnumber]
  by_cases hle : timestamp ≤ now
  · rw [Number.sub_natCast hlt hle]
    have hage : now - timestamp ≤ p.maxSnapshotAgeMs := by omega
    simp [Number.lt, hage]
  · have hneg : (now : ℚ) - timestamp < 0 := sub_neg.mpr (by exact_mod_cast not_le.mp hle)
    rcases binary64_of_neg hneg with hq | ⟨m, hm, hq⟩
    · simp [Number.sub, hq, Number.lt]
    · have hmax : (0 : ℚ) ≤ p.maxSnapshotAgeMs := Nat.cast_nonneg _
      simp only [Number.sub, hq, Number.lt, decide_eq_false_iff_not, not_lt]
      linarith

/-- The file holds the snapshot of the call, and loading it, while it is young enough, gives
exactly what the call has saved. -/
structure HoldsSave (p : FilePersistenceService) (c : SaveCall) : Prop where
  file : p.file = .json c.snapshot.reparsed
  loads : ∀ now unlinked, now ≤ maxTime → now ≤ c.timestamp + p.maxSnapshotAgeMs →
    ∃ loaded, (p.loadSnapshot now unlinked).1 = some loaded ∧ HoldsSnapshot loaded c

/-- A file that was written holds what was saved. -/
theorem holdsSave_of_written {p : FilePersistenceService} {c : SaveCall}
    (hfile : p.file = .json c.snapshot.reparsed) (h : c.FiniteIds) : HoldsSave p c := by
  have hsnapshot := holdsSnapshot_reparsed h
  refine ⟨hfile, fun now unlinked hnow hyoung => ⟨_, ?_, hsnapshot⟩⟩
  rw [FilePersistenceService.loadSnapshot_eq_some_iff]
  exact ⟨hfile, _, hsnapshot.timestamp, rfl,
    FilePersistenceService.isExpired_of_young hnow hyoung⟩

namespace QueueSnapshotManager

/-- If a save has set `lastSnapshotAt`, the file holds the snapshot of this very save. -/
def Stored (m : QueueSnapshotManager) : Prop :=
  ∀ c, m.reported = some c → m.lastSnapshotAt = .ofInt c.finished ∧ HoldsSave m.persistence c

/-- A save after which what is reported is stored, and that reports nothing if its write has
failed. -/
structure SaveHonest (m : QueueSnapshotManager) (c : SaveCall) : Prop where
  stored : (m.save c).Stored
  unchanged : ¬ c.Succeeds → (m.save c).lastSnapshotAt = m.lastSnapshotAt

/-- A save whose write succeeds stores what it reports. -/
theorem save_stored (m : QueueSnapshotManager) {c : SaveCall} (h : c.Succeeds ∧ c.FiniteIds) :
    (m.save c).Stored := by
  obtain ⟨hsucceeds, hfinite⟩ := h
  intro d hd
  cases hwrite : c.write with
  | failed left =>
    unfold SaveCall.Succeeds at hsucceeds
    rw [hwrite] at hsucceeds
    exact hsucceeds.elim
  | written =>
    unfold save at hd ⊢
    rw [hwrite] at hd ⊢
    obtain rfl := Option.some.inj hd
    exact ⟨rfl, holdsSave_of_written rfl hfinite⟩

/-- **A reported snapshot is a stored snapshot**, in every run of saves whose writes succeed and
whose request identifiers have a text in JSON. -/
theorem saves_honest {m₀ m : QueueSnapshotManager} (h₀ : m₀.reported = none)
    (h : Reaches saveStep (fun _ c => c.Succeeds ∧ c.FiniteIds) m₀ m) :
    m.Stored ∧ ∀ c, c.Succeeds ∧ c.FiniteIds → m.SaveHonest c := by
  constructor
  · refine h.invariant (P := Stored) (fun c hc => ?_) fun t c u _ hok hu => ?_
    · rw [h₀] at hc
      cases hc
    · obtain rfl := Option.some.inj hu
      exact t.save_stored hok
  · exact fun c hc => ⟨m.save_stored hc, fun hfailed => absurd hc.1 hfailed⟩

/-- One save of a queue with one task. -/
theorem saves_honest_of_one_task :
    ∃ m c, Reaches saveStep (fun _ c => c.Succeeds ∧ c.FiniteIds) {} m ∧ m.reported = some c ∧
      c.high.length = 1 ∧ m.Stored ∧ ∀ c, c.Succeeds ∧ c.FiniteIds → m.SaveHonest c := by
  let c : SaveCall := {
    high := [{ id := 1, requestId := some (.num (.finite 5)), timestamp := 900, priority := 5 }]
    normal := []
    low := []
    stats := {}
    taskIdCounter := 1
    timestamp := 1000
    finished := 1005
    write := .written }
  have hfinite : c.FiniteIds := by
    intro task htask n hn
    simp only [c, List.append_nil, List.mem_singleton] at htask
    subst htask
    cases hn
    rfl
  have hrun : Reaches saveStep (fun _ c => c.Succeeds ∧ c.FiniteIds) {} (save {} c) :=
    Reaches.refl.next c ⟨trivial, hfinite⟩ rfl
  exact ⟨_, c, hrun, rfl, rfl, saves_honest rfl hrun⟩

/-- A save whose write fails with no file left is reported all the same. -/
theorem save_reports_failed_write :
    ¬ SaveHonest {} {
      high := []
      normal := []
      low := []
      stats := {}
      taskIdCounter := 0
      timestamp := 1000
      finished := 1005
      write := .failed .missing } := by
  intro h
  have hunchanged := h.unchanged fun hsucceeds => hsucceeds
  cases hunchanged

end QueueSnapshotManager

end BulkTraffic.Queue
