import BulkTraffic.Js.Value

/-!
# Restoring a snapshot

`FilePersistenceService.loadSnapshot`, `QueueSnapshotManager.restore` and the part of
`QueueService.onModuleInit` that takes the counter over. The file holds any text; a text that
parses counts as the value `JSON.parse` makes of it, which no function checks.

`restore` assigns the fields one by one. A statement that throws ends it, and what was assigned
before stays (`Attempt`).

* `run_restoreSnapshot`: what the statements of `restore` leave.
* `allOrNothing_iff`: when a restore takes over all values or none.
-/

namespace BulkTraffic.Queue

open BulkTraffic.Js

/-! ### The snapshot file -/

/-- What `fs.readFile` and `JSON.parse` make of the snapshot file. -/
inductive SnapshotFile where
  /-- There is no file (`ENOENT`). -/
  | missing
  /-- Reading it throws. -/
  | unreadable
  /-- Its text is no JSON. -/
  | unparseable
  /-- Its text parses to a value. -/
  | json (value : JsValue)

/-- `FilePersistenceService`, with the file. -/
structure FilePersistenceService where
  maxSnapshotAgeMs : ℕ := 300000
  file : SnapshotFile := .missing

namespace FilePersistenceService

/-- `clearSnapshot()`, by whether `fs.unlink` succeeds. -/
def clearSnapshot (p : FilePersistenceService) (unlinked : Bool) : FilePersistenceService :=
  if unlinked then { p with file := .missing } else p

/-- `Date.now() - timestamp > this.maxSnapshotAgeMs`. -/
def isExpired (p : FilePersistenceService) (now : ℕ) (timestamp : JsValue) : Bool :=
  Number.lt (.finite p.maxSnapshotAgeMs) (Number.sub (.finite now) timestamp.asNumber)

/-- `loadSnapshot()`. -/
def loadSnapshot (p : FilePersistenceService) (now : ℕ) (unlinked : Bool) :
    Option JsValue × FilePersistenceService :=
  match p.file with
  | .missing | .unreadable | .unparseable => (none, p)
  | .json snapshot =>
    match snapshot.property? "timestamp" with
    | none => (none, p)
    | some timestamp =>
      -- The subtraction converts the timestamp, which may throw.
      if !timestamp.isConvertible then (none, p)
      else if p.isExpired now timestamp then (none, p.clearSnapshot unlinked)
      else (some snapshot, p)

/-- The file holds a value that has not expired, as far as its timestamp tells. -/
def Fresh (p : FilePersistenceService) (now : ℕ) (snapshot : JsValue) : Prop :=
  p.file = .json snapshot ∧ ∃ timestamp, snapshot.property? "timestamp" = some timestamp ∧
    timestamp.isConvertible = true ∧ p.isExpired now timestamp = false

theorem loadSnapshot_of_fresh {p : FilePersistenceService} {now : ℕ} {snapshot : JsValue}
    (h : p.Fresh now snapshot) (unlinked : Bool) :
    p.loadSnapshot now unlinked = (some snapshot, p) := by
  obtain ⟨hfile, timestamp, htime, hconvertible, hexpired⟩ := h
  unfold loadSnapshot
  rw [hfile]
  dsimp only
  rw [htime]
  simp [hconvertible, hexpired]

/-- **A snapshot is loaded if and only if the file holds one that has not expired.** -/
theorem loadSnapshot_eq_some_iff {p : FilePersistenceService} {now : ℕ} {unlinked : Bool}
    {snapshot : JsValue} :
    (p.loadSnapshot now unlinked).1 = some snapshot ↔ p.Fresh now snapshot := by
  constructor
  · intro h
    unfold loadSnapshot at h
    split at h
    · cases h
    · cases h
    · cases h
    · rename_i value hfile
      split at h
      · cases h
      · rename_i timestamp htime
        split at h
        · cases h
        · rename_i hconvertible
          split at h
          · cases h
          · rename_i hexpired
            obtain rfl := Option.some.inj h
            exact ⟨hfile, timestamp, htime, by simpa using hconvertible,
              Bool.eq_false_iff.mpr hexpired⟩
  · intro h
    rw [loadSnapshot_of_fresh h unlinked]

end FilePersistenceService

/-! ### Statements that may throw -/

/-- The fields that a restore writes: the totals of `QueueStatsService`, `lastSnapshotAt` and
`taskIdCounter`. They take whatever the file holds. -/
structure RestoredFields where
  totalProcessed : JsValue := .ofInt 0
  totalRejected : JsValue := .ofInt 0
  totalTimeout : JsValue := .ofInt 0
  lastSnapshotAt : JsValue := .null
  taskIdCounter : JsValue := .ofInt 0

/-- Statements of a `try` block: one that throws ends them, what was assigned before stays. -/
abbrev Attempt := OptionT (StateM RestoredFields)

namespace Attempt

/-- `value.name`. -/
def read (value : JsValue) (name : String) : Attempt JsValue :=
  OptionT.mk (pure (value.property? name))

/-- An assignment. -/
def assign (f : RestoredFields → RestoredFields) : Attempt Unit := modify f

/-- An operator or a template converts the value. -/
def convert (value : JsValue) : Attempt Unit :=
  OptionT.mk (pure (if value.isConvertible then some () else none))

variable {α : Type} {fields : RestoredFields}

/-- A statement and the ones after it. -/
theorem run_bind {β : Type} (first : Attempt β) (next : β → Attempt α) :
    (first >>= next).run fields =
      match first.run fields with
      | (some b, after) => (next b).run after
      | (none, after) => (none, after) := by
  simp only [bind, OptionT.bind, OptionT.mk, OptionT.run, StateT.bind]
  obtain ⟨b | b, after⟩ := first fields
  · rfl
  · rfl

theorem run_bind_some {β : Type} {first : Attempt β} {b : β} {after : RestoredFields}
    (h : first.run fields = (some b, after)) (next : β → Attempt α) :
    (first >>= next).run fields = (next b).run after := by
  rw [run_bind, h]

theorem run_bind_none {β : Type} {first : Attempt β} {after : RestoredFields}
    (h : first.run fields = (none, after)) (next : β → Attempt α) :
    (first >>= next).run fields = (none, after) := by
  rw [run_bind, h]

theorem run_read {value v : JsValue} {name : String} (h : value.property? name = some v) :
    (read value name).run fields = (some v, fields) := by
  simp only [read, h]
  rfl

theorem run_read_some {value v : JsValue} {name : String} (h : value.property? name = some v)
    (next : JsValue → Attempt α) : (read value name >>= next).run fields = (next v).run fields :=
  run_bind_some (run_read h) next

theorem run_read_none {value : JsValue} {name : String} (h : value.property? name = none)
    (next : JsValue → Attempt α) : (read value name >>= next).run fields = (none, fields) := by
  refine run_bind_none ?_ next
  simp only [read, h]
  rfl

theorem run_assign (f : RestoredFields → RestoredFields) (next : Unit → Attempt α) :
    (assign f >>= next).run fields = (next ()).run (f fields) := rfl

theorem run_get (next : RestoredFields → Attempt α) :
    ((get : Attempt RestoredFields) >>= next).run fields = (next fields).run fields := rfl

theorem run_convert {value : JsValue} (h : value.isConvertible = true) :
    (convert value).run fields = (some (), fields) := by
  simp only [convert, h]
  rfl

theorem run_convert_throws {value : JsValue} (h : ¬ value.isConvertible = true) :
    (convert value).run fields = (none, fields) := by
  simp only [convert, h]
  rfl

theorem run_convert_true {value : JsValue} (h : value.isConvertible = true)
    (next : Unit → Attempt α) : (convert value >>= next).run fields = (next ()).run fields :=
  run_bind_some (run_convert h) next

theorem run_convert_false {value : JsValue} (h : ¬ value.isConvertible = true)
    (next : Unit → Attempt α) : (convert value >>= next).run fields = (none, fields) :=
  run_bind_none (run_convert_throws h) next

end Attempt

open Attempt

/-! ### Restoring -/

/-- The assignments of `restore()`. -/
def assignSnapshot (snapshot : JsValue) : Attempt Unit := do
  let totalProcessed ← read (← read snapshot "stats") "totalProcessed"
  assign fun fields => { fields with totalProcessed := totalProcessed }
  let totalRejected ← read (← read snapshot "stats") "totalRejected"
  assign fun fields => { fields with totalRejected := totalRejected }
  let totalTimeout ← read (← read snapshot "stats") "totalTimeout"
  assign fun fields => { fields with totalTimeout := totalTimeout }
  let timestamp ← read snapshot "timestamp"
  assign fun fields => { fields with lastSnapshotAt := timestamp }

/-- The log of `restore()`: the sum of the lengths of the queues, and the totals. -/
def logSnapshot (snapshot : JsValue) : Attempt Unit := do
  let high ← read (← read (← read snapshot "queues") "high") "length"
  let normal ← read (← read (← read snapshot "queues") "normal") "length"
  -- The sum converts its terms from left to right.
  convert high
  convert normal
  let low ← read (← read (← read snapshot "queues") "low") "length"
  convert low
  let fields ← get
  convert fields.totalProcessed
  convert fields.totalRejected
  convert fields.totalTimeout

/-- The statements of `restore()` once a snapshot is there: the counter they return. -/
def restoreSnapshot (snapshot : JsValue) : Attempt JsValue := do
  assignSnapshot snapshot
  logSnapshot snapshot
  read (← read snapshot "stats") "taskIdCounter"

/-- `restore()`: the counter, if it returns one, the fields and the file. -/
def restore (p : FilePersistenceService) (now : ℕ) (unlinked : Bool) (fields : RestoredFields) :
    Option JsValue × RestoredFields × FilePersistenceService :=
  match p.loadSnapshot now unlinked with
  | (none, p) => (none, fields, p)
  | (some snapshot, p) =>
    if !snapshot.truthy then (none, fields, p)
    else match (restoreSnapshot snapshot).run fields with
      | (none, fields) => (none, fields, p)
      | (some counter, fields) => (some counter, fields, p.clearSnapshot unlinked)

/-- `onModuleInit()`, as far as it restores: what `restore()` has returned, and the fields. -/
def restoreOnInit (p : FilePersistenceService) (now : ℕ) (unlinked : Bool)
    (fields : RestoredFields) : Option JsValue × RestoredFields :=
  match restore p now unlinked fields with
  | (none, fields, _) => (none, fields)
  | (some counter, fields, _) => (some counter, { fields with taskIdCounter := counter })

/-! ### What the statements do -/

/-- The length of a queue of the snapshot, as far as it can be read. -/
def lengthOf? (snapshot : JsValue) (queue : String) : Option JsValue := do
  let queues ← snapshot.property? "queues"
  let tasks ← queues.property? queue
  tasks.property? "length"

/-- The fields hold the values of the snapshot. -/
structure TakenOver (snapshot stats : JsValue) (fields : RestoredFields) : Prop where
  totalProcessed : stats.property? "totalProcessed" = some fields.totalProcessed
  totalRejected : stats.property? "totalRejected" = some fields.totalRejected
  totalTimeout : stats.property? "totalTimeout" = some fields.totalTimeout
  lastSnapshotAt : snapshot.property? "timestamp" = some fields.lastSnapshotAt

/-- The lengths of the three queues can be read and added, the totals can be turned into text. -/
structure Loggable (snapshot stats : JsValue) : Prop where
  lengths : ∀ queue ∈ ["high", "normal", "low"],
    ∃ length, lengthOf? snapshot queue = some length ∧ length.isConvertible = true
  totals : ∀ name ∈ ["totalProcessed", "totalRejected", "totalTimeout"],
    ∃ total, stats.property? name = some total ∧ total.isConvertible = true

/-- A value that is not nullish has all properties, be they `undefined`. -/
theorem exists_property {value : JsValue} (h : value.isNullish = false) (name : String) :
    ∃ v, value.property? name = some v := by
  cases value with
  | undefined => cases h
  | null => cases h
  | _ => exact ⟨_, rfl⟩

theorem property_eq_none {value : JsValue} (h : value.isNullish = true) (name : String) :
    value.property? name = none := by
  cases value with
  | undefined => rfl
  | null => rfl
  | _ => cases h

/-- **The assignments take all four values over**, if the snapshot has a `stats`. -/
theorem run_assignSnapshot {snapshot stats : JsValue} (hstats : snapshot.property? "stats" = some stats)
    (hnullish : stats.isNullish = false) (fields : RestoredFields) :
    ∃ taken, TakenOver snapshot stats taken ∧ taken.taskIdCounter = fields.taskIdCounter ∧
      (assignSnapshot snapshot).run fields = (some (), taken) := by
  obtain ⟨processed, hprocessed⟩ := exists_property hnullish "totalProcessed"
  obtain ⟨rejected, hrejected⟩ := exists_property hnullish "totalRejected"
  obtain ⟨timeout, htimeout⟩ := exists_property hnullish "totalTimeout"
  have hsnapshot : snapshot.isNullish = false := by
    by_contra hnull
    rw [property_eq_none (by simpa using hnull)] at hstats
    cases hstats
  obtain ⟨timestamp, htimestamp⟩ := exists_property hsnapshot "timestamp"
  let taken : RestoredFields := { fields with
    totalProcessed := processed
    totalRejected := rejected
    totalTimeout := timeout
    lastSnapshotAt := timestamp }
  refine ⟨taken, ⟨hprocessed, hrejected, htimeout, htimestamp⟩, rfl, ?_⟩
  unfold assignSnapshot
  rw [run_read_some hstats, run_read_some hprocessed, run_assign, run_read_some hstats,
    run_read_some hrejected, run_assign, run_read_some hstats, run_read_some htimeout, run_assign,
    run_read_some htimestamp]
  rfl

/-- Without a `stats` the first assignment throws. -/
theorem run_assignSnapshot_nullish {snapshot : JsValue}
    (h : ∀ stats, snapshot.property? "stats" = some stats → stats.isNullish = true)
    (fields : RestoredFields) : (assignSnapshot snapshot).run fields = (none, fields) := by
  unfold assignSnapshot
  cases hstats : snapshot.property? "stats" with
  | none => rw [run_read_none hstats]
  | some stats => rw [run_read_some hstats, run_read_none (property_eq_none (h stats hstats) _)]

theorem run_length_some {α : Type} {snapshot length : JsValue} {queue : String}
    (h : lengthOf? snapshot queue = some length) (next : JsValue → Attempt α)
    (fields : RestoredFields) :
    (read snapshot "queues" >>= fun queues => read queues queue >>= fun tasks =>
      read tasks "length" >>= next).run fields = (next length).run fields := by
  obtain ⟨queues, hqueues, h⟩ := Option.bind_eq_some_iff.mp h
  obtain ⟨tasks, htasks, h⟩ := Option.bind_eq_some_iff.mp h
  rw [run_read_some hqueues, run_read_some htasks, run_read_some h]

theorem run_length_none {α : Type} {snapshot : JsValue} {queue : String}
    (h : lengthOf? snapshot queue = none) (next : JsValue → Attempt α) (fields : RestoredFields) :
    (read snapshot "queues" >>= fun queues => read queues queue >>= fun tasks =>
      read tasks "length" >>= next).run fields = (none, fields) := by
  cases hqueues : snapshot.property? "queues" with
  | none => rw [run_read_none hqueues]
  | some queues =>
    rw [run_read_some hqueues]
    cases htasks : queues.property? queue with
    | none => rw [run_read_none htasks]
    | some tasks =>
      have hlength : tasks.property? "length" = none := by
        simpa [lengthOf?, hqueues, htasks] using h
      rw [run_read_some htasks, run_read_none hlength]

/-- The statements that log run to their end if they can read and convert all they log. -/
theorem run_logSnapshot {snapshot stats : JsValue} {fields : RestoredFields}
    (ht : TakenOver snapshot stats fields) (h : Loggable snapshot stats) :
    (logSnapshot snapshot).run fields = (some (), fields) := by
  have htotal : ∀ {name : String} {total : JsValue},
      name ∈ ["totalProcessed", "totalRejected", "totalTimeout"] →
        stats.property? name = some total → total.isConvertible = true := by
    intro name total hname htotal
    obtain ⟨v, hv, hconvertible⟩ := h.totals name hname
    obtain rfl := Option.some.inj (htotal.symm.trans hv)
    exact hconvertible
  obtain ⟨high, hhigh, hhighc⟩ := h.lengths "high" (by simp)
  obtain ⟨normal, hnormal, hnormalc⟩ := h.lengths "normal" (by simp)
  obtain ⟨low, hlow, hlowc⟩ := h.lengths "low" (by simp)
  unfold logSnapshot
  rw [run_length_some hhigh, run_length_some hnormal, run_convert_true hhighc,
    run_convert_true hnormalc, run_length_some hlow, run_convert_true hlowc, run_get,
    run_convert_true (htotal (by simp) ht.totalProcessed),
    run_convert_true (htotal (by simp) ht.totalRejected),
    run_convert (htotal (by simp) ht.totalTimeout)]

/-- Otherwise one of them throws. -/
theorem run_logSnapshot_throws {snapshot stats : JsValue} {fields : RestoredFields}
    (ht : TakenOver snapshot stats fields) (h : ¬ Loggable snapshot stats) :
    (logSnapshot snapshot).run fields = (none, fields) := by
  unfold logSnapshot
  cases hhigh : lengthOf? snapshot "high" with
  | none => rw [run_length_none hhigh]
  | some high =>
    rw [run_length_some hhigh]
    cases hnormal : lengthOf? snapshot "normal" with
    | none => rw [run_length_none hnormal]
    | some normal =>
      rw [run_length_some hnormal]
      by_cases hhighc : high.isConvertible = true
      swap
      · rw [run_convert_false hhighc]
      by_cases hnormalc : normal.isConvertible = true
      swap
      · rw [run_convert_true hhighc, run_convert_false hnormalc]
      rw [run_convert_true hhighc, run_convert_true hnormalc]
      cases hlow : lengthOf? snapshot "low" with
      | none => rw [run_length_none hlow]
      | some low =>
        rw [run_length_some hlow]
        by_cases hlowc : low.isConvertible = true
        swap
        · rw [run_convert_false hlowc]
        rw [run_convert_true hlowc, run_get]
        by_cases hprocessed : fields.totalProcessed.isConvertible = true
        swap
        · rw [run_convert_false hprocessed]
        by_cases hrejected : fields.totalRejected.isConvertible = true
        swap
        · rw [run_convert_true hprocessed, run_convert_false hrejected]
        by_cases htimeout : fields.totalTimeout.isConvertible = true
        swap
        · rw [run_convert_true hprocessed, run_convert_true hrejected, run_convert_throws htimeout]
        refine absurd ⟨?_, ?_⟩ h
        · intro queue hqueue
          simp only [List.mem_cons, List.not_mem_nil, or_false] at hqueue
          rcases hqueue with rfl | rfl | rfl
          · exact ⟨high, hhigh, hhighc⟩
          · exact ⟨normal, hnormal, hnormalc⟩
          · exact ⟨low, hlow, hlowc⟩
        · intro name hname
          simp only [List.mem_cons, List.not_mem_nil, or_false] at hname
          rcases hname with rfl | rfl | rfl
          · exact ⟨_, ht.totalProcessed, hprocessed⟩
          · exact ⟨_, ht.totalRejected, hrejected⟩
          · exact ⟨_, ht.totalTimeout, htimeout⟩

/-- **What the statements of `restore` leave.** With a `stats` they take over all values, and
throw afterwards if what they log cannot be read or converted. -/
theorem run_restoreSnapshot {snapshot stats : JsValue} (hstats : snapshot.property? "stats" = some stats)
    (hnullish : stats.isNullish = false) (fields : RestoredFields) :
    ∃ taken counter, TakenOver snapshot stats taken ∧ taken.taskIdCounter = fields.taskIdCounter ∧
      stats.property? "taskIdCounter" = some counter ∧
      ((Loggable snapshot stats ∧ (restoreSnapshot snapshot).run fields = (some counter, taken)) ∨
        (¬ Loggable snapshot stats ∧ (restoreSnapshot snapshot).run fields = (none, taken))) := by
  obtain ⟨taken, htaken, hcounter, hassigned⟩ := run_assignSnapshot hstats hnullish fields
  obtain ⟨counter, hread⟩ := exists_property hnullish "taskIdCounter"
  refine ⟨taken, counter, htaken, hcounter, hread, ?_⟩
  unfold restoreSnapshot
  by_cases hlog : Loggable snapshot stats
  · refine .inl ⟨hlog, ?_⟩
    rw [run_bind_some hassigned, run_bind_some (run_logSnapshot htaken hlog), run_read_some hstats,
      run_read hread]
  · refine .inr ⟨hlog, ?_⟩
    rw [run_bind_some hassigned, run_bind_none (run_logSnapshot_throws htaken hlog)]

/-! ### All or nothing -/

/-- A restore returns a counter and takes over the values of the snapshot, or it returns nothing
and changes nothing. -/
def AllOrNothing (p : FilePersistenceService) (now : ℕ) (unlinked : Bool)
    (before : RestoredFields) : Prop :=
  (∃ snapshot stats counter, p.Fresh now snapshot ∧ snapshot.property? "stats" = some stats ∧
      stats.property? "taskIdCounter" = some counter ∧
      (restoreOnInit p now unlinked before).1 = some counter ∧
      (restoreOnInit p now unlinked before).2.taskIdCounter = counter ∧
      TakenOver snapshot stats (restoreOnInit p now unlinked before).2) ∨
    restoreOnInit p now unlinked before = (none, before)

/-- A snapshot with a `stats` is an object. -/
theorem truthy_of_stats {snapshot stats : JsValue} (hstats : snapshot.property? "stats" = some stats)
    (hnullish : stats.isNullish = false) : snapshot.truthy = true := by
  cases snapshot with
  | obj fields => rfl
  | arr items => rfl
  | undefined => cases hstats
  | null => cases hstats
  | bool b =>
    cases hstats
    cases hnullish
  | num n =>
    cases hstats
    cases hnullish
  | str s =>
    cases hstats
    cases hnullish

/-- Nothing is restored, and nothing changes, of a file without a fresh snapshot with a `stats`. -/
theorem restoreOnInit_of_no_stats {p : FilePersistenceService} {now : ℕ} {before : RestoredFields}
    (h : ∀ snapshot stats, p.Fresh now snapshot → snapshot.property? "stats" = some stats →
      stats.isNullish = true) (unlinked : Bool) :
    restoreOnInit p now unlinked before = (none, before) := by
  unfold restoreOnInit restore
  obtain ⟨loaded, after, hload⟩ : ∃ loaded after, p.loadSnapshot now unlinked = (loaded, after) :=
    ⟨_, _, rfl⟩
  rw [hload]
  cases loaded with
  | none => rfl
  | some snapshot =>
    have hfresh : p.Fresh now snapshot := FilePersistenceService.loadSnapshot_eq_some_iff.mp
      (congrArg Prod.fst hload)
    have hrun : (restoreSnapshot snapshot).run before = (none, before) :=
      run_bind_none (run_assignSnapshot_nullish (fun stats hs => h snapshot stats hfresh hs) before) _
    dsimp only
    by_cases htruthy : snapshot.truthy = true
    · simp only [htruthy, Bool.not_true, Bool.false_eq_true, if_false, hrun]
    · simp only [htruthy, Bool.not_false, if_true]

/-- A fresh snapshot with a `stats` is restored as its statements say. -/
theorem restoreOnInit_of_stats {p : FilePersistenceService} {now : ℕ} {snapshot stats : JsValue}
    (hfresh : p.Fresh now snapshot) (hstats : snapshot.property? "stats" = some stats)
    (hnullish : stats.isNullish = false) (unlinked : Bool) (before : RestoredFields) :
    restoreOnInit p now unlinked before =
      match (restoreSnapshot snapshot).run before with
      | (none, after) => (none, after)
      | (some counter, after) => (some counter, { after with taskIdCounter := counter }) := by
  unfold restoreOnInit restore
  rw [FilePersistenceService.loadSnapshot_of_fresh hfresh]
  simp only [truthy_of_stats hstats hnullish, Bool.not_true, Bool.false_eq_true, if_false]
  obtain ⟨counter | counter, after⟩ := (restoreSnapshot snapshot).run before
  · rfl
  · rfl

/-- Fields that hold the same snapshot are the same, but for the counter. -/
theorem TakenOver.eq {snapshot stats : JsValue} {a b : RestoredFields}
    (ha : TakenOver snapshot stats a) (hb : TakenOver snapshot stats b)
    (hcounter : a.taskIdCounter = b.taskIdCounter) : a = b := by
  have hprocessed := Option.some.inj (ha.totalProcessed.symm.trans hb.totalProcessed)
  have hrejected := Option.some.inj (ha.totalRejected.symm.trans hb.totalRejected)
  have htimeout := Option.some.inj (ha.totalTimeout.symm.trans hb.totalTimeout)
  have hlast := Option.some.inj (ha.lastSnapshotAt.symm.trans hb.lastSnapshotAt)
  cases a
  cases b
  simp_all

/-- **When restoring is all or nothing**: whenever the file holds a fresh snapshot with a `stats`,
what is logged of it can be read and converted, or its values are the ones the fields hold
already. -/
theorem allOrNothing_iff (p : FilePersistenceService) (now : ℕ) (unlinked : Bool)
    (before : RestoredFields) :
    AllOrNothing p now unlinked before ↔
      ∀ snapshot stats, p.Fresh now snapshot → snapshot.property? "stats" = some stats →
        stats.isNullish = false → Loggable snapshot stats ∨ TakenOver snapshot stats before := by
  constructor
  · intro h snapshot stats hfresh hstats hnullish
    have hrestore := restoreOnInit_of_stats hfresh hstats hnullish unlinked before
    obtain ⟨taken, counter, htaken, -, -, ⟨hlog, -⟩ | ⟨-, hrun⟩⟩ :=
      run_restoreSnapshot hstats hnullish before
    · exact .inl hlog
    · rw [hrun] at hrestore
      rcases h with ⟨-, -, c, -, -, -, hsome, -⟩ | hnone
      · rw [hrestore] at hsome
        cases hsome
      · obtain rfl : taken = before := congrArg Prod.snd (hrestore.symm.trans hnone)
        exact .inr htaken
  · intro h
    by_cases hex : ∃ snapshot stats, p.Fresh now snapshot ∧
        snapshot.property? "stats" = some stats ∧ stats.isNullish = false
    · obtain ⟨snapshot, stats, hfresh, hstats, hnullish⟩ := hex
      have hrestore := restoreOnInit_of_stats hfresh hstats hnullish unlinked before
      obtain ⟨taken, counter, htaken, hsame, hcounter, ⟨-, hrun⟩ | ⟨hlog, hrun⟩⟩ :=
        run_restoreSnapshot hstats hnullish before
      · rw [hrun] at hrestore
        refine .inl ⟨snapshot, stats, counter, hfresh, hstats, hcounter, ?_⟩
        rw [hrestore]
        exact ⟨rfl, rfl, htaken.totalProcessed, htaken.totalRejected, htaken.totalTimeout,
          htaken.lastSnapshotAt⟩
      · rw [hrun] at hrestore
        have htakenover := (h snapshot stats hfresh hstats hnullish).resolve_left hlog
        refine .inr (hrestore.trans ?_)
        rw [htaken.eq htakenover hsame]
    · refine .inr (restoreOnInit_of_no_stats (fun snapshot stats hfresh hstats => ?_) unlinked)
      by_contra hnullish
      exact hex ⟨snapshot, stats, hfresh, hstats, by simpa using hnullish⟩

/-- Of a file with a `stats` and no `queues` nothing is restored, but a total has changed. -/
theorem restore_changes_totals :
    ¬ AllOrNothing { file := .json (.obj [("timestamp", .ofInt 1000),
      ("stats", .obj [("totalProcessed", .ofInt 7)])]) } 2000 true {} := by
  let p : FilePersistenceService :=
    { file := .json (.obj [("timestamp", .ofInt 1000), ("stats", .obj [("totalProcessed", .ofInt 7)])]) }
  have hnone : (restoreOnInit p 2000 true {}).1.isNone = true := by decide +kernel
  have hchanged : (restoreOnInit p 2000 true {}).2.totalProcessed.asNumber = .finite 7 := by
    decide +kernel
  rintro (⟨-, -, counter, -, -, -, hsome, -⟩ | hunchanged)
  · rw [hsome] at hnone
    cases hnone
  · rw [hunchanged] at hchanged
    exact absurd hchanged (by decide +kernel)

end BulkTraffic.Queue
