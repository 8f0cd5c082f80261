import BulkTraffic.Js.NumberText
import BulkTraffic.Orders.Store

/-!
# Which group a record is from

A consumer writes its group into the id it records events under (`consumerIdOf`), and
`countByGroup` reads it back from there, up to the first `/`. The column also holds the ids of
the dispatcher within the process and the ids of old records.

* `groupIdOf_consumerIdOf`: the group is read back exactly when its name has no `/`.
* `countByGroup_iff`: the counts are right exactly when no group that recorded an event has a
  `/` in its name or is named as the front part of another id in the table.
-/

namespace BulkTraffic.Orders

open BulkTraffic.Lib SqliteOrderStore

/-- `${config.groupId}/${process.pid}-${i}`. -/
def consumerIdOf (groupId : String) (pid i : ℕ) : String :=
  groupId ++ "/" ++ toString pid ++ "-" ++ toString i

/-- Who records an event. -/
inductive Recorder where
  /-- The consumer number `i` of a process, in its group. -/
  | consumer (groupId : String) (pid i : ℕ)
  /-- The dispatcher within the process. -/
  | memory (pid : ℕ)
  /-- An old record. -/
  | legacy (id : String)
  deriving DecidableEq

namespace Recorder

/-- What the recorder writes into `consumer_id`. -/
def consumerId : Recorder → String
  | consumer groupId pid i => consumerIdOf groupId pid i
  | memory pid => "memory/" ++ toString pid
  | legacy id => id

/-- The consumer group, if it is a consumer. -/
def group? : Recorder → Option String
  | consumer groupId _ _ => some groupId
  | memory _ | legacy _ => none

theorem consumer_of_group? {r : Recorder} {groupId : String} (h : r.group? = some groupId) :
    ∃ pid i, r = consumer groupId pid i := by
  cases r with
  | consumer groupId' pid i =>
    cases h
    exact ⟨pid, i, rfl⟩
  | memory pid => cases h
  | legacy id => cases h

end Recorder

/-- A record with the one who recorded it. -/
structure Recorded where
  recorder : Recorder
  record : OrderEventRecord
  /-- The record carries the id of its recorder. -/
  written : record.consumerId = recorder.consumerId

/-! ### Reading the group back -/

theorem take_instr (text : List Char) (c : Char) :
    (if 0 < instr text c then text.take (instr text c - 1) else text)
      = text.takeWhile fun a => a != c := by
  induction text with
  | nil => rfl
  | cons a text ih =>
    unfold instr at ih ⊢
    rw [List.findIdx?_cons]
    by_cases hac : a = c
    · subst hac
      simp
    · have hfalse : (a == c) = false := by simpa using hac
      rw [hfalse, List.takeWhile_cons_of_pos (by simpa using hac), ← ih]
      cases text.findIdx? fun a => a == c <;> simp

/-- `group_id` is the part before the first `/`. -/
theorem groupIdOf_eq (consumerId : String) :
    groupIdOf consumerId = String.ofList (consumerId.toList.takeWhile fun a => a != '/') := by
  unfold groupIdOf
  dsimp only
  rw [← take_instr]
  split
  · rfl
  · exact String.ofList_toList.symm

/-- A group that is read has no `/`. -/
theorem slash_notMem_groupIdOf (consumerId : String) : '/' ∉ (groupIdOf consumerId).toList := by
  rw [groupIdOf_eq, String.toList_ofList]
  intro h
  have := List.all_eq_true.mp List.all_takeWhile _ h
  simp at this

theorem toList_consumerIdOf (groupId : String) (pid i : ℕ) :
    (consumerIdOf groupId pid i).toList
      = groupId.toList ++ '/' :: (Nat.toDigits 10 pid ++ '-' :: Nat.toDigits 10 i) := by
  simp [consumerIdOf]

/-- **The group is read back** exactly when its name has no `/`. -/
theorem groupIdOf_consumerIdOf (groupId : String) (pid i : ℕ) :
    groupIdOf (consumerIdOf groupId pid i) = groupId ↔ '/' ∉ groupId.toList := by
  constructor
  · intro h
    rw [← h]
    exact slash_notMem_groupIdOf _
  · intro h
    rw [groupIdOf_eq, toList_consumerIdOf, List.takeWhile_append_of_pos]
    · rw [List.takeWhile_cons_of_neg (by simp), List.append_nil, String.ofList_toList]
    · intro a ha
      simpa using fun heq : a = '/' => h (heq ▸ ha)

/-- The digits of a number have no `-`. -/
theorem dash_notMem_toDigits (n : ℕ) : '-' ∉ Nat.toDigits 10 n := by
  intro h
  exact absurd (Nat.isDigit_of_mem_toDigits (by omega) (by omega) h) (by decide)

/-- Texts with one dash each are told apart by what stands before it and after it. -/
theorem append_dash_inj {a a' b b' : List Char} (ha : '-' ∉ a) (ha' : '-' ∉ a')
    (h : a ++ '-' :: b = a' ++ '-' :: b') : a = a' ∧ b = b' := by
  induction a generalizing a' with
  | nil =>
    cases a' with
    | nil => exact ⟨rfl, (List.cons.inj h).2⟩
    | cons c a' => exact absurd (List.cons.inj h).1 fun heq => ha' (heq ▸ List.mem_cons_self ..)
  | cons c a ih =>
    cases a' with
    | nil => exact absurd (List.cons.inj h).1 fun heq => ha (heq ▸ List.mem_cons_self ..)
    | cons c' a' =>
      rw [List.cons_append, List.cons_append, List.cons.injEq] at h
      obtain ⟨rfl, h⟩ := h
      obtain ⟨rfl, rfl⟩ := ih (fun hm => ha (List.mem_cons_of_mem _ hm))
        (fun hm => ha' (List.mem_cons_of_mem _ hm)) h
      exact ⟨rfl, rfl⟩

/-- Two consumers of a group have different ids. -/
theorem consumerIdOf_inj {groupId : String} {pid pid' i i' : ℕ}
    (h : consumerIdOf groupId pid i = consumerIdOf groupId pid' i') : pid = pid' ∧ i = i' := by
  have htext := congrArg String.toList h
  rw [toList_consumerIdOf, toList_consumerIdOf] at htext
  obtain ⟨-, htext⟩ := List.cons.inj (List.append_cancel_left htext)
  obtain ⟨hpid, hi⟩ := append_dash_inj (dash_notMem_toDigits pid) (dash_notMem_toDigits pid') htext
  exact ⟨Js.toDigits_inj hpid, Js.toDigits_inj hi⟩

/-! ### The counts -/

/-- The part of an id before the first `/`. -/
def frontPart (id : String) : String := String.ofList (id.toList.takeWhile fun a => a != '/')

/-- The events recorded by the consumers of a group. -/
def eventsOf (groupId : String) (events : List Recorded) : List Recorded :=
  events.filter fun e => decide (e.recorder.group? = some groupId)

/-- The consumers of a group that recorded an event. -/
def consumersOf (groupId : String) (events : List Recorded) : List Recorder :=
  ((eventsOf groupId events).map Recorded.recorder).dedup

/-- The table with the records of some events. -/
def storeOf (events : List Recorded) : SqliteOrderStore where
  orderEvents := events.map Recorded.record

/-- No group that recorded an event has a `/` in its name, or is named as the front part of the
id of another recorder than a consumer. -/
def Distinguishable (events : List Recorded) : Prop :=
  ∀ e ∈ events, ∀ groupId, e.recorder.group? = some groupId →
    '/' ∉ groupId.toList ∧
      ∀ f ∈ events, f.recorder.group? = none → frontPart f.recorder.consumerId ≠ groupId

/-- Where groups are told apart, the group that is read of a record is the consumer's. -/
theorem groupIdOf_eq_iff {events : List Recorded} (h : Distinguishable events) {groupId : String}
    (hgroup : ∃ e ∈ events, e.recorder.group? = some groupId) {f : Recorded} (hf : f ∈ events) :
    groupIdOf f.record.consumerId = groupId ↔ f.recorder.group? = some groupId := by
  obtain ⟨e, he, hgroup⟩ := hgroup
  obtain ⟨-, hothers⟩ := h e he groupId hgroup
  rw [f.written]
  cases hrecorder : f.recorder with
  | consumer groupId' pid i =>
    obtain ⟨hslash, -⟩ := h f hf groupId' (by rw [hrecorder]; rfl)
    show groupIdOf (consumerIdOf groupId' pid i) = groupId ↔ some groupId' = some groupId
    rw [(groupIdOf_consumerIdOf groupId' pid i).mpr hslash, Option.some.injEq]
  | memory pid =>
    have hother := hothers f hf (by rw [hrecorder]; rfl)
    rw [hrecorder] at hother
    rw [groupIdOf_eq]
    exact iff_of_false hother nofun
  | legacy id =>
    have hother := hothers f hf (by rw [hrecorder]; rfl)
    rw [hrecorder] at hother
    rw [groupIdOf_eq]
    exact iff_of_false hother nofun

/-- The consumers of a group have as many ids as there are consumers. -/
theorem length_dedup_consumerId (groupId : String) (events : List Recorded) :
    ((eventsOf groupId events).map fun e => e.record.consumerId).dedup.length
      = (consumersOf groupId events).length := by
  have hids : (eventsOf groupId events).map (fun e => e.record.consumerId)
      = ((eventsOf groupId events).map Recorded.recorder).map Recorder.consumerId := by
    rw [List.map_map]
    exact List.map_congr_left fun e _ => e.written
  have hgroup : ∀ r ∈ (eventsOf groupId events).map Recorded.recorder,
      ∃ pid i, r = .consumer groupId pid i := by
    intro r hr
    obtain ⟨e, he, rfl⟩ := List.mem_map.mp hr
    exact Recorder.consumer_of_group? (of_decide_eq_true (List.mem_filter.mp he).2)
  rw [hids, consumersOf, ← List.card_toFinset, ← List.card_toFinset]
  have himage : ((((eventsOf groupId events).map Recorded.recorder).map Recorder.consumerId).toFinset)
      = (((eventsOf groupId events).map Recorded.recorder).toFinset).image Recorder.consumerId := by
    ext id
    simp
  rw [himage]
  refine Finset.card_image_iff.mpr fun r hr r' hr' heq => ?_
  obtain ⟨pid, i, rfl⟩ := hgroup r (List.mem_toFinset.mp hr)
  obtain ⟨pid', i', rfl⟩ := hgroup r' (List.mem_toFinset.mp hr')
  obtain ⟨rfl, rfl⟩ := consumerIdOf_inj heq
  rfl

/-- The row that is reported under a name that some record is read to have. -/
theorem filter_countByGroup {store : SqliteOrderStore} {groupId : String}
    (h : ∃ a ∈ store.orderEvents, groupIdOf a.consumerId = groupId) :
    store.countByGroup.filter (fun row => decide (row.groupId = groupId)) =
      [⟨groupId, (rowsOf (fun a => groupIdOf a.consumerId) store.orderEvents groupId).length,
        ((rowsOf (fun a => groupIdOf a.consumerId) store.orderEvents groupId).map
          OrderEventRecord.consumerId).dedup.length⟩] := by
  have hperm := (orderByCount_perm GroupConsumptionSummary.count
    (groupBy (fun record => groupIdOf record.consumerId) store.orderEvents fun groupId members =>
      (⟨groupId, members.length, (members.map OrderEventRecord.consumerId).dedup.length⟩ :
        GroupConsumptionSummary))).filter fun row => decide (row.groupId = groupId)
  rw [filter_groupBy (fun record : OrderEventRecord => groupIdOf record.consumerId)
    (fun _ _ => rfl) h] at hperm
  exact List.perm_singleton.mp hperm

/-- The records that are read to be of a group are the records of the events that are. -/
theorem rowsOf_storeOf (groupId : String) (events : List Recorded) :
    rowsOf (fun a => groupIdOf a.consumerId) (storeOf events).orderEvents groupId
      = (events.filter fun e => decide (groupIdOf e.record.consumerId = groupId)).map
          Recorded.record := by
  show List.filter _ (events.map Recorded.record) = _
  rw [List.filter_map]
  rfl

/-- A foreign record that is read to be of a group makes the records read to be of the group more
than its events. -/
theorem length_eventsOf_lt {events : List Recorded} {groupId : String}
    (hback : ∀ e ∈ events, e.recorder.group? = some groupId →
      groupIdOf e.record.consumerId = groupId) {f : Recorded} (hf : f ∈ events)
    (hforeign : f.recorder.group? ≠ some groupId) (hread : groupIdOf f.record.consumerId = groupId) :
    (eventsOf groupId events).length
      < (events.filter fun e => decide (groupIdOf e.record.consumerId = groupId)).length := by
  have hevents : eventsOf groupId events
      = (events.filter fun e => decide (groupIdOf e.record.consumerId = groupId)).filter
          fun e => decide (e.recorder.group? = some groupId) := by
    rw [List.filter_filter]
    refine List.filter_congr fun a ha => ?_
    by_cases hsome : a.recorder.group? = some groupId
    · simp [hsome, hback a ha hsome]
    · simp [hsome]
  rw [hevents]
  refine List.length_filter_lt_length_iff_exists.mpr ⟨f, ?_, by simp [hforeign]⟩
  exact List.mem_filter.mpr ⟨hf, by simpa using hread⟩

/-- Where groups are told apart, the row of a group has its events and its consumers. -/
theorem countByGroup_of_distinguishable {events : List Recorded} (h : Distinguishable events)
    {groupId : String} (hgroup : ∃ e ∈ events, e.recorder.group? = some groupId) :
    (storeOf events).countByGroup.filter (fun row => decide (row.groupId = groupId)) =
      [⟨groupId, (eventsOf groupId events).length, (consumersOf groupId events).length⟩] := by
  have hiff := fun f (hf : f ∈ events) => groupIdOf_eq_iff h hgroup hf
  have hevents : (events.filter fun e => decide (groupIdOf e.record.consumerId = groupId))
      = eventsOf groupId events :=
    List.filter_congr fun f hf => by simp only [hiff f hf]
  obtain ⟨e, he, hsome⟩ := hgroup
  rw [filter_countByGroup ⟨e.record, List.mem_map_of_mem he, (hiff e he).mpr hsome⟩,
    rowsOf_storeOf, hevents, List.length_map, List.map_map]
  show [(⟨groupId, _, ((eventsOf groupId events).map fun e => e.record.consumerId).dedup.length⟩ :
    GroupConsumptionSummary)] = _
  rw [length_dedup_consumerId]

/-- **When the counts by group are right**: `countByGroup` reports for every consumer group that
recorded events one row with their number and the number of its consumers, and the group is read
back from every consumer's id, exactly when no such group has a `/` in its name or is named as
the front part of the id of another recorder. -/
theorem countByGroup_iff (events : List Recorded) :
    ((∀ groupId, (∃ e ∈ events, e.recorder.group? = some groupId) →
        (storeOf events).countByGroup.filter (fun row => decide (row.groupId = groupId)) =
          [⟨groupId, (eventsOf groupId events).length, (consumersOf groupId events).length⟩]) ∧
      ∀ e ∈ events, ∀ groupId pid i, e.recorder = .consumer groupId pid i →
        groupIdOf e.record.consumerId = groupId) ↔
      Distinguishable events := by
  constructor
  · rintro ⟨hrows, hback⟩ e he groupId hgroup
    have hself : ∀ f ∈ events, f.recorder.group? = some groupId →
        groupIdOf f.record.consumerId = groupId := by
      intro f hf hgroup
      obtain ⟨pid, i, hrecorder⟩ := Recorder.consumer_of_group? hgroup
      exact hback f hf groupId pid i hrecorder
    refine ⟨hself e he hgroup ▸ slash_notMem_groupIdOf _, fun f hf hother hfront => ?_⟩
    -- the row of the group counts `f` too
    have hrow := hrows groupId ⟨e, he, hgroup⟩
    rw [filter_countByGroup ⟨e.record, List.mem_map_of_mem he, hself e he hgroup⟩] at hrow
    simp only [List.cons.injEq, GroupConsumptionSummary.mk.injEq, and_true, true_and] at hrow
    rw [rowsOf_storeOf, List.length_map] at hrow
    have hread : groupIdOf f.record.consumerId = groupId := by
      rw [f.written, groupIdOf_eq]
      exact hfront
    have hlt := length_eventsOf_lt hself hf (by simp [hother]) hread
    omega
  · intro h
    refine ⟨fun groupId hgroup => countByGroup_of_distinguishable h hgroup,
      fun e he groupId pid i hrecorder => ?_⟩
    have hgroup : e.recorder.group? = some groupId := by
      rw [hrecorder]
      rfl
    exact (groupIdOf_eq_iff h ⟨e, he, hgroup⟩ he).mpr hgroup

/-- An event recorded by someone. -/
def recordedBy (recorder : Recorder) : Recorded where
  recorder := recorder
  record := ⟨"ord-1", .created, "orders.created", 0, "0", recorder.consumerId, .epoch⟩
  written := rfl

/-- The groups `team/a` and `team/b` recorded one event each: two events of a group `team` with two
consumers are reported. -/
theorem countByGroup_merges_groups :
    (storeOf [recordedBy (.consumer "team/a" 10 0), recordedBy (.consumer "team/b" 11 0)]).countByGroup
        = [⟨"team", 2, 2⟩] ∧
      groupIdOf (consumerIdOf "team/a" 10 0) ≠ "team/a" := by
  decide +kernel

-- a group named `memory` is credited with what the dispatcher within the process recorded
example :
    (storeOf [recordedBy (.consumer "memory" 10 0), recordedBy (.memory 7)]).countByGroup
      = [⟨"memory", 2, 2⟩] := by
  decide +kernel

end BulkTraffic.Orders
