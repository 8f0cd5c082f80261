import BulkTraffic.Orders.Store

/-!
# Duplicates in the statistics

`OrderService.getStats`, and what `duplicateExtra` counts. `findDuplicates` groups the records
by order and event type only, so the records of several consumer groups that each consume
everything count as duplicates of each other.

* `duplicateExtra_eq`: `duplicateExtra` counts the records beyond the first of each event.
* `duplicates_iff`: it counts the redeliveries within the groups exactly when no event was
  recorded by two groups.
-/

namespace BulkTraffic.Orders

open BulkTraffic.Lib BulkTraffic.Js SqliteOrderStore

/-- What `getStats` reads of the dispatcher. -/
structure DispatcherStatus where
  name : String
  ready : Bool

/-- What `getStats` reads of the publisher. -/
structure PublisherStatus where
  connected : Bool
  idempotent : Bool
  acks : Number
  disableKey : Bool

/-- The field `producer` of the statistics. -/
structure ProducerStats where
  connected : Bool
  idempotent : Bool
  acks : Number
  keyEnabled : Bool

/-- The result of `OrderService.getStats`. -/
structure OrderStats where
  orderCount : ℕ
  eventCount : ℕ
  duplicateGroups : ℕ
  duplicateExtra : ℕ
  dispatcher : DispatcherStatus
  producer : ProducerStats

/-- `getStats()`. -/
def getStats (store : SqliteOrderStore) (dispatcher : DispatcherStatus)
    (publisher : PublisherStatus) : OrderStats where
  orderCount := store.countOrders
  eventCount := store.countEvents
  duplicateGroups := store.findDuplicates.length
  duplicateExtra := store.findDuplicates.foldl (fun sum d => sum + (d.count - 1)) 0
  dispatcher := dispatcher
  producer := {
    connected := publisher.connected
    idempotent := publisher.idempotent
    acks := publisher.acks
    keyEnabled := !publisher.disableKey }

/-! ### What is counted -/

theorem foldl_add_eq_weight {α : Type*} (f : α → ℕ) (l : List α) (n : ℕ) :
    l.foldl (fun sum a => sum + f a) n = n + weight f l := by
  induction l generalizing n with
  | nil => rfl
  | cons a l ih =>
    rw [List.foldl_cons, ih, weight_cons]
    omega

/-- Groups of one record have none beyond the first. -/
theorem weight_filter_one_lt {α : Type*} (count : α → ℕ) (l : List α) :
    weight (fun a => count a - 1) (l.filter fun a => decide (1 < count a))
      = weight (fun a => count a - 1) l := by
  induction l with
  | nil => rfl
  | cons a l ih =>
    by_cases h : 1 < count a
    · simp [h, ih]
    · simp [h, ih]
      omega

/-- The number of records beyond the first, over the values of a key. -/
def beyondFirst {κ : Type*} [DecidableEq κ] (key : OrderEventRecord → κ)
    (rows : List OrderEventRecord) : ℕ :=
  weight (fun k => (rowsOf key rows k).length - 1) (keys key rows)

/-- `duplicateExtra` counts the records beyond the first of each event. -/
theorem duplicateExtra_eq (store : SqliteOrderStore) (dispatcher : DispatcherStatus)
    (publisher : PublisherStatus) :
    (getStats store dispatcher publisher).duplicateExtra = beyondFirst eventKey store.orderEvents := by
  show store.findDuplicates.foldl (fun sum d => sum + (d.count - 1)) 0 = _
  rw [foldl_add_eq_weight, Nat.zero_add]
  have hperm : weight (fun d : DuplicateEventSummary => d.count - 1) store.findDuplicates = _ :=
    ((orderByCount_perm _ _).map _).sum_eq
  rw [hperm]
  show weight (fun d : DuplicateEventSummary => d.count - 1) (List.filter _ _) = _
  rw [weight_filter_one_lt, groupBy, weight_map]
  rfl

theorem mem_findDuplicates {store : SqliteOrderStore} {d : DuplicateEventSummary}
    (h : d ∈ store.findDuplicates) :
    1 < d.count ∧ d.count = (rowsOf eventKey store.orderEvents (d.orderId, d.eventType)).length := by
  obtain ⟨hmem, hcount⟩ := List.mem_filter.mp (mem_orderByCount.mp h)
  obtain ⟨k, -, rfl⟩ := (mem_groupBy eventKey).mp hmem
  exact ⟨by simpa using hcount, rfl⟩

/-- Records of different events, one of each, are no duplicates. -/
theorem findDuplicates_eq_nil {store : SqliteOrderStore}
    (h : store.orderEvents.Pairwise fun a b => eventKey a ≠ eventKey b) :
    store.findDuplicates = [] := by
  refine List.eq_nil_iff_forall_not_mem.mpr fun d hd => ?_
  obtain ⟨hcount, heq⟩ := mem_findDuplicates hd
  have hsub : (rowsOf eventKey store.orderEvents (d.orderId, d.eventType)).Pairwise
      fun a b => eventKey a ≠ eventKey b := h.filter _
  match hrows : rowsOf eventKey store.orderEvents (d.orderId, d.eventType) with
  | [] => simp [hrows] at heq; omega
  | [a] => simp [hrows] at heq; omega
  | a :: b :: rest =>
    rw [hrows] at hsub
    have hmem : ∀ c ∈ a :: b :: rest, eventKey c = (d.orderId, d.eventType) := by
      intro c hc
      exact ((mem_rowsOf eventKey).mp (hrows ▸ hc)).2
    refine absurd ?_ ((List.pairwise_cons.mp hsub).1 b (List.mem_cons_self ..))
    rw [hmem a (by simp), hmem b (by simp)]

/-! ### Several groups -/

/-- Where a record was read. -/
def position (record : OrderEventRecord) : String × ℤ × String :=
  (record.topic, record.partition, record.offset)

/-- Every event was published once, at one position. -/
def PublishedOnce (rows : List OrderEventRecord) : Prop :=
  ∀ a ∈ rows, ∀ b ∈ rows, eventKey a = eventKey b → position a = position b

variable {γ : Type*} [DecidableEq γ] (group : String → γ)

/-- No group recorded a position twice. -/
def RecordedOnce (rows : List OrderEventRecord) : Prop :=
  rows.Pairwise fun a b => ¬ (group a.consumerId = group b.consumerId ∧ position a = position b)

/-- The group that recorded an event, and the event. -/
def groupEventKey (record : OrderEventRecord) : γ × String × OrderEventType :=
  (group record.consumerId, eventKey record)

/-- Every event was recorded by one group only. -/
def OneGroupPerEvent (rows : List OrderEventRecord) : Prop :=
  ∀ a ∈ rows, ∀ b ∈ rows, eventKey a = eventKey b → group a.consumerId = group b.consumerId

/-- There are at most as many records beyond the first by group and event as by event, and as
many exactly when every event was recorded by one group only. -/
theorem beyondFirst_eq_iff (rows : List OrderEventRecord) :
    beyondFirst eventKey rows = beyondFirst (groupEventKey group) rows ↔
      OneGroupPerEvent group rows := by
  obtain ⟨hle, hiff⟩ := keys_length_le eventKey (groupEventKey group) (f := Prod.snd)
    (fun _ => rfl) rows
  have hevents := weight_extra eventKey rows
  have hgroups := weight_extra (groupEventKey group) rows
  have hlength : beyondFirst eventKey rows = beyondFirst (groupEventKey group) rows ↔
      (keys eventKey rows).length = (keys (groupEventKey group) rows).length := by
    unfold beyondFirst
    omega
  rw [hlength, hiff]
  constructor
  · intro h a ha b hb heq
    exact congrArg Prod.fst (h a ha b hb heq)
  · intro h a ha b hb heq
    exact Prod.ext (h a ha b hb heq) heq

omit [DecidableEq γ] in
/-- Where every event was recorded by one group only, published once and recorded once by its
group, no two records are of one event. -/
theorem pairwise_of_recordedOnce {rows : List OrderEventRecord} (hpublished : PublishedOnce rows)
    (hrecorded : RecordedOnce group rows) (hone : OneGroupPerEvent group rows) :
    rows.Pairwise fun a b => eventKey a ≠ eventKey b := by
  refine hrecorded.imp_of_mem fun {a b} ha hb hnot heq => hnot ?_
  exact ⟨hone a ha b hb heq, hpublished a ha b hb heq⟩

/-- **When consumption by several groups is not taken for duplication**: whatever groups the
consumers belong to, the statistics count no duplicates where every event was published once
and no group recorded a position twice, and count in general the records beyond the first of
each group and event, exactly when every event was recorded by one group only. -/
theorem duplicates_iff (store : SqliteOrderStore) (dispatcher : DispatcherStatus)
    (publisher : PublisherStatus) :
    ((PublishedOnce store.orderEvents → RecordedOnce group store.orderEvents →
        store.findDuplicates = [] ∧ (getStats store dispatcher publisher).duplicateExtra = 0) ∧
      (getStats store dispatcher publisher).duplicateExtra
        = beyondFirst (groupEventKey group) store.orderEvents) ↔
      OneGroupPerEvent group store.orderEvents := by
  rw [duplicateExtra_eq, beyondFirst_eq_iff group]
  constructor
  · rintro ⟨-, hone⟩
    exact hone
  · intro hone
    refine ⟨fun hpublished hrecorded => ?_, hone⟩
    have hnil := findDuplicates_eq_nil (pairwise_of_recordedOnce group hpublished hrecorded hone)
    refine ⟨hnil, ?_⟩
    rw [← duplicateExtra_eq store dispatcher publisher]
    show store.findDuplicates.foldl _ 0 = 0
    rw [hnil]
    rfl

/-- One event, recorded by two groups that consume the same topic. -/
def twoGroups : SqliteOrderStore where
  orderEvents := [
    ⟨"ord-1", .created, "orders.created", 0, "0", "inventory/10-0", .epoch⟩,
    ⟨"ord-1", .created, "orders.created", 0, "0", "settlement/11-0", .epoch⟩]

/-- The record of the second group is counted as a duplicate of the first one's. -/
theorem duplicates_of_two_groups :
    PublishedOnce twoGroups.orderEvents ∧ RecordedOnce groupIdOf twoGroups.orderEvents ∧
      twoGroups.findDuplicates = [⟨"ord-1", .created, 2⟩] ∧
      (getStats twoGroups ⟨"kafka", true⟩ ⟨true, true, .finite (-1), false⟩).duplicateExtra = 1 ∧
      beyondFirst (groupEventKey groupIdOf) twoGroups.orderEvents = 0 := by
  refine ⟨?_, ?_, by decide, by decide, by decide⟩
  · unfold PublishedOnce
    decide
  · unfold RecordedOnce
    decide

end BulkTraffic.Orders
