import Mathlib.Algebra.Order.BigOperators.Group.List
import Mathlib.Data.List.Sort
import BulkTraffic.Js.NumberText
import BulkTraffic.Lib.JsMap

/-!
# Lag, topic size and rewind

The inspector of the lab reads the offsets of a topic and of a consumer group: `topicLag` says how
far the group is behind, `describeTopics` how many messages the topic holds, and `resetOffsets`
sends the group to the first or behind the last message.

The broker is an `AdminClient` of which only its documented behaviour is used: offsets come as
decimal text, a partition without a commit as nothing or as `-1`, and `setOffsets` stores what it
is given (`AdminClient.Stores`).

Without a commit, `topicLag` counts from the partition's `low`; with one, it counts from the
commit, also when retention has moved `low` past it. The three operations agree exactly when no
commit lies below its partition's `low` (`lagAgrees_iff`), where all they read and calculate are
integers that JavaScript numbers have (`Topic.Exact`).
-/

namespace BulkTraffic.Orders

open BulkTraffic.Js BulkTraffic.Lib

/-! ### The admin client -/

/-- An entry of `fetchTopicOffsets`. -/
structure TopicOffset where
  /-- The partition. -/
  partition : ℕ
  /-- The oldest offset that is still there. -/
  low : String
  /-- The offset behind the last message. -/
  high : String

/-- A partition's offset in a group. -/
structure PartitionOffset where
  /-- The partition. -/
  partition : ℕ
  /-- The offset. -/
  offset : String
  deriving DecidableEq

/-- An entry of `fetchOffsets`. -/
structure GroupOffsets where
  /-- The topic. -/
  topic : String
  /-- Its partitions. -/
  partitions : List PartitionOffset

/-- What the inspector calls, on the broker's state. -/
structure AdminClient (σ : Type) where
  /-- `listTopics()`. -/
  listTopics : σ → List String
  /-- `fetchTopicOffsets(topic)`. -/
  fetchTopicOffsets : σ → String → List TopicOffset
  /-- `fetchOffsets({ groupId, topics: [topic] })`. -/
  fetchOffsets : σ → String → String → List GroupOffsets
  /-- `setOffsets({ groupId, topic, partitions })`, or the reason it is refused. -/
  setOffsets : σ → String → String → List PartitionOffset → Except String σ

variable {σ : Type}

/-- `setOffsets` stores what it is given and leaves the topic as it is. -/
structure AdminClient.Stores (admin : AdminClient σ) : Prop where
  /-- The topic's own offsets stay. -/
  topic : ∀ {s s' : σ} {groupId topic : String} {offsets : List PartitionOffset},
    admin.setOffsets s groupId topic offsets = .ok s' →
      admin.fetchTopicOffsets s' topic = admin.fetchTopicOffsets s topic
  /-- The given offsets are what the group has committed. -/
  stored : ∀ {s s' : σ} {groupId topic : String} {offsets : List PartitionOffset},
    admin.setOffsets s groupId topic offsets = .ok s' →
      (offsets.map PartitionOffset.partition).Nodup →
      ∃ partitions, admin.fetchOffsets s' groupId topic = [⟨topic, partitions⟩] ∧
        (partitions.map PartitionOffset.partition).Nodup ∧ ∀ e ∈ offsets, e ∈ partitions

/-! ### The inspector -/

/-- `withAdmin(..)`: nothing is asked without a broker. -/
def withAdmin {α : Type} (brokers : List String) (work : Except String α) : Except String α :=
  if brokers.length = 0 then
    .error "Kafka 브로커 주소가 비어 있습니다. KAFKA_BROKERS 를 확인하세요."
  else work

/-- A partition's size in `describeTopics`. -/
structure PartitionCount where
  /-- The partition. -/
  partition : ℕ
  /-- Its messages. -/
  count : Number

/-- A topic in `describeTopics`. -/
structure TopicDescription where
  /-- The topic. -/
  topic : String
  /-- Its partitions. -/
  partitions : ℕ
  /-- Its messages. -/
  messages : Number
  /-- The messages by partition. -/
  perPartition : List PartitionCount

/-- The answer of `describeTopics`. -/
structure TopicDescriptions where
  /-- The topics that exist. -/
  topics : List TopicDescription
  /-- The asked topics that do not. -/
  missing : List String

/-- `Math.max(Number(entry.high) - Number(entry.low), 0)`. -/
def messageCount (entry : TopicOffset) : Number :=
  Number.clamp0 (Number.sub (numberOfString entry.high) (numberOfString entry.low))

/-- The description of one topic. -/
def describeTopic (topic : String) (offsets : List TopicOffset) : TopicDescription where
  topic := topic
  partitions := offsets.length
  messages := offsets.foldl (fun sum entry => Number.add sum (messageCount entry)) (.finite 0)
  perPartition := (offsets.map fun entry => ⟨entry.partition, messageCount entry⟩).insertionSort
    fun a b => a.partition ≤ b.partition

/-- `describeTopics(topics)`. -/
def describeTopics (brokers : List String) (admin : AdminClient σ) (s : σ) (topics : List String) :
    Except String TopicDescriptions :=
  withAdmin brokers
    (let existing := admin.listTopics s
    .ok
      { topics := (topics.filter fun topic => existing.contains topic).map fun topic =>
          describeTopic topic (admin.fetchTopicOffsets s topic)
        missing := topics.filter fun topic => !existing.contains topic })

/-- A partition's lag. -/
structure PartitionLag where
  /-- The partition. -/
  partition : ℕ
  /-- The offset behind the last message. -/
  latestOffset : String
  /-- What the group has committed, if anything. -/
  committedOffset : Option String
  /-- The messages not processed yet. -/
  lag : Number

/-- A topic's lag. -/
structure TopicLag where
  /-- The topic. -/
  topic : String
  /-- The lag of all partitions. -/
  totalLag : Number
  /-- The partitions in order. -/
  partitions : List PartitionLag

/-- The map `committedByPartition`. -/
def committedByPartition (committed : List GroupOffsets) : JsMap ℕ String :=
  committed.foldl
    (fun m entry => entry.partitions.foldl (fun m p => m.set p.partition p.offset) m) .empty

/-- The lag of one partition. A commit of `-1` is none. -/
def partitionLag (committed : JsMap ℕ String) (entry : TopicOffset) : PartitionLag :=
  let committedOffset := (committed.get? entry.partition).filter fun rawCommitted =>
    Number.ge (numberOfString rawCommitted) (.finite 0)
  let low := numberOfString entry.low
  let high := numberOfString entry.high
  { partition := entry.partition
    latestOffset := entry.high
    committedOffset := committedOffset
    lag := match committedOffset with
      | some rawCommitted => Number.clamp0 (Number.sub high (numberOfString rawCommitted))
      | none => Number.clamp0 (Number.sub high low) }

/-- `topicLag(admin, groupId, topic)`. -/
def topicLag (admin : AdminClient σ) (s : σ) (groupId topic : String) : TopicLag :=
  let committed := committedByPartition (admin.fetchOffsets s groupId topic)
  let partitions := ((admin.fetchTopicOffsets s topic).map (partitionLag committed)).insertionSort
    fun a b => a.partition ≤ b.partition
  { topic := topic
    totalLag := partitions.foldl (fun sum p => Number.add sum p.lag) (.finite 0)
    partitions := partitions }

/-- Where a group is sent. -/
inductive ResetTarget where
  /-- `'earliest'`. -/
  | earliest
  /-- `'latest'`. -/
  | latest
  deriving DecidableEq

/-- The answer of `resetOffsets`. -/
structure ResetResult where
  /-- The group. -/
  groupId : String
  /-- The topic. -/
  topic : String
  /-- The target. -/
  target : ResetTarget
  /-- The offsets given to the broker. -/
  offsets : List PartitionOffset

/-- The offset a partition is sent to. -/
def resetOffset (target : ResetTarget) (entry : TopicOffset) : PartitionOffset :=
  ⟨entry.partition, if target = .earliest then entry.low else entry.high⟩

/-- `resetOffsets(groupId, topic, target)`: the answer and the broker's new state. -/
def resetOffsets (brokers : List String) (admin : AdminClient σ) (s : σ) (groupId topic : String)
    (target : ResetTarget) : Except String (ResetResult × σ) :=
  withAdmin brokers
    (let offsets := (admin.fetchTopicOffsets s topic).map (resetOffset target)
    match admin.setOffsets s groupId topic offsets with
    | .error reason => .error
        (s!"오프셋 되감기 실패 (그룹={groupId} 토픽={topic}): {reason}. " ++
          "이 그룹의 컨슈머가 모두 멈춰 있어야 되감을 수 있습니다.")
    | .ok s' => .ok (⟨groupId, topic, target, offsets⟩, s'))

/-! ### What is in the broker -/

/-- A partition. -/
structure Partition where
  /-- Its number. -/
  partition : ℕ
  /-- The oldest offset that is still there. -/
  low : ℕ
  /-- The offset behind the last message. -/
  high : ℕ
  /-- The partition is not inside out. -/
  low_le_high : low ≤ high

/-- A topic. -/
structure Topic where
  /-- Its partitions. -/
  partitions : List Partition
  /-- No partition comes twice. -/
  nodup : (partitions.map Partition.partition).Nodup

/-- The messages a partition holds. -/
def Partition.messages (p : Partition) : ℕ := p.high - p.low

/-- The retained messages at or after the committed position. -/
def Partition.retained (p : Partition) : Option ℕ → ℕ
  | some committed => p.high - max p.low committed
  | none => p.messages

/-- The entry of `fetchTopicOffsets`. -/
def Partition.entry (p : Partition) : TopicOffset := ⟨p.partition, p.low.repr, p.high.repr⟩

/-- What `fetchOffsets` has for a partition with or without a commit. -/
def IsCommit : Option ℕ → Option String → Prop
  | some committed, text => text = some committed.repr
  | none, text => text = none ∨ text = some "-1"

/-- What `topicLag` counts for a partition. -/
def Partition.counted (p : Partition) : Option ℕ → ℕ
  | some committed => p.high - committed
  | none => p.messages

/-- The partitions in the order of `topicLag`. -/
def Topic.inOrder (t : Topic) : List Partition :=
  t.partitions.insertionSort fun a b => a.partition ≤ b.partition

/-- The offsets of a partition, its message count and its lag are JavaScript numbers. -/
structure Partition.Exact (p : Partition) (committed : Option ℕ) : Prop where
  /-- The oldest offset. -/
  low : Number.Exact p.low
  /-- The offset behind the last message. -/
  high : Number.Exact p.high
  /-- The committed offset. -/
  commit : ∀ c ∈ committed, Number.Exact c
  /-- The messages. -/
  messages : Number.Exact p.messages
  /-- The lag. -/
  lag : Number.Exact (p.counted committed)

/-- Every number that is read or calculated is an integer that a JavaScript number can be. -/
structure Topic.Exact (t : Topic) (committed : ℕ → Option ℕ) : Prop where
  /-- In each partition. -/
  partitions : ∀ p ∈ t.partitions, p.Exact (committed p.partition)
  /-- While the messages are added up. -/
  messages : ∀ k ≤ t.partitions.length,
    Number.Exact ((t.partitions.map Partition.messages).take k).sum
  /-- While the lags are added up. -/
  lags : ∀ k ≤ t.partitions.length,
    Number.Exact ((t.inOrder.map fun p => p.counted (committed p.partition)).take k).sum

/-- The broker holds the topic, and the group's commits in it. -/
structure Shows (admin : AdminClient σ) (s : σ) (groupId topic : String) (t : Topic)
    (committed : ℕ → Option ℕ) : Prop where
  /-- The topic's offsets. -/
  offsets : admin.fetchTopicOffsets s topic = t.partitions.map Partition.entry
  /-- The group's commits. -/
  commits : ∀ p ∈ t.partitions, IsCommit (committed p.partition)
    ((committedByPartition (admin.fetchOffsets s groupId topic)).get? p.partition)

/-- A partition's number and lag. -/
def PartitionLag.pair (p : PartitionLag) : ℕ × Number := (p.partition, p.lag)

/-- A partition's number and message count. -/
def PartitionCount.pair (p : PartitionCount) : ℕ × Number := (p.partition, p.count)

/-- Lag, topic size and rewind agree. -/
structure LagAgrees (brokers : List String) (admin : AdminClient σ) (s : σ) (groupId topic : String)
    (t : Topic) (committed : ℕ → Option ℕ) : Prop where
  /-- A partition's lag is what it retains at or after the committed position. -/
  lag : ((topicLag admin s groupId topic).partitions.map PartitionLag.pair).Perm
    (t.partitions.map fun p =>
      (p.partition, .finite (p.retained (committed p.partition) : ℕ)))
  /-- The total is the sum of these lags. -/
  total : (topicLag admin s groupId topic).totalLag =
    .finite ((t.partitions.map fun p => p.retained (committed p.partition)).sum : ℕ)
  /-- The total is at most the message count. -/
  bounded : Number.le (topicLag admin s groupId topic).totalLag
    (describeTopic topic (admin.fetchTopicOffsets s topic)).messages = true
  /-- After a rewind to the earliest offset, the lag is the message count. -/
  earliest : ∀ {result : ResetResult} {s' : σ},
    resetOffsets brokers admin s groupId topic .earliest = .ok (result, s') →
      ((topicLag admin s' groupId topic).partitions.map PartitionLag.pair).Perm
        ((describeTopic topic (admin.fetchTopicOffsets s' topic)).perPartition.map
          PartitionCount.pair)
  /-- After a rewind to the latest offset, there is no lag. -/
  latest : ∀ {result : ResetResult} {s' : σ},
    resetOffsets brokers admin s groupId topic .latest = .ok (result, s') →
      ((topicLag admin s' groupId topic).partitions.map PartitionLag.pair).Perm
        (t.partitions.map fun p => (p.partition, .finite 0))

/-! ### One partition -/

/-- The lag is the retained messages exactly when the commit is not below `low`. -/
theorem Partition.counted_eq_retained_iff (p : Partition) (committed : Option ℕ) :
    p.counted committed = p.retained committed ↔ ∀ c ∈ committed, p.low ≤ c := by
  have hle := p.low_le_high
  cases committed with
  | none => simp [counted, retained]
  | some c =>
    simp only [counted, retained, Option.mem_def, Option.some.injEq, forall_eq']
    omega

theorem Partition.retained_le_messages (p : Partition) (committed : Option ℕ) :
    p.retained committed ≤ p.messages := by
  cases committed with
  | none => exact Nat.le_refl _
  | some c =>
    simp only [retained, messages]
    omega

theorem numberOfString_repr_exact {n : ℕ} (h : Number.Exact n) :
    numberOfString n.repr = .finite n :=
  (numberOfString_repr n).trans h

theorem messageCount_entry {p : Partition} {committed : Option ℕ} (h : p.Exact committed) :
    messageCount p.entry = .finite p.messages := by
  simp only [messageCount, Partition.entry, numberOfString_repr_exact h.high,
    numberOfString_repr_exact h.low]
  exact Number.clamp0_sub_exact h.messages

/-- `topicLag` subtracts the commit, or `low` where there is none. -/
theorem lag_partitionLag {m : JsMap ℕ String} {p : Partition} {committed : Option ℕ}
    (hm : IsCommit committed (m.get? p.partition)) (h : p.Exact committed) :
    (partitionLag m p.entry).lag = .finite (p.counted committed : ℕ) := by
  have hcount := messageCount_entry h
  have hminus : Number.ge (numberOfString "-1") (.finite 0) = false := by decide +kernel
  cases committed with
  | none =>
    have hnone : ((m.get? p.entry.partition).filter fun rawCommitted =>
        Number.ge (numberOfString rawCommitted) (.finite 0)) = none := by
      rcases hm with hm | hm
      · rw [show m.get? p.entry.partition = none from hm]
        rfl
      · rw [show m.get? p.entry.partition = some "-1" from hm]
        simp [hminus]
    simp only [partitionLag, hnone]
    exact hcount
  | some c =>
    have hc : numberOfString c.repr = .finite c := numberOfString_repr_exact (h.commit c rfl)
    have hsome : ((m.get? p.partition).filter fun rawCommitted =>
        Number.ge (numberOfString rawCommitted) (.finite 0)) = some c.repr := by
      rw [show m.get? p.partition = some c.repr from hm]
      simp [hc, Number.ge]
    simp only [partitionLag, Partition.entry, hsome, numberOfString_repr_exact h.high, hc]
    exact Number.clamp0_sub_exact h.lag

/-- Below `2 ^ 53` everything is a JavaScript number. -/
theorem Topic.exact_of_lt {t : Topic} {committed : ℕ → Option ℕ}
    (hhigh : ∀ p ∈ t.partitions, p.high < 2 ^ 53)
    (hcommitted : ∀ p ∈ t.partitions, ∀ c ∈ committed p.partition, c < 2 ^ 53)
    (hmessages : (t.partitions.map Partition.messages).sum < 2 ^ 53)
    (hlags : (t.partitions.map fun p => p.counted (committed p.partition)).sum < 2 ^ 53) :
    t.Exact committed := by
  have hsums : ∀ {l : List ℕ}, l.sum < 2 ^ 53 → ∀ k, Number.Exact (l.take k).sum := fun hl k =>
    binary64_natCast (Nat.lt_of_le_of_lt (List.Sublist.sum_le_sum (List.take_sublist k _)
      fun _ _ => Nat.zero_le _) hl)
  have hperm := (List.perm_insertionSort (fun a b : Partition => a.partition ≤ b.partition)
    t.partitions).map fun p => p.counted (committed p.partition)
  refine ⟨fun p hp => ?_, fun k _ => hsums hmessages k, fun k _ => hsums (hperm.sum_eq ▸ hlags) k⟩
  have hp' := hhigh p hp
  have hle := p.low_le_high
  have hcount : p.messages < 2 ^ 53 := Nat.lt_of_le_of_lt (Nat.sub_le _ _) hp'
  refine ⟨binary64_natCast (by omega), binary64_natCast hp', fun c hc =>
    binary64_natCast (hcommitted p hp c hc), binary64_natCast hcount, ?_⟩
  cases committed p.partition with
  | none => exact binary64_natCast hcount
  | some c => exact binary64_natCast (Nat.lt_of_le_of_lt (Nat.sub_le _ _) hp')

/-! ### A topic -/

section Topic

variable {admin : AdminClient σ} {s : σ} {groupId topic : String} {t : Topic}
  {committed : ℕ → Option ℕ}

/-- The lags of a topic, in order. -/
theorem partitions_topicLag (hs : Shows admin s groupId topic t committed)
    (hexact : ∀ p ∈ t.partitions, p.Exact (committed p.partition)) :
    (topicLag admin s groupId topic).partitions.map PartitionLag.pair =
      t.inOrder.map fun p => (p.partition, .finite (p.counted (committed p.partition) : ℕ)) := by
  have hsort : (topicLag admin s groupId topic).partitions = t.inOrder.map fun p =>
      partitionLag (committedByPartition (admin.fetchOffsets s groupId topic)) p.entry := by
    have hmap := List.map_insertionSort (fun a b : Partition => a.partition ≤ b.partition)
      (fun a b : PartitionLag => a.partition ≤ b.partition)
      (fun p => partitionLag (committedByPartition (admin.fetchOffsets s groupId topic)) p.entry)
      t.partitions fun _ _ _ _ => Iff.rfl
    rw [Topic.inOrder, hmap, topicLag, hs.offsets, List.map_map]
    rfl
  rw [hsort, List.map_map]
  refine List.map_congr_left fun p hp => ?_
  have hmem : p ∈ t.partitions := (List.mem_insertionSort _).mp hp
  exact Prod.ext rfl (lag_partitionLag (hs.commits p hmem) (hexact p hmem))

/-- The lags of a topic, partition by partition. -/
theorem pairs_topicLag (hs : Shows admin s groupId topic t committed)
    (hexact : ∀ p ∈ t.partitions, p.Exact (committed p.partition)) :
    ((topicLag admin s groupId topic).partitions.map PartitionLag.pair).Perm
      (t.partitions.map fun p =>
        (p.partition, .finite (p.counted (committed p.partition) : ℕ))) := by
  rw [partitions_topicLag hs hexact]
  exact (List.perm_insertionSort _ _).map _

/-- The total lag of a topic. -/
theorem totalLag_topicLag (hs : Shows admin s groupId topic t committed)
    (hexact : t.Exact committed) :
    (topicLag admin s groupId topic).totalLag =
      .finite ((t.partitions.map fun p => p.counted (committed p.partition)).sum : ℕ) := by
  have hlags : (topicLag admin s groupId topic).partitions.map PartitionLag.lag =
      (t.inOrder.map fun p => p.counted (committed p.partition)).map
        fun n : ℕ => Number.finite n := by
    have hsnd := congrArg (List.map Prod.snd) (partitions_topicLag hs hexact.partitions)
    rw [List.map_map, List.map_map] at hsnd
    rw [List.map_map]
    exact hsnd
  have hfold : (topicLag admin s groupId topic).totalLag =
      (((topicLag admin s groupId topic).partitions.map PartitionLag.lag).foldl Number.add
        (.finite 0)) := by
    rw [List.foldl_map]
    rfl
  have hperm := (List.perm_insertionSort (fun a b : Partition => a.partition ≤ b.partition)
    t.partitions).map fun p => p.counted (committed p.partition)
  have hlength : (t.inOrder.map fun p => p.counted (committed p.partition)).length =
      t.partitions.length := by
    rw [Topic.inOrder, List.length_map, List.length_insertionSort]
  rw [hfold, hlags, Number.sum_exact (fun k hk => hexact.lags k (hlength ▸ hk)), Topic.inOrder,
    hperm.sum_eq]

/-- The messages of a topic. -/
theorem messages_describeTopic (hs : Shows admin s groupId topic t committed)
    (hexact : t.Exact committed) :
    (describeTopic topic (admin.fetchTopicOffsets s topic)).messages =
      .finite ((t.partitions.map Partition.messages).sum : ℕ) := by
  have hfold : ∀ offsets : List TopicOffset,
      offsets.foldl (fun sum entry => Number.add sum (messageCount entry)) (.finite 0) =
        (offsets.map messageCount).foldl Number.add (.finite 0) := by
    intro offsets
    rw [List.foldl_map]
  have hcounts : (t.partitions.map Partition.entry).map messageCount =
      (t.partitions.map Partition.messages).map fun n : ℕ => Number.finite n := by
    rw [List.map_map, List.map_map]
    refine List.map_congr_left fun p hp => ?_
    rw [Function.comp_apply, messageCount_entry (hexact.partitions p hp)]
    rfl
  rw [describeTopic, hs.offsets, hfold, hcounts]
  exact Number.sum_exact (by simpa using hexact.messages)

/-- The topic's description, partition by partition. -/
theorem pairs_describeTopic (hs : Shows admin s groupId topic t committed)
    (hexact : ∀ p ∈ t.partitions, p.Exact (committed p.partition)) :
    ((describeTopic topic (admin.fetchTopicOffsets s topic)).perPartition.map
        PartitionCount.pair).Perm
      (t.partitions.map fun p => (p.partition, .finite (p.messages : ℕ))) := by
  have hsort := (List.perm_insertionSort
    (fun a b : PartitionCount => a.partition ≤ b.partition)
    ((admin.fetchTopicOffsets s topic).map fun entry =>
      (⟨entry.partition, messageCount entry⟩ : PartitionCount))).map PartitionCount.pair
  refine hsort.trans (List.Perm.of_eq ?_)
  rw [hs.offsets, List.map_map, List.map_map]
  refine List.map_congr_left fun p hp => ?_
  simp only [Function.comp_apply, PartitionCount.pair, messageCount_entry (hexact p hp)]
  rfl

/-! ### After a rewind -/

/-- A map that is set once for every key holds what it was given. -/
theorem get?_committedByPartition (topic : String) {partitions : List PartitionOffset}
    (hnodup : (partitions.map PartitionOffset.partition).Nodup) {e : PartitionOffset}
    (he : e ∈ partitions) :
    (committedByPartition [⟨topic, partitions⟩]).get? e.partition = some e.offset := by
  have hkeep : ∀ (l : List PartitionOffset) (m : JsMap ℕ String),
      e.partition ∉ l.map PartitionOffset.partition →
        (l.foldl (fun m p => m.set p.partition p.offset) m).get? e.partition =
          m.get? e.partition := by
    intro l
    induction l with
    | nil => exact fun _ _ => rfl
    | cons a l ih =>
      intro m hnot
      rw [List.map_cons, List.mem_cons, not_or] at hnot
      obtain ⟨hne, hnot⟩ := hnot
      rw [List.foldl_cons, ih _ hnot, JsMap.get?_set_of_ne _ (Ne.symm hne)]
  have hset : ∀ (l : List PartitionOffset) (m : JsMap ℕ String),
      (l.map PartitionOffset.partition).Nodup → e ∈ l →
        (l.foldl (fun m p => m.set p.partition p.offset) m).get? e.partition =
          some e.offset := by
    intro l
    induction l with
    | nil => exact fun _ _ h => absurd h List.not_mem_nil
    | cons a l ih =>
      intro m hn hmem
      obtain ⟨hnot, hn⟩ := List.nodup_cons.mp hn
      rw [List.foldl_cons]
      rcases List.mem_cons.mp hmem with rfl | hmem
      · rw [hkeep l _ hnot, JsMap.get?_set_self]
      · exact ih _ hn hmem
  exact hset partitions _ hnodup he

/-- Where a rewind sends a partition. -/
def Partition.resetTo (p : Partition) : ResetTarget → ℕ
  | .earliest => p.low
  | .latest => p.high

/-- The group's commits after a rewind. -/
def Topic.resetTo (t : Topic) (target : ResetTarget) (partition : ℕ) : Option ℕ :=
  (t.partitions.find? fun p => p.partition == partition).map fun p => p.resetTo target

theorem Topic.resetTo_of_mem {p : Partition} (hp : p ∈ t.partitions) (target : ResetTarget) :
    t.resetTo target p.partition = some (p.resetTo target) := by
  have hfind : t.partitions.find? (fun q => q.partition == p.partition) = some p := by
    have hn := t.nodup
    generalize t.partitions = partitions at hp hn
    induction partitions with
    | nil => exact absurd hp List.not_mem_nil
    | cons q partitions ih =>
      obtain ⟨hnot, hn⟩ := List.nodup_cons.mp hn
      rcases List.mem_cons.mp hp with rfl | hp
      · simp
      · have hne : q.partition ≠ p.partition := by
          intro h
          exact hnot (h ▸ List.mem_map_of_mem hp)
        rw [List.find?_cons_of_neg (by simpa using hne)]
        exact ih hp hn
  rw [resetTo, hfind]
  rfl

/-- After a rewind the broker holds the same topic, and the group has committed the target of
every partition. -/
theorem shows_of_reset {brokers : List String} (hadmin : admin.Stores)
    (hs : Shows admin s groupId topic t committed) {target : ResetTarget} {result : ResetResult}
    {s' : σ} (h : resetOffsets brokers admin s groupId topic target = .ok (result, s')) :
    Shows admin s' groupId topic t (t.resetTo target) := by
  unfold resetOffsets withAdmin at h
  split at h
  · cases h
  · dsimp only at h
    split at h
    · cases h
    · rename_i stored hstored
      obtain ⟨-, rfl⟩ := Prod.mk.inj (Except.ok.inj h)
      have hpartitions : ((admin.fetchTopicOffsets s topic).map (resetOffset target)).map
          PartitionOffset.partition = t.partitions.map Partition.partition := by
        rw [hs.offsets, List.map_map, List.map_map]
        exact List.map_congr_left fun p _ => rfl
      obtain ⟨partitions, hfetch, hnodup, hmem⟩ :=
        hadmin.stored hstored (hpartitions ▸ t.nodup)
      refine ⟨(hadmin.topic hstored).trans hs.offsets, fun p hp => ?_⟩
      have hentry : resetOffset target p.entry ∈ partitions := by
        refine hmem _ (List.mem_map_of_mem ?_)
        rw [hs.offsets]
        exact List.mem_map_of_mem hp
      have hget := get?_committedByPartition topic hnodup hentry
      rw [hfetch, Topic.resetTo_of_mem hp]
      show _ = some (p.resetTo target).repr
      apply hget.trans
      cases target <;> rfl

/-- After a rewind a partition's lag is its message count, or nothing. -/
theorem exact_resetTo (hexact : ∀ p ∈ t.partitions, p.Exact (committed p.partition))
    (target : ResetTarget) : ∀ p ∈ t.partitions, p.Exact (t.resetTo target p.partition) := by
  intro p hp
  have h := hexact p hp
  rw [Topic.resetTo_of_mem hp]
  cases target with
  | earliest => exact ⟨h.low, h.high, fun c hc => Option.some.inj hc ▸ h.low, h.messages, h.messages⟩
  | latest =>
    have hnone : Number.Exact (p.high - p.high) := by
      rw [Nat.sub_self]
      exact binary64_natCast (by decide)
    exact ⟨h.low, h.high, fun c hc => Option.some.inj hc ▸ h.high, h.messages, hnone⟩

/-- The lag after a rewind, partition by partition. -/
theorem pairs_topicLag_of_reset {brokers : List String} (hadmin : admin.Stores)
    (hs : Shows admin s groupId topic t committed)
    (hexact : ∀ p ∈ t.partitions, p.Exact (committed p.partition))
    {target : ResetTarget} {result : ResetResult} {s' : σ}
    (h : resetOffsets brokers admin s groupId topic target = .ok (result, s')) :
    ((topicLag admin s' groupId topic).partitions.map PartitionLag.pair).Perm
      (t.partitions.map fun p =>
        (p.partition, .finite (p.counted (some (p.resetTo target)) : ℕ))) := by
  have hs' := shows_of_reset hadmin hs h
  refine (pairs_topicLag hs' (exact_resetTo hexact target)).trans
    (List.Perm.of_eq (List.map_congr_left fun p hp => ?_))
  rw [Topic.resetTo_of_mem hp]

end Topic

/-! ### Main result -/

/-- **Lag, topic size and rewind agree exactly when no commit lies below its partition's `low`.**
For every topic and every group, with offsets, counts, lags and sums that are JavaScript numbers. -/
theorem lagAgrees_iff {admin : AdminClient σ} (hadmin : admin.Stores) (brokers : List String)
    {s : σ} {groupId topic : String} {t : Topic} {committed : ℕ → Option ℕ}
    (hs : Shows admin s groupId topic t committed) (hexact : t.Exact committed) :
    LagAgrees brokers admin s groupId topic t committed ↔
      ∀ p ∈ t.partitions, ∀ c ∈ committed p.partition, p.low ≤ c := by
  have hpairs := pairs_topicLag hs hexact.partitions
  constructor
  · intro h p hp
    rw [← Partition.counted_eq_retained_iff]
    have hmem : (p.partition, Number.finite (p.counted (committed p.partition) : ℕ)) ∈
        t.partitions.map fun p =>
          (p.partition, Number.finite (p.retained (committed p.partition) : ℕ)) :=
      (hpairs.symm.trans h.lag).subset (List.mem_map_of_mem hp)
    obtain ⟨q, hq, heq⟩ := List.mem_map.mp hmem
    obtain ⟨hpartition, hnumber⟩ := Prod.mk.inj heq
    obtain rfl : q = p := List.inj_on_of_nodup_map t.nodup hq hp hpartition
    exact Nat.cast_injective (Number.finite.inj hnumber).symm
  · intro h
    have hcounted : ∀ p ∈ t.partitions,
        p.counted (committed p.partition) = p.retained (committed p.partition) :=
      fun p hp => (p.counted_eq_retained_iff _).mpr (h p hp)
    have hsums : (t.partitions.map fun p => p.counted (committed p.partition)).sum =
        (t.partitions.map fun p => p.retained (committed p.partition)).sum :=
      congrArg List.sum (List.map_congr_left hcounted)
    have hle : (t.partitions.map fun p => p.retained (committed p.partition)).sum ≤
        (t.partitions.map Partition.messages).sum :=
      List.sum_le_sum fun p _ => p.retained_le_messages _
    have htotal := totalLag_topicLag hs hexact
    rw [hsums] at htotal
    refine ⟨?_, htotal, ?_, ?_, ?_⟩
    · refine hpairs.trans (List.Perm.of_eq (List.map_congr_left fun p hp => ?_))
      rw [hcounted p hp]
    · rw [htotal, messages_describeTopic hs hexact]
      exact decide_eq_true (Nat.cast_le.mpr hle)
    · intro result s' hreset
      have hs' := shows_of_reset hadmin hs hreset
      exact (pairs_topicLag_of_reset hadmin hs hexact.partitions hreset).trans
        (pairs_describeTopic hs' (exact_resetTo hexact.partitions .earliest)).symm
    · intro result s' hreset
      refine (pairs_topicLag_of_reset hadmin hs hexact.partitions hreset).trans
        (List.Perm.of_eq (List.map_congr_left fun p _ => ?_))
      simp [Partition.counted, Partition.resetTo]

/-- A broker with one topic and one group, whose state is what the group has committed. -/
def oneTopic (entries : List TopicOffset) : AdminClient (List PartitionOffset) where
  listTopics _ := ["orders.created"]
  fetchTopicOffsets _ _ := entries
  fetchOffsets s _ topic := [⟨topic, s⟩]
  setOffsets _ _ _ offsets := .ok offsets

theorem oneTopic_stores (entries : List TopicOffset) : (oneTopic entries).Stores where
  topic _ := rfl
  stored h hnodup := by
    obtain rfl := Except.ok.inj h
    exact ⟨_, rfl, hnodup, fun _ he => he⟩

/-- Two partitions, the first with a commit, the second without: lag, size and rewind agree. -/
theorem lagAgrees_of_two_partitions :
    let t : Topic := ⟨[⟨0, 10, 100, by decide⟩, ⟨1, 0, 250, by decide⟩], by decide⟩
    LagAgrees ["localhost:9092"] (oneTopic (t.partitions.map Partition.entry))
      [⟨0, "40"⟩, ⟨1, "-1"⟩] "order-processor" "orders.created" t
      fun partition => if partition = 0 then some 40 else none := by
  intro t
  refine (lagAgrees_iff (oneTopic_stores _) _ ⟨rfl, fun p hp => ?_⟩
    (Topic.exact_of_lt (by decide) (by decide) (by decide) (by decide))).mpr (by decide)
  rcases List.mem_cons.mp hp with rfl | hp
  · show _ = some "40"
    decide +kernel
  · rw [List.mem_singleton.mp hp]
    exact .inr (by decide +kernel)

/-- Retention has moved `low` past the commit: the lag is 90 messages, of which 50 are there. -/
theorem lag_exceeds_messages :
    let t : Topic := ⟨[⟨0, 50, 100, by decide⟩], by decide⟩
    let admin := oneTopic (t.partitions.map Partition.entry)
    let s : List PartitionOffset := [⟨0, "10"⟩]
    (topicLag admin s "order-processor" "orders.created").totalLag = .finite 90 ∧
      (describeTopic "orders.created" (admin.fetchTopicOffsets s "orders.created")).messages =
        .finite 50 ∧
      ¬ LagAgrees ["localhost:9092"] admin s "order-processor" "orders.created" t
        fun _ => some 10 := by
  intro t admin s
  refine ⟨by decide +kernel, by decide +kernel, fun h => ?_⟩
  have hbounded := h.bounded
  revert hbounded
  decide +kernel

/-- An offset that no JavaScript number is is rounded, and so is the lag. -/
example :
    let t : Topic := ⟨[⟨0, 0, 2 ^ 53 + 1, by decide⟩], by decide⟩
    (topicLag (oneTopic (t.partitions.map Partition.entry)) [] "order-processor"
      "orders.created").totalLag = .finite (2 ^ 53) := by
  decide +kernel

end BulkTraffic.Orders
