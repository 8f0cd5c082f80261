import BulkTraffic.Orders.CommitModes
import BulkTraffic.Orders.GoDecoding

/-!
# The order of events

From the publisher over the broker and the consumers of a group to the store. Each order topic has
partitions. The producer sends a message with a key to the partition that its partitioner has for the
topic and the key, and one without a key to any; the broker appends it. `OrderConsumer` takes the messages
of a partition in order, and different partitions at any time.

* `step`: publishing, and the events of every partition's consumer, in any order.
* `recorded_in_order`: the events of one type with one key are recorded in the order in which the broker
  has stored them, whatever crashes. Committing after the processing, none is recorded before an earlier
  one has been recorded or has failed, if the group's first offset is not behind that one.
* `recorded_in_any_order`: between events of different types there is no order, with or without keys. The
  events of one order are recorded in every order.
-/

namespace BulkTraffic.Orders

open BulkTraffic.Lib BulkTraffic.Js

/-! ### The broker -/

/-- A topic and one of its partitions. -/
structure Place where
  topic : String
  partition : ℕ
  deriving DecidableEq

/-- A message the broker has stored. -/
structure Entry where
  payload : OrderEventPayload
  key : Option String
  place : Place
  offset : ℕ
  deriving DecidableEq

/-- The message as `eachMessage` gets it. -/
def Entry.message (e : Entry) : Message where
  offset := e.offset
  value := some (.ok e.payload.stringify.parse)

/-- What the broker has stored: the offsets of a partition grow. -/
structure Broker where
  entries : List Entry
  sorted : entries.Pairwise fun a b => a.place = b.place → a.offset < b.offset

namespace Broker

/-- One more message. -/
def append (b : Broker) (e : Entry) (h : ∀ a ∈ b.entries, a.place = e.place → a.offset < e.offset) : Broker where
  entries := b.entries ++ [e]
  sorted := List.pairwise_append.mpr ⟨b.sorted, List.pairwise_singleton _ _, fun a ha c hc => by
    obtain rfl := List.mem_singleton.mp hc
    exact h a ha⟩

/-- The messages of a partition. -/
def log (b : Broker) (place : Place) : PartitionLog where
  messages := (b.entries.filter fun e => e.place = place).map Entry.message
  sorted := by
    refine List.pairwise_map.mpr ?_
    have hfilter := b.sorted.filter fun e => decide (e.place = place)
    refine hfilter.imp_of_mem fun {a c} ha hc h => h ?_
    have hplace : a.place = place := by simpa using (List.mem_filter.mp ha).2
    have hplace' : c.place = place := by simpa using (List.mem_filter.mp hc).2
    exact hplace.trans hplace'.symm

end Broker

/-! ### A partition with more messages -/

/-- The broker has appended messages. -/
structure PartitionLog.Grows (old new : PartitionLog) : Prop where
  keeps : ∀ m ∈ old.messages, m ∈ new.messages
  above : ∀ m ∈ new.messages, m ∈ old.messages ∨ ∀ a ∈ old.messages, a.offset < m.offset

theorem PartitionLog.Grows.refl (log : PartitionLog) : log.Grows log :=
  ⟨fun _ h => h, fun _ h => .inl h⟩

/-- The next message stays the next. -/
theorem PartitionLog.Next.grows {old new : PartitionLog} {position : ℕ} {m : Message}
    (h : old.Next position m) (hgrows : old.Grows new) : new.Next position m where
  mem := hgrows.keeps m h.mem
  le := h.le
  first a ha hle := by
    rcases hgrows.above a ha with hold | hnew
    · exact h.first a hold hle
    · exact Nat.le_of_lt (hnew m h.mem)

theorem Broker.grows_append (b : Broker) (e : Entry)
    (h : ∀ a ∈ b.entries, a.place = e.place → a.offset < e.offset) (place : Place) :
    (b.log place).Grows ((b.append e h).log place) where
  keeps m hm := by
    obtain ⟨a, ha, rfl⟩ := List.mem_map.mp hm
    refine List.mem_map_of_mem ?_
    rw [append, List.filter_append]
    exact List.mem_append_left _ ha
  above m hm := by
    obtain ⟨a, ha, rfl⟩ := List.mem_map.mp hm
    rw [append, List.filter_append] at ha
    rcases List.mem_append.mp ha with hold | hnew
    · exact .inl (List.mem_map_of_mem hold)
    · right
      intro c hc
      obtain ⟨d, hd, rfl⟩ := List.mem_map.mp hc
      obtain ⟨ha, hplace⟩ := List.mem_filter.mp hnew
      obtain ⟨hd, hplace'⟩ := List.mem_filter.mp hd
      obtain rfl := List.mem_singleton.mp ha
      simp only [decide_eq_true_eq] at hplace hplace'
      exact h d hd (hplace'.trans hplace.symm)

/-- The message a consumer has. -/
def Phase.message : Phase → Option Message
  | down | idle => none
  | committing m | committed m | processing m | recorded m | delaying m | leaving m => some m

namespace ConsumerRun

variable {config : ConsumerConfig} {log old new : PartitionLog} {start : ℕ} {r u : ConsumerRun}

/-- What a consumer has, and has committed, is from the partition. -/
structure Fed (log : PartitionLog) (start : ℕ) (r : ConsumerRun) : Prop where
  holds : ∀ m, r.phase.message = some m → m ∈ log.messages
  committed : r.committed = start ∨ ∃ m ∈ log.messages, r.committed = m.offset + 1

theorem Fed.grows (h : Fed old start r) (hgrows : old.Grows new) : Fed new start r where
  holds m hm := hgrows.keeps m (h.holds m hm)
  committed := h.committed.imp_right fun ⟨m, hm, heq⟩ => ⟨m, hgrows.keeps m hm, heq⟩

theorem Fed.afterProcessing (h : Fed log start r) {m : Message} (hm : m ∈ log.messages) :
    Fed log start (r.afterProcessing config m) := by
  have hmove : ∀ phase : Phase, (∀ n, phase.message = some n → n = m) →
      Fed log start { r with phase := phase } := fun phase hphase =>
    ⟨fun n hn => hphase n hn ▸ hm, h.committed⟩
  unfold ConsumerRun.afterProcessing
  split
  · exact hmove (.leaving m) fun n hn => (Option.some.inj hn).symm
  · split
    · exact ⟨nofun, h.committed⟩
    · split
      · exact hmove (.delaying m) fun n hn => (Option.some.inj hn).symm
      · exact hmove (.committing m) fun n hn => (Option.some.inj hn).symm

theorem Fed.step (h : Fed log start r) (hu : r.Moves config log u) : Fed log start u := by
  have hmem : ∀ {m}, r.phase.message = some m → m ∈ log.messages := fun {m} => h.holds m
  cases hu with
  | commitFirst m _ _ hnext => exact ⟨fun n hn => Option.some.inj hn ▸ hnext.mem, h.committed⟩
  | processFirst m _ _ hnext => exact ⟨fun n hn => Option.some.inj hn ▸ hnext.mem, h.committed⟩
  | commitStored m hphase =>
    have hm : m ∈ log.messages := hmem (by rw [hphase]; rfl)
    exact ⟨fun n hn => Option.some.inj hn ▸ hm, .inr ⟨m, hm, rfl⟩⟩
  | processNext m _ hphase =>
    have hm : m ∈ log.messages := hmem (by rw [hphase]; rfl)
    exact ⟨fun n hn => Option.some.inj hn ▸ hm, h.committed⟩
  | finish m _ hphase => exact ⟨nofun, h.committed⟩
  | record m hphase =>
    have hm : m ∈ log.messages := hmem (by rw [hphase]; rfl)
    exact ⟨fun n hn => Option.some.inj hn ▸ hm, h.committed⟩
  | succeed m hphase =>
    have hm : m ∈ log.messages := hmem (by rw [hphase]; rfl)
    have hcounted : Fed log start { r with processed := r.processed + 1 } := ⟨h.holds, h.committed⟩
    exact hcounted.afterProcessing hm
  | fail m hphase =>
    have hm : m ∈ log.messages := hmem (by rcases hphase with hphase | hphase <;> rw [hphase] <;> rfl)
    have hcounted : Fed log start (r.countFailed m) := ⟨h.holds, h.committed⟩
    exact hcounted.afterProcessing hm
  | delayEnds m hphase =>
    have hm : m ∈ log.messages := hmem (by rw [hphase]; rfl)
    exact ⟨fun n hn => Option.some.inj hn ▸ hm, h.committed⟩
  | count hidle => exact ⟨h.holds, h.committed⟩
  | goDown => exact ⟨nofun, h.committed⟩
  | rejoin hdown => exact ⟨nofun, h.committed⟩

/-- New messages are behind the committed position. -/
theorem Fed.le_committed (h : Fed old start r) (hgrows : old.Grows new) {a : Message} (ha : a ∈ new.messages)
    (hstart : start ≤ a.offset) (hlt : a.offset < r.committed) : a ∈ old.messages := by
  refine (hgrows.above a ha).resolve_right fun hnew => ?_
  rcases h.committed with heq | ⟨m, hm, heq⟩
  · omega
  · have := hnew m hm
    omega

theorem AtLeastOnce.grows (h : AtLeastOnce old start r) (hfed : Fed old start r) (hgrows : old.Grows new) :
    AtLeastOnce new start r where
  below a ha hstart hlt := h.below a (hfed.le_committed hgrows ha hstart hlt) hstart hlt
  again := h.again
  above := h.above
  phase := by
    have hphase := h.phase
    split at hphase
    · trivial
    · exact hphase
    · exact hphase.grows hgrows
    all_goals first | exact ⟨hphase.1.grows hgrows, hphase.2⟩ | exact hphase

theorem AtMostOnce.grows (h : AtMostOnce old start r) (hfed : Fed old start r) (hgrows : old.Grows new) :
    AtMostOnce new start r where
  below a ha hstart hlt := h.below a (hfed.le_committed hgrows ha hstart hlt) hstart hlt
  once := h.once
  above := h.above
  phase := by
    have hphase := h.phase
    split at hphase
    · trivial
    · exact hphase
    · exact hphase.grows hgrows
    all_goals exact hphase

/-- Committing before the processing, what is recorded is behind the committed position. -/
structure InOrder (r : ConsumerRun) : Prop where
  below : ∀ n ∈ r.store, n < r.committed
  /-- The message whose turn it is has not been recorded. -/
  phase : ∀ m, r.phase = .committed m ∨ r.phase = .processing m → ∀ n ∈ r.store, n < m.offset

theorem InOrder.afterProcessing (h : InOrder r) (hmode : config.commitMode = .beforeProcess) (m : Message) :
    InOrder (r.afterProcessing config m) := by
  unfold ConsumerRun.afterProcessing
  split
  · exact ⟨h.below, fun n hn => by rcases hn with hn | hn <;> cases hn⟩
  · rw [hmode]
    exact ⟨h.below, fun n hn => by rcases hn with hn | hn <;> cases hn⟩

theorem InOrder.step (hmode : config.commitMode = .beforeProcess) (honce : AtMostOnce log start r)
    (h : InOrder r) (hu : r.Moves config log u) : InOrder u := by
  have hphase := honce.phase
  cases hu with
  | processFirst m hafter _ _ => rw [hmode] at hafter; cases hafter
  | finish m hafter _ => rw [hmode] at hafter; cases hafter
  | commitFirst m _ _ _ => exact ⟨h.below, fun n hn => by rcases hn with hn | hn <;> cases hn⟩
  | commitStored m hcommitting =>
    rw [hcommitting] at hphase
    have hbelow : ∀ n ∈ r.store, n < m.offset := fun n hn => Nat.lt_of_lt_of_le (h.below n hn) hphase.le
    refine ⟨fun n hn => Nat.lt_succ_of_lt (hbelow n hn), ?_⟩
    rintro n (hn | hn)
    · cases hn
      exact hbelow
    · cases hn
  | processNext m _ hcommitted =>
    refine ⟨h.below, ?_⟩
    rintro n (hn | hn)
    · cases hn
    · cases hn
      exact h.phase m (.inl hcommitted)
  | record m hprocessing =>
    rw [hprocessing] at hphase
    refine ⟨fun n hn => ?_, fun n hn => by rcases hn with hn | hn <;> cases hn⟩
    rcases List.mem_append.mp hn with hn | hn
    · exact h.below n hn
    · obtain rfl := List.mem_singleton.mp hn
      change m.offset < r.committed
      omega
  | succeed m _ =>
    have hcounted : InOrder { r with processed := r.processed + 1 } := ⟨h.below, h.phase⟩
    exact hcounted.afterProcessing hmode m
  | fail m _ =>
    have hcounted : InOrder (r.countFailed m) := ⟨h.below, h.phase⟩
    exact hcounted.afterProcessing hmode m
  | delayEnds m _ => exact ⟨h.below, fun n hn => by rcases hn with hn | hn <;> cases hn⟩
  | count _ => exact ⟨h.below, h.phase⟩
  | goDown => exact ⟨h.below, fun n hn => by rcases hn with hn | hn <;> cases hn⟩
  | rejoin _ => exact ⟨h.below, fun n hn => by rcases hn with hn | hn <;> cases hn⟩

end ConsumerRun

/-! ### The whole way -/

/-- A message that a consumer is done with. -/
structure Handled where
  place : Place
  offset : ℕ
  /-- The order and the type of the event that was recorded; `none` if the processing has failed. -/
  event : Option (JsValue × String)

/-- Broker, consumers and store. -/
structure OrderFlow where
  broker : Broker
  /-- The consumption of each partition. -/
  runs : Place → ConsumerRun
  /-- What was recorded in the store, and what has failed, in order. -/
  history : List Handled

/-- What can happen. -/
inductive OrderFlowEvent where
  /-- `publish(payload)`: the broker stores the message under this partition and offset. -/
  | publish (payload : OrderEventPayload) (partition offset : ℕ)
  /-- Something happens to the consumer of a partition. -/
  | consume (place : Place) (e : ConsumerEvent)

/-- What a consumer is done with at an event. -/
def ConsumerRun.handled (r : ConsumerRun) (place : Place) : ConsumerEvent → List Handled
  | .eventStored =>
    match r.phase with
    | .processing m => [{ place := place, offset := m.offset, event := m.value.bind parseEvent }]
    | _ => []
  | .processThrows =>
    match r.phase with
    | .processing m | .recorded m => [{ place := place, offset := m.offset, event := none }]
    | _ => []
  | _ => []

/-- **One event** of a consumer: a message is recorded, or fails, or neither. -/
theorem ConsumerRun.handled_cases {config : ConsumerConfig} {log : PartitionLog} {r u : ConsumerRun}
    {e : ConsumerEvent} (place : Place) (h : r.step config log e = some u) :
    (r.handled place e = [] ∧ u.store = r.store ∧ u.failures = r.failures) ∨
    (∃ m, r.phase = .processing m ∧ m.readable = true ∧
      r.handled place e = [{ place := place, offset := m.offset, event := m.value.bind parseEvent }] ∧
      u.store = r.store ++ [m.offset] ∧ u.failures = r.failures) ∨
    ∃ m, r.phase.message = some m ∧
      r.handled place e = [{ place := place, offset := m.offset, event := none }] ∧
      u.store = r.store ∧ u.failures = r.failures ++ [m.offset] := by
  have hafter : ∀ (v : ConsumerRun) (m : Message), (v.afterProcessing config m).store = v.store ∧
      (v.afterProcessing config m).failures = v.failures := by
    intro v m
    unfold ConsumerRun.afterProcessing
    split
    · exact ⟨rfl, rfl⟩
    · split
      · exact ⟨rfl, rfl⟩
      · split <;> exact ⟨rfl, rfl⟩
  cases e with
  | eventStored =>
    simp only [ConsumerRun.step] at h
    split at h
    · rename_i m hphase
      split at h
      · rename_i hreadable
        cases h
        exact .inr (.inl ⟨m, hphase, hreadable, by rw [handled, hphase], rfl, rfl⟩)
      · cases h
    · cases h
  | processThrows =>
    simp only [ConsumerRun.step] at h
    split at h
    all_goals cases h
    · rename_i m hphase
      exact .inr (.inr ⟨m, by rw [hphase]; rfl, by rw [handled, hphase], hafter _ m⟩)
    · rename_i m hphase
      exact .inr (.inr ⟨m, by rw [hphase]; rfl, by rw [handled, hphase], hafter _ m⟩)
  | processReturns =>
    simp only [ConsumerRun.step] at h
    split at h
    · rename_i m hphase
      cases h
      exact .inl ⟨rfl, hafter _ m⟩
    · cases h
  | deliver =>
    simp only [ConsumerRun.step] at h
    split at h
    · cases h
      refine .inl ⟨rfl, ?_⟩
      split <;> exact ⟨rfl, rfl⟩
    · cases h
  | commitReturns =>
    simp only [ConsumerRun.step] at h
    split at h
    · cases h
      refine .inl ⟨rfl, ?_⟩
      split <;> exact ⟨rfl, rfl⟩
    · cases h
  | _ =>
    simp only [ConsumerRun.step] at h
    split at h
    all_goals cases h
    all_goals exact .inl ⟨rfl, rfl, rfl⟩

namespace OrderFlow

/-- Does the producer send a message with this key to this partition? -/
def routes (partitioner : String → String → ℕ) (place : Place) : Option String → Bool
  | some key => place.partition = partitioner place.topic key
  | none => true

/-- The consumer of a partition goes on. -/
def goOn (s : OrderFlow) (place : Place) (r : ConsumerRun) (handled : List Handled) : OrderFlow :=
  { s with runs := Function.update s.runs place r, history := s.history ++ handled }

@[simp] theorem broker_goOn (s : OrderFlow) (place : Place) (r : ConsumerRun) (handled : List Handled) :
    (s.goOn place r handled).broker = s.broker := rfl

@[simp] theorem history_goOn (s : OrderFlow) (place : Place) (r : ConsumerRun) (handled : List Handled) :
    (s.goOn place r handled).history = s.history ++ handled := rfl

@[simp] theorem runs_goOn_self (s : OrderFlow) (place : Place) (r : ConsumerRun) (handled : List Handled) :
    (s.goOn place r handled).runs place = r := Function.update_self ..

theorem runs_goOn_of_ne (s : OrderFlow) {place other : Place} (h : other ≠ place) (r : ConsumerRun)
    (handled : List Handled) : (s.goOn place r handled).runs other = s.runs other :=
  Function.update_of_ne h _ _

variable (publisher : OrderPublisher) (partitioner : String → String → ℕ) (config : ConsumerConfig)

/-- One step. -/
def step (s : OrderFlow) : OrderFlowEvent → Option OrderFlow
  | .publish payload partition offset =>
    match publisher.producerRecord payload with
    | .error _ => none
    | .ok record =>
      let e : Entry := { payload := payload, key := record.key, offset := offset
                         place := { topic := record.topic, partition := partition } }
      if h : ∀ a ∈ s.broker.entries, a.place = e.place → a.offset < e.offset then
        if routes partitioner e.place e.key then some { s with broker := s.broker.append e h } else none
      else none
  | .consume place e =>
    ((s.runs place).step config (s.broker.log place) e).map fun r =>
      s.goOn place r ((s.runs place).handled place e)

/-- Every commit stores the next offset. -/
def commitsNext (s : OrderFlow) : OrderFlowEvent → Bool
  | .publish .. => true
  | .consume place e => (s.runs place).commitsNext e

/-- Nothing is stored and nothing consumed; each partition has a committed offset. -/
def initial (start : Place → ℕ) : OrderFlow where
  broker := { entries := [], sorted := .nil }
  runs place := ConsumerRun.initial (start place)
  history := []

variable {publisher} {partitioner} {config} {s t : OrderFlow} {start : Place → ℕ}

/-! ### What a step does -/

/-- What can happen, and the flow behind it. -/
inductive Moves (publisher : OrderPublisher) (partitioner : String → String → ℕ) (config : ConsumerConfig)
    (s : OrderFlow) : OrderFlow → Prop where
  | publish (e : Entry) (record : ProducerRecord)
      (h : ∀ a ∈ s.broker.entries, a.place = e.place → a.offset < e.offset) :
      publisher.producerRecord e.payload = .ok record → record.topic = e.place.topic → record.key = e.key →
      routes partitioner e.place e.key = true →
      Moves publisher partitioner config s { s with broker := s.broker.append e h }
  | consume (place : Place) (e : ConsumerEvent) (r : ConsumerRun) :
      (s.runs place).step config (s.broker.log place) e = some r → (s.runs place).commitsNext e = true →
      Moves publisher partitioner config s (s.goOn place r ((s.runs place).handled place e))

theorem moves_of_step {e : OrderFlowEvent} (hok : s.commitsNext e = true)
    (h : step publisher partitioner config s e = some t) : Moves publisher partitioner config s t := by
  cases e with
  | publish payload partition offset =>
    simp only [step] at h
    split at h
    · cases h
    · rename_i record hrecord
      split at h
      · rename_i hbefore
        split at h
        · rename_i hroutes
          cases h
          exact .publish _ record hbefore hrecord rfl rfl hroutes
        · cases h
      · cases h
  | consume place e =>
    obtain ⟨r, hr, rfl⟩ := Option.map_eq_some_iff.mp h
    exact .consume place e r hr hok

/-! ### What holds between two steps -/

/-- The messages, and what was made of them. -/
structure Kept (publisher : OrderPublisher) (partitioner : String → String → ℕ) (start : Place → ℕ)
    (s : OrderFlow) : Prop where
  /-- A message is where the publisher and the partitioner send it. -/
  routed : ∀ e ∈ s.broker.entries, ∃ record, publisher.producerRecord e.payload = .ok record ∧
    record.topic = e.place.topic ∧ record.key = e.key ∧ routes partitioner e.place e.key = true
  fed : ∀ place, (s.runs place).Fed (s.broker.log place) (start place)
  /-- What was handled is a message, and what was recorded is its event. -/
  known : ∀ h ∈ s.history, ∃ e ∈ s.broker.entries, e.place = h.place ∧ e.offset = h.offset ∧
    (h.event = none ∨ h.event = parseEvent (.ok e.payload.stringify.parse))
  done : ∀ place n, (s.runs place).Completed n → ∃ h ∈ s.history, h.place = place ∧ h.offset = n
  stored : ∀ h ∈ s.history, h.event.isSome = true → h.offset ∈ (s.runs h.place).store

theorem Kept.publish (h : Kept publisher partitioner start s) {e : Entry} {record : ProducerRecord}
    (hlast : ∀ a ∈ s.broker.entries, a.place = e.place → a.offset < e.offset)
    (hrecord : publisher.producerRecord e.payload = .ok record) (htopic : record.topic = e.place.topic)
    (hkey : record.key = e.key) (hroutes : routes partitioner e.place e.key = true) :
    Kept publisher partitioner start { s with broker := s.broker.append e hlast } where
  routed a ha := by
    rcases List.mem_append.mp ha with ha | ha
    · exact h.routed a ha
    · obtain rfl := List.mem_singleton.mp ha
      exact ⟨record, hrecord, htopic, hkey, hroutes⟩
  fed place := (h.fed place).grows (s.broker.grows_append e hlast place)
  known a ha := by
    obtain ⟨c, hc, hevent⟩ := h.known a ha
    exact ⟨c, List.mem_append_left _ hc, hevent⟩
  done := h.done
  stored := h.stored

theorem mem_log {b : Broker} {place : Place} {m : Message} (h : m ∈ (b.log place).messages) :
    ∃ e ∈ b.entries, e.place = place ∧ e.message = m := by
  obtain ⟨e, he, rfl⟩ := List.mem_map.mp h
  obtain ⟨he, hplace⟩ := List.mem_filter.mp he
  exact ⟨e, he, by simpa using hplace, rfl⟩

theorem log_mem {b : Broker} {e : Entry} (h : e ∈ b.entries) : e.message ∈ (b.log e.place).messages :=
  List.mem_map_of_mem (List.mem_filter.mpr ⟨h, by simp⟩)

/-- What a consumer is done with is a message of its partition. -/
theorem known_handled {b : Broker} {place : Place} {r u : ConsumerRun} {e : ConsumerEvent} {first : ℕ}
    (hfed : r.Fed (b.log place) first) (hu : r.step config (b.log place) e = some u) :
    ∀ h ∈ r.handled place e, ∃ a ∈ b.entries, a.place = h.place ∧ a.offset = h.offset ∧
      (h.event = none ∨ h.event = parseEvent (.ok a.payload.stringify.parse)) := by
  intro h hh
  rcases ConsumerRun.handled_cases place hu with ⟨hnil, -⟩ | ⟨m, hphase, -, hone, -⟩ | ⟨m, hphase, hone, -⟩
  · rw [hnil] at hh
    cases hh
  · rw [hone] at hh
    obtain rfl := List.mem_singleton.mp hh
    obtain ⟨a, ha, hplace, rfl⟩ := mem_log (hfed.holds m (by rw [hphase]; rfl))
    exact ⟨a, ha, hplace, rfl, .inr rfl⟩
  · rw [hone] at hh
    obtain rfl := List.mem_singleton.mp hh
    obtain ⟨a, ha, hplace, rfl⟩ := mem_log (hfed.holds m hphase)
    exact ⟨a, ha, hplace, rfl, .inl rfl⟩

theorem Kept.consume (h : Kept publisher partitioner start s) {place : Place} {e : ConsumerEvent} {r : ConsumerRun}
    (hr : (s.runs place).step config (s.broker.log place) e = some r) (hok : (s.runs place).commitsNext e = true) :
    Kept publisher partitioner start (s.goOn place r ((s.runs place).handled place e)) where
  routed := h.routed
  fed other := by
    by_cases hother : other = place
    · subst hother
      rw [runs_goOn_self]
      exact (h.fed other).step (ConsumerRun.moves_of_step hok hr)
    · rw [runs_goOn_of_ne s hother]
      exact h.fed other
  known a ha := by
    rcases List.mem_append.mp ha with ha | ha
    · exact h.known a ha
    · exact known_handled (h.fed place) hr a ha
  done other n hn := by
    by_cases hother : other = place
    · subst hother
      rw [runs_goOn_self] at hn
      have hcases : (s.runs other).Completed n ∨
          ∃ a ∈ (s.runs other).handled other e, a.place = other ∧ a.offset = n := by
        rcases ConsumerRun.handled_cases other hr with ⟨-, hstore, hfailures⟩ |
          ⟨m, -, -, hone, hstore, hfailures⟩ | ⟨m, -, hone, hstore, hfailures⟩
        · rw [ConsumerRun.Completed, hstore, hfailures] at hn
          exact .inl hn
        · rw [ConsumerRun.Completed, hstore, hfailures, List.mem_append, List.mem_singleton] at hn
          rw [hone]
          rcases hn with (hn | rfl) | hn
          · exact .inl (.inl hn)
          · exact .inr ⟨_, List.mem_singleton_self _, rfl, rfl⟩
          · exact .inl (.inr hn)
        · rw [ConsumerRun.Completed, hstore, hfailures, List.mem_append, List.mem_singleton] at hn
          rw [hone]
          rcases hn with hn | hn | rfl
          · exact .inl (.inl hn)
          · exact .inl (.inr hn)
          · exact .inr ⟨_, List.mem_singleton_self _, rfl, rfl⟩
      rcases hcases with hold | ⟨a, ha, hnew⟩
      · obtain ⟨a, ha, hold⟩ := h.done other n hold
        exact ⟨a, List.mem_append_left _ ha, hold⟩
      · exact ⟨a, List.mem_append_right _ ha, hnew⟩
    · rw [runs_goOn_of_ne s hother] at hn
      obtain ⟨a, ha, hold⟩ := h.done other n hn
      exact ⟨a, List.mem_append_left _ ha, hold⟩
  stored a ha hevent := by
    have hsub : ∀ n ∈ (s.runs place).store, n ∈ r.store := by
      intro n hn
      rcases ConsumerRun.handled_cases place hr with ⟨-, hstore, -⟩ | ⟨m, -, -, -, hstore, -⟩ | ⟨m, -, -, hstore, -⟩
      · rwa [hstore]
      · rw [hstore]
        exact List.mem_append_left _ hn
      · rwa [hstore]
    rcases List.mem_append.mp ha with ha | ha
    · have hold := h.stored a ha hevent
      by_cases hplace : a.place = place
      · rw [hplace] at hold ⊢
        rw [runs_goOn_self]
        exact hsub _ hold
      · rwa [runs_goOn_of_ne s hplace]
    · rcases ConsumerRun.handled_cases place hr with ⟨hnil, -⟩ | ⟨m, -, -, hone, hstore, -⟩ | ⟨m, -, hone, -⟩
      · rw [hnil] at ha
        cases ha
      · rw [hone] at ha
        obtain rfl := List.mem_singleton.mp ha
        rw [runs_goOn_self, hstore]
        exact List.mem_append_right _ (List.mem_singleton_self _)
      · rw [hone] at ha
        obtain rfl := List.mem_singleton.mp ha
        cases hevent

/-- The `i`th thing a consumer was done with is this message. -/
def HandledAt (s : OrderFlow) (a : Entry) (i : ℕ) : Prop :=
  ∃ h : Handled, s.history[i]? = some h ∧ h.place = a.place ∧ h.offset = a.offset

/-- It is a record of this message. -/
def RecordedAt (s : OrderFlow) (a : Entry) (i : ℕ) : Prop :=
  ∃ h : Handled, s.history[i]? = some h ∧ h.place = a.place ∧ h.offset = a.offset ∧ h.event.isSome = true

/-! ### Committing after the processing -/

/-- Whatever is recorded, everything before it has been handled. -/
structure NoGaps (start : Place → ℕ) (s : OrderFlow) : Prop where
  runs : ∀ place, (s.runs place).AtLeastOnce (s.broker.log place) (start place)
  order : ∀ (j : ℕ) (h : Handled), s.history[j]? = some h → h.event.isSome = true →
    ∀ a ∈ s.broker.entries, a.place = h.place → start a.place ≤ a.offset → a.offset < h.offset →
      ∃ i < j, s.HandledAt a i

theorem NoGaps.publish (h : NoGaps start s) (hkept : Kept publisher partitioner start s) {e : Entry}
    (hlast : ∀ a ∈ s.broker.entries, a.place = e.place → a.offset < e.offset) :
    NoGaps start { s with broker := s.broker.append e hlast } where
  runs place := (h.runs place).grows (hkept.fed place) (s.broker.grows_append e hlast place)
  order j g hg hevent a ha hplace hstart hlt := by
    rcases List.mem_append.mp ha with ha | ha
    · exact h.order j g hg hevent a ha hplace hstart hlt
    · obtain rfl := List.mem_singleton.mp ha
      obtain ⟨c, hc, hcplace, hcoffset, -⟩ := hkept.known g (List.mem_of_getElem? hg)
      have hlater := hlast c hc (hcplace.trans hplace.symm)
      omega

theorem NoGaps.consume (h : NoGaps start s) (hkept : Kept publisher partitioner start s)
    (hmode : config.commitMode = .afterProcess) {place : Place} {e : ConsumerEvent} {r : ConsumerRun}
    (hr : (s.runs place).step config (s.broker.log place) e = some r) (hok : (s.runs place).commitsNext e = true) :
    NoGaps start (s.goOn place r ((s.runs place).handled place e)) where
  runs other := by
    by_cases hother : other = place
    · subst hother
      rw [runs_goOn_self]
      exact (h.runs other).step hmode (ConsumerRun.moves_of_step hok hr)
    · rw [runs_goOn_of_ne s hother]
      exact h.runs other
  order j g hg hevent a ha hplace hstart hlt := by
    rw [history_goOn] at hg
    unfold HandledAt
    rw [history_goOn]
    rcases Nat.lt_or_ge j s.history.length with hold | hnew
    · rw [List.getElem?_append_left hold] at hg
      obtain ⟨i, hi, c, hc, hsame⟩ := h.order j g hg hevent a ha hplace hstart hlt
      exact ⟨i, hi, c, by rw [List.getElem?_append_left (hi.trans hold), hc], hsame⟩
    · -- the message that is recorded is the first from the committed position on
      rw [List.getElem?_append_right hnew] at hg
      have hmem := List.mem_of_getElem? hg
      obtain ⟨m, hphase, rfl⟩ : ∃ m, (s.runs place).phase = .processing m ∧
          g = { place := place, offset := m.offset, event := m.value.bind parseEvent } := by
        rcases ConsumerRun.handled_cases place hr with ⟨hnil, -⟩ | ⟨m, hphase, -, hone, -⟩ | ⟨m, -, hone, -⟩
        · rw [hnil] at hmem
          cases hmem
        · rw [hone] at hmem
          exact ⟨m, hphase, List.mem_singleton.mp hmem⟩
        · rw [hone] at hmem
          obtain rfl := List.mem_singleton.mp hmem
          cases hevent
      obtain rfl : a.place = place := hplace
      have hruns := h.runs a.place
      have hnext := hruns.phase
      rw [hphase] at hnext
      have hcommitted : a.offset < (s.runs a.place).committed := by
        by_contra hge
        have := hnext.first a.message (log_mem ha) (Nat.not_lt.mp hge)
        exact absurd hlt (Nat.not_lt.mpr this)
      have hdone : (s.runs a.place).Completed a.offset := hruns.below a.message (log_mem ha) hstart hcommitted
      obtain ⟨c, hc, hcplace, hcoffset⟩ := hkept.done a.place a.offset hdone
      obtain ⟨i, hi⟩ := List.getElem?_of_mem hc
      have hlength := (List.getElem?_eq_some_iff.mp hi).1
      exact ⟨i, hlength.trans_le hnew, c, by rw [List.getElem?_append_left hlength, hi], hcplace, hcoffset⟩

/-! ### Committing before the processing -/

/-- The records of a partition are in its order, each message at most once. -/
structure Increasing (start : Place → ℕ) (s : OrderFlow) : Prop where
  runs : ∀ place, (s.runs place).AtMostOnce (s.broker.log place) (start place)
  inOrder : ∀ place, (s.runs place).InOrder
  order : s.history.Pairwise fun a b =>
    a.place = b.place → a.event.isSome = true → b.event.isSome = true → a.offset < b.offset

theorem Increasing.publish (h : Increasing start s) (hkept : Kept publisher partitioner start s) {e : Entry}
    (hlast : ∀ a ∈ s.broker.entries, a.place = e.place → a.offset < e.offset) :
    Increasing start { s with broker := s.broker.append e hlast } where
  runs place := (h.runs place).grows (hkept.fed place) (s.broker.grows_append e hlast place)
  inOrder := h.inOrder
  order := h.order

theorem Increasing.consume (h : Increasing start s) (hkept : Kept publisher partitioner start s)
    (hmode : config.commitMode = .beforeProcess) {place : Place} {e : ConsumerEvent} {r : ConsumerRun}
    (hr : (s.runs place).step config (s.broker.log place) e = some r) (hok : (s.runs place).commitsNext e = true) :
    Increasing start (s.goOn place r ((s.runs place).handled place e)) where
  runs other := by
    by_cases hother : other = place
    · subst hother
      rw [runs_goOn_self]
      exact (h.runs other).step hmode (ConsumerRun.moves_of_step hok hr)
    · rw [runs_goOn_of_ne s hother]
      exact h.runs other
  inOrder other := by
    by_cases hother : other = place
    · subst hother
      rw [runs_goOn_self]
      exact (h.inOrder other).step hmode (h.runs other) (ConsumerRun.moves_of_step hok hr)
    · rw [runs_goOn_of_ne s hother]
      exact h.inOrder other
  order := by
    rw [history_goOn]
    rcases ConsumerRun.handled_cases place hr with ⟨hnil, -⟩ | ⟨m, hphase, -, hone, -⟩ | ⟨m, -, hone, -⟩
    · rw [hnil, List.append_nil]
      exact h.order
    · rw [hone]
      refine List.pairwise_append.mpr ⟨h.order, List.pairwise_singleton _ _, ?_⟩
      intro a ha b hb hplace hevent _
      obtain rfl := List.mem_singleton.mp hb
      have hstored := hkept.stored a ha hevent
      rw [hplace] at hstored
      exact (h.inOrder place).phase m (.inr hphase) a.offset hstored
    · rw [hone]
      refine List.pairwise_append.mpr ⟨h.order, List.pairwise_singleton _ _, ?_⟩
      intro a ha b hb _ _ hevent
      obtain rfl := List.mem_singleton.mp hb
      cases hevent

/-- Records of one partition, by their offsets. -/
theorem Increasing.lt (h : Increasing start s) {a b : Entry} (hplace : a.place = b.place) {i j : ℕ}
    (hi : s.RecordedAt a i) (hj : s.RecordedAt b j) (hij : i < j) : a.offset < b.offset := by
  obtain ⟨f, hf, hfplace, hfoffset, hfevent⟩ := hi
  obtain ⟨g, hg, hgplace, hgoffset, hgevent⟩ := hj
  obtain ⟨hilt, rfl⟩ := List.getElem?_eq_some_iff.mp hf
  obtain ⟨hjlt, rfl⟩ := List.getElem?_eq_some_iff.mp hg
  have hlt := List.pairwise_iff_getElem.mp h.order i j hilt hjlt hij
    (hfplace.trans (hplace.trans hgplace.symm)) hfevent hgevent
  rwa [hfoffset, hgoffset] at hlt

/-! ### One key -/

/-- The topic and the key of a message. -/
theorem parts_of_producerRecord {payload : OrderEventPayload} {record : ProducerRecord}
    (h : publisher.producerRecord payload = .ok record) :
    topicFor payload.eventType = .ok record.topic ∧ publisher.messageKey payload = .ok record.key := by
  unfold OrderPublisher.producerRecord at h
  split at h
  · cases h
  · rw [topicFor_eq] at h ⊢
    cases hkey : publisher.messageKey payload with
    | error error =>
      rw [hkey] at h
      cases h
    | ok key =>
      rw [hkey] at h
      cases h
      exact ⟨rfl, rfl⟩

/-- With keys, the type and the key of an event say where it goes. -/
theorem Kept.place_of_key (h : Kept publisher partitioner start s) (hdisable : publisher.config.disableKey = false)
    {e : Entry} (he : e ∈ s.broker.entries) :
    topicFor e.payload.eventType = .ok e.place.topic ∧
    ∃ key, pickEventKey e.payload = .ok key ∧ e.place.partition = partitioner e.place.topic key := by
  obtain ⟨record, hrecord, htopic, hkey, hroutes⟩ := h.routed e he
  obtain ⟨htopic', hkey'⟩ := parts_of_producerRecord hrecord
  refine ⟨htopic ▸ htopic', ?_⟩
  rw [OrderPublisher.messageKey, hdisable, hkey] at hkey'
  cases hpick : pickEventKey e.payload with
  | error error =>
    rw [hpick] at hkey'
    cases hkey'
  | ok key =>
    rw [hpick] at hkey'
    rw [← Except.ok.inj hkey'] at hroutes
    exact ⟨key, rfl, by simpa [routes] using hroutes⟩

theorem kept_initial : Kept publisher partitioner start (initial start) where
  routed _ he := absurd he List.not_mem_nil
  fed _ := ⟨nofun, .inl rfl⟩
  known _ hh := absurd hh List.not_mem_nil
  done _ _ hn := hn.elim (absurd · List.not_mem_nil) (absurd · List.not_mem_nil)
  stored _ hh := absurd hh List.not_mem_nil

theorem noGaps_initial : NoGaps start (initial start) where
  runs _ := ConsumerRun.atLeastOnce_initial
  order _ _ hj := nomatch hj

theorem increasing_initial : Increasing start (initial start) where
  runs _ := ConsumerRun.atMostOnce_initial
  inOrder _ := ⟨fun _ hn => absurd hn List.not_mem_nil, fun _ _ _ hn => absurd hn List.not_mem_nil⟩
  order := .nil

theorem kept_of_reaches
    (h : Reaches (step publisher partitioner config) (fun s e => s.commitsNext e = true) (initial start) s) :
    Kept publisher partitioner start s ∧ (config.commitMode = .afterProcess → NoGaps start s) ∧
    (config.commitMode = .beforeProcess → Increasing start s) := by
  refine h.invariant (P := fun s => Kept publisher partitioner start s ∧
    (config.commitMode = .afterProcess → NoGaps start s) ∧
    (config.commitMode = .beforeProcess → Increasing start s))
    ⟨kept_initial, fun _ => noGaps_initial, fun _ => increasing_initial⟩ ?_
  rintro s e t ⟨hkept, hafter, hbefore⟩ hok hstep
  cases moves_of_step hok hstep with
  | publish e record hlast hrecord htopic hkey hroutes =>
    exact ⟨hkept.publish hlast hrecord htopic hkey hroutes, fun hmode => (hafter hmode).publish hkept hlast,
      fun hmode => (hbefore hmode).publish hkept hlast⟩
  | consume place e r hr hcommits =>
    exact ⟨hkept.consume hr hcommits, fun hmode => (hafter hmode).consume hkept hmode hr hcommits,
      fun hmode => (hbefore hmode).consume hkept hmode hr hcommits⟩

/-- What is recorded is the event of a message. -/
theorem Kept.event_of_recorded (h : Kept publisher partitioner start s) {g : Handled} (hg : g ∈ s.history)
    (hevent : g.event.isSome = true) : ∃ e ∈ s.broker.entries, e.place = g.place ∧ e.offset = g.offset ∧
      g.event = some (.str e.payload.orderId, e.payload.eventType.value) := by
  obtain ⟨e, he, hplace, hoffset, hnone | hparsed⟩ := h.known g hg
  · simp [hnone] at hevent
  · refine ⟨e, he, hplace, hoffset, ?_⟩
    by_cases horder : e.payload.orderId = ""
    · have hrejected : parseEvent (.ok e.payload.stringify.parse) = none := by
        have hproperty : property "orderId" e.payload.stringify.parse = some (.str e.payload.orderId) := rfl
        have htype : property "eventType" e.payload.stringify.parse = some (.str e.payload.eventType.value) :=
          rfl
        simp [parseEvent, hproperty, htype, horder, JsValue.truthy]
      simp [hparsed, hrejected] at hevent
    · rw [hparsed, parseEvent_stringify horder]

/-- **One key, one order**: of two events of one type with one key, in the order in which the broker has
stored them. They are in one partition. Committing after the processing, a record of the second comes
behind the first's or behind its failure, where the group starts at the first or before it. Committing
before the processing, no record of the first comes behind one of the second, and none is doubled. What is
recorded is what was published. -/
theorem recorded_in_order (hdisable : publisher.config.disableKey = false)
    (h : Reaches (step publisher partitioner config) (fun s e => s.commitsNext e = true) (initial start) s)
    {a b : Entry} (hab : [a, b].Sublist s.broker.entries) (htype : a.payload.eventType = b.payload.eventType)
    (hkey : pickEventKey a.payload = pickEventKey b.payload) :
    a.place = b.place ∧
    (config.commitMode = .afterProcess → start a.place ≤ a.offset → ∀ j, s.RecordedAt b j →
      ∃ i < j, s.HandledAt a i) ∧
    (config.commitMode = .beforeProcess → ∀ j, s.RecordedAt b j → ∀ i,
      (s.RecordedAt a i → i < j) ∧ (s.RecordedAt b i → i = j)) ∧
    ∀ g ∈ s.history, g.event.isSome = true → ∃ e ∈ s.broker.entries, e.place = g.place ∧
      e.offset = g.offset ∧ g.event = some (.str e.payload.orderId, e.payload.eventType.value) := by
  obtain ⟨hkept, hafter, hbefore⟩ := kept_of_reaches h
  have ha : a ∈ s.broker.entries := hab.subset (by simp)
  have hb : b ∈ s.broker.entries := hab.subset (by simp)
  have hplace : a.place = b.place := by
    obtain ⟨htopic, key, hpick, hpartition⟩ := hkept.place_of_key hdisable ha
    obtain ⟨htopic', key', hpick', hpartition'⟩ := hkept.place_of_key hdisable hb
    have hsame : a.place.topic = b.place.topic := by
      rw [htype, htopic'] at htopic
      exact (Except.ok.inj htopic).symm
    have hsame' : key = key' := by
      rw [hkey, hpick'] at hpick
      exact (Except.ok.inj hpick).symm
    rw [hsame, hsame', ← hpartition'] at hpartition
    cases hp : a.place
    cases hq : b.place
    rw [hp, hq] at hsame hpartition
    rw [Place.mk.injEq]
    exact ⟨hsame, hpartition⟩
  have hlt : a.offset < b.offset := by
    have hsorted := s.broker.sorted.sublist hab
    exact (List.pairwise_cons.mp hsorted).1 b (List.mem_singleton_self b) hplace
  refine ⟨hplace, fun hmode hstart j hj => ?_, fun hmode j hj i => ⟨fun hi => ?_, fun hi => ?_⟩,
    fun g hg hevent => hkept.event_of_recorded hg hevent⟩
  · obtain ⟨g, hg, hgplace, hgoffset, hevent⟩ := hj
    exact (hafter hmode).order j g hg hevent a ha (hplace.trans hgplace.symm) hstart (hgoffset ▸ hlt)
  · rcases Nat.lt_trichotomy i j with hij | rfl | hji
    · exact hij
    · obtain ⟨f, hf, -, hfoffset, -⟩ := hi
      obtain ⟨g, hg, -, hgoffset, -⟩ := hj
      obtain rfl := Option.some.inj (hf.symm.trans hg)
      omega
    · have := (hbefore hmode).lt hplace.symm hj hi hji
      omega
  · rcases Nat.lt_trichotomy i j with hij | rfl | hji
    · exact absurd ((hbefore hmode).lt rfl hi hj hij) (Nat.lt_irrefl _)
    · rfl
    · exact absurd ((hbefore hmode).lt rfl hj hi hji) (Nat.lt_irrefl _)

/-- An event of an order with one item. -/
def oneItem (eventType : OrderEventType) : OrderEventPayload where
  eventType := eventType
  orderId := "o-1"
  userId := .ofString "u-1"
  amount := .finite 10
  items := [{ productId := "p-1", quantity := .finite 1, unitPrice := .finite 10 }]
  emittedAt := .epoch

/-- A connected publisher with keys. -/
def keyed : OrderPublisher where
  config := { acks := .finite (-1), disableKey := false }
  connected := true

/-- The `offset`th event that is published. -/
def published (offset : ℕ) : Entry where
  payload := oneItem .inventoryReserved
  key := some "p-1"
  place := { topic := "inventory.reserved", partition := 0 }
  offset := offset

/-- Two reservations of one product. -/
theorem recorded_in_order_of_two :
    ∃ s, Reaches (step keyed (fun _ _ => 0) {}) (fun s e => s.commitsNext e = true) (initial fun _ => 0) s ∧
      s.RecordedAt (published 1) 1 ∧ ∃ i < 1, s.HandledAt (published 0) i := by
  let place := (published 0).place
  obtain ⟨s, hs, hseen⟩ := exists_reaches_of_runEvents (s := initial fun _ => 0) (step keyed (fun _ _ => 0) {})
    (fun s e => s.commitsNext e = true)
    (fun s => (s.broker.entries, s.history.map fun h => (h.place, h.offset, h.event.isSome)))
    ([.publish (oneItem .inventoryReserved) 0 0, .publish (oneItem .inventoryReserved) 0 1] ++
      [.rejoin, .deliver, .eventStored, .processReturns, .commitStored, .commitReturns, .deliver,
        .eventStored].map (.consume place))
    ([published 0, published 1], [(place, 0, true), (place, 1, true)]) (by decide +kernel)
  obtain ⟨hentries, hhistory⟩ := Prod.mk.inj hseen
  have hrecorded : s.RecordedAt (published 1) 1 := by
    have hget : (s.history.map fun h => (h.place, h.offset, h.event.isSome))[1]? = some (place, 1, true) := by
      rw [hhistory]
      rfl
    rw [List.getElem?_map] at hget
    obtain ⟨h, hh, hparts⟩ := Option.map_eq_some_iff.mp hget
    simp only [Prod.mk.injEq] at hparts
    exact ⟨h, hh, hparts.1, hparts.2⟩
  have hboth : [published 0, published 1].Sublist s.broker.entries := hentries ▸ List.Sublist.refl _
  exact ⟨s, hs, hrecorded,
    (recorded_in_order rfl hs hboth rfl rfl).2.1 rfl (Nat.zero_le _) 1 hrecorded⟩

/-! ### Different types -/

variable (publisher) (partitioner) (config)

/-- A run that commits the next offset after each message. -/
abbrev Flows (publisher : OrderPublisher) (partitioner : String → String → ℕ) (config : ConsumerConfig) :
    OrderFlow → OrderFlow → Prop :=
  Reaches (step publisher partitioner config) fun s e => s.commitsNext e = true

theorem flows_consume {place : Place} {e : ConsumerEvent} {r : ConsumerRun}
    (hr : (s.runs place).step config (s.broker.log place) e = some r) (hok : (s.runs place).commitsNext e = true) :
    Flows publisher partitioner config s (s.goOn place r ((s.runs place).handled place e)) := by
  refine .single (e := .consume place e) hok ?_
  rw [step, hr]
  rfl

/-- A consumer goes on for some time without being done with a message. -/
theorem flows_quiet (place : Place) (es : List ConsumerEvent) (hquiet : ∀ e ∈ es, ∀ r : ConsumerRun, r.handled place e = [])
    {r : ConsumerRun}
    (hr : runEvents (ConsumerRun.step config (s.broker.log place)) (fun r e => r.commitsNext e = true)
      (s.runs place) es = some r) :
    ∃ t, Flows publisher partitioner config s t ∧ t.broker = s.broker ∧ t.history = s.history ∧
      t.runs place = r ∧ ∀ other ≠ place, t.runs other = s.runs other := by
  induction es generalizing s with
  | nil => exact ⟨s, .refl, rfl, rfl, Option.some.inj hr, fun _ _ => rfl⟩
  | cons e es ih =>
    simp only [runEvents] at hr
    split at hr
    · rename_i hok
      obtain ⟨u, hu, hr⟩ := Option.bind_eq_some_iff.mp hr
      have hnone := hquiet e List.mem_cons_self (s.runs place)
      have hfirst := flows_consume publisher partitioner config hu hok
      rw [hnone] at hfirst
      obtain ⟨t, ht, hbroker, hhistory, hruns, hothers⟩ :=
        ih (s := s.goOn place u []) (fun e he => hquiet e (List.mem_cons_of_mem _ he)) (by simpa using hr)
      refine ⟨t, hfirst.trans ht, hbroker, by simpa using hhistory, hruns, fun other hother => ?_⟩
      rw [hothers other hother, runs_goOn_of_ne s hother]
    · cases hr

/-- A consumer that takes over a partition with one message gets as far as processing it. -/
theorem exists_processing (config : ConsumerConfig) {log : PartitionLog} {m : Message} (hlog : log.messages = [m])
    (hm : m.offset = 0) :
    ∃ es r, (∀ e ∈ es, ∀ (place : Place) (r : ConsumerRun), r.handled place e = []) ∧
      runEvents (ConsumerRun.step config log) (fun r e => r.commitsNext e = true) (ConsumerRun.initial 0) es =
        some r ∧ r.phase = .processing m := by
  have hnext : log.nextFrom 0 = some m := by simp [PartitionLog.nextFrom, hlog]
  have hcommit : commitOffset m.offset = m.offset + 1 := by
    rw [hm]
    decide
  cases hmode : config.commitMode with
  | afterProcess =>
    refine ⟨[.rejoin, .deliver], { ConsumerRun.initial 0 with phase := .idle }.startProcessing m, ?_, ?_, rfl⟩
    · simp [ConsumerRun.handled]
    · simp [runEvents, ConsumerRun.step, ConsumerRun.initial, ConsumerRun.commitsNext, hnext, hmode]
  | beforeProcess =>
    refine ⟨[.rejoin, .deliver, .commitStored, .commitReturns],
      { ConsumerRun.initial (m.offset + 1) with phase := .committed m, position := 0 }.startProcessing m,
      ?_, ?_, rfl⟩
    · simp [ConsumerRun.handled]
    · simp [runEvents, ConsumerRun.step, ConsumerRun.initial, ConsumerRun.commitsNext, hnext, hmode, hcommit]

/-- The record of an event. -/
def eventOf (payload : OrderEventPayload) : Option (JsValue × String) :=
  some (.str payload.orderId, payload.eventType.value)

/-- The only message of a partition is recorded. -/
theorem flows_record {e : Entry} (hlog : (s.broker.log e.place).messages = [e.message]) (hoffset : e.offset = 0)
    (horder : e.payload.orderId ≠ "") (hruns : s.runs e.place = ConsumerRun.initial 0) :
    ∃ t, Flows publisher partitioner config s t ∧ t.broker = s.broker ∧
      t.history.map Handled.event = s.history.map Handled.event ++ [eventOf e.payload] ∧
      ∀ other ≠ e.place, t.runs other = s.runs other := by
  obtain ⟨es, r, hquiet, hr, hphase⟩ := exists_processing config hlog (by rw [Entry.message, hoffset])
  obtain ⟨t, ht, hbroker, hhistory, htruns, hothers⟩ := flows_quiet publisher partitioner config e.place es
    (fun e' he r => hquiet e' he e.place r) (hruns ▸ hr)
  have hvalue : e.message.value.bind parseEvent = eventOf e.payload := parseEvent_stringify horder
  have hreadable : e.message.readable = true := by rw [Message.readable, hvalue]; rfl
  have hstep : (t.runs e.place).step config (t.broker.log e.place) .eventStored =
      some { r with phase := .recorded e.message, store := r.store ++ [e.message.offset] } := by
    rw [htruns]
    simp only [ConsumerRun.step, hphase, hreadable, if_true]
  refine ⟨_, ht.trans (flows_consume publisher partitioner config hstep rfl), hbroker, ?_, fun other hother => ?_⟩
  · rw [history_goOn, hhistory, htruns, ConsumerRun.handled, hphase, List.map_append, List.map_singleton, hvalue]
  · rw [runs_goOn_of_ne t hother, hothers other hother]

/-- Messages of different partitions are recorded in any order. -/
theorem flows_records (todo : List Entry)
    (htodo : ∀ e ∈ todo, (s.broker.log e.place).messages = [e.message] ∧ e.offset = 0 ∧
      e.payload.orderId ≠ "" ∧ s.runs e.place = ConsumerRun.initial 0)
    (hplaces : (todo.map Entry.place).Nodup) :
    ∃ t, Flows publisher partitioner config s t ∧ t.broker = s.broker ∧
      t.history.map Handled.event =
        s.history.map Handled.event ++ todo.map fun e => eventOf e.payload := by
  induction todo generalizing s with
  | nil => exact ⟨s, .refl, rfl, by simp⟩
  | cons e todo ih =>
    obtain ⟨hlog, hoffset, horder, hruns⟩ := htodo e List.mem_cons_self
    obtain ⟨t, ht, hbroker, hhistory, hothers⟩ :=
      flows_record publisher partitioner config hlog hoffset horder hruns
    rw [List.map_cons, List.nodup_cons] at hplaces
    have htodo' : ∀ a ∈ todo, (t.broker.log a.place).messages = [a.message] ∧ a.offset = 0 ∧
        a.payload.orderId ≠ "" ∧ t.runs a.place = ConsumerRun.initial 0 := by
      intro a ha
      obtain ⟨halog, haoffset, haorder, haruns⟩ := htodo a (List.mem_cons_of_mem _ ha)
      have hne : a.place ≠ e.place := fun h => hplaces.1 (h ▸ List.mem_map_of_mem ha)
      exact ⟨hbroker ▸ halog, haoffset, haorder, (hothers a.place hne).trans haruns⟩
    obtain ⟨u, hu, hbroker', hhistory'⟩ := ih htodo' hplaces.2
    refine ⟨u, ht.trans hu, hbroker'.trans hbroker, ?_⟩
    rw [hhistory', hhistory, List.map_cons, List.append_assoc, List.singleton_append]

theorem eventType_of_value {a b : OrderEventType} (h : a.value = b.value) : a = b := by
  cases a <;> cases b <;> first | rfl | exact absurd h (by decide)

/-- The partition for a key, and some partition without one. -/
def somePartition (partitioner : String → String → ℕ) (topic : String) : Option String → ℕ
  | some key => partitioner topic key
  | none => 0

/-- Events of different types are published. -/
theorem flows_publish (hconnected : publisher.connected = true) (payloads : List OrderEventPayload)
    (htypes : (payloads.map OrderEventPayload.eventType).Nodup)
    (hkeys : ∀ p ∈ payloads, ∃ key, publisher.messageKey p = .ok key) :
    ∃ s, Flows publisher partitioner config (initial fun _ => 0) s ∧
      s.broker.entries.map Entry.payload = payloads ∧ s.history = [] ∧
      (∀ place, s.runs place = ConsumerRun.initial 0) ∧
      ∀ e ∈ s.broker.entries, e.offset = 0 ∧ topicFor e.payload.eventType = .ok e.place.topic := by
  induction payloads using List.reverseRecOn with
  | nil => exact ⟨_, .refl, rfl, rfl, fun _ => rfl, fun _ he => absurd he List.not_mem_nil⟩
  | append_singleton payloads p ih =>
    rw [List.map_append, List.nodup_append'] at htypes
    obtain ⟨s, hs, hpayloads, hhistory, hruns, hentries⟩ :=
      ih htypes.1 fun q hq => hkeys q (List.mem_append_left _ hq)
    obtain ⟨record, hrecord⟩ := OrderPublisher.producerRecord_isOk p hconnected (hkeys p (by simp))
    obtain ⟨htopic, -⟩ := parts_of_producerRecord hrecord
    let e : Entry :=
      { payload := p, key := record.key, offset := 0
        place := { topic := record.topic, partition := somePartition partitioner record.topic record.key } }
    have hnew : ∀ a ∈ s.broker.entries, a.place ≠ e.place := by
      intro a ha hplace
      have htype : a.payload.eventType = p.eventType := by
        have ha' := (hentries a ha).2
        rw [hplace] at ha'
        rw [topicFor_eq] at ha' htopic
        exact eventType_of_value (Except.ok.inj (ha'.trans htopic.symm))
      refine List.disjoint_left.mp htypes.2.2 (List.mem_map_of_mem (hpayloads ▸ List.mem_map_of_mem ha)) ?_
      simp [htype]
    have hlast : ∀ a ∈ s.broker.entries, a.place = e.place → a.offset < e.offset :=
      fun a ha hplace => absurd hplace (hnew a ha)
    have hroutes : routes partitioner e.place e.key = true := by
      change routes partitioner { topic := record.topic, partition := somePartition partitioner record.topic record.key }
        record.key = true
      cases record.key <;> simp [routes, somePartition]
    have hstep : step publisher partitioner config s (.publish p e.place.partition 0) =
        some { s with broker := s.broker.append e hlast } := by
      simp only [step, hrecord]
      rw [dif_pos hlast, if_pos hroutes]
    refine ⟨_, hs.next _ rfl hstep, ?_, hhistory, hruns, fun a ha => ?_⟩
    · simp [Broker.append, hpayloads, e]
    · rcases List.mem_append.mp ha with ha | ha
      · exact hentries a ha
      · obtain rfl := List.mem_singleton.mp ha
        exact ⟨rfl, htopic⟩

/-- Without a second message at its offset, a message is alone in its partition. -/
theorem log_of_offsets {b : Broker} (h : ∀ a ∈ b.entries, a.offset = 0) {e : Entry} (he : e ∈ b.entries) :
    (b.log e.place).messages = [e.message] := by
  have hmem := log_mem he
  have hsorted := (b.log e.place).sorted
  have hzero : ∀ m ∈ (b.log e.place).messages, m.offset = 0 := by
    intro m hm
    obtain ⟨a, ha, -, rfl⟩ := mem_log hm
    exact h a ha
  generalize (b.log e.place).messages = messages at hmem hsorted hzero
  match messages with
  | [] => cases hmem
  | [m] => rw [List.mem_singleton.mp hmem]
  | m :: n :: rest =>
    have hlt := (List.pairwise_cons.mp hsorted).1 n List.mem_cons_self
    have hn := hzero n (List.mem_cons_of_mem _ List.mem_cons_self)
    omega

/-- **Different types, any order**: whatever the keys, the partitioner and the commit mode, events of
different types are recorded in every order, among them the events of one order that were published one
after the other. -/
theorem recorded_in_any_order (hconnected : publisher.connected = true) {payloads wanted : List OrderEventPayload}
    (htypes : (payloads.map OrderEventPayload.eventType).Nodup)
    (hread : ∀ p ∈ payloads, p.orderId ≠ "" ∧ ∃ key, publisher.messageKey p = .ok key)
    (hwanted : wanted.Perm payloads) :
    ∃ s, Reaches (step publisher partitioner config) (fun s e => s.commitsNext e = true) (initial fun _ => 0) s ∧
      s.broker.entries.map Entry.payload = payloads ∧
      s.history.map Handled.event = wanted.map fun p => some (.str p.orderId, p.eventType.value) := by
  obtain ⟨s, hs, hpayloads, hhistory, hruns, hentries⟩ :=
    flows_publish publisher partitioner config hconnected payloads htypes fun p hp => (hread p hp).2
  obtain ⟨todo, rfl, htodo⟩ : ∃ todo : List Entry, wanted = todo.map Entry.payload ∧ todo.Perm s.broker.entries := by
    have hcomp := congrFun (congrFun (List.eq_map_comp_perm Entry.payload) wanted) s.broker.entries
    rw [← hpayloads] at hwanted
    exact hcomp.mpr hwanted
  have hzero : ∀ a ∈ s.broker.entries, a.offset = 0 := fun a ha => (hentries a ha).1
  have hplaces : (s.broker.entries.map Entry.place).Nodup := by
    refine List.pairwise_map.mpr (s.broker.sorted.imp_of_mem fun {a b} ha hb hlt hplace => ?_)
    have := hlt hplace
    rw [hzero a ha, hzero b hb] at this
    exact absurd this (Nat.lt_irrefl _)
  obtain ⟨t, ht, hbroker, hevents⟩ := flows_records publisher partitioner config todo
    (fun e he => ⟨log_of_offsets hzero (htodo.subset he), hzero e (htodo.subset he),
      (hread e.payload (hpayloads ▸ List.mem_map_of_mem (htodo.subset he))).1, hruns e.place⟩)
    ((htodo.map Entry.place).nodup_iff.mpr hplaces)
  refine ⟨t, hs.trans ht, hbroker ▸ hpayloads, ?_⟩
  rw [hevents, hhistory, List.map_map]
  rfl

/-- The shipment of an order is recorded before its payment. -/
theorem recorded_in_any_order_of_reversal :
    ∃ s, Reaches (step keyed (fun _ _ => 0) {}) (fun s e => s.commitsNext e = true) (initial fun _ => 0) s ∧
      s.broker.entries.map Entry.payload = [oneItem .paymentApproved, oneItem .shipmentStarted] ∧
      s.history.map Handled.event =
        [some (.str "o-1", "shipments.started"), some (.str "o-1", "payments.approved")] :=
  recorded_in_any_order keyed (fun _ _ => 0) {} rfl (by decide)
    (fun p hp => by
      rcases List.mem_cons.mp hp with rfl | hp
      · exact ⟨by decide, _, rfl⟩
      · obtain rfl := List.mem_singleton.mp hp
        exact ⟨by decide, _, rfl⟩)
    (.swap (oneItem .paymentApproved) (oneItem .shipmentStarted) [])

end OrderFlow

end BulkTraffic.Orders
