import BulkTraffic.Js.Json
import BulkTraffic.Orders.Events

/-!
# The order publisher

`OrderPublisher` and the functions of `order-events.ts` it calls. The broker answers
`producer.send`; its answer is a parameter.

`sent` is no field of the source: the records that were handed to the producer, in order.
-/

namespace BulkTraffic.Orders

open BulkTraffic.Js BulkTraffic.Lib

/-! ### Topic and key -/

/-- `ORDER_TOPICS`. -/
def orderTopics : OrderEventType → String
  | .created => "orders.created"
  | .inventoryReserved => "inventory.reserved"
  | .paymentApproved => "payments.approved"
  | .shipmentStarted => "shipments.started"

/-- `topicFor(eventType)`. -/
def topicFor (eventType : OrderEventType) : Except String String :=
  let topic := orderTopics eventType
  if topic = "" then .error ("토픽이 정의되지 않은 이벤트 종류입니다: " ++ eventType.value)
  else .ok topic

/-- `pickEventKey(payload)`. -/
def pickEventKey (payload : OrderEventPayload) : Except String String :=
  match payload.eventType with
  | .inventoryReserved =>
    match payload.items with
    | [] => .error ("재고 이벤트에 품목이 없습니다. orderId=" ++ payload.orderId ++ ". " ++
        "품목 없이 발행하면 파티션 배정 근거가 사라져 순서 보장이 깨집니다.")
    | firstItem :: _ => .ok firstItem.productId
  | _ => .ok payload.orderId

/-! ### The body of a message -/

/-- `JSON.stringify(item)`. -/
def OrderItem.stringify (item : OrderItem) : Json :=
  .obj [("productId", .str item.productId), ("quantity", .ofNumber item.quantity),
    ("unitPrice", .ofNumber item.unitPrice)]

/-- A user in a body. `JSON.stringify` escapes a surrogate without a partner, and Go reads the escape
as `U+FFFD`; the consumer of Node does not look at the user. -/
def UserId.stringify : UserId → Json
  | .text units => .str (Utf16.toWellFormed units)
  | .number value => .ofNumber value
  | .bool value => .bool value
  | .array items => .arr items
  | .object members => .obj members

/-- `JSON.stringify(payload)`. -/
def OrderEventPayload.stringify (payload : OrderEventPayload) : Json :=
  .obj [("eventType", .str payload.eventType.value), ("orderId", .str payload.orderId),
    ("userId", payload.userId.stringify), ("amount", .ofNumber payload.amount),
    ("items", .arr (payload.items.map OrderItem.stringify)),
    ("emittedAt", .ofNumber (.finite payload.emittedAt.ms))]

/-! ### Publishing -/

/-- The settings `publish` reads. -/
structure OrderPublisherConfig where
  acks : Number
  disableKey : Bool
  deriving DecidableEq

/-- What is handed to `producer.send`: one message. -/
structure ProducerRecord where
  topic : String
  acks : Number
  key : Option String
  value : Json

/-- What the broker answers. -/
structure RecordMetadata where
  topicName : String
  partition : ℕ
  baseOffset : Option String
  deriving DecidableEq

/-- `PublishResult`. -/
structure PublishResult where
  topic : String
  partition : ℕ
  offset : String
  key : Option String
  deriving DecidableEq

/-- `OrderPublisher`. -/
structure OrderPublisher where
  config : OrderPublisherConfig
  connected : Bool
  sent : List ProducerRecord := []

namespace OrderPublisher

/-- The key of the message. -/
def messageKey (p : OrderPublisher) (payload : OrderEventPayload) :
    Except String (Option String) :=
  if p.config.disableKey then .ok none else (pickEventKey payload).map some

/-- The record `publish` hands to the producer, or the error it throws before. -/
def producerRecord (p : OrderPublisher) (payload : OrderEventPayload) :
    Except String ProducerRecord :=
  if !p.connected then
    .error "주문 이벤트 프로듀서가 연결되지 않았습니다. 카프카 기동 상태와 설정을 확인하세요."
  else do
    let topic ← topicFor payload.eventType
    let key ← p.messageKey payload
    return { topic := topic, acks := p.config.acks, key := key, value := payload.stringify }

/-- `publish(payload)`. -/
def publish (p : OrderPublisher) (payload : OrderEventPayload)
    (answer : Except String RecordMetadata) : OrderPublisher × Except String PublishResult :=
  match p.producerRecord payload with
  | .error error => (p, .error error)
  | .ok sent =>
    ({ p with sent := p.sent ++ [sent] },
      answer.map fun record =>
        { topic := record.topicName
          partition := record.partition
          offset := record.baseOffset.getD "undefined"
          key := sent.key })

end OrderPublisher

/-- Every event type has a topic. -/
theorem topicFor_eq (eventType : OrderEventType) : topicFor eventType = .ok eventType.value := by
  cases eventType <;> rfl

/-- A payload with an item has a key. -/
theorem pickEventKey_isOk {payload : OrderEventPayload} (h : payload.items ≠ []) :
    ∃ key, pickEventKey payload = .ok key := by
  obtain ⟨item, items, hitems⟩ := List.exists_cons_of_ne_nil h
  unfold pickEventKey
  cases payload.eventType with
  | inventoryReserved => exact ⟨item.productId, by simp only [hitems]⟩
  | created => exact ⟨_, rfl⟩
  | paymentApproved => exact ⟨_, rfl⟩
  | shipmentStarted => exact ⟨_, rfl⟩

namespace OrderPublisher

variable {p : OrderPublisher} {payload : OrderEventPayload}

/-- A payload with an item has a message key. -/
theorem messageKey_isOk (p : OrderPublisher) (h : payload.items ≠ []) :
    ∃ key, p.messageKey payload = .ok key := by
  obtain ⟨key, hpick⟩ := pickEventKey_isOk h
  unfold messageKey
  split
  · exact ⟨none, rfl⟩
  · exact ⟨some key, by rw [hpick]; rfl⟩

/-- A connected publisher hands over every payload that has a message key. -/
theorem producerRecord_isOk (payload : OrderEventPayload) (hp : p.connected = true)
    (h : ∃ key, p.messageKey payload = .ok key) :
    ∃ record, p.producerRecord payload = .ok record := by
  obtain ⟨key, hkey⟩ := h
  unfold producerRecord
  rw [hp, topicFor_eq, hkey]
  exact ⟨_, rfl⟩

/-- What is handed over, by a connected publisher, has the text of the payload as its body. -/
theorem producerRecord_value {record : ProducerRecord} (h : p.producerRecord payload = .ok record) :
    p.connected = true ∧ record.value = payload.stringify := by
  unfold producerRecord at h
  rw [topicFor_eq] at h
  split at h
  · cases h
  · rename_i hconnected
    refine ⟨by simpa using hconnected, ?_⟩
    cases hkey : p.messageKey payload with
    | error e =>
      rw [hkey] at h
      cases h
    | ok key =>
      rw [hkey] at h
      cases h
      rfl

end OrderPublisher

end BulkTraffic.Orders
