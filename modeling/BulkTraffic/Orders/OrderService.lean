import BulkTraffic.Orders.MemoryDispatcher
import BulkTraffic.Orders.Publisher
import BulkTraffic.Orders.Store

/-!
# The order service

`OrderService` with the dispatcher that publishes to Kafka: an order is created and saved, its
creation is published, and later the other steps of its life. Each call is run to its end; what
the clock, the random numbers and the broker give is a parameter.

* `createOrder_order`: the order that is returned is `newOrder`.
* `dispatchLifecycle_sent`: what is published later are the payloads of the order as it is found.
-/

namespace BulkTraffic.Orders

open BulkTraffic.Js

/-- `CreateOrderInput`. -/
structure CreateOrderInput where
  userId : Option UserId := none
  items : Option (List OrderItem) := none

/-- What `createOrder` is given besides its input. -/
structure Draws where
  /-- `randomUUID()`. -/
  uuid : String
  /-- `Math.floor(Math.random() * 1000)`. -/
  user : ℕ
  /-- `Date.now()`. -/
  now : TimeValue
  /-- `Date.now()` where the event is made. -/
  emittedAt : TimeValue
  /-- What the broker answers. -/
  answer : Except String RecordMetadata
  /-- What `better-sqlite3` keeps of a user that is no string. -/
  bound : Except String String :=
    .error "SQLite3 can only bind numbers, strings, bigints, buffers, and null"

/-- What a step of `dispatchLifecycle` is given. -/
structure StepDraws where
  /-- `Date.now()` where the event is made. -/
  emittedAt : TimeValue
  /-- What the broker answers. -/
  answer : Except String RecordMetadata
  /-- `Date.now()` where the status is updated. -/
  updatedAt : TimeValue

/-- `CreateOrderResult`. -/
structure CreateOrderResult where
  order : Order
  dispatch : DispatchResult

/-- `LifecycleStep`. -/
structure LifecycleStep where
  eventType : OrderEventType
  destination : String
  partition : Option ℕ
  offset : Option String
  key : Option String
  deriving DecidableEq

/-- `LifecycleResult`. -/
structure LifecycleResult where
  orderId : String
  steps : List LifecycleStep

/-- `statusAfter(eventType)`. -/
def statusAfter : OrderEventType → OrderStatus
  | .created => .created
  | .inventoryReserved => .inventoryReserved
  | .paymentApproved => .paymentApproved
  | .shipmentStarted => .shipped

/-- `LIFECYCLE_EVENT_TYPES`. -/
def lifecycleEventTypes : List OrderEventType :=
  [.inventoryReserved, .paymentApproved, .shipmentStarted]

/-- `DEFAULT_ITEM`. -/
def defaultItem : OrderItem where
  productId := "prod-default"
  quantity := .finite 1
  unitPrice := .finite 10000

/-- `input.items?.length ? input.items : [DEFAULT_ITEM]`. -/
def CreateOrderInput.orderItems (input : CreateOrderInput) : List OrderItem :=
  match input.items with
  | some (item :: items) => item :: items
  | _ => [defaultItem]

/-- The sum over the items, in the order in which it is added up. -/
def orderAmount (items : List OrderItem) : Number :=
  items.foldl (fun sum item => sum.add (item.quantity.mul item.unitPrice)) (.finite 0)

/-- The order `createOrder` makes. -/
def newOrder (input : CreateOrderInput) (draws : Draws) : Order where
  orderId := "ord-" ++ draws.uuid
  userId := input.userId.getD (.ofString ("user-" ++ Nat.repr draws.user))
  amount := orderAmount input.orderItems
  items := input.orderItems
  status := .created
  createdAt := draws.now
  updatedAt := draws.now

/-- `toPayload(order, eventType)`. -/
def Order.toPayload (order : Order) (eventType : OrderEventType) (emittedAt : TimeValue) :
    OrderEventPayload where
  eventType := eventType
  orderId := order.orderId
  userId := order.userId
  amount := order.amount
  items := order.items
  emittedAt := emittedAt

/-- `OrderService`. -/
structure OrderService where
  store : SqliteOrderStore := {}
  publisher : OrderPublisher

namespace OrderService

/-- `dispatcher.dispatch(payload)` of `KafkaOrderDispatcher`. -/
def dispatch (s : OrderService) (payload : OrderEventPayload)
    (answer : Except String RecordMetadata) : OrderService × Except String DispatchResult :=
  let (publisher, result) := s.publisher.publish payload answer
  ({ s with publisher := publisher }, result.map fun result =>
    { destination := result.topic
      partition := some result.partition
      offset := some result.offset
      key := result.key })

/-- `createOrder(input)`. -/
def createOrder (s : OrderService) (input : CreateOrderInput) (draws : Draws) :
    OrderService × Except String CreateOrderResult :=
  let order := newOrder input draws
  match s.store.saveOrder draws.bound order with
  | .error error => (s, .error error)
  | .ok store =>
    let (s, dispatched) :=
      { s with store := store }.dispatch (order.toPayload .created draws.emittedAt) draws.answer
    (s, dispatched.map fun dispatched => { order := order, dispatch := dispatched })

/-- The loop of `dispatchLifecycle`. -/
def lifecycleLoop (order : Order) (draws : OrderEventType → StepDraws) :
    OrderService → List OrderEventType → OrderService × Except String (List LifecycleStep)
  | s, [] => (s, .ok [])
  | s, eventType :: rest =>
    let step := draws eventType
    let (s, dispatched) := s.dispatch (order.toPayload eventType step.emittedAt) step.answer
    match dispatched with
    | .error error => (s, .error error)
    | .ok dispatched =>
      match s.store.updateStatus order.orderId (statusAfter eventType) step.updatedAt with
      | .error error => (s, .error error)
      | .ok store =>
        let (s, steps) := lifecycleLoop order draws { s with store := store } rest
        (s, steps.map fun steps =>
          { eventType := eventType
            destination := dispatched.destination
            partition := dispatched.partition
            offset := dispatched.offset
            key := dispatched.key } :: steps)

/-- `dispatchLifecycle(orderId)`. -/
def dispatchLifecycle (s : OrderService) (orderId : String) (draws : OrderEventType → StepDraws) :
    OrderService × Except String LifecycleResult :=
  match s.store.findOrder orderId with
  | none => (s, .error ("주문을 찾을 수 없습니다: " ++ orderId))
  | some order =>
    let (s, steps) := lifecycleLoop order draws s lifecycleEventTypes
    (s, steps.map fun steps => { orderId := orderId, steps := steps })

end OrderService

/-! ### What is published -/

/-- An order has an item. -/
theorem CreateOrderInput.orderItems_ne_nil (input : CreateOrderInput) : input.orderItems ≠ [] := by
  unfold orderItems
  split
  · exact List.cons_ne_nil _ _
  · exact List.cons_ne_nil _ _

/-- The identifier of an order is not empty. -/
theorem newOrder_orderId_ne_empty (input : CreateOrderInput) (draws : Draws) :
    (newOrder input draws).orderId ≠ "" := by
  intro h
  have hlist := congrArg String.toList h
  rw [newOrder, String.toList_append] at hlist
  exact List.cons_ne_nil _ _ hlist

namespace OrderService

variable {s s' : OrderService} {input : CreateOrderInput} {draws : Draws}

/-- `dispatch` fails before anything is handed over, or hands over the record of the payload. -/
theorem dispatch_cases (s : OrderService) (payload : OrderEventPayload)
    (answer : Except String RecordMetadata) :
    (∃ error, s.dispatch payload answer = (s, .error error)) ∨
      ∃ record, s.publisher.producerRecord payload = .ok record ∧
        (s.dispatch payload answer).1 =
          { s with publisher := { s.publisher with sent := s.publisher.sent ++ [record] } } := by
  cases hrecord : s.publisher.producerRecord payload with
  | error error =>
    refine .inl ⟨error, ?_⟩
    simp only [dispatch, OrderPublisher.publish, hrecord]
    rfl
  | ok record =>
    refine .inr ⟨record, rfl, ?_⟩
    simp only [dispatch, OrderPublisher.publish, hrecord]

/-- An order is created if it can be saved, the publisher is connected and the broker answers. -/
theorem createOrder_isOk (s : OrderService) (input : CreateOrderInput) (draws : Draws)
    {metadata : RecordMetadata} {userId : String} (hconnected : s.publisher.connected = true)
    (huser : SqliteOrderStore.userColumn draws.bound (newOrder input draws).userId = .ok userId)
    (hnew : s.store.findOrder (newOrder input draws).orderId = none)
    (hamount : (newOrder input draws).amount ≠ .nan) (hanswer : draws.answer = .ok metadata) :
    ∃ s' created, s.createOrder input draws = (s', .ok created) := by
  obtain ⟨record, hrecord⟩ := OrderPublisher.producerRecord_isOk
    ((newOrder input draws).toPayload .created draws.emittedAt) hconnected
    (s.publisher.messageKey_isOk input.orderItems_ne_nil)
  have hsaved : s.store.saveOrder draws.bound (newOrder input draws) = .ok { s.store with
      orders := s.store.orders ++ [SqliteOrderStore.rowOf (newOrder input draws) userId] } := by
    have hany : (s.store.orders.any fun row =>
        row.orderId == (newOrder input draws).orderId) = false := by
      simpa [SqliteOrderStore.findOrder] using hnew
    simp only [SqliteOrderStore.saveOrder, huser, if_neg hamount, hany]
    rfl
  simp only [createOrder, hsaved, dispatch, OrderPublisher.publish, hrecord, hanswer]
  exact ⟨_, _, rfl⟩

/-- **The order that is returned is the new order**, saved, by a connected publisher. -/
theorem createOrder_order {created : CreateOrderResult}
    (h : s.createOrder input draws = (s', .ok created)) :
    created.order = newOrder input draws ∧ s'.publisher.connected = true ∧
      ∃ userId, s'.store.findOrder created.order.orderId =
        some (SqliteOrderStore.rowOf created.order userId) := by
  simp only [createOrder] at h
  cases hsaved : s.store.saveOrder draws.bound (newOrder input draws) with
  | error error =>
    rw [hsaved] at h
    cases h
  | ok store =>
    rw [hsaved] at h
    obtain ⟨hs, hresult⟩ := Prod.mk.inj h
    rcases dispatch_cases { s with store := store }
      ((newOrder input draws).toPayload .created draws.emittedAt) draws.answer with
      ⟨error, hd⟩ | ⟨record, hrecord, hd⟩
    · rw [hd] at hresult
      cases hresult
    · have horder : created.order = newOrder input draws := by
        generalize (OrderService.dispatch _ _ _).2 = dispatched at hresult
        cases dispatched with
        | error error => cases hresult
        | ok dispatched => cases hresult; rfl
      rw [hd] at hs
      obtain rfl := hs
      refine ⟨horder, (OrderPublisher.producerRecord_value hrecord).1, ?_⟩
      rw [horder]
      exact SqliteOrderStore.findOrder_saveOrder hsaved

/-- What `dispatch` hands over is the record of the payload, if any. -/
theorem mem_dispatch_sent {payload : OrderEventPayload} {answer : Except String RecordMetadata}
    {record : ProducerRecord} (h : record ∈ (s.dispatch payload answer).1.publisher.sent) :
    record ∈ s.publisher.sent ∨ record.value = payload.stringify := by
  rcases dispatch_cases s payload answer with ⟨error, hd⟩ | ⟨sent, hsent, hd⟩
  · rw [hd] at h
    exact .inl h
  · rw [hd] at h
    rcases List.mem_append.mp h with hold | hnew
    · exact .inl hold
    · obtain rfl := List.mem_singleton.mp hnew
      exact .inr (OrderPublisher.producerRecord_value hsent).2

theorem mem_lifecycleLoop_sent {order : Order} {draws : OrderEventType → StepDraws}
    {record : ProducerRecord} {eventTypes : List OrderEventType}
    (h : record ∈ (lifecycleLoop order draws s eventTypes).1.publisher.sent) :
    record ∈ s.publisher.sent ∨
      ∃ eventType emittedAt, record.value = (order.toPayload eventType emittedAt).stringify := by
  induction eventTypes generalizing s with
  | nil => exact .inl h
  | cons eventType rest ih =>
    have hsent : ∀ {t : OrderService},
        t = (s.dispatch (order.toPayload eventType (draws eventType).emittedAt)
          (draws eventType).answer).1 → record ∈ t.publisher.sent →
        record ∈ s.publisher.sent ∨
          ∃ eventType emittedAt, record.value = (order.toPayload eventType emittedAt).stringify := by
      rintro t rfl hmem
      exact (mem_dispatch_sent hmem).imp_right fun hvalue => ⟨_, _, hvalue⟩
    unfold lifecycleLoop at h
    dsimp only at h
    split at h
    · exact hsent rfl h
    · split at h
      · exact hsent rfl h
      · rcases ih h with hmem | hlater
        · exact hsent rfl hmem
        · exact .inr hlater

/-- **What `dispatchLifecycle` publishes are payloads of the order it finds.** -/
theorem dispatchLifecycle_sent {orderId : String} {draws : OrderEventType → StepDraws}
    {record : ProducerRecord}
    (h : record ∈ (s.dispatchLifecycle orderId draws).1.publisher.sent) :
    record ∈ s.publisher.sent ∨ ∃ order eventType emittedAt,
      s.store.findOrder orderId = some order ∧
        record.value = (order.toPayload eventType emittedAt).stringify := by
  unfold dispatchLifecycle at h
  split at h
  · exact .inl h
  · rename_i order hfound
    rcases mem_lifecycleLoop_sent h with hold | ⟨eventType, emittedAt, hvalue⟩
    · exact .inl hold
    · exact .inr ⟨order, eventType, emittedAt, hfound, hvalue⟩

end OrderService

end BulkTraffic.Orders
