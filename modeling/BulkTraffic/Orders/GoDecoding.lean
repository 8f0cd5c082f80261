import BulkTraffic.GoEngine.Consumer
import BulkTraffic.Orders.Consumer
import BulkTraffic.Orders.OrderService

/-!
# Reading the events of Node in Go

The events of an order are published by `OrderPublisher` and read by the consumer of Node with
`parseEvent` and by the consumer of Go with `process`. The amount is a JavaScript number in Node
and an `int64` in Go. The user is whatever the request had in Node and a text in Go.

* `parseEvent_newOrder`: Node reads every event of every order.
* `decodesInGo_iff`: Go reads what was written exactly when the amount is an integer that fits
  and is printed with all of its digits, and the user is a text.
* `goRejects_of_fraction`: Go rejects every amount that is no integer.
-/

namespace BulkTraffic.Orders

open BulkTraffic.Js BulkTraffic.GoEngine.Consumer BulkTraffic.Lib

/-- What Go has read is what the payload says. -/
structure SameEvent (event : OrderEvent) (payload : OrderEventPayload) : Prop where
  eventType : event.eventType = payload.eventType.value
  orderId : event.orderId = payload.orderId
  userId : payload.userId = .ofString event.userId
  amount : Number.finite event.amount.toInt = payload.amount
  emittedAt : event.emittedAt.toInt = payload.emittedAt.ms

/-- Node reads the body of a message. -/
def NodeAccepts (value : Json) : Prop := (parseEvent (.ok value.parse)).isSome

/-- Go reads the body of a message. -/
def GoAccepts (value : Json) : Prop := ∃ event, process (some (.ok value)) = .ok event

/-- Go reads in the body of a message what the payload says, and all that Node reads. -/
def DecodesInGo (value : Json) (payload : OrderEventPayload) : Prop :=
  (∃ event, process (some (.ok value)) = .ok event ∧ SameEvent event payload) ∧
    (NodeAccepts value → GoAccepts value)

/-- An integer of 63 bits, printed with all of its digits. -/
def FitsInt64 (amount : Number) : Prop :=
  ∃ z : ℤ, amount = .finite z ∧ z.natAbs < 2 ^ 63 ∧ shortestDecimal z.natAbs = z.natAbs

/-- Up to `2 ^ 53` all digits are printed. -/
theorem fitsInt64_of_le {z : ℤ} (h : z.natAbs ≤ 2 ^ 53) : FitsInt64 (.finite z) :=
  ⟨z, rfl, by omega, shortestDecimal_of_le h⟩

/-! ### The amount -/

/-- An integer that fits is read from its text. -/
theorem parseInt64_of_fits {z : ℤ} (h : z.natAbs < 2 ^ 63)
    (hdigits : shortestDecimal z.natAbs = z.natAbs) :
    parseInt64 (numberText (.finite z)) = some (Int64.ofInt z) := by
  have hvalue : (if z < 0 then -(z.natAbs : ℤ) else z.natAbs) = z := by
    split <;> omega
  rw [parseInt64_numberText (by omega), hdigits, hvalue, toInt64?_eq h]

theorem toInt_ofInt {z : ℤ} (h : z.natAbs < 2 ^ 63) : (Int64.ofInt z).toInt = z :=
  Int64.toInt_ofInt_of_le (by omega) (by omega)

/-- What is read from the text of a number is that number only if it fits. -/
theorem fits_of_parseInt64 {q : ℚ} {n : Int64} (h : parseInt64 (numberText (.finite q)) = some n)
    (hn : (n.toInt : ℚ) = q) : FitsInt64 (.finite q) := by
  obtain ⟨z, rfl⟩ : ∃ z : ℤ, (z : ℚ) = q := ⟨_, hn⟩
  have hz : n.toInt = z := Int.cast_injective hn
  have hlow : -2 ^ 63 ≤ z := hz ▸ n.le_toInt
  have hhigh : z < 2 ^ 63 := hz ▸ n.toInt_lt
  rw [parseInt64_numberText (by omega)] at h
  obtain ⟨hvalue, hfits, -⟩ := toInt_of_toInt64? h
  have hdigits : shortestDecimal z.natAbs = z.natAbs := by
    split at hvalue <;> omega
  refine ⟨z, rfl, ?_, hdigits⟩
  -- the text of `-2 ^ 63` is rounded beyond the range
  have hmin : z.natAbs ≠ 2 ^ 63 := by
    intro heq
    rw [heq] at hdigits
    exact absurd hdigits (by decide +kernel)
  omega

/-- The amount is read as it was written exactly when it fits. -/
theorem decodeInt64_ofNumber_iff (field : String) (amount : Number) :
    (∃ n, decodeInt64 field 0 (.ofNumber amount) = .ok n ∧ .finite n.toInt = amount) ↔
      FitsInt64 amount := by
  constructor
  · rintro ⟨n, hn, rfl⟩
    have hparse : parseInt64 (numberText (.finite n.toInt)) = some n := by
      simp only [Json.ofNumber, decodeInt64] at hn
      split at hn
      · rename_i m hm
        cases hn
        exact hm
      · cases hn
    exact fits_of_parseInt64 hparse rfl
  · rintro ⟨z, rfl, hz, hdigits⟩
    refine ⟨Int64.ofInt z, ?_, by rw [toInt_ofInt hz]⟩
    simp only [Json.ofNumber, decodeInt64, parseInt64_of_fits hz hdigits]

/-! ### The user -/

/-- The user is read as it was written exactly when it is a text. -/
theorem decodeString_stringify_iff (field : String) (userId : UserId) :
    (∃ s, decodeString field "" userId.stringify = .ok s ∧ userId = .ofString s) ↔
      userId.isText = true := by
  constructor
  · rintro ⟨s, -, rfl⟩
    exact Utf16.paired_encode s
  · intro htext
    cases userId with
    | text units =>
      exact ⟨_, rfl, congrArg UserId.text (Utf16.encode_toWellFormed htext).symm⟩
    | number value | bool value | array items | object members => cases htext

/-! ### The body -/

/-- What Go reads of the user and the amount, which alone can be refused. -/
def readUserAmount (payload : OrderEventPayload) : Except String (String × Int64) := do
  let userId ← decodeString "userId" "" payload.userId.stringify
  let amount ← decodeInt64 "amount" 0 (.ofNumber payload.amount)
  return (userId, amount)

/-- The event Go reads in a payload whose user and amount it reads so. -/
def goEvent (payload : OrderEventPayload) (read : String × Int64) : OrderEvent where
  eventType := payload.eventType.value
  orderId := payload.orderId
  userId := read.1
  amount := read.2
  emittedAt := Int64.ofInt payload.emittedAt.ms

theorem decodeInt64_emittedAt (field : String) (time : TimeValue) :
    decodeInt64 field 0 (.ofNumber (.finite time.ms)) = .ok (Int64.ofInt time.ms) := by
  have hbounded := time.bounded
  have hparse := parseInt64_of_fits (z := time.ms) (by omega) (shortestDecimal_of_le (by omega))
  simp only [Json.ofNumber, decodeInt64, hparse]

/-- A payload is decoded into its event, unless its user or its amount is not. -/
theorem unmarshal_stringify (payload : OrderEventPayload) :
    unmarshal payload.stringify = (readUserAmount payload).map (goEvent payload) := by
  have heventType : structField "eventType" = some .eventType := by decide +kernel
  have horderId : structField "orderId" = some .orderId := by decide +kernel
  have huserId : structField "userId" = some .userId := by decide +kernel
  have hamount : structField "amount" = some .amount := by decide +kernel
  have hitems : structField "items" = none := by decide +kernel
  have hemittedAt : structField "emittedAt" = some .emittedAt := by decide +kernel
  simp only [unmarshal, OrderEventPayload.stringify, List.foldlM_cons, List.foldlM_nil,
    decodeMember, heventType, horderId, huserId, hamount, hitems, hemittedAt]
  have hstr : ∀ (field old s : String), decodeString field old (.str s) = .ok s := fun _ _ _ => rfl
  rw [readUserAmount]
  cases huser : decodeString "userId" "" payload.userId.stringify with
  | error error => simp only [hstr, Except.map, bind, Except.bind, huser]
  | ok userId =>
    cases hread : decodeInt64 "amount" 0 (.ofNumber payload.amount) with
    | error error => simp only [hstr, Except.map, bind, Except.bind, huser, hread]
    | ok n =>
      simp only [hstr, Except.map, bind, Except.bind, huser, hread, decodeInt64_emittedAt]
      rfl

/-- The event of a payload passes the checks. -/
theorem checkEvent_goEvent {payload : OrderEventPayload} (h : payload.orderId ≠ "")
    (read : String × Int64) : checkEvent (goEvent payload read) = .ok (goEvent payload read) := by
  have htype : payload.eventType.value ≠ "" ∧
      knownEventTypes.contains payload.eventType.value = true := by
    cases payload.eventType <;> decide
  unfold checkEvent goEvent
  dsimp only
  rw [if_neg (by simp [h, htype.1]), htype.2]
  rfl

theorem process_of_ok {payload : OrderEventPayload} (h : payload.orderId ≠ "") {read : String × Int64}
    (hread : readUserAmount payload = .ok read) :
    process (some (.ok payload.stringify)) = .ok (goEvent payload read) := by
  simp only [process, Except.bind, unmarshal_stringify, hread, Except.map]
  exact checkEvent_goEvent h read

theorem process_of_error {payload : OrderEventPayload} {error : String}
    (hread : readUserAmount payload = .error error) :
    process (some (.ok payload.stringify)) = .error ("본문을 읽지 못했습니다: " ++ error) := by
  simp only [process, Except.bind, unmarshal_stringify, hread, Except.map]

/-- The user and the amount are read where each is. -/
theorem readUserAmount_ok_iff {payload : OrderEventPayload} {read : String × Int64} :
    readUserAmount payload = .ok read ↔
      decodeString "userId" "" payload.userId.stringify = .ok read.1 ∧
        decodeInt64 "amount" 0 (.ofNumber payload.amount) = .ok read.2 := by
  unfold readUserAmount
  cases decodeString "userId" "" payload.userId.stringify with
  | error error => exact ⟨nofun, nofun⟩
  | ok userId =>
    cases decodeInt64 "amount" 0 (.ofNumber payload.amount) with
    | error error => exact ⟨nofun, nofun⟩
    | ok amount =>
      simp only [bind, Except.bind, pure, Except.pure, Except.ok.injEq, Prod.ext_iff]

/-- Go reads a payload as it was written exactly when the amount fits and the user is a text. -/
theorem sameEvent_iff (payload : OrderEventPayload) (h : payload.orderId ≠ "") :
    (∃ event, process (some (.ok payload.stringify)) = .ok event ∧ SameEvent event payload) ↔
      FitsInt64 payload.amount ∧ payload.userId.isText = true := by
  rw [← decodeInt64_ofNumber_iff "amount", ← decodeString_stringify_iff "userId"]
  constructor
  · rintro ⟨event, hevent, hsame⟩
    cases hread : readUserAmount payload with
    | error error =>
      rw [process_of_error hread] at hevent
      cases hevent
    | ok read =>
      rw [process_of_ok h hread] at hevent
      cases hevent
      obtain ⟨huser, hamount⟩ := readUserAmount_ok_iff.mp hread
      exact ⟨⟨read.2, hamount, hsame.amount⟩, read.1, huser, hsame.userId⟩
  · rintro ⟨⟨amount, hamount, hvalue⟩, userId, huser, htext⟩
    have hread : readUserAmount payload = .ok (userId, amount) :=
      readUserAmount_ok_iff.mpr ⟨huser, hamount⟩
    refine ⟨goEvent payload (userId, amount), process_of_ok h hread, rfl, rfl, htext, hvalue, ?_⟩
    have hbounded := payload.emittedAt.bounded
    exact toInt_ofInt (by omega)

/-- Node reads every payload that names its order. -/
theorem parseEvent_stringify {payload : OrderEventPayload} (h : payload.orderId ≠ "") :
    parseEvent (.ok payload.stringify.parse) =
      some (.str payload.orderId, payload.eventType.value) := by
  have htype : (JsValue.str payload.eventType.value).truthy = true ∧
      orderEventTypes.contains payload.eventType.value = true := by
    cases payload.eventType <;> decide
  have horder : (JsValue.str payload.orderId).truthy = true := by
    simpa [JsValue.truthy] using h
  have hfields : property "orderId" payload.stringify.parse = some (.str payload.orderId) ∧
      property "eventType" payload.stringify.parse = some (.str payload.eventType.value) :=
    ⟨rfl, rfl⟩
  simp only [parseEvent, hfields, Option.bind_eq_bind, Option.bind_some, horder, htype]
  rfl

/-! ### The events of an order -/

/-- **Node reads every event of every order.** -/
theorem parseEvent_newOrder (input : CreateOrderInput) (draws : Draws) (eventType : OrderEventType)
    (emittedAt : TimeValue) :
    parseEvent (.ok ((newOrder input draws).toPayload eventType emittedAt).stringify.parse) =
      some (.str (newOrder input draws).orderId, eventType.value) :=
  parseEvent_stringify (newOrder_orderId_ne_empty input draws)

/-- **Go rejects every amount that is no integer**, which Node accepts. -/
theorem goRejects_of_fraction {payload : OrderEventPayload} {q : ℚ}
    (hamount : payload.amount = .finite q) (hq : q.den ≠ 1) :
    ¬ GoAccepts payload.stringify := by
  rintro ⟨event, hevent⟩
  have hnone : decodeInt64 "amount" 0 (.ofNumber payload.amount) =
      .error (typeError ("number " ++ numberText (.finite q)) "amount" "int64") := by
    simp only [hamount, Json.ofNumber, decodeInt64, parseInt64_fraction hq]
  cases hread : readUserAmount payload with
  | error error =>
    rw [process_of_error hread] at hevent
    cases hevent
  | ok read =>
    rw [(readUserAmount_ok_iff.mp hread).2] at hnone
    cases hnone

/-- The user of a new order is a text, if the request has none or a text. -/
theorem isText_newOrder_iff (input : CreateOrderInput) (draws : Draws) :
    (newOrder input draws).userId.isText = true ↔ ∀ userId ∈ input.userId, userId.isText = true := by
  simp only [newOrder]
  cases input.userId with
  | none =>
    exact ⟨fun _ _ hmem => absurd hmem (Option.not_mem_none _), fun _ => Utf16.paired_encode _⟩
  | some userId => simp

/-- An event of an order that names it is read as it was written exactly when its amount fits and
its user is a text. -/
theorem decodesInGo_toPayload_iff {order : Order} (h : order.orderId ≠ "")
    (eventType : OrderEventType) (emittedAt : TimeValue) :
    DecodesInGo (order.toPayload eventType emittedAt).stringify (order.toPayload eventType emittedAt) ↔
      FitsInt64 order.amount ∧ order.userId.isText = true := by
  have hsame := sameEvent_iff (order.toPayload eventType emittedAt) h
  constructor
  · rintro ⟨hgo, -⟩
    exact hsame.mp hgo
  · intro hfits
    obtain ⟨event, hevent, hgo⟩ := hsame.mpr hfits
    exact ⟨⟨event, hevent, hgo⟩, fun _ => ⟨event, hevent⟩⟩

/-- What is published later for an order that was created has the user that the store gives back,
and is read as it was written exactly when the total of the items fits. -/
theorem dispatchLifecycle_decodesInGo_iff {s s' : OrderService} {input : CreateOrderInput}
    {draws : Draws} {created : CreateOrderResult}
    (h : s.createOrder input draws = (s', .ok created)) (later : OrderEventType → StepDraws)
    {record : ProducerRecord} (hsent : record ∈
      (s'.dispatchLifecycle created.order.orderId later).1.publisher.sent) :
    record ∈ s'.publisher.sent ∨ ∃ order eventType emittedAt,
      s'.store.findOrder created.order.orderId = some order ∧
      record.value = (order.toPayload eventType emittedAt).stringify ∧
        (DecodesInGo record.value (order.toPayload eventType emittedAt) ↔
          FitsInt64 (orderAmount input.orderItems)) := by
  obtain ⟨horder, -, userId, hfound⟩ := OrderService.createOrder_order h
  rcases OrderService.dispatchLifecycle_sent hsent with
    hold | ⟨order, eventType, emittedAt, hfind, hvalue⟩
  · exact .inl hold
  · refine .inr ⟨order, eventType, emittedAt, hfind, hvalue, ?_⟩
    rw [hfound] at hfind
    obtain rfl := Option.some.inj hfind
    have hname : (SqliteOrderStore.rowOf created.order userId).orderId ≠ "" := by
      rw [horder]
      exact newOrder_orderId_ne_empty input draws
    rw [hvalue, decodesInGo_toPayload_iff hname, horder]
    exact and_iff_left (Utf16.paired_encode userId)

/-- **Go reads an event of an order as Node wrote it exactly when the total of its items fits** and
the request names no user or a text as its user. -/
theorem decodesInGo_iff {s s' : OrderService} {input : CreateOrderInput} {draws : Draws}
    {created : CreateOrderResult} (h : s.createOrder input draws = (s', .ok created))
    (eventType : OrderEventType) (emittedAt : TimeValue) :
    ∃ record, s'.publisher.producerRecord (created.order.toPayload eventType emittedAt) =
        .ok record ∧
      (DecodesInGo record.value (created.order.toPayload eventType emittedAt) ↔
        FitsInt64 (orderAmount input.orderItems) ∧
          ∀ userId ∈ input.userId, userId.isText = true) := by
  obtain ⟨horder, hconnected, -⟩ := OrderService.createOrder_order h
  rw [horder]
  obtain ⟨record, hrecord⟩ := OrderPublisher.producerRecord_isOk
    ((newOrder input draws).toPayload eventType emittedAt) hconnected
    (s'.publisher.messageKey_isOk input.orderItems_ne_nil)
  refine ⟨record, hrecord, ?_⟩
  rw [(OrderPublisher.producerRecord_value hrecord).2,
    decodesInGo_toPayload_iff (newOrder_orderId_ne_empty input draws), isText_newOrder_iff]
  rfl

/-- A service with a connected publisher. -/
def connectedService : OrderService where
  publisher := { config := { acks := .finite (-1), disableKey := false }, connected := true }

/-- What a first call of `createOrder` is given. -/
def firstDraws : Draws where
  uuid := "1"
  user := 7
  now := .epoch
  emittedAt := .epoch
  answer := .ok { topicName := "orders.created", partition := 0, baseOffset := some "0" }

/-- An order without items costs the price of the default item, which fits. -/
theorem decodesInGo_default :
    ∃ s created, connectedService.createOrder {} firstDraws = (s, .ok created) ∧
      ∃ record, s.publisher.producerRecord (created.order.toPayload .shipmentStarted .epoch) =
          .ok record ∧
        DecodesInGo record.value (created.order.toPayload .shipmentStarted .epoch) := by
  have hamount : (newOrder {} firstDraws).amount = .finite (10000 : ℤ) := by
    decide +kernel
  obtain ⟨s, created, h⟩ := OrderService.createOrder_isOk connectedService {} firstDraws
    rfl rfl rfl (by rw [hamount]; exact Number.noConfusion) rfl
  obtain ⟨record, hrecord, hiff⟩ := decodesInGo_iff h .shipmentStarted .epoch
  refine ⟨s, created, h, record, hrecord, hiff.mpr ⟨?_, fun userId huser => by cases huser⟩⟩
  change FitsInt64 (newOrder {} firstDraws).amount
  rw [hamount]
  exact fitsInt64_of_le (by decide)

/-- One item for half a unit of the currency. -/
def halfPriced : CreateOrderInput where
  items := some [{ productId := "prod-1", quantity := .finite 1, unitPrice := .finite (1 / 2) }]

/-- The events of an order for half a unit are read by Node and not by Go. -/
theorem halfPriced_not_decodesInGo :
    ∃ s created, connectedService.createOrder halfPriced firstDraws = (s, .ok created) ∧
      ∃ record, s.publisher.producerRecord (created.order.toPayload .created .epoch) = .ok record ∧
        NodeAccepts record.value ∧ ¬ GoAccepts record.value ∧
        ¬ DecodesInGo record.value (created.order.toPayload .created .epoch) := by
  have hamount : (newOrder halfPriced firstDraws).amount = .finite (1 / 2) := by decide +kernel
  obtain ⟨s, created, h⟩ := OrderService.createOrder_isOk connectedService halfPriced
    firstDraws rfl rfl rfl (by rw [hamount]; exact Number.noConfusion) rfl
  obtain ⟨horder, hconnected, -⟩ := OrderService.createOrder_order h
  obtain ⟨record, hrecord⟩ := OrderPublisher.producerRecord_isOk
    (created.order.toPayload .created .epoch) hconnected
    (s.publisher.messageKey_isOk (by rw [horder]; exact halfPriced.orderItems_ne_nil))
  have hvalue := (OrderPublisher.producerRecord_value hrecord).2
  have hnode : NodeAccepts record.value := by
    rw [hvalue, horder, NodeAccepts, parseEvent_newOrder]
    rfl
  have hgo : ¬ GoAccepts record.value := by
    rw [hvalue, horder]
    exact goRejects_of_fraction (q := 1 / 2) hamount (by decide +kernel)
  refine ⟨s, created, h, record, hrecord, hnode, hgo, ?_⟩
  rintro ⟨-, himp⟩
  exact hgo (himp hnode)

end BulkTraffic.Orders
