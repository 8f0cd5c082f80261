import BulkTraffic.Js.Json
import BulkTraffic.Lib.Utf16

/-!
# Order events

The types of `order-events.ts`: orders, the events of an order, and the record that is kept
of an event that was consumed.

A time is what `Date.now()` returns, a JavaScript time value. The user of an order comes from the
body of a request, which nothing checks: it need not be a string, and a string need not be a text.
-/

namespace BulkTraffic.Orders

open BulkTraffic.Js BulkTraffic.Lib

/-- What `Date.now()` returns: whole milliseconds within the range of JavaScript's time values. -/
structure TimeValue where
  /-- Milliseconds since the epoch. -/
  ms : ℤ
  /-- A time value is at most `8.64e15` away from the epoch. -/
  bounded : -8640000000000000 ≤ ms ∧ ms ≤ 8640000000000000
  deriving DecidableEq

/-- The epoch. -/
def TimeValue.epoch : TimeValue := ⟨0, by decide⟩

/-- `OrderEventType`. -/
inductive OrderEventType where
  | created
  | inventoryReserved
  | paymentApproved
  | shipmentStarted
  deriving DecidableEq

/-- The text an event type stands for. -/
def OrderEventType.value : OrderEventType → String
  | created => "orders.created"
  | inventoryReserved => "inventory.reserved"
  | paymentApproved => "payments.approved"
  | shipmentStarted => "shipments.started"

/-- `OrderItem`. Its product is given as UTF-8 has it, in a key or a column. -/
structure OrderItem where
  productId : String
  quantity : Number
  unitPrice : Number
  deriving DecidableEq

/-- What a request can have as its `userId`. -/
inductive UserId where
  /-- A string. -/
  | text (units : Utf16.Units)
  | number (value : Number)
  | bool (value : Bool)
  | array (items : List Json)
  | object (members : List (String × Json))
  deriving DecidableEq

/-- A text as a user. -/
def UserId.ofString (s : String) : UserId := .text (Utf16.encode s)

/-- Is it a string, with every surrogate in a pair? -/
def UserId.isText : UserId → Bool
  | .text units => Utf16.paired units
  | _ => false

/-- `OrderStatus`. -/
inductive OrderStatus where
  | created
  | inventoryReserved
  | paymentApproved
  | shipped
  | failed
  deriving DecidableEq

/-- `Order`. -/
structure Order where
  orderId : String
  userId : UserId
  amount : Number
  items : List OrderItem
  status : OrderStatus
  createdAt : TimeValue
  updatedAt : TimeValue
  deriving DecidableEq

/-- `OrderEventPayload`, the body of an event. -/
structure OrderEventPayload where
  eventType : OrderEventType
  orderId : String
  userId : UserId
  amount : Number
  items : List OrderItem
  emittedAt : TimeValue
  deriving DecidableEq

/-- `OrderEventRecord`, what is kept of an event that was consumed. -/
structure OrderEventRecord where
  orderId : String
  eventType : OrderEventType
  topic : String
  partition : ℤ
  offset : String
  consumerId : String
  consumedAt : TimeValue
  deriving DecidableEq

end BulkTraffic.Orders
