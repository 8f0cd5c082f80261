import BulkTraffic.Lib.GroupBy
import BulkTraffic.Orders.Events

/-!
# The order store

`SqliteOrderStore`: the tables `orders` and `order_events` as lists of rows in the order in
which they were inserted, and the queries on them, written with the grouping of
`Lib.GroupBy`. Texts hold no NUL. SQL leaves the order of rows open where `ORDER BY` does not
decide it; here they stand in the order of the table.

The counts are numbers of rows, far below `2 ^ 53`, so they are naturals. A row of `orders`
is kept as the order it is read back as; the column `items` holds JSON, which gives back every
finite number, and the column `user_id` holds UTF-8. What the driver makes of a user that is no
string is a parameter.
-/

namespace BulkTraffic.Orders

open BulkTraffic.Lib BulkTraffic.Js

/-- `DuplicateEventSummary`. -/
structure DuplicateEventSummary where
  orderId : String
  eventType : OrderEventType
  count : ℕ
  deriving DecidableEq

/-- `GroupConsumptionSummary`. -/
structure GroupConsumptionSummary where
  groupId : String
  count : ℕ
  consumers : ℕ
  deriving DecidableEq

/-- The two tables. -/
structure SqliteOrderStore where
  orders : List Order := []
  orderEvents : List OrderEventRecord := []

namespace SqliteOrderStore

/-- What the column `user_id` gets. `bound` is the text that the driver keeps of a user that is no
string, or its error. -/
def userColumn (bound : Except String String) : UserId → Except String String
  | .text units => .ok (Utf16.toWellFormed units)
  | _ => bound

/-- The order as it is read back from its row. -/
def rowOf (order : Order) (userId : String) : Order := { order with userId := .ofString userId }

/-- `saveOrder(order)`. SQLite keeps `NaN` as `NULL`. -/
def saveOrder (s : SqliteOrderStore) (bound : Except String String) (order : Order) :
    Except String SqliteOrderStore :=
  match userColumn bound order.userId with
  | .error error => .error error
  | .ok userId =>
    if order.amount = .nan then .error "NOT NULL constraint failed: orders.amount"
    else if s.orders.any fun row => row.orderId == order.orderId then
      .error "UNIQUE constraint failed: orders.order_id"
    else .ok { s with orders := s.orders ++ [rowOf order userId] }

/-- `findOrder(orderId)`. -/
def findOrder (s : SqliteOrderStore) (orderId : String) : Option Order :=
  s.orders.find? fun row => row.orderId == orderId

/-- `updateStatus(orderId, status)`, at the time `now`. -/
def updateStatus (s : SqliteOrderStore) (orderId : String) (status : OrderStatus)
    (now : TimeValue) : Except String SqliteOrderStore :=
  if s.orders.any fun row => row.orderId == orderId then
    .ok { s with
      orders := s.orders.map fun row =>
        if row.orderId = orderId then { row with status := status, updatedAt := now } else row }
  else .error ("주문을 찾을 수 없어 상태를 바꾸지 못했습니다: " ++ orderId)

/-- `recordEvent(record)`. -/
def recordEvent (s : SqliteOrderStore) (record : OrderEventRecord) : SqliteOrderStore :=
  { s with orderEvents := s.orderEvents ++ [record] }

/-- The columns `order_id, event_type`. -/
def eventKey (record : OrderEventRecord) : String × OrderEventType :=
  (record.orderId, record.eventType)

/-- `ORDER BY cnt DESC`. -/
def orderByCount {α : Type} (count : α → ℕ) (rows : List α) : List α :=
  rows.insertionSort fun a b => count b ≤ count a

/-- `findDuplicates()`. -/
def findDuplicates (s : SqliteOrderStore) : List DuplicateEventSummary :=
  let rows := groupBy eventKey s.orderEvents fun key members =>
    { orderId := key.1, eventType := key.2, count := members.length : DuplicateEventSummary }
  orderByCount DuplicateEventSummary.count (rows.filter fun row => 1 < row.count)

/-- `instr(text, c)`: where the character stands, from `1` on, or `0`. -/
def instr (text : List Char) (c : Char) : ℕ :=
  match text.findIdx? fun a => a == c with
  | some i => i + 1
  | none => 0

/-- The column `group_id`: the part before the first `/`, or all where there is none. -/
def groupIdOf (consumerId : String) : String :=
  let text := consumerId.toList
  if 0 < instr text '/' then String.ofList (text.take (instr text '/' - 1)) else consumerId

/-- `countByGroup()`. -/
def countByGroup (s : SqliteOrderStore) : List GroupConsumptionSummary :=
  orderByCount GroupConsumptionSummary.count
    (groupBy (fun record => groupIdOf record.consumerId) s.orderEvents fun groupId members =>
      { groupId := groupId
        count := members.length
        consumers := (members.map OrderEventRecord.consumerId).dedup.length })

/-- `countOrders()`. -/
def countOrders (s : SqliteOrderStore) : ℕ := s.orders.length

/-- `countEvents()`. -/
def countEvents (s : SqliteOrderStore) : ℕ := s.orderEvents.length

/-- `reset()`. -/
def reset (_ : SqliteOrderStore) : SqliteOrderStore := {}

/-- An order that was saved is found, as it is read back. -/
theorem findOrder_saveOrder {s s' : SqliteOrderStore} {bound : Except String String} {order : Order}
    (h : s.saveOrder bound order = .ok s') :
    ∃ userId, s'.findOrder order.orderId = some (rowOf order userId) := by
  unfold saveOrder at h
  split at h
  · cases h
  · rename_i userId _
    split at h
    · cases h
    · split at h
      · cases h
      · rename_i hnew
        cases h
        have hnone : s.orders.find? (fun row => row.orderId == order.orderId) = none := by
          simpa using hnew
        exact ⟨userId, by simp [findOrder, List.find?_append, hnone, rowOf]⟩

/-- A status is updated if the order is there, and changes no other order. -/
theorem findOrder_updateStatus {s s' : SqliteOrderStore} {orderId : String} {status : OrderStatus}
    {now : TimeValue} (h : s.updateStatus orderId status now = .ok s') (id : String) :
    s'.findOrder id = (s.findOrder id).map fun row =>
      if row.orderId = orderId then { row with status := status, updatedAt := now } else row := by
  unfold updateStatus at h
  split at h
  · cases h
    rw [findOrder, findOrder, List.find?_map]
    congr 2
    funext row
    dsimp only [Function.comp]
    split <;> rfl
  · cases h

theorem orderId_of_findOrder {s : SqliteOrderStore} {id : String} {order : Order}
    (h : s.findOrder id = some order) : order.orderId = id := by
  simpa using List.find?_some h

/-- Ordering rows neither adds nor drops any. -/
theorem orderByCount_perm {α : Type} (count : α → ℕ) (rows : List α) :
    (orderByCount count rows).Perm rows :=
  List.perm_insertionSort _ rows

@[simp] theorem mem_orderByCount {α : Type} {count : α → ℕ} {rows : List α} {a : α} :
    a ∈ orderByCount count rows ↔ a ∈ rows :=
  (orderByCount_perm count rows).mem_iff

end SqliteOrderStore

end BulkTraffic.Orders
