import BulkTraffic.Js.Value
import BulkTraffic.Lib.Runs
import BulkTraffic.Lib.Weight

/-!
# The order consumer

`OrderConsumer` on one partition, with the broker and the crashes.

`handleMessage` stops at every `await`; `Phase` says at which one it is. A process can die at
each of them, and `crashAfter` makes a consumer leave the group on its own; another consumer
then reads on from the committed position. The broker delivers the messages of the partition
in order, and stores a committed position at once.

An offset is a natural number here and a decimal text in the source. `commit` converts it to
a JavaScript number, adds `1` and prints the sum (`commitOffset`).

`started` and `crashes` are no fields of the source. They record for which offsets `process`
was called, and which message was in flight at each crash.
-/

namespace BulkTraffic.Orders

open BulkTraffic.Lib BulkTraffic.Js

/-- `CommitMode`. -/
inductive CommitMode where
  | afterProcess
  | beforeProcess
  deriving DecidableEq

/-- The settings `handleMessage` reads. -/
structure ConsumerConfig where
  commitMode : CommitMode := .afterProcess
  commitDelayMs : ℕ := 0
  crashAfter : ℕ := 0

/-- The values of `OrderEventType`. -/
def orderEventTypes : List String :=
  ["orders.created", "inventory.reserved", "payments.approved", "shipments.started"]

/-- A message: its offset and its body, what `JSON.parse` makes of it or the error it throws. -/
structure Message where
  offset : ℕ
  value : Option (Except String JsValue)

/-- A partition: messages with increasing offsets, perhaps with gaps. -/
structure PartitionLog where
  messages : List Message
  sorted : messages.Pairwise fun a b => a.offset < b.offset

/-- The first message at a position or after it. -/
def PartitionLog.nextFrom (log : PartitionLog) (position : ℕ) : Option Message :=
  log.messages.find? fun m => position ≤ m.offset

/-- A property of a parsed body; reading one of `null` throws. -/
def property (name : String) : JsValue → Option JsValue
  | .undefined | .null => none
  | .obj fields => some (Record.field fields name)
  | _ => some .undefined

/-- `parseEvent(..)`: the order and the type of the event, `none` where it throws. -/
def parseEvent : Except String JsValue → Option (JsValue × String)
  | .error _ => none
  | .ok parsed => do
    let orderId ← property "orderId" parsed
    let eventType ← property "eventType" parsed
    if !orderId.truthy || !eventType.truthy then none
    else match eventType with
      | .str s => if orderEventTypes.contains s then some (orderId, s) else none
      | _ => none

/-- Does `process` get as far as `recordEvent`? -/
def Message.readable (m : Message) : Bool := (m.value.bind parseEvent).isSome

/-- `(Number(offset) + 1).toString()`. -/
def commitOffset (offset : ℕ) : ℕ := shortestDecimal (roundNat (roundNat offset + 1))

/-- Where `handleMessage` is. -/
inductive Phase where
  /-- No consumer reads the partition. -/
  | down
  /-- A consumer waits for the next message. -/
  | idle
  /-- `commit` has been called. -/
  | committing (m : Message)
  /-- The broker has stored the position, and `commit` has not returned. -/
  | committed (m : Message)
  /-- `process` has been called. -/
  | processing (m : Message)
  /-- The event has been recorded, and `process` has not returned. -/
  | recorded (m : Message)
  /-- The delay before the commit. -/
  | delaying (m : Message)
  /-- `leaveWithoutCommit` has been called. -/
  | leaving (m : Message)

/-- The message in flight. -/
def Phase.inFlight : Phase → Option ℕ
  | down | idle => none
  | committing m | committed m | processing m | recorded m | delaying m | leaving m => some m.offset

/-- A partition being consumed. -/
structure ConsumerRun where
  /-- The position the broker has stored. -/
  committed : ℕ
  /-- The next offset the consumer reads. -/
  position : ℕ
  phase : Phase := .down
  /-- `stats.processed`. -/
  processed : ℕ := 0
  /-- `stats.failed`. -/
  failed : ℕ := 0
  /-- The offsets of the events recorded in the store. -/
  store : List ℕ := []
  /-- The offsets counted as failed. -/
  failures : List ℕ := []
  /-- The offsets for which `process` was called. -/
  started : List ℕ := []
  /-- For each crash the message in flight. -/
  crashes : List (Option ℕ) := []

/-- What can happen. -/
inductive ConsumerEvent where
  /-- A message is delivered. -/
  | deliver
  /-- The broker stores the committed position. -/
  | commitStored
  /-- `commit` returns. -/
  | commitReturns
  /-- `recordEvent` stores the event. -/
  | eventStored
  /-- `process` returns. -/
  | processReturns
  /-- `process` throws. -/
  | processThrows
  /-- The delay before the commit ends. -/
  | delayEnds
  /-- The consumer has left the group. -/
  | disconnected
  /-- A message of another partition is processed. -/
  | processedElsewhere
  /-- The process dies. -/
  | crash
  /-- A consumer is given the partition. -/
  | rejoin

namespace ConsumerRun

/-- The message is processed: recorded in the store or counted as failed. -/
def Completed (s : ConsumerRun) (offset : ℕ) : Prop := offset ∈ s.store ∨ offset ∈ s.failures

/-- How often `process` was called for a message. -/
def starts (s : ConsumerRun) (offset : ℕ) : ℕ := s.started.count offset

/-- At how many crashes a message was in flight. -/
def crashesWith (s : ConsumerRun) (offset : ℕ) : ℕ := s.crashes.count (some offset)

/-- `process` is called. -/
def startProcessing (s : ConsumerRun) (m : Message) : ConsumerRun :=
  { s with phase := .processing m, started := s.started ++ [m.offset] }

/-- `handleMessage` returns. -/
def finishMessage (s : ConsumerRun) (m : Message) : ConsumerRun :=
  { s with phase := .idle, position := m.offset + 1 }

/-- `handleMessage` after the `try` statement. -/
def afterProcessing (config : ConsumerConfig) (s : ConsumerRun) (m : Message) : ConsumerRun :=
  if 0 < config.crashAfter && config.crashAfter ≤ s.processed then { s with phase := .leaving m }
  else match config.commitMode with
    | .beforeProcess => s.finishMessage m
    | .afterProcess =>
      if 0 < config.commitDelayMs then { s with phase := .delaying m }
      else { s with phase := .committing m }

/-- The consumer is gone. -/
def goDown (s : ConsumerRun) : ConsumerRun :=
  { s with phase := .down, crashes := s.crashes ++ [s.phase.inFlight] }

/-- One event. -/
def step (config : ConsumerConfig) (log : PartitionLog) (s : ConsumerRun) :
    ConsumerEvent → Option ConsumerRun
  | .deliver =>
    match s.phase, log.nextFrom s.position with
    | .idle, some m =>
      some (match config.commitMode with
        | .beforeProcess => { s with phase := .committing m }
        | .afterProcess => s.startProcessing m)
    | _, _ => none
  | .commitStored =>
    match s.phase with
    | .committing m => some { s with phase := .committed m, committed := commitOffset m.offset }
    | _ => none
  | .commitReturns =>
    match s.phase with
    | .committed m =>
      some (match config.commitMode with
        | .beforeProcess => s.startProcessing m
        | .afterProcess => s.finishMessage m)
    | _ => none
  | .eventStored =>
    match s.phase with
    | .processing m =>
      if m.readable then some { s with phase := .recorded m, store := s.store ++ [m.offset] } else none
    | _ => none
  | .processReturns =>
    match s.phase with
    | .recorded m => some ({ s with processed := s.processed + 1 }.afterProcessing config m)
    | _ => none
  | .processThrows =>
    match s.phase with
    | .processing m | .recorded m =>
      some ({ s with failed := s.failed + 1, failures := s.failures ++ [m.offset] }.afterProcessing
        config m)
    | _ => none
  | .delayEnds =>
    match s.phase with
    | .delaying m => some { s with phase := .committing m }
    | _ => none
  | .disconnected =>
    match s.phase with
    | .leaving _ => some s.goDown
    | _ => none
  | .processedElsewhere =>
    match s.phase with
    | .idle => some { s with processed := s.processed + 1 }
    | _ => none
  | .crash =>
    match s.phase with
    | .down => none
    | _ => some s.goDown
  | .rejoin =>
    match s.phase with
    | .down => some { s with phase := .idle, position := s.committed, processed := 0, failed := 0 }
    | _ => none

/-- A partition that nobody reads yet, with its committed position. -/
def initial (start : ℕ) : ConsumerRun := { committed := start, position := start }

end ConsumerRun

end BulkTraffic.Orders
