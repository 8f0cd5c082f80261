import BulkTraffic.Http.Analyzer
import BulkTraffic.Queue.Conservation

/-!
# The queue middleware

`QueueMiddleware.use` for one request, next to the queue it is put into. All that other
requests do is part of the queue's events.

`use` runs up to its `await` in one go (`arrive`) and from there when the promise of
`enqueue` is settled (`resume`). `executeQueuedRequest` runs when the queue executes the
task. The rest of the program, which `next()` calls, may answer at any time from then on;
before that nobody but the middleware can.
-/

namespace BulkTraffic.Http

open BulkTraffic.Lib BulkTraffic.Js BulkTraffic.Queue

/-- A response the middleware sends: `res.status(status).send({ error, message })`. -/
structure HttpResponse where
  status : ℕ
  error : String
  message : String

/-- How far `use` has got. -/
inductive Phase where
  /-- `use` has not been called yet. -/
  | arriving
  /-- It awaits the promise of `enqueue`. -/
  | awaiting
  /-- Its promise is settled. -/
  | settled
  deriving DecidableEq

/-- How far `executeQueuedRequest` has got. -/
inductive Execution where
  | idle
  /-- `next()` has been called, the listeners and the timer are set. -/
  | running
  /-- The variable `settled` is true. -/
  | settled
  deriving DecidableEq

/-- A request on its way through the middleware. -/
structure Exchange where
  decision : RequestRoutingDecision
  /-- `ALLOW_CUSTOM_WORKLOAD === 'true'`. -/
  allowCustomWorkload : Bool
  phase : Phase := .arriving
  execution : Execution := .idle
  /-- What `enqueue` has returned: an error, or a promise for the task with this `id`. -/
  enqueued : Option (Except Thrown ℕ) := none
  /-- The `responded` flag in the `RequestStateStore`, where the request is registered. -/
  requestState : Option Bool := none
  /-- `res.headersSent`. -/
  headersSent : Bool := false
  /-- How often `next` has been called. -/
  nextCalls : ℕ := 0
  /-- What the middleware has sent. -/
  sent : List HttpResponse := []

namespace Exchange

/-- `requestState.markResponded(requestId)`. -/
def markResponded (x : Exchange) : Exchange :=
  { x with requestState := x.requestState.map fun _ => true }

/-- `requestState.hasResponded(requestId)`. -/
def hasResponded (x : Exchange) : Bool := x.requestState.getD false

/-- `res.status(..).send(..)`, which sends the headers. -/
def send (x : Exchange) (response : HttpResponse) : Exchange :=
  { x with headersSent := true, sent := x.sent ++ [response] }

/-- `finally { this.requestState.release(requestId) }`: `use` is done. -/
def release (x : Exchange) : Exchange := { x with requestState := none, phase := .settled }

/-- The refusal under memory pressure. -/
def pressureResponse : HttpResponse :=
  { status := 503, error := "서비스 과부하", message := "서버가 과부하 상태입니다. 잠시 후 다시 시도해주세요." }

/-- The refusal of custom code. -/
def customDisabledResponse : HttpResponse :=
  { status := 403, error := "기능 비활성화", message := "custom workload 기능이 비활성화되어 있습니다." }

/-- A refusal before the request is enqueued. -/
def refuse (x : Exchange) (response : HttpResponse) : Exchange :=
  let x := x.markResponded
  (if x.headersSent then x else x.send response).release

/-- `error instanceof Error ? error.message : '알 수 없는 오류'`. -/
def messageOf : Thrown → String
  | .error message => message
  | .other => "알 수 없는 오류"

/-- The response to an error of the queue. -/
def errorResponse (thrown : Thrown) : HttpResponse :=
  let message := messageOf thrown
  let isCustomDisabled := includes message "custom workload 기능이 비활성화"
  let isValidationError := includes message "문자열이어야" || includes message "정수여야" ||
    includes message "빈 문자열" || includes message "값은 0보다 큰 정수"
  { status := if isCustomDisabled then 403 else if isValidationError then 400 else 503
    error :=
      if isCustomDisabled then "기능 비활성화"
      else if isValidationError then "잘못된 요청" else "서비스 일시적으로 사용 불가"
    message := message }

/-- The `catch` block of `use`. -/
def onError (x : Exchange) (thrown : Thrown) : Exchange :=
  if !x.hasResponded && !x.headersSent then x.markResponded.send (errorResponse thrown) else x

/-- `finish()` of `executeQueuedRequest`. -/
def finish (x : Exchange) : Exchange :=
  match x.execution with
  | .running => { x with execution := .settled }
  | _ => x

/-- The response of the timer of `executeQueuedRequest`. -/
def timeoutResponse : HttpResponse :=
  { status := 408, error := "요청 처리 시간 초과", message := "요청 처리가 너무 오래 걸립니다." }

/-- `executeQueuedRequest(..)`; `nextThrows` says whether `next()` throws. -/
def executeQueuedRequest (x : Exchange) (nextThrows : Bool) : Exchange :=
  { x with
    nextCalls := x.nextCalls + 1
    execution := if nextThrows then .settled else .running }

/-- The callback of the timer of `executeQueuedRequest`. -/
def onProcessingTimeout (x : Exchange) : Exchange :=
  (if !x.headersSent && !x.hasResponded then x.markResponded.send timeoutResponse else x).finish

/-- The listener for `finish` and `close` of the response. -/
def onResponseFinished (x : Exchange) : Exchange := x.markResponded.finish

/-- The request is forwarded, or the middleware has answered it. -/
def Answered (x : Exchange) : Prop := 0 < x.nextCalls ∨ x.sent ≠ []

end Exchange

/-- The queue, and a request on its way through the middleware. -/
structure RequestSystem where
  queue : QueueSystem
  exchange : Exchange

/-- What can happen. -/
inductive RequestEvent where
  /-- `use` is called, and runs up to its `await`. -/
  | arrive (requestId : String) (now : ℕ)
  /-- Something happens in the queue; `nextThrows` says whether `next()` throws, where the
  queue executes the task of the request. -/
  | queue (e : QueueEvent) (nextThrows : Bool)
  /-- The promise of `enqueue` is settled, and `use` goes on to its end. -/
  | resume
  /-- The rest of the program sends its response. -/
  | answerSent
  /-- The response is finished, or the connection is closed. -/
  | responseFinished
  /-- The timer of `executeQueuedRequest` fires. -/
  | processingTimer
  /-- The timer of the `RequestStateStore` fires. -/
  | stateExpired

namespace RequestSystem

/-- The task of the request. -/
def taskId (s : RequestSystem) : Option ℕ :=
  match s.exchange.enqueued with
  | some (.ok id) => some id
  | _ => none

/-- `use(req, res, next)` up to its `await`. -/
def use (s : RequestSystem) (requestId : String) (now : ℕ) : RequestSystem :=
  let x := s.exchange
  if x.decision.bypass then
    { s with exchange := { x with nextCalls := x.nextCalls + 1, phase := .settled } }
  else
    let x : Exchange := { x with requestState := some false }
    if s.queue.memoryPressure && x.decision.priority < 0 then
      { s with exchange := x.refuse Exchange.pressureResponse }
    else if x.decision.functionCode.getD "" ≠ "" && !x.allowCustomWorkload then
      { s with exchange := x.refuse Exchange.customDisabledResponse }
    else
      let (result, queue) := s.queue.enqueue (enqueueOptions x.decision requestId) now
      let enqueued := match result with
        | .ok task => .ok task.id
        | .error message => .error (.error message)
      { queue := queue, exchange := { x with enqueued := some enqueued, phase := .awaiting } }

/-- Does a call settle the task with this `id`? -/
def settlesTask (id : ℕ) (c : Call) : Bool := c.settles.map QueueTask.id == some id

/-- How the promise of `enqueue` has been settled, if it has. -/
def settlement (s : RequestSystem) : Option (Except Thrown Unit) :=
  match s.exchange.enqueued with
  | some (.error thrown) => some (.error thrown)
  | some (.ok id) =>
    match s.queue.log.find? (settlesTask id) with
    | some (.resolve ..) => some (.ok ())
    | some (.reject _ _ thrown) => some (.error thrown)
    | _ => none
  | none => none

/-- Is the task of the request executed by one of these calls? -/
def executesRequest (id : Option ℕ) (calls : List Call) : Bool :=
  calls.any fun
    | .execute task => some task.id == id
    | _ => false

/-- One event. -/
def step (s : RequestSystem) : RequestEvent → Option RequestSystem
  | .arrive requestId now =>
    if s.exchange.phase = .arriving then some (s.use requestId now) else none
  | .queue e nextThrows =>
    match s.queue.step e with
    | none => none
    | some queue =>
      some {
        queue := queue
        exchange :=
          if executesRequest s.taskId (queue.log.drop s.queue.log.length) then
            s.exchange.executeQueuedRequest nextThrows
          else s.exchange }
  | .resume =>
    if s.exchange.phase = .awaiting then
      match s.settlement with
      | none => none
      | some (.ok _) => some { s with exchange := s.exchange.release }
      | some (.error thrown) => some { s with exchange := (s.exchange.onError thrown).release }
    else none
  | .answerSent =>
    if 0 < s.exchange.nextCalls then some { s with exchange := { s.exchange with headersSent := true } }
    else none
  | .responseFinished =>
    if s.exchange.execution = .running then some { s with exchange := s.exchange.onResponseFinished }
    else none
  | .processingTimer =>
    if s.exchange.execution = .running then
      some { s with exchange := s.exchange.onProcessingTimeout }
    else none
  | .stateExpired => some { s with exchange := { s.exchange with requestState := none } }

/-- A queue in some state it can be in, and a request about to be handled. -/
def initial (queue : QueueSystem) (requestProcessingTimeoutMs : ℕ) (allowCustomWorkload : Bool)
    (req : Request) : RequestSystem where
  queue := queue
  exchange := {
    decision := QueueRequestAnalyzer.analyze requestProcessingTimeoutMs req
    allowCustomWorkload := allowCustomWorkload }

end RequestSystem

end BulkTraffic.Http
