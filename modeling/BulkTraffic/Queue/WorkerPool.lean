import BulkTraffic.Queue.Router
import BulkTraffic.Lib.JsArray

/-!
# The worker pool

`WorkerPoolService`: worker threads in numbered slots, a flag per slot that says whether
its worker is busy, the tasks waiting for a worker, and the task assigned to each slot.

The functions of the source that take callbacks return the calls they make, in order. The
one callback that changes the pool itself, `onResult`, is a parameter of the functions
that use it.

A worker thread is what the pool can know of it: whether its `initialized` message has
been delivered, and the messages posted to it that it has not answered yet. It sends
`initialized` first and then answers the posted messages in the order they were posted.
A `post` argument says for each message whether `postMessage` throws.
-/

namespace BulkTraffic.Queue

open BulkTraffic.Lib BulkTraffic.Js

/-- A message posted to a worker, with the task it was made for. -/
structure Posted where
  taskData : WorkerTaskData
  message : TaskMessage

/-- A worker thread. -/
structure Worker where
  /-- Its `initialized` message has been delivered. -/
  initialized : Bool := false
  /-- The task messages posted to it and not answered yet, oldest first. -/
  unanswered : List Posted := []

/-- The fields of `WorkerPoolService` and its router. `terminated` records the workers
that were terminated, as they were then. -/
structure WorkerPoolService where
  useWorkers : Bool
  workerPool : List (Option Worker) := []
  workerBusy : List Bool := []
  workerTaskQueue : List WorkerTaskData := []
  assignedTasks : JsMap ℕ WorkerTaskData := .empty
  router : WorkerTaskRouterService
  shuttingDown : Bool := false
  terminated : List Worker := []

/-- What `postMessage` does with the message of a task: nothing is thrown, or something is. It throws
where the message cannot be cloned, whichever worker it is for. -/
abbrev PostMessage := WorkerTaskData → Option Thrown

namespace WorkerPoolService

/-- `workerPool[i]`. -/
def worker (s : WorkerPoolService) (i : ℕ) : Option Worker := JsArray.read none s.workerPool i

/-- `workerBusy[i]`, as a condition. -/
def busy (s : WorkerPoolService) (i : ℕ) : Bool := JsArray.read false s.workerBusy i

/-- `workerBusy[i] = b`. -/
def setBusy (s : WorkerPoolService) (i : ℕ) (b : Bool) : WorkerPoolService :=
  { s with workerBusy := JsArray.write false s.workerBusy i b }

/-- `workerPool[i] = w`. -/
def setWorker (s : WorkerPoolService) (i : ℕ) (w : Worker) : WorkerPoolService :=
  { s with workerPool := JsArray.write none s.workerPool i (some w) }

/-- `assignedTasks.get(i)`. -/
def assigned (s : WorkerPoolService) (i : ℕ) : Option WorkerTaskData := s.assignedTasks.get? i

/-- `createOrReplaceWorker(index)`. -/
def createOrReplaceWorker (s : WorkerPoolService) (index : ℕ) : WorkerPoolService :=
  (s.setWorker index {}).setBusy index false

/-- The slots `0, …, n - 1` created in turn. -/
def createWorkers (s : WorkerPoolService) : ℕ → WorkerPoolService
  | 0 => s
  | n + 1 => (s.createWorkers n).createOrReplaceWorker n

/-- `initWorkerPool(onResult)`: nothing when workers are disabled. -/
def initWorkerPool (s : WorkerPoolService) (workerCount : ℕ) : WorkerPoolService :=
  if s.useWorkers then s.createWorkers workerCount else s

/-- `addTask(taskData)`. -/
def addTask (s : WorkerPoolService) (taskData : WorkerTaskData) : WorkerPoolService :=
  { s with workerTaskQueue := s.workerTaskQueue ++ [taskData] }

/-- The message posted for a task: `functionCode` and `timeout` fall back to the task's. -/
def messageOf (taskData : WorkerTaskData) (type : DispatchableWorkloadType) : TaskMessage where
  type := type
  operation := determineOperation taskData
  params := taskData.params
  functionCode := taskData.functionCode <|> taskData.task.functionCode
  timeout := taskData.timeout <|> taskData.task.timeout

/-- The rejection of a task whose message could not be posted. -/
def postFailedMessage : Thrown → String
  | .error message => "워커 작업 전송 실패: " ++ message
  | .other => "워커 작업 전송 실패: 워커 작업 전송 중 알 수 없는 오류"

/-- `worker.postMessage(message)`, where it does not throw. -/
def postTo (s : WorkerPoolService) (i : ℕ) (p : Posted) : WorkerPoolService :=
  match s.worker i with
  | some w => s.setWorker i { w with unanswered := w.unanswered ++ [p] }
  | none => s

/-- What `dequeueDispatchableTask` does on the pending tasks. -/
def dequeued (s : WorkerPoolService) : WorkerTaskRouterService.Dequeued :=
  s.router.dequeueDispatchableTask s.workerTaskQueue

/-- The pool after `dequeueDispatchableTask`. -/
def afterDequeue (s : WorkerPoolService) : WorkerPoolService :=
  { s with router := s.dequeued.router, workerTaskQueue := s.dequeued.queue }

/-- The `try` block of `processWorkerTasks`, where `postMessage` does not throw. -/
def assignTo (s : WorkerPoolService) (i : ℕ) (taskData : WorkerTaskData)
    (type : DispatchableWorkloadType) : WorkerPoolService :=
  let s := (s.postTo i ⟨taskData, messageOf taskData type⟩).setBusy i true
  { s with
    router := s.router.incrementActiveByType type
    assignedTasks := s.assignedTasks.set i taskData }

/-- What the `catch` block of `processWorkerTasks` does to the slot. -/
def unassign (s : WorkerPoolService) (i : ℕ) : WorkerPoolService :=
  { s.setBusy i false with assignedTasks := s.assignedTasks.delete i }

/-- The body of the loop of `processWorkerTasks` for an idle worker: take the next task
and post it. -/
def dispatchTo (post : PostMessage) (s : WorkerPoolService) (i : ℕ) :
    WorkerPoolService × List Call :=
  match s.dequeued.picked with
  | none => (s.afterDequeue, s.dequeued.calls)
  | some (taskData, type) =>
    match post taskData with
    | none => (s.afterDequeue.assignTo i taskData type, s.dequeued.calls ++ [.post i taskData.task])
    | some thrown =>
      (s.afterDequeue.unassign i,
        s.dequeued.calls ++ [.reject taskData.task .postFailed (.error (postFailedMessage thrown)),
          .onTaskFailed taskData.task])

/-- The loop of `processWorkerTasks` over the given slots. -/
def processSlots (post : PostMessage) : List ℕ → WorkerPoolService → WorkerPoolService × List Call
  | [], s => (s, [])
  | i :: is, s =>
    if (s.worker i).isNone || s.busy i then processSlots post is s
    else if s.workerTaskQueue.isEmpty then (s, [])
    else
      let (s, calls) := s.dispatchTo post i
      let (s, calls') := processSlots post is s
      (s, calls ++ calls')

/-- `processWorkerTasks(onTaskFailed)`. -/
def processWorkerTasks (post : PostMessage) (s : WorkerPoolService) :
    WorkerPoolService × List Call :=
  if !s.useWorkers || s.workerTaskQueue.isEmpty then (s, [])
  else processSlots post (List.range s.workerPool.length) s

/-- The rejection of a task whose worker answered with a failure. -/
def resultFailedMessage (result : WorkerMessage) : String :=
  if isText result.error then result.error.getD "" else "워커 처리 실패"

/-- `handleWorkerResult(workerId, result, onSuccess, onFailed)`. -/
def handleWorkerResult (s : WorkerPoolService) (workerId : ℕ) (result : WorkerMessage) :
    WorkerPoolService × List Call :=
  let taskData := s.assigned workerId
  let s := { s with assignedTasks := s.assignedTasks.delete workerId }
  let s := s.setBusy workerId false
  match taskData with
  | none => (s, [])
  | some taskData =>
    let s := { s with router := s.router.decrementActiveByType (determineTaskType taskData) }
    if result.success then
      (s, [.resolve taskData.task .worker result.result, .onSuccess taskData.task])
    else
      (s, [.reject taskData.task .worker (.error (resultFailedMessage result)),
        .onFailed taskData.task])

/-- The `onResult` callback the pool is given: `(workerId, result)`. -/
abbrev OnResult := WorkerPoolService → ℕ → WorkerMessage → WorkerPoolService × List Call

/-- The listener of `createOrReplaceWorker` for a worker's messages. -/
def onMessage (onResult : Option OnResult) (s : WorkerPoolService) (index : ℕ)
    (result : WorkerMessage) : WorkerPoolService × List Call :=
  if result.initialized then (s.setBusy index false, [])
  else if result.healthCheck then (s, [])
  else match onResult with
    | some onResult => onResult s index result
    | none => (s, [])

/-- The text of a worker failure. -/
def failureMessage (error : String) : String := "워커 장애로 작업이 실패했습니다: " ++ error

/-- `oldWorker.removeAllListeners(); oldWorker.terminate()`. -/
def terminateWorker (s : WorkerPoolService) (index : ℕ) : WorkerPoolService :=
  { s with terminated := s.terminated ++ (s.worker index).toList }

/-- The report of a failure: the part of `handleWorkerFailure` before the replacement. -/
def reportFailure (onResult : Option OnResult) (s : WorkerPoolService) (index : ℕ)
    (error : String) : WorkerPoolService × List Call :=
  match s.assigned index with
  | none => (s, [])
  | some taskData =>
    match onResult with
    | some onResult => onResult s index { success := false, error := some (failureMessage error) }
    | none =>
      ({ s with
          assignedTasks := s.assignedTasks.delete index
          router := s.router.decrementActiveByType (determineTaskType taskData) },
        [.reject taskData.task .worker (.error (failureMessage error))])

/-- `handleWorkerFailure(index, error)`. -/
def handleWorkerFailure (onResult : Option OnResult) (s : WorkerPoolService) (index : ℕ)
    (error : String) : WorkerPoolService × List Call :=
  if s.shuttingDown then (s, [])
  else
    let (s, calls) := s.reportFailure onResult index error
    let s := s.setBusy index false
    let s := s.terminateWorker index
    (s.createOrReplaceWorker index, calls)

/-- What the worker of slot `i` can send next: `initialized` at first, then an answer to
the oldest message posted to it. The pool with the worker after that, and the message
answered. -/
def send (s : WorkerPoolService) (i : ℕ) (result : WorkerMessage) :
    Option (WorkerPoolService × Option Posted) :=
  match s.worker i with
  | none => none
  | some w =>
    if w.initialized then
      match w.unanswered with
      | [] => none
      | p :: rest =>
        if result.initialized || result.healthCheck then none
        else some (s.setWorker i { w with unanswered := rest }, some p)
    else if result.initialized then some (s.setWorker i { w with initialized := true }, none)
    else none

end WorkerPoolService

/-- `QueueProcessorService.handleWorkerResult(workerId, result)`, as far as it concerns the
pool: settle the task, then start another pass. -/
def processorHandleWorkerResult (post : PostMessage) : WorkerPoolService.OnResult :=
  fun s workerId result =>
    let (s, calls) := s.handleWorkerResult workerId result
    let (s, calls') := s.processWorkerTasks post
    (s, calls ++ calls')

end BulkTraffic.Queue
