import BulkTraffic.Js.Value
import BulkTraffic.Lib.JsMap

/-!
# Tasks

The data of the queue (`queue-task.interface.ts`): tasks, batches, the envelopes the
worker pool keeps tasks in, and the messages between the pool and its workers.

A task's `execute`, `resolve` and `reject` are functions. Here a call of one of them is a
`Call` recorded in the order in which the program makes it; `Settler` says which path of
the program settled the task. Tasks are told apart by `id`: every accepted task is a new
object with the next value of `taskIdCounter`.
-/

namespace BulkTraffic.Queue

open BulkTraffic.Lib BulkTraffic.Js

/-- `WorkloadType`. -/
inductive WorkloadType where
  | cpu
  | memory
  | custom
  | unknown
  deriving DecidableEq, Repr

/-- `DispatchableWorkloadType`: the types a worker runs. -/
inductive DispatchableWorkloadType where
  | cpu
  | memory
  | custom
  deriving DecidableEq, Repr

/-- A request identifier: a string or a number. -/
inductive RequestId where
  | str (s : String)
  | num (n : Number)
  deriving DecidableEq

/-- `QueueTask`, without its functions. -/
structure QueueTask where
  id : ℕ
  requestId : Option RequestId := none
  timestamp : ℕ
  priority : ℤ
  category : Option String := none
  size : Option ℕ := none
  workloadType : Option WorkloadType := none
  params : Record := []
  functionCode : Option String := none
  timeout : Option ℕ := none

/-- `TaskBatch`. -/
structure TaskBatch where
  tasks : List QueueTask
  category : String
  totalSize : Number
  createdAt : ℕ

/-- `WorkerTaskData`: a task on its way to a worker. -/
structure WorkerTaskData where
  task : QueueTask
  type : Option WorkloadType := none
  operation : Option String := none
  params : Record := []
  functionCode : Option String := none
  timeout : Option ℕ := none

/-- The message posted to a worker for a task. -/
structure TaskMessage where
  type : DispatchableWorkloadType
  operation : String
  params : Record
  functionCode : Option String
  timeout : Option ℕ

/-- `WorkerMessage`: what a worker sends. -/
structure WorkerMessage where
  success : Bool := false
  result : JsValue := .undefined
  error : Option String := none
  initialized : Bool := false
  healthCheck : Bool := false

/-- What is thrown, or what a promise is rejected with: an `Error` with its message, or
another value. -/
inductive Thrown where
  | error (message : String)
  | other

/-- The path of the program that settles a task. -/
inductive Settler where
  /-- The queue-wait timer of `wrapTaskWithQueueTimeout`. -/
  | queueWaitTimer
  /-- `cleanupOldTasks`. -/
  | cleanup
  /-- `forceReduceQueues`. -/
  | forceReduce
  /-- `dequeueDispatchableTask`, of a type no worker runs. -/
  | unknownWorkload
  /-- `processWorkerTasks`, when posting throws. -/
  | postFailed
  /-- `handleWorkerResult` and `handleWorkerFailure`. -/
  | worker
  /-- The promise chain of a task run on the main thread. -/
  | mainThread
  deriving DecidableEq

/-- The settlers that settle a task while it waits. -/
def Settler.whileWaiting : Settler → Bool
  | .queueWaitTimer | .cleanup | .forceReduce | .unknownWorkload | .postFailed => true
  | .worker | .mainThread => false

/-- A worker's answer and the main thread settle tasks that wait no more. -/
theorem Settler.ne_of_whileWaiting {settler : Settler} (h : settler.whileWaiting = true) :
    settler ≠ .mainThread ∧ settler ≠ .worker := by
  constructor <;> rintro rfl <;> cases h

/-- The settlers whose rejections are counted in `totalTimeout`. -/
def Settler.countsTimeout : Settler → Bool
  | .queueWaitTimer | .cleanup => true
  | .forceReduce | .unknownWorkload | .postFailed | .worker | .mainThread => false

/-- The path of the program that resolves a task: of a waiting task there is none. -/
inductive Resolver where
  /-- `handleWorkerResult`. -/
  | worker
  /-- The promise chain of a task run on the main thread. -/
  | mainThread
  deriving DecidableEq

/-- A call the program makes on behalf of a task. -/
inductive Call where
  /-- The task leaves its queue or batch for the main thread. -/
  | dispatch (task : QueueTask)
  /-- `task.execute()`. -/
  | execute (task : QueueTask)
  /-- `worker.postMessage(..)` of the task's message to the worker at `index`. -/
  | post (index : ℕ) (task : QueueTask)
  /-- `task.resolve(value)`. -/
  | resolve (task : QueueTask) (resolver : Resolver) (value : JsValue)
  /-- `task.reject(reason)`. -/
  | reject (task : QueueTask) (settler : Settler) (reason : Thrown)
  /-- The `onSuccess` callback of `WorkerPoolService.handleWorkerResult`. -/
  | onSuccess (task : QueueTask)
  /-- The `onFailed` callback of `WorkerPoolService.handleWorkerResult`. -/
  | onFailed (task : QueueTask)
  /-- The `onTaskFailed` callback of `processWorkerTasks`. -/
  | onTaskFailed (task : QueueTask)

/-- `1` for task `x`, `0` for any other: the weight that follows task `x`. -/
def isTask (x : ℕ) (task : QueueTask) : ℕ := if task.id = x then 1 else 0

theorem isTask_pos {x : ℕ} {task : QueueTask} : 0 < isTask x task ↔ task.id = x := by
  unfold isTask
  split <;> simp_all

/-- The weight that follows task `x` among envelopes. -/
@[simp] def isTaskData (x : ℕ) (taskData : WorkerTaskData) : ℕ := isTask x taskData.task

namespace Call

/-- The task a call settles. -/
def settles : Call → Option QueueTask
  | resolve task _ _ | reject task _ _ => some task
  | _ => none

/-- How often a call settles task `x`. -/
@[simp] def settled (x : ℕ) : Call → ℕ
  | resolve task _ _ | reject task _ _ => isTask x task
  | _ => 0

/-- How often a call resolves task `x`. -/
@[simp] def resolved (x : ℕ) : Call → ℕ
  | resolve task _ _ => isTask x task
  | _ => 0

/-- How often a call rejects task `x`. -/
@[simp] def rejected (x : ℕ) : Call → ℕ
  | reject task _ _ => isTask x task
  | _ => 0

/-- How often a call rejects task `x`, other than for its waiting too long. -/
@[simp] def refused (x : ℕ) : Call → ℕ
  | reject task settler _ => if settler.countsTimeout then 0 else isTask x task
  | _ => 0

/-- How often a call rejects task `x` for its waiting too long. -/
@[simp] def timedOut (x : ℕ) : Call → ℕ
  | reject task settler _ => if settler.countsTimeout then isTask x task else 0
  | _ => 0

/-- How often a call settles task `x` while it waits. -/
@[simp] def settledWaiting (x : ℕ) : Call → ℕ
  | reject task settler _ => if settler.whileWaiting then isTask x task else 0
  | _ => 0

/-- How often a call settles task `x` by a worker's result or failure. -/
@[simp] def settledByWorker (x : ℕ) : Call → ℕ
  | resolve task resolver _ => if resolver = .worker then isTask x task else 0
  | reject task settler _ => if settler = .worker then isTask x task else 0
  | _ => 0

/-- How often a call settles task `x` after running it on the main thread. -/
@[simp] def settledByMain (x : ℕ) : Call → ℕ
  | resolve task resolver _ => if resolver = .mainThread then isTask x task else 0
  | reject task settler _ => if settler = .mainThread then isTask x task else 0
  | _ => 0

/-- How often a call hands task `x` to the main thread. -/
@[simp] def dispatched (x : ℕ) : Call → ℕ
  | dispatch task => isTask x task
  | _ => 0

/-- How often a call executes task `x`. -/
@[simp] def executed (x : ℕ) : Call → ℕ
  | execute task => isTask x task
  | _ => 0

/-- How often a call posts task `x` to a worker. -/
@[simp] def posted (x : ℕ) : Call → ℕ
  | post _ task => isTask x task
  | _ => 0

/-- Is the call a `resolve`? -/
@[simp] def resolves : Call → ℕ
  | resolve .. => 1
  | _ => 0

/-- Is the call a `reject` to be counted in `totalRejected`? -/
@[simp] def refuses : Call → ℕ
  | reject _ settler _ => if settler.countsTimeout then 0 else 1
  | _ => 0

/-- Is the call a `reject` to be counted in `totalTimeout`? -/
@[simp] def timesOut : Call → ℕ
  | reject _ settler _ => if settler.countsTimeout then 1 else 0
  | _ => 0

/-- Is the call the callback that reports a success? -/
@[simp] def reportsSuccess : Call → ℕ
  | onSuccess _ => 1
  | _ => 0

/-- Is the call a callback that reports a failure? -/
@[simp] def reportsFailure : Call → ℕ
  | onFailed _ | onTaskFailed _ => 1
  | _ => 0

/-- Settling happens on one of three paths. -/
theorem settled_eq (x : ℕ) (c : Call) :
    c.settled x = c.settledWaiting x + c.settledByWorker x + c.settledByMain x := by
  cases c with
  | resolve t s v => cases s <;> simp
  | reject t s r => cases s <;> simp [Settler.whileWaiting]
  | _ => rfl

theorem settled_eq_resolved_add_rejected (x : ℕ) (c : Call) :
    c.settled x = c.resolved x + c.rejected x := by
  cases c <;> simp

/-- A rejection is counted in one of two ways. -/
theorem rejected_eq (x : ℕ) (c : Call) : c.rejected x = c.refused x + c.timedOut x := by
  cases c with
  | reject t s r => cases s <;> simp [Settler.countsTimeout]
  | _ => rfl

end Call

theorem weight_settled (x : ℕ) (log : List Call) :
    weight (Call.settled x) log = weight (Call.settledWaiting x) log + weight (Call.settledByWorker x) log +
      weight (Call.settledByMain x) log := by
  rw [← weight_add, ← weight_add]
  exact weight_congr fun c _ => c.settled_eq x

theorem weight_settled_eq_resolved_add_rejected (x : ℕ) (log : List Call) :
    weight (Call.settled x) log = weight (Call.resolved x) log + weight (Call.rejected x) log := by
  rw [← weight_add]
  exact weight_congr fun c _ => c.settled_eq_resolved_add_rejected x

theorem weight_rejected (x : ℕ) (log : List Call) :
    weight (Call.rejected x) log = weight (Call.refused x) log + weight (Call.timedOut x) log := by
  rw [← weight_add]
  exact weight_congr fun c _ => c.rejected_eq x

end BulkTraffic.Queue
