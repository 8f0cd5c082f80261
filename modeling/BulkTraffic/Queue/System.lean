import BulkTraffic.Queue.Batch
import BulkTraffic.Queue.Memory
import BulkTraffic.Queue.OptionsParser
import BulkTraffic.Queue.PoolFlow
import BulkTraffic.Lib.Runs

/-!
# The queue as a system

`QueueService` and `QueueProcessorService` with everything they are wired to: the state
holder, the statistics, the memory service, the options parser and the worker pool.

JavaScript runs one callback of the event loop at a time. A `QueueEvent` is such a
callback, a call of `enqueue`, or a message or failure of a worker; `step` says what it
does. What the program leaves to be run later is part of the state:

* `processSignalPending`, the signal of `requestProcessQueue`;
* `timers`, the queue-wait timers not yet fired or cleared;
* `batchTriggers`, the batches that reached a threshold when a task was added;
* `running`, the promise chains of the tasks dispatched one by one;
* `groups`, the promise chains of the batches dispatched as a group.

`accepted`, `refused` and `log` are no fields of the source. They record the tasks accepted
by `enqueue`, how many calls it refused, and the calls made on behalf of tasks.

A step is synchronous, so `isProcessingQueue` is only ever set while nothing else can run.
The runs end where `onModuleDestroy` begins.
-/

namespace BulkTraffic.Queue

open BulkTraffic.Lib BulkTraffic.Js

/-- How an execution ends. -/
inductive Outcome where
  /-- The promise of `execute` is fulfilled. -/
  | value (v : JsValue)
  /-- It is rejected, by the task or by the execution timeout. -/
  | error (thrown : Thrown)

/-- How far the promise chain of a dispatched task has got. -/
inductive Stage where
  /-- `.then(() => task.execute())` has not run yet. -/
  | queued
  /-- `task.execute()` has been called. -/
  | started
  /-- Its promise is settled. -/
  | finished (outcome : Outcome)
  /-- The task has been resolved or rejected. -/
  | settled (outcome : Outcome)

/-- What moves a promise chain on. -/
inductive PromiseStep where
  /-- `task.execute()` is called. -/
  | start
  /-- The execution ends, or its timer fires. -/
  | finish (outcome : Outcome)
  /-- The `then` or `catch` callback settles the task. -/
  | settle

/-- The next stage. What comes second of an execution's end and its timer changes nothing,
as `withExecutionTimeout` has it. -/
def Stage.next : PromiseStep → Stage → Option Stage
  | .start, queued => some started
  | .finish outcome, started => some (finished outcome)
  | .finish _, finished outcome => some (finished outcome)
  | .finish _, settled outcome => some (settled outcome)
  | .settle, finished outcome => some (settled outcome)
  | _, _ => none

/-- The ways in which a chain moves on. -/
inductive Stage.Moves : PromiseStep → Stage → Stage → Prop where
  | start : Moves .start queued started
  | finish (outcome : Outcome) : Moves (.finish outcome) started (finished outcome)
  | finishAgain (outcome first : Outcome) : Moves (.finish outcome) (finished first) (finished first)
  | finishLate (outcome first : Outcome) : Moves (.finish outcome) (settled first) (settled first)
  | settle (outcome : Outcome) : Moves .settle (finished outcome) (settled outcome)

theorem Stage.moves_of_next {p : PromiseStep} {old stage : Stage} (h : old.next p = some stage) :
    Moves p old stage := by
  cases p with
  | start =>
    cases old with
    | queued => exact Option.some.inj h ▸ .start
    | _ => cases h
  | finish outcome =>
    cases old with
    | queued => cases h
    | started => exact Option.some.inj h ▸ .finish outcome
    | finished first => exact Option.some.inj h ▸ .finishAgain outcome first
    | settled first => exact Option.some.inj h ▸ .finishLate outcome first
  | settle =>
    cases old with
    | finished outcome => exact Option.some.inj h ▸ .settle outcome
    | _ => cases h

/-- Has the task been settled? -/
def Stage.isSettled : Stage → Bool
  | settled _ => true
  | _ => false

/-- A task dispatched to the main thread. -/
structure RunningTask where
  task : QueueTask
  stage : Stage := .queued

/-- The tasks of a batch dispatched together, and the counters of `processBatch`. -/
structure BatchGroup where
  members : List RunningTask
  processed : ℕ := 0
  failed : ℕ := 0

/-- The queue with all it is wired to. -/
structure QueueSystem where
  state : QueueStateHolder
  stats : QueueStatsService := {}
  memoryPressure : Bool := false
  pool : WorkerPoolService
  parser : QueueOptionsParser := {}
  /-- The queue-wait timers that are armed. -/
  timers : List QueueTask := []
  /-- The categories whose batch is about to be processed. -/
  batchTriggers : List String := []
  running : List RunningTask := []
  groups : List BatchGroup := []
  /-- The tasks accepted. -/
  accepted : List QueueTask := []
  /-- How many calls of `enqueue` were refused for memory pressure or overflow. -/
  refused : ℕ := 0
  /-- The calls made so far. -/
  log : List Call := []

namespace QueueSystem

/-! ### Settling tasks -/

/-- Make calls. The `resolve` and `reject` of a task clear its queue-wait timer
(`wrapTaskWithQueueTimeout`). -/
def record (s : QueueSystem) (calls : List Call) : QueueSystem :=
  { s with
    log := s.log ++ calls
    timers := s.timers.filter fun task => !calls.any fun c => (c.settles.map QueueTask.id) == some task.id }

/-- `requestProcessQueue()`. -/
def requestProcessQueue (s : QueueSystem) : QueueSystem :=
  { s with state := { s.state with processSignalPending := true } }

/-- `this.state.decrementActiveRequests(); this.requestProcessQueue()`. -/
def releaseSlot (s : QueueSystem) : QueueSystem :=
  { s with state := s.state.decrementActiveRequests }.requestProcessQueue

/-- `this.statsService.incrementProcessed(count)`. -/
def countProcessed (s : QueueSystem) (count : ℕ) : QueueSystem :=
  { s with stats := s.stats.incrementProcessed count }

/-- `this.statsService.incrementRejected(count)`. -/
def countRejected (s : QueueSystem) (count : ℕ) : QueueSystem :=
  { s with stats := s.stats.incrementRejected count }

/-- `this.statsService.incrementTimeout(count)`. -/
def countTimeout (s : QueueSystem) (count : ℕ) : QueueSystem :=
  { s with stats := s.stats.incrementTimeout count }

/-! ### The worker pool -/

/-- The callbacks the processor gives to the pool. -/
def callback (s : QueueSystem) : Call → QueueSystem
  | .onSuccess _ => (s.countProcessed 1).releaseSlot
  | .onFailed _ | .onTaskFailed _ => (s.countRejected 1).releaseSlot
  | _ => s

/-- The pool has changed and made calls. Its functions read nothing that the callbacks
write, so they can be run after it. -/
def afterPool (s : QueueSystem) (result : WorkerPoolService × List Call) : QueueSystem :=
  result.2.foldl callback ({ s with pool := result.1 }.record result.2)

/-- `isWorkerEligibleTask(task)`, by whether the pool is enabled. -/
def isWorkerEligibleTask (isEnabled : Bool) (task : QueueTask) : Bool :=
  if !isEnabled then false
  else if task.priority < 0 then false
  else match task.workloadType with
    | some .cpu | some .memory | some .custom => true
    | _ => false

/-- `createWorkerTaskData(task)`. -/
def createWorkerTaskData (task : QueueTask) : WorkerTaskData where
  task := task
  type := task.workloadType
  params := task.params
  functionCode := task.functionCode
  timeout := task.timeout

/-! ### `processQueue` -/

/-- Dispatch a task taken from a queue: to the worker pool, or to the main thread. -/
def dispatch (s : QueueSystem) (task : QueueTask) : QueueSystem :=
  let s := { s with state := { s.state with activeRequests := s.state.activeRequests + 1 } }
  if isWorkerEligibleTask s.pool.useWorkers task then
    { s with pool := s.pool.addTask (createWorkerTaskData task) }
  else
    { s with running := s.running ++ [{ task := task }], log := s.log ++ [.dispatch task] }

/-- What the loop over one queue leaves. -/
structure Drained where
  /-- The tasks left in the queue. -/
  queue : List QueueTask
  /-- The slots left. -/
  slots : ℕ
  workerDispatchCount : ℕ
  system : QueueSystem

/-- The loop of `processQueue` over one queue, with the slots left. -/
def drain : List QueueTask → ℕ → ℕ → QueueSystem → Drained
  | [], slots, count, s => ⟨[], slots, count, s⟩
  | task :: queue, 0, count, s => ⟨task :: queue, 0, count, s⟩
  | task :: queue, slots + 1, count, s =>
    drain queue slots (if isWorkerEligibleTask s.pool.useWorkers task then count + 1 else count)
      (s.dispatch task)

/-- The loops of `processQueue`: the low-priority queue is left alone under memory pressure. -/
def drainQueues (s : QueueSystem) (slots : ℕ) : QueueSystem × ℕ :=
  let high := drain s.state.highPriorityQueue slots 0 s
  let normal := drain s.state.normalPriorityQueue high.slots high.workerDispatchCount high.system
  let low :=
    if s.memoryPressure then
      ⟨s.state.lowPriorityQueue, normal.slots, normal.workerDispatchCount, normal.system⟩
    else drain s.state.lowPriorityQueue normal.slots normal.workerDispatchCount normal.system
  ({ low.system with
      state := { low.system.state with
        highPriorityQueue := high.queue
        normalPriorityQueue := normal.queue
        lowPriorityQueue := low.queue } },
    low.workerDispatchCount)

/-- The `finally` block of `processQueue`. -/
def rearm (s : QueueSystem) : QueueSystem :=
  if s.state.activeRequests < s.state.config.maxConcurrentRequests && 0 < s.state.getTotalQueueLength then
    s.requestProcessQueue
  else s

/-- `processQueue()`. -/
def processQueue (post : PostMessage) (s : QueueSystem) : QueueSystem :=
  if s.state.isProcessingQueue then s
  else if (s.state.config.maxConcurrentRequests : ℤ) ≤ s.state.activeRequests then s
  else
    let availableSlots := min s.state.config.concurrentTasks
      ((s.state.config.maxConcurrentRequests : ℤ) - s.state.activeRequests).toNat
    let (s, workerDispatchCount) := s.drainQueues availableSlots
    let s := if 0 < workerDispatchCount then s.afterPool (s.pool.processWorkerTasks post) else s
    s.rearm

/-! ### Batches -/

/-- The callback of `processBatch(category)`. -/
def onBatchComplete (s : QueueSystem) (processed : ℕ) (activeChange : ℤ) (failed : ℕ) : QueueSystem :=
  let s := s.countProcessed processed
  let s := if 0 < failed then s.countRejected failed else s
  let s := { s with state := s.state.setActiveRequests (s.state.activeRequests + activeChange) }
  if activeChange < 0 then s.requestProcessQueue else s

/-- `processBatch(category)`. -/
def processBatch (s : QueueSystem) (category : String) (now : ℕ) : QueueSystem :=
  let taken := BatchService.processBatch category s.state.batchQueues s.state.activeRequests
    s.state.config.maxConcurrentRequests now
  let s := { s with state := { s.state with
    batchQueues := taken.batchQueues
    sizeClamped := s.state.sizeClamped || taken.clamped } }
  if taken.tasksToProcess.isEmpty then s
  else
    let group : BatchGroup := { members := taken.tasksToProcess.map fun task => { task := task } }
    let s := { s with
      groups := s.groups ++ [group]
      log := s.log ++ taken.tasksToProcess.map Call.dispatch }
    s.onBatchComplete 0 taken.tasksToProcess.length 0

/-- Process, one after the other, the batches of the given categories that satisfy `due`. -/
def processBatches (due : TaskBatch → Bool) (now : ℕ) : List String → QueueSystem → QueueSystem
  | [], s => s
  | category :: categories, s =>
    processBatches due now categories
      (match s.state.batchQueues.get? category with
        | some batch => if due batch then s.processBatch category now else s
        | none => s)

/-- `processAgedBatches(batchQueues, ..)`. -/
def processAgedBatches (s : QueueSystem) (now : ℕ) : QueueSystem :=
  processBatches (BatchService.isAged now) now s.state.batchQueues.keys s

/-! ### Memory pressure -/

/-- `incrementTimeout(cleanupOldTasks(..))`. -/
def cleanupOldTasks (s : QueueSystem) (now : ℕ) : QueueSystem :=
  let (calls, state) := MemoryService.cleanupOldTasks now s.state
  ({ s with state := state }.record calls).countTimeout calls.length

/-- `incrementRejected(forceReduceQueues(..))`. -/
def forceReduceQueues (s : QueueSystem) (now : ℕ) : QueueSystem :=
  let popped := MemoryService.poppedLow s.state.lowPriorityQueue
  let s := { s with state := { s.state with
    lowPriorityQueue := MemoryService.keptLow s.state.lowPriorityQueue } }
  let s := s.record (popped.map fun task =>
    .reject task .forceReduce (.error MemoryService.forceReduceMessage))
  (processBatches MemoryService.isHeavy now s.state.batchQueues.keys s).countRejected popped.length

/-- The callbacks of `checkMemoryUsage`: cleanup when the usage is high, and the reduction of
the queues when it is critical. -/
def relieveMemory (s : QueueSystem) (usage : MemoryUsage) (now : ℕ) : QueueSystem :=
  if MemoryService.isHigh usage then
    let s := s.cleanupOldTasks now
    if MemoryService.isCritical usage then s.forceReduceQueues now else s
  else s

/-- The callback of the memory check timer. -/
def checkMemoryUsage (s : QueueSystem) (usage : MemoryUsage) (now : ℕ) : QueueSystem :=
  let s := { s with memoryPressure := MemoryService.isHigh usage }.relieveMemory usage now
  if !s.memoryPressure && !s.state.lowPriorityQueue.isEmpty then s.requestProcessQueue else s

/-! ### `enqueue` -/

/-- The refusal of a task of low priority under memory pressure. -/
def pressureMessage : String := "서버 과부하로 요청이 거부되었습니다."

/-- The refusal of a task when the queue is full. -/
def overflowMessage : String := "큐가 가득 찼습니다. 잠시 후 다시 시도해주세요."

/-- The task `enqueue` creates. -/
def newTask (s : QueueSystem) (options : NormalizedEnqueueOptions) (now : ℕ) : QueueTask where
  id := s.state.taskIdCounter + 1
  requestId := options.requestId
  timestamp := now
  priority := options.priority
  category := some options.category
  size := some options.size
  workloadType := options.workloadType
  params := options.params
  functionCode := options.functionCode
  timeout := some options.timeout

/-- Put an accepted task into a batch or a queue. -/
def place (s : QueueSystem) (task : QueueTask) (batch : Bool) (now : ℕ) : QueueSystem :=
  if batch && BatchService.shouldAddToBatch task s.state.batchQueues then
    let (batchQueues, trigger) := BatchService.addTaskToBatch task now s.state.batchQueues
    { s with
      state := { s.state with batchQueues := batchQueues }
      batchTriggers := s.batchTriggers ++ trigger.toList }
  else if 5 ≤ task.priority then
    { s with state := { s.state with highPriorityQueue := s.state.highPriorityQueue ++ [task] } }
  else if 0 ≤ task.priority then
    { s with state := { s.state with normalPriorityQueue := s.state.normalPriorityQueue ++ [task] } }
  else
    { s with state := { s.state with lowPriorityQueue := s.state.lowPriorityQueue ++ [task] } }

/-- A task is accepted: it has its number and its queue-wait timer. -/
def register (s : QueueSystem) (task : QueueTask) : QueueSystem :=
  { s with
    state := { s.state with taskIdCounter := s.state.taskIdCounter + 1 }
    timers := s.timers ++ [task]
    accepted := s.accepted ++ [task] }

/-- A task is accepted and put in its place. -/
def accept (s : QueueSystem) (options : NormalizedEnqueueOptions) (now : ℕ) : QueueSystem :=
  let task := s.newTask options now
  ((s.register task).place task options.batch now).requestProcessQueue

/-- `enqueue(execute, options)`: what it throws or the task it creates, and what it does. -/
def enqueue (s : QueueSystem) (options : EnqueueOptions) (now : ℕ) :
    Except String QueueTask × QueueSystem :=
  let (normalized, parser) :=
    s.parser.normalizeEnqueueOptions options s.state.config.executionTimeoutMs
  let s := { s with parser := parser }
  match normalized with
  | .error message => (.error message, s)
  | .ok options =>
    if s.memoryPressure && options.priority < 0 then
      (.error pressureMessage, { s with refused := s.refused + 1 }.countRejected 1)
    else if s.state.config.queueOverflowThreshold ≤ s.state.getTotalQueueLength then
      (.error overflowMessage, { s with refused := s.refused + 1 }.countRejected 1)
    else (.ok (s.newTask options now), s.accept options now)

/-! ### Timers and promise chains -/

/-- The rejection of a task that has waited too long. -/
def queueWaitMessage : String := "큐 대기 시간 초과"

/-- The callback of a queue-wait timer. -/
def onQueueWaitTimeout (s : QueueSystem) (task : QueueTask) : QueueSystem :=
  match s.state.removeTaskFromQueues task with
  | (true, state) =>
    ({ s with state := state }.countTimeout 1).record
      [.reject task .queueWaitTimer (.error queueWaitMessage)]
  | (false, _) => s

/-- The call with which a promise chain settles its task. -/
def settleCall (task : QueueTask) : Outcome → Call
  | .value v => .resolve task .mainThread v
  | .error thrown => .reject task .mainThread thrown

/-- The calls of a promise chain on its way to the given stage. -/
def stepCalls (task : QueueTask) : PromiseStep → Stage → List Call
  | .start, _ => [.execute task]
  | .settle, .settled outcome => [settleCall task outcome]
  | _, _ => []

/-- What a chain of `processQueue` counts when it settles its task. -/
def countSingle (s : QueueSystem) : PromiseStep → Stage → QueueSystem
  | .settle, .settled (.value _) => s.countProcessed 1
  | .settle, .settled (.error _) => s.countRejected 1
  | _, _ => s

end QueueSystem

/-- What a chain of `processBatch` counts when it settles its task. -/
def BatchGroup.count (g : BatchGroup) : PromiseStep → Stage → BatchGroup
  | .settle, .settled (.value _) => { g with processed := g.processed + 1 }
  | .settle, .settled (.error _) => { g with failed := g.failed + 1 }
  | _, _ => g

namespace QueueSystem

/-- A promise chain of `processQueue` moves on. -/
def advanceSingle (s : QueueSystem) (k : ℕ) (p : PromiseStep) : Option QueueSystem :=
  match s.running[k]? with
  | none => none
  | some r =>
    match r.stage.next p with
    | none => none
    | some stage =>
      let s := { s with running := s.running.set k { r with stage := stage } }
      some ((s.record (stepCalls r.task p stage)).countSingle p stage)

/-- A promise chain of `processBatch` moves on. -/
def advanceMember (s : QueueSystem) (k m : ℕ) (p : PromiseStep) : Option QueueSystem :=
  match s.groups[k]? with
  | none => none
  | some g =>
    match g.members[m]? with
    | none => none
    | some r =>
      match r.stage.next p with
      | none => none
      | some stage =>
        let g := { g with members := g.members.set m { r with stage := stage } }.count p stage
        some ({ s with groups := s.groups.set k g }.record (stepCalls r.task p stage))

/-- The `finally` callback of a chain of `processQueue`. -/
def finallySingle (s : QueueSystem) (k : ℕ) : Option QueueSystem :=
  match s.running[k]? with
  | none => none
  | some r =>
    if r.stage.isSettled then some { s with running := s.running.eraseIdx k }.releaseSlot
    else none

/-- The `finally` callback of a group, when all its tasks are settled. -/
def finallyGroup (s : QueueSystem) (k : ℕ) : Option QueueSystem :=
  match s.groups[k]? with
  | none => none
  | some g =>
    if g.members.all fun r => r.stage.isSettled then
      some ({ s with groups := s.groups.eraseIdx k }.onBatchComplete g.processed
        (-(g.members.length : ℤ)) g.failed)
    else none

end QueueSystem

/-- What can happen. A `post` says which messages cannot be posted to workers meanwhile. -/
inductive QueueEvent where
  /-- `enqueue(execute, options)`. -/
  | enqueue (options : EnqueueOptions) (now : ℕ)
  /-- The signal of `requestProcessQueue`. -/
  | processSignal (post : PostMessage)
  /-- The timer of `queueProcessIntervalMs`. -/
  | queueProcessTimer
  /-- A batch that reached a threshold is processed. -/
  | batchTrigger (k : ℕ) (now : ℕ)
  /-- The timer of `batchAgingIntervalMs`. -/
  | batchAgingTimer (now : ℕ)
  /-- The timer of `memoryCheckIntervalMs`. -/
  | memoryCheckTimer (usage : MemoryUsage) (now : ℕ)
  /-- The timer of `statsLogIntervalMs`. -/
  | statsLogTimer
  /-- A queue-wait timer fires. -/
  | queueWaitTimer (k : ℕ)
  /-- The chain of a task dispatched one by one moves on. -/
  | single (k : ℕ) (p : PromiseStep)
  /-- The chain of a task of a group moves on. -/
  | member (k m : ℕ) (p : PromiseStep)
  /-- The `finally` of a task dispatched one by one. -/
  | finallySingle (k : ℕ)
  /-- The `finally` of a group. -/
  | finallyGroup (k : ℕ)
  /-- A worker sends a message. -/
  | workerMessage (i : ℕ) (result : WorkerMessage) (post : PostMessage)
  /-- A worker fails. -/
  | workerFailure (i : ℕ) (error : String) (post : PostMessage)

namespace QueueSystem

/-- The queue after `onModuleInit`, with the counter and the statistics it has restored. -/
def initial (config : QueueConfig) (taskIdCounter : ℕ) (stats : QueueStatsService)
    (allowCustomWorkload useWorkers : Bool) (workerCount : ℕ) (cpu memory custom : Option ℕ) :
    QueueSystem where
  state := { config := config, taskIdCounter := taskIdCounter }
  stats := stats
  pool := WorkerPoolService.initWorkerPool
    { useWorkers := useWorkers, router := .create workerCount cpu memory custom } workerCount
  parser := { allowCustomWorkload := allowCustomWorkload }

/-- One event. -/
def step (s : QueueSystem) : QueueEvent → Option QueueSystem
  | .enqueue options now => some (s.enqueue options now).2
  | .processSignal post =>
    if s.state.processSignalPending then
      some ({ s with state := { s.state with processSignalPending := false } }.processQueue post)
    else none
  | .queueProcessTimer =>
    some (if 0 < s.state.getTotalQueueLength then s.requestProcessQueue else s)
  | .batchTrigger k now =>
    match s.batchTriggers[k]? with
    | none => none
    | some category =>
      some ({ s with batchTriggers := s.batchTriggers.eraseIdx k }.processBatch category now)
  | .batchAgingTimer now => some (s.processAgedBatches now)
  | .memoryCheckTimer usage now => some (s.checkMemoryUsage usage now)
  | .statsLogTimer => some { s with stats := s.stats.resetRecent }
  | .queueWaitTimer k =>
    match s.timers[k]? with
    | none => none
    | some task => some ({ s with timers := s.timers.eraseIdx k }.onQueueWaitTimeout task)
  | .single k p => s.advanceSingle k p
  | .member k m p => s.advanceMember k m p
  | .finallySingle k => s.finallySingle k
  | .finallyGroup k => s.finallyGroup k
  | .workerMessage i result post =>
    match s.pool.send i result with
    | none => none
    | some (pool, _) =>
      some ({ s with pool := pool }.afterPool
        (pool.onMessage (some (processorHandleWorkerResult post)) i result))
  | .workerFailure i error post =>
    if (s.pool.worker i).isNone then none
    else some (s.afterPool
      (s.pool.handleWorkerFailure (some (processorHandleWorkerResult post)) i error))

/-! ### What a step does -/

/-- A chain of `processQueue` that moves on. -/
theorem advanceSingle_cases {s u : QueueSystem} {k : ℕ} {p : PromiseStep}
    (h : s.advanceSingle k p = some u) :
    ∃ r stage, s.running[k]? = some r ∧ r.stage.next p = some stage ∧
      u = ({ s with running := s.running.set k { r with stage := stage } }.record
        (stepCalls r.task p stage)).countSingle p stage := by
  unfold advanceSingle at h
  split at h
  · cases h
  · rename_i r hr
    split at h
    · cases h
    · rename_i stage hstage
      exact ⟨r, stage, hr, hstage, (Option.some.inj h).symm⟩

/-- A chain of `processBatch` that moves on. -/
theorem advanceMember_cases {s u : QueueSystem} {k m : ℕ} {p : PromiseStep}
    (h : s.advanceMember k m p = some u) :
    ∃ g r stage, s.groups[k]? = some g ∧ g.members[m]? = some r ∧ r.stage.next p = some stage ∧
      u = { s with
        groups := (s.groups.set k
          ({ g with members := g.members.set m { r with stage := stage } }.count p stage)) }.record
            (stepCalls r.task p stage) := by
  unfold advanceMember at h
  split at h
  · cases h
  · rename_i g hg
    split at h
    · cases h
    · rename_i r hr
      split at h
      · cases h
      · rename_i stage hstage
        exact ⟨g, r, stage, hg, hr, hstage, (Option.some.inj h).symm⟩

/-- A settled chain that gives its slot back. -/
theorem finallySingle_cases {s u : QueueSystem} {k : ℕ} (h : s.finallySingle k = some u) :
    ∃ r, s.running[k]? = some r ∧ r.stage.isSettled = true ∧
      u = { s with running := s.running.eraseIdx k }.releaseSlot := by
  unfold finallySingle at h
  split at h
  · cases h
  · rename_i r hr
    split at h
    · rename_i hsettled
      exact ⟨r, hr, hsettled, (Option.some.inj h).symm⟩
    · cases h

/-- A settled group that gives its slots back. -/
theorem finallyGroup_cases {s u : QueueSystem} {k : ℕ} (h : s.finallyGroup k = some u) :
    ∃ g, s.groups[k]? = some g ∧ (∀ r ∈ g.members, r.stage.isSettled = true) ∧
      u = { s with groups := s.groups.eraseIdx k }.onBatchComplete g.processed
        (-(g.members.length : ℤ)) g.failed := by
  unfold finallyGroup at h
  split at h
  · cases h
  · rename_i g hg
    split at h
    · rename_i hsettled
      exact ⟨g, hg, List.all_eq_true.mp hsettled, (Option.some.inj h).symm⟩
    · cases h

/-- The ways a step can end, each with what it found and what it leaves. -/
inductive Takes (s : QueueSystem) : QueueEvent → QueueSystem → Prop where
  | enqueue (options : EnqueueOptions) (now : ℕ) :
      Takes s (.enqueue options now) (s.enqueue options now).2
  | processSignal {post : PostMessage} (pending : s.state.processSignalPending = true) :
      Takes s (.processSignal post)
        ({ s with state := { s.state with processSignalPending := false } }.processQueue post)
  /-- The timer finds tasks in the queue. -/
  | tasksWait (waiting : 0 < s.state.getTotalQueueLength) :
      Takes s .queueProcessTimer s.requestProcessQueue
  /-- The timer finds the queue empty. -/
  | nothingWaits (empty : ¬ 0 < s.state.getTotalQueueLength) : Takes s .queueProcessTimer s
  | batchTrigger {k now : ℕ} {category : String} (trigger : s.batchTriggers[k]? = some category) :
      Takes s (.batchTrigger k now)
        ({ s with batchTriggers := s.batchTriggers.eraseIdx k }.processBatch category now)
  | batchAgingTimer (now : ℕ) : Takes s (.batchAgingTimer now) (s.processAgedBatches now)
  | memoryCheckTimer (usage : MemoryUsage) (now : ℕ) :
      Takes s (.memoryCheckTimer usage now) (s.checkMemoryUsage usage now)
  | statsLogTimer : Takes s .statsLogTimer { s with stats := s.stats.resetRecent }
  | queueWaitTimer {k : ℕ} {task : QueueTask} (timer : s.timers[k]? = some task) :
      Takes s (.queueWaitTimer k)
        ({ s with timers := s.timers.eraseIdx k }.onQueueWaitTimeout task)
  | single {u : QueueSystem} {k : ℕ} {p : PromiseStep} (advances : s.advanceSingle k p = some u) :
      Takes s (.single k p) u
  | member {u : QueueSystem} {k m : ℕ} {p : PromiseStep}
      (advances : s.advanceMember k m p = some u) : Takes s (.member k m p) u
  | finallySingle {u : QueueSystem} {k : ℕ} (leaves : s.finallySingle k = some u) :
      Takes s (.finallySingle k) u
  | finallyGroup {u : QueueSystem} {k : ℕ} (leaves : s.finallyGroup k = some u) :
      Takes s (.finallyGroup k) u
  | workerMessage {i : ℕ} {result : WorkerMessage} {post : PostMessage} {pool : WorkerPoolService}
      {answered : Option Posted} (sent : s.pool.send i result = some (pool, answered)) :
      Takes s (.workerMessage i result post) ({ s with pool := pool }.afterPool
        (pool.onMessage (some (processorHandleWorkerResult post)) i result))
  | workerFailure {i : ℕ} {error : String} {post : PostMessage}
      (alive : (s.pool.worker i).isNone = false) :
      Takes s (.workerFailure i error post) (s.afterPool
        (s.pool.handleWorkerFailure (some (processorHandleWorkerResult post)) i error))

/-- **What a step does**: proofs about all steps go by cases on `Takes`. -/
theorem takes_of_step {s u : QueueSystem} {e : QueueEvent} (h : s.step e = some u) :
    s.Takes e u := by
  cases e with
  | enqueue options now =>
    cases h
    exact .enqueue options now
  | processSignal post =>
    simp only [step] at h
    split at h
    · rename_i hpending
      cases h
      exact .processSignal hpending
    · cases h
  | queueProcessTimer =>
    cases h
    split
    · rename_i hwaiting
      exact .tasksWait hwaiting
    · rename_i hempty
      exact .nothingWaits hempty
  | batchTrigger k now =>
    simp only [step] at h
    split at h
    · cases h
    · rename_i category htrigger
      cases h
      exact .batchTrigger htrigger
  | batchAgingTimer now =>
    cases h
    exact .batchAgingTimer now
  | memoryCheckTimer usage now =>
    cases h
    exact .memoryCheckTimer usage now
  | statsLogTimer =>
    cases h
    exact .statsLogTimer
  | queueWaitTimer k =>
    simp only [step] at h
    split at h
    · cases h
    · rename_i task htimer
      cases h
      exact .queueWaitTimer htimer
  | single k p => exact .single h
  | member k m p => exact .member h
  | finallySingle k => exact .finallySingle h
  | finallyGroup k => exact .finallyGroup h
  | workerMessage i result post =>
    simp only [step] at h
    split at h
    · cases h
    · rename_i pool answered hsend
      cases h
      exact .workerMessage hsend
  | workerFailure i error post =>
    simp only [step] at h
    split at h
    · cases h
    · rename_i halive
      cases h
      exact .workerFailure (Bool.eq_false_iff.mpr halive)

end QueueSystem

end BulkTraffic.Queue
