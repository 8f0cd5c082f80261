import BulkTraffic.Queue.System

/-!
# What the functions of the queue do

One lemma for each function of the processor that loops, so that no later proof unfolds it.

* `drainQueues_eq`: the loops of `processQueue` take the first tasks of the queues, as many
  as there are slots, and dispatch them in order (`dispatchAll`).
* `SameTasks`: what touches only the statistics, the active requests and the signal, as
  the callbacks of the pool and of the batches do.
* `processQueue_rule`, `processBatch_cases`, `processBatches_rule`: what a tick and what the
  processing of a batch can do, and what every processing of one batch keeps.
* `touchesBatches_of_step`: the events that touch the batches, and what they do to them.
-/

namespace BulkTraffic.Queue

open BulkTraffic.Lib BulkTraffic.Js

namespace QueueSystem

/-! ### The loops of `processQueue` -/

/-- The tasks of a list that go to the worker pool. -/
def toWorkers (isEnabled : Bool) (tasks : List QueueTask) : List QueueTask :=
  tasks.filter fun task => isWorkerEligibleTask isEnabled task

/-- The tasks of a list that go to the main thread. -/
def toMainThread (isEnabled : Bool) (tasks : List QueueTask) : List QueueTask :=
  tasks.filter fun task => !isWorkerEligibleTask isEnabled task

/-- Tasks dispatched in order. -/
def dispatchAll (s : QueueSystem) (tasks : List QueueTask) : QueueSystem :=
  { s with
    state := { s.state with activeRequests := s.state.activeRequests + tasks.length }
    pool := { s.pool with workerTaskQueue :=
      s.pool.workerTaskQueue ++ (toWorkers s.pool.useWorkers tasks).map createWorkerTaskData }
    running := s.running ++ (toMainThread s.pool.useWorkers tasks).map fun task => { task := task }
    log := s.log ++ (toMainThread s.pool.useWorkers tasks).map Call.dispatch }

theorem dispatchAll_nil (s : QueueSystem) : s.dispatchAll [] = s := by
  simp [dispatchAll, toWorkers, toMainThread]

theorem dispatch_useWorkers (s : QueueSystem) (task : QueueTask) :
    (s.dispatch task).pool.useWorkers = s.pool.useWorkers := by
  unfold dispatch
  dsimp only
  split <;> rfl

theorem dispatchAll_cons (s : QueueSystem) (task : QueueTask) (tasks : List QueueTask) :
    s.dispatchAll (task :: tasks) = (s.dispatch task).dispatchAll tasks := by
  have hactive : s.state.activeRequests + ((task :: tasks).length : ℤ) =
      s.state.activeRequests + 1 + tasks.length := by
    simp only [List.length_cons]
    omega
  unfold dispatchAll
  rw [hactive, dispatch_useWorkers]
  cases he : isWorkerEligibleTask s.pool.useWorkers task
  all_goals simp [dispatch, toWorkers, toMainThread, he, WorkerPoolService.addTask]

/-- **The loop over one queue** dispatches its first tasks, as many as there are slots. -/
theorem drain_eq (queue : List QueueTask) (slots count : ℕ) (s : QueueSystem) :
    drain queue slots count s =
      ⟨queue.drop slots, slots - (queue.take slots).length,
        count + (toWorkers s.pool.useWorkers (queue.take slots)).length, s.dispatchAll (queue.take slots)⟩ := by
  induction queue generalizing slots count s with
  | nil => simp [drain, toWorkers, dispatchAll_nil]
  | cons task queue ih =>
    cases slots with
    | zero => simp [drain, toWorkers, dispatchAll_nil]
    | succ slots =>
      simp only [drain, ih, List.drop_succ_cons, List.take_succ_cons, dispatchAll_cons,
        dispatch_useWorkers, Drained.mk.injEq, true_and, and_true]
      constructor
      · simp only [List.length_cons]
        omega
      · cases he : isWorkerEligibleTask s.pool.useWorkers task
        · simp [toWorkers, he]
        · simp [toWorkers, he]
          omega

/-- The tasks `processQueue` takes when it has so many slots. -/
structure Taken where
  high : List QueueTask
  normal : List QueueTask
  low : List QueueTask

/-- The first tasks of the queues in their order of priority. -/
def take (s : QueueSystem) (slots : ℕ) : Taken :=
  let high := s.state.highPriorityQueue.take slots
  let normal := s.state.normalPriorityQueue.take (slots - high.length)
  { high := high
    normal := normal
    low := if s.memoryPressure then []
      else s.state.lowPriorityQueue.take (slots - high.length - normal.length) }

/-- All tasks taken. -/
def Taken.all (t : Taken) : List QueueTask := t.high ++ t.normal ++ t.low

theorem dispatchAll_append (s : QueueSystem) (xs ys : List QueueTask) :
    s.dispatchAll (xs ++ ys) = (s.dispatchAll xs).dispatchAll ys := by
  induction xs generalizing s with
  | nil => simp [dispatchAll_nil]
  | cons x xs ih => rw [List.cons_append, dispatchAll_cons, dispatchAll_cons, ih]

/-- Put what is left of the queues in their place. -/
def withQueues (s : QueueSystem) (high normal low : List QueueTask) : QueueSystem :=
  { s with state := { s.state with
    highPriorityQueue := high
    normalPriorityQueue := normal
    lowPriorityQueue := low } }

theorem drop_length_take (q : List QueueTask) (n : ℕ) : q.drop (q.take n).length = q.drop n := by
  rw [List.length_take]
  rcases Nat.le_total n q.length with h | h
  · rw [Nat.min_eq_left h]
  · rw [Nat.min_eq_right h, List.drop_length, List.drop_eq_nil_of_le h]

/-- **The loops of `processQueue`** dispatch the tasks taken and leave the others. -/
theorem drainQueues_eq (s : QueueSystem) (slots : ℕ) :
    (s.drainQueues slots).1 =
      (s.dispatchAll (s.take slots).all).withQueues
        (s.state.highPriorityQueue.drop (s.take slots).high.length)
        (s.state.normalPriorityQueue.drop (s.take slots).normal.length)
        (s.state.lowPriorityQueue.drop (s.take slots).low.length) := by
  have hstate : ∀ (t : QueueSystem) tasks,
      (t.dispatchAll tasks).state.normalPriorityQueue = t.state.normalPriorityQueue ∧
        (t.dispatchAll tasks).state.lowPriorityQueue = t.state.lowPriorityQueue ∧
        (t.dispatchAll tasks).memoryPressure = t.memoryPressure := fun _ _ => ⟨rfl, rfl, rfl⟩
  unfold drainQueues take Taken.all withQueues
  simp only [drain_eq, hstate, dispatchAll_append, drop_length_take]
  by_cases hp : s.memoryPressure = true
  · simp only [if_pos hp, dispatchAll_nil, List.length_nil, List.drop_zero]
    rfl
  · simp only [if_neg hp, drop_length_take]
    rfl

/-- No more tasks are taken than there are slots. -/
theorem length_take_all_le (s : QueueSystem) (slots : ℕ) : (s.take slots).all.length ≤ slots := by
  have hhigh := List.length_take_le slots s.state.highPriorityQueue
  have hnormal := List.length_take_le (slots - (s.state.highPriorityQueue.take slots).length)
    s.state.normalPriorityQueue
  simp only [Taken.all, take, List.length_append]
  split
  · simp only [List.length_nil]
    omega
  · have hlow := List.length_take_le (slots - (s.state.highPriorityQueue.take slots).length -
      (s.state.normalPriorityQueue.take
        (slots - (s.state.highPriorityQueue.take slots).length)).length) s.state.lowPriorityQueue
    omega

/-- The tasks taken and the tasks left make up the queues. -/
theorem take_weight (w : QueueTask → ℕ) (s : QueueSystem) (slots : ℕ) :
    weight w (s.state.highPriorityQueue.drop (s.take slots).high.length) +
        weight w (s.state.normalPriorityQueue.drop (s.take slots).normal.length) +
        weight w (s.state.lowPriorityQueue.drop (s.take slots).low.length) +
        weight w (s.take slots).all =
      weight w s.state.highPriorityQueue + weight w s.state.normalPriorityQueue +
        weight w s.state.lowPriorityQueue := by
  have hprefix : ∀ (q : List QueueTask) n,
      weight w (q.drop (q.take n).length) + weight w (q.take n) = weight w q := by
    intro q n
    rw [drop_length_take, Nat.add_comm]
    exact weight_take_add_drop w n q
  have hhigh := hprefix s.state.highPriorityQueue slots
  have hnormal := hprefix s.state.normalPriorityQueue
    (slots - (s.state.highPriorityQueue.take slots).length)
  have hlow := hprefix s.state.lowPriorityQueue
    (slots - (s.state.highPriorityQueue.take slots).length -
      (s.state.normalPriorityQueue.take
        (slots - (s.state.highPriorityQueue.take slots).length)).length)
  simp only [Taken.all, take, weight_append]
  split
  · simp only [List.length_nil, List.drop_zero, weight_nil]
    omega
  · omega

/-! ### What leaves the tasks alone -/

/-- Everything but the statistics, the active requests and the signal is the same. -/
structure SameTasks (s s' : QueueSystem) : Prop where
  state : s'.state = { s.state with
    activeRequests := s'.state.activeRequests
    activeClamped := s'.state.activeClamped
    processSignalPending := s'.state.processSignalPending }
  memoryPressure : s'.memoryPressure = s.memoryPressure
  pool : s'.pool = s.pool
  timers : s'.timers = s.timers
  running : s'.running = s.running
  groups : s'.groups = s.groups
  accepted : s'.accepted = s.accepted
  refused : s'.refused = s.refused
  log : s'.log = s.log

theorem SameTasks.refl (s : QueueSystem) : SameTasks s s := ⟨rfl, rfl, rfl, rfl, rfl, rfl, rfl, rfl, rfl⟩

theorem SameTasks.trans {s t u : QueueSystem} (h : SameTasks s t) (h' : SameTasks t u) :
    SameTasks s u where
  state := by rw [h'.state, h.state]
  memoryPressure := h'.memoryPressure.trans h.memoryPressure
  pool := h'.pool.trans h.pool
  timers := h'.timers.trans h.timers
  running := h'.running.trans h.running
  groups := h'.groups.trans h.groups
  accepted := h'.accepted.trans h.accepted
  refused := h'.refused.trans h.refused
  log := h'.log.trans h.log

theorem sameTasks_requestProcessQueue (s : QueueSystem) : SameTasks s s.requestProcessQueue :=
  ⟨rfl, rfl, rfl, rfl, rfl, rfl, rfl, rfl, rfl⟩

theorem sameTasks_releaseSlot (s : QueueSystem) : SameTasks s s.releaseSlot :=
  ⟨rfl, rfl, rfl, rfl, rfl, rfl, rfl, rfl, rfl⟩

theorem sameTasks_countProcessed (s : QueueSystem) (n : ℕ) : SameTasks s (s.countProcessed n) :=
  ⟨rfl, rfl, rfl, rfl, rfl, rfl, rfl, rfl, rfl⟩

theorem sameTasks_countRejected (s : QueueSystem) (n : ℕ) : SameTasks s (s.countRejected n) :=
  ⟨rfl, rfl, rfl, rfl, rfl, rfl, rfl, rfl, rfl⟩

theorem sameTasks_countTimeout (s : QueueSystem) (n : ℕ) : SameTasks s (s.countTimeout n) :=
  ⟨rfl, rfl, rfl, rfl, rfl, rfl, rfl, rfl, rfl⟩

theorem sameTasks_rearm (s : QueueSystem) : SameTasks s s.rearm := by
  unfold rearm
  split
  · exact sameTasks_requestProcessQueue s
  · exact .refl s

theorem sameTasks_onBatchComplete (s : QueueSystem) (processed : ℕ) (activeChange : ℤ)
    (failed : ℕ) : SameTasks s (s.onBatchComplete processed activeChange failed) := by
  have hactive : ∀ (t : QueueSystem) n, SameTasks t { t with state := t.state.setActiveRequests n } :=
    fun _ _ => ⟨rfl, rfl, rfl, rfl, rfl, rfl, rfl, rfl, rfl⟩
  have hcount : SameTasks s (if 0 < failed then (s.countProcessed processed).countRejected failed
      else s.countProcessed processed) := by
    split
    · exact (sameTasks_countProcessed s processed).trans (sameTasks_countRejected _ failed)
    · exact sameTasks_countProcessed s processed
  unfold onBatchComplete
  dsimp only
  split
  · exact (hcount.trans (hactive _ _)).trans (sameTasks_requestProcessQueue _)
  · exact hcount.trans (hactive _ _)

theorem sameTasks_callback (s : QueueSystem) (c : Call) : SameTasks s (s.callback c) := by
  cases c with
  | onSuccess t => exact (sameTasks_countProcessed s 1).trans (sameTasks_releaseSlot _)
  | onFailed t => exact (sameTasks_countRejected s 1).trans (sameTasks_releaseSlot _)
  | onTaskFailed t => exact (sameTasks_countRejected s 1).trans (sameTasks_releaseSlot _)
  | _ => exact .refl s

theorem sameTasks_callbacks (calls : List Call) (s : QueueSystem) :
    SameTasks s (calls.foldl callback s) := by
  induction calls generalizing s with
  | nil => exact .refl s
  | cons c calls ih => exact (sameTasks_callback s c).trans (ih _)

theorem sameTasks_countSingle (s : QueueSystem) (p : PromiseStep) (stage : Stage) :
    SameTasks s (s.countSingle p stage) := by
  unfold countSingle
  split
  · exact sameTasks_countProcessed s 1
  · exact sameTasks_countRejected s 1
  · exact .refl s

/-- The pool has changed and made calls: the tasks are as recorded. -/
theorem sameTasks_afterPool (s : QueueSystem) (result : WorkerPoolService × List Call) :
    SameTasks ({ s with pool := result.1 }.record result.2) (s.afterPool result) :=
  sameTasks_callbacks result.2 _

/-! ### Ticks and batches -/

/-- `processQueue` returns at once, or dispatches the tasks it takes, perhaps followed by a
pass of the pool. -/
theorem processQueue_cases (post : PostMessage) (s : QueueSystem) :
    s.processQueue post = s ∨
      ∃ slots : ℕ, (slots : ℤ) ≤ s.state.config.maxConcurrentRequests - s.state.activeRequests ∧
        (s.processQueue post = (s.drainQueues slots).1.rearm ∨
          s.processQueue post = ((s.drainQueues slots).1.afterPool
            ((s.drainQueues slots).1.pool.processWorkerTasks post)).rearm) := by
  unfold processQueue
  split
  · exact .inl rfl
  · split
    · exact .inl rfl
    · rename_i hactive
      refine .inr ⟨min s.state.config.concurrentTasks
        ((s.state.config.maxConcurrentRequests : ℤ) - s.state.activeRequests).toNat, by omega, ?_⟩
      dsimp only
      split
      · exact .inr rfl
      · exact .inl rfl

/-- What the draining of the queues, a pass of the pool and a new signal keep, a tick keeps. -/
theorem processQueue_rule {P : QueueSystem → Prop} {post : PostMessage} {s : QueueSystem} (h : P s)
    (hdrain : ∀ slots : ℕ, (slots : ℤ) ≤ s.state.config.maxConcurrentRequests - s.state.activeRequests →
      P (s.drainQueues slots).1)
    (hpool : ∀ t, P t → P (t.afterPool (t.pool.processWorkerTasks post)))
    (hrearm : ∀ t, P t → P t.rearm) : P (s.processQueue post) := by
  obtain hq | ⟨slots, hslots, hq | hq⟩ := processQueue_cases post s
  · rw [hq]
    exact h
  · rw [hq]
    exact hrearm _ (hdrain slots hslots)
  · rw [hq]
    exact hrearm _ (hpool _ (hdrain slots hslots))

/-- What a batch's processing does before its callback: the tasks taken form a group. -/
def startGroup (s : QueueSystem) (taken : BatchService.Taken) : QueueSystem :=
  { s with
    state := { s.state with
      batchQueues := taken.batchQueues
      sizeClamped := s.state.sizeClamped || taken.clamped }
    groups := s.groups ++ [{ members := taken.tasksToProcess.map fun task => { task := task } }]
    log := s.log ++ taken.tasksToProcess.map Call.dispatch }

/-- Only the batches change. -/
def withBatches (s : QueueSystem) (taken : BatchService.Taken) : QueueSystem :=
  { s with state := { s.state with
      batchQueues := taken.batchQueues
      sizeClamped := s.state.sizeClamped || taken.clamped } }

/-- A batch is processed: no task is taken, or those taken form a group. -/
theorem processBatch_cases (s : QueueSystem) (category : String) (now : ℕ) :
    ∃ taken, taken = BatchService.processBatch category s.state.batchQueues s.state.activeRequests
        s.state.config.maxConcurrentRequests now ∧
      ((taken.tasksToProcess = [] ∧ s.processBatch category now = s.withBatches taken) ∨
        s.processBatch category now =
          (s.startGroup taken).onBatchComplete 0 taken.tasksToProcess.length 0) := by
  refine ⟨_, rfl, ?_⟩
  unfold processBatch
  dsimp only
  split
  · rename_i hempty
    exact .inl ⟨List.isEmpty_iff.mp hempty, rfl⟩
  · exact .inr rfl

/-- What every processing of one batch keeps, the loops over the batches keep. -/
theorem processBatches_rule {P : QueueSystem → Prop} {due : TaskBatch → Bool} {now : ℕ}
    (hstep : ∀ s category, P s → P (s.processBatch category now)) (categories : List String)
    {s : QueueSystem} (h : P s) : P (processBatches due now categories s) := by
  induction categories generalizing s with
  | nil => exact h
  | cons category categories ih =>
    simp only [processBatches]
    apply ih
    split
    · split
      · exact hstep s category h
      · exact h
    · exact h

/-- What the cleanup and the reduction of the queues keep, the memory check keeps. -/
theorem checkMemoryUsage_rule {P : QueueSystem → Prop} {s : QueueSystem} {usage : MemoryUsage}
    {now : ℕ} (h : P { s with memoryPressure := MemoryService.isHigh usage })
    (hcleanup : ∀ s, P s → P (s.cleanupOldTasks now))
    (hreduce : ∀ s, P s → P (s.forceReduceQueues now))
    (hrequest : ∀ s, P s → P s.requestProcessQueue) : P (s.checkMemoryUsage usage now) := by
  have hrelieve : P ({ s with memoryPressure := MemoryService.isHigh usage }.relieveMemory usage now) := by
    unfold relieveMemory
    split
    · dsimp only
      split
      · exact hreduce _ (hcleanup _ h)
      · exact hcleanup _ h
    · exact h
  unfold checkMemoryUsage
  dsimp only
  split
  · exact hrequest _ hrelieve
  · exact hrelieve

/-! ### What touches the batches -/

/-- The batches, their clamp and the settings are the same. -/
structure SameBatches (s u : QueueSystem) : Prop where
  batchQueues : u.state.batchQueues = s.state.batchQueues
  sizeClamped : u.state.sizeClamped = s.state.sizeClamped
  config : u.state.config = s.state.config

theorem SameBatches.trans {s t u : QueueSystem} (h : SameBatches s t) (h' : SameBatches t u) :
    SameBatches s u :=
  ⟨h'.batchQueues.trans h.batchQueues, h'.sizeClamped.trans h.sizeClamped,
    h'.config.trans h.config⟩

/-- What leaves the tasks alone leaves the batches alone. -/
theorem SameTasks.sameBatches {s u : QueueSystem} (h : SameTasks s u) : SameBatches s u := by
  constructor <;> rw [h.state]

/-- The pool and its callbacks have nothing to do with them. -/
theorem sameBatches_afterPool (s : QueueSystem) (result : WorkerPoolService × List Call) :
    SameBatches s (s.afterPool result) := by
  refine SameBatches.trans ?_ (sameTasks_afterPool s result).sameBatches
  exact ⟨rfl, rfl, rfl⟩

/-- Tasks of batches are not dispatched one by one. -/
theorem sameBatches_processQueue (post : PostMessage) (s : QueueSystem) :
    SameBatches s (s.processQueue post) := by
  have hdrained : ∀ slots, SameBatches s (s.drainQueues slots).1 := by
    intro slots
    rw [drainQueues_eq]
    exact ⟨rfl, rfl, rfl⟩
  refine processQueue_rule (P := SameBatches s) ⟨rfl, rfl, rfl⟩ (fun slots _ => hdrained slots)
    (fun t ht => ?_) fun t ht => ?_
  · exact ht.trans (sameBatches_afterPool _ _)
  · exact ht.trans (sameTasks_rearm _).sameBatches

/-- The state after a queue-wait timer has fired. -/
theorem onQueueWaitTimeout_state (s : QueueSystem) (task : QueueTask) :
    (s.onQueueWaitTimeout task).state = (s.state.removeTaskFromQueues task).2 := by
  unfold onQueueWaitTimeout
  split
  · rename_i state hfound
    rw [hfound]
    rfl
  · rename_i state hmissed
    have hsame := QueueStateHolder.removeTaskFromQueues_not_found (congrArg Prod.fst hmissed)
    exact hsame.1.symm

/-- What a step does to the batches, by its event. -/
inductive TouchesBatches (s : QueueSystem) : QueueEvent → QueueSystem → Prop where
  /-- They stay as they are. -/
  | same {e : QueueEvent} {u : QueueSystem} (h : SameBatches s u) : TouchesBatches s e u
  | enqueue (options : EnqueueOptions) (now : ℕ) :
      TouchesBatches s (.enqueue options now) (s.enqueue options now).2
  | batchTrigger (k : ℕ) (triggers : List String) (category : String) (now : ℕ) :
      TouchesBatches s (.batchTrigger k now)
        ({ s with batchTriggers := triggers }.processBatch category now)
  | batchAgingTimer (now : ℕ) : TouchesBatches s (.batchAgingTimer now) (s.processAgedBatches now)
  | memoryCheckTimer (usage : MemoryUsage) (now : ℕ) :
      TouchesBatches s (.memoryCheckTimer usage now) (s.checkMemoryUsage usage now)
  | queueWaitTimer (k : ℕ) (task : QueueTask) {u : QueueSystem}
      (state : u.state = (s.state.removeTaskFromQueues task).2) :
      TouchesBatches s (.queueWaitTimer k) u

/-- **What a step does to the batches**: proofs about them go by cases on `TouchesBatches`. -/
theorem touchesBatches_of_step {s u : QueueSystem} {e : QueueEvent} (hu : s.step e = some u) :
    TouchesBatches s e u := by
  cases takes_of_step hu with
  | enqueue options now => exact .enqueue options now
  | @processSignal post _ =>
    refine .same (SameBatches.trans ?_ (sameBatches_processQueue post _))
    exact ⟨rfl, rfl, rfl⟩
  | tasksWait _ => exact .same ⟨rfl, rfl, rfl⟩
  | nothingWaits _ => exact .same ⟨rfl, rfl, rfl⟩
  | @batchTrigger k now category _ => exact .batchTrigger k _ category now
  | batchAgingTimer now => exact .batchAgingTimer now
  | memoryCheckTimer usage now => exact .memoryCheckTimer usage now
  | statsLogTimer => exact .same ⟨rfl, rfl, rfl⟩
  | @queueWaitTimer k task _ => exact .queueWaitTimer k task (onQueueWaitTimeout_state _ task)
  | single hadvances =>
    obtain ⟨r, stage, -, -, rfl⟩ := advanceSingle_cases hadvances
    refine .same (SameBatches.trans ?_ (sameTasks_countSingle _ _ _).sameBatches)
    exact ⟨rfl, rfl, rfl⟩
  | member hadvances =>
    obtain ⟨g, r, stage, -, -, -, rfl⟩ := advanceMember_cases hadvances
    exact .same ⟨rfl, rfl, rfl⟩
  | finallySingle hleaves =>
    obtain ⟨r, -, -, rfl⟩ := finallySingle_cases hleaves
    exact .same ⟨rfl, rfl, rfl⟩
  | finallyGroup hleaves =>
    obtain ⟨g, -, -, rfl⟩ := finallyGroup_cases hleaves
    refine .same (SameBatches.trans ?_ (sameTasks_onBatchComplete _ _ _ _).sameBatches)
    exact ⟨rfl, rfl, rfl⟩
  | workerMessage _ =>
    refine .same (SameBatches.trans ?_ (sameBatches_afterPool _ _))
    exact ⟨rfl, rfl, rfl⟩
  | workerFailure _ => exact .same (sameBatches_afterPool _ _)

end QueueSystem

end BulkTraffic.Queue
