import BulkTraffic.Queue.Slots

/-!
# Slots and workers

The queue with its worker pool, enabled or not, until it is shut down.

* `SlotFlow`: what the functions of the pool do to the slots. A pending task keeps its slot while
  it is posted, and a callback gives back the slot of a task that is settled.
* `WorkerSlots`: the invariant of the runs. A slot is held by every task on the main thread whose
  `finally` has not run, by every pending task and by every task posted and not settled; so
  `activeRequests` is never clamped and never exceeds its limit.
* `workerPlace`: an accepted task is in one place, and is handed over at most once.

A posted task that is not assigned any more holds its slot too. Its slot is not given back by
anything but an answer that settles it.
-/

namespace BulkTraffic.Queue

open BulkTraffic.Lib BulkTraffic.Js

namespace Call

/-- Is the call a message posted to a worker? -/
@[simp] def posts : Call → ℕ
  | post .. => 1
  | _ => 0

/-- Does the call settle a task by a worker's result or failure? -/
@[simp] def byWorker : Call → ℕ
  | resolve _ resolver _ => if resolver = .worker then 1 else 0
  | reject _ settler _ => if settler = .worker then 1 else 0
  | _ => 0

end Call

namespace WorkerPoolService

/-- What every function of the pool does to the slots, from `s` to `s'` with the calls it makes. -/
structure SlotFlow (s s' : WorkerPoolService) (calls : List Call) : Prop where
  /-- A pending task stays, is posted, or gives its slot back; so does one settled by a worker. -/
  pending : s'.workerTaskQueue.length + weight Call.posts calls + weight Call.reportsSuccess calls +
    weight Call.reportsFailure calls = s.workerTaskQueue.length + weight Call.byWorker calls
  /-- What is assigned afterwards was assigned or posted, and was not settled. -/
  assigned : s'.assignedTasks.weightOf (fun _ => 1) + weight Call.byWorker calls ≤
    s.assignedTasks.weightOf (fun _ => 1) + weight Call.posts calls

/-- Picking: a task dropped gives its slot back, and one may be taken. -/
theorem dequeued_slots (s : WorkerPoolService) :
    s.afterDequeue.workerTaskQueue.length + weight Call.reportsFailure s.dequeued.calls +
        s.dequeued.picked.elim 0 (fun _ => 1) = s.workerTaskQueue.length := by
  have hscan := (ClassQueue.scan_perm dispatchableType s.router.canDispatchType s.workerTaskQueue).length_eq
  have hpicked : s.dequeued.picked.elim 0 (fun _ => 1) =
      (ClassQueue.taken dispatchableType s.router.canDispatchType s.workerTaskQueue).toList.length := by
    cases h : s.dequeued.picked with
    | none =>
      rw [s.router.picked_eq_none_iff.mp h]
      rfl
    | some p =>
      obtain ⟨c, hc, -⟩ := s.router.picked_eq_some_iff.mp h
      rw [hc]
      rfl
  have hcalls : weight Call.reportsFailure s.dequeued.calls =
      (ClassQueue.dropped dispatchableType s.router.canDispatchType s.workerTaskQueue).length := by
    rw [dequeued, WorkerTaskRouterService.dequeueDispatchableTask_eq, weight_flatMap]
    exact (weight_const 1 _).trans (Nat.one_mul _)
  have hqueue : s.afterDequeue.workerTaskQueue =
      ClassQueue.left dispatchableType s.router.canDispatchType s.workerTaskQueue := by
    rw [afterDequeue, dequeued, WorkerTaskRouterService.dequeueDispatchableTask_eq]
  rw [List.length_append, List.length_append] at hscan
  rw [hpicked, hcalls, hqueue]
  omega

theorem dispatchTo_slots (post : PostMessage) (s : WorkerPoolService) (i : ℕ) :
    SlotFlow s (s.dispatchTo post i).1 (s.dispatchTo post i).2 := by
  have htally := s.dequeued_slots
  have hposts := s.weight_dequeued_calls (w := Call.posts) (fun _ => rfl) fun _ => rfl
  have hworker := s.weight_dequeued_calls (w := Call.byWorker) (fun _ => rfl) fun _ => rfl
  have hsuccess := s.weight_dequeued_calls (w := Call.reportsSuccess) (fun _ => rfl) fun _ => rfl
  obtain ⟨hp, hd⟩ | ⟨td, type, hp, -, hd⟩ | ⟨td, type, thrown, hp, -, hd⟩ := dispatchTo_cases post s i
  · simp only [hp, Option.elim_none] at htally
    rw [hd]
    exact ⟨by dsimp only; omega, by simp [hposts, hworker]⟩
  · have hset := s.assignedTasks.weightOf_set (fun _ => 1) i td
    simp only [hp, Option.elim_some] at htally
    rw [hd]
    constructor
    · simp [hposts, hworker, hsuccess]
      omega
    · simp [hposts, hworker] at hset ⊢
      omega
  · have hdelete := s.assignedTasks.weightOf_delete (fun _ => 1) i
    simp only [hp, Option.elim_some] at htally
    rw [hd]
    constructor
    · simp [hposts, hworker, hsuccess]
      omega
    · simp [hposts, hworker] at hdelete ⊢
      omega

theorem handleWorkerResult_slots (s : WorkerPoolService) (i : ℕ) (result : WorkerMessage) :
    SlotFlow s (s.handleWorkerResult i result).1 (s.handleWorkerResult i result).2 := by
  rw [handleWorkerResult_fst]
  cases h : s.assigned i with
  | none =>
    rw [handleWorkerResult_calls_of_none h]
    exact ⟨by simp, by simp [JsMap.delete_of_none h]⟩
  | some td =>
    have hdelete := s.assignedTasks.weightOf_delete_of_some (fun _ => 1) h
    rw [handleWorkerResult_calls_of_some h]
    split
    · exact ⟨by simp, by simp; omega⟩
    · exact ⟨by simp, by simp; omega⟩

/-- All functions of the pool keep account of the slots. -/
theorem slots_obeyed : Obeyed SlotFlow where
  same hq ha := ⟨by rw [hq]; rfl, by rw [ha]; exact Nat.le_refl _⟩
  trans h h' := by
    have h₁ := h.pending
    have h₂ := h'.pending
    have h₃ := h.assigned
    have h₄ := h'.assigned
    constructor
    · simp only [weight_append]
      omega
    · simp only [weight_append]
      omega
  dispatch := dispatchTo_slots
  result := handleWorkerResult_slots

end WorkerPoolService

namespace QueueSystem

/-- The slots that tasks hold: on the main thread, pending for a worker, or posted to one. -/
def held (s : QueueSystem) : ℕ :=
  s.outstanding + s.pool.workerTaskQueue.length + weight Call.posts s.log

/-- The invariant of the runs, with or without workers. -/
structure WorkerSlots (config : QueueConfig) (s : QueueSystem) : Prop where
  sameConfig : s.state.config = config
  /-- Every slot taken is held by a task that has not given it back. -/
  active : s.state.activeRequests + weight Call.byWorker s.log = s.held
  /-- Workers settle what has been posted, and what they are assigned is still to be settled. -/
  assigned : s.pool.assignedTasks.weightOf (fun _ => 1) + weight Call.byWorker s.log ≤
    weight Call.posts s.log
  bounded : s.state.activeRequests ≤ config.maxConcurrentRequests
  queued : s.state.getTotalQueueLength ≤ config.queueOverflowThreshold
  unclamped : s.state.activeClamped = false

namespace WorkerSlots

variable {config : QueueConfig} {s : QueueSystem}

/-- What takes or returns no slot keeps the invariant. -/
theorem of_same (h : WorkerSlots config s) {u : QueueSystem} (hconfig : u.state.config = s.state.config)
    (hqueue : u.pool.workerTaskQueue = s.pool.workerTaskQueue)
    (hassigned : u.pool.assignedTasks = s.pool.assignedTasks)
    (hposts : weight Call.posts u.log = weight Call.posts s.log)
    (hworker : weight Call.byWorker u.log = weight Call.byWorker s.log)
    (hactive : u.state.activeRequests = s.state.activeRequests)
    (houtstanding : u.outstanding = s.outstanding)
    (hclamped : u.state.activeClamped = s.state.activeClamped)
    (hqueued : u.state.getTotalQueueLength ≤ s.state.getTotalQueueLength) : WorkerSlots config u where
  sameConfig := hconfig.trans h.sameConfig
  active := by rw [hactive, hworker, held, houtstanding, hqueue, hposts]; exact h.active
  assigned := by rw [hassigned, hworker, hposts]; exact h.assigned
  bounded := by rw [hactive]; exact h.bounded
  queued := hqueued.trans h.queued
  unclamped := hclamped.trans h.unclamped

theorem countProcessed (h : WorkerSlots config s) (n : ℕ) : WorkerSlots config (s.countProcessed n) :=
  h.of_same rfl rfl rfl rfl rfl rfl rfl rfl (Nat.le_refl _)

theorem countRejected (h : WorkerSlots config s) (n : ℕ) : WorkerSlots config (s.countRejected n) :=
  h.of_same rfl rfl rfl rfl rfl rfl rfl rfl (Nat.le_refl _)

theorem countTimeout (h : WorkerSlots config s) (n : ℕ) : WorkerSlots config (s.countTimeout n) :=
  h.of_same rfl rfl rfl rfl rfl rfl rfl rfl (Nat.le_refl _)

theorem requestProcessQueue (h : WorkerSlots config s) : WorkerSlots config s.requestProcessQueue :=
  h.of_same rfl rfl rfl rfl rfl rfl rfl rfl (Nat.le_refl _)

theorem rearm (h : WorkerSlots config s) : WorkerSlots config s.rearm := by
  unfold QueueSystem.rearm
  split
  · exact h.requestProcessQueue
  · exact h

/-- Calls that have nothing to do with workers. -/
theorem record (h : WorkerSlots config s) {calls : List Call} (hposts : weight Call.posts calls = 0)
    (hworker : weight Call.byWorker calls = 0) : WorkerSlots config (s.record calls) :=
  h.of_same rfl rfl rfl (by simp only [QueueSystem.record, weight_append, hposts, Nat.add_zero])
    (by simp only [QueueSystem.record, weight_append, hworker, Nat.add_zero]) rfl rfl rfl (Nat.le_refl _)

/-! ### The pool -/

/-- The callbacks give back a slot each: no clamp is needed where there are as many. -/
theorem callbacks_active (calls : List Call) (s : QueueSystem)
    (hle : ((weight Call.reportsSuccess calls + weight Call.reportsFailure calls : ℕ) : ℤ) ≤
      s.state.activeRequests) :
    (calls.foldl callback s).state.activeRequests =
        s.state.activeRequests - (weight Call.reportsSuccess calls + weight Call.reportsFailure calls : ℕ) ∧
      (calls.foldl callback s).state.activeClamped = s.state.activeClamped := by
  induction calls generalizing s with
  | nil => exact ⟨by simp, rfl⟩
  | cons c calls ih =>
    have hone : c.reportsSuccess + c.reportsFailure ≤ 1 := by cases c <;> simp
    simp only [weight_cons] at hle ⊢
    have hcall : (s.callback c).state.activeRequests =
          s.state.activeRequests - (c.reportsSuccess + c.reportsFailure : ℕ) ∧
        (s.callback c).state.activeClamped = s.state.activeClamped := by
      have hgiven : ∀ t : QueueSystem, t.state = s.state → c.reportsSuccess + c.reportsFailure = 1 →
          t.releaseSlot.state.activeRequests = s.state.activeRequests - 1 ∧
            t.releaseSlot.state.activeClamped = s.state.activeClamped := by
        intro t ht hc
        have hpos : (1 : ℤ) ≤ s.state.activeRequests := by omega
        simp only [releaseSlot, QueueSystem.requestProcessQueue, QueueStateHolder.decrementActiveRequests,
          QueueStateHolder.setActiveRequests, ht]
        refine ⟨by omega, ?_⟩
        rw [decide_eq_false (by omega), Bool.or_false]
      cases c with
      | onSuccess t => exact hgiven _ rfl rfl
      | onFailed t => exact hgiven _ rfl rfl
      | onTaskFailed t => exact hgiven _ rfl rfl
      | _ => exact ⟨by simp [callback], rfl⟩
    obtain ⟨hactive, hclamped⟩ := ih (s.callback c) (by omega)
    rw [List.foldl_cons]
    exact ⟨by omega, hclamped.trans hcall.2⟩

/-- Work of the pool keeps account of the slots. -/
theorem afterPool (h : WorkerSlots config s) {pool : WorkerPoolService} {calls : List Call}
    (hflow : WorkerPoolService.SlotFlow s.pool pool calls) :
    WorkerSlots config (s.afterPool (pool, calls)) := by
  have hsame := sameTasks_afterPool s (pool, calls)
  have hpending := hflow.pending
  have hassigned := hflow.assigned
  have hbefore := h.assigned
  have hactive := h.active
  have hbounded := h.bounded
  simp only [held] at hactive
  obtain ⟨hafter, hclamped⟩ := callbacks_active calls ({ s with pool := pool }.record calls)
    (by simp only [QueueSystem.record]; omega)
  have hlog : (s.afterPool (pool, calls)).log = s.log ++ calls := hsame.log
  have hpool : (s.afterPool (pool, calls)).pool = pool := hsame.pool
  have houtstanding : (s.afterPool (pool, calls)).outstanding = s.outstanding := by
    simp only [outstanding]
    rw [hsame.running, hsame.groups]
    rfl
  have hactive' : (s.afterPool (pool, calls)).state.activeRequests =
      s.state.activeRequests - (weight Call.reportsSuccess calls + weight Call.reportsFailure calls : ℕ) := hafter
  refine ⟨?_, ?_, ?_, ?_, ?_, ?_⟩
  · rw [hsame.state]
    exact h.sameConfig
  · rw [hactive', held, houtstanding, hpool, hlog, weight_append, weight_append]
    omega
  · rw [hpool, hlog, weight_append, weight_append]
    omega
  · rw [hactive']
    omega
  · rw [hsame.state]
    exact h.queued
  · exact hclamped.trans h.unclamped

/-! ### Taking slots -/

/-- The tasks taken by a tick take a slot each, on their way to the workers or not. -/
theorem drainQueues (h : WorkerSlots config s) {slots : ℕ}
    (hslots : (slots : ℤ) ≤ s.state.config.maxConcurrentRequests - s.state.activeRequests) :
    WorkerSlots config (s.drainQueues slots).1 := by
  have hlength := length_take_all_le s slots
  have hqueues := take_weight (fun _ => 1) s slots
  have hsplit := weight_toMain_add_toWorkers (fun _ => 1) s.pool.useWorkers (s.take slots).all
  simp only [weight_const, Nat.one_mul] at hqueues hsplit
  have hqueued := h.queued
  have hactive := h.active
  have hposts := weight_dispatch_eq_zero (w := Call.posts) (fun _ => rfl)
    (toMainThread s.pool.useWorkers (s.take slots).all)
  have hworker := weight_dispatch_eq_zero (w := Call.byWorker) (fun _ => rfl)
    (toMainThread s.pool.useWorkers (s.take slots).all)
  rw [h.sameConfig] at hslots
  simp only [QueueStateHolder.getTotalQueueLength] at hqueued
  rw [drainQueues_eq]
  refine ⟨h.sameConfig, ?_, ?_, ?_, ?_, h.unclamped⟩
  · simp only [withQueues, dispatchAll, held, outstanding, weight_append, hposts, hworker,
      List.length_append, List.length_map] at hactive ⊢
    omega
  · simp only [withQueues, dispatchAll, weight_append, hposts, hworker]
    exact h.assigned
  · simp only [withQueues, dispatchAll]
    omega
  · simp only [withQueues, dispatchAll, QueueStateHolder.getTotalQueueLength,
      QueueStateHolder.getBatchTaskCount] at hqueued ⊢
    omega

theorem processQueue (h : WorkerSlots config s) (post : PostMessage) :
    WorkerSlots config (s.processQueue post) := by
  apply processQueue_rule h
  · exact fun slots hslots => h.drainQueues hslots
  · exact fun t ht => ht.afterPool (WorkerPoolService.slots_obeyed.processWorkerTasks post t.pool)
  · exact fun t ht => ht.rearm

/-- The tasks taken from a batch take a slot each, as a group. -/
theorem processBatch (h : WorkerSlots config s) (category : String) (now : ℕ) :
    WorkerSlots config (s.processBatch category now) := by
  have hactive := h.active
  have hbounded := h.bounded
  have hweight := BatchService.processBatch_weight (fun _ => 1) category s.state.batchQueues
    s.state.activeRequests s.state.config.maxConcurrentRequests now
  obtain ⟨taken, htaken, ⟨-, hb⟩ | hb⟩ := processBatch_cases s category now
  · rw [hb]
    rw [← htaken] at hweight
    refine h.of_same rfl rfl rfl rfl rfl rfl rfl rfl ?_
    rw [QueueStateHolder.getTotalQueueLength_eq, QueueStateHolder.getTotalQueueLength_eq]
    simp only [withBatches, QueueStateHolder.waiting]
    omega
  · have hroom := BatchService.processBatch_length category s.state.batchQueues
      s.state.activeRequests s.state.config.maxConcurrentRequests now
      (by rw [h.sameConfig]; exact hbounded)
    rw [← htaken] at hweight hroom
    rw [h.sameConfig] at hroom
    have hposts := weight_dispatch_eq_zero (w := Call.posts) (fun _ => rfl) taken.tasksToProcess
    have hworker := weight_dispatch_eq_zero (w := Call.byWorker) (fun _ => rfl) taken.tasksToProcess
    have hassigned := h.assigned
    have hqueued := h.queued
    rw [QueueStateHolder.getTotalQueueLength_eq] at hqueued
    have hcount : ∀ t : QueueSystem, t.onBatchComplete 0 taken.tasksToProcess.length 0 =
        { t.countProcessed 0 with state :=
          t.state.setActiveRequests (t.state.activeRequests + taken.tasksToProcess.length) } := by
      intro t
      simp [onBatchComplete, QueueSystem.countProcessed]
    have hnonneg : 0 ≤ s.state.activeRequests := by
      simp only [held] at hactive
      omega
    rw [hb, hcount]
    refine ⟨h.sameConfig, ?_, ?_, ?_, ?_, ?_⟩
    · simp only [QueueStateHolder.setActiveRequests, QueueSystem.countProcessed, startGroup, held,
        outstanding, weight_append, weight_cons, weight_nil, List.length_map, hposts, hworker] at hactive ⊢
      omega
    · simp only [QueueSystem.countProcessed, startGroup, weight_append, hposts, hworker]
      exact hassigned
    · simp only [QueueStateHolder.setActiveRequests, startGroup]
      omega
    · rw [QueueStateHolder.getTotalQueueLength_eq]
      simp only [QueueStateHolder.setActiveRequests, startGroup, QueueStateHolder.waiting] at hqueued ⊢
      omega
    · simp only [QueueStateHolder.setActiveRequests, startGroup, h.unclamped, Bool.false_or,
        decide_eq_false_iff_not]
      omega

theorem processBatches (h : WorkerSlots config s) (due : TaskBatch → Bool) (now : ℕ)
    (categories : List String) : WorkerSlots config (processBatches due now categories s) :=
  processBatches_rule (fun _ category h => h.processBatch category now) categories h

/-! ### Returning slots -/

/-- Slots returned, one for each task that held one: no clamp is needed. -/
theorem of_released {u : QueueSystem} (h : WorkerSlots config s) (hstate : u.state = s.state)
    (hpool : u.pool = s.pool) (hlog : u.log = s.log) {n : ℕ}
    (houtstanding : u.outstanding + n = s.outstanding) :
    WorkerSlots config { u with state := u.state.setActiveRequests (u.state.activeRequests - n) } := by
  have hactive := h.active
  have hbounded := h.bounded
  have hassigned := h.assigned
  simp only [held] at hactive
  refine ⟨?_, ?_, ?_, ?_, ?_, ?_⟩
  · exact (congrArg QueueStateHolder.config hstate).trans h.sameConfig
  · change max 0 (u.state.activeRequests - n) + (weight Call.byWorker u.log : ℤ) =
      (u.outstanding + u.pool.workerTaskQueue.length + weight Call.posts u.log : ℕ)
    rw [hstate, hpool, hlog]
    omega
  · change u.pool.assignedTasks.weightOf (fun _ => 1) + weight Call.byWorker u.log ≤ weight Call.posts u.log
    rw [hpool, hlog]
    exact hassigned
  · change max 0 (u.state.activeRequests - n) ≤ (config.maxConcurrentRequests : ℤ)
    rw [hstate]
    omega
  · exact (congrArg QueueStateHolder.getTotalQueueLength hstate).trans_le h.queued
  · change (u.state.activeClamped || decide (u.state.activeRequests - n < 0)) = false
    rw [hstate, h.unclamped, Bool.false_or, decide_eq_false_iff_not]
    omega

theorem finallySingle (h : WorkerSlots config s) {u : QueueSystem} {k : ℕ}
    (hu : s.finallySingle k = some u) : WorkerSlots config u := by
  obtain ⟨r, hr, -, rfl⟩ := finallySingle_cases hu
  refine (h.of_released (u := { s with running := s.running.eraseIdx k }) (n := 1) rfl rfl rfl ?_)
    |>.requestProcessQueue
  have hk := (List.getElem?_eq_some_iff.mp hr).1
  simp only [outstanding, List.length_eraseIdx, if_pos hk]
  omega

theorem finallyGroup (h : WorkerSlots config s) {u : QueueSystem} {k : ℕ}
    (hu : s.finallyGroup k = some u) : WorkerSlots config u := by
  obtain ⟨g, hg, -, rfl⟩ := finallyGroup_cases hu
  have herase := weight_eraseIdx (fun g : BatchGroup => g.members.length) hg
  let t := { s with groups := s.groups.eraseIdx k }
  let counted := if 0 < g.failed then (t.countProcessed g.processed).countRejected g.failed
    else t.countProcessed g.processed
  have hcounted : counted = { t with stats := counted.stats } := by
    simp only [counted]
    split <;> rfl
  have hreleased := h.of_released (u := counted) (n := g.members.length)
    (by rw [hcounted]) (by rw [hcounted]) (by rw [hcounted])
    (by rw [hcounted]; simp only [t, outstanding]; omega)
  unfold onBatchComplete
  dsimp only
  split
  · exact hreleased.requestProcessQueue
  · exact hreleased

/-! ### Waiting tasks -/

theorem cleanupOldTasks (h : WorkerSlots config s) (now : ℕ) :
    WorkerSlots config (s.cleanupOldTasks now) := by
  have hweight := MemoryService.cleanupOldTasks_weight (w := fun _ => 1) (v := Call.timesOut)
    (fun _ _ => rfl) now s.state
  have hnone : ∀ w : Call → ℕ, (∀ task reason, w (.reject task .cleanup reason) = 0) →
      weight w (MemoryService.cleanupOldTasks now s.state).1 = 0 := by
    intro w hw
    refine weight_eq_zero _ fun c hc => ?_
    obtain ⟨task, reason, rfl⟩ := cleanupOldTasks_mem hc
    exact hw task reason
  unfold QueueSystem.cleanupOldTasks
  refine WorkerSlots.countTimeout (WorkerSlots.record ?_ (hnone _ fun _ _ => rfl)
    (hnone _ fun _ _ => rfl)) _
  refine h.of_same rfl rfl rfl rfl rfl rfl rfl rfl ?_
  rw [QueueStateHolder.getTotalQueueLength_eq, QueueStateHolder.getTotalQueueLength_eq]
  exact Nat.le_of_add_right_le hweight.le

theorem forceReduceQueues (h : WorkerSlots config s) (now : ℕ) :
    WorkerSlots config (s.forceReduceQueues now) := by
  have hkept := MemoryService.keptLow_weight (fun _ => 1) s.state.lowPriorityQueue
  have hnone : ∀ w : Call → ℕ, (∀ task reason, w (.reject task .forceReduce reason) = 0) →
      weight w ((MemoryService.poppedLow s.state.lowPriorityQueue).map fun task =>
        Call.reject task .forceReduce (.error MemoryService.forceReduceMessage)) = 0 := by
    intro w hw
    rw [weight_map]
    exact weight_eq_zero _ fun task _ => hw task _
  unfold QueueSystem.forceReduceQueues
  dsimp only
  refine WorkerSlots.countRejected (WorkerSlots.processBatches (WorkerSlots.record ?_
    (hnone _ fun _ _ => rfl) (hnone _ fun _ _ => rfl)) _ now _) _
  refine h.of_same rfl rfl rfl rfl rfl rfl rfl rfl ?_
  rw [QueueStateHolder.getTotalQueueLength_eq, QueueStateHolder.getTotalQueueLength_eq]
  simp only [QueueStateHolder.waiting]
  omega

theorem checkMemoryUsage (h : WorkerSlots config s) (usage : MemoryUsage) (now : ℕ) :
    WorkerSlots config (s.checkMemoryUsage usage now) :=
  checkMemoryUsage_rule (P := WorkerSlots config)
    (h.of_same rfl rfl rfl rfl rfl rfl rfl rfl (Nat.le_refl _))
    (fun _ h => h.cleanupOldTasks now) (fun _ h => h.forceReduceQueues now)
    fun _ h => h.requestProcessQueue

theorem onQueueWaitTimeout (h : WorkerSlots config s) (hk : s.state.Keyed) (task : QueueTask) :
    WorkerSlots config (s.onQueueWaitTimeout task) := by
  unfold QueueSystem.onQueueWaitTimeout
  split
  · rename_i state hfound
    have hstate : (s.state.removeTaskFromQueues task).2 = state := by rw [hfound]
    have hweight : (s.state.removeTaskFromQueues task).2.waiting (fun _ => 1) + 1 =
        s.state.waiting fun _ => 1 :=
      QueueStateHolder.removeTaskFromQueues_found hk (by rw [hfound]) fun _ _ => rfl
    have hframe := QueueStateHolder.removeTaskFromQueues_frame s.state task
    rw [hstate] at hweight hframe
    refine WorkerSlots.record (WorkerSlots.countTimeout ?_ 1) rfl rfl
    refine h.of_same ?_ rfl rfl rfl rfl ?_ rfl ?_ ?_
    · rw [hframe]
    · rw [hframe]
    · rw [hframe]
    · rw [QueueStateHolder.getTotalQueueLength_eq, QueueStateHolder.getTotalQueueLength_eq]
      dsimp only
      omega
  · exact h

/-- There is room for a task that is accepted. -/
theorem accept (h : WorkerSlots config s) (options : NormalizedEnqueueOptions) (now : ℕ)
    (hroom : s.state.getTotalQueueLength < s.state.config.queueOverflowThreshold) :
    WorkerSlots config (s.accept options now) := by
  have hwaiting := place_waiting (s.register (s.newTask options now)) (s.newTask options now)
    options.batch now (fun _ => 1)
  unfold QueueSystem.accept
  apply WorkerSlots.requestProcessQueue
  rw [h.sameConfig, QueueStateHolder.getTotalQueueLength_eq] at hroom
  have hqueued : ((s.register (s.newTask options now)).place (s.newTask options now) options.batch
      now).state.getTotalQueueLength ≤ config.queueOverflowThreshold := by
    rw [QueueStateHolder.getTotalQueueLength_eq, hwaiting]
    exact hroom
  rw [place_frame] at hqueued ⊢
  exact ⟨h.sameConfig, h.active, h.assigned, h.bounded, hqueued, h.unclamped⟩

theorem enqueue (h : WorkerSlots config s) (options : EnqueueOptions) (now : ℕ) :
    WorkerSlots config (s.enqueue options now).2 := by
  have hparser : ∀ parser refused, WorkerSlots config { s with parser := parser, refused := refused } :=
    fun _ _ => h.of_same rfl rfl rfl rfl rfl rfl rfl rfl (Nat.le_refl _)
  obtain ⟨parser, he | he | ⟨normalized, -, hroom, he⟩⟩ := enqueue_cases s options now
  · rw [he]
    exact hparser parser s.refused
  · rw [he]
    exact (hparser parser (s.refused + 1)).countRejected 1
  · rw [he]
    exact (hparser parser s.refused).accept normalized now hroom

/-! ### Promise chains -/

/-- A promise chain of the main thread makes no call of a worker. -/
theorem stepCalls_noWorker (task : QueueTask) (p : PromiseStep) (stage : Stage) :
    weight Call.posts (stepCalls task p stage) = 0 ∧
      weight Call.byWorker (stepCalls task p stage) = 0 := by
  unfold stepCalls
  split
  · exact ⟨rfl, rfl⟩
  · rename_i outcome
    cases outcome <;> exact ⟨rfl, rfl⟩
  · exact ⟨rfl, rfl⟩

theorem advanceSingle (h : WorkerSlots config s) {u : QueueSystem} {k : ℕ} {p : PromiseStep}
    (hu : s.advanceSingle k p = some u) : WorkerSlots config u := by
  obtain ⟨r, stage, -, -, rfl⟩ := advanceSingle_cases hu
  have hmoved : WorkerSlots config
      ({ s with running := s.running.set k { r with stage := stage } }.record
        (stepCalls r.task p stage)) := by
    refine WorkerSlots.record ?_ (stepCalls_noWorker _ _ _).1 (stepCalls_noWorker _ _ _).2
    exact h.of_same rfl rfl rfl rfl rfl rfl (by simp [outstanding]) rfl (Nat.le_refl _)
  unfold countSingle
  split
  · exact hmoved.countProcessed 1
  · exact hmoved.countRejected 1
  · exact hmoved

theorem advanceMember (h : WorkerSlots config s) {u : QueueSystem} {k m : ℕ} {p : PromiseStep}
    (hu : s.advanceMember k m p = some u) : WorkerSlots config u := by
  obtain ⟨g, r, stage, hg, -, -, rfl⟩ := advanceMember_cases hu
  refine WorkerSlots.record ?_ (stepCalls_noWorker _ _ _).1 (stepCalls_noWorker _ _ _).2
  refine h.of_same rfl rfl rfl rfl rfl rfl ?_ rfl (Nat.le_refl _)
  have hset := weight_set (fun g : BatchGroup => g.members.length) hg
    ({ g with members := g.members.set m { r with stage := stage } }.count p stage)
  simp only [count_members, List.length_set] at hset
  simp only [outstanding]
  omega

/-! ### Runs -/

/-- Every step keeps the invariant. -/
theorem step (h : WorkerSlots config s) (hs : Ledger s) {u : QueueSystem} {e : QueueEvent}
    (hu : s.step e = some u) : WorkerSlots config u := by
  have hsame : ∀ {t : QueueSystem}, t.state = s.state → t.pool = s.pool → t.log = s.log →
      t.running = s.running → t.groups = s.groups → WorkerSlots config t := by
    intro t hstate hpool hlog hrunning hgroups
    refine h.of_same ?_ ?_ ?_ ?_ ?_ ?_ ?_ ?_ ?_
    all_goals simp only [hstate, hpool, hlog, outstanding, hrunning, hgroups, Nat.le_refl]
  cases takes_of_step hu with
  | enqueue options now => exact h.enqueue options now
  | @processSignal post _ =>
    refine WorkerSlots.processQueue ?_ post
    exact h.of_same rfl rfl rfl rfl rfl rfl rfl rfl (Nat.le_refl _)
  | tasksWait _ => exact h.requestProcessQueue
  | nothingWaits _ => exact h
  | @batchTrigger _ now _ _ =>
    refine WorkerSlots.processBatch ?_ _ now
    exact hsame rfl rfl rfl rfl rfl
  | batchAgingTimer now => exact h.processBatches _ now _
  | memoryCheckTimer usage now => exact h.checkMemoryUsage usage now
  | statsLogTimer => exact hsame rfl rfl rfl rfl rfl
  | @queueWaitTimer k _ _ =>
    refine WorkerSlots.onQueueWaitTimeout (s := { s with timers := s.timers.eraseIdx k }) ?_ hs.keyed _
    exact hsame rfl rfl rfl rfl rfl
  | single hadvances => exact h.advanceSingle hadvances
  | member hadvances => exact h.advanceMember hadvances
  | finallySingle hleaves => exact h.finallySingle hleaves
  | finallyGroup hleaves => exact h.finallyGroup hleaves
  | @workerMessage i result post pool answered hsend =>
    obtain ⟨hqueue, hassigned, -⟩ := send_fields hsend
    have hsent : WorkerSlots config { s with pool := pool } :=
      h.of_same rfl hqueue hassigned rfl rfl rfl rfl rfl (Nat.le_refl _)
    exact hsent.afterPool (WorkerPoolService.slots_obeyed.onMessage post pool i result)
  | @workerFailure i error post _ =>
    exact h.afterPool (WorkerPoolService.slots_obeyed.handleWorkerFailure post s.pool i error)

end WorkerSlots

variable {config : QueueConfig} {taskIdCounter : ℕ} {stats : QueueStatsService}
  {allowCustomWorkload useWorkers : Bool} {workerCount : ℕ} {cpu memory custom : Option ℕ}

theorem WorkerSlots.initial : WorkerSlots config (initial config taskIdCounter stats
    allowCustomWorkload useWorkers workerCount cpu memory custom) := by
  obtain ⟨hqueue, hassigned⟩ := initial_pool useWorkers workerCount
    (.create workerCount cpu memory custom)
  refine ⟨rfl, ?_, ?_, Int.natCast_nonneg _, Nat.zero_le _, rfl⟩
  · simp [QueueSystem.initial, held, outstanding, hqueue]
  · simp [QueueSystem.initial, hassigned]

theorem WorkerSlots.of_reachable {s : QueueSystem}
    (h : Reachable QueueSystem.step (QueueSystem.initial config taskIdCounter stats
      allowCustomWorkload useWorkers workerCount cpu memory custom) s) : WorkerSlots config s :=
  (h.invariant (P := fun s => Ledger s ∧ WorkerSlots config s) ⟨.initial, .initial⟩
    fun _ _ _ hs _ hu => ⟨hs.1.step hu, hs.2.step hs.1 hu⟩).2

/-! ### Slots that are lost -/

/-- How many of the tasks assigned to workers are task `x`. -/
abbrev assignedTo (s : QueueSystem) (x : ℕ) : ℕ := s.pool.assignedTasks.weightOf (isTaskData x)

/-- The tasks posted to a worker which no worker is assigned and none has settled. -/
def forgotten (s : QueueSystem) : List QueueTask :=
  s.accepted.filter fun task =>
    s.assignedTo task.id + weight (Call.settledByWorker task.id) s.log < weight (Call.posted task.id) s.log

/-- What is said of accepted tasks, one by one, adds up over all of them. -/
theorem weight_accepted {α : Type*} {s : QueueSystem} {w : ℕ → α → ℕ} {v : α → ℕ} {l : List α}
    (h : ∀ c ∈ l, (v c = 0 ∧ ∀ x, w x c = 0) ∨
      v c = 1 ∧ ∃ t : QueueTask, weight (isTask t.id) s.accepted = 1 ∧ ∀ x, w x c = isTask x t) :
    weight (fun a : QueueTask => weight (w a.id) l) s.accepted = weight v l := by
  rw [weight_comm (fun (a : QueueTask) c => w a.id c)]
  refine weight_congr fun c hc => ?_
  obtain ⟨hv, hw⟩ | ⟨hv, t, ht, hw⟩ := h c hc
  · rw [hv]
    exact weight_eq_zero _ fun a _ => hw a.id
  · rw [hv, ← ht]
    refine weight_congr fun a _ => ?_
    rw [hw, isTask, isTask]
    exact if_congr eq_comm rfl rfl

/-- A task handed to a worker is an accepted one, and is handed over once. -/
theorem Ledger.posted_le {s : QueueSystem} (h : Ledger s) (x : ℕ) :
    s.assignedTo x + weight (Call.settledByWorker x) s.log ≤ weight (Call.posted x) s.log ∧
      weight (Call.posted x) s.log ≤ weight (isTask x) s.accepted ∧ weight (isTask x) s.accepted ≤ 1 := by
  have hplace := h.place x
  exact ⟨h.worker x, by omega, h.once x⟩

/-- What holds of the calls that post tasks or settle them by workers, and of the tasks assigned. -/
theorem Ledger.sums {s : QueueSystem} (h : Ledger s) :
    weight (fun a : QueueTask => weight (Call.posted a.id) s.log) s.accepted = weight Call.posts s.log ∧
      weight (fun a : QueueTask => weight (Call.settledByWorker a.id) s.log) s.accepted =
        weight Call.byWorker s.log ∧
      weight (fun a : QueueTask => s.assignedTo a.id) s.accepted =
        s.pool.assignedTasks.weightOf fun _ => 1 := by
  have hone : ∀ {t : QueueTask}, 0 < weight (Call.posted t.id) s.log →
      weight (isTask t.id) s.accepted = 1 := by
    intro t ht
    have := h.posted_le t.id
    omega
  have hself : ∀ t : QueueTask, isTask t.id t = 1 := fun t => if_pos rfl
  refine ⟨weight_accepted fun c hc => ?_, weight_accepted fun c hc => ?_,
    weight_accepted (w := fun x (e : ℕ × WorkerTaskData) => isTaskData x e.2) (v := fun _ => 1)
      (l := s.pool.assignedTasks.entries) fun e he => .inr ⟨rfl, e.2.task, hone ?_, fun _ => rfl⟩⟩
  · cases c with
    | post i t =>
      have hmem := le_weight_of_mem (Call.posted t.id) hc
      exact .inr ⟨rfl, t, hone (by rw [Call.posted, hself] at hmem; omega), fun _ => rfl⟩
    | _ => exact .inl ⟨rfl, fun _ => rfl⟩
  · have hsettled : ∀ t : QueueTask, c.settledByWorker t.id = 1 → weight (isTask t.id) s.accepted = 1 := by
      intro t ht
      have hmem := le_weight_of_mem (Call.settledByWorker t.id) hc
      have := h.posted_le t.id
      exact hone (by omega)
    cases c with
    | resolve t resolver v =>
      cases resolver with
      | worker => exact .inr ⟨rfl, t, hsettled t (by simp [hself]), fun _ => rfl⟩
      | mainThread => exact .inl ⟨rfl, fun _ => rfl⟩
    | reject t settler reason =>
      by_cases hs : settler = .worker
      · subst hs
        exact .inr ⟨rfl, t, hsettled t (by simp [hself]), fun _ => rfl⟩
      · exact .inl ⟨if_neg hs, fun _ => if_neg hs⟩
    | _ => exact .inl ⟨rfl, fun _ => rfl⟩
  · have hmem := le_weight_of_mem (fun e : ℕ × WorkerTaskData => isTaskData e.2.task.id e.2) he
    have hle := (h.posted_le e.2.task.id).1
    have hassigned : 1 ≤ s.assignedTo e.2.task.id := by
      refine le_trans ?_ (le_weight_of_mem (fun e' : ℕ × WorkerTaskData => isTaskData e.2.task.id e'.2) he)
      rw [isTaskData, hself]
    omega

/-- The slots of the tasks at workers: those assigned, and those forgotten. -/
theorem Ledger.posts_eq {s : QueueSystem} (h : Ledger s) :
    weight Call.posts s.log =
      s.pool.assignedTasks.entries.length + weight Call.byWorker s.log + s.forgotten.length := by
  obtain ⟨hposts, hworker, hassigned⟩ := h.sums
  have hentries : (s.pool.assignedTasks.weightOf fun _ => 1) = s.pool.assignedTasks.entries.length :=
    (weight_const 1 _).trans (Nat.one_mul _)
  have hforgotten : s.forgotten.length = weight (fun a : QueueTask => weight (Call.posted a.id) s.log -
      (s.assignedTo a.id + weight (Call.settledByWorker a.id) s.log)) s.accepted := by
    rw [weight_eq_length_filter]
    · refine congrArg List.length (List.filter_congr fun a _ => ?_)
      rw [decide_eq_decide]
      omega
    · intro a _
      have := h.posted_le a.id
      omega
  have hsplit : weight (fun a : QueueTask => weight (Call.posted a.id) s.log) s.accepted =
      weight (fun a : QueueTask => (s.assignedTo a.id + weight (Call.settledByWorker a.id) s.log) +
        (weight (Call.posted a.id) s.log -
          (s.assignedTo a.id + weight (Call.settledByWorker a.id) s.log))) s.accepted := by
    refine weight_congr fun a _ => ?_
    have := h.posted_le a.id
    omega
  rw [weight_add, weight_add] at hsplit
  omega

/-- A task forgotten is accepted, was posted once, and is neither assigned nor settled. -/
theorem Ledger.of_forgotten {s : QueueSystem} (h : Ledger s) {task : QueueTask}
    (hf : task ∈ s.forgotten) : task ∈ s.accepted ∧ weight (Call.posted task.id) s.log = 1 ∧
      s.assignedTo task.id = 0 ∧ weight (Call.settled task.id) s.log = 0 := by
  obtain ⟨hmem, hlt⟩ := List.mem_filter.mp hf
  have hlt := of_decide_eq_true hlt
  have hle := h.posted_le task.id
  have hplace := h.place task.id
  have hmain := h.main task.id
  have hsettled := weight_settled task.id s.log
  exact ⟨hmem, by omega, by omega, by omega⟩

/-- **A task forgotten stays forgotten**: no step assigns it again or settles it. -/
theorem Ledger.forgotten_step {s u : QueueSystem} (h : Ledger s) {e : QueueEvent}
    (hu : s.step e = some u) {task : QueueTask} (hf : task ∈ s.forgotten) : task ∈ u.forgotten := by
  obtain ⟨hmem, hposted, hassigned, -⟩ := h.of_forgotten hf
  have hlt := of_decide_eq_true (List.mem_filter.mp hf).2
  have hle := (h.step hu).posted_le task.id
  have hmoves : ∀ {t v : QueueSystem}, t.log = s.log → t.pool = s.pool → t.accepted = s.accepted →
      v.accepted = u.accepted → v.pool = u.pool → v.log = u.log → Moves t v → task ∈ u.forgotten := by
    intro t v htlog htpool htaccepted hvaccepted hvpool hvlog hm
    have hworker := hm.worker task.id
    have hmore := hm.log_weight (Call.posted task.id)
    rw [htlog, htpool, hvlog, hvpool] at hworker
    rw [htlog, hvlog] at hmore
    refine List.mem_filter.mpr ⟨?_, decide_eq_true ?_⟩
    · rw [← hvaccepted, hm.accepted, htaccepted]
      exact hmem
    · unfold assignedTo at hassigned ⊢
      omega
  obtain hm | ⟨parser, normalized, now, rfl⟩ | ⟨k, timed, hk, rfl⟩ := step_cases hu
  · exact hmoves rfl rfl rfl rfl rfl rfl hm
  · -- a task accepted changes neither the pool nor the log
    unfold QueueSystem.accept
    dsimp only [requestProcessQueue]
    rw [place_frame]
    exact List.mem_filter.mpr ⟨List.mem_append_left _ hmem, decide_eq_true hlt⟩
  · exact hmoves (t := { s with timers := s.timers.eraseIdx k }) rfl rfl rfl rfl rfl rfl
      (onQueueWaitTimeout_moves (h.fire k hk).keyed timed)

/-- **Slots are exact, but for the tasks forgotten.** With workers or without, in every state of every
run up to the shutdown, the requests active are the tasks on the main thread whose `finally` has not
run, those pending for a worker, those assigned to one and those forgotten; they never exceed the
limit, and no clamp has ever changed the count. A task forgotten is never settled and keeps its
slot. -/
theorem slots_withWorkers {s : QueueSystem}
    (h : Reachable step (initial config taskIdCounter stats allowCustomWorkload useWorkers workerCount
      cpu memory custom) s) :
    s.state.activeRequests = s.outstanding + s.pool.workerTaskQueue.length +
        s.pool.assignedTasks.entries.length + s.forgotten.length ∧
      s.state.activeRequests ≤ config.maxConcurrentRequests ∧ s.state.activeClamped = false ∧
      s.state.getTotalQueueLength ≤ config.queueOverflowThreshold ∧
      ∀ u, Reachable step s u → ∀ task ∈ s.forgotten, task ∈ u.forgotten ∧
        weight (Call.settled task.id) u.log = 0 := by
  have hslots := WorkerSlots.of_reachable h
  have hledger := Ledger.of_reachable h
  have hposts := hledger.posts_eq
  have hactive := hslots.active
  refine ⟨?_, hslots.bounded, hslots.unclamped, hslots.queued, fun u hu task hf => ?_⟩
  · simp only [held] at hactive
    omega
  · have hlater : Ledger u ∧ task ∈ u.forgotten :=
      hu.invariant (P := fun t => Ledger t ∧ task ∈ t.forgotten) ⟨hledger, hf⟩
        fun _ _ _ ht _ he => ⟨ht.1.step he, ht.1.forgotten_step he ht.2⟩
    exact ⟨hlater.2, (hlater.1.of_forgotten hlater.2).2.2.2⟩

/-- A worker that is posted a task before its first message arrives, and one after it. -/
theorem slots_withWorkers_of_late_initialized :
    ∃ s, Reachable step (initial {} 0 {} false true 1 none none none) s ∧
      (s.pool.assignedTasks.entries.length = 1 ∧ s.forgotten.length = 1) ∧
      s.state.activeRequests = s.outstanding + s.pool.workerTaskQueue.length +
        s.pool.assignedTasks.entries.length + s.forgotten.length := by
  obtain ⟨s, hs, hseen⟩ := exists_reaches_of_runEvents step (fun _ _ => True)
    (fun s => (s.pool.assignedTasks.entries.length, s.forgotten.length))
    (s := initial {} 0 {} false true 1 none none none)
    [.enqueue { workloadType := .str "cpu" } 0, .processSignal fun _ => none,
      .enqueue { workloadType := .str "memory" } 0, .workerMessage 0 { initialized := true } fun _ => none,
      .processSignal fun _ => none] (1, 1) (by decide +kernel)
  exact ⟨s, hs, Prod.mk.inj hseen, (slots_withWorkers hs).1⟩

/-- **No task is lost and none is doubled, with workers or without.** In every state of every run up to
the shutdown an accepted task is in exactly one place: a queue or a batch, the tasks pending for a
worker, the promise chains of the main thread, the tasks posted to a worker and not settled by one,
or the settled tasks; and it is handed over at most once, to the main thread or to a worker. -/
theorem onePlace_withWorkers {s : QueueSystem}
    (h : Reachable step (initial config taskIdCounter stats allowCustomWorkload useWorkers workerCount
      cpu memory custom) s) {task : QueueTask} (htask : task ∈ s.accepted) :
    s.state.waiting (isTask task.id) + weight (isTaskData task.id) s.pool.workerTaskQueue +
        s.chains (unsettledTask task.id) + (weight (Call.posted task.id) s.log -
          weight (Call.settledByWorker task.id) s.log) + weight (Call.settled task.id) s.log = 1 ∧
      weight (Call.executed task.id) s.log + weight (Call.posted task.id) s.log ≤ 1 ∧
      (0 < weight (Call.settledWaiting task.id) s.log →
        weight (Call.executed task.id) s.log + weight (Call.posted task.id) s.log = 0) := by
  have hledger := Ledger.of_reachable h
  have haccepted : 1 ≤ weight (isTask task.id) s.accepted := by
    have := le_weight_of_mem (isTask task.id) htask
    simpa [isTask] using this
  have honce := hledger.once task.id
  have hplace := hledger.place task.id
  have hmain := hledger.main task.id
  have hexecute := hledger.execute task.id
  have hworker := hledger.worker task.id
  have hsettled := weight_settled task.id s.log
  exact ⟨by omega, by omega, fun hwaiting => by omega⟩

/-- A task posted to a worker. -/
theorem onePlace_withWorkers_of_posted :
    ∃ s task, Reachable step (initial {} 0 {} false true 1 none none none) s ∧ task ∈ s.accepted ∧
      weight (Call.executed task.id) s.log + weight (Call.posted task.id) s.log ≤ 1 := by
  obtain ⟨s, hs, hseen⟩ := exists_reaches_of_runEvents step (fun _ _ => True)
    (fun s => s.accepted.map QueueTask.id) (s := initial {} 0 {} false true 1 none none none)
    [.enqueue { workloadType := .str "cpu" } 0, .processSignal fun _ => none] [1] (by decide +kernel)
  obtain ⟨task, htask, -⟩ := List.mem_map.mp (hseen ▸ List.mem_singleton_self 1)
  exact ⟨s, task, hs, htask, (onePlace_withWorkers hs htask).2.1⟩

end QueueSystem

end BulkTraffic.Queue
