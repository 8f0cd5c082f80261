import BulkTraffic.Queue.Conservation

/-!
# The main thread alone

The queue with the worker pool disabled.

* `Slots`: the invariant of its runs. The pool does nothing, and `activeRequests` is the
  number of tasks whose `finally` has not run yet, one by one or as part of a group.
* `onePlace`: an accepted task is in exactly one place.
* `slots`: the slots are exact and bounded.

`totalSize` is a JavaScript number, so the sizes of a batch are added with rounding once they
reach `2 ^ 53`; `Exact` is the invariant of the runs in which they do not.
-/

namespace BulkTraffic.Queue

open BulkTraffic.Lib BulkTraffic.Js

namespace QueueSystem

/-- The tasks dispatched whose `finally` has not run yet. -/
def outstanding (s : QueueSystem) : ℕ :=
  s.running.length + weight (fun g : BatchGroup => g.members.length) s.groups

/-- The invariant of the runs without workers. -/
structure Slots (config : QueueConfig) (s : QueueSystem) : Prop where
  sameConfig : s.state.config = config
  useWorkers : s.pool.useWorkers = false
  noWorkers : ∀ i, s.pool.worker i = none
  nothingPending : s.pool.workerTaskQueue = []
  nothingPosted : ∀ x, weight (Call.posted x) s.log = 0
  /-- Every slot taken is owed by a task dispatched. -/
  active : s.state.activeRequests = s.outstanding
  bounded : s.outstanding ≤ config.maxConcurrentRequests
  queued : s.state.getTotalQueueLength ≤ config.queueOverflowThreshold
  unclamped : s.state.activeClamped = false

namespace Slots

variable {config : QueueConfig} {s : QueueSystem}

/-- What takes or returns no slot keeps the invariant. -/
theorem of_same (h : Slots config s) {u : QueueSystem} (hconfig : u.state.config = s.state.config)
    (hpool : u.pool = s.pool) (hposted : ∀ x, weight (Call.posted x) u.log = 0)
    (hactive : u.state.activeRequests = s.state.activeRequests)
    (houtstanding : u.outstanding = s.outstanding)
    (hclamped : u.state.activeClamped = s.state.activeClamped)
    (hqueued : u.state.getTotalQueueLength ≤ s.state.getTotalQueueLength) : Slots config u where
  sameConfig := hconfig.trans h.sameConfig
  useWorkers := by rw [hpool]; exact h.useWorkers
  noWorkers := by rw [hpool]; exact h.noWorkers
  nothingPending := by rw [hpool]; exact h.nothingPending
  nothingPosted := hposted
  active := by rw [hactive, houtstanding]; exact h.active
  bounded := by rw [houtstanding]; exact h.bounded
  queued := hqueued.trans h.queued
  unclamped := hclamped.trans h.unclamped

theorem countProcessed (h : Slots config s) (n : ℕ) : Slots config (s.countProcessed n) :=
  h.of_same rfl rfl h.nothingPosted rfl rfl rfl (Nat.le_refl _)

theorem countRejected (h : Slots config s) (n : ℕ) : Slots config (s.countRejected n) :=
  h.of_same rfl rfl h.nothingPosted rfl rfl rfl (Nat.le_refl _)

theorem countTimeout (h : Slots config s) (n : ℕ) : Slots config (s.countTimeout n) :=
  h.of_same rfl rfl h.nothingPosted rfl rfl rfl (Nat.le_refl _)

theorem requestProcessQueue (h : Slots config s) : Slots config s.requestProcessQueue :=
  h.of_same rfl rfl h.nothingPosted rfl rfl rfl (Nat.le_refl _)

theorem rearm (h : Slots config s) : Slots config s.rearm := by
  unfold QueueSystem.rearm
  split
  · exact h.requestProcessQueue
  · exact h

/-- Calls that post nothing. -/
theorem record (h : Slots config s) {calls : List Call}
    (hcalls : ∀ x, weight (Call.posted x) calls = 0) : Slots config (s.record calls) :=
  h.of_same rfl rfl
    (fun x => by simp only [QueueSystem.record, weight_append, h.nothingPosted, hcalls]) rfl rfl rfl
    (Nat.le_refl _)

/-! ### Taking slots -/

/-- The tasks taken by a tick take a slot each. -/
theorem drainQueues (h : Slots config s) {slots : ℕ}
    (hslots : (slots : ℤ) ≤ s.state.config.maxConcurrentRequests - s.state.activeRequests) :
    Slots config (s.drainQueues slots).1 := by
  have hworkers : ∀ tasks, toWorkers s.pool.useWorkers tasks = [] := by
    intro tasks
    simp [toWorkers, isWorkerEligibleTask, h.useWorkers]
  have hmain : ∀ tasks, toMainThread s.pool.useWorkers tasks = tasks := by
    intro tasks
    simp [toMainThread, isWorkerEligibleTask, h.useWorkers]
  have hlength := length_take_all_le s slots
  have hqueues := take_weight (fun _ => 1) s slots
  simp only [weight_const, Nat.one_mul] at hqueues
  have hqueued := h.queued
  have hactive := h.active
  rw [h.sameConfig] at hslots
  simp only [QueueStateHolder.getTotalQueueLength] at hqueued
  rw [drainQueues_eq]
  unfold dispatchAll
  rw [hworkers, hmain]
  simp only [List.map_nil, List.append_nil]
  refine ⟨h.sameConfig, h.useWorkers, h.noWorkers, h.nothingPending, fun x => ?_, ?_, ?_, ?_, h.unclamped⟩
  · simp only [withQueues, weight_append, h.nothingPosted,
      weight_dispatch_eq_zero (w := Call.posted x) fun _ => rfl]
  · simp only [withQueues, outstanding, List.length_append, List.length_map] at hactive ⊢
    omega
  · simp only [withQueues, outstanding, List.length_append, List.length_map] at hactive ⊢
    omega
  · simp only [withQueues, QueueStateHolder.getTotalQueueLength, QueueStateHolder.getBatchTaskCount]
      at hqueued ⊢
    omega

/-- A pass of a disabled pool does nothing. -/
theorem afterPool_disabled (h : Slots config s) (post : PostMessage) :
    Slots config (s.afterPool (s.pool.processWorkerTasks post)) := by
  have hnothing : s.pool.processWorkerTasks post = (s.pool, []) := by
    simp [WorkerPoolService.processWorkerTasks, h.useWorkers]
  rw [hnothing]
  exact h.record fun _ => rfl

theorem processQueue (h : Slots config s) (post : PostMessage) :
    Slots config (s.processQueue post) := by
  apply processQueue_rule h
  · exact fun slots hslots => h.drainQueues hslots
  · exact fun t ht => ht.afterPool_disabled post
  · exact fun t ht => ht.rearm

/-- The tasks taken from a batch take a slot each, as a group. -/
theorem processBatch (h : Slots config s) (category : String) (now : ℕ) :
    Slots config (s.processBatch category now) := by
  have hactive := h.active
  have hbounded := h.bounded
  obtain ⟨taken, htaken, ⟨-, hb⟩ | hb⟩ := processBatch_cases s category now
  · rw [hb]
    have hweight := BatchService.processBatch_weight (fun _ => 1) category s.state.batchQueues
      s.state.activeRequests s.state.config.maxConcurrentRequests now
    rw [← htaken] at hweight
    refine h.of_same rfl rfl h.nothingPosted rfl rfl rfl ?_
    rw [QueueStateHolder.getTotalQueueLength_eq, QueueStateHolder.getTotalQueueLength_eq]
    simp only [withBatches, QueueStateHolder.waiting]
    omega
  · have hweight := BatchService.processBatch_weight (fun _ => 1) category s.state.batchQueues
      s.state.activeRequests s.state.config.maxConcurrentRequests now
    have hroom := BatchService.processBatch_length category s.state.batchQueues
      s.state.activeRequests s.state.config.maxConcurrentRequests now
      (by rw [hactive, h.sameConfig]; exact_mod_cast hbounded)
    rw [← htaken] at hweight hroom
    rw [h.sameConfig] at hroom
    have hqueued := h.queued
    rw [QueueStateHolder.getTotalQueueLength_eq] at hqueued
    have hcount : ∀ t : QueueSystem, t.onBatchComplete 0 taken.tasksToProcess.length 0 =
        { t.countProcessed 0 with state :=
          t.state.setActiveRequests (t.state.activeRequests + taken.tasksToProcess.length) } := by
      intro t
      simp [onBatchComplete, QueueSystem.countProcessed]
    rw [hb, hcount]
    refine ⟨h.sameConfig, h.useWorkers, h.noWorkers, h.nothingPending, fun x => ?_, ?_, ?_, ?_, ?_⟩
    · simp only [QueueSystem.countProcessed, startGroup, weight_append, h.nothingPosted,
        weight_dispatch_eq_zero (w := Call.posted x) fun _ => rfl]
    · simp only [QueueStateHolder.setActiveRequests, QueueSystem.countProcessed, startGroup, outstanding,
        weight_append, weight_cons, weight_nil, List.length_map] at hactive ⊢
      omega
    · simp only [QueueSystem.countProcessed, startGroup, outstanding, weight_append, weight_cons,
        weight_nil, List.length_map] at hactive ⊢
      omega
    · rw [QueueStateHolder.getTotalQueueLength_eq]
      simp only [QueueStateHolder.setActiveRequests, startGroup, QueueStateHolder.waiting] at hqueued ⊢
      omega
    · simp only [QueueStateHolder.setActiveRequests, startGroup, h.unclamped, Bool.false_or,
        decide_eq_false_iff_not]
      omega

theorem processBatches (h : Slots config s) (due : TaskBatch → Bool) (now : ℕ)
    (categories : List String) : Slots config (processBatches due now categories s) :=
  processBatches_rule (fun _ category h => h.processBatch category now) categories h

/-! ### Returning slots -/

/-- A slot returned, one for the task that owed it: no clamp is needed. -/
theorem of_released {u : QueueSystem} (h : Slots config s) (hstate : u.state = s.state)
    (hpool : u.pool = s.pool) (hlog : u.log = s.log) {n : ℕ}
    (houtstanding : u.outstanding + n = s.outstanding) :
    Slots config { u with state := u.state.setActiveRequests (u.state.activeRequests - n) } := by
  have hactive := h.active
  have hbounded := h.bounded
  refine ⟨?_, ?_, ?_, ?_, ?_, ?_, ?_, ?_, ?_⟩
  · exact (congrArg QueueStateHolder.config hstate).trans h.sameConfig
  · exact (congrArg WorkerPoolService.useWorkers hpool).trans h.useWorkers
  · exact fun i => (congrArg (·.worker i) hpool).trans (h.noWorkers i)
  · exact (congrArg WorkerPoolService.workerTaskQueue hpool).trans h.nothingPending
  · exact fun x => (congrArg (weight (Call.posted x)) hlog).trans (h.nothingPosted x)
  · change max 0 (u.state.activeRequests - n) = (u.outstanding : ℤ)
    rw [hstate]
    omega
  · change u.outstanding ≤ _
    omega
  · exact (congrArg QueueStateHolder.getTotalQueueLength hstate).trans_le h.queued
  · change (u.state.activeClamped || decide (u.state.activeRequests - n < 0)) = false
    rw [hstate, h.unclamped, Bool.false_or, decide_eq_false_iff_not]
    omega

theorem finallySingle (h : Slots config s) {u : QueueSystem} {k : ℕ}
    (hu : s.finallySingle k = some u) : Slots config u := by
  obtain ⟨r, hr, -, rfl⟩ := finallySingle_cases hu
  refine (h.of_released (u := { s with running := s.running.eraseIdx k }) (n := 1) rfl rfl rfl ?_)
    |>.requestProcessQueue
  have hk := (List.getElem?_eq_some_iff.mp hr).1
  simp only [outstanding, List.length_eraseIdx, if_pos hk]
  omega

theorem finallyGroup (h : Slots config s) {u : QueueSystem} {k : ℕ}
    (hu : s.finallyGroup k = some u) : Slots config u := by
  obtain ⟨g, hg, -, rfl⟩ := finallyGroup_cases hu
  have herase := weight_eraseIdx (fun g : BatchGroup => g.members.length) hg
  let t := { s with groups := s.groups.eraseIdx k }
  let counted := if 0 < g.failed then (t.countProcessed g.processed).countRejected g.failed
    else t.countProcessed g.processed
  have hcounted : counted = { t with stats := counted.stats } := by
    simp only [counted]
    split <;> rfl
  have hreleased := h.of_released (u := counted) (n := g.members.length)
    (by rw [hcounted]) (by rw [hcounted]) (by rw [hcounted])
    (by rw [hcounted]; simp only [t, outstanding]; omega)
  unfold onBatchComplete
  dsimp only
  split
  · exact hreleased.requestProcessQueue
  · exact hreleased

/-! ### Waiting tasks -/

theorem cleanupOldTasks (h : Slots config s) (now : ℕ) : Slots config (s.cleanupOldTasks now) := by
  have hweight := MemoryService.cleanupOldTasks_weight (w := fun _ => 1) (v := Call.timesOut)
    (fun _ _ => rfl) now s.state
  unfold QueueSystem.cleanupOldTasks
  refine Slots.countTimeout (Slots.record ?_ fun x => weight_eq_zero _ fun c hc => ?_) _
  · refine h.of_same rfl rfl h.nothingPosted rfl rfl rfl ?_
    rw [QueueStateHolder.getTotalQueueLength_eq, QueueStateHolder.getTotalQueueLength_eq]
    exact Nat.le_of_add_right_le hweight.le
  · obtain ⟨task, reason, rfl⟩ := cleanupOldTasks_mem hc
    rfl

theorem forceReduceQueues (h : Slots config s) (now : ℕ) : Slots config (s.forceReduceQueues now) := by
  have hkept := MemoryService.keptLow_weight (fun _ => 1) s.state.lowPriorityQueue
  unfold QueueSystem.forceReduceQueues
  dsimp only
  refine Slots.countRejected (Slots.processBatches (Slots.record ?_ fun x => ?_) _ now _) _
  · refine h.of_same rfl rfl h.nothingPosted rfl rfl rfl ?_
    rw [QueueStateHolder.getTotalQueueLength_eq, QueueStateHolder.getTotalQueueLength_eq]
    simp only [QueueStateHolder.waiting]
    omega
  · rw [weight_map]
    exact weight_eq_zero _ fun _ _ => rfl

theorem checkMemoryUsage (h : Slots config s) (usage : MemoryUsage) (now : ℕ) :
    Slots config (s.checkMemoryUsage usage now) :=
  checkMemoryUsage_rule (P := Slots config)
    (h.of_same rfl rfl h.nothingPosted rfl rfl rfl (Nat.le_refl _))
    (fun _ h => h.cleanupOldTasks now) (fun _ h => h.forceReduceQueues now)
    fun _ h => h.requestProcessQueue

theorem onQueueWaitTimeout (h : Slots config s) (hk : s.state.Keyed) (task : QueueTask) :
    Slots config (s.onQueueWaitTimeout task) := by
  unfold QueueSystem.onQueueWaitTimeout
  split
  · rename_i state hfound
    have hstate : (s.state.removeTaskFromQueues task).2 = state := by rw [hfound]
    have hweight : (s.state.removeTaskFromQueues task).2.waiting (fun _ => 1) + 1 =
        s.state.waiting fun _ => 1 :=
      QueueStateHolder.removeTaskFromQueues_found hk (by rw [hfound]) fun _ _ => rfl
    have hframe := QueueStateHolder.removeTaskFromQueues_frame s.state task
    rw [hstate] at hweight hframe
    refine Slots.record (Slots.countTimeout ?_ 1) fun _ => rfl
    refine h.of_same ?_ rfl h.nothingPosted ?_ rfl ?_ ?_
    · rw [hframe]
    · rw [hframe]
    · rw [hframe]
    · rw [QueueStateHolder.getTotalQueueLength_eq, QueueStateHolder.getTotalQueueLength_eq]
      dsimp only
      omega
  · exact h

/-- There is room for a task that is accepted. -/
theorem accept (h : Slots config s) (options : NormalizedEnqueueOptions) (now : ℕ)
    (hroom : s.state.getTotalQueueLength < s.state.config.queueOverflowThreshold) :
    Slots config (s.accept options now) := by
  have hwaiting := place_waiting (s.register (s.newTask options now)) (s.newTask options now)
    options.batch now (fun _ => 1)
  unfold QueueSystem.accept
  apply Slots.requestProcessQueue
  rw [h.sameConfig, QueueStateHolder.getTotalQueueLength_eq] at hroom
  have hqueued : ((s.register (s.newTask options now)).place (s.newTask options now) options.batch
      now).state.getTotalQueueLength ≤ config.queueOverflowThreshold := by
    rw [QueueStateHolder.getTotalQueueLength_eq, hwaiting]
    exact hroom
  rw [place_frame] at hqueued ⊢
  exact ⟨h.sameConfig, h.useWorkers, h.noWorkers, h.nothingPending, h.nothingPosted, h.active,
    h.bounded, hqueued, h.unclamped⟩

theorem enqueue (h : Slots config s) (options : EnqueueOptions) (now : ℕ) :
    Slots config (s.enqueue options now).2 := by
  obtain ⟨parser, he | he | ⟨normalized, -, hroom, he⟩⟩ := enqueue_cases s options now
  · rw [he]
    exact h.of_same rfl rfl h.nothingPosted rfl rfl rfl (Nat.le_refl _)
  · rw [he]
    refine Slots.countRejected ?_ 1
    exact h.of_same rfl rfl h.nothingPosted rfl rfl rfl (Nat.le_refl _)
  · rw [he]
    refine Slots.accept ?_ normalized now hroom
    exact h.of_same rfl rfl h.nothingPosted rfl rfl rfl (Nat.le_refl _)

/-! ### Promise chains -/

theorem countSingle (h : Slots config s) (p : PromiseStep) (stage : Stage) :
    Slots config (s.countSingle p stage) := by
  unfold QueueSystem.countSingle
  split
  · exact h.countProcessed 1
  · exact h.countRejected 1
  · exact h

theorem advanceSingle (h : Slots config s) {u : QueueSystem} {k : ℕ} {p : PromiseStep}
    (hu : s.advanceSingle k p = some u) : Slots config u := by
  obtain ⟨r, stage, -, hstage, rfl⟩ := advanceSingle_cases hu
  refine Slots.countSingle (Slots.record ?_ fun x => ?_) p stage
  · exact h.of_same rfl rfl h.nothingPosted rfl (by simp [outstanding]) rfl (Nat.le_refl _)
  · exact (stepCalls_weights hstage x).2.2.2.1

theorem advanceMember (h : Slots config s) {u : QueueSystem} {k m : ℕ} {p : PromiseStep}
    (hu : s.advanceMember k m p = some u) : Slots config u := by
  obtain ⟨g, r, stage, hg, hr, hstage, rfl⟩ := advanceMember_cases hu
  refine Slots.record ?_ fun x => (stepCalls_weights hstage x).2.2.2.1
  refine h.of_same rfl rfl h.nothingPosted rfl ?_ rfl (Nat.le_refl _)
  have hset := weight_set (fun g : BatchGroup => g.members.length) hg
    ({ g with members := g.members.set m { r with stage := stage } }.count p stage)
  simp only [count_members, List.length_set] at hset
  simp only [outstanding]
  omega

/-! ### Runs -/

/-- Every step keeps the invariant. -/
theorem step (h : Slots config s) (hs : Ledger s) {u : QueueSystem} {e : QueueEvent}
    (hu : s.step e = some u) : Slots config u := by
  have hsame : ∀ {t : QueueSystem}, t.state = s.state → t.pool = s.pool → t.log = s.log →
      t.running = s.running → t.groups = s.groups → Slots config t := by
    intro t hstate hpool hlog hrunning hgroups
    refine h.of_same (by rw [hstate]) hpool (by rw [hlog]; exact h.nothingPosted) (by rw [hstate])
      (by simp only [outstanding, hrunning, hgroups]) (by rw [hstate]) (by rw [hstate])
  cases takes_of_step hu with
  | enqueue options now => exact h.enqueue options now
  | @processSignal post _ =>
    refine Slots.processQueue ?_ post
    exact h.of_same rfl rfl h.nothingPosted rfl rfl rfl (Nat.le_refl _)
  | tasksWait _ => exact h.requestProcessQueue
  | nothingWaits _ => exact h
  | @batchTrigger _ now _ _ =>
    refine Slots.processBatch ?_ _ now
    exact hsame rfl rfl rfl rfl rfl
  | batchAgingTimer now => exact h.processBatches _ now _
  | memoryCheckTimer usage now => exact h.checkMemoryUsage usage now
  | statsLogTimer => exact hsame rfl rfl rfl rfl rfl
  | @queueWaitTimer k _ _ =>
    refine Slots.onQueueWaitTimeout (s := { s with timers := s.timers.eraseIdx k }) ?_ hs.keyed _
    exact hsame rfl rfl rfl rfl rfl
  | single hadvances => exact h.advanceSingle hadvances
  | member hadvances => exact h.advanceMember hadvances
  | finallySingle hleaves => exact h.finallySingle hleaves
  | finallyGroup hleaves => exact h.finallyGroup hleaves
  | @workerMessage i result _ _ _ hsend =>
    have hnone : s.pool.send i result = none := by
      simp [WorkerPoolService.send, h.noWorkers]
    rw [hnone] at hsend
    cases hsend
  | workerFailure halive => simp [h.noWorkers] at halive

end Slots

variable {config : QueueConfig} {taskIdCounter : ℕ} {stats : QueueStatsService}
  {allowCustomWorkload : Bool} {workerCount : ℕ} {cpu memory custom : Option ℕ}

theorem Slots.initial : Slots config (initial config taskIdCounter stats allowCustomWorkload false
    workerCount cpu memory custom) where
  sameConfig := rfl
  useWorkers := rfl
  noWorkers _ := rfl
  nothingPending := rfl
  nothingPosted _ := rfl
  active := rfl
  bounded := Nat.zero_le _
  queued := Nat.zero_le _
  unclamped := rfl

theorem Slots.of_reachable {s : QueueSystem}
    (h : Reachable QueueSystem.step (QueueSystem.initial config taskIdCounter stats
      allowCustomWorkload false workerCount cpu memory custom) s) : Slots config s :=
  (h.invariant (P := fun s => Ledger s ∧ Slots config s) ⟨.initial, .initial⟩
    fun _ _ _ hs _ hu => ⟨hs.1.step hu, hs.2.step hs.1 hu⟩).2

/-- **No task is lost and none is doubled.** Without workers, in every state of every run, an
accepted task is in exactly one place: a priority queue, a batch, the promise chains of
running tasks, or the settled tasks. It is executed at most once, settled at most once, and
not executed at all when a timer or a cleanup has rejected it. -/
theorem onePlace {s : QueueSystem}
    (h : Reachable step (initial config taskIdCounter stats allowCustomWorkload false workerCount
      cpu memory custom) s) {task : QueueTask} (htask : task ∈ s.accepted) :
    weight (isTask task.id) s.state.highPriorityQueue +
        weight (isTask task.id) s.state.normalPriorityQueue +
        weight (isTask task.id) s.state.lowPriorityQueue +
        s.state.batchQueues.weightOf (inBatch (isTask task.id)) +
        s.chains (unsettledTask task.id) + weight (Call.settled task.id) s.log = 1 ∧
      weight (Call.executed task.id) s.log ≤ 1 ∧
      weight (Call.settled task.id) s.log ≤ 1 ∧
      (0 < weight (Call.settledWaiting task.id) s.log → weight (Call.executed task.id) s.log = 0) := by
  have hledger := Ledger.of_reachable h
  have hslots := Slots.of_reachable h
  have haccepted : 1 ≤ weight (isTask task.id) s.accepted := by
    have := le_weight_of_mem (isTask task.id) htask
    simpa [isTask] using this
  have honce := hledger.once task.id
  have hplace := hledger.place task.id
  have hmain := hledger.main task.id
  have hexecute := hledger.execute task.id
  have hworker := hledger.worker task.id
  have hposted := hslots.nothingPosted task.id
  have hsettled := weight_settled task.id s.log
  have hpending : weight (isTaskData task.id) s.pool.workerTaskQueue = 0 := by
    rw [hslots.nothingPending]
    rfl
  simp only [QueueStateHolder.waiting] at hplace
  exact ⟨by omega, by omega, by omega, fun hwaiting => by omega⟩

/-- A task that waits in the normal queue. -/
theorem onePlace_of_waiting_task :
    ∃ s task, Reachable step (initial {} 0 {} false false 0 none none none) s ∧
      task ∈ s.accepted ∧
      (weight (isTask task.id) s.state.highPriorityQueue +
          weight (isTask task.id) s.state.normalPriorityQueue +
          weight (isTask task.id) s.state.lowPriorityQueue +
          s.state.batchQueues.weightOf (inBatch (isTask task.id)) +
          s.chains (unsettledTask task.id) + weight (Call.settled task.id) s.log = 1 ∧
        weight (Call.executed task.id) s.log ≤ 1 ∧
        weight (Call.settled task.id) s.log ≤ 1 ∧
        (0 < weight (Call.settledWaiting task.id) s.log →
          weight (Call.executed task.id) s.log = 0)) := by
  obtain ⟨s, hs, hseen⟩ := exists_reaches_of_runEvents step (fun _ _ => True)
    (fun s => s.accepted.map QueueTask.id) (s := initial {} 0 {} false false 0 none none none)
    [.enqueue {} 0] [1] (by decide +kernel)
  obtain ⟨task, htask, -⟩ := List.mem_map.mp (hseen ▸ List.mem_singleton_self 1)
  exact ⟨s, task, hs, htask, onePlace hs htask⟩

end QueueSystem

end BulkTraffic.Queue
