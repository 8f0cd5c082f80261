import BulkTraffic.Queue.SystemFlow

/-!
# No task is lost and none is run twice

A task accepted by `enqueue` is followed through the queues, the batches, the worker pool
and the promise chains by its weight. `Moves s s'` is what every function but `enqueue`
obeys: it moves tasks between these places and creates none. `Ledger` is the invariant
that holds in every state of every run.
-/

namespace BulkTraffic.Queue

open BulkTraffic.Lib BulkTraffic.Js

/-- The weight that follows task `x` among promise chains until it is settled. -/
@[simp] def unsettledTask (x : ℕ) (r : RunningTask) : ℕ :=
  match r.stage with
  | .settled _ => 0
  | _ => isTask x r.task

/-- The weight that follows task `x` among promise chains until it is started. -/
@[simp] def unstartedTask (x : ℕ) (r : RunningTask) : ℕ :=
  match r.stage with
  | .queued => isTask x r.task
  | _ => 0

/-- The weight of a group, by the weight of its members. -/
@[simp] def inGroup (w : RunningTask → ℕ) (g : BatchGroup) : ℕ := weight w g.members

namespace QueueSystem

/-- The weight of the promise chains. -/
def chains (w : RunningTask → ℕ) (s : QueueSystem) : ℕ :=
  weight w s.running + weight (inGroup w) s.groups

/-- What every function but `enqueue` obeys. -/
structure Moves (s s' : QueueSystem) : Prop where
  accepted : s'.accepted = s.accepted
  counter : s'.state.taskIdCounter = s.state.taskIdCounter
  /-- A waiting task stays, is handed to the main thread, is posted, or is rejected. -/
  place : ∀ x, s'.state.waiting (isTask x) + weight (isTaskData x) s'.pool.workerTaskQueue +
      weight (Call.dispatched x) s'.log + weight (Call.posted x) s'.log +
      weight (Call.settledWaiting x) s'.log =
    s.state.waiting (isTask x) + weight (isTaskData x) s.pool.workerTaskQueue +
      weight (Call.dispatched x) s.log + weight (Call.posted x) s.log +
      weight (Call.settledWaiting x) s.log
  /-- A task handed to the main thread is on its way or settled there. -/
  main : ∀ x, weight (Call.dispatched x) s'.log + s.chains (unsettledTask x) +
      weight (Call.settledByMain x) s.log =
    weight (Call.dispatched x) s.log + s'.chains (unsettledTask x) +
      weight (Call.settledByMain x) s'.log
  /-- A task handed to the main thread waits to be executed, or has been. -/
  execute : ∀ x, weight (Call.dispatched x) s'.log + s.chains (unstartedTask x) +
      weight (Call.executed x) s.log =
    weight (Call.dispatched x) s.log + s'.chains (unstartedTask x) + weight (Call.executed x) s'.log
  /-- What workers are assigned or settle has been posted. -/
  worker : ∀ x, s'.pool.assignedTasks.weightOf (isTaskData x) +
      weight (Call.settledByWorker x) s'.log + weight (Call.posted x) s.log ≤
    s.pool.assignedTasks.weightOf (isTaskData x) + weight (Call.settledByWorker x) s.log +
      weight (Call.posted x) s'.log
  /-- No task starts to wait. -/
  waiting : ∀ x, s'.state.waiting (isTask x) ≤ s.state.waiting (isTask x)
  /-- No timer is armed. -/
  timers : ∀ x, weight (isTask x) s'.timers ≤ weight (isTask x) s.timers
  /-- A timer stays armed until its task is settled. -/
  armed : ∀ x, weight (isTask x) s'.timers = weight (isTask x) s.timers ∨
    0 < weight (Call.settled x) s'.log
  /-- The timer of a task that is settled is cleared. -/
  cleared : ∀ x, weight (Call.settled x) s.log < weight (Call.settled x) s'.log →
    weight (isTask x) s'.timers = 0
  /-- Calls are only added to the log. -/
  logged : s.log <+: s'.log
  keyed : s.state.Keyed → s'.state.Keyed

/-- What has been done to a task stays done. -/
theorem Moves.log_weight {s s' : QueueSystem} (h : Moves s s') (w : Call → ℕ) :
    weight w s.log ≤ weight w s'.log := by
  obtain ⟨calls, hlog⟩ := h.logged
  rw [← hlog, weight_append]
  exact Nat.le_add_right _ _

theorem Moves.trans {s t u : QueueSystem} (h : Moves s t) (h' : Moves t u) : Moves s u where
  accepted := h'.accepted.trans h.accepted
  counter := h'.counter.trans h.counter
  place x := by rw [h'.place, h.place]
  main x := by
    have h₁ := h.main x
    have h₂ := h'.main x
    omega
  execute x := by
    have h₁ := h.execute x
    have h₂ := h'.execute x
    omega
  worker x := by
    have h₁ := h.worker x
    have h₂ := h'.worker x
    omega
  waiting x := (h'.waiting x).trans (h.waiting x)
  timers x := (h'.timers x).trans (h.timers x)
  armed x := by
    have hle := h'.log_weight (Call.settled x)
    rcases h'.armed x with hu | hu
    · rcases h.armed x with ht | ht
      · exact .inl (hu.trans ht)
      · exact .inr (by omega)
    · exact .inr hu
  cleared x hx := by
    have h₁ := h.log_weight (Call.settled x)
    have h₂ := h'.timers x
    rcases Nat.lt_or_ge (weight (Call.settled x) s.log) (weight (Call.settled x) t.log) with hlt | hge
    · have := h.cleared x hlt
      omega
    · exact h'.cleared x (by omega)
  logged := h.logged.trans h'.logged
  keyed hk := h'.keyed (h.keyed hk)

/-- What leaves the tasks alone moves none. -/
theorem SameTasks.moves {s s' : QueueSystem} (h : SameTasks s s') : Moves s s' where
  accepted := h.accepted
  counter := by rw [h.state]
  place x := by rw [h.state, h.pool, h.log]; rfl
  main x := by rw [h.log]; simp only [chains, h.running, h.groups]
  execute x := by rw [h.log]; simp only [chains, h.running, h.groups]
  worker x := by rw [h.pool, h.log]
  waiting x := by rw [h.state]; exact Nat.le_refl _
  timers x := by rw [h.timers]
  armed x := .inl (by rw [h.timers])
  cleared x hx := by rw [h.log] at hx; omega
  logged := h.log ▸ List.prefix_refl _
  keyed hk := by rw [h.state]; exact hk

theorem Moves.refl (s : QueueSystem) : Moves s s := (SameTasks.refl s).moves

/-! ### Recording calls -/

/-- The timer of a task is cleared when it is settled. -/
theorem record_cleared (s : QueueSystem) {calls : List Call} {x : ℕ}
    (h : 0 < weight (Call.settled x) calls) : weight (isTask x) (s.record calls).timers = 0 := by
  obtain ⟨c, hc, hx⟩ := exists_mem_of_weight_pos h
  have hsettles : c.settles.map QueueTask.id = some x := by
    cases c with
    | resolve t _ _ => simpa [Call.settles] using isTask_pos.mp hx
    | reject t _ _ => simpa [Call.settles] using isTask_pos.mp hx
    | _ => simp at hx
  refine weight_eq_zero _ fun task htask => ?_
  simp only [record, List.mem_filter, Bool.not_eq_true', List.any_eq_false, beq_iff_eq] at htask
  have hne := htask.2 c hc
  rw [hsettles] at hne
  simp only [Option.some.injEq] at hne
  simp [isTask, Ne.symm hne]

theorem record_timers_le (s : QueueSystem) (calls : List Call) (x : ℕ) :
    weight (isTask x) (s.record calls).timers ≤ weight (isTask x) s.timers :=
  weight_filter_le _ _ _

/-- The timer of a task that is not settled stays. -/
theorem record_timers_eq (s : QueueSystem) {calls : List Call} {x : ℕ}
    (h : weight (Call.settled x) calls = 0) :
    weight (isTask x) (s.record calls).timers = weight (isTask x) s.timers := by
  have hsplit := weight_filter_add (isTask x)
    (fun task => !calls.any fun c => (c.settles.map QueueTask.id) == some task.id) s.timers
  have hrest : weight (isTask x) (s.timers.filter fun task =>
      !!calls.any fun c => (c.settles.map QueueTask.id) == some task.id) = 0 := by
    refine weight_eq_zero _ fun task htask => ?_
    simp only [List.mem_filter, Bool.not_not, List.any_eq_true, beq_iff_eq] at htask
    obtain ⟨-, c, hc, hsettles⟩ := htask
    by_contra hx
    have hid := isTask_pos.mp (Nat.pos_of_ne_zero hx)
    have hpos : 0 < c.settled x := by
      cases c <;> simp [Call.settles] at hsettles <;>
        exact isTask_pos.mpr (hsettles.trans hid)
    have := le_weight_of_mem (Call.settled x) hc
    omega
  change weight (isTask x) (s.timers.filter _) = _
  omega

/-- Calls recorded: what the calls move has to be balanced by what is done to the places. -/
theorem Moves.of_record {s t : QueueSystem} {calls : List Call} (hlog : t.log = s.log)
    (haccepted : t.accepted = s.accepted) (hcounter : t.state.taskIdCounter = s.state.taskIdCounter)
    (htimers : t.timers = s.timers)
    (hwaiting : ∀ x, t.state.waiting (isTask x) ≤ s.state.waiting (isTask x))
    (hplace : ∀ x, t.state.waiting (isTask x) + weight (isTaskData x) t.pool.workerTaskQueue +
        weight (Call.dispatched x) calls + weight (Call.posted x) calls +
        weight (Call.settledWaiting x) calls =
      s.state.waiting (isTask x) + weight (isTaskData x) s.pool.workerTaskQueue)
    (hmain : ∀ x, weight (Call.dispatched x) calls + s.chains (unsettledTask x) =
      t.chains (unsettledTask x) + weight (Call.settledByMain x) calls)
    (hexecute : ∀ x, weight (Call.dispatched x) calls + s.chains (unstartedTask x) =
      t.chains (unstartedTask x) + weight (Call.executed x) calls)
    (hworker : ∀ x, t.pool.assignedTasks.weightOf (isTaskData x) +
        weight (Call.settledByWorker x) calls ≤
      s.pool.assignedTasks.weightOf (isTaskData x) + weight (Call.posted x) calls)
    (hkeyed : s.state.Keyed → t.state.Keyed) : Moves s (t.record calls) where
  accepted := haccepted
  counter := hcounter
  place x := by
    have := hplace x
    simp only [record, hlog, weight_append]
    omega
  main x := by
    have := hmain x
    simp only [record, hlog, weight_append, chains] at this ⊢
    omega
  execute x := by
    have := hexecute x
    simp only [record, hlog, weight_append, chains] at this ⊢
    omega
  worker x := by
    have := hworker x
    simp only [record, hlog, weight_append]
    omega
  waiting := hwaiting
  timers x := by rw [← htimers]; exact record_timers_le t calls x
  armed x := by
    rcases Nat.eq_zero_or_pos (weight (Call.settled x) calls) with hz | hpos
    · exact .inl (by rw [record_timers_eq t hz, htimers])
    · refine .inr ?_
      simp only [record, weight_append]
      omega
  cleared x hx := by
    refine record_cleared t ?_
    simp only [record, hlog, weight_append] at hx
    omega
  logged := by rw [← hlog]; exact List.prefix_append _ _
  keyed := hkeyed

/-! ### The functions of the queue -/

/-- Work of the pool: a `Flow` from the pool before to the pool after. -/
theorem afterPool_moves (s : QueueSystem) {pool : WorkerPoolService} {calls : List Call}
    (h : WorkerPoolService.Flow s.pool pool calls) : Moves s (s.afterPool (pool, calls)) := by
  refine Moves.trans ?_ (sameTasks_afterPool s (pool, calls)).moves
  refine Moves.of_record (t := { s with pool := pool }) rfl rfl rfl rfl
    (fun x => Nat.le_refl _) (fun x => ?_) (fun x => ?_) (fun x => ?_) (fun x => h.assigned x) id
  · have h₁ := h.pending x
    have h₂ := h.main x
    dsimp only
    omega
  · have := h.main x
    simp only [chains]
    omega
  · have := h.main x
    simp only [chains]
    omega

theorem weight_dispatched (x : ℕ) (tasks : List QueueTask) :
    weight (Call.dispatched x) (tasks.map Call.dispatch) = weight (isTask x) tasks :=
  weight_map _ _ _

/-- What a handing over to the main thread does not count. -/
theorem weight_dispatch_eq_zero {w : Call → ℕ} (hw : ∀ t, w (.dispatch t) = 0)
    (tasks : List QueueTask) : weight w (tasks.map Call.dispatch) = 0 := by
  rw [weight_map]
  exact weight_eq_zero _ fun t _ => hw t

/-- The new promise chains of tasks. -/
theorem weight_newChains {w : RunningTask → ℕ} {x : ℕ} (hw : ∀ t, w { task := t } = isTask x t)
    (tasks : List QueueTask) :
    weight w (tasks.map fun task => { task := task }) = weight (isTask x) tasks := by
  rw [weight_map]
  exact weight_congr fun t _ => hw t

theorem weight_toMain_add_toWorkers (w : QueueTask → ℕ) (isEnabled : Bool) (tasks : List QueueTask) :
    weight w (toWorkers isEnabled tasks) + weight w (toMainThread isEnabled tasks) =
      weight w tasks :=
  weight_filter_add w (fun task => isWorkerEligibleTask isEnabled task) tasks

/-- The tasks dispatched by a tick. -/
theorem drainQueues_moves (s : QueueSystem) (slots : ℕ) : Moves s (s.drainQueues slots).1 := by
  rw [drainQueues_eq]
  constructor
  · rfl
  · rfl
  · intro x
    have htake := take_weight (isTask x) s slots
    have hsplit := weight_toMain_add_toWorkers (isTask x) s.pool.useWorkers (s.take slots).all
    have hpool : weight (isTaskData x) ((toWorkers s.pool.useWorkers (s.take slots).all).map
        createWorkerTaskData) = weight (isTask x) (toWorkers s.pool.useWorkers (s.take slots).all) :=
      weight_map _ _ _
    simp only [withQueues, dispatchAll, QueueStateHolder.waiting, weight_append, weight_dispatched, hpool,
      weight_dispatch_eq_zero (w := Call.posted x) fun _ => rfl,
      weight_dispatch_eq_zero (w := Call.settledWaiting x) fun _ => rfl]
    omega
  · intro x
    simp only [withQueues, dispatchAll, chains, weight_append, weight_dispatched,
      weight_newChains (w := unsettledTask x) fun _ => rfl,
      weight_dispatch_eq_zero (w := Call.settledByMain x) fun _ => rfl]
    omega
  · intro x
    simp only [withQueues, dispatchAll, chains, weight_append, weight_dispatched,
      weight_newChains (w := unstartedTask x) fun _ => rfl,
      weight_dispatch_eq_zero (w := Call.executed x) fun _ => rfl]
    omega
  · intro x
    simp only [withQueues, dispatchAll, weight_append,
      weight_dispatch_eq_zero (w := Call.settledByWorker x) fun _ => rfl,
      weight_dispatch_eq_zero (w := Call.posted x) fun _ => rfl]
    omega
  · intro x
    have := take_weight (isTask x) s slots
    simp only [withQueues, dispatchAll, QueueStateHolder.waiting]
    omega
  · exact fun x => Nat.le_refl _
  · exact fun x => .inl rfl
  · intro x hx
    simp only [withQueues, dispatchAll, weight_append,
      weight_dispatch_eq_zero (w := Call.settled x) fun _ => rfl] at hx
    omega
  · exact List.prefix_append _ _
  · exact id

/-- A tick. -/
theorem processQueue_moves (post : PostMessage) (s : QueueSystem) :
    Moves s (s.processQueue post) := by
  refine processQueue_rule (P := Moves s) (.refl s) (fun slots _ => drainQueues_moves s slots)
    (fun t ht => ?_) fun t ht => ?_
  · exact ht.trans (afterPool_moves t (WorkerPoolService.processWorkerTasks_flow post _))
  · exact ht.trans (sameTasks_rearm t).moves

/-- The processing of a batch. -/
theorem processBatch_moves (s : QueueSystem) (category : String) (now : ℕ) :
    Moves s (s.processBatch category now) := by
  obtain ⟨taken, htaken, ⟨hnone, hb⟩ | hb⟩ := processBatch_cases s category now
  · rw [hb]
    have hweight := fun x => BatchService.processBatch_weight (isTask x) category s.state.batchQueues
      s.state.activeRequests s.state.config.maxConcurrentRequests now
    have hkeyed := fun hk : s.state.Keyed => hk.processBatch category s.state.activeRequests
      s.state.config.maxConcurrentRequests now
    rw [← htaken] at hweight hkeyed
    simp only [hnone, weight_nil] at hweight
    have hwaiting : ∀ x, (s.withBatches taken).state.waiting (isTask x) =
        s.state.waiting (isTask x) := by
      intro x
      have := hweight x
      simp only [withBatches, QueueStateHolder.waiting]
      omega
    exact ⟨rfl, rfl, fun x => by rw [hwaiting]; rfl, fun _ => rfl, fun _ => rfl,
      fun _ => Nat.le_refl _, fun x => by rw [hwaiting], fun _ => Nat.le_refl _, fun _ => .inl rfl,
      fun _ hx => absurd hx (Nat.lt_irrefl _), List.prefix_refl _, hkeyed⟩
  · rw [hb]
    refine Moves.trans ?_ (sameTasks_onBatchComplete _ _ _ _).moves
    have hweight := fun x => BatchService.processBatch_weight (isTask x) category s.state.batchQueues
      s.state.activeRequests s.state.config.maxConcurrentRequests now
    have hkeyed := fun hk : s.state.Keyed => hk.processBatch category s.state.activeRequests
      s.state.config.maxConcurrentRequests now
    rw [← htaken] at hweight hkeyed
    constructor
    · rfl
    · rfl
    · intro x
      have := hweight x
      simp only [startGroup, QueueStateHolder.waiting, weight_append,
        weight_dispatched, weight_dispatch_eq_zero (w := Call.posted x) fun _ => rfl,
        weight_dispatch_eq_zero (w := Call.settledWaiting x) fun _ => rfl]
      omega
    · intro x
      simp only [startGroup, chains, weight_append, weight_cons, weight_nil, inGroup,
        weight_dispatched, weight_newChains (w := unsettledTask x) fun _ => rfl,
        weight_dispatch_eq_zero (w := Call.settledByMain x) fun _ => rfl]
      omega
    · intro x
      simp only [startGroup, chains, weight_append, weight_cons, weight_nil, inGroup,
        weight_dispatched, weight_newChains (w := unstartedTask x) fun _ => rfl,
        weight_dispatch_eq_zero (w := Call.executed x) fun _ => rfl]
      omega
    · intro x
      simp only [startGroup, weight_append,
        weight_dispatch_eq_zero (w := Call.settledByWorker x) fun _ => rfl,
        weight_dispatch_eq_zero (w := Call.posted x) fun _ => rfl]
      omega
    · intro x
      have := hweight x
      simp only [startGroup, QueueStateHolder.waiting]
      omega
    · exact fun x => Nat.le_refl _
    · exact fun x => .inl rfl
    · intro x hx
      simp only [startGroup, weight_append,
        weight_dispatch_eq_zero (w := Call.settled x) fun _ => rfl] at hx
      omega
    · exact List.prefix_append _ _
    · exact hkeyed

theorem processBatches_moves (due : TaskBatch → Bool) (now : ℕ) (categories : List String)
    (s : QueueSystem) : Moves s (processBatches due now categories s) :=
  processBatches_rule (P := fun t => Moves s t)
    (fun t category h => h.trans (processBatch_moves t category now)) categories (.refl s)

/-- Waiting tasks taken out and rejected. -/
theorem Moves.of_rejected {s : QueueSystem} {state : QueueStateHolder} {calls : List Call}
    (hcounter : state.taskIdCounter = s.state.taskIdCounter)
    (hplace : ∀ x, state.waiting (isTask x) + weight (Call.settledWaiting x) calls =
      s.state.waiting (isTask x))
    (hcalls : ∀ c ∈ calls, ∃ t settler reason, settler.whileWaiting = true ∧ c = .reject t settler reason)
    (hkeyed : s.state.Keyed → state.Keyed) : Moves s ({ s with state := state }.record calls) := by
  have hnone : ∀ w : Call → ℕ, (∀ t settler reason, settler.whileWaiting = true →
      w (.reject t settler reason) = 0) → weight w calls = 0 := by
    intro w hw
    refine weight_eq_zero _ fun c hc => ?_
    obtain ⟨t, settler, reason, hs, rfl⟩ := hcalls c hc
    exact hw t settler reason hs
  have hmain : ∀ x, weight (Call.settledByMain x) calls = 0 := fun x =>
    hnone _ fun _ _ _ hs => if_neg (Settler.ne_of_whileWaiting hs).1
  have hworker : ∀ x, weight (Call.settledByWorker x) calls = 0 := fun x =>
    hnone _ fun _ _ _ hs => if_neg (Settler.ne_of_whileWaiting hs).2
  have hdispatched : ∀ x, weight (Call.dispatched x) calls = 0 := fun x => hnone _ fun _ _ _ _ => rfl
  have hposted : ∀ x, weight (Call.posted x) calls = 0 := fun x => hnone _ fun _ _ _ _ => rfl
  have hexecuted : ∀ x, weight (Call.executed x) calls = 0 := fun x => hnone _ fun _ _ _ _ => rfl
  refine Moves.of_record (t := { s with state := state }) rfl rfl hcounter rfl (fun x => ?_)
    (fun x => ?_) (fun x => ?_) (fun x => ?_) (fun x => ?_) hkeyed
  · have := hplace x
    dsimp only
    omega
  · have := hplace x
    simp only [hdispatched, hposted]
    omega
  · simp only [hdispatched, hmain, chains]
    omega
  · simp only [hdispatched, hexecuted, chains]
    omega
  · simp only [hworker, hposted]
    omega

theorem cleanupQueueCalls_mem {now t : ℕ} {q : List QueueTask} {c : Call}
    (h : c ∈ MemoryService.cleanupQueueCalls now t q) :
    ∃ task reason, c = .reject task .cleanup reason := by
  simp only [MemoryService.cleanupQueueCalls, List.mem_map] at h
  obtain ⟨task, -, rfl⟩ := h
  exact ⟨task, _, rfl⟩

theorem cleanupBatches_mem {now t : ℕ} {entries : List (String × TaskBatch)}
    {m : JsMap String TaskBatch} {c : Call}
    (h : c ∈ (MemoryService.cleanupBatches now t entries m).1) :
    ∃ task reason, c = .reject task .cleanup reason := by
  induction entries generalizing m with
  | nil => simp [MemoryService.cleanupBatches] at h
  | cons e entries ih =>
    simp only [MemoryService.cleanupBatches] at h
    split at h
    · simp only [List.mem_append, List.mem_map] at h
      rcases h with ⟨task, -, rfl⟩ | h
      · exact ⟨task, _, rfl⟩
      · exact ih h
    · exact ih h

theorem cleanupOldTasks_mem {now : ℕ} {state : QueueStateHolder} {c : Call}
    (h : c ∈ (MemoryService.cleanupOldTasks now state).1) :
    ∃ task reason, c = .reject task .cleanup reason := by
  simp only [MemoryService.cleanupOldTasks, List.mem_append] at h
  rcases h with ((h | h) | h) | h
  · exact cleanupQueueCalls_mem h
  · exact cleanupQueueCalls_mem h
  · exact cleanupQueueCalls_mem h
  · exact cleanupBatches_mem h

theorem cleanupOldTasks_moves (s : QueueSystem) (now : ℕ) : Moves s (s.cleanupOldTasks now) := by
  unfold QueueSystem.cleanupOldTasks
  refine Moves.trans ?_ (sameTasks_countTimeout _ _).moves
  refine Moves.of_rejected rfl (fun x => ?_) (fun c hc => ?_)
    fun hk => MemoryService.cleanupOldTasks_keyed hk now
  · exact MemoryService.cleanupOldTasks_weight (fun task reason => by simp [Settler.whileWaiting])
      now s.state
  · obtain ⟨task, reason, rfl⟩ := cleanupOldTasks_mem hc
    exact ⟨task, .cleanup, reason, rfl, rfl⟩

theorem forceReduceQueues_moves (s : QueueSystem) (now : ℕ) :
    Moves s (s.forceReduceQueues now) := by
  unfold QueueSystem.forceReduceQueues
  dsimp only
  refine Moves.trans ?_ (sameTasks_countRejected _ _).moves
  refine Moves.trans ?_ (processBatches_moves _ now _ _)
  refine Moves.of_rejected rfl (fun x => ?_) (fun c hc => ?_) id
  · have := MemoryService.keptLow_weight (isTask x) s.state.lowPriorityQueue
    have hcalls : weight (Call.settledWaiting x)
        ((MemoryService.poppedLow s.state.lowPriorityQueue).map fun task =>
          Call.reject task .forceReduce (.error MemoryService.forceReduceMessage)) =
        weight (isTask x) (MemoryService.poppedLow s.state.lowPriorityQueue) := by
      rw [weight_map]
      exact weight_congr fun t _ => by simp [Settler.whileWaiting]
    simp only [QueueStateHolder.waiting, hcalls]
    omega
  · obtain ⟨task, -, rfl⟩ := List.mem_map.mp hc
    exact ⟨task, .forceReduce, _, rfl, rfl⟩

theorem checkMemoryUsage_moves (s : QueueSystem) (usage : MemoryUsage) (now : ℕ) :
    Moves s (s.checkMemoryUsage usage now) := by
  have hpressure : Moves s { s with memoryPressure := MemoryService.isHigh usage } :=
    ⟨rfl, rfl, fun _ => rfl, fun _ => rfl, fun _ => rfl, fun _ => Nat.le_refl _,
      fun _ => Nat.le_refl _, fun _ => Nat.le_refl _, fun _ => .inl rfl,
      fun _ hx => absurd hx (Nat.lt_irrefl _), List.prefix_refl _, id⟩
  exact checkMemoryUsage_rule (P := fun t => Moves s t) hpressure
    (fun t h => h.trans (cleanupOldTasks_moves t now))
    (fun t h => h.trans (forceReduceQueues_moves t now))
    fun t h => h.trans (sameTasks_requestProcessQueue t).moves

/-! ### Timers and promise chains -/

/-- A queue-wait timer: the task is found and rejected, or nothing happens. -/
theorem onQueueWaitTimeout_moves {s : QueueSystem} (hk : s.state.Keyed) (task : QueueTask) :
    Moves s (s.onQueueWaitTimeout task) := by
  unfold QueueSystem.onQueueWaitTimeout
  split
  · rename_i state hfound
    have hstate : (s.state.removeTaskFromQueues task).2 = state := by rw [hfound]
    have hplace : ∀ x, (s.state.removeTaskFromQueues task).2.waiting (isTask x) + isTask x task =
        s.state.waiting (isTask x) := fun x =>
      QueueStateHolder.removeTaskFromQueues_found hk (by rw [hfound]) fun a ha => by simp [isTask, ha]
    have hcounter : state.taskIdCounter = s.state.taskIdCounter := by
      rw [← hstate, QueueStateHolder.removeTaskFromQueues_frame]
    have hkeyed : state.Keyed := by
      rw [← hstate]
      exact hk.removeTaskFromQueues task
    refine Moves.of_record (s := s) (t := { s with state := state }.countTimeout 1) rfl rfl hcounter
      rfl (fun x => ?_) (fun x => ?_) (fun x => ?_) (fun x => ?_) (fun x => ?_)
      fun _ => hkeyed
    · have := hplace x
      simp only [hstate] at this
      simp only [countTimeout]
      omega
    · have := hplace x
      simp only [hstate] at this
      simp [countTimeout, Settler.whileWaiting]
      omega
    · simp [chains, countTimeout]
    · simp [chains, countTimeout]
    · simp [countTimeout]
  · exact .refl s

/-- What a promise chain's step does to the weights of its task. -/
theorem stepCalls_weights {r : RunningTask} {p : PromiseStep} {stage : Stage}
    (h : r.stage.next p = some stage) (x : ℕ) :
    unsettledTask x r = unsettledTask x { r with stage := stage } +
        weight (Call.settledByMain x) (stepCalls r.task p stage) ∧
      unstartedTask x r = unstartedTask x { r with stage := stage } +
        weight (Call.executed x) (stepCalls r.task p stage) ∧
      weight (Call.dispatched x) (stepCalls r.task p stage) = 0 ∧
      weight (Call.posted x) (stepCalls r.task p stage) = 0 ∧
      weight (Call.settledWaiting x) (stepCalls r.task p stage) = 0 ∧
      weight (Call.settledByWorker x) (stepCalls r.task p stage) = 0 := by
  obtain ⟨task, old⟩ := r
  cases Stage.moves_of_next h with
  | settle outcome => cases outcome <;> simp [stepCalls, settleCall, Settler.whileWaiting]
  | _ => simp [stepCalls]

theorem advanceSingle_moves {s u : QueueSystem} {k : ℕ} {p : PromiseStep}
    (h : s.advanceSingle k p = some u) : Moves s u := by
  obtain ⟨r, stage, hr, hstage, rfl⟩ := advanceSingle_cases h
  refine Moves.trans ?_ (sameTasks_countSingle _ _ _).moves
  have hset := fun w : RunningTask → ℕ => weight_set w hr { r with stage := stage }
  refine Moves.of_record (t := { s with running := s.running.set k { r with stage := stage } })
    rfl rfl rfl rfl (fun x => Nat.le_refl _) (fun x => ?_) (fun x => ?_) (fun x => ?_)
    (fun x => ?_) id
  · obtain ⟨-, -, hd, hp, hw, -⟩ := stepCalls_weights hstage x
    simp only [hd, hp, hw, Nat.add_zero]
  · obtain ⟨hu, -, hd, -⟩ := stepCalls_weights hstage x
    have := hset (unsettledTask x)
    simp only [chains]
    omega
  · obtain ⟨-, hu, hd, -⟩ := stepCalls_weights hstage x
    have := hset (unstartedTask x)
    simp only [chains]
    omega
  · obtain ⟨-, -, -, hp, -, hw⟩ := stepCalls_weights hstage x
    simp only [hp, hw]
    exact Nat.le_refl _

theorem count_members (g : BatchGroup) (p : PromiseStep) (stage : Stage) :
    (g.count p stage).members = g.members := by
  unfold BatchGroup.count
  split <;> rfl

theorem advanceMember_moves {s u : QueueSystem} {k m : ℕ} {p : PromiseStep}
    (h : s.advanceMember k m p = some u) : Moves s u := by
  obtain ⟨g, r, stage, hg, hr, hstage, rfl⟩ := advanceMember_cases h
  have hset : ∀ w : RunningTask → ℕ,
      weight (inGroup w) (s.groups.set k
        ({ g with members := g.members.set m { r with stage := stage } }.count p stage)) + w r =
      weight (inGroup w) s.groups + w { r with stage := stage } := by
    intro w
    have hgroup := weight_set (inGroup w) hg
      ({ g with members := g.members.set m { r with stage := stage } }.count p stage)
    have hmember := weight_set w hr { r with stage := stage }
    simp only [inGroup, count_members] at hgroup ⊢
    omega
  refine Moves.of_record (s := s) (t := { s with groups := (s.groups.set k
      ({ g with members := g.members.set m { r with stage := stage } }.count p stage)) })
    rfl rfl rfl rfl (fun x => Nat.le_refl _) (fun x => ?_) (fun x => ?_) (fun x => ?_)
    (fun x => ?_) id
  · obtain ⟨-, -, hd, hp, hw, -⟩ := stepCalls_weights hstage x
    simp only [hd, hp, hw, Nat.add_zero]
  · obtain ⟨hu, -, hd, -⟩ := stepCalls_weights hstage x
    have := hset (unsettledTask x)
    simp only [chains]
    omega
  · obtain ⟨-, hu, hd, -⟩ := stepCalls_weights hstage x
    have := hset (unstartedTask x)
    simp only [chains]
    omega
  · obtain ⟨-, -, -, hp, -, hw⟩ := stepCalls_weights hstage x
    simp only [hp, hw]
    exact Nat.le_refl _

/-- Promise chains that have settled their task are forgotten. -/
theorem Moves.of_chains {s t : QueueSystem} (hstate : t.state = s.state) (hpool : t.pool = s.pool)
    (htimers : t.timers = s.timers) (haccepted : t.accepted = s.accepted) (hlog : t.log = s.log)
    (hchains : ∀ x, t.chains (unsettledTask x) = s.chains (unsettledTask x) ∧
      t.chains (unstartedTask x) = s.chains (unstartedTask x)) : Moves s t where
  accepted := haccepted
  counter := by rw [hstate]
  place x := by rw [hstate, hpool, hlog]
  main x := by rw [hlog, (hchains x).1]
  execute x := by rw [hlog, (hchains x).2]
  worker x := by rw [hpool, hlog]
  waiting x := by rw [hstate]
  timers x := by rw [htimers]
  armed x := .inl (by rw [htimers])
  cleared x hx := by rw [hlog] at hx; omega
  logged := hlog ▸ List.prefix_refl _
  keyed hk := by rw [hstate]; exact hk

/-- A settled chain has no weight. -/
theorem settled_weights {r : RunningTask} (h : r.stage.isSettled = true) (x : ℕ) :
    unsettledTask x r = 0 ∧ unstartedTask x r = 0 := by
  obtain ⟨task, stage⟩ := r
  cases stage <;> simp [Stage.isSettled] at h ⊢

theorem finallySingle_moves {s u : QueueSystem} {k : ℕ} (h : s.finallySingle k = some u) :
    Moves s u := by
  obtain ⟨r, hr, hsettled, rfl⟩ := finallySingle_cases h
  refine Moves.trans ?_ (sameTasks_releaseSlot _).moves
  refine Moves.of_chains rfl rfl rfl rfl rfl fun x => ?_
  have hzero := settled_weights hsettled x
  have h₁ := weight_eraseIdx (unsettledTask x) hr
  have h₂ := weight_eraseIdx (unstartedTask x) hr
  simp only [chains]
  omega

theorem finallyGroup_moves {s u : QueueSystem} {k : ℕ} (h : s.finallyGroup k = some u) :
    Moves s u := by
  obtain ⟨g, hg, hsettled, rfl⟩ := finallyGroup_cases h
  refine Moves.trans ?_ (sameTasks_onBatchComplete _ _ _ _).moves
  refine Moves.of_chains rfl rfl rfl rfl rfl fun x => ?_
  have h₁ := weight_eraseIdx (inGroup (unsettledTask x)) hg
  have h₂ := weight_eraseIdx (inGroup (unstartedTask x)) hg
  have hz₁ : inGroup (unsettledTask x) g = 0 :=
    weight_eq_zero _ fun r hr => (settled_weights (hsettled r hr) x).1
  have hz₂ : inGroup (unstartedTask x) g = 0 :=
    weight_eq_zero _ fun r hr => (settled_weights (hsettled r hr) x).2
  simp only [chains]
  omega

/-- A worker's message changes what it owes, and nothing else before it is handled. -/
theorem send_fields {pool pool' : WorkerPoolService} {i : ℕ} {result : WorkerMessage}
    {answered : Option Posted} (h : pool.send i result = some (pool', answered)) :
    pool'.workerTaskQueue = pool.workerTaskQueue ∧ pool'.assignedTasks = pool.assignedTasks ∧
      pool'.useWorkers = pool.useWorkers := by
  obtain ⟨w, -, ⟨-, -, -, rfl⟩ | ⟨p, rest, -, -, -, -, -, rfl⟩⟩ := WorkerPoolService.send_cases h
  · exact ⟨rfl, rfl, rfl⟩
  · exact ⟨rfl, rfl, rfl⟩

theorem workerMessage_moves {s : QueueSystem} {pool : WorkerPoolService} {i : ℕ}
    {result : WorkerMessage} {answered : Option Posted}
    (h : s.pool.send i result = some (pool, answered)) (post : PostMessage) :
    Moves s ({ s with pool := pool }.afterPool
      (pool.onMessage (some (processorHandleWorkerResult post)) i result)) := by
  obtain ⟨hqueue, hassigned, -⟩ := send_fields h
  exact afterPool_moves s ((WorkerPoolService.onMessage_flow post pool i result).congr_left
    hqueue.symm hassigned.symm)

/-! ### The ledger of a run -/

/-- The invariant of the runs of the queue. -/
structure Ledger (s : QueueSystem) : Prop where
  /-- Tasks are numbered up to the counter. -/
  ids : ∀ a ∈ s.accepted, a.id ≤ s.state.taskIdCounter
  /-- No number is given twice. -/
  once : ∀ x, weight (isTask x) s.accepted ≤ 1
  /-- An accepted task waits, or was handed over, posted or rejected. -/
  place : ∀ x, s.state.waiting (isTask x) + weight (isTaskData x) s.pool.workerTaskQueue +
      weight (Call.dispatched x) s.log + weight (Call.posted x) s.log +
      weight (Call.settledWaiting x) s.log =
    weight (isTask x) s.accepted
  /-- A task handed to the main thread is on its way or settled there. -/
  main : ∀ x, weight (Call.dispatched x) s.log =
    s.chains (unsettledTask x) + weight (Call.settledByMain x) s.log
  /-- A task handed to the main thread waits to be executed, or has been. -/
  execute : ∀ x, weight (Call.dispatched x) s.log =
    s.chains (unstartedTask x) + weight (Call.executed x) s.log
  /-- What workers are assigned or settle has been posted. -/
  worker : ∀ x, s.pool.assignedTasks.weightOf (isTaskData x) +
    weight (Call.settledByWorker x) s.log ≤ weight (Call.posted x) s.log
  /-- Only accepted tasks have timers. -/
  timers : ∀ x, weight (isTask x) s.timers ≤ weight (isTask x) s.accepted
  /-- A settled task has none. -/
  cleared : ∀ x, 0 < weight (Call.settled x) s.log → weight (isTask x) s.timers = 0
  keyed : s.state.Keyed

theorem Ledger.moves {s u : QueueSystem} (h : Ledger s) (hm : Moves s u) : Ledger u where
  ids := by rw [hm.accepted, hm.counter]; exact h.ids
  once := by rw [hm.accepted]; exact h.once
  place x := by rw [hm.place, hm.accepted]; exact h.place x
  main x := by
    have h₁ := h.main x
    have h₂ := hm.main x
    omega
  execute x := by
    have h₁ := h.execute x
    have h₂ := hm.execute x
    omega
  worker x := by
    have h₁ := h.worker x
    have h₂ := hm.worker x
    omega
  timers x := by rw [hm.accepted]; exact (hm.timers x).trans (h.timers x)
  cleared x hx := by
    have hle := hm.timers x
    rcases Nat.eq_zero_or_pos (weight (Call.settled x) s.log) with hz | hpos
    · exact hm.cleared x (by omega)
    · have := h.cleared x hpos
      omega
  keyed := hm.keyed h.keyed

/-- A task is settled at most once. -/
theorem Ledger.settled_le_one {s : QueueSystem} (h : Ledger s) (x : ℕ) :
    weight (Call.settled x) s.log ≤ weight (isTask x) s.accepted := by
  have h₁ := h.place x
  have h₂ := h.main x
  have h₃ := h.worker x
  have h₄ := weight_settled x s.log
  omega

/-- Where a task is put when it is accepted. -/
theorem place_waiting (s : QueueSystem) (task : QueueTask) (batch : Bool) (now : ℕ)
    (w : QueueTask → ℕ) :
    (s.place task batch now).state.waiting w = s.state.waiting w + w task := by
  unfold QueueSystem.place
  split
  · have := BatchService.addTaskToBatch_weight w task now s.state.batchQueues
    simp only [QueueStateHolder.waiting]
    omega
  · split
    · simp [QueueStateHolder.waiting]; omega
    · split
      · simp [QueueStateHolder.waiting]; omega
      · simp [QueueStateHolder.waiting]; omega

/-- What putting a task in its place leaves alone. -/
theorem place_frame (s : QueueSystem) (task : QueueTask) (batch : Bool) (now : ℕ) :
    s.place task batch now =
      { s with
        state := { s.state with
          highPriorityQueue := (s.place task batch now).state.highPriorityQueue
          normalPriorityQueue := (s.place task batch now).state.normalPriorityQueue
          lowPriorityQueue := (s.place task batch now).state.lowPriorityQueue
          batchQueues := (s.place task batch now).state.batchQueues }
        batchTriggers := (s.place task batch now).batchTriggers } := by
  unfold QueueSystem.place
  split
  · rfl
  · split
    · rfl
    · split <;> rfl

theorem place_keyed {s : QueueSystem} (h : s.state.Keyed) (task : QueueTask) (batch : Bool)
    (now : ℕ) : (s.place task batch now).state.Keyed := by
  unfold QueueSystem.place
  split
  · exact h.addTaskToBatch task now
  · split
    · exact h
    · split <;> exact h

/-- Accepting a task keeps the ledger. -/
theorem Ledger.accept {s : QueueSystem} (h : Ledger s) (options : NormalizedEnqueueOptions)
    (now : ℕ) : Ledger (s.accept options now) := by
  have hnew : ∀ x, weight (isTask x) s.accepted + isTask x (s.newTask options now) ≤ 1 := by
    intro x
    by_cases hx : s.state.taskIdCounter + 1 = x
    · have hz : weight (isTask x) s.accepted = 0 := by
        refine weight_eq_zero _ fun a ha => ?_
        have := h.ids a ha
        simp only [isTask]
        rw [if_neg (by omega)]
      simp [hz, isTask, newTask, hx]
    · have := h.once x
      simpa [isTask, newTask, hx] using this
  refine Ledger.moves ?_ (sameTasks_requestProcessQueue _).moves
  let t := s.register (s.newTask options now)
  let u := t.place (s.newTask options now) options.batch now
  have hpool : u.pool = s.pool := by simp only [u]; rw [place_frame]; rfl
  have hlog : u.log = s.log := by simp only [u]; rw [place_frame]; rfl
  have hrunning : u.running = s.running := by simp only [u]; rw [place_frame]; rfl
  have hgroups : u.groups = s.groups := by simp only [u]; rw [place_frame]; rfl
  have htimers : u.timers = s.timers ++ [s.newTask options now] := by
    simp only [u]; rw [place_frame]; rfl
  have haccepted : u.accepted = s.accepted ++ [s.newTask options now] := by
    simp only [u]; rw [place_frame]; rfl
  have hcounter : u.state.taskIdCounter = s.state.taskIdCounter + 1 := by
    simp only [u]; rw [place_frame]; rfl
  have hwaiting : ∀ x, u.state.waiting (isTask x) =
      s.state.waiting (isTask x) + isTask x (s.newTask options now) := fun x =>
    place_waiting t (s.newTask options now) options.batch now (isTask x)
  change Ledger u
  constructor
  · intro a ha
    rw [hcounter]
    rw [haccepted, List.mem_append, List.mem_singleton] at ha
    rcases ha with ha | rfl
    · have := h.ids a ha
      omega
    · exact Nat.le_refl _
  · intro x
    rw [haccepted]
    simpa using hnew x
  · intro x
    have := h.place x
    rw [hwaiting, hpool, hlog, haccepted]
    simp only [weight_append, weight_cons, weight_nil]
    omega
  · intro x
    have := h.main x
    simp only [chains, hlog, hrunning, hgroups] at this ⊢
    exact this
  · intro x
    have := h.execute x
    simp only [chains, hlog, hrunning, hgroups] at this ⊢
    exact this
  · intro x
    rw [hpool, hlog]
    exact h.worker x
  · intro x
    have := h.timers x
    rw [htimers, haccepted]
    simp only [weight_append, weight_cons, weight_nil]
    omega
  · intro x hx
    rw [hlog] at hx
    have hcleared := h.cleared x hx
    -- a task settled before was accepted before, so this one is another
    have hle := h.settled_le_one x
    have := hnew x
    rw [htimers]
    simp only [weight_append, weight_cons, weight_nil]
    omega
  · exact place_keyed (s := t) h.keyed (s.newTask options now) options.batch now

/-- The three ends of `enqueue`: the options are refused, the queue refuses the task, or the
task is accepted. -/
theorem enqueue_cases (s : QueueSystem) (options : EnqueueOptions) (now : ℕ) :
    ∃ parser, (s.enqueue options now).2 = { s with parser := parser } ∨
      (s.enqueue options now).2 =
        { s with parser := parser, refused := s.refused + 1 }.countRejected 1 ∨
      ∃ normalized, 0 < normalized.size ∧
        s.state.getTotalQueueLength < s.state.config.queueOverflowThreshold ∧
        (s.enqueue options now).2 = { s with parser := parser }.accept normalized now := by
  unfold QueueSystem.enqueue
  dsimp only
  split
  · exact ⟨_, .inl rfl⟩
  · rename_i normalized hnormalized
    split
    · exact ⟨_, .inr (.inl rfl)⟩
    · split
      · exact ⟨_, .inr (.inl rfl)⟩
      · rename_i hlength
        refine ⟨_, .inr (.inr ⟨normalized, ?_, Nat.lt_of_not_le hlength, rfl⟩)⟩
        exact QueueOptionsParser.normalizeEnqueueOptions_size_pos
          (q := (s.parser.normalizeEnqueueOptions options s.state.config.executionTimeoutMs).2)
          (Prod.ext hnormalized rfl)

/-- Firing a timer takes it away. -/
theorem Ledger.fire {s : QueueSystem} (h : Ledger s) (k : ℕ) {task : QueueTask}
    (hk : s.timers[k]? = some task) : Ledger { s with timers := s.timers.eraseIdx k } := by
  have hle : ∀ x, weight (isTask x) (s.timers.eraseIdx k) ≤ weight (isTask x) s.timers := by
    intro x
    have := weight_eraseIdx (isTask x) hk
    omega
  refine ⟨h.ids, h.once, h.place, h.main, h.execute, h.worker, fun x => (hle x).trans (h.timers x),
    fun x hx => ?_, h.keyed⟩
  have := hle x
  have := h.cleared x hx
  dsimp only
  omega

/-- **What a step does to the tasks**: it moves them, accepts one, or fires a timer. -/
theorem step_cases {s u : QueueSystem} {e : QueueEvent} (hu : s.step e = some u) :
    Moves s u ∨
      (∃ parser normalized now, u = { s with parser := parser }.accept normalized now) ∨
      ∃ k task, s.timers[k]? = some task ∧
        u = { s with timers := s.timers.eraseIdx k }.onQueueWaitTimeout task := by
  cases takes_of_step hu with
  | enqueue options now =>
    obtain ⟨parser, he | he | ⟨normalized, -, -, he⟩⟩ := enqueue_cases s options now
    · rw [he]
      exact .inl (Moves.of_chains rfl rfl rfl rfl rfl fun _ => ⟨rfl, rfl⟩)
    · rw [he]
      exact .inl (Moves.of_chains rfl rfl rfl rfl rfl fun _ => ⟨rfl, rfl⟩)
    · exact .inr (.inl ⟨parser, normalized, now, he⟩)
  | @processSignal post _ =>
    refine .inl (Moves.trans ?_ (processQueue_moves post _))
    exact SameTasks.moves ⟨rfl, rfl, rfl, rfl, rfl, rfl, rfl, rfl, rfl⟩
  | tasksWait _ => exact .inl (sameTasks_requestProcessQueue s).moves
  | nothingWaits _ => exact .inl (.refl s)
  | @batchTrigger _ now _ _ =>
    refine .inl (Moves.trans ?_ (processBatch_moves _ _ now))
    exact Moves.of_chains rfl rfl rfl rfl rfl fun _ => ⟨rfl, rfl⟩
  | batchAgingTimer now => exact .inl (processBatches_moves _ now _ s)
  | memoryCheckTimer usage now => exact .inl (checkMemoryUsage_moves s usage now)
  | statsLogTimer => exact .inl (Moves.of_chains rfl rfl rfl rfl rfl fun _ => ⟨rfl, rfl⟩)
  | queueWaitTimer htimer => exact .inr (.inr ⟨_, _, htimer, rfl⟩)
  | single hadvances => exact .inl (advanceSingle_moves hadvances)
  | member hadvances => exact .inl (advanceMember_moves hadvances)
  | finallySingle hleaves => exact .inl (finallySingle_moves hleaves)
  | finallyGroup hleaves => exact .inl (finallyGroup_moves hleaves)
  | @workerMessage _ _ post _ _ hsend => exact .inl (workerMessage_moves hsend post)
  | @workerFailure i error post _ =>
    exact .inl (afterPool_moves s (WorkerPoolService.handleWorkerFailure_flow post s.pool i error))

/-- Every step only adds calls to the log. -/
theorem step_logged {s u : QueueSystem} (hs : s.state.Keyed) {e : QueueEvent}
    (hu : s.step e = some u) : s.log <+: u.log := by
  obtain hm | ⟨parser, normalized, now, rfl⟩ | ⟨k, task, hk, rfl⟩ := step_cases hu
  · exact hm.logged
  · unfold QueueSystem.accept
    dsimp only [requestProcessQueue]
    rw [place_frame]
    exact List.prefix_refl _
  · have ht : ({ s with timers := s.timers.eraseIdx k } : QueueSystem).state.Keyed := hs
    exact (onQueueWaitTimeout_moves ht task).logged

/-- Every step keeps the ledger. -/
theorem Ledger.step {s u : QueueSystem} {e : QueueEvent} (h : Ledger s) (hu : s.step e = some u) :
    Ledger u := by
  obtain hm | ⟨parser, normalized, now, rfl⟩ | ⟨k, task, hk, rfl⟩ := step_cases hu
  · exact h.moves hm
  · have ht : Ledger { s with parser := parser } :=
      h.moves (Moves.of_chains rfl rfl rfl rfl rfl fun _ => ⟨rfl, rfl⟩)
    exact ht.accept normalized now
  · have hfired := h.fire k hk
    exact hfired.moves (onQueueWaitTimeout_moves hfired.keyed task)

/-- The pool as created has no tasks. -/
theorem initial_pool (useWorkers : Bool) (workerCount : ℕ) (router : WorkerTaskRouterService) :
    (WorkerPoolService.initWorkerPool { useWorkers := useWorkers, router := router }
        workerCount).workerTaskQueue = [] ∧
      (WorkerPoolService.initWorkerPool { useWorkers := useWorkers, router := router }
        workerCount).assignedTasks = .empty := by
  have hcreate : ∀ n, (WorkerPoolService.createWorkers
      { useWorkers := useWorkers, router := router } n).workerTaskQueue = [] ∧
      (WorkerPoolService.createWorkers
        { useWorkers := useWorkers, router := router } n).assignedTasks = .empty := by
    intro n
    induction n with
    | zero => exact ⟨rfl, rfl⟩
    | succ n ih => exact ih
  unfold WorkerPoolService.initWorkerPool
  split
  · exact hcreate workerCount
  · exact ⟨rfl, rfl⟩

variable {config : QueueConfig} {taskIdCounter : ℕ} {stats : QueueStatsService}
  {allowCustomWorkload useWorkers : Bool} {workerCount : ℕ} {cpu memory custom : Option ℕ}

theorem Ledger.initial : Ledger (initial config taskIdCounter stats allowCustomWorkload useWorkers
    workerCount cpu memory custom) := by
  obtain ⟨hqueue, hassigned⟩ := initial_pool useWorkers workerCount
    (.create workerCount cpu memory custom)
  refine ⟨by simp [QueueSystem.initial], fun x => by simp [QueueSystem.initial], fun x => ?_,
    fun x => rfl, fun x => rfl, fun x => ?_, fun x => Nat.le_refl _, fun x hx => rfl, ?_⟩
  · simp [QueueSystem.initial, hqueue, QueueStateHolder.waiting]
  · simp [QueueSystem.initial, hassigned]
  · intro key batch hget
    cases hget

theorem Ledger.of_reachable {s : QueueSystem}
    (h : Reachable QueueSystem.step (QueueSystem.initial config taskIdCounter stats
      allowCustomWorkload useWorkers workerCount cpu memory custom) s) : Ledger s :=
  h.invariant .initial fun _ _ _ hs _ hu => hs.step hu

end QueueSystem

end BulkTraffic.Queue
