import BulkTraffic.Queue.BatchSizes
import BulkTraffic.Queue.PoolRuns

/-!
# Custom workloads where they are not allowed

A task is *plain* when it is no custom workload and carries no code. Where custom workloads
are not allowed, `normalizeEnqueueOptions` refuses what asks for one, so that only plain
tasks are made; and no function of the queue or of the pool makes a message that is not
plain from a plain task.

* `QueueStateHolder.AllWaiting`: what holds of all waiting tasks, and that taking tasks out
  keeps it.
* `WorkerPoolService.Plain`: the pending tasks and the messages at workers are plain.
* `QueueSystem.NoCustom`: the invariant of all runs, `NoCustom.step` its step.
-/

namespace BulkTraffic.Queue

open BulkTraffic.Lib BulkTraffic.Js

/-- The task is no custom workload and carries no code. -/
structure QueueTask.Plain (task : QueueTask) : Prop where
  type : task.workloadType ≠ some .custom
  code : task.functionCode = none

/-- The envelope of a plain task adds no code. -/
structure WorkerTaskData.Plain (taskData : WorkerTaskData) : Prop where
  task : taskData.task.Plain
  type : taskData.type ≠ some .custom
  code : taskData.functionCode = none

/-- The message is of another type than `custom` and carries no code. -/
structure TaskMessage.Plain (message : TaskMessage) : Prop where
  type : message.type ≠ .custom
  code : message.functionCode = none

/-! ### What is refused -/

namespace QueueOptionsParser

/-- The options ask for custom code: by `functionCode`, or by a type that reads `custom`. -/
def AsksForCustom (options : EnqueueOptions) : Prop :=
  isBlank options.functionCode = false ∨
    ∃ text, options.workloadType = .str text ∧ toLowerCase (trim text) = "custom"

variable {p : QueueOptionsParser}

theorem parseFunctionCodeOption_of_disabled (hp : p.allowCustomWorkload = false) {value : JsValue}
    {code : Option String} (h : p.parseFunctionCodeOption value = .ok code) :
    isBlank value = true ∧ code = none := by
  unfold parseFunctionCodeOption at h
  split at h
  · rename_i hblank
    cases h
    exact ⟨hblank, rfl⟩
  · split at h
    · simp [hp] at h
    · cases h

theorem parseWorkloadTypeOption_of_disabled (hp : p.allowCustomWorkload = false) {value : JsValue}
    {type : Option WorkloadType} (h : (p.parseWorkloadTypeOption value).1 = .ok type) :
    type ≠ some .custom ∧ ∀ text, value = .str text → toLowerCase (trim text) ≠ "custom" := by
  unfold parseWorkloadTypeOption at h
  split at h
  · rename_i hblank
    cases h
    refine ⟨nofun, ?_⟩
    rintro text rfl hcustom
    have hempty : text = "" := by simpa [isBlank] using hblank
    subst hempty
    exact absurd hcustom (by decide)
  · split at h
    · rename_i text hblank
      dsimp only at h
      split at h
      · rename_i hcpu
        cases h
        refine ⟨nofun, fun t ht => ?_⟩
        cases ht
        simp [hcpu]
      · split at h
        · rename_i hmemory
          cases h
          refine ⟨nofun, fun t ht => ?_⟩
          cases ht
          simp [hmemory]
        · split at h
          · simp [hp] at h
          · rename_i hcustom
            cases h
            refine ⟨nofun, fun t ht => ?_⟩
            cases ht
            exact hcustom
    · rename_i hother
      cases h

theorem parseWorkloadTypeOption_allow (p : QueueOptionsParser) (value : JsValue) :
    (p.parseWorkloadTypeOption value).2.allowCustomWorkload = p.allowCustomWorkload := by
  unfold parseWorkloadTypeOption
  split
  · rfl
  · split
    · dsimp only
      split
      · rfl
      · split
        · rfl
        · split <;> rfl
    · rfl

/-- The parser keeps its setting. -/
theorem normalizeEnqueueOptions_allow (p : QueueOptionsParser) (options : EnqueueOptions)
    (defaultTimeout : ℕ) :
    (p.normalizeEnqueueOptions options defaultTimeout).2.allowCustomWorkload
      = p.allowCustomWorkload := by
  unfold normalizeEnqueueOptions
  split
  · rfl
  · dsimp only
    split
    · exact parseWorkloadTypeOption_allow p _
    · split <;> exact parseWorkloadTypeOption_allow p _

/-- **Where custom workloads are not allowed**, accepted options ask for none. -/
theorem normalizeEnqueueOptions_of_disabled (hp : p.allowCustomWorkload = false)
    {options : EnqueueOptions} {defaultTimeout : ℕ} {n : NormalizedEnqueueOptions}
    (h : (p.normalizeEnqueueOptions options defaultTimeout).1 = .ok n) :
    n.workloadType ≠ some .custom ∧ n.functionCode = none ∧ ¬ AsksForCustom options := by
  unfold normalizeEnqueueOptions at h
  split at h
  · cases h
  · dsimp only at h
    split at h
    · cases h
    · rename_i type htype
      obtain ⟨hnot, htext⟩ := parseWorkloadTypeOption_of_disabled hp htype
      have hallow := (parseWorkloadTypeOption_allow p options.workloadType).trans hp
      split at h
      · cases h
      · rename_i params code htrailing
        cases h
        simp only [parseTrailing, bind, Except.bind, pure, Except.pure] at htrailing
        split at htrailing
        · cases htrailing
        · split at htrailing
          · cases htrailing
          · rename_i code' hcode
            cases htrailing
            obtain ⟨hblank, rfl⟩ := parseFunctionCodeOption_of_disabled hallow hcode
            refine ⟨hnot, rfl, ?_⟩
            rintro (hasks | ⟨text, heq, hcustom⟩)
            · rw [hblank] at hasks
              cases hasks
            · exact htext text heq hcustom

end QueueOptionsParser

/-! ### Waiting tasks -/

namespace QueueStateHolder

/-- Every waiting task, in a queue or in a batch, satisfies `P`. -/
structure AllWaiting (P : QueueTask → Prop) (s : QueueStateHolder) : Prop where
  high : ∀ task ∈ s.highPriorityQueue, P task
  normal : ∀ task ∈ s.normalPriorityQueue, P task
  low : ∀ task ∈ s.lowPriorityQueue, P task
  batches : s.AllBatches fun batch => ∀ task ∈ batch.tasks, P task

variable {P : QueueTask → Prop} {s : QueueStateHolder}

theorem AllWaiting.removeTaskFromQueues (h : s.AllWaiting P) (task : QueueTask) :
    (s.removeTaskFromQueues task).2.AllWaiting P := by
  obtain ⟨hhigh, hnormal, hlow, hbatches⟩ := h
  unfold QueueStateHolder.removeTaskFromQueues
  split
  · exact ⟨fun a ha => hhigh a (List.mem_of_mem_eraseP ha), hnormal, hlow, hbatches⟩
  · split
    · exact ⟨hhigh, fun a ha => hnormal a (List.mem_of_mem_eraseP ha), hlow, hbatches⟩
    · split
      · exact ⟨hhigh, hnormal, fun a ha => hlow a (List.mem_of_mem_eraseP ha), hbatches⟩
      · cases hb : s.batchOf task with
        | none => exact ⟨hhigh, hnormal, hlow, hbatches⟩
        | some e =>
          obtain ⟨hget, -⟩ := batchOf_some hb
          have hrest : ∀ a ∈ (withoutTask e.2 task).tasks, P a := fun a ha =>
            hbatches e.1 e.2 hget a (List.mem_of_mem_eraseP ha)
          exact ⟨hhigh, hnormal, hlow, hbatches.putBack e.1 hrest⟩

theorem AllWaiting.cleanupOldTasks (h : s.AllWaiting P) (now : ℕ) :
    (MemoryService.cleanupOldTasks now s).2.AllWaiting P := by
  obtain ⟨hhigh, hnormal, hlow, hbatches⟩ := h
  exact ⟨fun a ha => hhigh a (List.mem_filter.mp ha).1,
    fun a ha => hnormal a (List.mem_filter.mp ha).1, fun a ha => hlow a (List.mem_filter.mp ha).1,
    hbatches.cleanupBatches now s.config.taskTimeoutMs s.batchQueues.entries⟩

theorem AllWaiting.processBatch (h : s.AllWaiting P) (category : String) (active : ℤ)
    (max now : ℕ) :
    AllWaiting P { s with
      batchQueues := (BatchService.processBatch category s.batchQueues active max now).batchQueues } := by
  obtain ⟨hhigh, hnormal, hlow, hbatches⟩ := h
  refine ⟨hhigh, hnormal, hlow, ?_⟩
  unfold BatchService.processBatch
  cases hb : s.batchQueues.get? category with
  | none => exact hbatches.delete category
  | some batch =>
    dsimp only
    split
    · exact hbatches.delete category
    · split
      · exact hbatches
      · exact hbatches.replaceBatch category fun a ha =>
          hbatches category batch hb a (List.mem_of_mem_drop ha)

theorem AllWaiting.addTaskToBatch (h : s.AllWaiting P) {task : QueueTask} (htask : P task)
    (now : ℕ) :
    AllWaiting P { s with batchQueues := (BatchService.addTaskToBatch task now s.batchQueues).1 } := by
  obtain ⟨hhigh, hnormal, hlow, hbatches⟩ := h
  have hfor : ∀ a ∈ (BatchService.batchFor task now s.batchQueues).tasks, P a := by
    unfold BatchService.batchFor
    cases hb : s.batchQueues.get? (task.category.getD "") with
    | none => simp
    | some batch => exact hbatches _ batch hb
  refine ⟨hhigh, hnormal, hlow, hbatches.set _ fun a ha => ?_⟩
  rcases List.mem_append.mp ha with ha | ha
  · exact hfor a ha
  · rw [List.mem_singleton.mp ha]
    exact htask

end QueueStateHolder

/-! ### The pool -/

theorem determineTaskType_of_plain {taskData : WorkerTaskData} (h : taskData.Plain) :
    determineTaskType taskData ≠ .custom := by
  unfold determineTaskType
  cases htype : taskData.type with
  | some type =>
    rintro rfl
    exact h.type htype
  | none =>
    cases htask : taskData.task.workloadType with
    | some type =>
      rintro rfl
      exact h.task.type htask
    | none => simp [h.code, h.task.code, isText]

namespace WorkerTaskRouterService

/-- What is left was pending, and what is picked was pending under the type it is picked for. -/
theorem dequeue_mem (r : WorkerTaskRouterService) (q : List WorkerTaskData) :
    (∀ d ∈ (r.dequeueDispatchableTask q).queue, d ∈ q) ∧
      ∀ d type, (r.dequeueDispatchableTask q).picked = some (d, type) →
        ∃ c ∈ q, d = { c with type := some type.toWorkloadType } ∧
          determineTaskType c = type.toWorkloadType := by
  refine ⟨fun d hd => r.mem_of_mem_dequeue hd, fun d type h => ?_⟩
  obtain ⟨c, hc, htype, hd⟩ := r.picked_eq_some_iff.mp h
  exact ⟨c, ClassQueue.mem_of_taken _ _ hc, hd.symm, toWorkloadType_of_isDispatchableType htype⟩

end WorkerTaskRouterService

namespace WorkerPoolService

/-- The pending tasks are plain, and so are the messages posted to workers, live or terminated,
that have not been answered. -/
structure Plain (s : WorkerPoolService) : Prop where
  pending : ∀ d ∈ s.workerTaskQueue, d.Plain
  live : ∀ i w, s.worker i = some w → ∀ p ∈ w.unanswered, p.message.Plain
  terminated : ∀ w ∈ s.terminated, ∀ p ∈ w.unanswered, p.message.Plain

variable {s : WorkerPoolService}

/-- The pending tasks, the workers and the terminated workers are all that counts. -/
theorem Plain.of_same {t : WorkerPoolService} (h : s.Plain)
    (hqueue : t.workerTaskQueue = s.workerTaskQueue) (hworker : ∀ i, t.worker i = s.worker i)
    (hterminated : t.terminated = s.terminated) : t.Plain :=
  ⟨hqueue ▸ h.pending, fun i w hw => h.live i w (by rw [← hworker]; exact hw), hterminated ▸ h.terminated⟩

/-- A plain task that is picked is posted as a plain message. -/
theorem messageOf_plain (h : s.Plain) {d : WorkerTaskData} {type : DispatchableWorkloadType}
    (hpicked : s.dequeued.picked = some (d, type)) : (messageOf d type).Plain := by
  obtain ⟨c, hc, rfl, htype⟩ := (s.router.dequeue_mem s.workerTaskQueue).2 d type hpicked
  have hplain := h.pending c hc
  refine ⟨?_, by simp [messageOf, hplain.code, hplain.task.code]⟩
  rintro rfl
  exact determineTaskType_of_plain hplain htype

theorem Plain.afterDequeue (h : s.Plain) : s.afterDequeue.Plain :=
  ⟨fun d hd => h.pending d ((s.router.dequeue_mem s.workerTaskQueue).1 d hd), h.live, h.terminated⟩

theorem Plain.dispatchTo (h : s.Plain) (post : PostMessage) (i : ℕ) :
    (s.dispatchTo post i).1.Plain := by
  have hafter := h.afterDequeue
  have hframe := dispatchTo_frame post s i
  obtain ⟨-, hd⟩ | ⟨d, type, hpicked, -, hd⟩ | ⟨d, type, thrown, -, -, hd⟩ :=
    dispatchTo_cases post s i
  · rw [hd]
    exact hafter
  · refine ⟨?_, fun j w hw p hp => ?_, hframe.terminated ▸ h.terminated⟩
    · rw [hd, assignTo_queue]
      exact hafter.pending
    · rw [hd, worker_assignTo] at hw
      split at hw
      · obtain ⟨w', hw', rfl⟩ := Option.map_eq_some_iff.mp hw
        rcases List.mem_append.mp hp with hp | hp
        · exact h.live i w' hw' p hp
        · rw [List.mem_singleton.mp hp]
          exact messageOf_plain h hpicked
      · exact h.live j w hw p hp
  · rw [hd]
    exact hafter.of_same rfl (fun _ => rfl) rfl

theorem Plain.processWorkerTasks (h : s.Plain) (post : PostMessage) :
    (s.processWorkerTasks post).1.Plain :=
  processWorkerTasks_invariant (P := WorkerPoolService.Plain)
    (fun _ i _ h _ _ => h.dispatchTo post i) h

theorem Plain.release (h : s.Plain) (i : ℕ) : (s.release i).Plain := by
  unfold WorkerPoolService.release
  cases s.assigned i with
  | none => exact h.of_same rfl (fun _ => rfl) rfl
  | some taskData => exact h.of_same rfl (fun _ => rfl) rfl

theorem Plain.addTask (h : s.Plain) {taskData : WorkerTaskData} (htask : taskData.Plain) :
    (s.addTask taskData).Plain := by
  refine ⟨fun d hd => ?_, h.live, h.terminated⟩
  rcases List.mem_append.mp hd with hd | hd
  · exact h.pending d hd
  · rw [List.mem_singleton.mp hd]
    exact htask

/-- A worker that sends answers a message, and is posted none. -/
theorem Plain.send (h : s.Plain) {i : ℕ} {result : WorkerMessage} {t : WorkerPoolService}
    {answered : Option Posted} (hsend : s.send i result = some (t, answered)) : t.Plain := by
  have hset : ∀ w w' : Worker, s.worker i = some w → (∀ p ∈ w'.unanswered, p ∈ w.unanswered) →
      (s.setWorker i w').Plain := by
    intro w w' hw hsub
    refine ⟨h.pending, fun j v hv p hp => ?_, h.terminated⟩
    rw [worker_setWorker] at hv
    split at hv
    · cases hv
      exact h.live i w hw p (hsub p hp)
    · exact h.live j v hv p hp
  unfold WorkerPoolService.send at hsend
  split at hsend
  · cases hsend
  · rename_i w hw
    split at hsend
    · split at hsend
      · cases hsend
      · rename_i p rest hrest
        split at hsend
        · cases hsend
        · simp only [Option.some.injEq, Prod.mk.injEq] at hsend
          obtain ⟨rfl, -⟩ := hsend
          exact hset w _ hw fun p hp => hrest ▸ List.mem_cons_of_mem _ hp
    · split at hsend
      · simp only [Option.some.injEq, Prod.mk.injEq] at hsend
        obtain ⟨rfl, -⟩ := hsend
        exact hset w _ hw fun p hp => hp
      · cases hsend

theorem Plain.onMessage (h : s.Plain) (post : PostMessage) (i : ℕ) (result : WorkerMessage) :
    (s.onMessage (some (processorHandleWorkerResult post)) i result).1.Plain := by
  unfold WorkerPoolService.onMessage
  split
  · exact h.of_same rfl (fun _ => rfl) rfl
  · split
    · exact h
    · show (processorHandleWorkerResult post s i result).1.Plain
      rw [processorHandleWorkerResult_fst]
      exact (h.release i).processWorkerTasks post

theorem Plain.createOrReplaceWorker (h : s.Plain) (i : ℕ) : (s.createOrReplaceWorker i).Plain := by
  refine ⟨h.pending, fun j w hw p hp => ?_, h.terminated⟩
  rw [worker_createOrReplaceWorker] at hw
  split at hw
  · cases hw
    cases hp
  · exact h.live j w hw p hp

theorem Plain.terminateWorker (h : s.Plain) (i : ℕ) : (s.terminateWorker i).Plain := by
  refine ⟨h.pending, h.live, fun w hw => ?_⟩
  rcases List.mem_append.mp hw with hw | hw
  · exact h.terminated w hw
  · exact h.live i w (Option.mem_toList.mp hw)

theorem Plain.handleWorkerFailure (h : s.Plain) (post : PostMessage) (i : ℕ) (error : String) :
    (s.handleWorkerFailure (some (processorHandleWorkerResult post)) i error).1.Plain := by
  cases hdown : s.shuttingDown with
  | true => simpa [WorkerPoolService.handleWorkerFailure, hdown] using h
  | false =>
    rw [handleWorkerFailure_fst _ hdown, reportFailure_fst]
    have hreport : (if (s.assigned i).isSome then ((s.release i).processWorkerTasks post).1
        else s).Plain := by
      split
      · exact (h.release i).processWorkerTasks post
      · exact h
    refine (Plain.terminateWorker ?_ i).createOrReplaceWorker i
    exact Plain.of_same hreport rfl (fun _ => rfl) rfl

theorem plain_initWorkerPool (useWorkers : Bool) (router : WorkerTaskRouterService)
    (workerCount : ℕ) :
    (initWorkerPool { useWorkers := useWorkers, router := router } workerCount).Plain := by
  refine initWorkerPool_invariant (P := Plain) (fun _ i h => h.createOrReplaceWorker i) ?_ workerCount
  refine ⟨fun d hd => absurd hd List.not_mem_nil, fun i w hw => ?_,
    fun w hw => absurd hw List.not_mem_nil⟩
  simp [WorkerPoolService.worker] at hw

end WorkerPoolService

/-! ### The queue -/

namespace QueueSystem

/-- What holds in every run where custom workloads are not allowed. -/
structure NoCustom (s : QueueSystem) : Prop where
  disabled : s.parser.allowCustomWorkload = false
  waiting : s.state.AllWaiting QueueTask.Plain
  pool : s.pool.Plain

variable {s u : QueueSystem}

theorem NoCustom.of_same (h : s.NoCustom) (hs : SameTasks s u) (hparser : u.parser = s.parser) :
    u.NoCustom := by
  obtain ⟨hhigh, hnormal, hlow, hbatches⟩ := h.waiting
  refine ⟨hparser ▸ h.disabled, ?_, hs.pool ▸ h.pool⟩
  rw [hs.state]
  exact ⟨hhigh, hnormal, hlow, hbatches⟩

theorem parser_callbacks (calls : List Call) (s : QueueSystem) :
    (calls.foldl callback s).parser = s.parser := by
  induction calls generalizing s with
  | nil => rfl
  | cons c calls ih =>
    rw [List.foldl_cons, ih]
    cases c <;> rfl

theorem parser_onBatchComplete (s : QueueSystem) (processed : ℕ) (activeChange : ℤ) (failed : ℕ) :
    (s.onBatchComplete processed activeChange failed).parser = s.parser := by
  unfold onBatchComplete
  dsimp only
  split
  · split <;> rfl
  · split <;> rfl

theorem parser_rearm (s : QueueSystem) : s.rearm.parser = s.parser := by
  unfold rearm
  split <;> rfl

theorem parser_countSingle (s : QueueSystem) (p : PromiseStep) (stage : Stage) :
    (s.countSingle p stage).parser = s.parser := by
  unfold countSingle
  split <;> rfl

/-- The pool has changed and made calls. -/
theorem NoCustom.afterPool (h : s.NoCustom) {result : WorkerPoolService × List Call}
    (hpool : result.1.Plain) : (s.afterPool result).NoCustom := by
  have hrecorded : ({ s with pool := result.1 }.record result.2).NoCustom :=
    ⟨h.disabled, h.waiting, hpool⟩
  exact hrecorded.of_same (sameTasks_callbacks result.2 _) (parser_callbacks result.2 _)

theorem NoCustom.requestProcessQueue (h : s.NoCustom) : s.requestProcessQueue.NoCustom :=
  h.of_same (sameTasks_requestProcessQueue s) rfl

/-- Tasks taken from the queues are dispatched. -/
theorem NoCustom.drainQueues (h : s.NoCustom) (slots : ℕ) : (s.drainQueues slots).1.NoCustom := by
  obtain ⟨hhigh, hnormal, hlow, hbatches⟩ := h.waiting
  have htaken : ∀ task ∈ (s.take slots).all, task.Plain := by
    intro task htask
    rcases List.mem_append.mp htask with htask | htask
    · rcases List.mem_append.mp htask with htask | htask
      · exact hhigh task (List.mem_of_mem_take htask)
      · exact hnormal task (List.mem_of_mem_take htask)
    · simp only [QueueSystem.take] at htask
      split at htask
      · cases htask
      · exact hlow task (List.mem_of_mem_take htask)
  rw [drainQueues_eq]
  refine ⟨h.disabled, ⟨fun a ha => hhigh a (List.mem_of_mem_drop ha),
    fun a ha => hnormal a (List.mem_of_mem_drop ha), fun a ha => hlow a (List.mem_of_mem_drop ha),
    hbatches⟩, fun d hd => ?_, h.pool.live, h.pool.terminated⟩
  rcases List.mem_append.mp hd with hd | hd
  · exact h.pool.pending d hd
  · obtain ⟨task, htask, rfl⟩ := List.mem_map.mp hd
    have hplain := htaken task (List.mem_filter.mp htask).1
    exact ⟨hplain, hplain.type, hplain.code⟩

theorem NoCustom.processQueue (h : s.NoCustom) (post : PostMessage) :
    (s.processQueue post).NoCustom := by
  refine processQueue_rule (P := NoCustom) h (fun slots _ => h.drainQueues slots)
    (fun t ht => ?_) fun t ht => ?_
  · exact ht.afterPool (ht.pool.processWorkerTasks post)
  · exact ht.of_same (sameTasks_rearm _) (parser_rearm _)

theorem NoCustom.processBatch (h : s.NoCustom) (category : String) (now : ℕ) :
    (s.processBatch category now).NoCustom := by
  have hwaiting := h.waiting.processBatch category s.state.activeRequests
    s.state.config.maxConcurrentRequests now
  obtain ⟨hhigh, hnormal, hlow, hbatches⟩ := hwaiting
  obtain ⟨taken, rfl, ⟨-, hb⟩ | hb⟩ := processBatch_cases s category now
  · rw [hb]
    exact ⟨h.disabled, ⟨hhigh, hnormal, hlow, hbatches⟩, h.pool⟩
  · rw [hb]
    refine NoCustom.of_same ?_ (sameTasks_onBatchComplete _ _ _ _) (parser_onBatchComplete _ _ _ _)
    exact ⟨h.disabled, ⟨hhigh, hnormal, hlow, hbatches⟩, h.pool⟩

theorem NoCustom.processBatches (h : s.NoCustom) (due : TaskBatch → Bool) (now : ℕ)
    (categories : List String) : (QueueSystem.processBatches due now categories s).NoCustom :=
  processBatches_rule (P := NoCustom) (fun _ category h => h.processBatch category now) categories h

theorem NoCustom.checkMemoryUsage (h : s.NoCustom) (usage : MemoryUsage) (now : ℕ) :
    (s.checkMemoryUsage usage now).NoCustom := by
  refine checkMemoryUsage_rule (P := NoCustom) ⟨h.disabled, h.waiting, h.pool⟩ (fun s h => ?_)
    (fun s h => ?_) fun s h => h.requestProcessQueue
  · exact ⟨h.disabled, h.waiting.cleanupOldTasks now, h.pool⟩
  · obtain ⟨hhigh, hnormal, hlow, hbatches⟩ := h.waiting
    refine NoCustom.of_same (NoCustom.processBatches ?_ MemoryService.isHeavy now _)
      (sameTasks_countRejected _ _) rfl
    exact ⟨h.disabled, ⟨hhigh, hnormal, fun a ha => hlow a (List.mem_of_mem_take ha), hbatches⟩, h.pool⟩

/-- A plain task is put in its place. -/
theorem NoCustom.place (h : s.NoCustom) {task : QueueTask} (htask : task.Plain) (batch : Bool)
    (now : ℕ) : (s.place task batch now).NoCustom := by
  obtain ⟨hhigh, hnormal, hlow, hbatches⟩ := h.waiting
  have hpush : ∀ q : List QueueTask, (∀ a ∈ q, a.Plain) → ∀ a ∈ q ++ [task], a.Plain := by
    intro q hq a ha
    rcases List.mem_append.mp ha with ha | ha
    · exact hq a ha
    · rw [List.mem_singleton.mp ha]
      exact htask
  unfold QueueSystem.place
  split
  · exact ⟨h.disabled, h.waiting.addTaskToBatch htask now, h.pool⟩
  · split
    · exact ⟨h.disabled, ⟨hpush _ hhigh, hnormal, hlow, hbatches⟩, h.pool⟩
    · split
      · exact ⟨h.disabled, ⟨hhigh, hpush _ hnormal, hlow, hbatches⟩, h.pool⟩
      · exact ⟨h.disabled, ⟨hhigh, hnormal, hpush _ hlow, hbatches⟩, h.pool⟩

theorem NoCustom.enqueue (h : s.NoCustom) (options : EnqueueOptions) (now : ℕ) :
    (s.enqueue options now).2.NoCustom := by
  have hallow := s.parser.normalizeEnqueueOptions_allow options s.state.config.executionTimeoutMs
  have hparsed : ({ s with parser := (s.parser.normalizeEnqueueOptions options
      s.state.config.executionTimeoutMs).2 } : QueueSystem).NoCustom :=
    ⟨hallow.trans h.disabled, h.waiting, h.pool⟩
  unfold QueueSystem.enqueue
  dsimp only
  split
  · exact hparsed
  · rename_i normalized hnormalized
    obtain ⟨htype, hcode, -⟩ :=
      QueueOptionsParser.normalizeEnqueueOptions_of_disabled h.disabled hnormalized
    split
    · exact ⟨hparsed.disabled, hparsed.waiting, hparsed.pool⟩
    · split
      · exact ⟨hparsed.disabled, hparsed.waiting, hparsed.pool⟩
      · refine NoCustom.requestProcessQueue (NoCustom.place ?_ ⟨htype, hcode⟩ _ now)
        obtain ⟨hhigh, hnormal, hlow, hbatches⟩ := hparsed.waiting
        exact ⟨hparsed.disabled, ⟨hhigh, hnormal, hlow, hbatches⟩, hparsed.pool⟩

/-- **A call that asks for custom code is refused**: it returns an error, and nothing changes but
what the parser has counted. -/
theorem enqueue_of_asksForCustom (h : s.parser.allowCustomWorkload = false)
    {options : EnqueueOptions} (hasks : QueueOptionsParser.AsksForCustom options) (now : ℕ) :
    ∃ message parser, s.enqueue options now = (.error message, { s with parser := parser }) := by
  unfold QueueSystem.enqueue
  dsimp only
  split
  · exact ⟨_, _, rfl⟩
  · rename_i normalized hnormalized
    obtain ⟨-, -, hnot⟩ := QueueOptionsParser.normalizeEnqueueOptions_of_disabled h hnormalized
    exact absurd hasks hnot

/-- **One step** keeps the invariant. -/
theorem NoCustom.step (h : s.NoCustom) {e : QueueEvent} (hu : s.step e = some u) : u.NoCustom := by
  cases takes_of_step hu with
  | enqueue options now => exact h.enqueue options now
  | @processSignal post _ =>
    refine NoCustom.processQueue ?_ post
    exact h.of_same ⟨rfl, rfl, rfl, rfl, rfl, rfl, rfl, rfl, rfl⟩ rfl
  | tasksWait _ => exact h.requestProcessQueue
  | nothingWaits _ => exact h
  | @batchTrigger _ now _ _ =>
    refine NoCustom.processBatch ?_ _ now
    exact ⟨h.disabled, h.waiting, h.pool⟩
  | batchAgingTimer now => exact h.processBatches _ now _
  | memoryCheckTimer usage now => exact h.checkMemoryUsage usage now
  | statsLogTimer => exact ⟨h.disabled, h.waiting, h.pool⟩
  | @queueWaitTimer _ task _ =>
    have hremoved := h.waiting.removeTaskFromQueues task
    unfold onQueueWaitTimeout
    split
    · rename_i state hfound
      dsimp only at hfound
      rw [hfound] at hremoved
      exact ⟨h.disabled, hremoved, h.pool⟩
    · exact ⟨h.disabled, h.waiting, h.pool⟩
  | single hadvances =>
    obtain ⟨r, stage, -, -, rfl⟩ := advanceSingle_cases hadvances
    refine NoCustom.of_same ?_ (sameTasks_countSingle _ _ _) (parser_countSingle _ _ _)
    exact ⟨h.disabled, h.waiting, h.pool⟩
  | member hadvances =>
    obtain ⟨g, r, stage, -, -, -, rfl⟩ := advanceMember_cases hadvances
    exact ⟨h.disabled, h.waiting, h.pool⟩
  | finallySingle hleaves =>
    obtain ⟨r, -, -, rfl⟩ := finallySingle_cases hleaves
    refine NoCustom.of_same ?_ (sameTasks_releaseSlot _) rfl
    exact ⟨h.disabled, h.waiting, h.pool⟩
  | finallyGroup hleaves =>
    obtain ⟨g, -, -, rfl⟩ := finallyGroup_cases hleaves
    refine NoCustom.of_same ?_ (sameTasks_onBatchComplete _ _ _ _) (parser_onBatchComplete _ _ _ _)
    exact ⟨h.disabled, h.waiting, h.pool⟩
  | @workerMessage i result post pool answered hsend =>
    have hpool := h.pool.send hsend
    refine NoCustom.afterPool ?_ (hpool.onMessage post i result)
    exact ⟨h.disabled, h.waiting, hpool⟩
  | @workerFailure i error post _ => exact h.afterPool (h.pool.handleWorkerFailure post i error)

theorem noCustom_initial (config : QueueConfig) (taskIdCounter : ℕ) (stats : QueueStatsService)
    (useWorkers : Bool) (workerCount : ℕ) (cpu memory custom : Option ℕ) :
    (initial config taskIdCounter stats false useWorkers workerCount cpu memory custom).NoCustom := by
  have hnone : ∀ task ∈ ([] : List QueueTask), task.Plain := fun _ h => absurd h List.not_mem_nil
  refine ⟨rfl, ⟨hnone, hnone, hnone, fun category batch hget => ?_⟩,
    WorkerPoolService.plain_initWorkerPool _ _ _⟩
  cases hget

end QueueSystem

end BulkTraffic.Queue
