import BulkTraffic.Queue.WorkerPool

/-!
# What the functions of the worker pool do

One lemma for each function of `WorkerPoolService`, so that no later proof unfolds it.

* The *views* `worker`, `busy` and `assigned` of a slot after each update.
* `Flow`: where tasks go. A pending task stays, is posted or is rejected; a posted task is
  assigned, settled, or forgotten when its slot is assigned another; every settlement is
  reported by one callback.
-/

namespace BulkTraffic.Queue

open BulkTraffic.Lib BulkTraffic.Js

namespace WorkerPoolService

/-! ### Views of a slot -/

section Views

variable (s : WorkerPoolService) (i j : ℕ)

@[simp] theorem busy_setBusy (b : Bool) : (s.setBusy i b).busy j = if i = j then b else s.busy j :=
  JsArray.read_write false s.workerBusy i j b

@[simp] theorem worker_setBusy (b : Bool) : (s.setBusy i b).worker j = s.worker j := rfl

@[simp] theorem assigned_setBusy (b : Bool) : (s.setBusy i b).assigned j = s.assigned j := rfl

@[simp] theorem worker_setWorker (w : Worker) :
    (s.setWorker i w).worker j = if i = j then some w else s.worker j :=
  JsArray.read_write none s.workerPool i j (some w)

@[simp] theorem busy_setWorker (w : Worker) : (s.setWorker i w).busy j = s.busy j := rfl

@[simp] theorem assigned_setWorker (w : Worker) : (s.setWorker i w).assigned j = s.assigned j := rfl

theorem worker_postTo (p : Posted) :
    (s.postTo i p).worker j =
      if i = j then (s.worker i).map fun w => { w with unanswered := w.unanswered ++ [p] }
      else s.worker j := by
  unfold postTo
  cases hw : s.worker i with
  | some w => simp
  | none =>
    by_cases h : i = j
    · simp [← h, hw]
    · simp [h]

@[simp] theorem busy_postTo (p : Posted) : (s.postTo i p).busy j = s.busy j := by
  unfold postTo; split <;> simp

@[simp] theorem postTo_assignedTasks (p : Posted) :
    (s.postTo i p).assignedTasks = s.assignedTasks := by
  unfold postTo; split <;> rfl

@[simp] theorem postTo_queue (p : Posted) : (s.postTo i p).workerTaskQueue = s.workerTaskQueue := by
  unfold postTo; split <;> rfl

@[simp] theorem postTo_router (p : Posted) : (s.postTo i p).router = s.router := by
  unfold postTo; split <;> rfl

@[simp] theorem worker_afterDequeue : s.afterDequeue.worker j = s.worker j := rfl

@[simp] theorem busy_afterDequeue : s.afterDequeue.busy j = s.busy j := rfl

@[simp] theorem assigned_afterDequeue : s.afterDequeue.assigned j = s.assigned j := rfl

@[simp] theorem afterDequeue_assignedTasks : s.afterDequeue.assignedTasks = s.assignedTasks := rfl

theorem worker_assignTo (td : WorkerTaskData) (type : DispatchableWorkloadType) :
    (s.assignTo i td type).worker j =
      if i = j then
        (s.worker i).map fun w => { w with unanswered := w.unanswered ++ [⟨td, messageOf td type⟩] }
      else s.worker j :=
  worker_postTo s i j _

@[simp] theorem busy_assignTo (td : WorkerTaskData) (type : DispatchableWorkloadType) :
    (s.assignTo i td type).busy j = if i = j then true else s.busy j := by
  change ((s.postTo i _).setBusy i true).busy j = _
  simp

@[simp] theorem assigned_assignTo (td : WorkerTaskData) (type : DispatchableWorkloadType) :
    (s.assignTo i td type).assigned j = if i = j then some td else s.assigned j := by
  change ((s.postTo i _).assignedTasks.set i td).get? j = _
  simp [JsMap.get?_set, assigned]

@[simp] theorem assignTo_queue (td : WorkerTaskData) (type : DispatchableWorkloadType) :
    (s.assignTo i td type).workerTaskQueue = s.workerTaskQueue :=
  postTo_queue s i _

@[simp] theorem assignTo_assignedTasks (td : WorkerTaskData) (type : DispatchableWorkloadType) :
    (s.assignTo i td type).assignedTasks = s.assignedTasks.set i td := by
  change (s.postTo i _).assignedTasks.set i td = _
  rw [postTo_assignedTasks]

@[simp] theorem assignTo_router (td : WorkerTaskData) (type : DispatchableWorkloadType) :
    (s.assignTo i td type).router = s.router.incrementActiveByType type := by
  change (s.postTo i _).router.incrementActiveByType type = _
  rw [postTo_router]

@[simp] theorem worker_unassign : (s.unassign i).worker j = s.worker j := rfl

@[simp] theorem busy_unassign : (s.unassign i).busy j = if i = j then false else s.busy j :=
  busy_setBusy s i j false

@[simp] theorem assigned_unassign :
    (s.unassign i).assigned j = if i = j then none else s.assigned j :=
  s.assignedTasks.get?_delete i j

@[simp] theorem unassign_queue : (s.unassign i).workerTaskQueue = s.workerTaskQueue := rfl

@[simp] theorem unassign_assignedTasks :
    (s.unassign i).assignedTasks = s.assignedTasks.delete i := rfl

@[simp] theorem unassign_router : (s.unassign i).router = s.router := rfl

end Views

/-- Everything in the pool a pass does not touch. -/
structure SameFrame (s s' : WorkerPoolService) : Prop where
  useWorkers : s'.useWorkers = s.useWorkers
  shuttingDown : s'.shuttingDown = s.shuttingDown
  terminated : s'.terminated = s.terminated
  limits : s'.router.limits = s.router.limits

theorem SameFrame.refl (s : WorkerPoolService) : SameFrame s s := ⟨rfl, rfl, rfl, rfl⟩

theorem SameFrame.trans {s t u : WorkerPoolService} (h : SameFrame s t) (h' : SameFrame t u) :
    SameFrame s u :=
  ⟨h'.useWorkers.trans h.useWorkers, h'.shuttingDown.trans h.shuttingDown,
    h'.terminated.trans h.terminated, h'.limits.trans h.limits⟩

/-! ### Where tasks go -/

/-- What every function of the pool obeys, from `s` to `s'` with the calls it makes. -/
structure Flow (s s' : WorkerPoolService) (calls : List Call) : Prop where
  /-- A pending task stays, is posted, or is rejected. -/
  pending : ∀ x, weight (isTaskData x) s'.workerTaskQueue + weight (Call.posted x) calls +
    weight (Call.settledWaiting x) calls = weight (isTaskData x) s.workerTaskQueue
  /-- What is assigned afterwards was assigned or posted, and was not settled. -/
  assigned : ∀ x, s'.assignedTasks.weightOf (isTaskData x) + weight (Call.settledByWorker x) calls ≤
    s.assignedTasks.weightOf (isTaskData x) + weight (Call.posted x) calls
  /-- The pool runs nothing on the main thread. -/
  main : ∀ x, weight (Call.settledByMain x) calls + weight (Call.dispatched x) calls +
    weight (Call.executed x) calls = 0
  /-- Each success is reported once. -/
  success : weight Call.resolves calls = weight Call.reportsSuccess calls
  /-- Each failure is reported once. -/
  failure : weight Call.refuses calls = weight Call.reportsFailure calls
  /-- The pool rejects no task for its waiting too long. -/
  timeout : weight Call.timesOut calls = 0

theorem Flow.refl (s : WorkerPoolService) : Flow s s [] := by
  constructor <;> simp

theorem Flow.trans {s t u : WorkerPoolService} {c c' : List Call} (h : Flow s t c) (h' : Flow t u c') :
    Flow s u (c ++ c') := by
  constructor
  · intro x
    have h₁ := h.pending x
    have h₂ := h'.pending x
    simp only [weight_append]
    omega
  · intro x
    have h₁ := h.assigned x
    have h₂ := h'.assigned x
    simp only [weight_append]
    omega
  · intro x
    have h₁ := h.main x
    have h₂ := h'.main x
    simp only [weight_append]
    omega
  · simp only [weight_append, h.success, h'.success]
  · simp only [weight_append, h.failure, h'.failure]
  · simp only [weight_append, h.timeout, h'.timeout]

/-- `Flow` looks only at the pending and the assigned tasks. -/
theorem Flow.congr {s s' t : WorkerPoolService} {c : List Call} (h : Flow s s' c)
    (hq : t.workerTaskQueue = s'.workerTaskQueue) (ha : t.assignedTasks = s'.assignedTasks) :
    Flow s t c :=
  ⟨fun x => by rw [hq]; exact h.pending x, fun x => by rw [ha]; exact h.assigned x, h.main,
    h.success, h.failure, h.timeout⟩

theorem Flow.congr_left {s s' t : WorkerPoolService} {c : List Call} (h : Flow s s' c)
    (hq : t.workerTaskQueue = s.workerTaskQueue) (ha : t.assignedTasks = s.assignedTasks) :
    Flow t s' c :=
  ⟨fun x => by rw [hq]; exact h.pending x, fun x => by rw [ha]; exact h.assigned x, h.main,
    h.success, h.failure, h.timeout⟩

/-- A weight that unknown-type rejections and their reports do not have. -/
theorem weight_dequeued_calls (s : WorkerPoolService) {w : Call → ℕ}
    (hr : ∀ t, w (.reject t .unknownWorkload
      (.error WorkerTaskRouterService.unknownWorkloadMessage)) = 0)
    (hf : ∀ t, w (.onTaskFailed t) = 0) : weight w s.dequeued.calls = 0 := by
  refine weight_eq_zero w fun c hc => ?_
  obtain ⟨d, -, rfl | rfl⟩ := s.router.mem_dequeue_calls hc
  · exact hr d.task
  · exact hf d.task

/-- Each task dropped while picking is rejected once and reported once. -/
theorem dequeue_reports (r : WorkerTaskRouterService) (q : List WorkerTaskData) :
    weight Call.refuses (r.dequeueDispatchableTask q).calls =
      weight Call.reportsFailure (r.dequeueDispatchableTask q).calls := by
  rw [WorkerTaskRouterService.dequeueDispatchableTask_eq, weight_flatMap, weight_flatMap]
  rfl

/-- The three ends of `dispatchTo`: nothing to take; a task taken and posted; a task taken
whose message could not be posted. -/
theorem dispatchTo_cases (post : PostMessage) (s : WorkerPoolService) (i : ℕ) :
    (s.dequeued.picked = none ∧ s.dispatchTo post i = (s.afterDequeue, s.dequeued.calls)) ∨
    (∃ td type, s.dequeued.picked = some (td, type) ∧ post td = none ∧
      s.dispatchTo post i =
        (s.afterDequeue.assignTo i td type, s.dequeued.calls ++ [.post i td.task])) ∨
    (∃ td type thrown, s.dequeued.picked = some (td, type) ∧ post td = some thrown ∧
      s.dispatchTo post i =
        (s.afterDequeue.unassign i,
          s.dequeued.calls ++ [.reject td.task .postFailed (.error (postFailedMessage thrown)),
            .onTaskFailed td.task])) := by
  unfold dispatchTo
  cases h : s.dequeued.picked with
  | none => exact .inl ⟨rfl, rfl⟩
  | some p =>
    obtain ⟨td, type⟩ := p
    cases hp : post td with
    | none => exact .inr (.inl ⟨td, type, rfl, hp, by simp only [hp]⟩)
    | some thrown => exact .inr (.inr ⟨td, type, thrown, rfl, hp, by simp only [hp]⟩)

/-- Picking, as a flow that has not yet placed the task picked. -/
theorem dequeued_flow (s : WorkerPoolService) :
    (∀ x, weight (isTaskData x) s.afterDequeue.workerTaskQueue +
      weight (Call.settledWaiting x) s.dequeued.calls +
      s.dequeued.picked.elim 0 (fun p => isTask x p.1.task) =
        weight (isTaskData x) s.workerTaskQueue) ∧
    (∀ x, weight (Call.posted x) s.dequeued.calls = 0) ∧
    (∀ x, weight (Call.settledByWorker x) s.dequeued.calls = 0) ∧
    (∀ x, weight (Call.settledByMain x) s.dequeued.calls = 0) ∧
    (∀ x, weight (Call.dispatched x) s.dequeued.calls = 0) ∧
    (∀ x, weight (Call.executed x) s.dequeued.calls = 0) ∧
    weight Call.resolves s.dequeued.calls = 0 ∧
    weight Call.reportsSuccess s.dequeued.calls = 0 ∧
    weight Call.refuses s.dequeued.calls = weight Call.reportsFailure s.dequeued.calls ∧
    weight Call.timesOut s.dequeued.calls = 0 :=
  ⟨fun x => s.router.dequeue_tally x s.workerTaskQueue,
    fun _ => s.weight_dequeued_calls (fun _ => rfl) (fun _ => rfl),
    fun _ => s.weight_dequeued_calls (fun _ => rfl) (fun _ => rfl),
    fun _ => s.weight_dequeued_calls (fun _ => rfl) (fun _ => rfl),
    fun _ => s.weight_dequeued_calls (fun _ => rfl) (fun _ => rfl),
    fun _ => s.weight_dequeued_calls (fun _ => rfl) (fun _ => rfl),
    s.weight_dequeued_calls (fun _ => rfl) (fun _ => rfl),
    s.weight_dequeued_calls (fun _ => rfl) (fun _ => rfl),
    dequeue_reports s.router s.workerTaskQueue,
    s.weight_dequeued_calls (fun _ => rfl) (fun _ => rfl)⟩

theorem dispatchTo_flow (post : PostMessage) (s : WorkerPoolService) (i : ℕ) :
    Flow s (s.dispatchTo post i).1 (s.dispatchTo post i).2 := by
  obtain ⟨htally, hpost, hwork, hmain, hdisp, hexec, hres, hsucc, hfail, htime⟩ := s.dequeued_flow
  obtain ⟨hp, hd⟩ | ⟨td, type, hp, -, hd⟩ | ⟨td, type, thrown, hp, -, hd⟩ := dispatchTo_cases post s i
  · simp only [hp, Option.elim_none] at htally
    rw [hd]
    constructor
    · intro x; have := htally x; simp only [hpost x]; omega
    · intro x; simp [hpost x, hwork x]
    · intro x; simp only [hmain x, hdisp x, hexec x]
    · simp only [hres, hsucc]
    · exact hfail
    · exact htime
  · simp only [hp, Option.elim_some] at htally
    rw [hd]
    constructor
    · intro x; have := htally x; simp [hpost x]; omega
    · intro x
      have := s.assignedTasks.weightOf_set (isTaskData x) i td
      simp [hpost x, hwork x] at this ⊢
      omega
    · intro x; simp [hmain x, hdisp x, hexec x]
    · simp [hres, hsucc]
    · simpa [Settler.countsTimeout] using hfail
    · simp [htime]
  · simp only [hp, Option.elim_some] at htally
    rw [hd]
    constructor
    · intro x; have := htally x; simp [hpost x, Settler.whileWaiting]; omega
    · intro x
      have := s.assignedTasks.weightOf_delete (isTaskData x) i
      simp [hpost x, hwork x] at this ⊢
      omega
    · intro x; simp [hmain x, hdisp x, hexec x]
    · simp [hres, hsucc]
    · simpa [Settler.countsTimeout] using hfail
    · simp [htime, Settler.countsTimeout]

/-- **The pass rule for relations**: a relation that composes and that every dispatch obeys is obeyed
by a pass. -/
theorem processWorkerTasks_of_dispatch {R : WorkerPoolService → WorkerPoolService → List Call → Prop}
    (hrefl : ∀ s, R s s []) (htrans : ∀ {s t u c c'}, R s t c → R t u c' → R s u (c ++ c'))
    {post : PostMessage} (hdispatch : ∀ s i, R s (s.dispatchTo post i).1 (s.dispatchTo post i).2)
    (s : WorkerPoolService) : R s (s.processWorkerTasks post).1 (s.processWorkerTasks post).2 := by
  have hslots : ∀ is (s : WorkerPoolService),
      R s (processSlots post is s).1 (processSlots post is s).2 := by
    intro is
    induction is with
    | nil => exact hrefl
    | cons i is ih =>
      intro s
      simp only [processSlots]
      split
      · exact ih s
      · split
        · exact hrefl s
        · exact htrans (hdispatch s i) (ih _)
  rw [processWorkerTasks]
  split
  · exact hrefl s
  · exact hslots _ s

/-- The state after `handleWorkerResult`: the slot is free, and its task's type has one
active task less. -/
def release (s : WorkerPoolService) (workerId : ℕ) : WorkerPoolService :=
  let freed := { s with assignedTasks := s.assignedTasks.delete workerId }.setBusy workerId false
  match s.assigned workerId with
  | none => freed
  | some taskData =>
    { freed with router := s.router.decrementActiveByType (determineTaskType taskData) }

theorem handleWorkerResult_fst (s : WorkerPoolService) (i : ℕ) (result : WorkerMessage) :
    (s.handleWorkerResult i result).1 = s.release i := by
  unfold handleWorkerResult release
  cases s.assigned i with
  | none => rfl
  | some td => cases result.success <;> rfl

theorem handleWorkerResult_calls_of_none {s : WorkerPoolService} {i : ℕ} (h : s.assigned i = none)
    (result : WorkerMessage) : (s.handleWorkerResult i result).2 = [] := by
  simp [handleWorkerResult, h]

theorem handleWorkerResult_calls_of_some {s : WorkerPoolService} {i : ℕ} {td : WorkerTaskData}
    (h : s.assigned i = some td) (result : WorkerMessage) :
    (s.handleWorkerResult i result).2 =
      if result.success then [.resolve td.task .worker result.result, .onSuccess td.task]
      else [.reject td.task .worker (.error (resultFailedMessage result)), .onFailed td.task] := by
  simp only [handleWorkerResult, h]
  cases result.success <;> rfl

/-- What a release leaves alone. -/
theorem release_frame (s : WorkerPoolService) (i : ℕ) : SameFrame s (s.release i) := by
  unfold release
  cases s.assigned i with
  | none => exact ⟨rfl, rfl, rfl, rfl⟩
  | some td => exact ⟨rfl, rfl, rfl, by simp⟩

@[simp] theorem release_queue (s : WorkerPoolService) (i : ℕ) :
    (s.release i).workerTaskQueue = s.workerTaskQueue := by
  unfold release; cases s.assigned i <;> rfl

theorem release_router_of_none {s : WorkerPoolService} {i : ℕ} (h : s.assigned i = none) :
    (s.release i).router = s.router := by
  simp only [release, h]
  rfl

@[simp] theorem release_assignedTasks (s : WorkerPoolService) (i : ℕ) :
    (s.release i).assignedTasks = s.assignedTasks.delete i := by
  unfold release; cases s.assigned i <;> rfl

@[simp] theorem release_workerPool (s : WorkerPoolService) (i : ℕ) :
    (s.release i).workerPool = s.workerPool := by
  unfold release; cases s.assigned i <;> rfl

@[simp] theorem release_worker (s : WorkerPoolService) (i j : ℕ) :
    (s.release i).worker j = s.worker j := by
  simp [worker]

@[simp] theorem release_busy (s : WorkerPoolService) (i j : ℕ) :
    (s.release i).busy j = if i = j then false else s.busy j := by
  rw [← busy_setBusy]
  unfold release; cases s.assigned i <;> rfl

@[simp] theorem release_assigned (s : WorkerPoolService) (i j : ℕ) :
    (s.release i).assigned j = if i = j then none else s.assigned j := by
  simp [assigned, JsMap.get?_delete]

/-- Slots and workers are released independently. -/
theorem release_setWorker (s : WorkerPoolService) (i j : ℕ) (w : Worker) :
    (s.setWorker j w).release i = (s.release i).setWorker j w := by
  have ha : (s.setWorker j w).assigned i = s.assigned i := rfl
  unfold release
  rw [ha]
  cases s.assigned i <;> rfl

theorem handleWorkerResult_flow (s : WorkerPoolService) (i : ℕ) (result : WorkerMessage) :
    Flow s (s.handleWorkerResult i result).1 (s.handleWorkerResult i result).2 := by
  rw [handleWorkerResult_fst]
  cases h : s.assigned i with
  | none =>
    rw [handleWorkerResult_calls_of_none h]
    exact (Flow.refl s).congr (by simp) (by simp [JsMap.delete_of_none h])
  | some td =>
    have hdel := fun x => s.assignedTasks.weightOf_delete_of_some (isTaskData x) h
    rw [handleWorkerResult_calls_of_some h]
    split
    · constructor
      · intro x; simp
      · intro x; have := hdel x; simp at this ⊢; omega
      · simp
      · simp
      · simp
      · simp
    · constructor
      · intro x; simp [Settler.whileWaiting]
      · intro x; have := hdel x; simp at this ⊢; omega
      · simp
      · simp
      · simp [Settler.countsTimeout]
      · simp [Settler.countsTimeout]

/-! ### Relations every function of the pool obeys -/

/-- A relation between the pool before and after, with the calls made, that composes and that the
parts of the functions of the pool obey. -/
structure Obeyed (R : WorkerPoolService → WorkerPoolService → List Call → Prop) : Prop where
  /-- What makes no calls and moves no task. -/
  same : ∀ {s t}, t.workerTaskQueue = s.workerTaskQueue → t.assignedTasks = s.assignedTasks → R s t []
  trans : ∀ {s t u c c'}, R s t c → R t u c' → R s u (c ++ c')
  dispatch : ∀ post s i, R s (s.dispatchTo post i).1 (s.dispatchTo post i).2
  result : ∀ s i result, R s (s.handleWorkerResult i result).1 (s.handleWorkerResult i result).2

section Obeyed

variable {R : WorkerPoolService → WorkerPoolService → List Call → Prop} (hR : Obeyed R)
  (post : PostMessage) (s : WorkerPoolService) (i : ℕ)

include hR

theorem Obeyed.congr {s t u : WorkerPoolService} {c : List Call} (h : R s t c)
    (hq : u.workerTaskQueue = t.workerTaskQueue) (ha : u.assignedTasks = t.assignedTasks) : R s u c := by
  have hsame := hR.trans h (hR.same hq ha)
  rwa [List.append_nil] at hsame

theorem Obeyed.congr_left {s t u : WorkerPoolService} {c : List Call} (h : R s u c)
    (hq : s.workerTaskQueue = t.workerTaskQueue) (ha : s.assignedTasks = t.assignedTasks) : R t u c :=
  hR.trans (hR.same hq ha) h

theorem Obeyed.processWorkerTasks : R s (s.processWorkerTasks post).1 (s.processWorkerTasks post).2 :=
  processWorkerTasks_of_dispatch (fun _ => hR.same rfl rfl) hR.trans (hR.dispatch post) s

theorem Obeyed.processorHandleWorkerResult (result : WorkerMessage) :
    R s (Queue.processorHandleWorkerResult post s i result).1 (Queue.processorHandleWorkerResult post s i result).2 :=
  hR.trans (hR.result s i result) (hR.processWorkerTasks post _)

/-- The report of a failure to `QueueProcessorService.handleWorkerResult`, and the new worker. -/
theorem Obeyed.handleWorkerFailure (error : String) :
    R s (s.handleWorkerFailure (some (Queue.processorHandleWorkerResult post)) i error).1
      (s.handleWorkerFailure (some (Queue.processorHandleWorkerResult post)) i error).2 := by
  have hreport : R s (s.reportFailure (some (Queue.processorHandleWorkerResult post)) i error).1
      (s.reportFailure (some (Queue.processorHandleWorkerResult post)) i error).2 := by
    rw [reportFailure]
    cases s.assigned i with
    | none => exact hR.same rfl rfl
    | some td => exact hR.processorHandleWorkerResult post s i _
  rw [WorkerPoolService.handleWorkerFailure]
  split
  · exact hR.same rfl rfl
  · exact hR.congr hreport rfl rfl

theorem Obeyed.onMessage (result : WorkerMessage) :
    R s (s.onMessage (some (Queue.processorHandleWorkerResult post)) i result).1
      (s.onMessage (some (Queue.processorHandleWorkerResult post)) i result).2 := by
  rw [WorkerPoolService.onMessage]
  split
  · exact hR.same rfl rfl
  · split
    · exact hR.same rfl rfl
    · exact hR.processorHandleWorkerResult post s i result

end Obeyed

theorem flow_obeyed : Obeyed Flow where
  same hq ha := (Flow.refl _).congr hq ha
  trans := Flow.trans
  dispatch := dispatchTo_flow
  result := handleWorkerResult_flow

theorem processWorkerTasks_flow (post : PostMessage) (s : WorkerPoolService) :
    Flow s (s.processWorkerTasks post).1 (s.processWorkerTasks post).2 :=
  flow_obeyed.processWorkerTasks post s

theorem processorHandleWorkerResult_flow (post : PostMessage) (s : WorkerPoolService) (i : ℕ)
    (result : WorkerMessage) :
    Flow s (processorHandleWorkerResult post s i result).1
      (processorHandleWorkerResult post s i result).2 :=
  flow_obeyed.processorHandleWorkerResult post s i result

theorem handleWorkerFailure_flow (post : PostMessage) (s : WorkerPoolService) (i : ℕ)
    (error : String) :
    Flow s (s.handleWorkerFailure (some (processorHandleWorkerResult post)) i error).1
      (s.handleWorkerFailure (some (processorHandleWorkerResult post)) i error).2 :=
  flow_obeyed.handleWorkerFailure post s i error

/-- What a worker can send: `initialized`, or an answer to its oldest message. -/
theorem send_cases {s u : WorkerPoolService} {i : ℕ} {result : WorkerMessage} {answered : Option Posted}
    (h : s.send i result = some (u, answered)) :
    ∃ w, s.worker i = some w ∧
      ((w.initialized = false ∧ result.initialized = true ∧ answered = none ∧
          u = s.setWorker i { w with initialized := true }) ∨
        (∃ p rest, w.initialized = true ∧ w.unanswered = p :: rest ∧ result.initialized = false ∧
          result.healthCheck = false ∧ answered = some p ∧
          u = s.setWorker i { w with unanswered := rest })) := by
  unfold send at h
  split at h
  · cases h
  · rename_i w hw
    refine ⟨w, hw, ?_⟩
    split at h
    · rename_i hinit
      split at h
      · cases h
      · rename_i p rest hp
        split at h
        · cases h
        · rename_i hr
          simp only [Bool.or_eq_true, not_or, Bool.not_eq_true] at hr
          simp only [Option.some.injEq, Prod.mk.injEq] at h
          exact .inr ⟨p, rest, hinit, hp, hr.1, hr.2, h.2.symm, h.1.symm⟩
    · rename_i hinit
      split at h
      · rename_i hr
        simp only [Option.some.injEq, Prod.mk.injEq] at h
        exact .inl ⟨by simpa using hinit, hr, h.2.symm, h.1.symm⟩
      · cases h

theorem onMessage_of_initialized {s : WorkerPoolService} {i : ℕ} {result : WorkerMessage}
    {onResult : Option OnResult} (h : result.initialized = true) :
    s.onMessage onResult i result = (s.setBusy i false, []) := by
  simp [onMessage, h]

theorem onMessage_of_answer {s : WorkerPoolService} {i : ℕ} {result : WorkerMessage}
    {onResult : OnResult} (h : result.initialized = false) (h' : result.healthCheck = false) :
    s.onMessage (some onResult) i result = onResult s i result := by
  simp [onMessage, h, h']

theorem onMessage_flow (post : PostMessage) (s : WorkerPoolService) (i : ℕ)
    (result : WorkerMessage) :
    Flow s (s.onMessage (some (processorHandleWorkerResult post)) i result).1
      (s.onMessage (some (processorHandleWorkerResult post)) i result).2 :=
  flow_obeyed.onMessage post s i result

end WorkerPoolService

end BulkTraffic.Queue
