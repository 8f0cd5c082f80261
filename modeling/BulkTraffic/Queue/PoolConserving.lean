import BulkTraffic.Queue.PoolAccounting

/-!
# Idle workers and pending tasks

A pass offers the pending tasks to the idle workers, slot by slot. It starts when a tick has added
tasks, when a worker has answered, and when a failure is reported. What it should leave behind is
no idle worker next to a task that could be given to it (`WorkConserving`).

Two things break this. A task whose message cannot be posted uses up the turn of its worker:
`dequeueDispatchableTask` offers the same worker the next task when it drops one of an unknown
type, the `catch` block of `processWorkerTasks` goes on to the next slot. And the pass of a
failure's report is over when the failed worker is replaced, so nothing is offered to the new
worker; where the failed worker had no task there is no pass at all.

* `workConserving_iff`: exactly when an event leaves the pool work-conserving. `leavesWork` tells
  it from the state before the event: by how many tasks are due and how many workers get a turn,
  and by whether the tasks for these can be posted.
-/

namespace BulkTraffic.Queue

open BulkTraffic.Lib BulkTraffic.Js

namespace WorkerTaskRouterService

/-- The task is of a type whose limit is not reached. -/
def Dispatchable (r : WorkerTaskRouterService) (taskData : WorkerTaskData) : Prop :=
  ∃ type, isDispatchableType (determineTaskType taskData) = some type ∧
    r.activeByType type < r.limits type

variable (r : WorkerTaskRouterService)

theorem ready_iff_dispatchable (td : WorkerTaskData) :
    ClassQueue.ready dispatchableType r.canDispatchType td = true ↔ r.Dispatchable td := by
  rw [ClassQueue.ready_iff]
  simp only [canDispatchType, decide_eq_true_eq]
  exact Iff.rfl

/-- A task is picked where one can be dispatched. -/
theorem isSome_picked_iff (q : List WorkerTaskData) :
    (r.dequeueDispatchableTask q).picked.isSome = true ↔ ∃ td ∈ q, r.Dispatchable td := by
  have htaken := ClassQueue.isSome_taken_iff dispatchableType r.canDispatchType q
  simp only [ready_iff_dispatchable] at htaken
  rw [← htaken, Option.isSome_iff_ne_none, Option.isSome_iff_ne_none, ne_eq, picked_eq_none_iff]

end WorkerTaskRouterService

namespace WorkerPoolService

/-- No live worker is idle while a task is pending whose type is below its limit. -/
def WorkConserving (s : WorkerPoolService) : Prop :=
  ∀ i, s.idle i = true → ∀ td ∈ s.workerTaskQueue, ¬ s.router.Dispatchable td

/-- More tasks are due than workers are idle, and one that is due for them cannot be posted: the
worker it is for is left idle, and a task for it. -/
def leavesWork (post : PostMessage) (s : WorkerPoolService) : Bool :=
  decide (s.idleSlots.length < (s.due post).length) &&
    ((s.due post).take s.idleSlots.length).any fun td => !postable post td

/-! ### What a pass leaves -/

variable {post : PostMessage} {s : WorkerPoolService}

/-- A pending task can be dispatched. -/
def HasWork (s : WorkerPoolService) : Prop := ∃ td ∈ s.workerTaskQueue, s.router.Dispatchable td

theorem hasWork_iff (post : PostMessage) (s : WorkerPoolService) :
    s.HasWork ↔ 0 < (s.due post).length := by
  rw [List.length_pos_iff, ne_eq, due, ClassQueue.due_eq_nil_iff, WorkerTaskRouterService.hasPlace_places,
    ← WorkerTaskRouterService.picked_eq_none_iff, ← ne_eq, ← Option.isSome_iff_ne_none,
    WorkerTaskRouterService.isSome_picked_iff]
  exact Iff.rfl

theorem workConserving_iff_not (s : WorkerPoolService) :
    s.WorkConserving ↔ ¬ (s.HasWork ∧ ∃ j, s.idle j = true) := by
  constructor
  · rintro h ⟨⟨td, hmem, hd⟩, j, hj⟩
    exact h j hj td hmem hd
  · intro h j hj td hmem hd
    exact h ⟨⟨td, hmem, hd⟩, j, hj⟩

/-- Of the tasks that are due, one for an idle worker cannot be posted. -/
theorem exists_unpostable_iff {n : ℕ} {q : List WorkerTaskData} (h : n < q.length) :
    (∃ k < n, q[k]?.any (postable post) = false) ↔
      (q.take n).any (fun td => !postable post td) = true := by
  rw [List.any_eq_true]
  constructor
  · rintro ⟨k, hk, hpost⟩
    have hlt : k < q.length := hk.trans h
    rw [List.getElem?_eq_getElem hlt, Option.any_some] at hpost
    exact ⟨q[k], List.mem_take_iff_getElem.mpr ⟨k, by omega, rfl⟩, by simp [hpost]⟩
  · rintro ⟨td, hmem, hpost⟩
    obtain ⟨k, hk, rfl⟩ := List.mem_take_iff_getElem.mp hmem
    have hlt : k < q.length := by omega
    refine ⟨k, by omega, ?_⟩
    rw [List.getElem?_eq_getElem hlt, Option.any_some]
    simpa using hpost

/-- **What a pass leaves**: work where more tasks are due than workers are idle, and a worker idle
next to it where one of the tasks for these cannot be posted. -/
theorem processWorkerTasks_leavesWork (post : PostMessage) {s : WorkerPoolService}
    (huse : s.useWorkers = true) :
    ((s.processWorkerTasks post).1.WorkConserving ↔ s.leavesWork post = false) ∧
      ((s.processWorkerTasks post).1.HasWork ↔ s.idleSlots.length < (s.due post).length) := by
  unfold processWorkerTasks
  split
  · rename_i hc
    have hnil : s.workerTaskQueue = [] := by simpa [huse] using hc
    have hdue : s.due post = [] := due_of_empty hnil
    simp [WorkConserving, HasWork, leavesWork, hnil, hdue]
  · have hnodup := List.nodup_range (n := s.workerPool.length)
    have hwork : (processSlots post (List.range s.workerPool.length) s).1.HasWork ↔
        s.idleSlots.length < (s.due post).length := by
      rw [hasWork_iff post, due_processSlots hnodup, List.length_drop, ← idleSlots]
      omega
    have hrange : (∃ j, (processSlots post (List.range s.workerPool.length) s).1.idle j = true) ↔
        ∃ j ∈ List.range s.workerPool.length,
          (processSlots post (List.range s.workerPool.length) s).1.idle j = true := by
      constructor
      · rintro ⟨j, hj⟩
        by_cases hmem : j ∈ List.range s.workerPool.length
        · exact ⟨j, hmem, hj⟩
        · rw [idle_processSlots hmem] at hj
          exact absurd (List.mem_range.mpr (lt_length_of_idle hj)) hmem
      · rintro ⟨j, -, hj⟩
        exact ⟨j, hj⟩
    refine ⟨?_, hwork⟩
    rw [workConserving_iff_not, hrange, idle_left_iff hnodup, ← idleSlots, hwork, ← Bool.not_eq_true,
      leavesWork, Bool.and_eq_true, decide_eq_true_eq, not_iff_not]
    exact and_congr_right exists_unpostable_iff

/-- It looks at the idle slots, the router and the pending tasks. -/
theorem leavesWork_congr {t : WorkerPoolService} (hidle : t.idleSlots = s.idleSlots)
    (hrouter : t.router = s.router) (hqueue : t.workerTaskQueue = s.workerTaskQueue) :
    t.leavesWork post = s.leavesWork post := by
  rw [leavesWork, leavesWork, due, due, hidle, hrouter, hqueue]

/-- A worker that goes on is as idle as before. -/
theorem idleSlots_setWorker {i : ℕ} {w : Worker} (h : s.worker i = some w) (w' : Worker) :
    (s.setWorker i w').idleSlots = s.idleSlots := by
  have hlt : i < s.workerPool.length := lt_length_of_worker (by rw [h]; rfl)
  have hlength : (s.setWorker i w').workerPool.length = s.workerPool.length :=
    JsArray.length_write none hlt _
  unfold idleSlots
  rw [hlength]
  refine List.filter_congr fun j _ => ?_
  by_cases hij : i = j
  · subst hij
    simp [idle, h]
  · simp [idle, hij]

/-- The worker of slot `i` is idle in the end. -/
theorem workConserving_replaced (s : WorkerPoolService) (i : ℕ) :
    (((s.setBusy i false).terminateWorker i).createOrReplaceWorker i).WorkConserving ↔ ¬ s.HasWork := by
  have hidle : (((s.setBusy i false).terminateWorker i).createOrReplaceWorker i).idle i = true := by
    simp [idle]
  rw [workConserving_iff_not]
  constructor
  · intro h hwork
    exact h ⟨hwork, i, hidle⟩
  · rintro h ⟨hwork, -⟩
    exact h hwork

end WorkerPoolService

/-- The top-level events of the pool. -/
inductive TopEvent where
  /-- A tick of `processQueue` that adds worker tasks. -/
  | tick (tasks : List WorkerTaskData) (post : PostMessage)
  /-- The worker of a slot sends a message. -/
  | message (i : ℕ) (result : WorkerMessage) (post : PostMessage)
  /-- The worker of a slot fails. -/
  | failure (i : ℕ) (error : String) (post : PostMessage)

/-- A tick that added tasks, a worker's result or a worker's failure; not the message with which a
worker starts. -/
def TopEvent.dispatches : TopEvent → Bool
  | .message _ result _ => !result.initialized
  | _ => true

namespace PoolRun

open WorkerPoolService

/-- The tasks are added in turn. -/
def addTasks (s : PoolRun) : List WorkerTaskData → Option PoolRun
  | [] => some s
  | td :: tasks => (s.step (.addTask td)).bind fun s => s.addTasks tasks

/-- One top-level event, handled to its end. -/
def topStep (s : PoolRun) : TopEvent → Option PoolRun
  | .tick tasks post =>
    if tasks.isEmpty then none
    else (s.addTasks tasks).bind fun s => s.step (.processWorkerTasks post)
  | .message i result post => s.step (.message i result post)
  | .failure i error post =>
    if (s.pool.worker i).isSome then s.step (.failure i error post) else none

/-- More tasks are due than the event gives turns, and a worker is left over for them. A tick and a
result give the idle workers a turn, the worker that answered among them, and one is left over where
the message of its task cannot be posted. The failure of a worker that had a task gives them one
too, and the worker that replaces the failed one is left over; the failure of a worker without a
task gives no turn. -/
def leavesWork (s : PoolRun) : TopEvent → Bool
  | .tick tasks post =>
    { s.pool with workerTaskQueue := s.pool.workerTaskQueue ++ tasks }.leavesWork post
  | .message i _ post => (s.pool.release i).leavesWork post
  | .failure i _ post =>
    let released := s.pool.release i
    let turns := if (s.pool.assigned i).isSome then released.idleSlots.length else 0
    decide (turns < (released.due post).length)

/-- Adding tasks appends them to the pending ones. -/
structure Adds (s t : WorkerPoolService) (tasks : List WorkerTaskData) : Prop where
  useWorkers : t.useWorkers = s.useWorkers
  shuttingDown : t.shuttingDown = s.shuttingDown
  idleSlots : t.idleSlots = s.idleSlots
  router : t.router = s.router
  queue : t.workerTaskQueue = s.workerTaskQueue ++ tasks

theorem adds_of_addTasks {s t : PoolRun} {tasks : List WorkerTaskData}
    (h : s.addTasks tasks = some t) : Adds s.pool t.pool tasks := by
  induction tasks generalizing s with
  | nil =>
    obtain rfl := Option.some.inj h
    exact ⟨rfl, rfl, rfl, rfl, (List.append_nil _).symm⟩
  | cons td tasks ih =>
    obtain ⟨u, hu, h⟩ := Option.bind_eq_some_iff.mp h
    simp only [step] at hu
    split at hu
    · cases hu
    · obtain rfl := Option.some.inj hu
      obtain ⟨huse, hrun, hidle, hrouter, hqueue⟩ := ih h
      refine ⟨huse, hrun, hidle, hrouter, ?_⟩
      rw [hqueue]
      simp [WorkerPoolService.addTask]

theorem running_topStep {s t : PoolRun} {e : TopEvent} (hs : Running s) (h : s.topStep e = some t) :
    Running t := by
  cases e with
  | tick tasks post =>
    simp only [topStep] at h
    split at h
    · cases h
    · obtain ⟨u, hu, h⟩ := Option.bind_eq_some_iff.mp h
      have hadds := adds_of_addTasks hu
      exact running_step ⟨hadds.useWorkers.trans hs.useWorkers,
        hadds.shuttingDown.trans hs.shuttingDown⟩ h
  | message i result post =>
    exact running_step (e := .message i result post) hs h
  | failure i error post =>
    simp only [topStep] at h
    split at h
    · exact running_step hs h
    · cases h

/-- **Exactly when an event leaves the pool work-conserving**: in every state of every run, a tick,
a result or a failure does if and only if it leaves no idle worker next to a task for it. -/
theorem workConserving_iff {workerCount : ℕ} {cpu memory custom : Option ℕ} {s t : PoolRun}
    (h : Reachable topStep (initial workerCount cpu memory custom) s) {e : TopEvent}
    (he : e.dispatches = true) (ht : s.topStep e = some t) :
    t.pool.WorkConserving ↔ s.leavesWork e = false := by
  obtain ⟨huse, hrun⟩ : Running s :=
    h.invariant (running_initial workerCount cpu memory custom) fun _ _ _ hu _ hstep =>
      running_topStep hu hstep
  cases e with
  | tick tasks post =>
    simp only [topStep] at ht
    split at ht
    · cases ht
    · obtain ⟨u, hu, ht⟩ := Option.bind_eq_some_iff.mp ht
      simp only [step, Option.some.injEq] at ht
      subst ht
      obtain ⟨huse', -, hidle, hrouter, hqueue⟩ := adds_of_addTasks hu
      have hpass := (processWorkerTasks_leavesWork post (huse'.trans huse)).1
      rw [leavesWork_congr (s := { s.pool with workerTaskQueue := s.pool.workerTaskQueue ++ tasks })
        hidle hrouter hqueue] at hpass
      exact hpass
  | message i result post =>
    simp only [topStep, step] at ht
    split at ht
    · cases ht
    · rename_i pool answered hsend
      cases ht
      obtain ⟨w, hw, ⟨-, hinit, -, rfl⟩ | ⟨p, rest, -, -, hinit, hping, -, rfl⟩⟩ := send_cases hsend
      · rw [TopEvent.dispatches, hinit] at he
        cases he
      · dsimp only
        rw [onMessage_of_answer hinit hping, processorHandleWorkerResult_fst, release_setWorker]
        have hworker : (s.pool.release i).worker i = some w := by rw [release_worker, hw]
        have huse' : (s.pool.release i).useWorkers = true :=
          (release_frame s.pool i).useWorkers.trans huse
        have hpass := (processWorkerTasks_leavesWork post
          (s := (s.pool.release i).setWorker i { w with unanswered := rest }) huse').1
        rw [leavesWork_congr (idleSlots_setWorker hworker _) rfl rfl] at hpass
        exact hpass
  | failure i error post =>
    simp only [topStep] at ht
    split at ht
    · simp only [step, Option.some.injEq] at ht
      subst ht
      dsimp only
      rw [handleWorkerFailure_fst _ hrun, reportFailure_fst, workConserving_replaced]
      simp only [leavesWork, decide_eq_false_iff_not]
      refine not_congr ?_
      cases ha : s.pool.assigned i with
      | none =>
        rw [if_neg (by simp), if_neg (by simp), hasWork_iff post, due, due, release_queue,
          release_router_of_none ha]
      | some td =>
        rw [Option.isSome_some, if_pos rfl, if_pos rfl]
        exact (processWorkerTasks_leavesWork post
          ((release_frame s.pool i).useWorkers.trans huse)).2
    · cases ht

/-- The message of task `1` cannot be posted. -/
def postsAllButOne : PostMessage := fun td => if td.task.id = 1 then some .other else none

/-- Two workers and two tasks, one of which cannot be posted: one worker is left idle, and no task
for it. -/
theorem workConserving_of_two_tasks : ∃ t, (initial 2 none none none).topStep
    (.tick [cpuTask 1, cpuTask 2] postsAllButOne) = some t ∧ t.pool.idle 0 = true ∧
      t.pool.WorkConserving := by
  have hseen : ((initial 2 none none none).topStep (.tick [cpuTask 1, cpuTask 2] postsAllButOne)).map
      (fun t => t.pool.idle 0) = some true := rfl
  obtain ⟨t, ht, hidle⟩ := Option.map_eq_some_iff.mp hseen
  have hinit : Reachable topStep (initial 2 none none none) (initial 2 none none none) := .refl
  exact ⟨t, ht, hidle, (workConserving_iff hinit rfl ht).mpr (by decide +kernel)⟩

/-- A memory task. -/
def memoryTask (id : ℕ) : WorkerTaskData where
  task := { id := id, timestamp := 0, priority := 0, workloadType := some .memory }

/-- The only worker fails: the report gives it the next cpu task, the new worker is left idle, and
the memory task stays pending. -/
theorem failure_leaves_idle_worker : ∃ s t, Reachable topStep (initial 1 none none none) s ∧
    s.topStep (.failure 0 "exit" fun _ => none) = some t ∧ ¬ t.pool.WorkConserving := by
  obtain ⟨s, hs, hseen⟩ := exists_reaches_of_runEvents topStep (fun _ _ => True)
    (fun s => (s.topStep (.failure 0 "exit" fun _ => none)).map fun t =>
      (t.pool.idle 0, (t.pool.router.dequeueDispatchableTask t.pool.workerTaskQueue).picked.isSome))
    (s := initial 1 none none none)
    [.tick [cpuTask 1, cpuTask 2, memoryTask 3] fun _ => none] (some (true, true)) rfl
  obtain ⟨t, ht, hview⟩ := Option.map_eq_some_iff.mp hseen
  obtain ⟨hidle, hpicked⟩ := Prod.mk.inj hview
  refine ⟨s, t, hs, ht, fun hconserving => ?_⟩
  obtain ⟨td, hmem, hd⟩ := (WorkerTaskRouterService.isSome_picked_iff _ _).mp hpicked
  exact hconserving 0 hidle td hmem hd

end PoolRun

end BulkTraffic.Queue
