import BulkTraffic.Queue.Dequeue
import BulkTraffic.Queue.PoolShutdown

/-!
# The order in which tasks are dispatched

Pending tasks are added at the end and leave where `dequeueDispatchableTask` picks or removes them.
A pick may pass over tasks whose type is at its limit, so that tasks of different types overtake
each other; tasks of one type never do.

* `DispatchHistory.in_order`: of each type, the tasks dispatched so far and then those pending are the
  tasks added, in the order they were added, whatever the activity was at each pick.
* `PoolRun.in_order`: so it is in every run of the worker pool, whose events use the pending tasks in
  these two ways only (`Served`).
* `dequeueDispatchableTask_picks`: one pick, and what follows for many.
-/

namespace BulkTraffic.Queue

open BulkTraffic.Lib WorkerTaskRouterService

/-! ### Adding and picking -/

/-- The pending tasks with their past. -/
structure DispatchHistory where
  /-- The tasks added, oldest first. -/
  added : List WorkerTaskData := []
  /-- The tasks picked, each with the type it was picked for. -/
  dispatched : List (WorkerTaskData × DispatchableWorkloadType) := []
  queue : List WorkerTaskData := []

/-- What happens to the pending tasks. -/
inductive QueueUse where
  /-- `queue.push(taskData)`. -/
  | add (taskData : WorkerTaskData)
  /-- `dequeueDispatchableTask(queue, ..)`, with the activity there is at the time. -/
  | dequeue (r : WorkerTaskRouterService)

/-- The tasks of a type, among envelopes. -/
def tasksOf (type : DispatchableWorkloadType) (tds : List WorkerTaskData) : List QueueTask :=
  (ClassQueue.ofClass dispatchableType type tds).map WorkerTaskData.task

theorem tasksOf_append (type : DispatchableWorkloadType) (tds tds' : List WorkerTaskData) :
    tasksOf type (tds ++ tds') = tasksOf type tds ++ tasksOf type tds' := by
  rw [tasksOf, ClassQueue.ofClass_append, List.map_append]
  rfl

namespace DispatchHistory

/-- One use. -/
def step (h : DispatchHistory) : QueueUse → Option DispatchHistory
  | .add taskData => some { h with added := h.added ++ [taskData], queue := h.queue ++ [taskData] }
  | .dequeue r =>
    let d := r.dequeueDispatchableTask h.queue
    some { h with dispatched := h.dispatched ++ d.picked.toList, queue := d.queue }

/-- The tasks dispatched as tasks of a type. -/
def dispatchedOf (h : DispatchHistory) (type : DispatchableWorkloadType) : List QueueTask :=
  (h.dispatched.filter fun p => decide (p.2 = type)).map fun p => p.1.task

/-- The task picked counts as one of the type it had while it was pending. -/
theorem picked_of_type (r : WorkerTaskRouterService) (q : List WorkerTaskData)
    (type : DispatchableWorkloadType) :
    ((r.dequeueDispatchableTask q).picked.toList.filter fun p => decide (p.2 = type)).map
        (fun p => p.1.task)
      = tasksOf type (ClassQueue.taken dispatchableType r.canDispatchType q).toList := by
  rw [dequeueDispatchableTask_eq, tasksOf, ClassQueue.ofClass]
  cases h : ClassQueue.taken dispatchableType r.canDispatchType q with
  | none => rfl
  | some c =>
    obtain ⟨type', htype, -⟩ := ClassQueue.ready_iff.mp (ClassQueue.ready_of_taken _ _ h)
    by_cases heq : type' = type <;> simp [htype, heq, withType]

/-- Of a type: what a pick dispatches, and what it leaves pending. -/
theorem tasksOf_dequeue (r : WorkerTaskRouterService) (q : List WorkerTaskData)
    (type : DispatchableWorkloadType) :
    tasksOf type (ClassQueue.taken dispatchableType r.canDispatchType q).toList
        ++ tasksOf type (r.dequeueDispatchableTask q).queue = tasksOf type q := by
  rw [dequeueDispatchableTask_eq, tasksOf, tasksOf, ← List.map_append, ClassQueue.ofClass_scan]
  rfl

/-- **In order**: of each type, the tasks dispatched and then those pending are the tasks added. -/
theorem in_order {h : DispatchHistory} (hreach : Reachable step {} h)
    (type : DispatchableWorkloadType) :
    h.dispatchedOf type ++ tasksOf type h.queue = tasksOf type h.added := by
  refine hreach.invariant (P := fun h =>
    h.dispatchedOf type ++ tasksOf type h.queue = tasksOf type h.added) rfl fun s e t hs _ ht => ?_
  cases e with
  | add taskData =>
    cases ht
    rw [tasksOf_append, tasksOf_append, ← hs, List.append_assoc]
    rfl
  | dequeue r =>
    cases ht
    -- what is picked goes from the front of its type in the queue to the end of what was dispatched
    calc
      dispatchedOf { s with
            dispatched := s.dispatched ++ (r.dequeueDispatchableTask s.queue).picked.toList
            queue := (r.dequeueDispatchableTask s.queue).queue } type
          ++ tasksOf type (r.dequeueDispatchableTask s.queue).queue
        = s.dispatchedOf type
            ++ (tasksOf type (ClassQueue.taken dispatchableType r.canDispatchType s.queue).toList
              ++ tasksOf type (r.dequeueDispatchableTask s.queue).queue) := by
          rw [dispatchedOf, List.filter_append, List.map_append, picked_of_type, List.append_assoc]
          rfl
      _ = tasksOf type s.added := by rw [tasksOf_dequeue, hs]

end DispatchHistory

/-! ### The pool uses the pending tasks in these ways -/

/-- The task a call takes from the pending ones: it is posted, or its message could not be. -/
def Call.takes : Call → Option QueueTask
  | .post _ task => some task
  | .reject task .postFailed _ => some task
  | _ => none

namespace WorkerPoolService

/-- From `s` to `s'`, with the calls made, the pending tasks are used by picking only, and the calls
take the tasks picked. -/
def Serves (s s' : WorkerPoolService) (calls : List Call) : Prop :=
  ∀ h : DispatchHistory, h.queue = s.workerTaskQueue →
    ∃ h', Reachable DispatchHistory.step h h' ∧ h'.queue = s'.workerTaskQueue ∧ h'.added = h.added ∧
      h'.dispatched.map (fun p => p.1.task) =
        h.dispatched.map (fun p => p.1.task) ++ calls.filterMap Call.takes

/-- Where nothing is taken and the pending tasks stay. -/
theorem Serves.idle {s s' : WorkerPoolService} {calls : List Call}
    (hqueue : s'.workerTaskQueue = s.workerTaskQueue) (hcalls : calls.filterMap Call.takes = []) :
    Serves s s' calls := by
  intro h hh
  exact ⟨h, .refl, hh.trans hqueue.symm, rfl, by rw [hcalls, List.append_nil]⟩

theorem Serves.trans {s t u : WorkerPoolService} {c c' : List Call} (h : Serves s t c)
    (h' : Serves t u c') : Serves s u (c ++ c') := by
  intro h₀ hh
  obtain ⟨h₁, hreach₁, hqueue₁, hadded₁, htaken₁⟩ := h h₀ hh
  obtain ⟨h₂, hreach₂, hqueue₂, hadded₂, htaken₂⟩ := h' h₁ hqueue₁
  refine ⟨h₂, hreach₁.trans hreach₂, hqueue₂, hadded₂.trans hadded₁, ?_⟩
  rw [htaken₂, htaken₁, List.filterMap_append, List.append_assoc]

/-- The rejections made while picking take nothing. -/
theorem takes_dequeued (s : WorkerPoolService) : s.dequeued.calls.filterMap Call.takes = [] := by
  refine List.filterMap_eq_nil_iff.mpr fun c hc => ?_
  obtain ⟨d, -, rfl | rfl⟩ := s.router.mem_dequeue_calls hc <;> rfl

/-- A dispatch is one pick. -/
theorem dispatchTo_serves (post : PostMessage) (s : WorkerPoolService) (i : ℕ) :
    Serves s (s.dispatchTo post i).1 (s.dispatchTo post i).2 := by
  intro h hh
  have hpick : DispatchHistory.step h (.dequeue s.router) =
      some { h with dispatched := h.dispatched ++ s.dequeued.picked.toList, queue := s.dequeued.queue } := by
    rw [DispatchHistory.step, hh]
    rfl
  refine ⟨_, Reaches.single trivial hpick, ?_, rfl, ?_⟩
  · obtain ⟨-, hd⟩ | ⟨td, type, -, -, hd⟩ | ⟨td, type, thrown, -, -, hd⟩ := dispatchTo_cases post s i
    · rw [hd]
      rfl
    · rw [hd, assignTo_queue]
      rfl
    · rw [hd, unassign_queue]
      rfl
  · rw [List.map_append]
    obtain ⟨hp, hd⟩ | ⟨td, type, hp, -, hd⟩ | ⟨td, type, thrown, hp, -, hd⟩ := dispatchTo_cases post s i
    · simp [hp, hd, takes_dequeued]
    · simp [hp, hd, takes_dequeued, Call.takes]
    · simp [hp, hd, takes_dequeued, Call.takes]

/-- A result takes no task. -/
theorem handleWorkerResult_serves (s : WorkerPoolService) (i : ℕ) (result : WorkerMessage) :
    Serves s (s.handleWorkerResult i result).1 (s.handleWorkerResult i result).2 := by
  rw [handleWorkerResult_fst]
  refine .idle (release_queue s i) ?_
  cases h : s.assigned i with
  | none =>
    rw [handleWorkerResult_calls_of_none h]
    rfl
  | some td =>
    rw [handleWorkerResult_calls_of_some h]
    cases result.success <;> rfl

theorem serves_obeyed : Obeyed Serves where
  same hqueue _ := .idle hqueue rfl
  trans := Serves.trans
  dispatch := dispatchTo_serves
  result := handleWorkerResult_serves

end WorkerPoolService

namespace PoolRun

open WorkerPoolService

/-- The type an accepted task was pending under. -/
def typeOf (s : PoolRun) (task : QueueTask) : Option DispatchableWorkloadType :=
  (s.accepted.find? fun td => td.task.id == task.id).bind dispatchableType

/-- The tasks of a type taken from the pending ones, in the order of the calls. -/
def dispatchedOf (s : PoolRun) (type : DispatchableWorkloadType) : List QueueTask :=
  (s.log.filterMap Call.takes).filter fun task => decide (s.typeOf task = some type)

/-- A history of the pending tasks that the run has, and accepted tasks told apart by their ids. -/
structure Served (s : PoolRun) (h : DispatchHistory) : Prop where
  reaches : Reachable DispatchHistory.step {} h
  queue : h.queue = s.pool.workerTaskQueue
  added : h.added = s.accepted.reverse
  dispatched : h.dispatched.map (fun p => p.1.task) = s.log.filterMap Call.takes
  distinct : (s.accepted.map fun td => td.task.id).Nodup

/-- A step of the pool adds a task, or serves. -/
theorem Served.step {s u : PoolRun} {h : DispatchHistory} {e : PoolEvent} (hs : Served s h)
    (hu : step s e = some u) : ∃ h', Served u h' := by
  obtain ⟨td, hnew, rfl⟩ | ⟨haccepted, c, hlog, hserves⟩ := step_obeyed serves_obeyed hu
  · have hadd : DispatchHistory.step h (.add td) =
        some { h with added := h.added ++ [td], queue := h.queue ++ [td] } := rfl
    exact ⟨_,
      { reaches := hs.reaches.next _ trivial hadd
        queue := by simp [WorkerPoolService.addTask, hs.queue]
        added := by simp [hs.added]
        dispatched := hs.dispatched
        distinct := by
          rw [List.map_cons, List.nodup_cons]
          exact ⟨by simpa using hnew, hs.distinct⟩ }⟩
  · obtain ⟨h', hreach, hqueue, hadded, htaken⟩ := hserves h hs.queue
    exact ⟨h',
      { reaches := hs.reaches.trans hreach
        queue := hqueue
        added := by rw [hadded, hs.added, haccepted]
        dispatched := by rw [htaken, hs.dispatched, hlog, List.filterMap_append]
        distinct := by rw [haccepted]; exact hs.distinct }⟩

/-- **The runs of the pool are histories** of its pending tasks. -/
theorem exists_served {workerCount : ℕ} {cpu memory custom : Option ℕ} {s : PoolRun}
    (hreach : Reachable step (initial workerCount cpu memory custom) s) : ∃ h, Served s h := by
  refine hreach.invariant (P := fun s => ∃ h, Served s h) ⟨{}, ?_⟩ fun s e u hs _ hu => ?_
  · have hqueue : (initial workerCount cpu memory custom).pool.workerTaskQueue = [] :=
      initWorkerPool_invariant (P := fun s => s.workerTaskQueue = []) (fun s i h => h) rfl workerCount
    exact ⟨.refl, hqueue.symm, rfl, rfl, List.nodup_nil⟩
  · obtain ⟨h, hs⟩ := hs
    exact hs.step hu

/-- An accepted task is known by its id. -/
theorem typeOf_of_mem {s : PoolRun} (hdistinct : (s.accepted.map fun td => td.task.id).Nodup)
    {td : WorkerTaskData} (htd : td ∈ s.accepted) : s.typeOf td.task = dispatchableType td := by
  rw [typeOf]
  cases hfind : s.accepted.find? fun a => a.task.id == td.task.id with
  | none => exact absurd (beq_self_eq_true td.task.id) (List.find?_eq_none.mp hfind td htd)
  | some a =>
    have hid := List.find?_some hfind
    rw [beq_iff_eq] at hid
    rw [List.inj_on_of_nodup_map hdistinct (List.mem_of_find?_eq_some hfind) htd hid]
    rfl

/-- A task dispatched as one of a type was accepted as one. -/
theorem Served.typeOf {s : PoolRun} {h : DispatchHistory} (hs : Served s h)
    {p : WorkerTaskData × DispatchableWorkloadType} (hp : p ∈ h.dispatched) :
    s.typeOf p.1.task = some p.2 := by
  have hmem : p.1.task ∈ h.dispatchedOf p.2 :=
    List.mem_map.mpr ⟨p, List.mem_filter.mpr ⟨hp, decide_eq_true rfl⟩, rfl⟩
  have hadded : p.1.task ∈ tasksOf p.2 h.added := by
    rw [← DispatchHistory.in_order hs.reaches p.2]
    exact List.mem_append_left _ hmem
  obtain ⟨td, htd, htask⟩ := List.mem_map.mp hadded
  obtain ⟨htd, htype⟩ := List.mem_filter.mp htd
  rw [hs.added, List.mem_reverse] at htd
  rw [← htask, typeOf_of_mem hs.distinct htd]
  exact of_decide_eq_true htype

/-- **In order**, in every run of the pool: of each type, the tasks dispatched and then those pending
are the tasks accepted, in the order in which they were. -/
theorem in_order {workerCount : ℕ} {cpu memory custom : Option ℕ} {s : PoolRun}
    (hreach : Reachable step (initial workerCount cpu memory custom) s)
    (type : DispatchableWorkloadType) :
    s.dispatchedOf type ++ tasksOf type s.pool.workerTaskQueue = tasksOf type s.accepted.reverse := by
  obtain ⟨h, hs⟩ := exists_served hreach
  have hdispatched : s.dispatchedOf type = h.dispatchedOf type := by
    rw [dispatchedOf, ← hs.dispatched, List.filter_map, DispatchHistory.dispatchedOf]
    refine congrArg (List.map _) (List.filter_congr fun p hp => ?_)
    simp [hs.typeOf hp]
  rw [hdispatched, ← hs.queue, DispatchHistory.in_order hs.reaches, hs.added]

end PoolRun

/-- **Picking**: whatever the pending tasks and the activity, the loop ends and takes the first task
whose type is dispatchable and below its limit, having removed, rejected and reported the tasks before
it whose type no worker runs. So tasks of one type are dispatched in the order in which they are added,
whatever the activity is at each pick, and in every run of the pool. -/
theorem dequeueDispatchableTask_picks :
    (∀ (r : WorkerTaskRouterService) (queue : List WorkerTaskData) (rounds : ℕ), queue.length < rounds →
      r.dequeueLoop queue rounds = some (r.dequeueDispatchableTask queue) ∧
        ∃ before taken after, Picks r queue (r.dequeueDispatchableTask queue) before taken after) ∧
      (∀ h : DispatchHistory, Reachable DispatchHistory.step {} h →
        ∀ type, h.dispatchedOf type ++ tasksOf type h.queue = tasksOf type h.added) ∧
      ∀ (workerCount : ℕ) (cpu memory custom : Option ℕ) (s : PoolRun),
        Reachable PoolRun.step (.initial workerCount cpu memory custom) s →
          ∀ type, s.dispatchedOf type ++ tasksOf type s.pool.workerTaskQueue =
            tasksOf type s.accepted.reverse := by
  refine ⟨fun r queue rounds h => ⟨r.dequeueLoop_eq h, r.exists_picks queue⟩, ?_, ?_⟩
  · exact fun h hreach type => DispatchHistory.in_order hreach type
  · exact fun workerCount cpu memory custom s hreach type => PoolRun.in_order hreach type

/-- A task no type is known of, ahead of two tasks for workers: the loop removes it and takes the next.
Two picks take these two in their order, and so does a pass of the pool. -/
theorem dequeueDispatchableTask_picks_behind_unknown :
    let router := WorkerTaskRouterService.create 4 none none none
    let pending := [{ task := { id := 1, timestamp := 0, priority := 0 } }, PoolRun.cpuTask 2, PoolRun.cpuTask 3]
    (router.dequeueLoop pending 4).map (fun d => (d.picked.map fun p => p.1.task.id, d.calls.length))
        = some (some 2, 2) ∧
      (∃ h, Reachable DispatchHistory.step {} h ∧
        (h.dispatchedOf .cpu).map (fun task => task.id) = [2, 3] ∧
        h.dispatchedOf .cpu ++ tasksOf .cpu h.queue = tasksOf .cpu h.added) ∧
      ∃ s, Reachable PoolRun.step (.initial 4 none none none) s ∧
        (s.dispatchedOf .cpu).map (fun task => task.id) = [2, 3] ∧
        s.dispatchedOf .cpu ++ tasksOf .cpu s.pool.workerTaskQueue = tasksOf .cpu s.accepted.reverse := by
  intro router pending
  obtain ⟨hloop, hhistory, hpool⟩ := dequeueDispatchableTask_picks
  refine ⟨?_, ?_, ?_⟩
  · rw [(hloop router pending 4 (by decide)).1]
    rfl
  · obtain ⟨h, hh, hseen⟩ := exists_reaches_of_runEvents DispatchHistory.step (fun _ _ => True)
      (fun h => (h.dispatchedOf .cpu).map fun task => task.id) (s := {})
      (pending.map .add ++ [.dequeue router, .dequeue router]) [2, 3] rfl
    exact ⟨h, hh, hseen, hhistory h hh .cpu⟩
  · obtain ⟨s, hs, hseen⟩ := exists_reaches_of_runEvents PoolRun.step (fun _ _ => True)
      (fun s => (s.dispatchedOf .cpu).map fun task => task.id) (s := .initial 4 none none none)
      (pending.map .addTask ++ [.processWorkerTasks fun _ => none]) [2, 3] rfl
    exact ⟨s, hs, hseen, hpool 4 none none none s hs .cpu⟩

end BulkTraffic.Queue
