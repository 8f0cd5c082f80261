import BulkTraffic.Queue.PoolSlots
import BulkTraffic.Lib.Runs

/-!
# Runs of the worker pool

The pool as an event-driven system. Its events are the calls the rest of the program makes
(`addTask`, `processWorkerTasks`), the messages of the workers and their failures, in any
order. A worker sends `initialized` first and then answers the messages posted to it, one by
one, oldest first.

`PoolRun` records next to the pool what the statements speak of: the tasks accepted, the
calls made so far, and for each task settled by a worker's result the task the result was
computed from.

* `attribution` says when results settle the tasks they were computed from. The listener of
  `createOrReplaceWorker` marks the slot idle when the worker's `initialized` message
  arrives, also when the worker was given a task before; a second task then takes the
  first one's place, and the first one's result settles it. Where no `initialized` message
  finds its slot busy, every result settles its own task.
-/

namespace BulkTraffic.Queue

open BulkTraffic.Lib BulkTraffic.Js

/-- The task a call settles by a worker's result. -/
def Call.settlesByWorker : Call → Option QueueTask
  | resolve task .worker _ | reject task .worker _ => some task
  | _ => none

/-- A pool with its past. -/
structure PoolRun where
  pool : WorkerPoolService
  /-- The tasks given to `addTask`. -/
  accepted : List WorkerTaskData := []
  /-- The calls made so far. -/
  log : List Call := []
  /-- For each task settled by a worker's result: that task, and the task whose message the
  worker computed the result from. -/
  attributed : List (QueueTask × QueueTask) := []

/-- What can happen to a pool. A `post` says which messages cannot be posted meanwhile. -/
inductive PoolEvent where
  /-- `addTask(taskData)`, of a task not seen before. -/
  | addTask (taskData : WorkerTaskData)
  /-- `processWorkerTasks(..)`. -/
  | processWorkerTasks (post : PostMessage)
  /-- The worker of a slot sends a message. -/
  | message (i : ℕ) (result : WorkerMessage) (post : PostMessage)
  /-- The worker of a slot fails: it throws, exits, or misses its health check. -/
  | failure (i : ℕ) (error : String) (post : PostMessage)

namespace PoolRun

/-- The pool after `initWorkerPool`, with workers enabled. -/
def initial (workerCount : ℕ) (cpu memory custom : Option ℕ) : PoolRun where
  pool := WorkerPoolService.initWorkerPool
    { useWorkers := true, router := .create workerCount cpu memory custom } workerCount

/-- One event. -/
def step (s : PoolRun) : PoolEvent → Option PoolRun
  | .addTask taskData =>
    if s.accepted.any fun a => a.task.id == taskData.task.id then none
    else some { s with pool := s.pool.addTask taskData, accepted := taskData :: s.accepted }
  | .processWorkerTasks post =>
    let (pool, calls) := s.pool.processWorkerTasks post
    some { s with pool := pool, log := s.log ++ calls }
  | .message i result post =>
    match s.pool.send i result with
    | none => none
    | some (pool, answered) =>
      let (pool, calls) := pool.onMessage (some (processorHandleWorkerResult post)) i result
      some { s with
        pool := pool
        log := s.log ++ calls
        attributed := s.attributed ++ answered.toList.flatMap fun p =>
          (calls.filterMap Call.settlesByWorker).map fun task => (task, p.taskData.task) }
  | .failure i error post =>
    let (pool, calls) := s.pool.handleWorkerFailure (some (processorHandleWorkerResult post)) i error
    some { s with pool := pool, log := s.log ++ calls }

/-- An `initialized` message finds its slot idle. -/
def InitializedIdle (s : PoolRun) : PoolEvent → Prop
  | .message i result _ => result.initialized = true → s.pool.busy i = false
  | _ => True

instance (s : PoolRun) (e : PoolEvent) : Decidable (InitializedIdle s e) := by
  cases e <;> unfold InitializedIdle <;> infer_instance

end PoolRun

namespace WorkerPoolService

/-! ### Results and failures -/

theorem processorHandleWorkerResult_fst (post : PostMessage) (s : WorkerPoolService) (i : ℕ)
    (result : WorkerMessage) :
    (processorHandleWorkerResult post s i result).1 = ((s.release i).processWorkerTasks post).1 := by
  simp only [processorHandleWorkerResult, handleWorkerResult_fst]

theorem processorHandleWorkerResult_snd (post : PostMessage) (s : WorkerPoolService) (i : ℕ)
    (result : WorkerMessage) :
    (processorHandleWorkerResult post s i result).2 =
      (s.handleWorkerResult i result).2 ++ ((s.release i).processWorkerTasks post).2 := by
  simp only [processorHandleWorkerResult, handleWorkerResult_fst]

/-- The pool after the report of a failure. -/
theorem reportFailure_fst (post : PostMessage) (s : WorkerPoolService) (i : ℕ) (error : String) :
    (s.reportFailure (some (processorHandleWorkerResult post)) i error).1 =
      if (s.assigned i).isSome then ((s.release i).processWorkerTasks post).1 else s := by
  unfold reportFailure
  cases h : s.assigned i with
  | none => simp
  | some td => simp [processorHandleWorkerResult_fst]

/-- The pool after a failure: the failure reported, the worker terminated and replaced. -/
theorem handleWorkerFailure_fst (onResult : Option OnResult) {s : WorkerPoolService}
    (h : s.shuttingDown = false) (i : ℕ) (error : String) :
    (s.handleWorkerFailure onResult i error).1 =
      (((s.reportFailure onResult i error).1.setBusy i false).terminateWorker
        i).createOrReplaceWorker i := by
  simp [handleWorkerFailure, h]

theorem handleWorkerFailure_snd (onResult : Option OnResult) {s : WorkerPoolService}
    (h : s.shuttingDown = false) (i : ℕ) (error : String) :
    (s.handleWorkerFailure onResult i error).2 = (s.reportFailure onResult i error).2 := by
  simp [handleWorkerFailure, h]

@[simp] theorem worker_terminateWorker (s : WorkerPoolService) (i j : ℕ) :
    (s.terminateWorker i).worker j = s.worker j := rfl

@[simp] theorem busy_terminateWorker (s : WorkerPoolService) (i j : ℕ) :
    (s.terminateWorker i).busy j = s.busy j := rfl

@[simp] theorem assigned_terminateWorker (s : WorkerPoolService) (i j : ℕ) :
    (s.terminateWorker i).assigned j = s.assigned j := rfl

@[simp] theorem worker_createOrReplaceWorker (s : WorkerPoolService) (i j : ℕ) :
    (s.createOrReplaceWorker i).worker j = if i = j then some {} else s.worker j := by
  simp [createOrReplaceWorker]

@[simp] theorem busy_createOrReplaceWorker (s : WorkerPoolService) (i j : ℕ) :
    (s.createOrReplaceWorker i).busy j = if i = j then false else s.busy j := by
  simp [createOrReplaceWorker]

@[simp] theorem assigned_createOrReplaceWorker (s : WorkerPoolService) (i j : ℕ) :
    (s.createOrReplaceWorker i).assigned j = s.assigned j := rfl

/-- **The creation rule**: what holds of the empty pool and is kept by the creation of a
worker holds of the pool as created. -/
theorem initWorkerPool_invariant {P : WorkerPoolService → Prop}
    (hstep : ∀ s i, P s → P (s.createOrReplaceWorker i)) {s : WorkerPoolService} (h : P s)
    (workerCount : ℕ) : P (s.initWorkerPool workerCount) := by
  have hcreate : ∀ n, P (s.createWorkers n) := by
    intro n
    induction n with
    | zero => exact h
    | succ n ih => exact hstep _ n ih
  unfold initWorkerPool
  split
  · exact hcreate workerCount
  · exact h

/-! ### Whose result it is -/

/-- In every slot but the one in `skip`: a worker that owes an answer owes one, to the
message of the task assigned to its slot, and the slot is marked busy. -/
def Attributable (skip : Option ℕ) (s : WorkerPoolService) : Prop :=
  ∀ i w, skip ≠ some i → s.worker i = some w → w.unanswered = [] ∨
    (s.busy i = true ∧ ∃ p, w.unanswered = [p] ∧ s.assigned i = some p.taskData)

/-- A dispatch to an idle worker keeps the attribution. -/
theorem Attributable.dispatchTo {skip : Option ℕ} {s : WorkerPoolService} {i : ℕ} {w : Worker}
    (h : Attributable skip s) (post : PostMessage) (hw : s.worker i = some w)
    (hb : s.busy i = false) : Attributable skip (s.dispatchTo post i).1 := by
  intro j w' hj hw'
  by_cases hij : i = j
  · subst hij
    have hempty : w.unanswered = [] := by
      rcases h i w hj hw with hn | ⟨hbusy, -⟩
      · exact hn
      · rw [hb] at hbusy; cases hbusy
    obtain ⟨-, hd⟩ | ⟨td, type, -, -, hd⟩ | ⟨td, type, thrown, -, -, hd⟩ := dispatchTo_cases post s i
    · simp only [hd, worker_afterDequeue, hw, Option.some.injEq] at hw'
      exact .inl (hw' ▸ hempty)
    · simp only [hd, worker_assignTo, worker_afterDequeue, hw, if_true, Option.map_some,
        Option.some.injEq] at hw'
      subst hw'
      exact .inr ⟨by simp [hd], ⟨td, messageOf td type⟩, by simp [hempty], by simp [hd]⟩
    · simp only [hd, worker_unassign, worker_afterDequeue, hw, Option.some.injEq] at hw'
      exact .inl (hw' ▸ hempty)
  · have hs := dispatchTo_same post s hij
    rw [hs.busy, hs.assigned]
    exact h j w' hj (by rw [← hs.worker]; exact hw')

theorem Attributable.processWorkerTasks {skip : Option ℕ} {s : WorkerPoolService}
    (h : Attributable skip s) (post : PostMessage) :
    Attributable skip (s.processWorkerTasks post).1 :=
  processWorkerTasks_invariant (P := Attributable skip)
    (fun _ _ _ hs hw hb => hs.dispatchTo post hw hb) h

/-- Slots that stay the same stay attributable. -/
theorem Attributable.of_same {skip : Option ℕ} {s s' : WorkerPoolService} (h : Attributable skip s)
    (hs : ∀ j, skip ≠ some j → SameSlot s s' j) : Attributable skip s' := by
  intro j w hj hw
  rw [(hs j hj).busy, (hs j hj).assigned]
  exact h j w hj (by rw [← (hs j hj).worker]; exact hw)

/-- Changing slot `i` only leaves the others attributable. -/
theorem Attributable.leaveOut {s s' : WorkerPoolService} {i : ℕ} (h : Attributable none s)
    (hs : ∀ j, i ≠ j → SameSlot s s' j) : Attributable (some i) s' := by
  refine Attributable.of_same (fun j w _ => h j w (by simp)) fun j hj => hs j fun hij => hj ?_
  rw [hij]

/-- A worker that owes nothing completes the attribution. -/
theorem Attributable.close {s : WorkerPoolService} {i : ℕ} (h : Attributable (some i) s)
    (hi : ∀ w, s.worker i = some w → w.unanswered = []) : Attributable none s := by
  intro j w _ hw
  by_cases hij : i = j
  · subst hij
    exact .inl (hi w hw)
  · exact h j w (fun hs => hij (Option.some.inj hs)) hw

/-- An `initialized` message that finds its slot idle keeps the attribution. -/
theorem Attributable.initialized {s : WorkerPoolService} {i : ℕ} {w : Worker}
    (h : Attributable none s) (hw : s.worker i = some w) (hb : s.busy i = false) :
    Attributable none ((s.setWorker i { w with initialized := true }).setBusy i false) := by
  have hempty : w.unanswered = [] := by
    rcases h i w (by simp) hw with hn | ⟨hbusy, -⟩
    · exact hn
    · rw [hb] at hbusy; cases hbusy
  refine Attributable.close (i := i)
    (h.leaveOut fun j hij => ⟨by simp [hij], by simp [hij], rfl⟩) fun w' hw' => ?_
  simp only [worker_setBusy, worker_setWorker, if_true, Option.some.injEq] at hw'
  exact hw' ▸ hempty

/-- Handling the answer of a worker that owes no other keeps the attribution. -/
theorem Attributable.answer {s : WorkerPoolService} {i : ℕ} {w : Worker} (h : Attributable none s)
    (hempty : w.unanswered = []) (post : PostMessage) (result : WorkerMessage) :
    Attributable none (processorHandleWorkerResult post (s.setWorker i w) i result).1 := by
  rw [processorHandleWorkerResult_fst]
  refine Attributable.processWorkerTasks ?_ post
  refine Attributable.close (i := i)
    (h.leaveOut fun j hij => ⟨by simp [hij], by simp [hij], by simp [hij]⟩) fun w' hw' => ?_
  simp only [release_worker, worker_setWorker, if_true, Option.some.injEq] at hw'
  exact hw' ▸ hempty

/-- Replacing a failed worker keeps the attribution. -/
theorem Attributable.failure {s : WorkerPoolService} (h : Attributable none s) (post : PostMessage)
    (i : ℕ) (error : String) :
    Attributable none
      (s.handleWorkerFailure (some (processorHandleWorkerResult post)) i error).1 := by
  cases hd : s.shuttingDown with
  | true => simpa [handleWorkerFailure, hd] using h
  | false =>
    rw [handleWorkerFailure_fst _ hd, reportFailure_fst]
    have hreport : Attributable (some i)
        (if (s.assigned i).isSome then ((s.release i).processWorkerTasks post).1 else s) := by
      split
      · exact (h.leaveOut fun j hij => ⟨by simp, by simp [hij], by simp [hij]⟩).processWorkerTasks post
      · exact h.leaveOut fun j _ => ⟨rfl, rfl, rfl⟩
    refine (hreport.of_same fun j hj => ?_).close fun w hw => ?_
    · have hij : i ≠ j := fun hij => hj (by rw [hij])
      exact ⟨by simp [hij], by simp [hij], by simp⟩
    · simp only [worker_createOrReplaceWorker, if_true, Option.some.injEq] at hw
      rw [← hw]

theorem Attributable.initial (workerCount : ℕ) (r : WorkerTaskRouterService) :
    Attributable none (initWorkerPool { useWorkers := true, router := r } workerCount) := by
  refine initWorkerPool_invariant (P := Attributable none) (fun s i h => ?_) ?_ workerCount
  · refine Attributable.close (i := i)
      (h.leaveOut fun j hij => ⟨by simp [hij], by simp [hij], rfl⟩) fun w hw => ?_
    simp only [worker_createOrReplaceWorker, if_true, Option.some.injEq] at hw
    rw [← hw]
  · intro i w _ hw
    simp [worker] at hw

/-- A pass settles nothing by a worker's result. -/
theorem processWorkerTasks_settlesByWorker (post : PostMessage) (s : WorkerPoolService) :
    (s.processWorkerTasks post).2.filterMap Call.settlesByWorker = [] := by
  have hdispatch : ∀ (s : WorkerPoolService) i,
      (s.dispatchTo post i).2.filterMap Call.settlesByWorker = [] := by
    intro s i
    have hcalls : s.dequeued.calls.filterMap Call.settlesByWorker = [] := by
      refine List.filterMap_eq_nil_iff.mpr fun c hc => ?_
      obtain ⟨d, -, rfl | rfl⟩ := s.router.mem_dequeue_calls hc <;> rfl
    obtain ⟨-, hd⟩ | ⟨td, type, -, -, hd⟩ | ⟨td, type, thrown, -, -, hd⟩ := dispatchTo_cases post s i
    all_goals simp [hd, hcalls, Call.settlesByWorker]
  refine processWorkerTasks_of_dispatch (R := fun _ _ c => c.filterMap Call.settlesByWorker = [])
    (fun _ => rfl) (fun h h' => ?_) hdispatch s
  rw [List.filterMap_append, h, h']
  rfl

/-- The result handled at slot `i` settles the task assigned to it, and no other. -/
theorem processorHandleWorkerResult_settlesByWorker (post : PostMessage) {s : WorkerPoolService}
    {i : ℕ} {td : WorkerTaskData} (h : s.assigned i = some td) (result : WorkerMessage) :
    (processorHandleWorkerResult post s i result).2.filterMap Call.settlesByWorker = [td.task] := by
  rw [processorHandleWorkerResult_snd, List.filterMap_append, processWorkerTasks_settlesByWorker,
    handleWorkerResult_calls_of_some h]
  cases result.success <;> rfl

end WorkerPoolService

namespace PoolRun

open WorkerPoolService

/-- **The step rule**: a step accepts a task not seen before, or it obeys what the functions of the pool
do. -/
theorem step_obeyed {R : WorkerPoolService → WorkerPoolService → List Call → Prop} (hR : Obeyed R)
    {s u : PoolRun} {e : PoolEvent} (h : step s e = some u) :
    (∃ td, (∀ a ∈ s.accepted, a.task.id ≠ td.task.id) ∧
        u = { s with pool := s.pool.addTask td, accepted := td :: s.accepted }) ∨
      (u.accepted = s.accepted ∧ ∃ c, u.log = s.log ++ c ∧ R s.pool u.pool c) := by
  cases e with
  | addTask td =>
    rw [step] at h
    split at h
    · cases h
    · rename_i hnew
      cases h
      simp only [List.any_eq_true, beq_iff_eq, not_exists, not_and] at hnew
      exact .inl ⟨td, hnew, rfl⟩
  | processWorkerTasks post =>
    simp only [step, Option.some.injEq] at h
    subst h
    exact .inr ⟨rfl, _, rfl, hR.processWorkerTasks post s.pool⟩
  | failure i error post =>
    simp only [step, Option.some.injEq] at h
    subst h
    exact .inr ⟨rfl, _, rfl, hR.handleWorkerFailure post s.pool i error⟩
  | message i result post =>
    rw [step] at h
    split at h
    · cases h
    · rename_i pool answered hsend
      simp only [Option.some.injEq] at h
      subst h
      have hmessage := hR.onMessage post pool i result
      refine .inr ⟨rfl, _, rfl, ?_⟩
      obtain ⟨w, -, ⟨-, -, -, rfl⟩ | ⟨p, rest, -, -, -, -, -, rfl⟩⟩ := send_cases hsend
      · exact hR.congr_left hmessage rfl rfl
      · exact hR.congr_left hmessage rfl rfl

/-- **Result attribution.** In every run in which each `initialized` message finds its slot
idle, every task settled by a worker's result is the task the result was computed from. -/
theorem attribution {workerCount : ℕ} {cpu memory custom : Option ℕ} {s : PoolRun}
    (h : Reaches step InitializedIdle (initial workerCount cpu memory custom) s) :
    ∀ settled source, (settled, source) ∈ s.attributed → settled = source := by
  suffices hinv : Attributable none s.pool ∧ ∀ p ∈ s.attributed, p.1 = p.2 from
    fun _ _ hp => hinv.2 _ hp
  refine h.invariant (P := fun s => Attributable none s.pool ∧ ∀ p ∈ s.attributed, p.1 = p.2)
    ⟨Attributable.initial workerCount _, by simp [initial]⟩ fun t e u ht hok hu => ?_
  obtain ⟨hpool, hattr⟩ := ht
  cases e with
  | addTask td =>
    simp only [step] at hu
    split at hu
    · cases hu
    · cases hu
      exact ⟨hpool, hattr⟩
  | processWorkerTasks post =>
    simp only [step, Option.some.injEq] at hu
    subst hu
    exact ⟨hpool.processWorkerTasks post, hattr⟩
  | failure i error post =>
    simp only [step, Option.some.injEq] at hu
    subst hu
    exact ⟨hpool.failure post i error, hattr⟩
  | message i result post =>
    simp only [step] at hu
    split at hu
    · cases hu
    · rename_i pool answered hsend
      simp only [Option.some.injEq] at hu
      subst hu
      obtain ⟨w, hw, ⟨-, hinit, rfl, rfl⟩ | ⟨p, rest, -, hp, hinit, hping, rfl, rfl⟩⟩ := send_cases hsend
      · rw [onMessage_of_initialized hinit]
        exact ⟨hpool.initialized hw (hok hinit), by simpa using hattr⟩
      · rw [onMessage_of_answer hinit hping]
        -- the worker owed this answer only, for the task assigned to its slot
        obtain ⟨rfl, ha⟩ : rest = [] ∧ t.pool.assigned i = some p.taskData := by
          rcases hpool i w (by simp) hw with hn | ⟨-, q, hq, ha⟩
          · rw [hp] at hn; cases hn
          · rw [hp] at hq
            cases hq
            exact ⟨rfl, ha⟩
        refine ⟨hpool.answer rfl post result, ?_⟩
        have hsettles := processorHandleWorkerResult_settlesByWorker post
          (s := t.pool.setWorker i { w with unanswered := [] }) ha result
        intro q hq
        simp only [hsettles, Option.toList_some, List.flatMap_cons, List.flatMap_nil, List.map_cons,
          List.map_nil, List.append_nil, List.mem_append, List.mem_singleton] at hq
        rcases hq with hq | rfl
        · exact hattr q hq
        · rfl

/-- A cpu task. -/
def cpuTask (id : ℕ) : WorkerTaskData where
  task := { id := id, timestamp := 0, priority := 0, workloadType := some .cpu }

/-- Who was settled by whose result, by the tasks' ids. -/
def attributedIds (s : PoolRun) : List (ℕ × ℕ) := s.attributed.map fun p => (p.1.id, p.2.id)

/-- A worker that starts, gets a task and answers it: the result settles that task. -/
theorem attribution_of_one_task :
    ∃ s, Reaches step InitializedIdle (initial 4 none none none) s ∧ s.attributedIds = [(1, 1)] ∧
      ∀ settled source, (settled, source) ∈ s.attributed → settled = source := by
  obtain ⟨s, hs, hseen⟩ := exists_reaches_of_runEvents step InitializedIdle attributedIds
    (s := initial 4 none none none) [.message 0 { initialized := true } fun _ => none,
      .addTask (cpuTask 1), .processWorkerTasks fun _ => none,
      .message 0 { success := true, result := .str "primes" } fun _ => none] [(1, 1)] rfl
  exact ⟨s, hs, hseen, attribution hs⟩

/-- A task posted before the worker's `initialized` message arrives: that message marks the
slot idle, the next task takes the first one's place, and the first one's result settles it. -/
theorem attribution_fails_before_initialized :
    ∃ s, Reachable step (initial 4 none none none) s ∧
      ∃ settled source, (settled, source) ∈ s.attributed ∧ settled ≠ source := by
  obtain ⟨s, hs, hseen⟩ := exists_reaches_of_runEvents step (fun _ _ => True) attributedIds
    (s := initial 4 none none none) [.addTask (cpuTask 1), .processWorkerTasks fun _ => none,
      .message 0 { initialized := true } fun _ => none,
      .addTask (cpuTask 2), .processWorkerTasks fun _ => none,
      .message 0 { success := true, result := .str "primes" } fun _ => none] [(2, 1)] rfl
  have hmem : (2, 1) ∈ s.attributedIds := by simp [hseen]
  obtain ⟨⟨settled, source⟩, hp, hids⟩ := List.mem_map.mp hmem
  refine ⟨s, hs, settled, source, hp, ?_⟩
  rintro rfl
  simp only [Prod.mk.injEq] at hids
  omega

end PoolRun

end BulkTraffic.Queue
