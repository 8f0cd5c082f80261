import BulkTraffic.Queue.PoolShutdown

/-!
# Health checks

`WorkerHealthService` and the listeners of `WorkerPoolService` that it works with, until the pool
is shut down. A health check pings every worker whose slot is idle and has no ping timer, and arms
the timer; a worker's answer, to a ping or to a task, clears it; a timer that fires replaces the
worker.

`WatchedPool` is the pool as it runs with its health checks. Besides the timers it knows of a
worker how many pings it has not answered yet, and whether it has exited with code 0: the `exit`
listener replaces a worker only after another code. An exited worker sends nothing, and what is
posted to it is dropped.

* `watched_refines`: a run of the watched pool is a run of the pool.
* `recovers_iff`: an exited worker can still be replaced exactly when a ping timer is armed for its
  slot or the slot is idle. Otherwise the slot and its task are lost.

A pong may come before or after the answers to the tasks posted earlier; where the thread keeps
the order of its messages, these are fewer runs.
-/

namespace BulkTraffic.Queue

open BulkTraffic.Lib BulkTraffic.Js

/-- The pool with its health checks. -/
structure WatchedPool where
  run : PoolRun
  /-- `pingTimeoutMap.has(index)`: the ping timer of the slot is armed. -/
  pingTimeout : ℕ → Bool := fun _ => false
  /-- How many pings the worker of a slot has not answered yet. -/
  pings : ℕ → ℕ := fun _ => 0
  /-- The worker of a slot has exited with code 0. -/
  exited : ℕ → Bool := fun _ => false

/-- What can happen to a watched pool. -/
inductive HealthEvent where
  /-- `addTask(taskData)`. -/
  | addTask (taskData : WorkerTaskData)
  /-- `processWorkerTasks(..)`. -/
  | processWorkerTasks (post : PostMessage)
  /-- A worker sends `initialized`, or the answer to a task. -/
  | message (i : ℕ) (result : WorkerMessage) (post : PostMessage)
  /-- A worker answers a ping. -/
  | pong (i : ℕ)
  /-- The health check timer. A `ping` says for each slot whether posting the ping throws. -/
  | healthCheck (ping : ℕ → Option Thrown) (post : PostMessage)
  /-- A ping timer fires. -/
  | pingTimeout (i : ℕ) (post : PostMessage)
  /-- The worker of a slot throws, or exits with a code other than 0. -/
  | failure (i : ℕ) (error : String) (post : PostMessage)
  /-- The worker of a slot exits with code 0. -/
  | exit (i : ℕ)

namespace WatchedPool

/-- `clearPingTimeout(index)`. -/
def clearPingTimeout (s : WatchedPool) (index : ℕ) : WatchedPool :=
  { s with pingTimeout := Function.update s.pingTimeout index false }

/-- `handleWorkerFailure(index, error)`: the timer is cleared, the task rejected, and the worker
replaced by one that has been sent no ping. -/
def handleWorkerFailure (post : PostMessage) (s : WatchedPool) (index : ℕ) (error : String) : WatchedPool :=
  if s.run.pool.shuttingDown then s
  else match s.run.step (.failure index error post) with
    | none => s
    | some run =>
      { s.clearPingTimeout index with
        run := run
        pings := Function.update s.pings index 0
        exited := Function.update s.exited index false }

/-- The failure reported when a ping timer fires. -/
def pingTimeoutMessage : String := "워커 헬스체크 타임아웃"

/-- The failure reported when a ping cannot be posted. -/
def pingFailedMessage : Thrown → String
  | .error message => message
  | .other => "워커 헬스체크 메시지 전송 실패"

/-- The body of the loop of the health check. -/
def checkWorker (ping : ℕ → Option Thrown) (post : PostMessage) (s : WatchedPool) (i : ℕ) : WatchedPool :=
  if (s.run.pool.worker i).isNone then s
  else if s.run.pool.busy i then s
  else if s.pingTimeout i then s
  else match ping i with
    | none =>
      { s with
        pings := Function.update s.pings i (s.pings i + 1)
        pingTimeout := Function.update s.pingTimeout i true }
    | some thrown => s.handleWorkerFailure post i (pingFailedMessage thrown)

/-- The callback of the health check timer. A replaced worker keeps its place, so the length of
`workerPool` stays the same meanwhile. -/
def healthCheck (ping : ℕ → Option Thrown) (post : PostMessage) (s : WatchedPool) : WatchedPool :=
  (List.range s.run.pool.workerPool.length).foldl (checkWorker ping post) s

/-- The pool after `initWorkerPool`, with workers enabled and the health checks started. -/
def initial (workerCount : ℕ) (cpu memory custom : Option ℕ) : WatchedPool where
  run := PoolRun.initial workerCount cpu memory custom

/-- Is the worker of a slot there, and running? -/
def running (s : WatchedPool) (i : ℕ) : Bool := (s.run.pool.worker i).isSome && !s.exited i

/-- One event. -/
def step (s : WatchedPool) : HealthEvent → Option WatchedPool
  | .addTask taskData => (s.run.step (.addTask taskData)).map fun run => { s with run := run }
  | .processWorkerTasks post =>
    (s.run.step (.processWorkerTasks post)).map fun run => { s with run := run }
  | .message i result post =>
    if s.running i then
      (s.run.step (.message i result post)).map fun run =>
        if result.initialized then { s with run := run } else { s with run := run }.clearPingTimeout i
    else none
  | .pong i =>
    if s.running i && 0 < s.pings i then
      some ({ s with pings := Function.update s.pings i (s.pings i - 1) }.clearPingTimeout i)
    else none
  | .healthCheck ping post => some (s.healthCheck ping post)
  | .pingTimeout i post =>
    if s.pingTimeout i then some (s.handleWorkerFailure post i pingTimeoutMessage) else none
  | .failure i error post =>
    if s.running i then some (s.handleWorkerFailure post i error) else none
  | .exit i =>
    if s.running i then some { s with exited := Function.update s.exited i true } else none

/-! ### Runs of the pool -/

section Pool

variable {post : PostMessage} {s : WorkerPoolService} {i j : ℕ}

/-- A pass leaves a busy slot alone. -/
theorem processWorkerTasks_busy (hb : s.busy i = true) :
    WorkerPoolService.SameSlot s (s.processWorkerTasks post).1 i := by
  refine WorkerPoolService.processWorkerTasks_invariant
    (P := fun t => WorkerPoolService.SameSlot s t i) (fun t j w ht _ hidle => ?_) ⟨rfl, rfl, rfl⟩
  have hne : j ≠ i := by
    rintro rfl
    rw [ht.busy, hb] at hidle
    cases hidle
  have hsame := WorkerPoolService.dispatchTo_same post t hne
  exact ⟨hsame.worker.trans ht.worker, hsame.busy.trans ht.busy, hsame.assigned.trans ht.assigned⟩

/-- So does the answer of another slot's worker, with the pass it starts. -/
theorem processorHandleWorkerResult_busy (hij : j ≠ i) (hb : s.busy i = true) (result : WorkerMessage) :
    WorkerPoolService.SameSlot s (processorHandleWorkerResult post s j result).1 i := by
  have hrelease : WorkerPoolService.SameSlot s (s.release j) i :=
    ⟨by simp, by simp [hij], by simp [hij]⟩
  have hpass : WorkerPoolService.SameSlot (s.release j) ((s.release j).processWorkerTasks post).1 i :=
    processWorkerTasks_busy (hrelease.busy.trans hb)
  rw [WorkerPoolService.processorHandleWorkerResult_fst]
  exact ⟨hpass.worker.trans hrelease.worker, hpass.busy.trans hrelease.busy,
    hpass.assigned.trans hrelease.assigned⟩

/-- And so does the failure and replacement of another slot's worker. -/
theorem handleWorkerFailure_busy (hij : j ≠ i) (hb : s.busy i = true) (error : String) :
    WorkerPoolService.SameSlot s
      (s.handleWorkerFailure (some (processorHandleWorkerResult post)) j error).1 i := by
  cases hdown : s.shuttingDown with
  | true =>
    have hignored : s.handleWorkerFailure (some (processorHandleWorkerResult post)) j error = (s, []) := by
      simp [WorkerPoolService.handleWorkerFailure, hdown]
    rw [hignored]
    exact ⟨rfl, rfl, rfl⟩
  | false =>
    have hreport : WorkerPoolService.SameSlot s
        (s.reportFailure (some (processorHandleWorkerResult post)) j error).1 i := by
      unfold WorkerPoolService.reportFailure
      cases s.assigned j with
      | none => exact ⟨rfl, rfl, rfl⟩
      | some td => exact processorHandleWorkerResult_busy hij hb _
    rw [WorkerPoolService.handleWorkerFailure_fst _ hdown]
    exact ⟨by simp [hij, hreport.worker], by simp [hij, hreport.busy], by simp [hreport.assigned]⟩

/-- A slot with a worker keeps one. -/
theorem processWorkerTasks_isSome (h : (s.worker i).isSome = true) :
    ((s.processWorkerTasks post).1.worker i).isSome = true := by
  refine WorkerPoolService.processWorkerTasks_invariant (P := fun t => (t.worker i).isSome = true)
    (fun t j w ht _ _ => ?_) h
  by_cases hij : j = i
  · subst hij
    obtain ⟨-, hd⟩ | ⟨td, type, -, -, hd⟩ | ⟨td, type, thrown, -, -, hd⟩ :=
      WorkerPoolService.dispatchTo_cases post t j
    · rw [hd]
      exact ht
    · rw [hd]
      simp [WorkerPoolService.worker_assignTo, ht]
    · rw [hd]
      simpa using ht
  · rw [(WorkerPoolService.dispatchTo_same post t hij).worker]
    exact ht

theorem processorHandleWorkerResult_isSome (h : (s.worker i).isSome = true) (result : WorkerMessage) :
    ((processorHandleWorkerResult post s j result).1.worker i).isSome = true := by
  rw [WorkerPoolService.processorHandleWorkerResult_fst]
  exact processWorkerTasks_isSome (by simpa using h)

theorem handleWorkerFailure_isSome (h : (s.worker i).isSome = true) (error : String) :
    ((s.handleWorkerFailure (some (processorHandleWorkerResult post)) j error).1.worker i).isSome = true := by
  cases hdown : s.shuttingDown with
  | true => simpa [WorkerPoolService.handleWorkerFailure, hdown] using h
  | false =>
    have hreport : ((s.reportFailure (some (processorHandleWorkerResult post)) j error).1.worker i).isSome =
        true := by
      unfold WorkerPoolService.reportFailure
      cases s.assigned j with
      | none => exact h
      | some td => exact processorHandleWorkerResult_isSome h _
    rw [WorkerPoolService.handleWorkerFailure_fst _ hdown]
    simp only [WorkerPoolService.worker_createOrReplaceWorker, WorkerPoolService.worker_terminateWorker,
      WorkerPoolService.worker_setBusy]
    split
    · rfl
    · exact hreport

end Pool

/-- No step of the pool empties a slot. -/
theorem poolStep_isSome {s u : PoolRun} {e : PoolEvent} (hu : s.step e = some u) {i : ℕ}
    (h : (s.pool.worker i).isSome = true) : (u.pool.worker i).isSome = true := by
  cases e with
  | addTask td =>
    rw [PoolRun.step] at hu
    split at hu
    · cases hu
    · cases hu
      exact h
  | processWorkerTasks post =>
    simp only [PoolRun.step, Option.some.injEq] at hu
    subst hu
    exact processWorkerTasks_isSome h
  | failure j error post =>
    simp only [PoolRun.step, Option.some.injEq] at hu
    subst hu
    exact handleWorkerFailure_isSome h error
  | message j result post =>
    rw [PoolRun.step] at hu
    split at hu
    · cases hu
    · rename_i pool answered hsend
      simp only [Option.some.injEq] at hu
      subst hu
      obtain ⟨w, -, ⟨-, hinit, -, rfl⟩ | ⟨p, rest, -, -, hinit, hping, -, rfl⟩⟩ :=
        WorkerPoolService.send_cases hsend
      · rw [WorkerPoolService.onMessage_of_initialized hinit]
        simp only [WorkerPoolService.worker_setBusy, WorkerPoolService.worker_setWorker]
        split
        · rfl
        · exact h
      · rw [WorkerPoolService.onMessage_of_answer hinit hping]
        refine processorHandleWorkerResult_isSome ?_ result
        simp only [WorkerPoolService.worker_setWorker]
        split
        · rfl
        · exact h

/-- The step of the pool for a failure. -/
theorem failure_step (s : WatchedPool) (post : PostMessage) (index : ℕ) (error : String) :
    ∃ run, s.run.step (.failure index error post) = some run ∧
      run.pool = (s.run.pool.handleWorkerFailure (some (processorHandleWorkerResult post)) index error).1 :=
  ⟨_, rfl, rfl⟩

/-- A failure, while the pool is not shut down. -/
theorem handleWorkerFailure_eq {s : WatchedPool} (h : s.run.pool.shuttingDown = false)
    (post : PostMessage) (index : ℕ) (error : String) :
    ∃ run, s.run.step (.failure index error post) = some run ∧
      s.handleWorkerFailure post index error =
        { run := run
          pingTimeout := Function.update s.pingTimeout index false
          pings := Function.update s.pings index 0
          exited := Function.update s.exited index false } := by
  obtain ⟨run, hrun, -⟩ := failure_step s post index error
  refine ⟨run, hrun, ?_⟩
  unfold handleWorkerFailure
  rw [if_neg (by simp [h]), hrun]
  rfl

theorem handleWorkerFailure_refines (post : PostMessage) (s : WatchedPool) (index : ℕ) (error : String) :
    Reachable PoolRun.step s.run (s.handleWorkerFailure post index error).run := by
  unfold handleWorkerFailure
  split
  · exact .refl
  · obtain ⟨run, hrun, -⟩ := failure_step s post index error
    rw [hrun]
    exact Reaches.single trivial hrun

theorem checkWorker_refines (ping : ℕ → Option Thrown) (post : PostMessage) (s : WatchedPool) (i : ℕ) :
    Reachable PoolRun.step s.run (s.checkWorker ping post i).run := by
  unfold checkWorker
  split
  · exact .refl
  · split
    · exact .refl
    · split
      · exact .refl
      · split
        · exact .refl
        · exact handleWorkerFailure_refines post s i _

/-- What every check of one worker keeps, the health check keeps. -/
theorem healthCheck_rule {P : WatchedPool → Prop} {ping : ℕ → Option Thrown} {post : PostMessage}
    (hstep : ∀ s i, P s → P (s.checkWorker ping post i)) {s : WatchedPool} (h : P s) :
    P (s.healthCheck ping post) := by
  unfold healthCheck
  generalize List.range s.run.pool.workerPool.length = slots
  induction slots generalizing s with
  | nil => exact h
  | cons i slots ih => exact ih (hstep s i h)

/-- **A run of the watched pool is a run of the pool**: what holds of every run of the pool holds
with its health checks. -/
theorem step_refines {s u : WatchedPool} {e : HealthEvent} (hu : s.step e = some u) :
    Reachable PoolRun.step s.run u.run := by
  cases e with
  | addTask td | processWorkerTasks post =>
    rw [step, Option.map_eq_some_iff] at hu
    obtain ⟨run, hrun, rfl⟩ := hu
    exact Reaches.single trivial hrun
  | message i result post =>
    simp only [step] at hu
    split at hu
    · obtain ⟨run, hrun, rfl⟩ := Option.map_eq_some_iff.mp hu
      split
      · exact Reaches.single trivial hrun
      · exact Reaches.single trivial hrun
    · cases hu
  | pong i | exit i =>
    simp only [step] at hu
    split at hu
    · cases hu
      exact .refl
    · cases hu
  | healthCheck ping post =>
    cases hu
    exact healthCheck_rule (P := fun t => Reachable PoolRun.step s.run t.run)
      (fun t i ht => ht.trans (checkWorker_refines ping post t i)) .refl
  | pingTimeout i post | failure i error post =>
    simp only [step] at hu
    split at hu
    · cases hu
      exact handleWorkerFailure_refines post s i _
    · cases hu

theorem watched_refines {s u : WatchedPool} (h : Reachable step s u) : Reachable PoolRun.step s.run u.run :=
  h.invariant (P := fun t => Reachable PoolRun.step s.run t.run) .refl
    fun _ _ _ ht _ hu => ht.trans (step_refines hu)

/-! ### Timers and exited workers -/

/-- What holds in every state of a run: a timer is armed for a worker that owes a pong, and an
exited worker is in its slot. -/
structure Watched (s : WatchedPool) : Prop where
  shuttingDown : s.run.pool.shuttingDown = false
  traced : ∀ x, PoolRun.Traced s.run x
  owed : ∀ i, s.pingTimeout i = true → 0 < s.pings i
  exited : ∀ i, s.exited i = true → (s.run.pool.worker i).isSome = true

/-- What a run of the pool keeps. -/
theorem Watched.of_run {s u : WatchedPool} (h : Watched s) (hrun : Reachable PoolRun.step s.run u.run)
    (howed : ∀ i, u.pingTimeout i = true → 0 < u.pings i)
    (hexited : ∀ i, u.exited i = true → (s.run.pool.worker i).isSome = true) : Watched u := by
  obtain ⟨hdown, htraced, hsome⟩ := hrun.invariant
    (P := fun t => t.pool.shuttingDown = false ∧ (∀ x, PoolRun.Traced t x) ∧
      ∀ i, (s.run.pool.worker i).isSome = true → (t.pool.worker i).isSome = true)
    ⟨h.shuttingDown, h.traced, fun _ => id⟩ fun t e v ht _ hv => by
      refine ⟨?_, fun x => (ht.2.1 x).step hv, fun i hi => poolStep_isSome hv (ht.2.2 i hi)⟩
      obtain ⟨td, -, rfl⟩ | ⟨-, hdown, -⟩ := PoolRun.step_cases hv
      · exact ht.1
      · exact hdown.trans ht.1
  exact ⟨hdown, htraced, howed, fun i hi => hsome i (hexited i hi)⟩

theorem Watched.clearPingTimeout {s : WatchedPool} (h : Watched s) (index : ℕ) :
    Watched (s.clearPingTimeout index) := by
  refine h.of_run .refl (fun i hi => ?_) h.exited
  simp only [WatchedPool.clearPingTimeout, Function.update_apply] at hi
  split at hi
  · cases hi
  · exact h.owed i hi

theorem Watched.handleWorkerFailure {s : WatchedPool} (h : Watched s) (post : PostMessage) (index : ℕ)
    (error : String) : Watched (s.handleWorkerFailure post index error) := by
  refine h.of_run (handleWorkerFailure_refines post s index error) (fun i hi => ?_) fun i hi => ?_
  · obtain ⟨run, -, heq⟩ := handleWorkerFailure_eq h.shuttingDown post index error
    rw [heq] at hi ⊢
    simp only [Function.update_apply] at hi ⊢
    split at hi
    · cases hi
    · rename_i hne
      rw [if_neg hne]
      exact h.owed i hi
  · obtain ⟨run, -, heq⟩ := handleWorkerFailure_eq h.shuttingDown post index error
    rw [heq] at hi
    simp only [Function.update_apply] at hi
    split at hi
    · cases hi
    · exact h.exited i hi

theorem Watched.checkWorker {s : WatchedPool} (h : Watched s) (ping : ℕ → Option Thrown)
    (post : PostMessage) (i : ℕ) : Watched (s.checkWorker ping post i) := by
  unfold WatchedPool.checkWorker
  split
  · exact h
  · split
    · exact h
    · split
      · exact h
      · split
        · refine h.of_run .refl (fun j hj => ?_) h.exited
          simp only [Function.update_apply] at hj ⊢
          split
          · exact Nat.succ_pos _
          · rename_i hne
            rw [if_neg hne] at hj
            exact h.owed j hj
        · exact h.handleWorkerFailure post i _

/-- Every step keeps the timers with the workers they were armed for. -/
theorem Watched.step {s u : WatchedPool} {e : HealthEvent} (h : Watched s) (hu : s.step e = some u) :
    Watched u := by
  have hrefines := step_refines hu
  cases e with
  | addTask td | processWorkerTasks post =>
    rw [WatchedPool.step, Option.map_eq_some_iff] at hu
    obtain ⟨run, hrun, rfl⟩ := hu
    exact h.of_run hrefines h.owed h.exited
  | message i result post =>
    simp only [WatchedPool.step] at hu
    split at hu
    · obtain ⟨run, hrun, rfl⟩ := Option.map_eq_some_iff.mp hu
      have hrun : Watched { s with run := run } :=
        h.of_run (Reaches.single trivial hrun) h.owed h.exited
      split
      · exact hrun
      · exact hrun.clearPingTimeout i
    · cases hu
  | pong i =>
    simp only [WatchedPool.step] at hu
    split at hu
    · cases hu
      refine h.of_run .refl (fun j hj => ?_) h.exited
      simp only [WatchedPool.clearPingTimeout, Function.update_apply] at hj ⊢
      split at hj
      · cases hj
      · rename_i hne
        rw [if_neg hne]
        exact h.owed j hj
    · cases hu
  | healthCheck ping post =>
    cases hu
    exact healthCheck_rule (fun t i ht => ht.checkWorker ping post i) h
  | pingTimeout i post | failure i error post =>
    simp only [WatchedPool.step] at hu
    split at hu
    · cases hu
      exact h.handleWorkerFailure post i _
    · cases hu
  | exit i =>
    simp only [WatchedPool.step] at hu
    split at hu
    · rename_i hrunning
      cases hu
      refine h.of_run .refl h.owed fun j hj => ?_
      simp only [Function.update_apply] at hj
      split at hj
      · rename_i hji
        subst hji
        exact (Bool.and_eq_true_iff.mp hrunning).1
      · exact h.exited j hj
    · cases hu

theorem Watched.of_reachable {workerCount : ℕ} {cpu memory custom : Option ℕ} {s : WatchedPool}
    (h : Reachable WatchedPool.step (initial workerCount cpu memory custom) s) : Watched s := by
  have hledger := PoolRun.Ledger.initial workerCount cpu memory custom
  refine h.invariant ⟨?_, fun x => ?_, fun i hi => ?_, fun i hi => ?_⟩ fun _ _ _ hs _ hu => hs.step hu
  · exact hledger.running.shuttingDown
  · exact ⟨hledger.once x, hledger.pending x, (hledger.assigned x).le, hledger.main x⟩
  · cases hi
  · cases hi

/-! ### Slots that are lost -/

/-- The worker of the slot has exited while the slot was busy, and no timer is armed for it. -/
structure Stuck (i : ℕ) (taskData : Option WorkerTaskData) (s : WatchedPool) : Prop where
  exited : s.exited i = true
  busy : s.run.pool.busy i = true
  unarmed : s.pingTimeout i = false
  assigned : s.run.pool.assigned i = taskData

/-- What leaves the slot alone keeps it stuck. -/
theorem Stuck.of_same {i : ℕ} {td : Option WorkerTaskData} {s u : WatchedPool} (h : Stuck i td s)
    (hsame : WorkerPoolService.SameSlot s.run.pool u.run.pool i) (hexited : u.exited i = s.exited i)
    (hunarmed : u.pingTimeout i = s.pingTimeout i) : Stuck i td u :=
  ⟨hexited.trans h.exited, hsame.busy.trans h.busy, hunarmed.trans h.unarmed,
    hsame.assigned.trans h.assigned⟩

theorem Stuck.handleWorkerFailure {i j : ℕ} {td : Option WorkerTaskData} {s : WatchedPool} (h : Stuck i td s)
    (hij : j ≠ i) (post : PostMessage) (error : String) : Stuck i td (s.handleWorkerFailure post j error) := by
  unfold WatchedPool.handleWorkerFailure
  split
  · exact h
  · obtain ⟨run, hrun, hpool⟩ := failure_step s post j error
    rw [hrun]
    refine h.of_same ?_ (Function.update_of_ne hij.symm _ _) (Function.update_of_ne hij.symm _ _)
    dsimp only
    rw [hpool]
    exact handleWorkerFailure_busy hij h.busy error

theorem Stuck.checkWorker {i : ℕ} {td : Option WorkerTaskData} {s : WatchedPool} (h : Stuck i td s)
    (ping : ℕ → Option Thrown) (post : PostMessage) (j : ℕ) : Stuck i td (s.checkWorker ping post j) := by
  by_cases hij : j = i
  · subst hij
    unfold WatchedPool.checkWorker
    rw [if_pos h.busy, ite_self]
    exact h
  · unfold WatchedPool.checkWorker
    split
    · exact h
    · split
      · exact h
      · split
        · exact h
        · split
          · exact h.of_same ⟨rfl, rfl, rfl⟩ rfl (Function.update_of_ne (Ne.symm hij) _ _)
          · exact h.handleWorkerFailure hij post _

/-- **A stuck slot stays stuck**: its worker sends nothing, no check pings a busy slot, and no other
slot's event touches it. -/
theorem Stuck.step {i : ℕ} {td : Option WorkerTaskData} {s u : WatchedPool} {e : HealthEvent}
    (h : Stuck i td s) (hu : s.step e = some u) : Stuck i td u := by
  have hrunning : ∀ {j}, s.running j = true → j ≠ i := by
    rintro j hj rfl
    simp [running, h.exited] at hj
  cases e with
  | addTask td' =>
    rw [WatchedPool.step, Option.map_eq_some_iff] at hu
    obtain ⟨run, hrun, rfl⟩ := hu
    rw [PoolRun.step] at hrun
    split at hrun
    · cases hrun
    · cases hrun
      exact h.of_same ⟨rfl, rfl, rfl⟩ rfl rfl
  | processWorkerTasks post =>
    cases hu
    exact h.of_same (processWorkerTasks_busy h.busy) rfl rfl
  | message j result post =>
    simp only [WatchedPool.step] at hu
    split at hu
    · rename_i hj
      have hij := hrunning hj
      obtain ⟨run, hrun, rfl⟩ := Option.map_eq_some_iff.mp hu
      have hsame : WorkerPoolService.SameSlot s.run.pool run.pool i := by
        rw [PoolRun.step] at hrun
        split at hrun
        · cases hrun
        · rename_i pool answered hsend
          simp only [Option.some.injEq] at hrun
          subst hrun
          obtain ⟨w, -, ⟨-, hinit, -, rfl⟩ | ⟨p, rest, -, -, hinit, hping, -, rfl⟩⟩ :=
            WorkerPoolService.send_cases hsend
          · rw [WorkerPoolService.onMessage_of_initialized hinit]
            exact ⟨by simp [hij], by simp [hij], by simp⟩
          · rw [WorkerPoolService.onMessage_of_answer hinit hping]
            have hbusy : (s.run.pool.setWorker j { w with unanswered := rest }).busy i = true := by
              simp [h.busy]
            have hanswer : WorkerPoolService.SameSlot _ (processorHandleWorkerResult post
                (s.run.pool.setWorker j { w with unanswered := rest }) j result).1 i :=
              processorHandleWorkerResult_busy hij hbusy result
            exact ⟨by simpa [hij] using hanswer.worker, by simpa using hanswer.busy,
              by simpa using hanswer.assigned⟩
      split
      · exact h.of_same hsame rfl rfl
      · exact h.of_same hsame rfl (Function.update_of_ne hij.symm _ _)
    · cases hu
  | pong j =>
    simp only [WatchedPool.step] at hu
    split at hu
    · rename_i hj
      cases hu
      have hij := hrunning (Bool.and_eq_true_iff.mp hj).1
      exact h.of_same ⟨rfl, rfl, rfl⟩ rfl (Function.update_of_ne hij.symm _ _)
    · cases hu
  | healthCheck ping post =>
    cases hu
    exact healthCheck_rule (P := Stuck i td) (fun t j ht => ht.checkWorker ping post j) h
  | pingTimeout j post =>
    simp only [WatchedPool.step] at hu
    split at hu
    · rename_i hj
      cases hu
      have hij : j ≠ i := by
        rintro rfl
        rw [h.unarmed] at hj
        cases hj
      exact h.handleWorkerFailure hij post _
    · cases hu
  | failure j error post =>
    simp only [WatchedPool.step] at hu
    split at hu
    · rename_i hj
      cases hu
      exact h.handleWorkerFailure (hrunning hj) post error
    · cases hu
  | exit j =>
    simp only [WatchedPool.step] at hu
    split at hu
    · rename_i hj
      cases hu
      exact h.of_same ⟨rfl, rfl, rfl⟩ (Function.update_of_ne (hrunning hj).symm _ _) rfl
    · cases hu

/-- A task that a stuck slot has is never settled. -/
theorem Stuck.unsettled {i : ℕ} {td : WorkerTaskData} {s : WatchedPool} (h : Stuck i (some td) s)
    (hs : Watched s) : weight (Call.settled td.task.id) s.run.log = 0 := by
  have hle := JsMap.le_weightOf_of_get? (isTaskData td.task.id) h.assigned
  have hself : isTaskData td.task.id td = 1 := if_pos rfl
  have hsettled := weight_settled td.task.id s.run.log
  obtain ⟨honce, hpending, hassigned, hmain⟩ := hs.traced td.task.id
  omega

/-! ### Exited workers that are replaced -/

/-- A health check whose pings can be posted arms the timer of an idle slot, and replaces nothing. -/
theorem healthCheck_arms {s : WatchedPool} {i : ℕ} (hsome : (s.run.pool.worker i).isSome = true)
    (hidle : s.run.pool.busy i = false) (post : PostMessage) :
    (s.healthCheck (fun _ => none) post).pingTimeout i = true ∧
      (s.healthCheck (fun _ => none) post).run = s.run := by
  have hfold : ∀ (slots : List ℕ) (t : WatchedPool), t.run = s.run →
      (i ∈ slots ∨ t.pingTimeout i = true) →
      (slots.foldl (checkWorker (fun _ => none) post) t).pingTimeout i = true ∧
        (slots.foldl (checkWorker (fun _ => none) post) t).run = s.run := by
    intro slots
    induction slots with
    | nil =>
      rintro t ht (hmem | harmed)
      · cases hmem
      · exact ⟨harmed, ht⟩
    | cons j slots ih =>
      intro t ht hi
      have hrun : (t.checkWorker (fun _ => none) post j).run = s.run := by
        unfold checkWorker
        split
        · exact ht
        · split
          · exact ht
          · split <;> exact ht
      refine ih _ hrun ?_
      by_cases hij : j = i
      · -- the check of the slot itself
        subst hij
        right
        unfold checkWorker
        rw [ht, if_neg (by simp [Option.isNone_iff_eq_none, Option.isSome_iff_ne_none.mp hsome]),
          if_neg (by simp [hidle])]
        split
        · assumption
        · exact Function.update_self _ _ _
      · refine hi.imp (fun hmem => ?_) fun harmed => ?_
        · exact List.mem_of_ne_of_mem (Ne.symm hij) hmem
        · unfold checkWorker
          split
          · exact harmed
          · split
            · exact harmed
            · split
              · exact harmed
              · exact (Function.update_of_ne (Ne.symm hij) _ _).trans harmed
  refine hfold _ s rfl (.inl (List.mem_range.mpr ?_))
  by_contra hge
  have hnone : s.run.pool.worker i = none := by
    simp [WorkerPoolService.worker, JsArray.read, List.getElem?_eq_none (Nat.le_of_not_lt hge)]
  rw [hnone] at hsome
  cases hsome

/-- **Which exited workers are replaced.** In every state reachable before the shutdown, a worker that
has exited with code 0 can still be replaced exactly when its slot has a ping timer or is idle; where
neither is so, the slot keeps its task in every later state, and the task is never settled. -/
theorem recovers_iff {workerCount : ℕ} {cpu memory custom : Option ℕ} {s : WatchedPool}
    (h : Reachable step (initial workerCount cpu memory custom) s) {i : ℕ} (hexited : s.exited i = true) :
    ((∃ u, Reachable step s u ∧ u.exited i = false) ↔
        s.pingTimeout i = true ∨ s.run.pool.busy i = false) ∧
      (s.pingTimeout i = false → s.run.pool.busy i = true → ∀ u, Reachable step s u →
        ∀ td, s.run.pool.assigned i = some td →
          u.run.pool.assigned i = some td ∧ weight (Call.settled td.task.id) u.run.log = 0) := by
  have hs := Watched.of_reachable h
  have hstuck : s.pingTimeout i = false → s.run.pool.busy i = true → ∀ u, Reachable step s u →
      Stuck i (s.run.pool.assigned i) u := fun hunarmed hbusy u hu =>
    hu.invariant ⟨hexited, hbusy, hunarmed, rfl⟩ fun _ _ _ ht _ hv => ht.step hv
  have hfires : ∀ t, Watched t → t.pingTimeout i = true →
      ∃ u, step t (.pingTimeout i fun _ => none) = some u ∧ u.exited i = false := by
    intro t ht harmed
    obtain ⟨run, -, heq⟩ := handleWorkerFailure_eq ht.shuttingDown (fun _ => none) i pingTimeoutMessage
    refine ⟨t.handleWorkerFailure (fun _ => none) i pingTimeoutMessage, ?_, ?_⟩
    · simp only [step, harmed, if_true]
    · rw [heq]
      exact Function.update_self _ _ _
  refine ⟨⟨?_, ?_⟩, fun hunarmed hbusy u hu td htd => ?_⟩
  · rintro ⟨u, hu, hreplaced⟩
    by_contra hneither
    simp only [not_or, Bool.not_eq_true, Bool.not_eq_false] at hneither
    have := (hstuck hneither.1 hneither.2 u hu).exited
    rw [hreplaced] at this
    cases this
  · rintro (harmed | hidle)
    · obtain ⟨u, hu, hreplaced⟩ := hfires s hs harmed
      exact ⟨u, Reaches.single trivial hu, hreplaced⟩
    · -- the next check arms the timer
      have hchecked : step s (.healthCheck (fun _ => none) fun _ => none) =
          some (s.healthCheck (fun _ => none) fun _ => none) := rfl
      obtain ⟨u, hu, hreplaced⟩ := hfires _ (hs.step hchecked)
        (healthCheck_arms (hs.exited i hexited) hidle fun _ => none).1
      exact ⟨u, (Reaches.single trivial hchecked).next _ trivial hu, hreplaced⟩
  · have hlater := hstuck hunarmed hbusy u hu
    rw [htd] at hlater
    exact ⟨hlater.assigned, hlater.unsettled (Watched.of_reachable (h.trans hu))⟩

/-- A worker that exits while it runs a task. -/
theorem recovers_iff_of_busy : ∃ s, Reachable step (initial 1 none none none) s ∧
    s.run.pool.busy 0 = true ∧ ¬ ∃ u, Reachable step s u ∧ u.exited 0 = false := by
  obtain ⟨s, hs, hseen⟩ := exists_reaches_of_runEvents step (fun _ _ => True)
    (fun s => (s.exited 0, s.pingTimeout 0, s.run.pool.busy 0)) (s := initial 1 none none none)
    [.addTask (PoolRun.cpuTask 1), .message 0 { initialized := true } fun _ => none,
      .processWorkerTasks fun _ => none, .exit 0] (true, false, true) (by decide +kernel)
  simp only [Prod.mk.injEq] at hseen
  refine ⟨s, hs, hseen.2.2, fun hrecovers => ?_⟩
  obtain harmed | hidle := (recovers_iff hs hseen.1).1.mp hrecovers
  · rw [hseen.2.1] at harmed
    cases harmed
  · rw [hseen.2.2] at hidle
    cases hidle

end WatchedPool

end BulkTraffic.Queue
