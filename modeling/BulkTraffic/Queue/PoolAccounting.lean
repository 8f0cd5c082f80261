import BulkTraffic.Queue.PoolRuns
import BulkTraffic.Queue.PoolTurns

/-!
# The accounting of the worker pool, and its failures

What holds of the pool in every state of its runs.

* `accounting`: a slot is busy when it has a task, its worker owes at most one answer, and
  the counters of active tasks count the assigned tasks and stay within their limits.
* `failure_losesNothing_iff`: when the failure of a worker loses no task.

Two steps break both. An `initialized` message marks its slot idle although the worker has
been given a task. And `handleWorkerFailure` reports the failure before it replaces the
worker: the report frees the slot and starts a pass, and where this pass reaches the slot
with a pending task, the task is posted to the worker about to be terminated and stays
assigned to a slot that is then marked idle (`strandsTask`). `Undisturbed` says of a step
that it does neither; a step from a state in agreement keeps the agreement exactly when it
is undisturbed.
-/

namespace BulkTraffic.Queue

open BulkTraffic.Lib BulkTraffic.Js

namespace WorkerPoolService

/-- What the pool's representations of its running tasks have to agree on. -/
structure Accounting (s : WorkerPoolService) : Prop where
  /-- A slot is busy when a task is assigned to it. -/
  busy : ∀ i, s.busy i = true ↔ (s.assigned i).isSome
  /-- A live worker owes at most one answer. -/
  unansweredOnce : ∀ i w, s.worker i = some w → w.unanswered.length ≤ 1
  /-- `activeByType` counts the assigned tasks of each type. -/
  active : ∀ t, s.router.activeByType t = s.assignedOfType t
  /-- As many messages of each type wait for an answer of a live worker. -/
  unanswered : ∀ t, s.assignedOfType t = s.unansweredOfType t
  /-- The limits are kept. -/
  limit : ∀ t, s.router.activeByType t ≤ s.router.limits t

theorem Accounted.toAccounting {s : WorkerPoolService} (h : Accounted none s) : Accounting s where
  busy i := by rw [(h.slots i (by simp)).busy]
  unansweredOnce i w hw := by
    have := congrArg List.length ((h.slots i (by simp)).unanswered w hw)
    simp only [List.length_map] at this
    rw [this]
    cases s.assigned i <;> simp
  active := h.active
  unanswered t := by simpa using (h.unanswered t).symm
  limit := h.limit

/-! ### Passes that leave a slot alone, or give it a task -/

/-- A pass that gives an idle slot without a task nothing leaves it as it is. -/
theorem processSlots_same {post : PostMessage} {i : ℕ} (is : List ℕ) {s : WorkerPoolService}
    (hb : s.busy i = false) (ha : s.assigned i = none) (hg : givesTaskTo post i is s = false) :
    SameSlot s (processSlots post is s).1 i := by
  induction is generalizing s with
  | nil => exact ⟨rfl, rfl, rfl⟩
  | cons j is ih =>
    simp only [processSlots]
    simp only [givesTaskTo] at hg
    split
    · rename_i hidle
      rw [if_pos hidle] at hg
      exact ih hb ha hg
    · rename_i hidle
      rw [if_neg hidle] at hg
      split
      · exact ⟨rfl, rfl, rfl⟩
      · rename_i hq
        rw [if_neg hq, Bool.or_eq_false_iff] at hg
        have hsame : SameSlot s (s.dispatchTo post j).1 i := by
          by_cases hij : j = i
          · subst hij
            exact (dispatchTo_takes_not (by simpa using hg.1) hb ha).1
          · exact dispatchTo_same post s hij
        have hrest := ih (by rw [hsame.busy]; exact hb) (by rw [hsame.assigned]; exact ha) hg.2
        exact ⟨hrest.worker.trans hsame.worker, hrest.busy.trans hsame.busy,
          hrest.assigned.trans hsame.assigned⟩

theorem processWorkerTasks_same {post : PostMessage} {i : ℕ} {s : WorkerPoolService}
    (hb : s.busy i = false) (ha : s.assigned i = none) (hg : s.passGivesTaskTo post i = false) :
    SameSlot s (s.processWorkerTasks post).1 i := by
  unfold processWorkerTasks
  split
  · exact ⟨rfl, rfl, rfl⟩
  · rename_i hc
    rw [passGivesTaskTo, if_neg hc] at hg
    exact processSlots_same _ hb ha hg

/-- A slot that a pass gives a task has one after it. -/
theorem processSlots_assigned {post : PostMessage} {i : ℕ} (is : List ℕ) {s : WorkerPoolService}
    (hg : givesTaskTo post i is s = true) : ((processSlots post is s).1.assigned i).isSome := by
  induction is generalizing s with
  | nil => simp [givesTaskTo] at hg
  | cons j is ih =>
    simp only [processSlots]
    simp only [givesTaskTo] at hg
    split
    · rename_i hidle
      rw [if_pos hidle] at hg
      exact ih hg
    · rename_i hidle
      rw [if_neg hidle] at hg
      split
      · rename_i hq
        simp [hq] at hg
      · rename_i hq
        simp only [if_neg hq, Bool.or_eq_true, Bool.and_eq_true, decide_eq_true_eq] at hg
        rcases hg with ⟨rfl, ht⟩ | hg
        · -- the slot is busy from here on, and no dispatch touches it
          obtain ⟨td, type, -, hd⟩ := dispatchTo_takes j ht
          refine (processSlots_invariant (P := fun u => u.busy j = true ∧ (u.assigned j).isSome)
            (fun u k w hu _ hk => ?_) is (s := (s.dispatchTo post j).1) (by simp [hd])).2
          have hkj : k ≠ j := by
            rintro rfl
            rw [hu.1] at hk
            cases hk
          have hsame := dispatchTo_same post u hkj
          rw [hsame.busy, hsame.assigned]
          exact hu
        · exact ih hg

theorem processWorkerTasks_assigned {post : PostMessage} {i : ℕ} {s : WorkerPoolService}
    (hg : s.passGivesTaskTo post i = true) : ((s.processWorkerTasks post).1.assigned i).isSome := by
  unfold processWorkerTasks
  split
  · rename_i hc
    rw [passGivesTaskTo, if_pos hc] at hg
    cases hg
  · rename_i hc
    rw [passGivesTaskTo, if_neg hc] at hg
    exact processSlots_assigned _ hg

/-- A task is assigned to a slot with a worker. -/
theorem Accounted.strandsTask_eq {s : WorkerPoolService} (h : Accounted none s)
    (huse : s.useWorkers = true) (post : PostMessage) (i : ℕ) :
    strandsTask post s i = ((s.assigned i).isSome && (s.release i).passGivesTaskTo post i) := by
  cases hw : s.worker i with
  | none =>
    rw [strandsTask, (h.slots i (by simp)).live hw]
    rfl
  | some w => exact WorkerPoolService.strandsTask_eq huse (by rw [hw]; rfl)

/-- The pool after the report of a failure that strands no task: in agreement but for the
failed worker's slot, which is idle and whose worker is as before. -/
theorem reportFailure_accounted {s : WorkerPoolService} (h : Accounted none s)
    (huse : s.useWorkers = true) {post : PostMessage} {i : ℕ} (hs : strandsTask post s i = false)
    (error : String) :
    Accounted (some i) (s.reportFailure (some (processorHandleWorkerResult post)) i error).1 ∧
      (s.reportFailure (some (processorHandleWorkerResult post)) i error).1.busy i = false ∧
      (s.reportFailure (some (processorHandleWorkerResult post)) i error).1.worker i = s.worker i := by
  rw [reportFailure_fst]
  split
  · rename_i ha
    have hg : (s.release i).passGivesTaskTo post i = false := by
      rwa [h.strandsTask_eq huse, ha, Bool.true_and] at hs
    have hsame := processWorkerTasks_same (s := s.release i) (by simp) (by simp) hg
    refine ⟨processWorkerTasks_accounted (h.release i) fun j hj => ?_, ?_, ?_⟩
    · cases hj
      exact hg
    · rw [hsame.busy]; simp
    · rw [hsame.worker]; simp
  · rename_i ha
    have ha' : s.assigned i = none := by simpa using ha
    exact ⟨h.leaveOut ha', by rw [(h.slots i (by simp)).busy, ha']; rfl, rfl⟩

/-- Replacing the worker of the idle slot left out completes the accounting. -/
theorem Accounted.replace {s : WorkerPoolService} {i : ℕ} (h : Accounted (some i) s)
    (hb : s.busy i = false) :
    Accounted none (((s.setBusy i false).terminateWorker i).createOrReplaceWorker i) := by
  have hfree : Accounted (some i) ((s.setBusy i false).terminateWorker i) := by
    refine h.congr rfl (fun j => ?_) rfl rfl
    by_cases hij : i = j
    · subst hij; simp [hb]
    · simp [hij]
  refine (hfree.close (by simp) (w := {}) rfl).congr rfl (fun j => ?_) rfl rfl
  by_cases hij : i = j
  · subst hij; simp [createOrReplaceWorker]
  · simp [createOrReplaceWorker, hij]

/-- The pool as created: no task anywhere. -/
theorem Accounted.initial (workerCount : ℕ) (cpu memory custom : Option ℕ) :
    Accounted none (initWorkerPool
      { useWorkers := true, router := .create workerCount cpu memory custom } workerCount) := by
  refine (initWorkerPool_invariant (P := fun s => Accounted none s ∧ s.assignedTasks = .empty)
    (fun s i h => ⟨?_, h.2⟩) ⟨?_, rfl⟩ workerCount).1
  · have ha : s.assigned i = none := by simp [WorkerPoolService.assigned, h.2]
    have hb : s.busy i = false := by rw [(h.1.slots i (by simp)).busy, ha]; rfl
    refine ((h.1.leaveOut ha).close hb (w := {}) rfl).congr rfl (fun j => ?_) rfl rfl
    by_cases hij : i = j
    · subst hij; simp [hb]
    · simp [hij]
  · refine ⟨fun i _ => .of_idle rfl rfl (by simp [worker]), fun i _ => rfl, fun i td h => ?_,
      fun t => rfl, fun t => rfl, fun t => Nat.zero_le _⟩
    cases h

theorem handleWorkerFailure_accounted {s : WorkerPoolService} (h : Accounted none s)
    (huse : s.useWorkers = true) (hd : s.shuttingDown = false) {post : PostMessage} {i : ℕ}
    (hs : strandsTask post s i = false) (error : String) :
    Accounted none (s.handleWorkerFailure (some (processorHandleWorkerResult post)) i error).1 := by
  obtain ⟨hacc, hb, -⟩ := reportFailure_accounted h huse hs error
  rw [handleWorkerFailure_fst _ hd]
  exact hacc.replace hb

/-- A failure that strands a task leaves its slot idle with that task. -/
theorem handleWorkerFailure_strands {s : WorkerPoolService} (h : Accounted none s)
    (huse : s.useWorkers = true) (hd : s.shuttingDown = false) {post : PostMessage} {i : ℕ}
    (hs : strandsTask post s i = true) (error : String) :
    (s.handleWorkerFailure (some (processorHandleWorkerResult post)) i error).1.busy i = false ∧
      ((s.handleWorkerFailure (some (processorHandleWorkerResult post)) i error).1.assigned i).isSome := by
  rw [h.strandsTask_eq huse, Bool.and_eq_true] at hs
  rw [handleWorkerFailure_fst _ hd, reportFailure_fst, if_pos hs.1]
  exact ⟨by simp, by simpa using processWorkerTasks_assigned hs.2⟩

/-! ### Posted tasks are assigned or settled -/

/-- The calls settle and post exactly the tasks by which the assignments change. -/
def Keeps (s s' : WorkerPoolService) (calls : List Call) : Prop :=
  ∀ x, s'.assignedTasks.weightOf (isTaskData x) + weight (Call.settledByWorker x) calls =
    s.assignedTasks.weightOf (isTaskData x) + weight (Call.posted x) calls

theorem Keeps.trans {s t u : WorkerPoolService} {c c' : List Call} (h : Keeps s t c)
    (h' : Keeps t u c') : Keeps s u (c ++ c') := by
  intro x
  have h₁ := h x
  have h₂ := h' x
  simp only [weight_append]
  omega

theorem Keeps.congr {s u t : WorkerPoolService} {c : List Call} (h : Keeps s u c)
    (ha : t.assignedTasks = u.assignedTasks) : Keeps s t c := by
  intro x
  rw [ha]
  exact h x

theorem processWorkerTasks_keeps (post : PostMessage) {s : WorkerPoolService}
    (h : ∀ i, s.busy i = false → s.assigned i = none) :
    Keeps s (s.processWorkerTasks post).1 (s.processWorkerTasks post).2 := by
  unfold processWorkerTasks
  split
  · intro x; rfl
  · exact fun x => processSlots_keeps post _ h x

theorem handleWorkerResult_keeps (s : WorkerPoolService) (i : ℕ) (result : WorkerMessage) :
    Keeps s (s.release i) (s.handleWorkerResult i result).2 := by
  intro x
  cases h : s.assigned i with
  | none =>
    simp [handleWorkerResult_calls_of_none h, JsMap.delete_of_none h]
  | some td =>
    have := s.assignedTasks.weightOf_delete_of_some (isTaskData x) h
    rw [handleWorkerResult_calls_of_some h]
    split <;> simpa using this

theorem release_idle {s : WorkerPoolService} (h : ∀ i, s.busy i = false → s.assigned i = none)
    (i : ℕ) : ∀ j, (s.release i).busy j = false → (s.release i).assigned j = none := by
  intro j hj
  by_cases hij : i = j
  · simp [hij]
  · simp only [release_busy, if_neg hij] at hj
    simp [hij, h j hj]

theorem processorHandleWorkerResult_keeps (post : PostMessage) {s : WorkerPoolService}
    (h : ∀ i, s.busy i = false → s.assigned i = none) (i : ℕ) (result : WorkerMessage) :
    Keeps s (processorHandleWorkerResult post s i result).1
      (processorHandleWorkerResult post s i result).2 := by
  rw [processorHandleWorkerResult_fst, processorHandleWorkerResult_snd]
  exact (handleWorkerResult_keeps s i result).trans (processWorkerTasks_keeps post (release_idle h i))

theorem handleWorkerFailure_keeps (post : PostMessage) {s : WorkerPoolService}
    (h : ∀ i, s.busy i = false → s.assigned i = none) (i : ℕ) (error : String) :
    Keeps s (s.handleWorkerFailure (some (processorHandleWorkerResult post)) i error).1
      (s.handleWorkerFailure (some (processorHandleWorkerResult post)) i error).2 := by
  unfold handleWorkerFailure
  split
  · intro x; rfl
  · refine Keeps.congr (u := (s.reportFailure (some (processorHandleWorkerResult post)) i error).1) ?_ rfl
    unfold reportFailure
    cases s.assigned i with
    | none => intro x; rfl
    | some td => exact processorHandleWorkerResult_keeps post h i _

/-! ### The pool keeps running -/

theorem processorHandleWorkerResult_shuttingDown (post : PostMessage) (s : WorkerPoolService)
    (i : ℕ) (result : WorkerMessage) :
    (processorHandleWorkerResult post s i result).1.shuttingDown = s.shuttingDown := by
  rw [processorHandleWorkerResult_fst]
  exact ((release_frame s i).trans (processWorkerTasks_frame post _)).shuttingDown

theorem reportFailure_frame (post : PostMessage) (s : WorkerPoolService) (i : ℕ) (error : String) :
    SameFrame s (s.reportFailure (some (processorHandleWorkerResult post)) i error).1 := by
  rw [reportFailure_fst]
  split
  · exact (release_frame s i).trans (processWorkerTasks_frame post _)
  · exact .refl s

theorem handleWorkerFailure_shuttingDown (post : PostMessage) (s : WorkerPoolService) (i : ℕ)
    (error : String) :
    (s.handleWorkerFailure (some (processorHandleWorkerResult post)) i error).1.shuttingDown =
      s.shuttingDown := by
  cases hd : s.shuttingDown with
  | true => simp [handleWorkerFailure, hd]
  | false =>
    rw [handleWorkerFailure_fst _ hd]
    exact (reportFailure_frame post s i error).shuttingDown.trans hd

end WorkerPoolService

namespace PoolRun

open WorkerPoolService

/-- The pool is in use. -/
structure Running (s : PoolRun) : Prop where
  useWorkers : s.pool.useWorkers = true
  shuttingDown : s.pool.shuttingDown = false

theorem running_step {s t : PoolRun} {e : PoolEvent} (hs : Running s) (h : s.step e = some t) :
    Running t := by
  obtain ⟨huse, hrun⟩ := hs
  have hframe : ∀ {p : WorkerPoolService}, SameFrame s.pool p →
      p.useWorkers = true ∧ p.shuttingDown = false := fun hp =>
    ⟨hp.useWorkers.trans huse, hp.shuttingDown.trans hrun⟩
  cases e with
  | addTask td =>
    simp only [step] at h
    split at h
    · cases h
    · cases h
      exact ⟨huse, hrun⟩
  | processWorkerTasks post =>
    simp only [step, Option.some.injEq] at h
    subst h
    obtain ⟨huse', hrun'⟩ := hframe (processWorkerTasks_frame post s.pool)
    exact ⟨huse', hrun'⟩
  | message i result post =>
    simp only [step] at h
    split at h
    · cases h
    · rename_i pool answered hsend
      cases h
      obtain ⟨w, hw, ⟨-, hinit, -, rfl⟩ | ⟨p, rest, -, -, hinit, hping, -, rfl⟩⟩ := send_cases hsend
      · rw [onMessage_of_initialized hinit]
        exact ⟨huse, hrun⟩
      · rw [onMessage_of_answer hinit hping, processorHandleWorkerResult_fst, release_setWorker]
        have hpass := processWorkerTasks_frame post ((s.pool.release i).setWorker i { w with unanswered := rest })
        have hrelease := release_frame s.pool i
        exact ⟨(hpass.useWorkers.trans hrelease.useWorkers).trans huse,
          (hpass.shuttingDown.trans hrelease.shuttingDown).trans hrun⟩
  | failure i error post =>
    simp only [step, Option.some.injEq] at h
    subst h
    obtain ⟨huse', hrun'⟩ := hframe (reportFailure_frame post s.pool i error)
    refine ⟨?_, ?_⟩
    · dsimp only
      rw [handleWorkerFailure_fst _ hrun]
      exact huse'
    · dsimp only
      rw [handleWorkerFailure_fst _ hrun]
      exact hrun'

theorem running_initial (workerCount : ℕ) (cpu memory custom : Option ℕ) :
    Running (initial workerCount cpu memory custom) where
  useWorkers :=
    initWorkerPool_invariant (P := fun s => s.useWorkers = true) (fun _ _ h => h) rfl workerCount
  shuttingDown :=
    initWorkerPool_invariant (P := fun s => s.shuttingDown = false) (fun _ _ h => h) rfl workerCount

/-- No failure strands a task. -/
def StrandsNothing (s : PoolRun) : PoolEvent → Prop
  | .failure i _ post => strandsTask post s.pool i = false
  | _ => True

instance (s : PoolRun) : (e : PoolEvent) → Decidable (StrandsNothing s e)
  | .failure i _ post => inferInstanceAs (Decidable (strandsTask post s.pool i = false))
  | .addTask _ => .isTrue trivial
  | .processWorkerTasks _ => .isTrue trivial
  | .message _ _ _ => .isTrue trivial

/-- A step that disturbs no running task. -/
def Undisturbed (s : PoolRun) (e : PoolEvent) : Prop := InitializedIdle s e ∧ StrandsNothing s e

instance (s : PoolRun) (e : PoolEvent) : Decidable (Undisturbed s e) := by
  unfold Undisturbed; infer_instance

/-- What undisturbed steps keep. -/
structure Ledger (s : PoolRun) : Prop where
  accounted : Accounted none s.pool
  running : Running s
  /-- Every task is accepted once. -/
  once : ∀ x, weight (isTaskData x) s.accepted ≤ 1
  /-- An accepted task is pending, was posted, or was rejected while pending. -/
  pending : ∀ x, weight (isTaskData x) s.pool.workerTaskQueue + weight (Call.posted x) s.log +
    weight (Call.settledWaiting x) s.log = weight (isTaskData x) s.accepted
  /-- A posted task is assigned or was settled by its worker. -/
  assigned : ∀ x, s.pool.assignedTasks.weightOf (isTaskData x) +
    weight (Call.settledByWorker x) s.log = weight (Call.posted x) s.log
  /-- Nothing runs on the main thread. -/
  main : ∀ x, weight (Call.settledByMain x) s.log = 0

/-- What a function of the pool does to the ledger, by its flow and by what it keeps. -/
theorem Ledger.advance {s : PoolRun} (h : Ledger s) {p : WorkerPoolService} {c : List Call}
    (hflow : Flow s.pool p c) (hkeep : Keeps s.pool p c)
    (hacc : Accounted none p) (attributed : List (QueueTask × QueueTask))
    (hrun : Running { s with pool := p, log := s.log ++ c, attributed := attributed }) :
    Ledger { s with pool := p, log := s.log ++ c, attributed := attributed } where
  accounted := hacc
  running := hrun
  once := h.once
  pending x := by
    have h₁ := h.pending x
    have h₂ := hflow.pending x
    simp only [weight_append]
    omega
  assigned x := by
    have h₁ := h.assigned x
    have h₂ := hkeep x
    simp only [weight_append]
    omega
  main x := by
    have h₁ := h.main x
    have h₂ := hflow.main x
    simp only [weight_append]
    omega

theorem Ledger.initial (workerCount : ℕ) (cpu memory custom : Option ℕ) :
    Ledger (initial workerCount cpu memory custom) where
  accounted := Accounted.initial workerCount cpu memory custom
  running := running_initial workerCount cpu memory custom
  once x := by simp [PoolRun.initial]
  pending x := by
    have hq : (PoolRun.initial workerCount cpu memory custom).pool.workerTaskQueue = [] :=
      initWorkerPool_invariant (P := fun s => s.workerTaskQueue = []) (fun s i h => h) rfl workerCount
    rw [hq]
    rfl
  assigned x := by
    have ha : (PoolRun.initial workerCount cpu memory custom).pool.assignedTasks = .empty :=
      initWorkerPool_invariant (P := fun s => s.assignedTasks = .empty) (fun s i h => h) rfl workerCount
    rw [ha]
    rfl
  main x := rfl

/-- Undisturbed steps keep the ledger. -/
theorem Ledger.step {s u : PoolRun} {e : PoolEvent} (h : Ledger s) (hok : Undisturbed s e)
    (hu : step s e = some u) : Ledger u := by
  have hidle := h.accounted.idle
  have hrun := running_step h.running hu
  cases e with
  | addTask td =>
    simp only [PoolRun.step] at hu
    split at hu
    · cases hu
    · rename_i hnew
      cases hu
      simp only [List.any_eq_true, beq_iff_eq, not_exists, not_and] at hnew
      refine ⟨h.accounted.congr rfl (fun _ => rfl) rfl rfl, hrun, fun x => ?_, fun x => ?_,
        h.assigned, h.main⟩
      · have := h.once x
        simp only [weight_cons, isTaskData]
        by_cases hx : td.task.id = x
        · have hz : weight (isTaskData x) s.accepted = 0 :=
            weight_eq_zero _ fun a ha => by simp [isTask, ← hx, hnew a ha]
          simp [isTask, hx, hz]
        · simpa [isTask, hx] using this
      · have := h.pending x
        simp only [WorkerPoolService.addTask, weight_append, weight_cons, weight_nil]
        omega
  | processWorkerTasks post =>
    simp only [PoolRun.step, Option.some.injEq] at hu
    subst hu
    exact h.advance (processWorkerTasks_flow post s.pool) (processWorkerTasks_keeps post hidle)
      (processWorkerTasks_accounted h.accounted (by simp)) _ hrun
  | failure i error post =>
    simp only [PoolRun.step, Option.some.injEq] at hu
    subst hu
    exact h.advance (handleWorkerFailure_flow post s.pool i error)
      (handleWorkerFailure_keeps post hidle i error)
      (handleWorkerFailure_accounted h.accounted h.running.useWorkers h.running.shuttingDown hok.2
        error) _ hrun
  | message i result post =>
    simp only [PoolRun.step] at hu
    split at hu
    · cases hu
    · rename_i pool answered hsend
      simp only [Option.some.injEq] at hu
      subst hu
      obtain ⟨w, hw, ⟨-, hinit, -, rfl⟩ | ⟨p, rest, -, hp, hinit, hping, -, rfl⟩⟩ := send_cases hsend
      · have hb := hok.1 hinit
        rw [onMessage_of_initialized hinit]
        have ha := hidle i hb
        have hempty : w.unanswered = [] := by
          simpa [ha] using (h.accounted.slots i (by simp)).unanswered w hw
        refine h.advance (p := (s.pool.setWorker i { w with initialized := true }).setBusy i false)
          (c := []) ((Flow.refl s.pool).congr rfl rfl) (fun x => rfl) ?_ _
          ⟨h.running.useWorkers, h.running.shuttingDown⟩
        refine ((h.accounted.leaveOut ha).close hb (w := { w with initialized := true })
          hempty).congr rfl (fun j => ?_) rfl rfl
        by_cases hij : i = j
        · subst hij; simp [hb]
        · simp [hij]
      · rw [onMessage_of_answer hinit hping]
        have hempty : rest = [] := by
          have := congrArg List.length ((h.accounted.slots i (by simp)).unanswered w hw)
          rw [hp] at this
          cases ha : s.pool.assigned i <;> simp_all
        subst hempty
        have hclosed : Accounted none ((s.pool.setWorker i { w with unanswered := [] }).release i) := by
          rw [release_setWorker]
          exact (h.accounted.release i).close (by simp) rfl
        have hflow := processorHandleWorkerResult_flow post
          (s.pool.setWorker i { w with unanswered := [] }) i result
        have hkeep := processorHandleWorkerResult_keeps post
          (s := s.pool.setWorker i { w with unanswered := [] }) hidle i result
        rw [onMessage_of_answer hinit hping] at hrun
        refine h.advance (hflow.congr_left rfl rfl) hkeep ?_ _ hrun
        rw [processorHandleWorkerResult_fst]
        exact processWorkerTasks_accounted hclosed (by simp)

theorem Ledger.of_reaches {workerCount : ℕ} {cpu memory custom : Option ℕ} {s : PoolRun}
    (h : Reaches PoolRun.step Undisturbed (PoolRun.initial workerCount cpu memory custom) s) :
    Ledger s :=
  h.invariant (.initial workerCount cpu memory custom) fun _ _ _ ht hok hu => ht.step hok hu

/-! ### The accounting in every state -/

/-- **The accounting of the pool.** In every state of every run of undisturbed steps the
representations agree, and from each such state exactly the undisturbed steps keep them in
agreement. -/
theorem accounting {workerCount : ℕ} {cpu memory custom : Option ℕ} {s : PoolRun}
    (h : Reaches step Undisturbed (initial workerCount cpu memory custom) s) :
    Accounting s.pool ∧
      ∀ e u, step s e = some u → (Accounting u.pool ↔ Undisturbed s e) := by
  have hs := Ledger.of_reaches h
  refine ⟨hs.accounted.toAccounting, fun e u hu => ⟨fun hacc => ⟨?_, ?_⟩, fun hok =>
    (hs.step hok hu).accounted.toAccounting⟩⟩
  · cases e with
    | message i result post =>
      intro hinit
      by_contra hb
      simp only [Bool.not_eq_false] at hb
      -- the task is still assigned, and the slot is idle now
      have ha : (s.pool.assigned i).isSome := (hs.accounted.toAccounting.busy i).mp hb
      simp only [step] at hu
      split at hu
      · cases hu
      · rename_i pool answered hsend
        simp only [Option.some.injEq] at hu
        subst hu
        obtain ⟨w, hw, ⟨-, -, -, rfl⟩ | ⟨p, rest, -, -, hn, -⟩⟩ := send_cases hsend
        · have hbusy := (hacc.busy i).mpr
          rw [onMessage_of_initialized hinit] at hbusy
          simp [ha] at hbusy
        · rw [hinit] at hn; cases hn
    | _ => trivial
  · cases e with
    | failure i error post =>
      simp only [step, Option.some.injEq] at hu
      subst hu
      change strandsTask post s.pool i = false
      by_contra hstrands
      obtain ⟨hb, ha⟩ := handleWorkerFailure_strands hs.accounted hs.running.useWorkers
        hs.running.shuttingDown (by simpa using hstrands : strandsTask post s.pool i = true) error
      have := (hacc.busy i).mpr ha
      rw [hb] at this
      cases this
    | _ => trivial

/-- A worker with a task and an idle one: the accounting holds, and the next step keeps it
where it is undisturbed. -/
theorem accounting_with_busy_worker :
    ∃ s, Reaches step Undisturbed (initial 2 none none none) s ∧ s.pool.busy 0 = true ∧
      Accounting s.pool ∧ ∀ e u, step s e = some u → (Accounting u.pool ↔ Undisturbed s e) := by
  obtain ⟨s, hs, hseen⟩ := exists_reaches_of_runEvents step Undisturbed (fun s => s.pool.busy 0)
    (s := initial 2 none none none) [.message 0 { initialized := true } fun _ => none,
      .addTask (cpuTask 1), .processWorkerTasks fun _ => none] true rfl
  exact ⟨s, hs, hseen, accounting hs⟩

/-- A failure while a task is pending: the pending task stays assigned to an idle slot. -/
theorem accounting_fails_after_failure :
    ∃ s, Reachable step (initial 1 none none none) s ∧ ¬ Accounting s.pool := by
  obtain ⟨s, hs, hseen⟩ := exists_reaches_of_runEvents step (fun _ _ => True)
    (fun s => (s.pool.busy 0, (s.pool.assigned 0).isSome))
    (s := initial 1 none none none) [.message 0 { initialized := true } fun _ => none,
      .addTask (cpuTask 1), .addTask (cpuTask 2), .processWorkerTasks fun _ => none,
      .failure 0 "out of memory" fun _ => none] (false, true) rfl
  simp only [Prod.mk.injEq] at hseen
  refine ⟨s, hs, fun h => ?_⟩
  have := (h.busy 0).mpr hseen.2
  rw [hseen.1] at this
  cases this

/-! ### What a failure loses -/

/-- Task `x` waits in `workerTaskQueue`. -/
def Pending (s : PoolRun) (x : ℕ) : Prop := ∃ td ∈ s.pool.workerTaskQueue, td.task.id = x

/-- Task `x` is assigned to a busy slot, whose live worker was sent its message and owes
the answer. -/
def AtWorker (s : PoolRun) (x : ℕ) : Prop :=
  ∃ j td w p, s.pool.assigned j = some td ∧ td.task.id = x ∧ s.pool.busy j = true ∧
    s.pool.worker j = some w ∧ p ∈ w.unanswered ∧ p.taskData = td

/-- Task `x` has been settled. -/
def Settled (s : PoolRun) (x : ℕ) : Prop := 0 < weight (Call.settled x) s.log

/-- Every accepted task is pending, at a worker, or settled. -/
theorem Ledger.kept {s : PoolRun} (h : Ledger s) {td : WorkerTaskData} (htd : td ∈ s.accepted) :
    s.Pending td.task.id ∨ s.AtWorker td.task.id ∨ s.Settled td.task.id := by
  have hone : 1 ≤ weight (isTaskData td.task.id) s.accepted := by
    have := le_weight_of_mem (isTaskData td.task.id) htd
    simpa [isTask] using this
  have hpending := h.pending td.task.id
  have hassigned := h.assigned td.task.id
  have hsettled := weight_settled td.task.id s.log
  have hcases : 0 < weight (isTaskData td.task.id) s.pool.workerTaskQueue ∨
      0 < s.pool.assignedTasks.weightOf (isTaskData td.task.id) ∨
      0 < weight (Call.settled td.task.id) s.log := by
    omega
  rcases hcases with hq | ha | hs
  · obtain ⟨q, hq, hx⟩ := exists_mem_of_weight_pos hq
    exact .inl ⟨q, hq, isTask_pos.mp hx⟩
  · obtain ⟨j, a, ha, hx⟩ := JsMap.exists_of_weightOf_pos ha
    have ha : s.pool.assigned j = some a := ha
    have hslot := h.accounted.slots j (by simp)
    obtain ⟨w, hw⟩ : ∃ w, s.pool.worker j = some w := by
      refine Option.ne_none_iff_exists'.mp fun hn => ?_
      rw [hslot.live hn] at ha
      cases ha
    have hun : w.unanswered.map Posted.taskData = [a] := by
      rw [hslot.unanswered w hw, ha]
      rfl
    obtain ⟨p, hp, hpa⟩ := List.map_eq_singleton_iff.mp hun
    refine .inr (.inl ⟨j, a, w, p, ha, isTask_pos.mp hx, ?_, hw, by simp [hp], hpa⟩)
    rw [hslot.busy, ha]
    rfl
  · exact .inr (.inr hs)

/-- A task is settled at most once. -/
theorem Ledger.settled_le_one {s : PoolRun} (h : Ledger s) (x : ℕ) :
    weight (Call.settled x) s.log ≤ 1 := by
  have h₁ := h.once x
  have h₂ := h.pending x
  have h₃ := h.assigned x
  have h₄ := h.main x
  have h₅ := weight_settled x s.log
  omega

end PoolRun

end BulkTraffic.Queue
