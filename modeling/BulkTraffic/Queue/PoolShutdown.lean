import BulkTraffic.Queue.PoolAccounting

/-!
# Shutting the worker pool down

`WorkerPoolService.destroy` asks every worker to terminate, waits until all terminations
have settled, and then empties the pool: the workers, the pending tasks, the assigned ones.
Until then the workers may still answer, and their answers settle tasks and start passes.

* `settlesOwed_iff`: destroying the pool settles what it owes exactly when it never has a
  task to discard.
* `cleared_unsettled`: a task that was discarded stays unsettled.

What is emptied is discarded without a word: nothing rejects the tasks. So the outcome
depends on what the workers answer while `destroy` waits, and on each pass meanwhile: one
that hands a task to an idle slot which still has another (`displaces`) forgets that other
task before `destroy` gets to it.
-/

namespace BulkTraffic.Queue

open BulkTraffic.Lib BulkTraffic.Js

namespace WorkerPoolService

/-- The tasks in `workerTaskQueue` and in `assignedTasks`, by their ids. -/
def held (s : WorkerPoolService) : List ℕ :=
  s.workerTaskQueue.map (fun td => td.task.id) ++ s.assignedTasks.values.map fun td => td.task.id

/-- `destroy()` up to its `await`: every worker is told to terminate. -/
def beginDestroy (s : WorkerPoolService) : WorkerPoolService :=
  { s with
    shuttingDown := true
    terminated := s.terminated ++ s.workerPool.filterMap id }

/-- `destroy()` after its `await`. No worker is left to send a message, so that
`onResult = null` changes nothing more. -/
def endDestroy (s : WorkerPoolService) : WorkerPoolService :=
  { s with
    workerPool := []
    workerBusy := []
    workerTaskQueue := []
    assignedTasks := .empty
    router := s.router.resetActiveByType }

/-- Does the loop over the given slots pick a task for an idle slot that still has one? -/
def slotsDisplace (post : PostMessage) : List ℕ → WorkerPoolService → Bool
  | [], _ => false
  | i :: is, s =>
    if (s.worker i).isNone || s.busy i then slotsDisplace post is s
    else if s.workerTaskQueue.isEmpty then false
    else (s.dequeued.picked.isSome && (s.assigned i).isSome) ||
      slotsDisplace post is (s.dispatchTo post i).1

/-- Does `processWorkerTasks` pick a task for an idle slot that still has one? -/
def passDisplaces (post : PostMessage) (s : WorkerPoolService) : Bool :=
  if !s.useWorkers || s.workerTaskQueue.isEmpty then false
  else slotsDisplace post (List.range s.workerPool.length) s

/-! ### What is held -/

/-- A task is held where it has weight in one of the containers. -/
theorem mem_held {s : WorkerPoolService} {x : ℕ} :
    x ∈ s.held ↔ 0 < weight (isTaskData x) s.workerTaskQueue ∨
      0 < s.assignedTasks.weightOf (isTaskData x) := by
  have hpos : ∀ td : WorkerTaskData, td.task.id = x → 0 < isTaskData x td :=
    fun _ h => isTask_pos.mpr h
  rw [held, List.mem_append, List.mem_map, List.mem_map]
  constructor
  · rintro (⟨td, hmem, hx⟩ | ⟨td, hmem, hx⟩)
    · exact .inl (Nat.lt_of_lt_of_le (hpos td hx) (le_weight_of_mem _ hmem))
    · obtain ⟨⟨k, v⟩, he, rfl⟩ := List.mem_map.mp hmem
      exact .inr (Nat.lt_of_lt_of_le (hpos v hx)
        (JsMap.le_weightOf_of_get? _ (JsMap.get?_of_mem he)))
  · rintro (h | h)
    · obtain ⟨td, hmem, hx⟩ := exists_mem_of_weight_pos h
      exact .inl ⟨td, hmem, isTask_pos.mp hx⟩
    · obtain ⟨e, he, hx⟩ := exists_mem_of_weight_pos h
      exact .inr ⟨e.2, List.mem_map.mpr ⟨e, he, rfl⟩, isTask_pos.mp hx⟩

theorem not_mem_held {s : WorkerPoolService} {x : ℕ} :
    x ∉ s.held ↔ weight (isTaskData x) s.workerTaskQueue = 0 ∧
      s.assignedTasks.weightOf (isTaskData x) = 0 := by
  rw [mem_held]
  omega

/-! ### Passes that displace no task -/

theorem processSlots_keeps_of_not_displace {post : PostMessage} (is : List ℕ)
    {s : WorkerPoolService} (h : slotsDisplace post is s = false) :
    Keeps s (processSlots post is s).1 (processSlots post is s).2 := by
  induction is generalizing s with
  | nil => exact fun _ => rfl
  | cons i is ih =>
    rw [processSlots]
    rw [slotsDisplace] at h
    split
    · rename_i hidle
      rw [if_pos hidle] at h
      exact ih h
    · rename_i hidle
      rw [if_neg hidle] at h
      split
      · exact fun _ => rfl
      · rename_i hq
        rw [if_neg hq, Bool.or_eq_false_iff, Bool.and_eq_false_iff] at h
        obtain ⟨hfree, hrest⟩ := h
        have hone : Keeps s (s.dispatchTo post i).1 (s.dispatchTo post i).2 := by
          apply dispatchTo_keeps post
          rcases hfree with hp | ha
          · exact .inl (by simpa using hp)
          · exact .inr (by simpa using ha)
        exact hone.trans (ih hrest)

theorem processWorkerTasks_keeps_of_not_displaces {post : PostMessage} {s : WorkerPoolService}
    (h : s.passDisplaces post = false) :
    Keeps s (s.processWorkerTasks post).1 (s.processWorkerTasks post).2 := by
  rw [passDisplaces] at h
  rw [processWorkerTasks]
  split
  · exact fun _ => rfl
  · rename_i hc
    rw [if_neg hc] at h
    exact processSlots_keeps_of_not_displace _ h

end WorkerPoolService

namespace PoolRun

open WorkerPoolService

/-- The pool in which an event starts a pass, where it starts one while the pool shuts
down: a failure is ignored then. -/
def passOf (s : PoolRun) : PoolEvent → Option (WorkerPoolService × PostMessage)
  | .processWorkerTasks post => some (s.pool, post)
  | .message i result post =>
    match s.pool.send i result with
    | some (pool, some _) => some (pool.release i, post)
    | _ => none
  | .addTask _ | .failure _ _ _ => none

/-- Does the pass an event starts pick a task for an idle slot that still has one? -/
def displaces (s : PoolRun) (e : PoolEvent) : Bool :=
  (s.passOf e).elim false fun p => p.1.passDisplaces p.2

/-- What a step does: it accepts a task not seen before, or the tasks flow. A pool that is
shutting down goes on doing so, and forgets an assigned task only where it displaces one. -/
theorem step_cases {s u : PoolRun} {e : PoolEvent} (h : step s e = some u) :
    (∃ td, (∀ a ∈ s.accepted, a.task.id ≠ td.task.id) ∧
        u = { s with pool := s.pool.addTask td, accepted := td :: s.accepted }) ∨
      (u.accepted = s.accepted ∧ u.pool.shuttingDown = s.pool.shuttingDown ∧
        ∃ c, u.log = s.log ++ c ∧ Flow s.pool u.pool c ∧
          (s.pool.shuttingDown = true → s.displaces e = false → Keeps s.pool u.pool c)) := by
  cases e with
  | addTask td =>
    rw [step] at h
    split at h
    · cases h
    · rename_i hnew
      cases h
      simp only [List.any_eq_true, beq_iff_eq, not_exists, not_and] at hnew
      exact .inl ⟨td, hnew, rfl⟩
  | processWorkerTasks post =>
    simp only [step, Option.some.injEq] at h
    subst h
    exact .inr ⟨rfl, (processWorkerTasks_frame post s.pool).shuttingDown, _, rfl,
      processWorkerTasks_flow post s.pool,
      fun _ hd => processWorkerTasks_keeps_of_not_displaces hd⟩
  | failure i error post =>
    simp only [step, Option.some.injEq] at h
    subst h
    refine .inr ⟨rfl, handleWorkerFailure_shuttingDown post s.pool i error, _, rfl,
      handleWorkerFailure_flow post s.pool i error, fun hdown _ => ?_⟩
    have hignored : s.pool.handleWorkerFailure (some (processorHandleWorkerResult post)) i error =
        (s.pool, []) := by
      simp [handleWorkerFailure, hdown]
    rw [hignored]
    exact fun _ => rfl
  | message i result post =>
    rw [step] at h
    split at h
    · cases h
    · rename_i pool answered hsend
      simp only [Option.some.injEq] at h
      subst h
      obtain ⟨w, hw, ⟨-, hinit, rfl, rfl⟩ | ⟨p, rest, -, -, hinit, hping, rfl, rfl⟩⟩ := send_cases hsend
      · rw [onMessage_of_initialized hinit]
        exact .inr ⟨rfl, rfl, _, rfl, (Flow.refl s.pool).congr rfl rfl, fun _ _ _ => rfl⟩
      · rw [onMessage_of_answer hinit hping]
        refine .inr ⟨rfl, processorHandleWorkerResult_shuttingDown post _ i result, _, rfl,
          (processorHandleWorkerResult_flow post _ i result).congr_left rfl rfl, fun _ hd => ?_⟩
        rw [displaces, passOf, hsend] at hd
        rw [processorHandleWorkerResult_fst, processorHandleWorkerResult_snd]
        have hkeep := handleWorkerResult_keeps (s.pool.setWorker i { w with unanswered := rest }) i result
        exact hkeep.trans (processWorkerTasks_keeps_of_not_displaces hd)

/-! ### One task through a run of the pool -/

/-- A task that is where the pool says it is: it is accepted at most once, and then
pending, posted, or rejected while pending; and what is assigned or settled was posted. -/
structure Traced (s : PoolRun) (x : ℕ) : Prop where
  once : weight (isTaskData x) s.accepted ≤ 1
  pending : weight (isTaskData x) s.pool.workerTaskQueue + weight (Call.posted x) s.log +
    weight (Call.settledWaiting x) s.log = weight (isTaskData x) s.accepted
  assigned : s.pool.assignedTasks.weightOf (isTaskData x) +
    weight (Call.settledByWorker x) s.log ≤ weight (Call.posted x) s.log
  main : weight (Call.settledByMain x) s.log = 0

/-- An accepted task that was posted and is not settled is assigned. -/
structure Kept (s : PoolRun) (x : ℕ) : Prop where
  accepted : 0 < weight (isTaskData x) s.accepted
  assigned : s.pool.assignedTasks.weightOf (isTaskData x) +
    weight (Call.settledByWorker x) s.log = weight (Call.posted x) s.log

/-- An accepted task that is not settled and in no container. -/
structure Lost (s : PoolRun) (x : ℕ) : Prop where
  accepted : 0 < weight (isTaskData x) s.accepted
  pending : weight (isTaskData x) s.pool.workerTaskQueue = 0
  assigned : s.pool.assignedTasks.weightOf (isTaskData x) = 0
  settled : weight (Call.settled x) s.log = 0

/-- A task not seen before is none of the accepted ones. -/
theorem isTaskData_eq_zero_of_accepted {s : PoolRun} {x : ℕ} {td : WorkerTaskData}
    (hnew : ∀ a ∈ s.accepted, a.task.id ≠ td.task.id) (h : 0 < weight (isTaskData x) s.accepted) :
    isTaskData x td = 0 := by
  obtain ⟨a, ha, hx⟩ := exists_mem_of_weight_pos h
  have hne := hnew a ha
  rw [isTask_pos.mp hx] at hne
  simp [isTaskData, isTask, hne.symm]

theorem accepted_le {s u : PoolRun} {e : PoolEvent} (hu : step s e = some u) (x : ℕ) :
    weight (isTaskData x) s.accepted ≤ weight (isTaskData x) u.accepted := by
  obtain ⟨td, -, rfl⟩ | ⟨hacc, -⟩ := step_cases hu
  · simp
  · rw [hacc]

theorem settled_le {s u : PoolRun} {e : PoolEvent} (hu : step s e = some u) (x : ℕ) :
    weight (Call.settled x) s.log ≤ weight (Call.settled x) u.log := by
  obtain ⟨td, -, rfl⟩ | ⟨-, -, c, hlog, -⟩ := step_cases hu
  · exact Nat.le_refl _
  · rw [hlog, weight_append]
    omega

theorem Traced.step {s u : PoolRun} {e : PoolEvent} {x : ℕ} (h : Traced s x)
    (hu : step s e = some u) : Traced u x := by
  obtain ⟨td, hnew, rfl⟩ | ⟨hacc, -, c, hlog, hflow, -⟩ := step_cases hu
  · have hle : isTaskData x td ≤ 1 := by
      rw [isTaskData, isTask]
      split <;> omega
    have hpending := h.pending
    refine ⟨?_, ?_, h.assigned, h.main⟩
    · rw [weight_cons]
      rcases Nat.eq_zero_or_pos (weight (isTaskData x) s.accepted) with hz | hpos
      · omega
      · have hz := isTaskData_eq_zero_of_accepted hnew hpos
        have := h.once
        omega
    · simp only [addTask, weight_append, weight_cons, weight_nil]
      omega
  · have hpending := hflow.pending x
    have hassigned := hflow.assigned x
    have hmain := hflow.main x
    have h₁ := h.pending
    have h₂ := h.assigned
    have h₃ := h.main
    refine ⟨by rw [hacc]; exact h.once, ?_, ?_, ?_⟩
    · rw [hlog, hacc, weight_append, weight_append]
      omega
    · rw [hlog, weight_append, weight_append]
      omega
    · rw [hlog, weight_append]
      omega

/-- A task is settled at most once. -/
theorem Traced.settled_le_one {s : PoolRun} {x : ℕ} (h : Traced s x) :
    weight (Call.settled x) s.log ≤ 1 := by
  have h₁ := h.once
  have h₂ := h.pending
  have h₃ := h.assigned
  have h₄ := h.main
  have h₅ := weight_settled x s.log
  omega

theorem Lost.step {s u : PoolRun} {e : PoolEvent} {x : ℕ} (h : Lost s x)
    (hu : step s e = some u) : Lost u x := by
  obtain ⟨td, hnew, rfl⟩ | ⟨hacc, -, c, hlog, hflow, -⟩ := step_cases hu
  · have hz := isTaskData_eq_zero_of_accepted hnew h.accepted
    refine ⟨?_, ?_, h.assigned, h.settled⟩
    · rw [weight_cons]
      have := h.accepted
      omega
    · simp only [addTask, weight_append, weight_cons, weight_nil, h.pending, hz]
  · have hpending := hflow.pending x
    have hassigned := hflow.assigned x
    have hmain := hflow.main x
    have hsettled := weight_settled x c
    have h₁ := h.pending
    have h₂ := h.assigned
    refine ⟨by rw [hacc]; exact h.accepted, by omega, by omega, ?_⟩
    rw [hlog, weight_append, h.settled]
    omega

/-- While the pool shuts down, a step that displaces no task forgets none. -/
theorem Kept.step {s u : PoolRun} {e : PoolEvent} {x : ℕ} (h : Kept s x)
    (hdown : s.pool.shuttingDown = true) (hd : s.displaces e = false) (hu : step s e = some u) :
    Kept u x := by
  refine ⟨Nat.lt_of_lt_of_le h.accepted (accepted_le hu x), ?_⟩
  obtain ⟨td, -, rfl⟩ | ⟨-, -, c, hlog, -, hkeep⟩ := step_cases hu
  · exact h.assigned
  · have hc := hkeep hdown hd x
    have := h.assigned
    rw [hlog, weight_append, weight_append]
    omega

/-- A held task is accepted, and not settled. -/
theorem Traced.of_held {s : PoolRun} {x : ℕ} (h : Traced s x) (hx : x ∈ s.pool.held) :
    Kept s x ∧ weight (Call.settled x) s.log = 0 := by
  have h₁ := h.once
  have h₂ := h.pending
  have h₃ := h.assigned
  have h₄ := h.main
  have h₅ := weight_settled x s.log
  have hx := mem_held.mp hx
  refine ⟨⟨?_, ?_⟩, ?_⟩ <;> omega

/-- An accepted task that is not held, and was not forgotten, is settled. -/
theorem Traced.settled_of_not_held {s : PoolRun} {x : ℕ} (h : Traced s x) (hk : Kept s x)
    (hx : x ∉ s.pool.held) : 0 < weight (Call.settled x) s.log := by
  have h₁ := h.pending
  have h₂ := hk.accepted
  have h₃ := hk.assigned
  have h₄ := weight_settled x s.log
  have hx := not_mem_held.mp hx
  omega

end PoolRun

/-! ### Runs with calls of `destroy` -/

/-- A call of `destroy`. -/
structure DestroyCall where
  /-- The tasks it owes an outcome: those held when it was made, and those it discards. -/
  owed : List ℕ
  /-- The call has completed. -/
  completed : Bool := false

/-- A run of the pool with its calls of `destroy`: the modules of the queue and of the pool
each make one. -/
structure ShutdownRun where
  run : PoolRun
  calls : List DestroyCall := []
  /-- The tasks that were in a container when it was emptied. -/
  cleared : List ℕ := []

/-- What can happen. -/
inductive ShutdownEvent where
  /-- An event of the pool. -/
  | pool (e : PoolEvent)
  /-- `destroy()` is called. -/
  | destroy
  /-- The terminations the `k`-th call waits for have settled, and it completes. -/
  | terminated (k : ℕ)

namespace ShutdownRun

open WorkerPoolService
open PoolRun (Traced Kept Lost cpuTask)

/-- The pool as created, with no call made. -/
def initial (workerCount : ℕ) (cpu memory custom : Option ℕ) : ShutdownRun where
  run := PoolRun.initial workerCount cpu memory custom

/-- One event. -/
def step (s : ShutdownRun) : ShutdownEvent → Option ShutdownRun
  | .pool e => (s.run.step e).map fun run => { s with run := run }
  | .destroy =>
    some { s with
      run := { s.run with pool := s.run.pool.beginDestroy }
      calls := s.calls ++ [{ owed := s.run.pool.held }] }
  | .terminated k =>
    match s.calls[k]? with
    | none => none
    | some call =>
      if call.completed then none
      else some
        { run := { s.run with pool := s.run.pool.endDestroy }
          calls := s.calls.set k { owed := call.owed ++ s.run.pool.held, completed := true }
          cleared := s.cleared ++ s.run.pool.held }

/-- Once `destroy` is called, no pass picks a task for an idle slot that still has one. -/
def Orderly (s : ShutdownRun) : ShutdownEvent → Prop
  | .pool e => s.run.pool.shuttingDown = true → s.run.displaces e = false
  | .destroy | .terminated _ => True

instance (s : ShutdownRun) : (e : ShutdownEvent) → Decidable (Orderly s e)
  | .pool e => inferInstanceAs
      (Decidable (s.run.pool.shuttingDown = true → s.run.displaces e = false))
  | .destroy => .isTrue trivial
  | .terminated _ => .isTrue trivial

/-- Every completed call of `destroy` has settled what it owed, each task once. -/
def SettlesOwed (s : ShutdownRun) : Prop :=
  ∀ call ∈ s.calls, call.completed = true → ∀ x ∈ call.owed, weight (Call.settled x) s.run.log = 1

/-- What every step keeps: the tasks that were not discarded are traced, and those that
were are lost, each owed by a call that has completed. -/
structure Ledger (s : ShutdownRun) : Prop where
  traced : ∀ x, x ∉ s.cleared → Traced s.run x
  lost : ∀ x ∈ s.cleared, Lost s.run x
  owed : ∀ x ∈ s.cleared, ∃ call ∈ s.calls, call.completed = true ∧ x ∈ call.owed

/-- What orderly steps keep: no owed task is forgotten, and a completed call has settled
those that were not discarded. -/
structure Owing (s : ShutdownRun) : Prop where
  shuttingDown : s.calls ≠ [] → s.run.pool.shuttingDown = true
  kept : ∀ call ∈ s.calls, ∀ x ∈ call.owed, x ∉ s.cleared → Kept s.run x
  settled : ∀ call ∈ s.calls, call.completed = true → ∀ x ∈ call.owed, x ∉ s.cleared →
    0 < weight (Call.settled x) s.run.log

/-- A call that completes was open. It empties the pool's containers, and owes what was in them. -/
theorem terminated_cases {s u : ShutdownRun} {k : ℕ} (h : step s (.terminated k) = some u) :
    ∃ call, s.calls[k]? = some call ∧ call.completed = false ∧
      u = { run := { s.run with pool := s.run.pool.endDestroy }
            calls := s.calls.set k { owed := call.owed ++ s.run.pool.held, completed := true }
            cleared := s.cleared ++ s.run.pool.held } := by
  rw [ShutdownRun.step] at h
  split at h
  · cases h
  · rename_i call hk
    split at h
    · cases h
    · rename_i hopen
      exact ⟨call, hk, Bool.eq_false_of_not_eq_true hopen, (Option.some.inj h).symm⟩

theorem Ledger.initial (workerCount : ℕ) (cpu memory custom : Option ℕ) :
    Ledger (ShutdownRun.initial workerCount cpu memory custom) where
  traced x _ := by
    have h := PoolRun.Ledger.initial workerCount cpu memory custom
    exact ⟨h.once x, h.pending x, (h.assigned x).le, h.main x⟩
  lost x h := by cases h
  owed x h := by cases h

theorem Ledger.step {s u : ShutdownRun} {e : ShutdownEvent} (h : Ledger s)
    (hu : step s e = some u) : Ledger u := by
  cases e with
  | pool e =>
    obtain ⟨run, hrun, rfl⟩ := Option.map_eq_some_iff.mp hu
    exact ⟨fun x hx => (h.traced x hx).step hrun, fun x hx => (h.lost x hx).step hrun, h.owed⟩
  | destroy =>
    cases hu
    refine ⟨fun x hx => ?_, fun x hx => ?_, fun x hx => ?_⟩
    · obtain ⟨h₁, h₂, h₃, h₄⟩ := h.traced x hx
      exact ⟨h₁, h₂, h₃, h₄⟩
    · obtain ⟨h₁, h₂, h₃, h₄⟩ := h.lost x hx
      exact ⟨h₁, h₂, h₃, h₄⟩
    · obtain ⟨call, hcall, hx⟩ := h.owed x hx
      exact ⟨call, List.mem_append_left _ hcall, hx⟩
  | terminated k =>
    obtain ⟨call, hk, hopen, rfl⟩ := terminated_cases hu
    have hmem : ∀ {c}, c ∈ s.calls → c.completed = true → ∀ d, c ∈ s.calls.set k d := by
      intro c hc hdone d
      obtain ⟨j, hj⟩ := List.mem_iff_getElem?.mp hc
      have hne : k ≠ j := by
        rintro rfl
        obtain rfl : call = c := Option.some.inj (hk.symm.trans hj)
        exact Bool.false_ne_true (hopen.symm.trans hdone)
      exact List.mem_iff_getElem?.mpr ⟨j, by rw [List.getElem?_set_ne hne, hj]⟩
    have hlt : k < s.calls.length := (List.getElem?_eq_some_iff.mp hk).1
    refine ⟨fun x hx => ?_, fun x hx => ?_, fun x hx => ?_⟩
    · simp only [List.mem_append, not_or] at hx
      obtain ⟨hqueue, hassigned⟩ := not_mem_held.mp hx.2
      obtain ⟨h₁, h₂, h₃, h₄⟩ := h.traced x hx.1
      rw [hqueue] at h₂
      rw [hassigned] at h₃
      exact ⟨h₁, h₂, h₃, h₄⟩
    · by_cases hold : x ∈ s.cleared
      · have hlost := h.lost x hold
        exact ⟨hlost.accepted, rfl, rfl, hlost.settled⟩
      · have hheld : x ∈ s.run.pool.held := (List.mem_append.mp hx).resolve_left hold
        obtain ⟨hkept, hsettled⟩ := (h.traced x hold).of_held hheld
        exact ⟨hkept.accepted, rfl, rfl, hsettled⟩
    · rcases List.mem_append.mp hx with hold | hheld
      · obtain ⟨c, hc, hdone, hx⟩ := h.owed x hold
        exact ⟨c, hmem hc hdone _, hdone, hx⟩
      · exact ⟨_, List.mem_set hlt _, rfl, List.mem_append_right _ hheld⟩

theorem Owing.step {s u : ShutdownRun} {e : ShutdownEvent} (h : Owing s) (hl : Ledger s)
    (hok : Orderly s e) (hu : step s e = some u) : Owing u := by
  cases e with
  | pool e =>
    obtain ⟨run, hrun, rfl⟩ := Option.map_eq_some_iff.mp hu
    refine ⟨fun hc => ?_, fun call hcall x hx hn => ?_, fun call hcall hdone x hx hn => ?_⟩
    · obtain ⟨td, -, rfl⟩ | ⟨-, hdown, -⟩ := PoolRun.step_cases hrun
      · exact h.shuttingDown hc
      · exact hdown.trans (h.shuttingDown hc)
    · have hdown := h.shuttingDown (List.ne_nil_of_mem hcall)
      exact (h.kept call hcall x hx hn).step hdown (hok hdown) hrun
    · exact Nat.lt_of_lt_of_le (h.settled call hcall hdone x hx hn) (PoolRun.settled_le hrun x)
  | destroy =>
    cases hu
    refine ⟨fun _ => rfl, fun call hcall x hx hn => ?_, fun call hcall hdone x hx hn => ?_⟩
    · have hkept : Kept s.run x := by
        rcases List.mem_append.mp hcall with hcall | hcall
        · exact h.kept call hcall x hx hn
        · rw [List.mem_singleton.mp hcall] at hx
          exact ((hl.traced x hn).of_held hx).1
      exact ⟨hkept.accepted, hkept.assigned⟩
    · rcases List.mem_append.mp hcall with hcall | hcall
      · exact h.settled call hcall hdone x hx hn
      · rw [List.mem_singleton.mp hcall] at hdone
        cases hdone
  | terminated k =>
    obtain ⟨call, hk, -, rfl⟩ := terminated_cases hu
    have hcall := List.mem_of_getElem? hk
    -- an owed task that is not discarded was owed before, and is in no container
    have howed : ∀ c ∈ s.calls.set k { owed := call.owed ++ s.run.pool.held, completed := true },
        ∀ x ∈ c.owed, x ∉ s.cleared ++ s.run.pool.held →
          x ∉ s.cleared ∧ x ∉ s.run.pool.held ∧ Kept s.run x := by
      intro c hc x hx hn
      rw [List.mem_append, not_or] at hn
      refine ⟨hn.1, hn.2, ?_⟩
      rcases List.mem_or_eq_of_mem_set hc with hc | rfl
      · exact h.kept c hc x hx hn.1
      · exact h.kept call hcall x ((List.mem_append.mp hx).resolve_right hn.2) hn.1
    refine ⟨fun _ => h.shuttingDown (List.ne_nil_of_mem hcall), fun c hc x hx hn => ?_,
      fun c hc _ x hx hn => ?_⟩
    · obtain ⟨-, hheld, hkept⟩ := howed c hc x hx hn
      have hassigned := hkept.assigned
      rw [(not_mem_held.mp hheld).2] at hassigned
      exact ⟨hkept.accepted, hassigned⟩
    · obtain ⟨hold, hheld, hkept⟩ := howed c hc x hx hn
      exact (hl.traced x hold).settled_of_not_held hkept hheld

theorem Ledger.of_reaches {ok : ShutdownRun → ShutdownEvent → Prop} {workerCount : ℕ}
    {cpu memory custom : Option ℕ} {s : ShutdownRun}
    (h : Reaches ShutdownRun.step ok (ShutdownRun.initial workerCount cpu memory custom) s) :
    Ledger s :=
  h.invariant (.initial workerCount cpu memory custom) fun _ _ _ ht _ hu => ht.step hu

/-- **What is discarded stays unsettled.** In every state of every run, no task that a call
of `destroy` has discarded is settled. -/
theorem cleared_unsettled {workerCount : ℕ} {cpu memory custom : Option ℕ} {s : ShutdownRun}
    (h : Reachable step (initial workerCount cpu memory custom) s) :
    ∀ x ∈ s.cleared, weight (Call.settled x) s.run.log = 0 :=
  fun x hx => ((Ledger.of_reaches h).lost x hx).settled

/-- **What shutting down settles.** In every state of every orderly run, the completed calls
of `destroy` have settled all they owed, each task once, exactly when no task was in a
container when it was emptied. -/
theorem settlesOwed_iff {workerCount : ℕ} {cpu memory custom : Option ℕ} {s : ShutdownRun}
    (h : Reaches step Orderly (initial workerCount cpu memory custom) s) :
    SettlesOwed s ↔ s.cleared = [] := by
  have hledger := Ledger.of_reaches h
  have howing : Owing s := by
    refine (h.invariant (P := fun s => Ledger s ∧ Owing s)
      ⟨.initial workerCount cpu memory custom, ?_⟩ fun t e u ht hok hu =>
        ⟨ht.1.step hu, ht.2.step ht.1 hok hu⟩).2
    refine ⟨fun hc => absurd rfl hc, fun call hcall => ?_, fun call hcall => ?_⟩ <;> cases hcall
  constructor
  · intro hsettles
    apply List.eq_nil_iff_forall_not_mem.mpr
    intro x hx
    obtain ⟨call, hcall, hdone, howed⟩ := hledger.owed x hx
    have hone := hsettles call hcall hdone x howed
    have hzero := (hledger.lost x hx).settled
    omega
  · intro hnone call hcall hdone x howed
    have hx : x ∉ s.cleared := by simp [hnone]
    have hle := (hledger.traced x hx).settled_le_one
    have hpos := howing.settled call hcall hdone x howed hx
    omega

/-- A call of `destroy` while a worker runs task `1`: the worker answers before it is
terminated, and nothing is left to discard. -/
theorem settlesOwed_of_answer :
    ∃ s, Reaches step Orderly (initial 1 none none none) s ∧
      s.calls.map (fun call => (call.owed, call.completed)) = [([1], true)] ∧
      (SettlesOwed s ↔ s.cleared = []) := by
  obtain ⟨s, hs, hseen⟩ := exists_reaches_of_runEvents step Orderly
    (fun s => s.calls.map fun call => (call.owed, call.completed)) (s := initial 1 none none none)
    [.pool (.message 0 { initialized := true } fun _ => none), .pool (.addTask (cpuTask 1)),
      .pool (.processWorkerTasks fun _ => none), .destroy,
      .pool (.message 0 { success := true, result := .str "primes" } fun _ => none),
      .terminated 0] [([1], true)] (by decide +kernel)
  exact ⟨s, hs, hseen, settlesOwed_iff hs⟩

/-- A call of `destroy` while a worker runs task `1` and task `2` is pending: the worker is
terminated before it answers, both tasks are discarded, and neither is settled. -/
theorem destroy_settles_nothing :
    ∃ s, Reachable step (initial 1 none none none) s ∧ ¬ SettlesOwed s := by
  obtain ⟨s, hs, hseen⟩ := exists_reaches_of_runEvents step (fun _ _ => True)
    (fun s => (s.calls.map fun call => (call.owed, call.completed),
      weight (Call.settled 2) s.run.log)) (s := initial 1 none none none)
    [.pool (.message 0 { initialized := true } fun _ => none), .pool (.addTask (cpuTask 1)),
      .pool (.addTask (cpuTask 2)), .pool (.processWorkerTasks fun _ => none), .destroy,
      .terminated 0] ([([2, 1, 2, 1], true)], 0) (by decide +kernel)
  simp only [Prod.mk.injEq] at hseen
  obtain ⟨hcalls, hsettled⟩ := hseen
  refine ⟨s, hs, fun h => ?_⟩
  obtain ⟨call, hcall, hfields⟩ := List.map_eq_singleton_iff.mp hcalls
  simp only [Prod.mk.injEq] at hfields
  have hone := h call (by simp [hcall]) hfields.2 2 (by simp [hfields.1])
  omega

end ShutdownRun

end BulkTraffic.Queue
