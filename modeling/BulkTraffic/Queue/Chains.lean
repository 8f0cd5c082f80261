import BulkTraffic.Queue.Timeouts

/-!
# Promise chains

What a step of the queue does to the promise chains of the tasks on the main thread, by weights of
the chains.

* `step_chain`: the event of a chain moves that chain on, and makes its calls.
* `step_leavesChains`: every other step executes nothing, and leaves alone what weighs nothing
  before its task is executed and after it is settled.
* `chains_pos_of_step`: so a chain found by such a weight is found after the step, or it is the one
  that has moved on.
-/

namespace BulkTraffic.Queue

open BulkTraffic.Lib BulkTraffic.Js

namespace QueueSystem

/-! ### What a step does to the promise chains -/

/-- No promise chain that weighs something moves on, and no task is executed. -/
structure LeavesChains (w : RunningTask → ℕ) (s u : QueueSystem) : Prop where
  chains : u.chains w = s.chains w
  executed : ∀ x, weight (Call.executed x) u.log = weight (Call.executed x) s.log

namespace LeavesChains

variable {w : RunningTask → ℕ}

theorem refl (s : QueueSystem) : LeavesChains w s s := ⟨rfl, fun _ => rfl⟩

theorem trans {s t u : QueueSystem} (h : LeavesChains w s t) (h' : LeavesChains w t u) :
    LeavesChains w s u :=
  ⟨h'.chains.trans h.chains, fun x => (h'.executed x).trans (h.executed x)⟩

theorem of_sameTasks {s u : QueueSystem} (h : SameTasks s u) : LeavesChains w s u := by
  constructor
  · simp only [QueueSystem.chains, h.running, h.groups]
  · intro x
    rw [h.log]

/-- Calls are recorded that execute nothing. -/
theorem of_record {s t : QueueSystem} {calls : List Call} (hrunning : t.running = s.running)
    (hgroups : t.groups = s.groups) (hlog : t.log = s.log)
    (hcalls : ∀ c ∈ calls, ∀ x, c.executed x = 0) : LeavesChains w s (t.record calls) := by
  constructor
  · simp only [QueueSystem.chains, record, hrunning, hgroups]
  · intro x
    rw [record, hlog, weight_append, weight_eq_zero _ fun c hc => hcalls c hc x, Nat.add_zero]

theorem afterPool (s : QueueSystem) {pool : WorkerPoolService} {calls : List Call}
    (h : WorkerPoolService.Flow s.pool pool calls) : LeavesChains w s (s.afterPool (pool, calls)) := by
  refine LeavesChains.trans ?_ (of_sameTasks (sameTasks_afterPool s (pool, calls)))
  refine of_record rfl rfl rfl fun c hc x => ?_
  have hnone := h.main x
  have hle : c.executed x ≤ weight (Call.executed x) calls := le_weight_of_mem _ hc
  omega

variable (hqueued : ∀ task, w { task := task } = 0)
include hqueued

theorem processQueue (post : PostMessage) (s : QueueSystem) :
    LeavesChains w s (s.processQueue post) := by
  have hnew : ∀ tasks : List QueueTask, weight w (tasks.map fun task => { task := task }) = 0 := by
    intro tasks
    rw [weight_map]
    exact weight_eq_zero _ fun task _ => hqueued task
  have hdrained : ∀ slots, LeavesChains w s (s.drainQueues slots).1 := by
    intro slots
    rw [drainQueues_eq]
    constructor
    · simp only [withQueues, dispatchAll, QueueSystem.chains, weight_append, hnew, Nat.add_zero]
    · intro x
      simp only [withQueues, dispatchAll, weight_append,
        weight_dispatch_eq_zero (w := Call.executed x) fun _ => rfl, Nat.add_zero]
  refine processQueue_rule (P := LeavesChains w s) (refl s) (fun slots _ => hdrained slots)
    (fun t ht => ?_) fun t ht => ?_
  · exact ht.trans (afterPool t (WorkerPoolService.processWorkerTasks_flow post _))
  · exact ht.trans (of_sameTasks (sameTasks_rearm t))

theorem processBatch (s : QueueSystem) (category : String) (now : ℕ) :
    LeavesChains w s (s.processBatch category now) := by
  obtain ⟨taken, -, ⟨-, hb⟩ | hb⟩ := processBatch_cases s category now
  · rw [hb]
    exact ⟨rfl, fun _ => rfl⟩
  · rw [hb]
    refine LeavesChains.trans ?_ (of_sameTasks (sameTasks_onBatchComplete _ _ _ _))
    have hnew : weight w (taken.tasksToProcess.map fun task => { task := task }) = 0 := by
      rw [weight_map]
      exact weight_eq_zero _ fun task _ => hqueued task
    constructor
    · simp only [startGroup, QueueSystem.chains, weight_append, weight_cons, weight_nil, inGroup,
        hnew, Nat.add_zero]
    · intro x
      simp only [startGroup, weight_append,
        weight_dispatch_eq_zero (w := Call.executed x) fun _ => rfl, Nat.add_zero]

theorem processBatches (due : TaskBatch → Bool) (now : ℕ) (categories : List String)
    (s : QueueSystem) : LeavesChains w s (processBatches due now categories s) :=
  processBatches_rule (P := fun t => LeavesChains w s t)
    (fun t category h => h.trans (processBatch hqueued t category now)) categories (refl s)

theorem checkMemoryUsage (s : QueueSystem) (usage : MemoryUsage) (now : ℕ) :
    LeavesChains w s (s.checkMemoryUsage usage now) := by
  refine checkMemoryUsage_rule (P := fun t => LeavesChains w s t) ⟨rfl, fun _ => rfl⟩
    (fun t h => h.trans ?_) (fun t h => h.trans ?_)
    fun t h => h.trans (of_sameTasks (sameTasks_requestProcessQueue t))
  · refine LeavesChains.trans ?_ (of_sameTasks (sameTasks_countTimeout _ _))
    refine of_record rfl rfl rfl fun c hc x => ?_
    obtain ⟨task, reason, rfl⟩ := cleanupOldTasks_mem hc
    rfl
  · refine LeavesChains.trans ?_ (of_sameTasks (sameTasks_countRejected _ _))
    refine LeavesChains.trans ?_ (processBatches hqueued _ now _ _)
    refine of_record rfl rfl rfl fun c hc x => ?_
    obtain ⟨task, -, rfl⟩ := List.mem_map.mp hc
    rfl

end LeavesChains

/-- A chain weighs no more than all of them. -/
theorem le_chains {s : QueueSystem} {c : Chain} {r : RunningTask} (h : s.chainAt c = some r)
    (w : RunningTask → ℕ) : w r ≤ s.chains w := by
  cases c with
  | single k =>
    have hle := le_weight_of_mem w (List.mem_of_getElem? h)
    rw [chains]
    omega
  | member k m =>
    obtain ⟨g, hg, hr⟩ := Option.bind_eq_some_iff.mp h
    have hmember := le_weight_of_mem w (List.mem_of_getElem? hr)
    have hgroup := le_weight_of_mem (inGroup w) (List.mem_of_getElem? hg)
    rw [inGroup] at hgroup
    rw [chains]
    omega

/-- **A chain that moves on**: its weight changes, and it makes its calls. -/
theorem step_chain {s u : QueueSystem} {c : Chain} {p : PromiseStep}
    (h : s.step (c.event p) = some u) :
    ∃ r stage, s.chainAt c = some r ∧ r.stage.next p = some stage ∧
      u.log = s.log ++ stepCalls r.task p stage ∧
      ∀ w, u.chains w + w r = s.chains w + w { r with stage := stage } := by
  cases c with
  | single k =>
    obtain ⟨r, stage, hr, hstage, rfl⟩ := advanceSingle_cases h
    have hsame := sameTasks_countSingle ({ s with running := (s.running.set k { r with stage := stage }) }.record
      (stepCalls r.task p stage)) p stage
    refine ⟨r, stage, hr, hstage, hsame.log, fun w => ?_⟩
    have hset := weight_set w hr { r with stage := stage }
    rw [chains, chains, hsame.running, hsame.groups]
    dsimp only [record]
    omega
  | member k m =>
    obtain ⟨g, r, stage, hg, hr, hstage, rfl⟩ := advanceMember_cases h
    have hat : s.chainAt (.member k m) = some r := Option.bind_eq_some_iff.mpr ⟨g, hg, hr⟩
    refine ⟨r, stage, hat, hstage, rfl, fun w => ?_⟩
    have hgroup := weight_set (inGroup w) hg
      ({ g with members := g.members.set m { r with stage := stage } }.count p stage)
    have hmember := weight_set w hr { r with stage := stage }
    simp only [inGroup, count_members] at hgroup
    simp only [chains, record]
    omega

/-- **Every other step** leaves the chains that weigh something alone, where those that are queued
or have settled their task weigh nothing. -/
theorem step_leavesChains {w : RunningTask → ℕ} (hqueued : ∀ task, w { task := task } = 0)
    (hsettled : ∀ r : RunningTask, r.stage.isSettled = true → w r = 0) {s u : QueueSystem}
    {e : QueueEvent} (hu : s.step e = some u) :
    (∃ c p, e = Chain.event p c) ∨ LeavesChains w s u := by
  cases takes_of_step hu with
  | single hadvances => exact .inl ⟨.single _, _, rfl⟩
  | member hadvances => exact .inl ⟨.member _ _, _, rfl⟩
  | enqueue options now =>
    obtain ⟨parser, he | he | ⟨normalized, -, -, he⟩⟩ := enqueue_cases s options now
    · rw [he]
      exact .inr ⟨rfl, fun _ => rfl⟩
    · rw [he]
      exact .inr ⟨rfl, fun _ => rfl⟩
    · rw [he, accept, place_frame]
      exact .inr ⟨rfl, fun _ => rfl⟩
  | @processSignal post _ =>
    refine .inr (LeavesChains.trans ?_ (.processQueue hqueued post _))
    exact ⟨rfl, fun _ => rfl⟩
  | tasksWait _ => exact .inr (.of_sameTasks (sameTasks_requestProcessQueue s))
  | nothingWaits _ => exact .inr (.refl s)
  | @batchTrigger _ now category _ =>
    have hbatch := LeavesChains.processBatch hqueued
    exact .inr ⟨(hbatch _ category now).chains, (hbatch _ category now).executed⟩
  | batchAgingTimer now => exact .inr (.processBatches hqueued _ now _ s)
  | memoryCheckTimer usage now => exact .inr (.checkMemoryUsage hqueued s usage now)
  | statsLogTimer => exact .inr ⟨rfl, fun _ => rfl⟩
  | @queueWaitTimer k task _ =>
    refine .inr ?_
    rw [onQueueWaitTimeout]
    split
    · refine .of_record rfl rfl rfl fun c hc x => ?_
      obtain rfl := List.mem_singleton.mp hc
      rfl
    · exact ⟨rfl, fun _ => rfl⟩
  | @finallySingle _ k hleaves =>
    obtain ⟨r, hr, hstage, rfl⟩ := finallySingle_cases hleaves
    have herase := weight_eraseIdx w hr
    rw [hsettled r hstage] at herase
    refine .inr ⟨?_, fun _ => rfl⟩
    simp only [chains, releaseSlot, requestProcessQueue]
    omega
  | @finallyGroup _ k hleaves =>
    obtain ⟨g, hg, hstages, rfl⟩ := finallyGroup_cases hleaves
    have hnone : inGroup w g = 0 := weight_eq_zero _ fun r hr => hsettled r (hstages r hr)
    have herase := weight_eraseIdx (inGroup w) hg
    refine .inr (LeavesChains.trans ?_ (.of_sameTasks (sameTasks_onBatchComplete _ _ _ _)))
    refine ⟨?_, fun _ => rfl⟩
    simp only [chains]
    omega
  | @workerMessage i result post pool _ hsend =>
    obtain ⟨hqueue, hassigned, -⟩ := send_fields hsend
    exact .inr (.afterPool s ((WorkerPoolService.onMessage_flow post pool i result).congr_left
      hqueue.symm hassigned.symm))
  | @workerFailure i error post _ =>
    exact .inr (.afterPool s (WorkerPoolService.handleWorkerFailure_flow post s.pool i error))

/-- A chain that weighs something goes on to do so, or it has just moved on. -/
theorem chains_pos_of_step {w : RunningTask → ℕ} (hqueued : ∀ task, w { task := task } = 0)
    (hsettled : ∀ r : RunningTask, r.stage.isSettled = true → w r = 0) {s u : QueueSystem}
    {e : QueueEvent} (hpos : 0 < s.chains w) (hu : s.step e = some u) :
    0 < u.chains w ∨ ∃ c p r stage, e = Chain.event p c ∧ s.chainAt c = some r ∧
      r.stage.next p = some stage ∧ 0 < w r ∧ w { r with stage := stage } = 0 ∧
      u.log = s.log ++ stepCalls r.task p stage := by
  obtain ⟨c, p, rfl⟩ | hleaves := step_leavesChains hqueued hsettled hu
  · obtain ⟨r, stage, hr, hstage, hlog, hchains⟩ := step_chain hu
    have hw := hchains w
    have hle := le_chains hr w
    by_cases hmoved : 0 < w r ∧ w { r with stage := stage } = 0
    · exact .inr ⟨c, p, r, stage, rfl, hr, hstage, hmoved.1, hmoved.2, hlog⟩
    · left
      omega
  · left
    rw [hleaves.chains]
    exact hpos

/-- The weight that finds task `x` while it is being executed. -/
def startedTask (x : ℕ) (r : RunningTask) : ℕ :=
  match r.stage with
  | .started => isTask x r.task
  | _ => 0

/-- The weight that finds task `x` from when its execution timer has rejected it until its chain
notices. -/
def timedOutTask (x timeoutMs : ℕ) (r : RunningTask) : ℕ :=
  match r.stage with
  | .finished (.error (.error message)) =>
    if message = executionTimeoutMessage timeoutMs then isTask x r.task else 0
  | _ => 0

theorem startedTask_le (x : ℕ) (r : RunningTask) : startedTask x r ≤ unsettledTask x r := by
  obtain ⟨task, stage⟩ := r
  cases stage <;> simp [startedTask]

theorem timedOutTask_le (x timeoutMs : ℕ) (r : RunningTask) :
    timedOutTask x timeoutMs r ≤ unsettledTask x r := by
  rw [timedOutTask]
  split
  · rename_i hstage
    rw [unsettledTask, hstage]
    dsimp only
    split <;> omega
  · exact Nat.zero_le _

/-- What weighs no more than unsettled tasks weighs nothing once settled. -/
theorem eq_zero_of_isSettled {w : RunningTask → ℕ} {x : ℕ} (hle : ∀ r, w r ≤ unsettledTask x r)
    {r : RunningTask} (h : r.stage.isSettled = true) : w r = 0 := by
  have hr := hle r
  rw [(settled_weights h x).1] at hr
  omega

/-- A task whose chain is under way is not settled. -/
theorem Ledger.settled_eq_zero {s : QueueSystem} (h : Ledger s) {w : RunningTask → ℕ} {x : ℕ}
    (hle : ∀ r, w r ≤ unsettledTask x r) (hpos : 0 < s.chains w) :
    weight (Call.settled x) s.log = 0 := by
  have hchains : s.chains w ≤ s.chains (unsettledTask x) := by
    have hrunning := weight_le_weight (l := s.running) fun r _ => hle r
    have hgroups := weight_le_weight (l := s.groups) (w := inGroup w)
      (v := inGroup (unsettledTask x)) fun g _ => weight_le_weight fun r _ => hle r
    simp only [chains]
    omega
  have h₁ := h.once x
  have h₂ := h.place x
  have h₃ := h.main x
  have h₄ := h.worker x
  have h₅ := weight_settled x s.log
  omega

/-- Where a step executes a task, its chain is the one that moves on. -/
theorem started_of_step {s u : QueueSystem} {e : QueueEvent} {calls : List Call} {x : ℕ}
    (hu : s.step e = some u) (hlog : u.log = s.log ++ calls)
    (hexecuted : 0 < weight (Call.executed x) calls) : 0 < u.chains (startedTask x) := by
  obtain ⟨c, p, rfl⟩ | hleaves := step_leavesChains (w := fun _ => 0) (fun _ => rfl) (fun _ _ => rfl) hu
  · obtain ⟨r, stage, hr, hstage, hnew, hchains⟩ := step_chain hu
    have hsame : calls = stepCalls r.task p stage := List.append_cancel_left (hlog.symm.trans hnew)
    rw [hsame] at hexecuted
    obtain ⟨task, old⟩ := r
    cases Stage.moves_of_next hstage with
    | start =>
      have hmoved := hchains (startedTask x)
      have hbefore : startedTask x { task := task } = 0 := rfl
      have hafter : startedTask x ⟨task, .started⟩ = isTask x task := rfl
      have hpos : 0 < isTask x task := by simpa [stepCalls] using hexecuted
      dsimp only at hmoved
      omega
    | settle outcome => cases outcome <;> cases hexecuted
    | _ => cases hexecuted
  · have hsame := hleaves.executed x
    rw [hlog, weight_append] at hsame
    omega

/-- A task is executed at most once. -/
theorem Ledger.executed_le_one {s : QueueSystem} (h : Ledger s) (x : ℕ) :
    weight (Call.executed x) s.log ≤ 1 := by
  have h₁ := h.once x
  have h₂ := h.place x
  have h₃ := h.execute x
  omega

end QueueSystem

end BulkTraffic.Queue
