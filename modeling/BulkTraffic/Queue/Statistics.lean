import BulkTraffic.Queue.Conservation

/-!
# The statistics add up

`totalProcessed`, `totalRejected` and `totalTimeout` against what was done to the tasks.

A group counts its tasks itself and reports the counts when all of them are settled, so the
counters of the groups in progress are still to be added. `Counted` is the invariant;
`statistics` is the result.
-/

namespace BulkTraffic.Queue

open BulkTraffic.Lib BulkTraffic.Js

/-- Has the chain resolved its task? -/
@[simp] def resolvedChain (r : RunningTask) : ℕ :=
  match r.stage with
  | .settled (.value _) => 1
  | _ => 0

/-- Has the chain rejected its task? -/
@[simp] def rejectedChain (r : RunningTask) : ℕ :=
  match r.stage with
  | .settled (.error _) => 1
  | _ => 0

/-- The counters of a group are the numbers of its tasks resolved and rejected. -/
def BatchGroup.Exact (g : BatchGroup) : Prop :=
  g.processed = weight resolvedChain g.members ∧ g.failed = weight rejectedChain g.members

namespace QueueSystem

/-- Since the statistics were `stats`, every task settled has been counted, but for those in
the counters of groups in progress and for `due` rejections still to be counted. -/
structure Counted (stats : QueueStatsService) (due : ℕ) (s : QueueSystem) : Prop where
  processed : s.stats.totalProcessed + weight BatchGroup.processed s.groups =
    stats.totalProcessed + weight Call.resolves s.log
  rejected : s.stats.totalRejected + weight BatchGroup.failed s.groups + due =
    stats.totalRejected + weight Call.refuses s.log + s.refused
  timeout : s.stats.totalTimeout = stats.totalTimeout + weight Call.timesOut s.log
  groups : ∀ g ∈ s.groups, g.Exact

namespace Counted

variable {stats : QueueStatsService} {due : ℕ} {s : QueueSystem}

/-- What settles and counts no task keeps the invariant. -/
theorem of_same (h : Counted stats due s) {u : QueueSystem} (hstats : u.stats = s.stats)
    (hgroups : u.groups = s.groups) (hrefused : u.refused = s.refused)
    (hresolves : weight Call.resolves u.log = weight Call.resolves s.log)
    (hrefuses : weight Call.refuses u.log = weight Call.refuses s.log)
    (htimesOut : weight Call.timesOut u.log = weight Call.timesOut s.log) :
    Counted stats due u where
  processed := by rw [hstats, hgroups, hresolves]; exact h.processed
  rejected := by rw [hstats, hgroups, hrefuses, hrefused]; exact h.rejected
  timeout := by rw [hstats, htimesOut]; exact h.timeout
  groups := by rw [hgroups]; exact h.groups

theorem of_same_log (h : Counted stats due s) {u : QueueSystem} (hstats : u.stats = s.stats)
    (hgroups : u.groups = s.groups) (hrefused : u.refused = s.refused) (hlog : u.log = s.log) :
    Counted stats due u :=
  h.of_same hstats hgroups hrefused (by rw [hlog]) (by rw [hlog]) (by rw [hlog])

theorem requestProcessQueue (h : Counted stats due s) : Counted stats due s.requestProcessQueue :=
  h.of_same_log rfl rfl rfl rfl

theorem rearm (h : Counted stats due s) : Counted stats due s.rearm := by
  unfold QueueSystem.rearm
  split
  · exact h.requestProcessQueue
  · exact h

/-! ### The worker pool -/

/-- The callbacks of the pool count what is reported to them. -/
theorem callbacks_stats (calls : List Call) (s : QueueSystem) :
    (calls.foldl callback s).stats.totalProcessed =
        s.stats.totalProcessed + weight Call.reportsSuccess calls ∧
      (calls.foldl callback s).stats.totalRejected =
        s.stats.totalRejected + weight Call.reportsFailure calls ∧
      (calls.foldl callback s).stats.totalTimeout = s.stats.totalTimeout := by
  induction calls generalizing s with
  | nil => exact ⟨rfl, rfl, rfl⟩
  | cons c calls ih =>
    obtain ⟨hprocessed, hrejected, htimeout⟩ := ih (s.callback c)
    have hone : (s.callback c).stats.totalProcessed = s.stats.totalProcessed + c.reportsSuccess ∧
        (s.callback c).stats.totalRejected = s.stats.totalRejected + c.reportsFailure ∧
        (s.callback c).stats.totalTimeout = s.stats.totalTimeout := by
      cases c <;> exact ⟨rfl, rfl, rfl⟩
    simp only [List.foldl_cons, weight_cons]
    omega

/-- Work of the pool: each task it settles is reported once. -/
theorem afterPool (h : Counted stats due s) {pool pool' : WorkerPoolService} {calls : List Call}
    (hflow : WorkerPoolService.Flow pool pool' calls) :
    Counted stats due (s.afterPool (pool', calls)) := by
  have hsame := sameTasks_afterPool s (pool', calls)
  have hprocessed : (s.afterPool (pool', calls)).stats.totalProcessed =
      s.stats.totalProcessed + weight Call.reportsSuccess calls := (callbacks_stats calls _).1
  have hrejected : (s.afterPool (pool', calls)).stats.totalRejected =
      s.stats.totalRejected + weight Call.reportsFailure calls := (callbacks_stats calls _).2.1
  have htimeout : (s.afterPool (pool', calls)).stats.totalTimeout = s.stats.totalTimeout :=
    (callbacks_stats calls _).2.2
  have hlog : (s.afterPool (pool', calls)).log = s.log ++ calls := hsame.log
  have hgroups : (s.afterPool (pool', calls)).groups = s.groups := hsame.groups
  have hrefused : (s.afterPool (pool', calls)).refused = s.refused := hsame.refused
  have h₁ := h.processed
  have h₂ := h.rejected
  have h₃ := h.timeout
  have hsuccess := hflow.success
  have hfailure := hflow.failure
  have hnone := hflow.timeout
  constructor
  · rw [hprocessed, hgroups, hlog, weight_append]
    omega
  · rw [hrejected, hgroups, hlog, hrefused, weight_append]
    omega
  · rw [htimeout, hlog, weight_append]
    omega
  · rw [hgroups]
    exact h.groups

/-! ### Ticks and batches -/

theorem drainQueues (h : Counted stats due s) (slots : ℕ) :
    Counted stats due (s.drainQueues slots).1 := by
  rw [drainQueues_eq]
  refine h.of_same rfl rfl rfl ?_ ?_ ?_
  all_goals
    simp only [withQueues, dispatchAll, weight_append]
    rw [weight_dispatch_eq_zero fun _ => rfl, Nat.add_zero]

theorem processQueue (h : Counted stats due s) (post : PostMessage) :
    Counted stats due (s.processQueue post) := by
  apply processQueue_rule h
  · exact fun slots _ => h.drainQueues slots
  · exact fun t ht => ht.afterPool (WorkerPoolService.processWorkerTasks_flow post _)
  · exact fun t ht => ht.rearm

/-- The report of a group adds its counters. -/
theorem onBatchComplete_stats (s : QueueSystem) (processed : ℕ) (activeChange : ℤ) (failed : ℕ) :
    (s.onBatchComplete processed activeChange failed).stats.totalProcessed =
        s.stats.totalProcessed + processed ∧
      (s.onBatchComplete processed activeChange failed).stats.totalRejected =
        s.stats.totalRejected + failed ∧
      (s.onBatchComplete processed activeChange failed).stats.totalTimeout =
        s.stats.totalTimeout := by
  unfold onBatchComplete
  rcases Nat.eq_zero_or_pos failed with rfl | hfailed
  · dsimp only
    rw [if_neg (Nat.lt_irrefl 0)]
    split
    · exact ⟨rfl, rfl, rfl⟩
    · exact ⟨rfl, rfl, rfl⟩
  · dsimp only
    rw [if_pos (show 0 < failed from hfailed)]
    split
    · exact ⟨rfl, rfl, rfl⟩
    · exact ⟨rfl, rfl, rfl⟩

/-- A new group has nothing to count. -/
theorem newGroup_exact (tasks : List QueueTask) :
    BatchGroup.Exact { members := tasks.map fun task => { task := task } } := by
  constructor
  all_goals
    rw [weight_map]
    exact (weight_eq_zero _ fun _ _ => rfl).symm

theorem processBatch (h : Counted stats due s) (category : String) (now : ℕ) :
    Counted stats due (s.processBatch category now) := by
  obtain ⟨taken, -, ⟨-, hb⟩ | hb⟩ := processBatch_cases s category now
  · rw [hb]
    exact h.of_same_log rfl rfl rfl rfl
  · have hsame := sameTasks_onBatchComplete (s.startGroup taken) 0 taken.tasksToProcess.length 0
    obtain ⟨hprocessed, hrejected, htimeout⟩ :=
      onBatchComplete_stats (s.startGroup taken) 0 taken.tasksToProcess.length 0
    have h₁ := h.processed
    have h₂ := h.rejected
    have h₃ := h.timeout
    rw [hb]
    constructor
    · rw [hprocessed, hsame.groups, hsame.log]
      simp only [startGroup, weight_append, weight_cons, weight_nil,
        weight_dispatch_eq_zero (w := Call.resolves) fun _ => rfl]
      omega
    · rw [hrejected, hsame.groups, hsame.log, hsame.refused]
      simp only [startGroup, weight_append, weight_cons, weight_nil,
        weight_dispatch_eq_zero (w := Call.refuses) fun _ => rfl]
      omega
    · rw [htimeout, hsame.log]
      simp only [startGroup, weight_append, weight_dispatch_eq_zero (w := Call.timesOut) fun _ => rfl]
      omega
    · rw [hsame.groups]
      intro g hg
      simp only [startGroup, List.mem_append, List.mem_singleton] at hg
      rcases hg with hg | rfl
      · exact h.groups g hg
      · exact newGroup_exact taken.tasksToProcess

theorem processBatches (h : Counted stats due s) (due' : TaskBatch → Bool) (now : ℕ)
    (categories : List String) : Counted stats due (processBatches due' now categories s) :=
  processBatches_rule (fun _ category h => h.processBatch category now) categories h

theorem finallyGroup (h : Counted stats due s) {u : QueueSystem} {k : ℕ}
    (hu : s.finallyGroup k = some u) : Counted stats due u := by
  obtain ⟨g, hg, -, rfl⟩ := finallyGroup_cases hu
  let t := { s with groups := s.groups.eraseIdx k }
  have hsame := sameTasks_onBatchComplete t g.processed (-(g.members.length : ℤ)) g.failed
  obtain ⟨hprocessed, hrejected, htimeout⟩ :=
    onBatchComplete_stats t g.processed (-(g.members.length : ℤ)) g.failed
  have h₁ := h.processed
  have h₂ := h.rejected
  have hprocessedErase := weight_eraseIdx BatchGroup.processed hg
  have hfailedErase := weight_eraseIdx BatchGroup.failed hg
  constructor
  · rw [hprocessed, hsame.groups, hsame.log]
    simp only [t]
    omega
  · rw [hrejected, hsame.groups, hsame.log, hsame.refused]
    simp only [t]
    omega
  · rw [htimeout, hsame.log]
    exact h.timeout
  · rw [hsame.groups]
    exact fun g' hg' => h.groups g' (List.mem_of_mem_eraseIdx hg')

/-! ### Waiting tasks -/

/-- Rejections that are counted afterwards. -/
theorem record_refused (h : Counted stats due s) {calls : List Call} {n : ℕ}
    (hresolves : weight Call.resolves calls = 0) (hrefuses : weight Call.refuses calls = n)
    (htimesOut : weight Call.timesOut calls = 0) : Counted stats (due + n) (s.record calls) := by
  have h₁ := h.processed
  have h₂ := h.rejected
  have h₃ := h.timeout
  refine ⟨?_, ?_, ?_, h.groups⟩
  · simp only [record, weight_append]
    omega
  · simp only [record, weight_append]
    omega
  · simp only [record, weight_append]
    omega

theorem countRejected {n : ℕ} (h : Counted stats (due + n) s) :
    Counted stats due (s.countRejected n) := by
  have h₂ := h.rejected
  refine ⟨h.processed, ?_, h.timeout, h.groups⟩
  simp only [QueueSystem.countRejected, QueueStatsService.incrementRejected]
  omega

theorem cleanupOldTasks (h : Counted stats due s) (now : ℕ) :
    Counted stats due (s.cleanupOldTasks now) := by
  have hmem : ∀ c ∈ (MemoryService.cleanupOldTasks now s.state).1,
      ∃ task reason, c = .reject task .cleanup reason := fun c hc => cleanupOldTasks_mem hc
  have hresolves : weight Call.resolves (MemoryService.cleanupOldTasks now s.state).1 = 0 :=
    weight_eq_zero _ fun c hc => by obtain ⟨task, reason, rfl⟩ := hmem c hc; rfl
  have hrefuses : weight Call.refuses (MemoryService.cleanupOldTasks now s.state).1 = 0 :=
    weight_eq_zero _ fun c hc => by obtain ⟨task, reason, rfl⟩ := hmem c hc; rfl
  have htimesOut : weight Call.timesOut (MemoryService.cleanupOldTasks now s.state).1 =
      (MemoryService.cleanupOldTasks now s.state).1.length := by
    rw [← Nat.one_mul (List.length _), ← weight_const]
    exact weight_congr fun c hc => by obtain ⟨task, reason, rfl⟩ := hmem c hc; rfl
  have h₁ := h.processed
  have h₂ := h.rejected
  have h₃ := h.timeout
  unfold QueueSystem.cleanupOldTasks
  refine ⟨?_, ?_, ?_, h.groups⟩
  · simp only [countTimeout, QueueStatsService.incrementTimeout, record, weight_append]
    omega
  · simp only [countTimeout, QueueStatsService.incrementTimeout, record, weight_append]
    omega
  · simp only [countTimeout, QueueStatsService.incrementTimeout, record, weight_append]
    omega

theorem forceReduceQueues (h : Counted stats due s) (now : ℕ) :
    Counted stats due (s.forceReduceQueues now) := by
  unfold QueueSystem.forceReduceQueues
  dsimp only
  refine countRejected (processBatches (record_refused ?_ ?_ ?_ ?_) _ now _)
  · exact h.of_same_log rfl rfl rfl rfl
  · rw [weight_map]
    exact weight_eq_zero _ fun _ _ => rfl
  · rw [weight_map]
    exact (weight_const 1 _).trans (Nat.one_mul _)
  · rw [weight_map]
    exact weight_eq_zero _ fun _ _ => rfl

theorem checkMemoryUsage (h : Counted stats due s) (usage : MemoryUsage) (now : ℕ) :
    Counted stats due (s.checkMemoryUsage usage now) :=
  checkMemoryUsage_rule (P := Counted stats due) (h.of_same_log rfl rfl rfl rfl)
    (fun _ h => h.cleanupOldTasks now) (fun _ h => h.forceReduceQueues now)
    fun _ h => h.requestProcessQueue

theorem onQueueWaitTimeout (h : Counted stats due s) (task : QueueTask) :
    Counted stats due (s.onQueueWaitTimeout task) := by
  have h₁ := h.processed
  have h₂ := h.rejected
  have h₃ := h.timeout
  unfold QueueSystem.onQueueWaitTimeout
  split
  · refine ⟨?_, ?_, ?_, h.groups⟩
    · simp only [countTimeout, QueueStatsService.incrementTimeout, record, weight_append, weight_cons,
        weight_nil, Call.resolves]
      omega
    · simp only [countTimeout, QueueStatsService.incrementTimeout, record, weight_append, weight_cons,
        weight_nil, Call.refuses, Settler.countsTimeout, if_true]
      omega
    · simp only [countTimeout, QueueStatsService.incrementTimeout, record, weight_append, weight_cons,
        weight_nil, Call.timesOut, Settler.countsTimeout, if_true]
      omega
  · exact h

theorem enqueue (h : Counted stats due s) (options : EnqueueOptions) (now : ℕ) :
    Counted stats due (s.enqueue options now).2 := by
  obtain ⟨parser, he | he | ⟨normalized, -, -, he⟩⟩ := enqueue_cases s options now
  · rw [he]
    exact h.of_same_log rfl rfl rfl rfl
  · rw [he]
    refine countRejected (n := 1) ⟨h.processed, ?_, h.timeout, h.groups⟩
    have h₂ := h.rejected
    dsimp only
    omega
  · rw [he]
    unfold QueueSystem.accept
    apply requestProcessQueue
    rw [place_frame]
    exact h.of_same_log rfl rfl rfl rfl

/-! ### Promise chains -/

/-- A step that does not settle its task makes no call that is counted. -/
theorem stepCalls_uncounted (task : QueueTask) {p : PromiseStep} {stage : Stage}
    (hvalue : ∀ v, p = .settle → stage = .settled (.value v) → False)
    (herror : ∀ e, p = .settle → stage = .settled (.error e) → False) :
    weight Call.resolves (stepCalls task p stage) = 0 ∧
      weight Call.refuses (stepCalls task p stage) = 0 ∧
      weight Call.timesOut (stepCalls task p stage) = 0 := by
  unfold stepCalls
  split
  · exact ⟨rfl, rfl, rfl⟩
  · rename_i outcome
    cases outcome with
    | value v => exact (hvalue v rfl rfl).elim
    | error e => exact (herror e rfl rfl).elim
  · exact ⟨rfl, rfl, rfl⟩

theorem count_stats (g : BatchGroup) (task : QueueTask) (p : PromiseStep) (stage : Stage) :
    (g.count p stage).processed = g.processed + weight Call.resolves (stepCalls task p stage) ∧
      (g.count p stage).failed = g.failed + weight Call.refuses (stepCalls task p stage) ∧
      weight Call.timesOut (stepCalls task p stage) = 0 := by
  unfold BatchGroup.count
  split
  · exact ⟨rfl, rfl, rfl⟩
  · exact ⟨rfl, rfl, rfl⟩
  · rename_i hvalue herror
    obtain ⟨hresolves, hrefuses, htimesOut⟩ := stepCalls_uncounted task hvalue herror
    rw [hresolves, hrefuses]
    exact ⟨rfl, rfl, htimesOut⟩

theorem countSingle_stats (s : QueueSystem) (task : QueueTask) (p : PromiseStep) (stage : Stage) :
    (s.countSingle p stage).stats.totalProcessed =
        s.stats.totalProcessed + weight Call.resolves (stepCalls task p stage) ∧
      (s.countSingle p stage).stats.totalRejected =
        s.stats.totalRejected + weight Call.refuses (stepCalls task p stage) ∧
      (s.countSingle p stage).stats.totalTimeout = s.stats.totalTimeout := by
  unfold countSingle
  split
  · exact ⟨rfl, rfl, rfl⟩
  · exact ⟨rfl, rfl, rfl⟩
  · rename_i hvalue herror
    obtain ⟨hresolves, hrefuses, -⟩ := stepCalls_uncounted task hvalue herror
    rw [hresolves, hrefuses]
    exact ⟨rfl, rfl, rfl⟩

theorem advanceSingle (h : Counted stats due s) {u : QueueSystem} {k : ℕ} {p : PromiseStep}
    (hu : s.advanceSingle k p = some u) : Counted stats due u := by
  obtain ⟨r, stage, -, -, rfl⟩ := advanceSingle_cases hu
  let t := { s with running := s.running.set k { r with stage := stage } }.record
    (stepCalls r.task p stage)
  have hsame := sameTasks_countSingle t p stage
  obtain ⟨hprocessed, hrejected, htimeout⟩ := countSingle_stats t r.task p stage
  have hnone := (count_stats { members := [] } r.task p stage).2.2
  have h₁ := h.processed
  have h₂ := h.rejected
  have h₃ := h.timeout
  refine ⟨?_, ?_, ?_, ?_⟩
  · rw [hprocessed, hsame.groups, hsame.log]
    simp only [t, record, weight_append]
    omega
  · rw [hrejected, hsame.groups, hsame.log, hsame.refused]
    simp only [t, record, weight_append]
    omega
  · rw [htimeout, hsame.log]
    simp only [t, record, weight_append]
    omega
  · rw [hsame.groups]
    exact h.groups

/-- A member's step counts its task when it settles it. -/
theorem chain_stats {r : RunningTask} {p : PromiseStep} {stage : Stage}
    (h : r.stage.next p = some stage) :
    resolvedChain { r with stage := stage } =
        resolvedChain r + weight Call.resolves (stepCalls r.task p stage) ∧
      rejectedChain { r with stage := stage } =
        rejectedChain r + weight Call.refuses (stepCalls r.task p stage) := by
  obtain ⟨task, old⟩ := r
  cases Stage.moves_of_next h with
  | settle outcome => cases outcome <;> exact ⟨rfl, rfl⟩
  | _ => exact ⟨rfl, rfl⟩

theorem advanceMember (h : Counted stats due s) {u : QueueSystem} {k m : ℕ} {p : PromiseStep}
    (hu : s.advanceMember k m p = some u) : Counted stats due u := by
  obtain ⟨g, r, stage, hg, hr, hstage, rfl⟩ := advanceMember_cases hu
  obtain ⟨hprocessed, hfailed, hnone⟩ :=
    count_stats { g with members := g.members.set m { r with stage := stage } } r.task p stage
  have h₁ := h.processed
  have h₂ := h.rejected
  have h₃ := h.timeout
  have hprocessedSet := weight_set BatchGroup.processed hg
    ({ g with members := g.members.set m { r with stage := stage } }.count p stage)
  have hfailedSet := weight_set BatchGroup.failed hg
    ({ g with members := g.members.set m { r with stage := stage } }.count p stage)
  dsimp only at hprocessed hfailed
  refine ⟨?_, ?_, ?_, ?_⟩
  · simp only [record, weight_append]
    omega
  · simp only [record, weight_append]
    omega
  · simp only [record, weight_append]
    omega
  · intro b hb
    rcases List.mem_or_eq_of_mem_set hb with hb | rfl
    · exact h.groups b hb
    · obtain ⟨hg₁, hg₂⟩ := h.groups g (List.mem_of_getElem? hg)
      obtain ⟨hr₁, hr₂⟩ := chain_stats hstage
      have hset₁ := weight_set resolvedChain hr { r with stage := stage }
      have hset₂ := weight_set rejectedChain hr { r with stage := stage }
      unfold BatchGroup.Exact
      rw [count_members, hprocessed, hfailed]
      dsimp only
      omega

/-! ### Runs -/

/-- Every step keeps the invariant. -/
theorem step (h : Counted stats due s) {u : QueueSystem} {e : QueueEvent}
    (hu : s.step e = some u) : Counted stats due u := by
  cases takes_of_step hu with
  | enqueue options now => exact h.enqueue options now
  | @processSignal post _ =>
    refine processQueue ?_ post
    exact h.of_same_log rfl rfl rfl rfl
  | tasksWait _ => exact h.requestProcessQueue
  | nothingWaits _ => exact h
  | @batchTrigger _ now _ _ =>
    refine processBatch ?_ _ now
    exact h.of_same_log rfl rfl rfl rfl
  | batchAgingTimer now => exact h.processBatches _ now _
  | memoryCheckTimer usage now => exact h.checkMemoryUsage usage now
  | statsLogTimer => exact ⟨h.processed, h.rejected, h.timeout, h.groups⟩
  | queueWaitTimer _ =>
    refine onQueueWaitTimeout ?_ _
    exact h.of_same_log rfl rfl rfl rfl
  | single hadvances => exact h.advanceSingle hadvances
  | member hadvances => exact h.advanceMember hadvances
  | finallySingle hleaves =>
    obtain ⟨r, -, -, rfl⟩ := finallySingle_cases hleaves
    exact h.of_same_log rfl rfl rfl rfl
  | finallyGroup hleaves => exact h.finallyGroup hleaves
  | @workerMessage i result post _ _ _ =>
    refine afterPool ?_ (WorkerPoolService.onMessage_flow post _ i result)
    exact h.of_same_log rfl rfl rfl rfl
  | @workerFailure i error post _ =>
    exact h.afterPool (WorkerPoolService.handleWorkerFailure_flow post s.pool i error)

end Counted

variable {config : QueueConfig} {taskIdCounter : ℕ} {stats : QueueStatsService}
  {allowCustomWorkload useWorkers : Bool} {workerCount : ℕ} {cpu memory custom : Option ℕ}

theorem Counted.of_reachable {s : QueueSystem}
    (h : Reachable QueueSystem.step (initial config taskIdCounter stats allowCustomWorkload useWorkers
      workerCount cpu memory custom) s) : Counted stats 0 s := by
  refine h.invariant ⟨rfl, rfl, rfl, ?_⟩ fun _ _ _ hs _ hu => hs.step hu
  intro g hg
  cases hg

/-! ### Calls and tasks -/

/-- How many accepted tasks were settled by a call of the given kind. -/
def tasksSettled (s : QueueSystem) (kind : ℕ → Call → ℕ) : ℕ :=
  (s.accepted.filter fun task => 0 < weight (kind task.id) s.log).length

/-- A call that settles a task settles one accepted task. -/
theorem weight_settled_accepted {s : QueueSystem} (h : Ledger s) {c : Call} (hc : c ∈ s.log)
    {task : QueueTask} (ht : c.settles = some task) :
    weight (fun t => c.settled t.id) s.accepted = 1 := by
  have hsettled : ∀ x, c.settled x = isTask x task := by
    intro x
    cases c <;> simp_all [Call.settles]
  have hsym : weight (fun t => c.settled t.id) s.accepted = weight (isTask task.id) s.accepted :=
    weight_congr fun t _ => by simp only [hsettled, isTask, eq_comm]
  have hpos := le_weight_of_mem (Call.settled task.id) hc
  have hle := h.settled_le_one task.id
  have honce := h.once task.id
  have hself : isTask task.id task = 1 := by simp [isTask]
  rw [hsettled, hself] at hpos
  omega

/-- **Calls and tasks**: the calls of a kind are as many as the accepted tasks they settle. -/
theorem tasksSettled_eq {s : QueueSystem} (h : Ledger s) {kind : ℕ → Call → ℕ} {count : Call → ℕ}
    (hcount : ∀ c, (count c = 0 ∧ ∀ x, kind x c = 0) ∨
      (count c = 1 ∧ (∀ x, kind x c = c.settled x) ∧ ∃ task, c.settles = some task)) :
    weight count s.log = s.tasksSettled kind := by
  have hle : ∀ x c, kind x c ≤ c.settled x := by
    intro x c
    obtain ⟨-, hzero⟩ | ⟨-, hkind, -⟩ := hcount c
    · exact (hzero x).trans_le (Nat.zero_le _)
    · exact (hkind x).le
  have hone : ∀ task ∈ s.accepted, weight (kind task.id) s.log ≤ 1 := by
    intro task _
    have hweight := weight_le_weight (l := s.log) fun c _ => hle task.id c
    have := h.settled_le_one task.id
    have := h.once task.id
    omega
  rw [tasksSettled, ← weight_eq_length_filter hone, weight_comm]
  refine weight_congr fun c hc => ?_
  obtain ⟨hnone, hzero⟩ | ⟨hsome, hkind, task, ht⟩ := hcount c
  · rw [hnone]
    exact (weight_eq_zero _ fun t _ => hzero t.id).symm
  · rw [hsome, ← weight_settled_accepted h hc ht]
    exact weight_congr fun t _ => (hkind t.id).symm

/-- **The statistics add up.** In every state of every run, `totalProcessed` has grown by the
number of accepted tasks resolved, and `totalRejected + totalTimeout` by the number of accepted
tasks rejected and of calls of `enqueue` refused, but for what groups in progress have in their
counters: the numbers of their tasks resolved and rejected. A task rejected for its waiting too
long is counted in `totalTimeout` and any other in `totalRejected`; no task is settled twice. -/
theorem statistics {s : QueueSystem}
    (h : Reachable step (initial config taskIdCounter stats allowCustomWorkload useWorkers
      workerCount cpu memory custom) s) :
    s.stats.totalProcessed + weight BatchGroup.processed s.groups =
        stats.totalProcessed + s.tasksSettled Call.resolved ∧
      s.stats.totalRejected + s.stats.totalTimeout + weight BatchGroup.failed s.groups =
        stats.totalRejected + stats.totalTimeout + s.tasksSettled Call.rejected + s.refused ∧
      s.stats.totalTimeout = stats.totalTimeout + s.tasksSettled Call.timedOut ∧
      (∀ g ∈ s.groups, g.processed = weight resolvedChain g.members ∧
        g.failed = weight rejectedChain g.members) ∧
      ∀ x, weight (Call.resolved x) s.log + weight (Call.refused x) s.log +
        weight (Call.timedOut x) s.log ≤ 1 := by
  have hledger := Ledger.of_reachable h
  have hcounted := Counted.of_reachable h
  have hresolved : weight Call.resolves s.log = s.tasksSettled Call.resolved :=
    tasksSettled_eq hledger fun c => by cases c <;> simp [Call.settles]
  have hrejected : weight (fun c => c.refuses + c.timesOut) s.log = s.tasksSettled Call.rejected :=
    tasksSettled_eq hledger fun c => by
      cases c with
      | reject task settler reason => cases settler <;> simp [Call.settles, Settler.countsTimeout]
      | _ => simp
  have htimedOut : weight Call.timesOut s.log = s.tasksSettled Call.timedOut :=
    tasksSettled_eq hledger fun c => by
      cases c with
      | reject task settler reason => cases settler <;> simp [Call.settles, Settler.countsTimeout]
      | _ => simp
  rw [weight_add] at hrejected
  have h₁ := hcounted.processed
  have h₂ := hcounted.rejected
  have h₃ := hcounted.timeout
  refine ⟨by omega, by omega, by omega, hcounted.groups, fun x => ?_⟩
  have hsettled := hledger.settled_le_one x
  have honce := hledger.once x
  have hsplit := weight_settled_eq_resolved_add_rejected x s.log
  have hrejections := weight_rejected x s.log
  omega

/-- A call of `enqueue` refused because a task fills the queue. -/
theorem statistics_after_refusal :
    ∃ s, Reachable step (initial { queueOverflowThreshold := 1 } 0 {} false false 0 none none none) s ∧
      s.refused = 1 ∧
      (s.stats.totalProcessed + weight BatchGroup.processed s.groups =
          0 + s.tasksSettled Call.resolved ∧
        s.stats.totalRejected + s.stats.totalTimeout + weight BatchGroup.failed s.groups =
          0 + 0 + s.tasksSettled Call.rejected + s.refused ∧
        s.stats.totalTimeout = 0 + s.tasksSettled Call.timedOut ∧
        (∀ g ∈ s.groups, g.processed = weight resolvedChain g.members ∧
          g.failed = weight rejectedChain g.members) ∧
        ∀ x, weight (Call.resolved x) s.log + weight (Call.refused x) s.log +
          weight (Call.timedOut x) s.log ≤ 1) := by
  obtain ⟨s, hs, hseen⟩ := exists_reaches_of_runEvents step (fun _ _ => True) QueueSystem.refused
    (s := initial { queueOverflowThreshold := 1 } 0 {} false false 0 none none none)
    [.enqueue {} 0, .enqueue {} 0] 1 (by decide +kernel)
  exact ⟨s, hs, hseen, statistics hs⟩

end QueueSystem

end BulkTraffic.Queue
