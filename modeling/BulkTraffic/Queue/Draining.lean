import BulkTraffic.Queue.Slots
import BulkTraffic.Queue.Signals
import BulkTraffic.Lib.Draining

/-!
# The queue drains

The queue with the worker pool disabled, from any reachable state on, as long as `enqueue`
accepts no more tasks and no memory check finds the usage high (`Quiet`).

* `work`: what is left to do. No step raises it, and the ones named by `Advances` lower it:
  a signal that finds something to dispatch, a batch that is due, a promise chain that moves on,
  a memory check that ends the pressure.
* `exists_advance`: as long as something is left, one of them is possible. Neither the queue-wait
  timers nor the interval timer of the queue are among them, so no task depends on these.
* `drains`: a run that advances while it can ends, after at most `work s` such steps, with every
  accepted task settled once: executed by the main thread, or rejected while it waited.
-/

namespace BulkTraffic.Queue

open BulkTraffic.Lib BulkTraffic.Js

/-- How many steps a promise chain has before it. -/
def Stage.rank : Stage → ℕ
  | queued => 4
  | started => 3
  | finished _ => 2
  | settled _ => 1

/-- The steps before a chain. -/
@[simp] def RunningTask.rank (r : RunningTask) : ℕ := r.stage.rank

/-- The steps before a group: those of its members, and its `finally`. -/
@[simp] def BatchGroup.rank (g : BatchGroup) : ℕ := weight RunningTask.rank g.members + 1

/-- No step of a chain leads back. -/
theorem Stage.rank_le {p : PromiseStep} {old stage : Stage} (h : old.next p = some stage) :
    stage.rank ≤ old.rank := by
  cases Stage.moves_of_next h <;> simp [Stage.rank]

namespace QueueSystem

/-- What is left to do. A task that waits counts more than the chain it becomes, and than a
group it may have to itself. -/
def work (s : QueueSystem) : ℕ :=
  6 * s.state.waiting (fun _ => 1) + weight RunningTask.rank s.running +
    weight BatchGroup.rank s.groups + s.batchTriggers.length + s.memoryPressure.toNat

/-- No task is accepted, and no high memory usage is found. -/
def Quiet (s : QueueSystem) : QueueEvent → Prop
  | .enqueue options now => (s.enqueue options now).2.accepted = s.accepted
  | .memoryCheckTimer usage _ => MemoryService.isHigh usage = false
  | _ => True

/-- The events that get something done. -/
def Advances (s : QueueSystem) : QueueEvent → Prop
  | .processSignal _ => s.visited ≠ [] ∧ s.HasSlot
  | .batchTrigger _ _ => True
  | .batchAgingTimer now => s.HasSlot ∧
      ∃ category batch, s.state.batchQueues.get? category = some batch ∧ batch.tasks ≠ [] ∧
        BatchService.isAged now batch = true
  | .memoryCheckTimer _ _ => s.memoryPressure = true
  | .single k p => ∃ r stage, s.running[k]? = some r ∧ r.stage.next p = some stage ∧
      stage.rank < r.stage.rank
  | .member k m p => ∃ g r stage, s.groups[k]? = some g ∧ g.members[m]? = some r ∧
      r.stage.next p = some stage ∧ stage.rank < r.stage.rank
  | .finallySingle _ => True
  | .finallyGroup _ => True
  | _ => False

/-- Nothing is left. -/
structure AllDone (s : QueueSystem) : Prop where
  queues : s.state.getTotalQueueLength = 0
  running : s.running = []
  groups : s.groups = []
  active : s.state.activeRequests = 0
  /-- Every task accepted has been settled once, by the main thread that executed it once, or
  while it waited. -/
  settled : ∀ task ∈ s.accepted, weight (Call.settled task.id) s.log = 1 ∧
    weight (Call.executed task.id) s.log + weight (Call.settledWaiting task.id) s.log = 1

/-! ### What steps leave to do -/

/-- What leaves the tasks alone leaves as much to do. -/
theorem work_of_sameTasks {s u : QueueSystem} (h : SameTasks s u)
    (htriggers : u.batchTriggers = s.batchTriggers) : u.work = s.work := by
  unfold work
  rw [h.state, h.running, h.groups, h.memoryPressure, htriggers]
  rfl

/-- The work of the chains of tasks just dispatched. -/
theorem weight_rank_new (tasks : List QueueTask) :
    weight RunningTask.rank (tasks.map fun task => { task := task }) = 4 * tasks.length := by
  rw [weight_map]
  exact weight_const 4 tasks

theorem work_rearm (s : QueueSystem) : s.rearm.work = s.work := by
  unfold rearm
  split <;> rfl

/-- A slot is for a task. -/
theorem availableSlots_pos {s : QueueSystem} (hslot : s.HasSlot) : 0 < s.availableSlots := by
  have := s.state.config.concurrentTasks_pos
  unfold HasSlot at hslot
  unfold availableSlots
  omega

/-- A tick without workers: two steps less for each task taken. -/
theorem work_processQueue {config : QueueConfig} {s : QueueSystem} (h : Slots config s)
    (hidle : s.state.isProcessingQueue = false) (post : PostMessage) (hslot : s.HasSlot) :
    (s.processQueue post).work + 2 * (s.visited.take s.availableSlots).length = s.work := by
  have hworkers : ∀ tasks, toWorkers s.pool.useWorkers tasks = [] := by
    intro tasks
    simp [toWorkers, isWorkerEligibleTask, h.useWorkers]
  have hmain : ∀ tasks, toMainThread s.pool.useWorkers tasks = tasks := by
    intro tasks
    simp [toMainThread, isWorkerEligibleTask, h.useWorkers]
  have hqueues := take_weight (fun _ => 1) s s.availableSlots
  rw [processQueue_eq post hidle hslot, work_rearm]
  simp only [afterLoops, hworkers, List.isEmpty_nil, if_true]
  rw [drainQueues_eq]
  simp only [work, withQueues, dispatchAll, hmain, QueueStateHolder.waiting, weight_append,
    weight_rank_new, take_all_eq, weight_const, Nat.one_mul] at hqueues ⊢
  omega

theorem onBatchComplete_triggers (s : QueueSystem) (processed : ℕ) (activeChange : ℤ) (failed : ℕ) :
    (s.onBatchComplete processed activeChange failed).batchTriggers = s.batchTriggers := by
  unfold onBatchComplete
  dsimp only
  split
  · split <;> rfl
  · split <;> rfl

/-- A batch processed: no more to do, and less where a task is taken. -/
theorem work_processBatch (s : QueueSystem) (category : String) (now : ℕ) :
    (s.processBatch category now).work ≤ s.work ∧
      ((BatchService.processBatch category s.state.batchQueues s.state.activeRequests
        s.state.config.maxConcurrentRequests now).tasksToProcess ≠ [] →
      (s.processBatch category now).work < s.work) := by
  have hweight := BatchService.processBatch_weight (fun _ => 1) category s.state.batchQueues
    s.state.activeRequests s.state.config.maxConcurrentRequests now
  unfold processBatch
  dsimp only
  generalize BatchService.processBatch category s.state.batchQueues s.state.activeRequests
    s.state.config.maxConcurrentRequests now = taken at hweight ⊢
  split
  · rename_i hempty
    rw [List.isEmpty_iff.mp hempty, weight_nil] at hweight
    rw [List.isEmpty_iff.mp hempty]
    refine ⟨?_, fun h => absurd rfl h⟩
    simp only [work, QueueStateHolder.waiting] at hweight ⊢
    omega
  · rename_i hsome
    have hpos := List.length_pos_iff.mpr fun h => hsome (List.isEmpty_iff.mpr h)
    rw [work_of_sameTasks (sameTasks_onBatchComplete _ _ _ _) (onBatchComplete_triggers _ _ _ _)]
    simp only [work, QueueStateHolder.waiting, weight_append, weight_cons, weight_nil,
      BatchGroup.rank, weight_rank_new, weight_const, Nat.one_mul] at hweight ⊢
    exact ⟨by omega, fun _ => by omega⟩

theorem work_processBatches_le (due : TaskBatch → Bool) (now : ℕ) (categories : List String)
    (s : QueueSystem) : (processBatches due now categories s).work ≤ s.work :=
  processBatches_rule (P := fun t => t.work ≤ s.work)
    (fun t category ht => (work_processBatch t category now).1.trans ht) categories (Nat.le_refl _)

/-- A batch with a task gives one up to a free slot. -/
theorem tasksToProcess_ne_nil {s : QueueSystem} (hslot : s.HasSlot) {category : String}
    {batch : TaskBatch} (hget : s.state.batchQueues.get? category = some batch)
    (htasks : batch.tasks ≠ []) (now : ℕ) :
    (BatchService.processBatch category s.state.batchQueues s.state.activeRequests
      s.state.config.maxConcurrentRequests now).tasksToProcess ≠ [] := by
  unfold HasSlot at hslot
  have hpos := List.length_pos_iff.mpr htasks
  unfold BatchService.processBatch
  simp only [hget, List.isEmpty_iff, htasks, if_false]
  rw [if_neg (by omega), Ne, List.take_eq_nil_iff]
  rintro (hnone | hempty)
  · omega
  · exact htasks hempty

/-- A batch without a task is forgotten. -/
theorem processBatch_of_empty {s : QueueSystem} {category : String} {batch : TaskBatch}
    (hget : s.state.batchQueues.get? category = some batch) (hempty : batch.tasks = []) (now : ℕ) :
    s.processBatch category now = { s with state := { s.state with
      batchQueues := s.state.batchQueues.delete category } } := by
  have htaken : BatchService.processBatch category s.state.batchQueues s.state.activeRequests
      s.state.config.maxConcurrentRequests now = ⟨[], s.state.batchQueues.delete category, false⟩ := by
    unfold BatchService.processBatch
    simp [hget, hempty]
  unfold processBatch
  rw [htaken]
  simp

/-- The loop over the batches takes tasks from the first one it finds due, if a slot is free. -/
theorem work_processBatches_lt {due : TaskBatch → Bool} {now : ℕ} {categories : List String}
    {s : QueueSystem} (hslot : s.HasSlot) {category : String} {batch : TaskBatch}
    (hmem : category ∈ categories) (hget : s.state.batchQueues.get? category = some batch)
    (htasks : batch.tasks ≠ []) (hdue : due batch = true) :
    (processBatches due now categories s).work < s.work := by
  induction categories generalizing s with
  | nil => cases hmem
  | cons first categories ih =>
    simp only [processBatches]
    cases hfirst : s.state.batchQueues.get? first with
    | none =>
      have hne : category ≠ first := fun heq => by simp [← heq, hget] at hfirst
      exact ih hslot (List.mem_of_ne_of_mem hne hmem) hget
    | some b =>
      dsimp only
      by_cases hb : due b = true
      · rw [if_pos hb]
        by_cases hempty : b.tasks = []
        · -- nothing to take from this one, and the other is still there
          have hne : category ≠ first := by
            rintro rfl
            rw [hget, Option.some.injEq] at hfirst
            exact htasks (hfirst ▸ hempty)
          rw [processBatch_of_empty hfirst hempty]
          refine lt_of_lt_of_le (ih hslot (List.mem_of_ne_of_mem hne hmem) ?_) ?_
          · rw [JsMap.get?_delete_of_ne _ hne.symm]
            exact hget
          · have hwork := (work_processBatch s first now).1
            rwa [processBatch_of_empty hfirst hempty] at hwork
        · have hlt := (work_processBatch s first now).2 (tasksToProcess_ne_nil hslot hfirst hempty now)
          exact lt_of_le_of_lt (work_processBatches_le due now categories _) hlt
      · rw [if_neg hb]
        have hne : category ≠ first := by
          rintro rfl
          rw [hget, Option.some.injEq] at hfirst
          exact hb (hfirst ▸ hdue)
        exact ih hslot (List.mem_of_ne_of_mem hne hmem) hget

/-! ### What one step does -/

/-- A task accepted is more to do. -/
theorem accepted_accept (s : QueueSystem) (options : NormalizedEnqueueOptions) (now : ℕ) :
    (s.accept options now).accepted = s.accepted ++ [s.newTask options now] := by
  unfold accept
  dsimp only [requestProcessQueue]
  rw [place_frame]
  rfl

theorem work_advanceSingle {s u : QueueSystem} {k : ℕ} {p : PromiseStep}
    (h : s.advanceSingle k p = some u) :
    ∃ r stage, s.running[k]? = some r ∧ r.stage.next p = some stage ∧
      u.work + r.stage.rank = s.work + stage.rank := by
  obtain ⟨r, stage, hr, hstage, rfl⟩ := advanceSingle_cases h
  have htriggers : ∀ t : QueueSystem, (t.countSingle p stage).batchTriggers = t.batchTriggers := by
    intro t
    unfold countSingle
    split <;> rfl
  have hset := weight_set RunningTask.rank hr { r with stage := stage }
  refine ⟨r, stage, hr, hstage, ?_⟩
  rw [work_of_sameTasks (sameTasks_countSingle _ p stage) (htriggers _)]
  simp only [work, record, RunningTask.rank] at hset ⊢
  omega

theorem work_advanceMember {s u : QueueSystem} {k m : ℕ} {p : PromiseStep}
    (h : s.advanceMember k m p = some u) :
    ∃ g r stage, s.groups[k]? = some g ∧ g.members[m]? = some r ∧ r.stage.next p = some stage ∧
      u.work + r.stage.rank = s.work + stage.rank := by
  obtain ⟨g, r, stage, hg, hr, hstage, rfl⟩ := advanceMember_cases h
  have hmembers := weight_set RunningTask.rank hr { r with stage := stage }
  have hgroups := weight_set BatchGroup.rank hg
    ({ g with members := g.members.set m { r with stage := stage } }.count p stage)
  refine ⟨g, r, stage, hg, hr, hstage, ?_⟩
  simp only [work, record, BatchGroup.rank, RunningTask.rank, count_members] at hmembers hgroups ⊢
  omega

theorem work_finallySingle {s u : QueueSystem} {k : ℕ} (h : s.finallySingle k = some u) :
    u.work < s.work := by
  obtain ⟨r, hr, -, rfl⟩ := finallySingle_cases h
  have herase := weight_eraseIdx RunningTask.rank hr
  have hpos : 0 < r.stage.rank := by cases r.stage <;> simp [Stage.rank]
  rw [work_of_sameTasks (sameTasks_releaseSlot _) rfl]
  simp only [work, RunningTask.rank] at herase ⊢
  omega

theorem work_finallyGroup {s u : QueueSystem} {k : ℕ} (h : s.finallyGroup k = some u) :
    u.work < s.work := by
  obtain ⟨g, hg, -, rfl⟩ := finallyGroup_cases h
  have herase := weight_eraseIdx BatchGroup.rank hg
  rw [work_of_sameTasks (sameTasks_onBatchComplete _ _ _ _) (onBatchComplete_triggers _ _ _ _)]
  simp only [work, BatchGroup.rank] at herase ⊢
  omega

/-- A quiet memory check finds nothing high: the pressure ends. -/
theorem work_checkMemoryUsage {s : QueueSystem} {usage : MemoryUsage}
    (hlow : MemoryService.isHigh usage = false) (now : ℕ) :
    (s.checkMemoryUsage usage now).work + s.memoryPressure.toNat = s.work := by
  have hrelieve : ({ s with memoryPressure := false }.relieveMemory usage now).work +
      s.memoryPressure.toNat = s.work := by
    unfold relieveMemory
    rw [if_neg (by simp [hlow])]
    rfl
  unfold checkMemoryUsage
  dsimp only
  rw [hlow]
  split
  · exact hrelieve
  · exact hrelieve

/-- A queue-wait timer takes a task away, or nothing. -/
theorem work_onQueueWaitTimeout {s : QueueSystem} (hk : s.state.Keyed) (task : QueueTask) :
    (s.onQueueWaitTimeout task).work ≤ s.work := by
  unfold onQueueWaitTimeout
  split
  · rename_i state hfound
    have hweight := QueueStateHolder.removeTaskFromQueues_found (w := fun _ => 1) hk
      (by rw [hfound]) fun _ _ => rfl
    rw [hfound] at hweight
    dsimp only at hweight
    simp only [work, record, countTimeout]
    omega
  · exact Nat.le_refl _

/-- What `Slots`, the ledger and the signal say, together. -/
structure Sound (config : QueueConfig) (s : QueueSystem) : Prop where
  slots : Slots config s
  ledger : Ledger s
  wakeful : Wakeful s

theorem Sound.step {config : QueueConfig} {s u : QueueSystem} {e : QueueEvent} (h : Sound config s)
    (hu : s.step e = some u) : Sound config u :=
  ⟨h.slots.step h.ledger hu, h.ledger.step hu, wakeful_step h.wakeful hu⟩

/-- **No quiet step leaves more to do, and one that advances leaves less.** -/
theorem work_step {config : QueueConfig} {s u : QueueSystem} {e : QueueEvent} (h : Sound config s)
    (hquiet : s.Quiet e) (hu : s.step e = some u) :
    u.work ≤ s.work ∧ (s.Advances e → u.work < s.work) := by
  cases takes_of_step hu with
  | enqueue options now =>
    refine ⟨?_, False.elim⟩
    obtain ⟨parser, he | he | ⟨normalized, -, -, he⟩⟩ := enqueue_cases s options now
    · rw [he]
      exact Nat.le_refl _
    · rw [he]
      exact Nat.le_refl _
    · simp only [Quiet, he, accepted_accept] at hquiet
      simp at hquiet
  | @processSignal post hpending =>
    let t : QueueSystem := { s with state := { s.state with processSignalPending := false } }
    have hslots : Slots config t := h.slots.of_same rfl rfl h.slots.nothingPosted rfl rfl rfl (Nat.le_refl _)
    change (t.processQueue post).work ≤ t.work ∧
      (t.visited ≠ [] ∧ t.HasSlot → (t.processQueue post).work < t.work)
    by_cases hslot : t.HasSlot
    · have hwork := work_processQueue hslots h.wakeful.idle post hslot
      refine ⟨by omega, fun ⟨hvisited, _⟩ => ?_⟩
      have htaken : t.visited.take t.availableSlots ≠ [] := by
        rw [Ne, List.take_eq_nil_iff]
        rintro (hnone | hempty)
        · exact absurd hnone (availableSlots_pos hslot).ne'
        · exact hvisited hempty
      have := List.length_pos_iff.mpr htaken
      omega
    · have hreturns : t.processQueue post = t := by
        unfold processQueue
        rw [if_neg (by simp [t, h.wakeful.idle]), if_pos (not_lt.mp hslot)]
      rw [hreturns]
      exact ⟨Nat.le_refl _, fun hadvances => absurd hadvances.2 hslot⟩
  | tasksWait _ => exact ⟨Nat.le_refl _, False.elim⟩
  | nothingWaits _ => exact ⟨Nat.le_refl _, False.elim⟩
  | @batchTrigger k now category htrigger =>
    have hle := (work_processBatch { s with batchTriggers := s.batchTriggers.eraseIdx k } category now).1
    have hlength := (List.getElem?_eq_some_iff.mp htrigger).1
    have hfewer : ({ s with batchTriggers := s.batchTriggers.eraseIdx k } : QueueSystem).work < s.work := by
      simp only [work, List.length_eraseIdx, if_pos hlength]
      omega
    exact ⟨by omega, fun _ => by omega⟩
  | batchAgingTimer now =>
    refine ⟨work_processBatches_le _ now _ s, ?_⟩
    rintro ⟨hslot, category, batch, hget, htasks, haged⟩
    have hkey := List.mem_map_of_mem (f := Prod.fst) (JsMap.mem_entries_iff.mpr hget)
    exact work_processBatches_lt hslot hkey hget htasks haged
  | memoryCheckTimer usage now =>
    have hwork := work_checkMemoryUsage (s := s) hquiet now
    refine ⟨by omega, fun hpressure => ?_⟩
    have hpressure : s.memoryPressure = true := hpressure
    rw [hpressure] at hwork
    simp at hwork
    omega
  | statsLogTimer => exact ⟨Nat.le_refl _, False.elim⟩
  | @queueWaitTimer k task _ =>
    exact ⟨work_onQueueWaitTimeout (s := { s with timers := s.timers.eraseIdx k }) h.ledger.keyed task,
      False.elim⟩
  | @single _ k p hadvances =>
    obtain ⟨r, stage, hr, hstage, hwork⟩ := work_advanceSingle hadvances
    have hle := Stage.rank_le hstage
    refine ⟨by omega, ?_⟩
    rintro ⟨r', stage', hr', hstage', hlt⟩
    rw [hr, Option.some.injEq] at hr'
    rw [← hr', hstage, Option.some.injEq] at hstage'
    rw [← hstage', ← hr'] at hlt
    omega
  | @member _ k m p hadvances =>
    obtain ⟨g, r, stage, hg, hr, hstage, hwork⟩ := work_advanceMember hadvances
    have hle := Stage.rank_le hstage
    refine ⟨by omega, ?_⟩
    rintro ⟨g', r', stage', hg', hr', hstage', hlt⟩
    rw [hg, Option.some.injEq] at hg'
    rw [← hg', hr, Option.some.injEq] at hr'
    rw [← hr', hstage, Option.some.injEq] at hstage'
    rw [← hstage', ← hr'] at hlt
    omega
  | finallySingle hleaves =>
    have := work_finallySingle hleaves
    exact ⟨by omega, fun _ => this⟩
  | finallyGroup hleaves =>
    have := work_finallyGroup hleaves
    exact ⟨by omega, fun _ => this⟩
  | workerMessage hsend =>
    have hnone : ∀ i result, s.pool.send i result = none := by
      simp [WorkerPoolService.send, h.slots.noWorkers]
    rw [hnone] at hsend
    cases hsend
  | workerFailure halive => simp [h.slots.noWorkers] at halive

/-! ### What is left can be done -/

/-- A chain that is not settled can move on. -/
theorem Stage.exists_next {stage : Stage} (h : stage.isSettled = false) :
    ∃ p stage', stage.next p = some stage' ∧ stage'.rank < stage.rank := by
  cases stage with
  | queued => exact ⟨.start, _, rfl, by simp [Stage.rank]⟩
  | started => exact ⟨.finish (.value .undefined), _, rfl, by simp [Stage.rank]⟩
  | finished outcome => exact ⟨.settle, _, rfl, by simp [Stage.rank]⟩
  | settled outcome => cases h

/-- A chain of `processQueue` can move on or give its slot back. -/
theorem exists_advance_of_running {s : QueueSystem} (h : s.running ≠ []) :
    ∃ e, s.Quiet e ∧ s.Advances e ∧ (s.step e).isSome := by
  obtain ⟨r, rest, hr⟩ := List.exists_cons_of_ne_nil h
  have hget : s.running[0]? = some r := by rw [hr]; rfl
  cases hsettled : r.stage.isSettled with
  | true =>
    refine ⟨.finallySingle 0, trivial, trivial, ?_⟩
    simp only [step, finallySingle, hget, hsettled, if_true, Option.isSome_some]
  | false =>
    obtain ⟨p, stage, hnext, hlt⟩ := Stage.exists_next hsettled
    refine ⟨.single 0 p, trivial, ⟨r, stage, hget, hnext, hlt⟩, ?_⟩
    simp only [step, advanceSingle, hget, hnext, Option.isSome_some]

/-- A group can move on or give its slots back. -/
theorem exists_advance_of_groups {s : QueueSystem} (h : s.groups ≠ []) :
    ∃ e, s.Quiet e ∧ s.Advances e ∧ (s.step e).isSome := by
  obtain ⟨g, rest, hg⟩ := List.exists_cons_of_ne_nil h
  have hget : s.groups[0]? = some g := by rw [hg]; rfl
  by_cases hsettled : (g.members.all fun r => r.stage.isSettled) = true
  · refine ⟨.finallyGroup 0, trivial, trivial, ?_⟩
    simp only [step, finallyGroup, hget, hsettled, if_true, Option.isSome_some]
  · have hsome : ∃ r ∈ g.members, r.stage.isSettled = false := by
      simpa [List.all_eq_true] using hsettled
    obtain ⟨r, hr, hunsettled⟩ := hsome
    obtain ⟨m, hm⟩ := List.mem_iff_getElem?.mp hr
    obtain ⟨p, stage, hnext, hlt⟩ := Stage.exists_next hunsettled
    refine ⟨.member 0 m p, trivial, ⟨g, r, stage, hget, hm, hnext, hlt⟩, ?_⟩
    simp only [step, advanceMember, hget, hm, hnext, Option.isSome_some]

/-- With nothing on its way, a slot is free. -/
theorem hasSlot_of_idle {config : QueueConfig} {s : QueueSystem} (h : Slots config s)
    (hrunning : s.running = []) (hgroups : s.groups = []) :
    s.state.activeRequests = 0 ∧ s.HasSlot := by
  have hactive : s.state.activeRequests = 0 := by
    rw [h.active]
    simp [outstanding, hrunning, hgroups]
  refine ⟨hactive, ?_⟩
  have := s.state.config.maxConcurrentRequests_pos
  unfold HasSlot
  omega

theorem isTask_le_one (x : ℕ) (task : QueueTask) : isTask x task ≤ 1 := by
  unfold isTask
  split
  · exact Nat.le_refl _
  · exact Nat.zero_le _

theorem waiting_le_waiting {w v : QueueTask → ℕ} (s : QueueStateHolder) (h : ∀ task, w task ≤ v task) :
    s.waiting w ≤ s.waiting v := by
  have hlist : ∀ q : List QueueTask, weight w q ≤ weight v q := fun q =>
    weight_le_weight fun task _ => h task
  have hbatches : s.batchQueues.weightOf (inBatch w) ≤ s.batchQueues.weightOf (inBatch v) :=
    weight_le_weight fun e _ => hlist e.2.tasks
  have hhigh := hlist s.highPriorityQueue
  have hnormal := hlist s.normalPriorityQueue
  have hlow := hlist s.lowPriorityQueue
  unfold QueueStateHolder.waiting
  omega

/-- Where no task waits and none is on its way, every task has been settled. -/
theorem allDone_of_empty {config : QueueConfig} {s : QueueSystem} (h : Sound config s)
    (hqueues : s.state.getTotalQueueLength = 0) (hrunning : s.running = []) (hgroups : s.groups = [])
    (hactive : s.state.activeRequests = 0) : s.AllDone := by
  refine ⟨hqueues, hrunning, hgroups, hactive, fun task htask => ?_⟩
  have hwaiting : s.state.waiting (isTask task.id) = 0 := by
    have hle := waiting_le_waiting s.state (isTask_le_one task.id)
    rw [← QueueStateHolder.getTotalQueueLength_eq] at hle
    omega
  have haccepted : 1 ≤ weight (isTask task.id) s.accepted := by
    have := le_weight_of_mem (isTask task.id) htask
    simpa [isTask] using this
  have hchains : ∀ w, s.chains w = 0 := by
    intro w
    simp [chains, hrunning, hgroups]
  have honce := h.ledger.once task.id
  have hplace := h.ledger.place task.id
  have hmain := h.ledger.main task.id
  have hexecute := h.ledger.execute task.id
  have hworker := h.ledger.worker task.id
  have hposted := h.slots.nothingPosted task.id
  have hsettled := weight_settled task.id s.log
  have hpending : weight (isTaskData task.id) s.pool.workerTaskQueue = 0 := by
    rw [h.slots.nothingPending]
    rfl
  rw [hchains] at hmain hexecute
  exact ⟨by omega, by omega⟩

/-- **What is left can be done**: unless nothing is left, some step advances. -/
theorem exists_advance {config : QueueConfig} {s : QueueSystem} (h : Sound config s)
    (hleft : ¬ s.AllDone) : ∃ e, s.Quiet e ∧ s.Advances e ∧ (s.step e).isSome := by
  by_cases hrunning : s.running = []
  swap
  · exact exists_advance_of_running hrunning
  by_cases hgroups : s.groups = []
  swap
  · exact exists_advance_of_groups hgroups
  obtain ⟨hactive, hslot⟩ := hasSlot_of_idle h.slots hrunning hgroups
  by_cases hpressure : s.memoryPressure = true
  · exact ⟨.memoryCheckTimer ⟨0, 0, false⟩ 0, rfl, hpressure, rfl⟩
  by_cases hvisited : s.visited = []
  swap
  · -- the signal is pending where it has something to dispatch
    refine ⟨.processSignal fun _ => none, trivial, ⟨hvisited, hslot⟩, ?_⟩
    simp only [step, h.wakeful.armed hvisited hslot, if_true, Option.isSome_some]
  by_cases hbatches : s.state.getBatchTaskCount = 0
  swap
  · -- a batch grows old enough, whatever it holds
    obtain ⟨category, batch, hget, hpos⟩ :=
      JsMap.exists_of_weightOf_pos (Nat.pos_of_ne_zero hbatches)
    refine ⟨.batchAgingTimer (batch.createdAt + BatchService.batchMaxAgeMs), trivial,
      ⟨hslot, category, batch, hget, List.length_pos_iff.mp hpos, ?_⟩, rfl⟩
    simp [BatchService.isAged]
  refine absurd (allDone_of_empty h ?_ hrunning hgroups hactive) hleft
  simp only [visited, hpressure, Bool.false_eq_true, if_false, List.append_eq_nil_iff] at hvisited
  simp [QueueStateHolder.getTotalQueueLength, hvisited.1.1, hvisited.1.2, hvisited.2, hbatches]

/-! ### The queue drains -/

variable {config : QueueConfig} {taskIdCounter : ℕ} {stats : QueueStatsService}
  {allowCustomWorkload : Bool} {workerCount : ℕ} {cpu memory custom : Option ℕ}

theorem Sound.of_reachable {s : QueueSystem}
    (h : Reachable QueueSystem.step (QueueSystem.initial config taskIdCounter stats
      allowCustomWorkload false workerCount cpu memory custom) s) : Sound config s :=
  h.invariant ⟨.initial, .initial, wakeful_initial config taskIdCounter stats allowCustomWorkload false
      workerCount cpu memory custom⟩
    fun _ _ _ hs _ hu => hs.step hu

/-- **The queue drains.** From any reachable state, without workers, as long as no task is accepted
and no high memory usage is found: at most `work s` steps advance, whatever comes between them; as
long as something is left, one more can, without any queue-wait timer or interval timer; and so
some run of them leads to a state in which every task accepted has been settled exactly once. -/
theorem drains {s : QueueSystem}
    (h : Reachable step (initial config taskIdCounter stats allowCustomWorkload false workerCount
      cpu memory custom) s) :
    (∀ n t, Works step Quiet Advances s n t → t.work + n ≤ s.work ∧
      (t.AllDone ∨ ∃ e, t.Quiet e ∧ t.Advances e ∧ (t.step e).isSome)) ∧
      ∃ n t, Works step Quiet Advances s n t ∧ t.AllDone := by
  have hs := Sound.of_reachable h
  have hkeep : ∀ t e u, Sound config t → t.Quiet e → t.step e = some u → Sound config u :=
    fun t e u ht _ hu => ht.step hu
  constructor
  · intro n t hrun
    have ht : Sound config t := hrun.reaches.invariant hs hkeep
    refine ⟨hrun.measure_le hkeep (fun t e u ht hquiet hadvances hu => (work_step ht hquiet hu).2 hadvances)
      (fun t e u ht hquiet hu => (work_step ht hquiet hu).1) hs, ?_⟩
    by_cases hdone : t.AllDone
    · exact .inl hdone
    · exact .inr (exists_advance ht hdone)
  · obtain ⟨n, t, hrun, -, hdone⟩ := Works.exists_done hkeep
      (fun t e u ht hquiet hadvances hu => (work_step ht hquiet hu).2 hadvances) hs fun t ht hleft => by
        obtain ⟨e, hquiet, hadvances, hsome⟩ := exists_advance ht hleft
        obtain ⟨u, hu⟩ := Option.isSome_iff_exists.mp hsome
        exact ⟨e, u, hquiet, hadvances, hu⟩
    exact ⟨n, t, hrun, hdone⟩

/-- A queue with a task in a batch and one of low priority. -/
theorem drains_of_two_tasks :
    ∃ s, Reachable step (initial {} 0 {} false false 0 none none none) s ∧
      s.accepted.length = 2 ∧ ∃ n t, Works step Quiet Advances s n t ∧ t.AllDone := by
  obtain ⟨s, hs, hseen⟩ := exists_reaches_of_runEvents step (fun _ _ => True)
    (fun s => s.accepted.length) (s := initial {} 0 {} false false 0 none none none)
    [.enqueue { batch := .bool true } 0, .enqueue { priority := .num (.finite (-1)) } 0] 2
    (by decide +kernel)
  exact ⟨s, hs, hseen, (drains hs).2⟩

end QueueSystem

end BulkTraffic.Queue
