import BulkTraffic.Queue.BatchRuns

/-!
# The batches of the whole queue

Every event of the queue acts on `batchQueues` as some of the operations of `BatchOp` do.

* `Mirrored`: the batches are those of a run of the operations alone.
* `batches_of_queue`: this holds in every state of every run of the queue, so the batches of
  the queue are well formed.
* `config_of_reachable`: the settings never change.
-/

namespace BulkTraffic.Queue

open BulkTraffic.Lib BulkTraffic.Js

namespace QueueSystem

/-- The batches are those of a run of the operations on them alone. -/
def Mirrored (s₀ s : QueueSystem) : Prop :=
  ∃ t, Reaches batchStep (fun _ op => op.Normalized) s₀ t ∧
    t.state.batchQueues = s.state.batchQueues ∧ t.state.config = s.state.config ∧
    t.state.highPriorityQueue = [] ∧ t.state.normalPriorityQueue = [] ∧ t.state.lowPriorityQueue = []

/-- `processBatch` leaves the queues and the settings alone. -/
theorem processBatch_queues (s : QueueSystem) (category : String) (now : ℕ) :
    (s.processBatch category now).state.config = s.state.config ∧
      (s.processBatch category now).state.highPriorityQueue = s.state.highPriorityQueue ∧
      (s.processBatch category now).state.normalPriorityQueue = s.state.normalPriorityQueue ∧
      (s.processBatch category now).state.lowPriorityQueue = s.state.lowPriorityQueue := by
  obtain ⟨taken, -, ⟨-, hb⟩ | hb⟩ := processBatch_cases s category now
  · rw [hb]
    exact ⟨rfl, rfl, rfl, rfl⟩
  · rw [hb, (sameTasks_onBatchComplete _ _ _ _).state]
    exact ⟨rfl, rfl, rfl, rfl⟩

namespace Mirrored

variable {s₀ s : QueueSystem}

theorem of_same (h : Mirrored s₀ s) {u : QueueSystem}
    (hu : u.state.batchQueues = s.state.batchQueues) (hconfig : u.state.config = s.state.config) :
    Mirrored s₀ u := by
  obtain ⟨t, ht, hbatches, hcfg, hqueues⟩ := h
  exact ⟨t, ht, hbatches.trans hu.symm, hcfg.trans hconfig.symm, hqueues⟩

theorem processBatch (h : Mirrored s₀ s) (category : String) (now : ℕ) :
    Mirrored s₀ (s.processBatch category now) := by
  obtain ⟨t, ht, hbatches, hcfg, hhigh, hnormal, hlow⟩ := h
  let active := s.state.activeRequests
  obtain ⟨taken, rfl, -, htaken, -⟩ := processBatch_effect s category now
  obtain ⟨mirror, rfl, -, hmirror, -⟩ := processBatch_effect (t.withActive active) category now
  obtain ⟨hc, -⟩ := processBatch_queues s category now
  obtain ⟨hc', hh, hn, hl⟩ := processBatch_queues (t.withActive active) category now
  refine ⟨(t.withActive active).processBatch category now,
    ht.next (.processBatch category active now) trivial rfl, ?_, ?_, ?_, ?_, ?_⟩
  · rw [hmirror, htaken]
    simp only [withActive, hbatches, hcfg, active]
  · rw [hc', hc]
    exact hcfg
  · exact hh.trans hhigh
  · exact hn.trans hnormal
  · exact hl.trans hlow

theorem processBatches (h : Mirrored s₀ s) (due : TaskBatch → Bool) (now : ℕ)
    (categories : List String) : Mirrored s₀ (processBatches due now categories s) :=
  processBatches_rule (fun _ category h => h.processBatch category now) categories h

theorem cleanupOldTasks (h : Mirrored s₀ s) (now : ℕ) : Mirrored s₀ (s.cleanupOldTasks now) := by
  obtain ⟨t, ht, hbatches, hcfg, hhigh, hnormal, hlow⟩ := h
  refine ⟨t.cleanupOldTasks now, ht.next (.cleanupOldTasks now) trivial rfl, ?_, hcfg, ?_, ?_, ?_⟩
  · change (MemoryService.cleanupBatches now t.state.config.taskTimeoutMs t.state.batchQueues.entries
      t.state.batchQueues).2 = _
    rw [hbatches, hcfg]
    rfl
  · change MemoryService.cleanupQueue now _ t.state.highPriorityQueue = []
    rw [hhigh]
    rfl
  · change MemoryService.cleanupQueue now _ t.state.normalPriorityQueue = []
    rw [hnormal]
    rfl
  · change MemoryService.cleanupQueue now _ t.state.lowPriorityQueue = []
    rw [hlow]
    rfl

/-- A task found in a queue leaves the batches alone, any other is looked for in the batches. -/
theorem removeTaskFromQueues (h : Mirrored s₀ s) (task : QueueTask) :
    Mirrored s₀ { s with state := (s.state.removeTaskFromQueues task).2 } := by
  by_cases hqueued : s.state.Queued task
  · refine h.of_same (QueueStateHolder.removeTaskFromQueues_of_queued hqueued) ?_
    rw [QueueStateHolder.removeTaskFromQueues_frame]
  · obtain ⟨t, ht, hbatches, hcfg, hhigh, hnormal, hlow⟩ := h
    have hempty : ¬ t.state.Queued task := by
      unfold QueueStateHolder.Queued
      simp [hhigh, hnormal, hlow]
    have hwithout : t.state.batchesWithout task = s.state.batchesWithout task := by
      unfold QueueStateHolder.batchesWithout QueueStateHolder.batchOf
      rw [hbatches]
    refine ⟨{ t with state := (t.state.removeTaskFromQueues task).2 },
      ht.next (.removeTaskFromQueues task) (by trivial) rfl, ?_⟩
    rw [QueueStateHolder.removeTaskFromQueues_of_not_queued hempty,
      QueueStateHolder.removeTaskFromQueues_of_not_queued hqueued]
    exact ⟨hwithout, hcfg, hhigh, hnormal, hlow⟩

theorem forceReduceQueues (h : Mirrored s₀ s) (now : ℕ) : Mirrored s₀ (s.forceReduceQueues now) := by
  let popped := MemoryService.poppedLow s.state.lowPriorityQueue
  let t : QueueSystem := { s with state := { s.state with
    lowPriorityQueue := MemoryService.keptLow s.state.lowPriorityQueue } }
  have ht : Mirrored s₀ (t.record (popped.map fun task =>
      .reject task .forceReduce (.error MemoryService.forceReduceMessage))) := h.of_same rfl rfl
  exact (ht.processBatches MemoryService.isHeavy now _).of_same rfl rfl

/-- A task that goes to a batch arrives there. -/
theorem place (h : Mirrored s₀ s) {task : QueueTask} (hsize : 0 < task.size.getD 0) (batch : Bool)
    (now : ℕ) : Mirrored s₀ (s.place task batch now) := by
  unfold QueueSystem.place
  split
  · rename_i hbatch
    obtain ⟨-, hshould⟩ := (Bool.and_eq_true _ _).mp hbatch
    obtain ⟨t, ht, hbatches, hcfg, hqueues⟩ := h
    have hcategory : task.category.getD "" ≠ "" := by
      intro hempty
      unfold BatchService.shouldAddToBatch at hshould
      cases hc : task.category with
      | none => simp [hc] at hshould
      | some c =>
        rw [hc] at hempty
        simp_all
    refine ⟨t.addTaskToBatch task now, ht.next (.addTaskToBatch task now) ⟨hsize, hcategory⟩ rfl,
      ?_, hcfg, hqueues⟩
    change (BatchService.addTaskToBatch task now t.state.batchQueues).1 = _
    rw [hbatches]
  · split
    · exact h.of_same rfl rfl
    · split
      · exact h.of_same rfl rfl
      · exact h.of_same rfl rfl

theorem enqueue (h : Mirrored s₀ s) (options : EnqueueOptions) (now : ℕ) :
    Mirrored s₀ (s.enqueue options now).2 := by
  obtain ⟨parser, he | he | ⟨normalized, hpos, -, he⟩⟩ := enqueue_cases s options now
  · exact he ▸ h.of_same rfl rfl
  · exact he ▸ h.of_same rfl rfl
  · rw [he]
    let t : QueueSystem := { s with parser := parser }
    let task := t.newTask normalized now
    have hsize : 0 < task.size.getD 0 := hpos
    have hregistered : Mirrored s₀ (t.register task) := h.of_same rfl rfl
    exact (hregistered.place hsize normalized.batch now).of_same rfl rfl

/-- Every event of the queue keeps its batches those of such a run. -/
theorem step (h : Mirrored s₀ s) {e : QueueEvent} {u : QueueSystem} (hu : s.step e = some u) :
    Mirrored s₀ u := by
  cases touchesBatches_of_step hu with
  | same hsame => exact h.of_same hsame.batchQueues hsame.config
  | enqueue options now => exact h.enqueue options now
  | batchTrigger k triggers category now =>
    refine Mirrored.processBatch ?_ category now
    exact h.of_same rfl rfl
  | batchAgingTimer now => exact h.processBatches _ now _
  | memoryCheckTimer usage now =>
    exact checkMemoryUsage_rule (h.of_same rfl rfl) (fun _ h => h.cleanupOldTasks now)
      (fun _ h => h.forceReduceQueues now) fun _ h => h.of_same rfl rfl
  | queueWaitTimer k task hstate =>
    refine (h.removeTaskFromQueues task).of_same ?_ ?_
    · rw [hstate]
    · rw [hstate]

end Mirrored

/-- **The batches of the whole queue.** In every state of every run of the queue the batches
are those of a run of the operations on them alone: they are stored under their categories
and well formed. -/
theorem batches_of_queue {s : QueueSystem} {config : QueueConfig} {taskIdCounter : ℕ}
    {stats : QueueStatsService} {allowCustomWorkload useWorkers : Bool} {workerCount : ℕ}
    {cpu memory custom : Option ℕ}
    (h : Reachable step (initial config taskIdCounter stats allowCustomWorkload useWorkers
      workerCount cpu memory custom) s) :
    ∃ t, Reaches batchStep (fun _ op => op.Normalized) (initial config taskIdCounter stats
        allowCustomWorkload useWorkers workerCount cpu memory custom) t ∧
      t.state.batchQueues = s.state.batchQueues ∧ Kept TaskBatch.WellFormed s := by
  obtain ⟨t, ht, hbatches, -⟩ := h.invariant (P := Mirrored _)
    ⟨_, .refl, rfl, rfl, rfl, rfl, rfl⟩ fun _ _ _ hs _ hu => hs.step hu
  have hlanes : Lanes t :=
    ht.invariant (NoBatches.lanes ⟨rfl, rfl, rfl⟩) fun _ _ _ ht hop hu => ht.step hop hu
  exact ⟨t, ht, hbatches, hlanes.toKept.of_same hbatches.symm⟩

/-- The operations on the batches leave the settings alone. -/
theorem batchStep_config {s u : QueueSystem} {op : BatchOp} (hu : s.batchStep op = some u) :
    u.state.config = s.state.config := by
  have hprocess : ∀ {due : TaskBatch → Bool} {now : ℕ} (categories : List String)
      {t : QueueSystem}, t.state.config = s.state.config →
      (processBatches due now categories t).state.config = s.state.config :=
    fun {_ now} categories {_} ht => processBatches_rule
      (P := fun t : QueueSystem => t.state.config = s.state.config)
      (fun t category h => (processBatch_queues t category now).1.trans h) categories ht
  cases op with
  | addTaskToBatch task now =>
    obtain rfl := Option.some.inj hu
    rfl
  | processBatch category active now =>
    obtain rfl := Option.some.inj hu
    exact (processBatch_queues _ category now).1
  | processAgedBatches active now =>
    obtain rfl := Option.some.inj hu
    exact hprocess _ rfl
  | removeTaskFromQueues task =>
    obtain rfl := Option.some.inj hu
    dsimp only
    rw [QueueStateHolder.removeTaskFromQueues_frame]
  | cleanupOldTasks now =>
    obtain rfl := Option.some.inj hu
    rfl
  | forceReduceQueues active now =>
    obtain rfl := Option.some.inj hu
    refine hprocess _ ?_
    rfl

/-- The settings are those the queue was started with. -/
theorem config_of_reachable {s₀ s : QueueSystem} (hempty : s₀.state.highPriorityQueue = [] ∧
      s₀.state.normalPriorityQueue = [] ∧ s₀.state.lowPriorityQueue = [])
    (h : Reachable step s₀ s) : s.state.config = s₀.state.config := by
  obtain ⟨t, ht, -, hconfig, -⟩ := h.invariant (P := Mirrored s₀) ⟨s₀, .refl, rfl, rfl, hempty⟩
    fun _ _ _ hs _ hu => hs.step hu
  rw [← hconfig]
  exact ht.invariant (P := fun t => t.state.config = s₀.state.config) rfl
    fun _ _ _ ht _ hu => (batchStep_config hu).trans ht

end QueueSystem

end BulkTraffic.Queue
