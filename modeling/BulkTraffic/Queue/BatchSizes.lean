import BulkTraffic.Queue.Slots

/-!
# The sizes of batches

`totalSize` is a JavaScript number: it is the sum of the sizes of a batch's tasks as long as
that sum is below `2 ^ 53`, and a rounded one from there on.

* `SizesExact`: the invariant, for the batches that stay below `2 ^ 53`.
* `slots`: the slots of the main thread are exact and bounded, and no clamp changes a value,
  the one of `totalSize` as long as the batches are small.
-/

namespace BulkTraffic.Queue

open BulkTraffic.Lib BulkTraffic.Js

/-- The `totalSize` of a batch is the sum of the sizes of its tasks. -/
def TaskBatch.Exact (batch : TaskBatch) : Prop :=
  batch.totalSize = .finite (sizes batch.tasks)

/-- The sizes of a batch's tasks add up to less than `2 ^ 53`. -/
def TaskBatch.Small (batch : TaskBatch) : Prop := sizes batch.tasks < 2 ^ 53

/-- A task taken out of a small batch. -/
theorem QueueStateHolder.withoutTask_exact {batch : TaskBatch} (he : batch.Exact)
    (hs : batch.Small) {task : QueueTask} (h : batch.tasks.any task.same = true) :
    (withoutTask batch task).Exact ∧ (withoutTask batch task).Small := by
  obtain ⟨a, ha, -⟩ := find_same h
  have hweight : sizes (batch.tasks.eraseP task.same) + a.sizeOrOne = sizes batch.tasks :=
    weight_eraseP QueueTask.sizeOrOne ha
  unfold TaskBatch.Exact TaskBatch.Small at *
  simp only [withoutTask, ha, Option.getD_some]
  constructor
  · rw [he, Number.sub_natCast hs (by omega)]
    exact congrArg (fun n : ℕ => Number.finite n) (by omega)
  · omega

namespace BatchService

/-- A task added to a batch that stays small. -/
theorem withTask_exact {batch : TaskBatch} (he : batch.Small → batch.Exact) {task : QueueTask}
    (hpos : 0 < task.sizeOrOne) (hs : (withTask batch task).Small) :
    (withTask batch task).Exact := by
  have hsize : sizes (batch.tasks ++ [task]) = sizes batch.tasks + task.sizeOrOne := by
    simp [sizes]
  unfold TaskBatch.Exact TaskBatch.Small at *
  simp only [withTask, hsize] at hs ⊢
  rw [he (by omega), if_neg (by omega), Number.add_natCast hs]

/-- The first tasks taken out of a small batch: no clamp is needed. -/
theorem dropTasks_exact {batch : TaskBatch} (he : batch.Exact) (hs : batch.Small) (n now : ℕ) :
    (dropTasks batch n now).Exact ∧ (dropTasks batch n now).Small ∧
      (batch.totalSize.sub (sumSizes (batch.tasks.take n))).lt (.finite 0) = false := by
  have hweight : sizes (batch.tasks.take n) + sizes (batch.tasks.drop n) = sizes batch.tasks :=
    weight_take_add_drop QueueTask.sizeOrOne n batch.tasks
  unfold TaskBatch.Exact TaskBatch.Small at *
  have hsub : batch.totalSize.sub (sumSizes (batch.tasks.take n)) =
      .finite (sizes (batch.tasks.drop n)) := by
    rw [he, sumSizes_eq (by omega), Number.sub_natCast hs (by omega)]
    exact congrArg (fun n : ℕ => Number.finite n) (by omega)
  simp only [dropTasks, hsub]
  refine ⟨Number.clamp0_natCast _, by omega, ?_⟩
  simp [Number.lt]

end BatchService

namespace QueueStateHolder

/-- Every batch satisfies `P`. -/
def AllBatches (P : TaskBatch → Prop) (s : QueueStateHolder) : Prop :=
  ∀ category batch, s.batchQueues.get? category = some batch → P batch

/-- No clamp has changed a `totalSize`, and every batch that is small has an exact one. -/
structure SizesExact (s : QueueStateHolder) : Prop where
  exact : s.AllBatches fun batch => batch.Small → batch.Exact
  unclamped : s.sizeClamped = false

/-- All batches are small and exact, and no clamp has changed a `totalSize`. -/
structure SmallExact (s : QueueStateHolder) : Prop where
  batches : s.AllBatches fun batch => batch.Exact ∧ batch.Small
  unclamped : s.sizeClamped = false

theorem SmallExact.sizesExact {s : QueueStateHolder} (h : s.SmallExact) : s.SizesExact :=
  ⟨fun category batch hb _ => (h.batches category batch hb).1, h.unclamped⟩

theorem SizesExact.smallExact {s : QueueStateHolder} (h : s.SizesExact)
    (hs : s.AllBatches TaskBatch.Small) : s.SmallExact :=
  ⟨fun category batch hb => ⟨h.exact category batch hb (hs category batch hb), hs category batch hb⟩,
    h.unclamped⟩

section

variable {P : TaskBatch → Prop} {s : QueueStateHolder}

theorem AllBatches.set (h : s.AllBatches P) (category : String) {batch : TaskBatch} (hb : P batch) :
    AllBatches P { s with batchQueues := s.batchQueues.set category batch } := by
  intro c b hget
  rw [JsMap.get?_set] at hget
  split at hget
  · cases hget
    exact hb
  · exact h c b hget

theorem AllBatches.delete (h : s.AllBatches P) (category : String) :
    AllBatches P { s with batchQueues := s.batchQueues.delete category } := by
  intro c b hget
  rw [JsMap.get?_delete] at hget
  split at hget
  · cases hget
  · exact h c b hget

/-- A batch is put in its place where it has tasks left, as `removeTaskFromQueues` does. -/
theorem AllBatches.putBack (h : s.AllBatches P) (category : String) {rest : TaskBatch}
    (hrest : P rest) :
    AllBatches P { s with batchQueues :=
      if rest.tasks.isEmpty then (s.batchQueues.set category rest).delete rest.category
      else s.batchQueues.set category rest } := by
  have hset := h.set category hrest
  split
  · exact hset.delete _
  · exact hset

theorem AllBatches.replaceBatch (h : s.AllBatches P) (category : String) {rest : TaskBatch}
    (hrest : P rest) :
    AllBatches P
      { s with batchQueues := BatchService.replaceBatch s.batchQueues category rest } := by
  unfold BatchService.replaceBatch
  split
  · exact h.delete category
  · exact h.set category hrest

/-- The loop of `cleanupOldTasks` only deletes batches. -/
theorem AllBatches.cleanupBatches (now taskTimeoutMs : ℕ) (entries : List (String × TaskBatch))
    {m : JsMap String TaskBatch} (h : AllBatches P { s with batchQueues := m }) :
    AllBatches P
      { s with batchQueues := (MemoryService.cleanupBatches now taskTimeoutMs entries m).2 } := by
  induction entries generalizing m with
  | nil => exact h
  | cons e entries ih =>
    simp only [MemoryService.cleanupBatches]
    split
    · exact ih (h.delete e.1)
    · exact ih h

end

variable {s : QueueStateHolder}

theorem SmallExact.removeTaskFromQueues (h : s.SmallExact) (task : QueueTask) :
    (s.removeTaskFromQueues task).2.SmallExact := by
  unfold QueueStateHolder.removeTaskFromQueues
  split
  · exact ⟨h.batches, h.unclamped⟩
  · split
    · exact ⟨h.batches, h.unclamped⟩
    · split
      · exact ⟨h.batches, h.unclamped⟩
      · cases hb : s.batchOf task with
        | none => exact h
        | some e =>
          obtain ⟨hget, hany⟩ := batchOf_some hb
          obtain ⟨he, hs⟩ := h.batches e.1 e.2 hget
          exact ⟨h.batches.putBack e.1 (withoutTask_exact he hs hany), h.unclamped⟩

theorem SmallExact.cleanupOldTasks (h : s.SmallExact) (now : ℕ) :
    (MemoryService.cleanupOldTasks now s).2.SmallExact := by
  exact ⟨h.batches.cleanupBatches now s.config.taskTimeoutMs s.batchQueues.entries, h.unclamped⟩

/-- What `processBatch` does to the batches. -/
theorem SmallExact.processBatch (h : s.SmallExact) (category : String) (active : ℤ) (max now : ℕ) :
    SmallExact { s with
      batchQueues := (BatchService.processBatch category s.batchQueues active max now).batchQueues
      sizeClamped := s.sizeClamped ||
        (BatchService.processBatch category s.batchQueues active max now).clamped } := by
  unfold BatchService.processBatch
  cases hb : s.batchQueues.get? category with
  | none => exact ⟨h.batches.delete category, by simp [h.unclamped]⟩
  | some batch =>
    dsimp only
    split
    · exact ⟨h.batches.delete category, by simp [h.unclamped]⟩
    · split
      · exact ⟨h.batches, by simp [h.unclamped]⟩
      · obtain ⟨he, hs⟩ := h.batches category batch hb
        obtain ⟨he, hs, hnot⟩ := BatchService.dropTasks_exact he hs
          (min batch.tasks.length ((max : ℤ) - active).toNat) now
        refine ⟨?_, by simp only [h.unclamped, hnot, Bool.or_self]⟩
        exact h.batches.replaceBatch category ⟨he, hs⟩

/-- A task added to a batch. -/
theorem SizesExact.addTaskToBatch (h : s.SizesExact) {task : QueueTask} (hpos : 0 < task.sizeOrOne)
    (now : ℕ) :
    SizesExact { s with batchQueues := (BatchService.addTaskToBatch task now s.batchQueues).1 } := by
  have hfor : (BatchService.batchFor task now s.batchQueues).Small →
      (BatchService.batchFor task now s.batchQueues).Exact := by
    unfold BatchService.batchFor
    cases hb : s.batchQueues.get? (task.category.getD "") with
    | none => exact fun _ => rfl
    | some batch => exact h.exact _ batch hb
  exact ⟨h.exact.set _ fun hs => BatchService.withTask_exact hfor hpos hs, h.unclamped⟩

end QueueStateHolder

namespace QueueSystem

/-! ### Steps -/

theorem smallExact_processBatch {s : QueueSystem} (h : s.state.SmallExact) (category : String)
    (now : ℕ) : (s.processBatch category now).state.SmallExact := by
  have hbatches := h.processBatch category s.state.activeRequests
    s.state.config.maxConcurrentRequests now
  obtain ⟨taken, rfl, ⟨-, hb⟩ | hb⟩ := processBatch_cases s category now
  · rw [hb]
    exact hbatches
  · rw [hb, (sameTasks_onBatchComplete _ _ _ _).state]
    exact ⟨hbatches.batches, hbatches.unclamped⟩

theorem smallExact_checkMemoryUsage {s : QueueSystem} (h : s.state.SmallExact)
    (usage : MemoryUsage) (now : ℕ) : (s.checkMemoryUsage usage now).state.SmallExact := by
  refine checkMemoryUsage_rule (P := fun s => s.state.SmallExact) h
    (fun s h => h.cleanupOldTasks now) (fun s h => ?_) fun s h => ⟨h.batches, h.unclamped⟩
  exact processBatches_rule (P := fun s => s.state.SmallExact)
    (fun _ category h => smallExact_processBatch h category now) _ ⟨h.batches, h.unclamped⟩

theorem sizesExact_enqueue {s : QueueSystem} (h : s.state.SizesExact) (options : EnqueueOptions)
    (now : ℕ) : (s.enqueue options now).2.state.SizesExact := by
  obtain ⟨parser, he | he | ⟨normalized, hpos, -, he⟩⟩ := enqueue_cases s options now
  · rw [he]
    exact h
  · rw [he]
    exact h
  · rw [he]
    have hplace : ∀ t : QueueSystem, t.state.SizesExact → ∀ task : QueueTask, 0 < task.sizeOrOne →
        (t.place task normalized.batch now).state.SizesExact := by
      intro t ht task htask
      unfold QueueSystem.place
      split
      · exact ht.addTaskToBatch htask now
      · split
        · exact ⟨ht.exact, ht.unclamped⟩
        · split
          · exact ⟨ht.exact, ht.unclamped⟩
          · exact ⟨ht.exact, ht.unclamped⟩
    let task := ({ s with parser := parser } : QueueSystem).newTask normalized now
    have hplaced := hplace (({ s with parser := parser } : QueueSystem).register task)
      ⟨h.exact, h.unclamped⟩ task hpos
    exact ⟨hplaced.exact, hplaced.unclamped⟩

/-- Every step but a call of `enqueue` keeps the batches small and exact. -/
theorem smallExact_step {s u : QueueSystem} (h : s.state.SmallExact) {e : QueueEvent}
    (he : ∀ options now, e ≠ .enqueue options now) (hu : s.step e = some u) :
    u.state.SmallExact := by
  cases touchesBatches_of_step hu with
  | same hsame =>
    refine ⟨?_, hsame.sizeClamped.trans h.unclamped⟩
    unfold QueueStateHolder.AllBatches
    rw [hsame.batchQueues]
    exact h.batches
  | enqueue options now => exact absurd rfl (he options now)
  | batchTrigger k triggers category now =>
    refine smallExact_processBatch ?_ category now
    exact h
  | batchAgingTimer now =>
    exact processBatches_rule (P := fun s => s.state.SmallExact)
      (fun _ category h => smallExact_processBatch h category now) _ h
  | memoryCheckTimer usage now => exact smallExact_checkMemoryUsage h usage now
  | queueWaitTimer k task hstate =>
    rw [hstate]
    exact h.removeTaskFromQueues task

/-- All batches are small. -/
def SmallBatches (s : QueueSystem) : Prop := s.state.AllBatches TaskBatch.Small

/-- Every step taken where the batches are small keeps their sizes exact. -/
theorem sizesExact_step {s u : QueueSystem} (h : s.state.SizesExact) (hsmall : s.SmallBatches)
    {e : QueueEvent} (hu : s.step e = some u) : u.state.SizesExact := by
  by_cases he : ∃ options now, e = .enqueue options now
  · obtain ⟨options, now, rfl⟩ := he
    cases hu
    exact sizesExact_enqueue h options now
  · have hne : ∀ options now, e ≠ .enqueue options now := fun options now heq =>
      he ⟨options, now, heq⟩
    exact (smallExact_step (h.smallExact hsmall) hne hu).sizesExact

variable {config : QueueConfig} {taskIdCounter : ℕ} {stats : QueueStatsService}
  {allowCustomWorkload useWorkers : Bool} {workerCount : ℕ} {cpu memory custom : Option ℕ}

/-- In runs through states with small batches no clamp changes a `totalSize`. -/
theorem sizesExact_of_reaches {s : QueueSystem}
    (h : Reaches step (fun t _ => t.SmallBatches) (initial config taskIdCounter stats
      allowCustomWorkload useWorkers workerCount cpu memory custom) s) : s.state.SizesExact := by
  refine h.invariant (P := fun s => s.state.SizesExact) ⟨?_, rfl⟩
    fun _ _ _ hs hsmall hu => sizesExact_step hs hsmall hu
  intro category batch hget
  cases hget

/-- **Slots are exact and bounded.** Without workers, in every state of every run,
`activeRequests` is the number of tasks dispatched whose `finally` has not run, alone or with
their group. It stays between `0` and `maxConcurrentRequests` with no help of a clamp, and the
queue stays within its threshold. In runs through states with small batches the clamp of
`totalSize` changes no value either. -/
theorem slots {s : QueueSystem}
    (h : Reachable step (initial config taskIdCounter stats allowCustomWorkload false workerCount
      cpu memory custom) s) :
    s.state.activeRequests =
        (s.running.length + weight (fun g : BatchGroup => g.members.length) s.groups : ℕ) ∧
      0 ≤ s.state.activeRequests ∧
      s.state.activeRequests ≤ config.maxConcurrentRequests ∧
      s.state.getTotalQueueLength ≤ config.queueOverflowThreshold ∧
      s.state.activeClamped = false ∧
      (Reaches step (fun t _ => t.SmallBatches) (initial config taskIdCounter stats
        allowCustomWorkload false workerCount cpu memory custom) s → s.state.sizeClamped = false) := by
  have hslots := Slots.of_reachable h
  have hactive := hslots.active
  have hbounded := hslots.bounded
  exact ⟨hactive, by omega, by omega, hslots.queued, hslots.unclamped,
    fun hr => (sizesExact_of_reaches hr).unclamped⟩

/-- One task dispatched to the main thread. -/
theorem slots_with_running_task :
    ∃ s, Reachable step (initial {} 0 {} false false 0 none none none) s ∧ s.running.length = 1 ∧
      (s.state.activeRequests =
          (s.running.length + weight (fun g : BatchGroup => g.members.length) s.groups : ℕ) ∧
        0 ≤ s.state.activeRequests ∧ s.state.activeRequests ≤ (200 : ℕ) ∧
        s.state.getTotalQueueLength ≤ 3000 ∧ s.state.activeClamped = false ∧
        (Reaches step (fun t _ => t.SmallBatches) (initial {} 0 {} false false 0 none none none) s →
          s.state.sizeClamped = false)) := by
  obtain ⟨s, hs, hseen⟩ := exists_reaches_of_runEvents step (fun _ _ => True)
    (fun s => s.running.length) (s := initial {} 0 {} false false 0 none none none)
    [.enqueue {} 0, .processSignal fun _ => none] 1 (by decide +kernel)
  exact ⟨s, hs, hseen, slots hs⟩

/-- Tasks of sizes `1` and `2 ^ 53` in one batch have the `totalSize` `2 ^ 53`. When the timer of
the first one fires it is `2 ^ 53 - 1`, and when the second one is taken the clamp turns `-1`
into `0`. -/
theorem slots_size_clamped :
    ∃ s, Reachable step (initial {} 0 {} false false 0 none none none) s ∧
      s.state.sizeClamped = true :=
  exists_reaches_of_runEvents step (fun _ _ => True) (fun s => s.state.sizeClamped)
    [.enqueue { batch := .bool true } 0,
      .enqueue { batch := .bool true, size := .ofInt 9007199254740992 } 0,
      .queueWaitTimer 0, .batchAgingTimer 1500] true (by decide +kernel)

end QueueSystem

end BulkTraffic.Queue
