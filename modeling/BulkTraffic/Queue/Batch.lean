import BulkTraffic.Queue.State

/-!
# Batches

`BatchService`: which tasks go to a batch, when a batch is due, and which of its tasks
`processBatch` takes. What `processBatch` then does with the tasks it takes, run them and
report the group, is the processor's part.

`totalSize` is a JavaScript number. `sumSizes_eq`: as long as the sizes add up to less
than `2 ^ 53` it is the exact sum.
-/

namespace BulkTraffic.Queue

open BulkTraffic.Lib BulkTraffic.Js

/-- `total + (task.size ?? 1)`. -/
def addSize (total : Number) (task : QueueTask) : Number := total.add (.finite task.sizeOrOne)

/-- `tasks.reduce((total, task) => total + (task.size ?? 1), 0)`. -/
def sumSizes (tasks : List QueueTask) : Number := tasks.foldl addSize (.finite 0)

namespace BatchService

/-- `BATCH_SIZE_THRESHOLD`. -/
def batchSizeThreshold : ℕ := 10

/-- `BATCH_MAX_AGE_MS`. -/
def batchMaxAgeMs : ℕ := 1500

/-- `BATCH_MAX_SIZE`. -/
def batchMaxSize : ℕ := 150

/-- `BATCH_ELIGIBLE_SIZE_MAX`. -/
def batchEligibleSizeMax : ℕ := 3

/-- `shouldAddToBatch(task, batchQueues)`. -/
def shouldAddToBatch (task : QueueTask) (batchQueues : JsMap String TaskBatch) : Bool :=
  if 5 ≤ task.priority then false
  else match task.category with
    | none => false
    | some category =>
      if category = "" then false
      else if batchQueues.has category then true
      else task.sizeOrOne ≤ batchEligibleSizeMax

/-- The batch a task is added to: the one of its category, or a new one. -/
def batchFor (task : QueueTask) (now : ℕ) (batchQueues : JsMap String TaskBatch) : TaskBatch :=
  match batchQueues.get? (task.category.getD "") with
  | some batch => batch
  | none =>
    { tasks := [], category := task.category.getD "", totalSize := .finite 0, createdAt := now }

/-- A batch with a task more: `totalSize += task.size || 1`. -/
def withTask (batch : TaskBatch) (task : QueueTask) : TaskBatch :=
  { batch with
    tasks := batch.tasks ++ [task]
    totalSize := batch.totalSize.add (.finite (if task.sizeOrOne = 0 then 1 else task.sizeOrOne : ℕ)) }

/-- Has the batch reached a threshold? -/
def isFull (batch : TaskBatch) : Bool :=
  batchSizeThreshold ≤ batch.tasks.length || batch.totalSize.ge (.finite batchMaxSize)

/-- `addTaskToBatch(task, batchQueues, ..)`: the batches, and the category whose processing
is scheduled, if any. -/
def addTaskToBatch (task : QueueTask) (now : ℕ) (batchQueues : JsMap String TaskBatch) :
    JsMap String TaskBatch × Option String :=
  let category := task.category.getD ""
  let batch := withTask (batchFor task now batchQueues) task
  (batchQueues.set category batch, if isFull batch then some category else none)

/-- Is the batch old enough for `processAgedBatches`? -/
def isAged (now : ℕ) (batch : TaskBatch) : Bool := batchMaxAgeMs ≤ now - batch.createdAt

/-- What `processBatch` takes from a batch, and what it leaves. -/
structure Taken where
  tasksToProcess : List QueueTask
  batchQueues : JsMap String TaskBatch
  /-- The clamp has changed `totalSize`. -/
  clamped : Bool

/-- A batch after its first `n` tasks have been taken:
`totalSize = Math.max(0, totalSize - processedBatchSize)`. -/
def dropTasks (batch : TaskBatch) (n now : ℕ) : TaskBatch :=
  { batch with
    tasks := batch.tasks.drop n
    totalSize := (batch.totalSize.sub (sumSizes (batch.tasks.take n))).clamp0
    createdAt := now }

/-- A batch that has no task left is deleted, any other stays. -/
def replaceBatch (batchQueues : JsMap String TaskBatch) (category : String) (rest : TaskBatch) :
    JsMap String TaskBatch :=
  if rest.tasks.isEmpty then batchQueues.delete category else batchQueues.set category rest

/-- `processBatch(category, batchQueues, activeRequests, maxConcurrentRequests, ..)`, as far
as it concerns the batches. -/
def processBatch (category : String) (batchQueues : JsMap String TaskBatch) (activeRequests : ℤ)
    (maxConcurrentRequests now : ℕ) : Taken :=
  match batchQueues.get? category with
  | none => ⟨[], batchQueues.delete category, false⟩
  | some batch =>
    if batch.tasks.isEmpty then ⟨[], batchQueues.delete category, false⟩
    else
      let availableSlots := maxConcurrentRequests - activeRequests
      if availableSlots ≤ 0 then ⟨[], batchQueues, false⟩
      else
        let dispatchCount := min batch.tasks.length availableSlots.toNat
        ⟨batch.tasks.take dispatchCount,
          replaceBatch batchQueues category (dropTasks batch dispatchCount now),
          (batch.totalSize.sub (sumSizes (batch.tasks.take dispatchCount))).lt (.finite 0)⟩

end BatchService

/-! ### Exact sizes -/

/-- The sum of the sizes of tasks. -/
def sizes (tasks : List QueueTask) : ℕ := weight QueueTask.sizeOrOne tasks

theorem foldl_sizes_eq {tasks : List QueueTask} {n : ℕ} (h : n + sizes tasks < 2 ^ 53) :
    tasks.foldl addSize (.finite n) = .finite (n + sizes tasks : ℕ) := by
  induction tasks generalizing n with
  | nil => rfl
  | cons task tasks ih =>
    simp only [sizes, weight_cons] at h ih ⊢
    rw [List.foldl_cons, addSize, Number.add_natCast (by omega), ih (by omega), Nat.add_assoc]

/-- **Sizes below `2 ^ 53` are added exactly.** -/
theorem sumSizes_eq {tasks : List QueueTask} (h : sizes tasks < 2 ^ 53) :
    sumSizes tasks = .finite (sizes tasks) := by
  have : tasks.foldl addSize (.finite (0 : ℕ)) = .finite (0 + sizes tasks : ℕ) :=
    foldl_sizes_eq (by omega)
  simpa [sumSizes] using this

/-! ### What the operations do to the waiting tasks -/

namespace BatchService

variable (w : QueueTask → ℕ)

/-- A task added to a batch waits there, and nothing else changes. -/
theorem addTaskToBatch_weight (task : QueueTask) (now : ℕ) (m : JsMap String TaskBatch) :
    (addTaskToBatch task now m).1.weightOf (inBatch w) = m.weightOf (inBatch w) + w task := by
  have hset := m.weightOf_set (inBatch w) (task.category.getD "") (withTask (batchFor task now m) task)
  have hfor : (m.get? (task.category.getD "")).elim 0 (inBatch w) = inBatch w (batchFor task now m) := by
    unfold batchFor
    cases m.get? (task.category.getD "") <;> rfl
  have hwith : inBatch w (withTask (batchFor task now m) task) =
      inBatch w (batchFor task now m) + w task := by
    simp [withTask]
  simp only [addTaskToBatch]
  omega

theorem replaceBatch_weight {m : JsMap String TaskBatch} {category : String} {batch : TaskBatch}
    (hb : m.get? category = some batch) (rest : TaskBatch) :
    (replaceBatch m category rest).weightOf (inBatch w) + inBatch w batch =
      m.weightOf (inBatch w) + inBatch w rest := by
  unfold replaceBatch
  split
  · rename_i hempty
    have hdel := JsMap.weightOf_delete_of_some (inBatch w) hb
    have hz : inBatch w rest = 0 := by simp [List.isEmpty_iff.mp hempty]
    omega
  · exact JsMap.weightOf_set_of_some (inBatch w) hb rest

/-- What a batch loses to `processBatch` is what is taken. -/
theorem processBatch_weight (category : String) (m : JsMap String TaskBatch) (active : ℤ)
    (max now : ℕ) :
    (processBatch category m active max now).batchQueues.weightOf (inBatch w) +
        weight w (processBatch category m active max now).tasksToProcess =
      m.weightOf (inBatch w) := by
  have hdel := m.weightOf_delete (inBatch w) category
  unfold processBatch
  cases hb : m.get? category with
  | none => simpa [hb] using hdel
  | some batch =>
    simp only [hb, Option.elim_some] at hdel
    dsimp only
    split
    · rename_i hempty
      simp only [inBatch, List.isEmpty_iff.mp hempty, weight_nil] at hdel ⊢
      exact hdel
    · split
      · simp
      · have htake := weight_take_add_drop w (min batch.tasks.length ((max : ℤ) - active).toNat)
          batch.tasks
        have hreplace := replaceBatch_weight w hb
          (dropTasks batch (min batch.tasks.length ((max : ℤ) - active).toNat) now)
        simp only [inBatch] at hreplace
        simp only [dropTasks] at hreplace ⊢
        omega

/-- No more tasks are taken than slots are free. -/
theorem processBatch_length (category : String) (m : JsMap String TaskBatch) (active : ℤ)
    (max now : ℕ) (h : active ≤ max) :
    active + (processBatch category m active max now).tasksToProcess.length ≤ max := by
  unfold processBatch
  cases m.get? category with
  | none => simpa using h
  | some batch =>
    dsimp only
    split
    · simpa using h
    · split
      · simpa using h
      · simp only [List.length_take]
        omega

end BatchService

namespace QueueStateHolder

theorem Keyed.addTaskToBatch {s : QueueStateHolder} (h : s.Keyed) (task : QueueTask) (now : ℕ) :
    Keyed { s with batchQueues := (BatchService.addTaskToBatch task now s.batchQueues).1 } := by
  refine h.set _ ?_
  simp only [BatchService.withTask, BatchService.batchFor]
  cases hb : s.batchQueues.get? (task.category.getD "") with
  | none => rfl
  | some b => exact h _ b hb

theorem Keyed.processBatch {s : QueueStateHolder} (h : s.Keyed) (category : String) (active : ℤ)
    (max now : ℕ) :
    Keyed { s with
      batchQueues := (BatchService.processBatch category s.batchQueues active max now).batchQueues } := by
  unfold BatchService.processBatch
  cases hb : s.batchQueues.get? category with
  | none => exact h.delete category
  | some batch =>
    dsimp only
    split
    · exact h.delete category
    · split
      · exact h
      · unfold BatchService.replaceBatch
        split
        · exact h.delete category
        · exact h.set _ (h category batch hb)

end QueueStateHolder

end BulkTraffic.Queue
