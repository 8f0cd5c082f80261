import BulkTraffic.Queue.Task

/-!
# The state of the queue

`QueueStateHolder` and `QueueStatsService`: the three priority queues, the batches, the
number of active requests, the signal flags, and the counters of settled tasks.

`QueueStateHolder.activeClamped` and `sizeClamped` are no fields of the source. They record
whether a `Math.max(0, ..)` has changed its argument, for `activeRequests` and for the
`totalSize` of a batch.
-/

namespace BulkTraffic.Queue

open BulkTraffic.Lib BulkTraffic.Js

/-- The settings of `QueueStateHolder`, each a positive integer. -/
structure QueueConfig where
  concurrentTasks : ℕ := 50
  maxConcurrentRequests : ℕ := 200
  taskTimeoutMs : ℕ := 15000
  executionTimeoutMs : ℕ := 10000
  queueOverflowThreshold : ℕ := 3000
  concurrentTasks_pos : 0 < concurrentTasks := by decide
  maxConcurrentRequests_pos : 0 < maxConcurrentRequests := by decide
  taskTimeoutMs_pos : 0 < taskTimeoutMs := by decide
  executionTimeoutMs_pos : 0 < executionTimeoutMs := by decide
  queueOverflowThreshold_pos : 0 < queueOverflowThreshold := by decide

/-- The fields of `QueueStateHolder`. -/
structure QueueStateHolder where
  config : QueueConfig
  highPriorityQueue : List QueueTask := []
  normalPriorityQueue : List QueueTask := []
  lowPriorityQueue : List QueueTask := []
  batchQueues : JsMap String TaskBatch := .empty
  taskIdCounter : ℕ := 0
  activeRequests : ℤ := 0
  isProcessingQueue : Bool := false
  processSignalPending : Bool := false
  /-- A clamp has changed `activeRequests`. -/
  activeClamped : Bool := false
  /-- A clamp has changed the `totalSize` of a batch. -/
  sizeClamped : Bool := false

/-- `task.size ?? 1`. -/
def QueueTask.sizeOrOne (task : QueueTask) : ℕ := task.size.getD 1

/-- Is this the task? Tasks are objects of their own, told apart by `id`. -/
def QueueTask.same (task other : QueueTask) : Bool := other.id == task.id

/-- The weight of a batch, by the weight of its tasks. -/
@[simp] def inBatch (w : QueueTask → ℕ) (batch : TaskBatch) : ℕ := weight w batch.tasks

namespace QueueStateHolder

/-- `getBatchTaskCount()`. -/
def getBatchTaskCount (s : QueueStateHolder) : ℕ := s.batchQueues.weightOf fun b => b.tasks.length

/-- `getTotalQueueLength()`. -/
def getTotalQueueLength (s : QueueStateHolder) : ℕ :=
  s.highPriorityQueue.length + s.normalPriorityQueue.length + s.lowPriorityQueue.length +
    s.getBatchTaskCount

/-- `activeRequests = Math.max(0, n)`. -/
def setActiveRequests (s : QueueStateHolder) (n : ℤ) : QueueStateHolder :=
  { s with
    activeRequests := max 0 n
    activeClamped := s.activeClamped || decide (n < 0) }

/-- `decrementActiveRequests()`. -/
def decrementActiveRequests (s : QueueStateHolder) : QueueStateHolder :=
  s.setActiveRequests (s.activeRequests - 1)

/-- The batch that holds a task, with its key: the first one in the order of the map. -/
def batchOf (s : QueueStateHolder) (task : QueueTask) : Option (String × TaskBatch) :=
  s.batchQueues.entries.find? fun e => e.2.tasks.any task.same

/-- A batch without a task: `totalSize -= removed.size ?? 1`. -/
def withoutTask (batch : TaskBatch) (task : QueueTask) : TaskBatch :=
  { batch with
    tasks := batch.tasks.eraseP task.same
    totalSize := batch.totalSize.sub (.finite ((batch.tasks.find? task.same).getD task).sizeOrOne) }

/-- `removeTaskFromQueues(task)`: whether the task was found, and the queues without it. -/
def removeTaskFromQueues (s : QueueStateHolder) (task : QueueTask) : Bool × QueueStateHolder :=
  if s.highPriorityQueue.any task.same then
    (true, { s with highPriorityQueue := s.highPriorityQueue.eraseP task.same })
  else if s.normalPriorityQueue.any task.same then
    (true, { s with normalPriorityQueue := s.normalPriorityQueue.eraseP task.same })
  else if s.lowPriorityQueue.any task.same then
    (true, { s with lowPriorityQueue := s.lowPriorityQueue.eraseP task.same })
  else match s.batchOf task with
    | none => (false, s)
    | some (key, batch) =>
      let batch := withoutTask batch task
      let batchQueues := s.batchQueues.set key batch
      (true, { s with
        batchQueues := if batch.tasks.isEmpty then batchQueues.delete batch.category else batchQueues })

/-- The weight of the waiting tasks. -/
def waiting (w : QueueTask → ℕ) (s : QueueStateHolder) : ℕ :=
  weight w s.highPriorityQueue + weight w s.normalPriorityQueue + weight w s.lowPriorityQueue +
    s.batchQueues.weightOf (inBatch w)

/-- Every batch is stored under its category. -/
def Keyed (s : QueueStateHolder) : Prop :=
  ∀ key batch, s.batchQueues.get? key = some batch → batch.category = key

end QueueStateHolder

/-- The fields of `QueueStatsService`. -/
structure QueueStatsService where
  totalProcessed : ℕ := 0
  totalRejected : ℕ := 0
  totalTimeout : ℕ := 0
  recentProcessed : ℕ := 0
  recentRejected : ℕ := 0
  recentTimeout : ℕ := 0

namespace QueueStatsService

/-- `incrementProcessed(count)`. -/
def incrementProcessed (s : QueueStatsService) (count : ℕ) : QueueStatsService :=
  { s with
    totalProcessed := s.totalProcessed + count
    recentProcessed := s.recentProcessed + count }

/-- `incrementRejected(count)`. -/
def incrementRejected (s : QueueStatsService) (count : ℕ) : QueueStatsService :=
  { s with
    totalRejected := s.totalRejected + count
    recentRejected := s.recentRejected + count }

/-- `incrementTimeout(count)`. -/
def incrementTimeout (s : QueueStatsService) (count : ℕ) : QueueStatsService :=
  { s with
    totalTimeout := s.totalTimeout + count
    recentTimeout := s.recentTimeout + count }

/-- What `logStats` resets after logging. -/
def resetRecent (s : QueueStatsService) : QueueStatsService :=
  { s with recentProcessed := 0, recentRejected := 0, recentTimeout := 0 }

end QueueStatsService

namespace QueueStateHolder

theorem getTotalQueueLength_eq (s : QueueStateHolder) :
    s.getTotalQueueLength = s.waiting fun _ => 1 := by
  have hbatch : s.batchQueues.weightOf (inBatch fun _ => 1) = s.getBatchTaskCount :=
    weight_congr fun e _ => by simp [weight_const]
  simp [getTotalQueueLength, waiting, weight_const, hbatch]

/-! ### Removing a task -/

section Remove

variable {w : QueueTask → ℕ} {task : QueueTask}

/-- A task found in a list is the task. -/
theorem find_same {q : List QueueTask} (h : q.any task.same = true) :
    ∃ a, q.find? task.same = some a ∧ a.id = task.id := by
  obtain ⟨a, ha⟩ := Option.isSome_iff_exists.mp (List.find?_isSome.mpr (List.any_eq_true.mp h))
  exact ⟨a, ha, by simpa [QueueTask.same] using List.find?_some ha⟩

/-- Taking a task out of a list takes its weight out. -/
theorem weight_eraseP_same (hw : ∀ a : QueueTask, a.id = task.id → w a = w task)
    {q : List QueueTask} (h : q.any task.same = true) :
    weight w (q.eraseP task.same) + w task = weight w q := by
  obtain ⟨a, ha, hid⟩ := find_same h
  rw [← hw a hid]
  exact weight_eraseP w ha

/-- A task that is nowhere among tasks has no weight there. -/
theorem weight_eq_zero_of_not_any {q : List QueueTask} (h : ¬ q.any task.same = true) :
    weight (isTask task.id) q = 0 := by
  refine weight_eq_zero _ fun a ha => ?_
  have := List.any_eq_false.mp (Bool.eq_false_iff.mpr h) a ha
  simp only [QueueTask.same, beq_iff_eq] at this
  simp [isTask, this]

theorem batchOf_some {s : QueueStateHolder} {key : String} {batch : TaskBatch}
    (h : s.batchOf task = some (key, batch)) :
    s.batchQueues.get? key = some batch ∧ batch.tasks.any task.same = true :=
  ⟨JsMap.get?_of_mem (List.mem_of_find?_eq_some h), by simpa using List.find?_some h⟩

theorem batchOf_none {s : QueueStateHolder} (h : s.batchOf task = none) :
    s.batchQueues.weightOf (inBatch (isTask task.id)) = 0 := by
  refine weight_eq_zero _ fun e he => ?_
  exact weight_eq_zero_of_not_any (List.find?_eq_none.mp h e he)

/-- Putting a batch without the task in the batch's place, or nothing when no task is left. -/
theorem weightOf_withoutTask {s : QueueStateHolder} (hk : s.Keyed)
    (hw : ∀ a : QueueTask, a.id = task.id → w a = w task) {key : String} {batch : TaskBatch}
    (hb : s.batchQueues.get? key = some batch) (hany : batch.tasks.any task.same = true) :
    (if (withoutTask batch task).tasks.isEmpty then
        (s.batchQueues.set key (withoutTask batch task)).delete (withoutTask batch task).category
      else s.batchQueues.set key (withoutTask batch task)).weightOf (inBatch w) + w task =
      s.batchQueues.weightOf (inBatch w) := by
  have hset := JsMap.weightOf_set_of_some (inBatch w) hb (withoutTask batch task)
  have herase : weight w (withoutTask batch task).tasks + w task = weight w batch.tasks :=
    weight_eraseP_same hw hany
  simp only [inBatch] at hset ⊢
  split
  · rename_i hempty
    have hcat : (withoutTask batch task).category = key := hk key batch hb
    have hdel := JsMap.weightOf_delete_of_some (inBatch w)
      (s.batchQueues.get?_set_self key (withoutTask batch task))
    rw [hcat]
    simp only [inBatch, List.isEmpty_iff.mp hempty, weight_nil] at hdel herase hset
    omega
  · omega

/-- **A task found is taken out once**, and nothing else is. -/
theorem removeTaskFromQueues_found {s : QueueStateHolder} (hk : s.Keyed)
    (h : (s.removeTaskFromQueues task).1 = true)
    (hw : ∀ a : QueueTask, a.id = task.id → w a = w task) :
    (s.removeTaskFromQueues task).2.waiting w + w task = s.waiting w := by
  revert h
  unfold removeTaskFromQueues
  split
  · rename_i hany
    intro _
    have := weight_eraseP_same hw hany
    simp only [waiting]
    omega
  · split
    · rename_i hany
      intro _
      have := weight_eraseP_same hw hany
      simp only [waiting]
      omega
    · split
      · rename_i hany
        intro _
        have := weight_eraseP_same hw hany
        simp only [waiting]
        omega
      · cases hb : s.batchOf task with
        | none => simp
        | some e =>
          obtain ⟨hget, hany⟩ := batchOf_some hb
          intro _
          have := weightOf_withoutTask hk hw hget hany
          simp only [waiting]
          omega

/-- A task not found waits nowhere, and the queues stay as they are. -/
theorem removeTaskFromQueues_not_found {s : QueueStateHolder}
    (h : (s.removeTaskFromQueues task).1 = false) :
    (s.removeTaskFromQueues task).2 = s ∧ s.waiting (isTask task.id) = 0 := by
  revert h
  unfold removeTaskFromQueues
  split
  · simp
  · rename_i hhigh
    split
    · simp
    · rename_i hnormal
      split
      · simp
      · rename_i hlow
        cases hb : s.batchOf task with
        | none =>
          intro _
          simp [waiting, weight_eq_zero_of_not_any hhigh, weight_eq_zero_of_not_any hnormal,
            weight_eq_zero_of_not_any hlow, batchOf_none hb]
        | some e => simp

/-- What taking a task out leaves alone. -/
theorem removeTaskFromQueues_frame (s : QueueStateHolder) (task : QueueTask) :
    (s.removeTaskFromQueues task).2 =
      { s with
        highPriorityQueue := (s.removeTaskFromQueues task).2.highPriorityQueue
        normalPriorityQueue := (s.removeTaskFromQueues task).2.normalPriorityQueue
        lowPriorityQueue := (s.removeTaskFromQueues task).2.lowPriorityQueue
        batchQueues := (s.removeTaskFromQueues task).2.batchQueues } := by
  unfold removeTaskFromQueues
  split
  · rfl
  · split
    · rfl
    · split
      · rfl
      · cases s.batchOf task <;> rfl

end Remove

/-! ### Batches keep their keys -/

theorem Keyed.set {s : QueueStateHolder} (h : s.Keyed) (key : String) {batch : TaskBatch}
    (hb : batch.category = key) : Keyed { s with batchQueues := s.batchQueues.set key batch } := by
  intro k b hget
  rw [JsMap.get?_set] at hget
  split at hget
  · rename_i hk
    cases hget
    exact hb.trans hk
  · exact h k b hget

theorem Keyed.delete {s : QueueStateHolder} (h : s.Keyed) (key : String) :
    Keyed { s with batchQueues := s.batchQueues.delete key } := by
  intro k b hget
  rw [JsMap.get?_delete] at hget
  split at hget
  · cases hget
  · exact h k b hget

theorem Keyed.removeTaskFromQueues {s : QueueStateHolder} (h : s.Keyed) (task : QueueTask) :
    (s.removeTaskFromQueues task).2.Keyed := by
  unfold QueueStateHolder.removeTaskFromQueues
  split
  · exact h
  · split
    · exact h
    · split
      · exact h
      · cases hb : s.batchOf task with
        | none => exact h
        | some e =>
          have hkey : (withoutTask e.2 task).category = e.1 := h e.1 e.2 (batchOf_some hb).1
          have hset := h.set e.1 hkey
          dsimp only
          split
          · exact hset.delete _
          · exact hset

end QueueStateHolder

end BulkTraffic.Queue
