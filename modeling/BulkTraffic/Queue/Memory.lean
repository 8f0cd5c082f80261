import BulkTraffic.Queue.State

/-!
# Memory pressure

`MemoryService`: when the heap counts as under pressure, which waiting tasks
`cleanupOldTasks` rejects for their age, and how many of the low-priority tasks
`forceReduceQueues` gives up.
-/

namespace BulkTraffic.Queue

open BulkTraffic.Lib BulkTraffic.Js

/-- What `process.memoryUsage()` says, and whether `global.gc` is there. -/
structure MemoryUsage where
  heapUsed : ℕ
  heapTotal : ℕ
  gc : Bool

namespace MemoryService

/-- `usageRatio > HIGH_MEMORY_THRESHOLD`. -/
def isHigh (usage : MemoryUsage) : Bool := 75 * usage.heapTotal < 100 * usage.heapUsed

/-- `usageRatio > CRITICAL_MEMORY_THRESHOLD && global.gc`. -/
def isCritical (usage : MemoryUsage) : Bool :=
  90 * usage.heapTotal < 100 * usage.heapUsed && usage.gc

/-- `FORCE_REDUCE_BATCH_SIZE_THRESHOLD`. -/
def forceReduceBatchSizeThreshold : ℕ := 50

/-- `now - since > taskTimeoutMs * TASK_TIMEOUT_BUFFER_RATIO`, with a ratio of `1.5`. -/
def isOverdue (now taskTimeoutMs since : ℕ) : Bool := 3 * taskTimeoutMs < 2 * (now - since)

/-- The rejection of a waiting task that is too old. -/
def cleanupMessage : String := "요청 처리 지연으로 취소되었습니다."

/-- The rejection of the tasks of a batch that is too old. -/
def batchCleanupMessage : String := "배치 처리 시간 초과"

/-- The rejection of a task given up for lack of memory. -/
def forceReduceMessage : String := "서버 리소스 부족으로 요청이 취소되었습니다."

/-- The calls of `cleanupQueue`: the overdue tasks are rejected from the last one on. -/
def cleanupQueueCalls (now taskTimeoutMs : ℕ) (queue : List QueueTask) : List Call :=
  (queue.filter fun task => isOverdue now taskTimeoutMs task.timestamp).reverse.map fun task =>
    .reject task .cleanup (.error cleanupMessage)

/-- What `cleanupQueue` leaves. -/
def cleanupQueue (now taskTimeoutMs : ℕ) (queue : List QueueTask) : List QueueTask :=
  queue.filter fun task => !isOverdue now taskTimeoutMs task.timestamp

/-- The calls and the batches after the loop of `cleanupOldTasks` over the batches, on the
given entries. -/
def cleanupBatches (now taskTimeoutMs : ℕ) :
    List (String × TaskBatch) → JsMap String TaskBatch → List Call × JsMap String TaskBatch
  | [], batchQueues => ([], batchQueues)
  | (category, batch) :: entries, batchQueues =>
    if isOverdue now taskTimeoutMs batch.createdAt then
      let calls := batch.tasks.map fun task => Call.reject task .cleanup (.error batchCleanupMessage)
      let (calls', batchQueues) :=
        cleanupBatches now taskTimeoutMs entries (batchQueues.delete category)
      (calls ++ calls', batchQueues)
    else cleanupBatches now taskTimeoutMs entries batchQueues

/-- `cleanupOldTasks(queues, batchQueues, taskTimeoutMs)`: the rejections and the queues;
as many tasks as there are rejections are returned as its count. -/
def cleanupOldTasks (now : ℕ) (s : QueueStateHolder) : List Call × QueueStateHolder :=
  let t := s.config.taskTimeoutMs
  let (calls, batchQueues) := cleanupBatches now t s.batchQueues.entries s.batchQueues
  (cleanupQueueCalls now t s.highPriorityQueue ++ cleanupQueueCalls now t s.normalPriorityQueue ++
      cleanupQueueCalls now t s.lowPriorityQueue ++ calls,
    { s with
      highPriorityQueue := cleanupQueue now t s.highPriorityQueue
      normalPriorityQueue := cleanupQueue now t s.normalPriorityQueue
      lowPriorityQueue := cleanupQueue now t s.lowPriorityQueue
      batchQueues := batchQueues })

/-- The half of the low-priority queue that `forceReduceQueues` keeps. -/
def keptLow (queue : List QueueTask) : List QueueTask :=
  queue.take (queue.length - queue.length / 2)

/-- The tasks `forceReduceQueues` rejects, popped from the end. -/
def poppedLow (queue : List QueueTask) : List QueueTask :=
  (queue.drop (queue.length - queue.length / 2)).reverse

/-- Does `forceReduceQueues` process the batch? -/
def isHeavy (batch : TaskBatch) : Bool :=
  Number.lt (.finite forceReduceBatchSizeThreshold) batch.totalSize

/-! ### What the cleanup does to the waiting tasks -/

section Cleanup

variable {w : QueueTask → ℕ} {v : Call → ℕ}

/-- What `cleanupQueue` takes out is rejected. -/
theorem cleanupQueue_weight (hv : ∀ task reason, v (.reject task .cleanup reason) = w task)
    (now t : ℕ) (q : List QueueTask) :
    weight w (cleanupQueue now t q) + weight v (cleanupQueueCalls now t q) = weight w q := by
  have hsplit := weight_filter_add w (fun task => isOverdue now t task.timestamp) q
  have hcalls : weight v (cleanupQueueCalls now t q) =
      weight w (q.filter fun task => isOverdue now t task.timestamp) := by
    simp only [cleanupQueueCalls, weight_map, hv, weight_reverse]
  simp only [cleanupQueue]
  omega

/-- What the loop over the batches takes out is rejected. -/
theorem cleanupBatches_weight (hv : ∀ task reason, v (.reject task .cleanup reason) = w task)
    (now t : ℕ) (entries : List (String × TaskBatch)) {m : JsMap String TaskBatch}
    (hentries : ∀ e ∈ entries, m.get? e.1 = some e.2) (hnodup : (entries.map Prod.fst).Nodup) :
    (cleanupBatches now t entries m).2.weightOf (inBatch w) +
        weight v (cleanupBatches now t entries m).1 = m.weightOf (inBatch w) := by
  induction entries generalizing m with
  | nil => rfl
  | cons e entries ih =>
    obtain ⟨category, batch⟩ := e
    simp only [List.map_cons, List.nodup_cons] at hnodup
    have hget : m.get? category = some batch := hentries (category, batch) (by simp)
    simp only [cleanupBatches]
    split
    · have hrest : ∀ e ∈ entries, (m.delete category).get? e.1 = some e.2 := by
        intro e he
        have hne : category ≠ e.1 := fun hk => hnodup.1 (hk ▸ List.mem_map_of_mem he)
        rw [JsMap.get?_delete_of_ne m hne]
        exact hentries e (by simp [he])
      have hcalls : weight v (batch.tasks.map fun task =>
          Call.reject task .cleanup (.error batchCleanupMessage)) = weight w batch.tasks := by
        simp only [weight_map, hv]
      have := ih hrest hnodup.2
      have hdel := JsMap.weightOf_delete_of_some (inBatch w) hget
      simp only [weight_append, inBatch] at this hdel ⊢
      omega
    · exact ih (fun e he => hentries e (by simp [he])) hnodup.2

/-- **Every task `cleanupOldTasks` takes out is rejected**, and no other. -/
theorem cleanupOldTasks_weight (hv : ∀ task reason, v (.reject task .cleanup reason) = w task)
    (now : ℕ) (s : QueueStateHolder) :
    (cleanupOldTasks now s).2.waiting w + weight v (cleanupOldTasks now s).1 = s.waiting w := by
  have hhigh := cleanupQueue_weight hv now s.config.taskTimeoutMs s.highPriorityQueue
  have hnormal := cleanupQueue_weight hv now s.config.taskTimeoutMs s.normalPriorityQueue
  have hlow := cleanupQueue_weight hv now s.config.taskTimeoutMs s.lowPriorityQueue
  have hbatches := cleanupBatches_weight hv now s.config.taskTimeoutMs s.batchQueues.entries
    (m := s.batchQueues) (fun e he => JsMap.get?_of_mem he) s.batchQueues.nodup
  simp only [cleanupOldTasks, QueueStateHolder.waiting, weight_append]
  omega

end Cleanup

theorem cleanupBatches_keyed {s : QueueStateHolder} (now t : ℕ)
    (entries : List (String × TaskBatch)) {m : JsMap String TaskBatch}
    (hm : QueueStateHolder.Keyed { s with batchQueues := m }) :
    QueueStateHolder.Keyed { s with batchQueues := (cleanupBatches now t entries m).2 } := by
  induction entries generalizing m with
  | nil => exact hm
  | cons e entries ih =>
    simp only [MemoryService.cleanupBatches]
    split
    · exact ih (hm.delete e.1)
    · exact ih hm

theorem cleanupOldTasks_keyed {s : QueueStateHolder} (h : s.Keyed) (now : ℕ) :
    (cleanupOldTasks now s).2.Keyed :=
  cleanupBatches_keyed now s.config.taskTimeoutMs s.batchQueues.entries h

/-- Half of the low-priority tasks are popped, the others are kept. -/
theorem keptLow_weight (w : QueueTask → ℕ) (q : List QueueTask) :
    weight w (keptLow q) + weight w (poppedLow q) = weight w q := by
  simp only [keptLow, poppedLow, weight_reverse]
  exact weight_take_add_drop w _ q

end MemoryService

end BulkTraffic.Queue
