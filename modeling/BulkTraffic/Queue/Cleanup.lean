import BulkTraffic.Queue.BatchRuns
import Mathlib.Data.Rat.Cast.Order
import Mathlib.Tactic.Linarith

/-!
# What `cleanupOldTasks` expires

Tasks in the priority queues are judged by their own waiting time, the tasks of a batch by the
age of the batch, `now - createdAt`.

* `isOverdue_iff`: the comparison with `1.5 * taskTimeoutMs`.
* `QueueStateHolder.expired`: the tasks of the queues that have waited too long, and the tasks of
  the batches that are too old.
* `cleanupOldTasks_expires`: exactly these are rejected, removed and counted, and every other
  task stays where it is.
-/

namespace BulkTraffic.Queue

open BulkTraffic.Lib BulkTraffic.Js

namespace MemoryService

/-- `now - since > taskTimeoutMs * 1.5`. -/
theorem isOverdue_iff (now taskTimeoutMs since : ℕ) :
    isOverdue now taskTimeoutMs since = true ↔
      (taskTimeoutMs : ℚ) * (3 / 2) < (now : ℚ) - since := by
  unfold isOverdue
  rw [decide_eq_true_iff]
  by_cases hle : since ≤ now
  · obtain ⟨waited, rfl⟩ := Nat.exists_eq_add_of_le hle
    rw [Nat.add_sub_cancel_left]
    push_cast
    constructor
    · intro h
      have h' : (3 * taskTimeoutMs : ℚ) < 2 * waited := by exact_mod_cast h
      linarith
    · intro h
      have h' : (3 * taskTimeoutMs : ℚ) < 2 * waited := by linarith
      exact_mod_cast h'
  · have hzero : now - since = 0 := by omega
    have hlt : (now : ℚ) < since := by exact_mod_cast not_le.mp hle
    have hpos : (0 : ℚ) ≤ taskTimeoutMs := by exact_mod_cast Nat.zero_le _
    rw [hzero]
    constructor
    · intro h
      omega
    · intro h
      linarith

/-- The rejections of the tasks of a batch. -/
def batchCleanupCalls (batch : TaskBatch) : List Call :=
  batch.tasks.map fun task => .reject task .cleanup (.error batchCleanupMessage)

/-- The loop over the batches rejects the tasks of the old ones, in order, and keeps the others
in order. -/
theorem cleanupBatches_eq (now t : ℕ) (entries kept : List (String × TaskBatch))
    {m : JsMap String TaskBatch} (hm : m.entries = kept ++ entries) :
    (cleanupBatches now t entries m).1 =
        (entries.filter fun e => isOverdue now t e.2.createdAt).flatMap
          (fun e => batchCleanupCalls e.2) ∧
      (cleanupBatches now t entries m).2.entries =
        kept ++ entries.filter fun e => !isOverdue now t e.2.createdAt := by
  induction entries generalizing kept m with
  | nil => exact ⟨rfl, hm⟩
  | cons e entries ih =>
    simp only [cleanupBatches]
    by_cases hold : isOverdue now t e.2.createdAt = true
    · have hdeleted : (m.delete e.1).entries = kept ++ entries := by
        have hnodup := m.nodup
        change JsMap.remove e.1 m.entries = _
        rw [hm] at hnodup ⊢
        exact JsMap.remove_append hnodup
      obtain ⟨hcalls, hentries⟩ := ih kept hdeleted
      rw [if_pos hold]
      refine ⟨?_, ?_⟩
      · simp only [hcalls, List.filter_cons, if_pos hold, List.flatMap_cons]
        rfl
      · simp [hentries, hold]
    · obtain ⟨hcalls, hentries⟩ := ih (kept ++ [e]) (m := m) (by simp [hm])
      rw [if_neg hold]
      refine ⟨?_, ?_⟩
      · simp [hcalls, hold]
      · simp [hentries, hold]

end MemoryService

namespace QueueStateHolder

/-- The tasks of a queue that have waited too long, from the last one on. -/
def expiredIn (s : QueueStateHolder) (now : ℕ) (queue : List QueueTask) : List QueueTask :=
  (queue.filter fun task => MemoryService.isOverdue now s.config.taskTimeoutMs task.timestamp).reverse

/-- The tasks of the queues that have waited too long, and the tasks of the batches that are
too old. -/
def expired (s : QueueStateHolder) (now : ℕ) : List QueueTask :=
  s.expiredIn now s.highPriorityQueue ++ s.expiredIn now s.normalPriorityQueue ++
    s.expiredIn now s.lowPriorityQueue ++
    (s.batchQueues.values.filter fun batch =>
      MemoryService.isOverdue now s.config.taskTimeoutMs batch.createdAt).flatMap TaskBatch.tasks

end QueueStateHolder

namespace MemoryService

/-- The tasks that `cleanupOldTasks` rejects, in order. -/
theorem cleanupOldTasks_settles (s : QueueStateHolder) (now : ℕ) :
    (cleanupOldTasks now s).1.filterMap Call.settles = s.expired now := by
  have hqueue : ∀ queue, (cleanupQueueCalls now s.config.taskTimeoutMs queue).filterMap Call.settles =
      s.expiredIn now queue := by
    intro queue
    simp [cleanupQueueCalls, QueueStateHolder.expiredIn, List.filterMap_map, Function.comp_def,
      Call.settles]
  have hbatch : ∀ batch, (batchCleanupCalls batch).filterMap Call.settles = batch.tasks := by
    intro batch
    simp [batchCleanupCalls, List.filterMap_map, Function.comp_def, Call.settles]
  obtain ⟨hcalls, -⟩ := cleanupBatches_eq now s.config.taskTimeoutMs s.batchQueues.entries []
    (m := s.batchQueues) rfl
  have hbatches : (cleanupBatches now s.config.taskTimeoutMs s.batchQueues.entries
        s.batchQueues).1.filterMap Call.settles =
      (s.batchQueues.values.filter fun batch =>
        isOverdue now s.config.taskTimeoutMs batch.createdAt).flatMap TaskBatch.tasks := by
    rw [hcalls, List.filterMap_flatMap]
    simp only [hbatch, JsMap.values, List.filter_map, List.flatMap_map]
    rfl
  simp only [cleanupOldTasks, QueueStateHolder.expired, List.filterMap_append, hqueue, hbatches]

end MemoryService

namespace QueueSystem

/-- **`cleanupOldTasks` expires exactly the old tasks of the queues and the tasks of the old
batches.** It rejects them, each once, takes them out and counts them; the others stay, in
order. -/
theorem cleanupOldTasks_expires (s : QueueSystem) (now : ℕ) :
    ∃ calls, (s.cleanupOldTasks now).log = s.log ++ calls ∧
      (∀ c ∈ calls, ∃ task reason, c = .reject task .cleanup reason) ∧
      calls.filterMap Call.settles = s.state.expired now ∧
      (s.cleanupOldTasks now).stats.totalTimeout =
        s.stats.totalTimeout + (s.state.expired now).length ∧
      (∀ (queue : QueueStateHolder → List QueueTask), queue = QueueStateHolder.highPriorityQueue ∨
          queue = QueueStateHolder.normalPriorityQueue ∨ queue = QueueStateHolder.lowPriorityQueue →
        queue (s.cleanupOldTasks now).state = (queue s.state).filter fun task =>
          !MemoryService.isOverdue now s.state.config.taskTimeoutMs task.timestamp) ∧
      (s.cleanupOldTasks now).state.batchQueues.entries = s.state.batchQueues.entries.filter fun e =>
        !MemoryService.isOverdue now s.state.config.taskTimeoutMs e.2.createdAt := by
  have hsettles := MemoryService.cleanupOldTasks_settles s.state now
  have hcalls : ∀ c ∈ (MemoryService.cleanupOldTasks now s.state).1,
      ∃ task reason, c = .reject task .cleanup reason := fun c hc => cleanupOldTasks_mem hc
  have hcount : (MemoryService.cleanupOldTasks now s.state).1.length =
      (s.state.expired now).length := by
    rw [← hsettles, List.length_filterMap_eq_countP, eq_comm, List.countP_eq_length]
    intro c hc
    obtain ⟨task, reason, rfl⟩ := hcalls c hc
    rfl
  obtain ⟨-, hentries⟩ := MemoryService.cleanupBatches_eq now s.state.config.taskTimeoutMs
    s.state.batchQueues.entries [] (m := s.state.batchQueues) rfl
  refine ⟨(MemoryService.cleanupOldTasks now s.state).1, rfl, hcalls, hsettles, ?_, ?_, hentries⟩
  · rw [← hcount]
    rfl
  · rintro queue (rfl | rfl | rfl)
    · rfl
    · rfl
    · rfl

/-- With a `taskTimeoutMs` of `1000`, a task that joined a batch opened at `0` is rejected at
`1501` after `601` milliseconds. -/
theorem cleanupOldTasks_young_task :
    ∃ s task, Reachable step (initial { taskTimeoutMs := 1000 } 0 {} false false 0 none none none) s ∧
      task ∈ s.batchTasks "default" ∧
      MemoryService.isOverdue 1501 s.state.config.taskTimeoutMs task.timestamp = false ∧
      task.id ∈ ((s.cleanupOldTasks 1501).log.filterMap Call.settles).map QueueTask.id ∧
      task.id ∉ (s.log.filterMap Call.settles).map QueueTask.id := by
  obtain ⟨s, hs, hseen⟩ := exists_reaches_of_runEvents step (fun _ _ => True)
    (fun s => (s.batchTasks "default").any fun task =>
      !MemoryService.isOverdue 1501 s.state.config.taskTimeoutMs task.timestamp &&
        decide (task.id ∈ ((s.cleanupOldTasks 1501).log.filterMap Call.settles).map QueueTask.id ∧
          task.id ∉ (s.log.filterMap Call.settles).map QueueTask.id))
    (s := initial { taskTimeoutMs := 1000 } 0 {} false false 0 none none none)
    [.enqueue { batch := .bool true } 0, .enqueue { batch := .bool true } 900, .queueWaitTimer 0]
    true (by decide +kernel)
  obtain ⟨task, hmem, htask⟩ := List.any_eq_true.mp hseen
  obtain ⟨hyoung, hrejected⟩ := (Bool.and_eq_true _ _).mp htask
  obtain ⟨hafter, hbefore⟩ := of_decide_eq_true hrejected
  exact ⟨s, task, hs, hmem, Bool.not_eq_true' _ ▸ hyoung, hafter, hbefore⟩

end QueueSystem

end BulkTraffic.Queue
