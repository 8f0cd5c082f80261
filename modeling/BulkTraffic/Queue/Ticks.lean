import BulkTraffic.Queue.SystemFlow

/-!
# One tick of the queue

What a call of `processQueue` dispatches, said without its loops. The queues it visits, one after
the other, are one list (`visited`); the call takes the first tasks of it, as many as it has slots.

* `processQueue_dispatches`: the tasks taken, where each goes, what is left of each queue, and how
  many requests are active before the pool or a promise chain can give one back.
-/

namespace BulkTraffic.Queue

open BulkTraffic.Lib BulkTraffic.Js

namespace QueueSystem

/-- The tasks `processQueue` looks at, in its order: the low-priority ones not under memory
pressure. -/
def visited (s : QueueSystem) : List QueueTask :=
  s.state.highPriorityQueue ++ s.state.normalPriorityQueue ++
    if s.memoryPressure then [] else s.state.lowPriorityQueue

/-- The slots `processQueue` has. -/
def availableSlots (s : QueueSystem) : ℕ :=
  min s.state.config.concurrentTasks
    ((s.state.config.maxConcurrentRequests : ℤ) - s.state.activeRequests).toNat

/-- The slots left when the first tasks of a queue have been taken. -/
theorem sub_length_take (n : ℕ) (q : List QueueTask) : n - (q.take n).length = n - q.length := by
  rw [List.length_take]
  omega

/-- **The tasks taken** are the first ones visited. -/
theorem take_all_eq (s : QueueSystem) (slots : ℕ) : (s.take slots).all = s.visited.take slots := by
  unfold take Taken.all visited
  dsimp only
  rw [List.take_append, List.take_append, sub_length_take, sub_length_take]
  split
  · simp
  · rw [List.length_append, Nat.sub_sub]

/-- What a call of `processQueue` with `slots` free slots has done to `s` when its loops are over:
`m` is the state before the pool starts a pass. -/
structure Dispatched (s m : QueueSystem) (slots : ℕ) : Prop where
  /-- As many requests more are active as tasks were taken. -/
  activeRequests : m.state.activeRequests = s.state.activeRequests + min slots s.visited.length
  /-- The eligible ones of the tasks taken are pending for a worker. -/
  workers : m.pool.workerTaskQueue = s.pool.workerTaskQueue ++
    (toWorkers s.pool.useWorkers (s.visited.take slots)).map createWorkerTaskData
  /-- The others have a promise chain on the main thread. -/
  mainThread : m.running = s.running ++
    (toMainThread s.pool.useWorkers (s.visited.take slots)).map fun task => { task := task }
  /-- What is left of the queue of high priority. -/
  high : m.state.highPriorityQueue = s.state.highPriorityQueue.drop slots
  /-- What is left of the queue of normal priority. -/
  normal : m.state.normalPriorityQueue =
    s.state.normalPriorityQueue.drop (slots - s.state.highPriorityQueue.length)
  /-- What is left of the queue of low priority: all of it under memory pressure. -/
  low : m.state.lowPriorityQueue =
    if s.memoryPressure then s.state.lowPriorityQueue
    else s.state.lowPriorityQueue.drop
      (slots - s.state.highPriorityQueue.length - s.state.normalPriorityQueue.length)

/-- What is left is what was not taken, in its order. -/
theorem Dispatched.visited_drop {s m : QueueSystem} {slots : ℕ} (h : Dispatched s m slots)
    (hpressure : m.memoryPressure = s.memoryPressure) : m.visited = s.visited.drop slots := by
  unfold visited
  rw [h.high, h.normal, h.low, hpressure, List.drop_append, List.drop_append]
  split
  · simp
  · rw [List.length_append, Nat.sub_sub]

/-- The queues and the promise chains are the same. -/
structure SameQueues (s s' : QueueSystem) : Prop where
  high : s'.state.highPriorityQueue = s.state.highPriorityQueue
  normal : s'.state.normalPriorityQueue = s.state.normalPriorityQueue
  low : s'.state.lowPriorityQueue = s.state.lowPriorityQueue
  running : s'.running = s.running
  memoryPressure : s'.memoryPressure = s.memoryPressure

theorem sameQueues_of_sameTasks {s s' : QueueSystem} (h : SameTasks s s') : SameQueues s s' :=
  ⟨by rw [h.state], by rw [h.state], by rw [h.state], h.running, h.memoryPressure⟩

theorem dispatched_drainQueues (s : QueueSystem) (slots : ℕ) :
    Dispatched s (s.drainQueues slots).1 slots := by
  have hall := take_all_eq s slots
  rw [drainQueues_eq]
  constructor
  · simp only [withQueues, dispatchAll, hall, List.length_take]
  · simp only [withQueues, dispatchAll, hall]
  · simp only [withQueues, dispatchAll, hall]
  · simp only [withQueues, take, drop_length_take]
  · simp only [withQueues, take, drop_length_take]
    rw [sub_length_take]
  · simp only [withQueues, take]
    split
    · rfl
    · rw [drop_length_take, sub_length_take, sub_length_take]

/-- The pass that follows the loops when they have added worker tasks. -/
def afterLoops (post : PostMessage) (s m : QueueSystem) : QueueSystem :=
  if (toWorkers s.pool.useWorkers (s.visited.take s.availableSlots)).isEmpty then m
  else m.afterPool (m.pool.processWorkerTasks post)

theorem workerDispatchCount_eq (s : QueueSystem) (slots : ℕ) :
    (s.drainQueues slots).2 = (toWorkers s.pool.useWorkers (s.visited.take slots)).length := by
  rw [← take_all_eq]
  unfold drainQueues take Taken.all
  simp only [drain_eq]
  split <;> simp [toWorkers, dispatchAll, Nat.add_assoc]

/-- A call that does not return at once, by its parts. -/
theorem processQueue_eq (post : PostMessage) {s : QueueSystem}
    (hidle : s.state.isProcessingQueue = false)
    (hactive : s.state.activeRequests < s.state.config.maxConcurrentRequests) :
    s.processQueue post = (afterLoops post s (s.drainQueues s.availableSlots).1).rearm := by
  have hcount := workerDispatchCount_eq s s.availableSlots
  unfold processQueue
  rw [if_neg (by simp [hidle]), if_neg (by omega)]
  unfold afterLoops
  simp only [availableSlots] at hcount ⊢
  rw [hcount]
  congr 1
  by_cases hempty : toWorkers s.pool.useWorkers (s.visited.take s.availableSlots) = []
  · rw [availableSlots] at hempty
    simp [hempty]
  · have hpos := List.length_pos_iff.mpr hempty
    rw [availableSlots] at hempty hpos
    simp [hempty, hpos]

theorem sameQueues_afterLoops (post : PostMessage) (s m : QueueSystem) :
    SameQueues m (afterLoops post s m).rearm := by
  have hrearm := sameQueues_of_sameTasks (sameTasks_rearm (afterLoops post s m))
  have hafter : SameQueues m (afterLoops post s m) := by
    unfold afterLoops
    split
    · exact ⟨rfl, rfl, rfl, rfl, rfl⟩
    · obtain ⟨hhigh, hnormal, hlow, hrunning, hpressure⟩ :=
        sameQueues_of_sameTasks (sameTasks_afterPool m (m.pool.processWorkerTasks post))
      exact ⟨hhigh, hnormal, hlow, hrunning, hpressure⟩
  exact ⟨hrearm.high.trans hafter.high, hrearm.normal.trans hafter.normal,
    hrearm.low.trans hafter.low, hrearm.running.trans hafter.running,
    hrearm.memoryPressure.trans hafter.memoryPressure⟩

/-- **Strict priority and arrival order**: a call with a free slot dispatches the first tasks it
visits, as many as it has slots, each to the workers or to the main thread, and leaves the others
in their queues. What follows, a pass of the pool and the re-arming, leaves the queues and the
promise chains alone. -/
theorem processQueue_dispatches (post : PostMessage) (s : QueueSystem)
    (hidle : s.state.isProcessingQueue = false)
    (hactive : s.state.activeRequests < s.state.config.maxConcurrentRequests) :
    ∃ m, Dispatched s m s.availableSlots ∧
      s.processQueue post = (afterLoops post s m).rearm ∧ SameQueues m (s.processQueue post) := by
  refine ⟨_, dispatched_drainQueues s s.availableSlots, processQueue_eq post hidle hactive, ?_⟩
  rw [processQueue_eq post hidle hactive]
  exact sameQueues_afterLoops post s _

/-- Two slots for a worker task of high priority, a task of normal and one of low priority. -/
def threeTasks : QueueSystem where
  state := {
    config := { concurrentTasks := 2 }
    highPriorityQueue := [{ id := 1, timestamp := 0, priority := 5, workloadType := some .cpu }]
    normalPriorityQueue := [{ id := 2, timestamp := 0, priority := 0 }]
    lowPriorityQueue := [{ id := 3, timestamp := 0, priority := -1 }] }
  pool := { useWorkers := true, router := .create 1 none none none }

theorem processQueue_dispatches_two : ∃ m, Dispatched threeTasks m 2 ∧
    m.state.lowPriorityQueue.map QueueTask.id = [3] ∧ m.state.activeRequests = 2 := by
  obtain ⟨m, hm, -, -⟩ := processQueue_dispatches (fun _ => none) threeTasks rfl (by decide)
  refine ⟨m, hm, ?_, ?_⟩
  · rw [hm.low]
    rfl
  · rw [hm.activeRequests]
    rfl

end QueueSystem

end BulkTraffic.Queue
