import BulkTraffic.Queue.PoolConserving
import BulkTraffic.Lib.Loops

/-!
# The loop that picks a task

`dequeueDispatchableTask` as the source runs it: an index goes through an array that is spliced on
the way. A round removes the task it is at and steps the index back, goes on to the next, or takes
the task and leaves the loop.

* `dequeueLoop_eq`: the loop is left, after no more rounds than there are pending tasks and one, and
  with what the recursion over the pending tasks gives. The invariant is that the rest of the tasks,
  scanned from here, completes what has been done to the ones before them.
* `picks`: which task is taken, which ones are removed, and what stays.
-/

namespace BulkTraffic.Queue.WorkerTaskRouterService

open BulkTraffic.Lib

/-! ### The rounds of the loop -/

/-- The loop before a round. -/
structure Dequeuing where
  router : WorkerTaskRouterService
  queue : List WorkerTaskData
  /-- The index. -/
  i : ℕ := 0
  calls : List Call := []

/-- A round of the loop: the test `i < queue.length`, the body, and `i++`. -/
def dequeueRound (s : Dequeuing) : Round Dequeuing Dequeued :=
  match s.queue[s.i]? with
  | none => .leave ⟨s.router, none, s.queue, s.calls⟩
  | some candidate =>
    match isDispatchableType (determineTaskType candidate) with
    | none =>
      -- `i--` in the body and `i++` of the loop: the next round is at the same index
      .next
        { router :=
            { s.router with
              droppedUnknownWorkloadCount := s.router.droppedUnknownWorkloadCount + 1 }
          queue := s.queue.eraseIdx s.i
          i := s.i
          calls := s.calls ++ [.reject candidate.task .unknownWorkload (.error unknownWorkloadMessage),
            .onTaskFailed candidate.task] }
    | some type =>
      if !s.router.canDispatchType type then .next { s with i := s.i + 1 }
      else
        .leave ⟨s.router, some ({ candidate with type := some type.toWorkloadType }, type),
          s.queue.eraseIdx s.i, s.calls⟩

/-- `dequeueDispatchableTask(queue, onTaskFailed)`, where the loop has so many rounds. -/
def dequeueLoop (r : WorkerTaskRouterService) (queue : List WorkerTaskData) (rounds : ℕ) :
    Option Dequeued :=
  if queue.length = 0 then some ⟨r, none, queue, []⟩
  else runLoop dequeueRound rounds { router := r, queue := queue }

/-! ### The loop and the recursion -/

/-- What has been done to the tasks before the index, completed by what is done to the rest. -/
def Dequeuing.complete (s : Dequeuing) : Dequeued :=
  let d := s.router.dequeueDispatchableTask (s.queue.drop s.i)
  { d with queue := s.queue.take s.i ++ d.queue, calls := s.calls ++ d.calls }

/-- The tasks from the index on, where there is one at it. -/
theorem drop_of_getElem? {q : List WorkerTaskData} {i : ℕ} {c : WorkerTaskData} (h : q[i]? = some c) :
    i < q.length ∧ q.drop i = c :: q.drop (i + 1) := by
  obtain ⟨hi, rfl⟩ := List.getElem?_eq_some_iff.mp h
  exact ⟨hi, List.drop_eq_getElem_cons hi⟩

/-- Splicing at the index keeps what is before it and what is behind it. -/
theorem take_drop_eraseIdx {q : List WorkerTaskData} {i : ℕ} (hi : i < q.length) :
    (q.eraseIdx i).take i = q.take i ∧ (q.eraseIdx i).drop i = q.drop (i + 1) := by
  have hlength : (q.take i).length = i := List.length_take_of_le hi.le
  rw [List.eraseIdx_eq_take_drop_succ]
  exact ⟨List.take_left' hlength, List.drop_left' hlength⟩

/-- A round that goes on changes nothing of what the loop amounts to, and has one task less
before it. -/
theorem dequeueRound_next {s t : Dequeuing} (h : dequeueRound s = .next t) :
    t.complete = s.complete ∧ t.queue.length - t.i < s.queue.length - s.i := by
  unfold dequeueRound at h
  split at h
  · cases h
  · rename_i c hc
    obtain ⟨hi, hdrop⟩ := drop_of_getElem? hc
    split at h
    · -- removed: the scan of the rest removes it first
      rename_i hnone
      cases h
      obtain ⟨htake, hrest⟩ := take_drop_eraseIdx hi
      constructor
      · simp only [Dequeuing.complete, hdrop, htake, hrest, dequeueDispatchableTask, hnone]
        simp
      · have := List.length_eraseIdx_of_lt hi
        simp only
        omega
    · rename_i type hsome
      split at h
      · -- passed over: the scan of the rest leaves it at the front
        rename_i hcan
        cases h
        constructor
        · simp only [Bool.not_eq_true', ← Bool.not_eq_true] at hcan
          simp [Dequeuing.complete, hdrop, dequeueDispatchableTask, hsome, hcan, List.take_add_one, hc]
        · simp only
          omega
      · cases h

/-- The round that leaves the loop does the rest. -/
theorem dequeueRound_leave {s : Dequeuing} {d : Dequeued} (h : dequeueRound s = .leave d) :
    d = s.complete := by
  unfold dequeueRound at h
  split at h
  · rename_i hnone
    cases h
    have hlength := List.getElem?_eq_none_iff.mp hnone
    simp [Dequeuing.complete, List.drop_of_length_le hlength, List.take_of_length_le hlength,
      dequeueDispatchableTask]
  · rename_i c hc
    obtain ⟨hi, hdrop⟩ := drop_of_getElem? hc
    split at h
    · cases h
    · rename_i type hsome
      split at h
      · cases h
      · rename_i hcan
        cases h
        simp only [Bool.not_eq_true', Bool.not_eq_false] at hcan
        simp [Dequeuing.complete, hdrop, dequeueDispatchableTask, hsome, hcan,
          List.eraseIdx_eq_take_drop_succ]

/-- **The loop computes the scan**, whatever the pending tasks and the activity. -/
theorem dequeueLoop_eq (r : WorkerTaskRouterService) {queue : List WorkerTaskData} {rounds : ℕ}
    (h : queue.length < rounds) :
    r.dequeueLoop queue rounds = some (r.dequeueDispatchableTask queue) := by
  rw [dequeueLoop]
  split
  · rename_i hempty
    rw [List.length_eq_zero_iff.mp hempty]
    rfl
  · have hstart : (Dequeuing.mk r queue 0 []).complete = r.dequeueDispatchableTask queue := rfl
    obtain ⟨d, hd, rfl⟩ := runLoop_of_variant
      (fun s : Dequeuing => s.complete = r.dequeueDispatchableTask queue)
      (fun s => s.queue.length - s.i)
      (fun s t hs hround => ⟨(dequeueRound_next hround).1.trans hs, (dequeueRound_next hround).2⟩)
      (fun s d hs hround => (dequeueRound_leave hround).trans hs) hstart h
    exact hd

/-! ### What is taken, what is removed and what stays -/

/-- The pending tasks are those before the one taken, the one taken, if any, with its type, and
those after it; `d` is what picking it leaves and returns. -/
structure Picks (r : WorkerTaskRouterService) (queue : List WorkerTaskData) (d : Dequeued)
    (before : List WorkerTaskData) (taken : Option (WorkerTaskData × DispatchableWorkloadType))
    (after : List WorkerTaskData) : Prop where
  parts : queue = before ++ (taken.map Prod.fst).toList ++ after
  /-- None before it is of a type that is dispatchable and below its limit. -/
  first : ∀ td ∈ before, ¬ r.Dispatchable td
  /-- The one taken is. -/
  ready : ∀ td type, taken = some (td, type) →
    dispatchableType td = some type ∧ r.activeByType type < r.limits type
  /-- None is taken only where none can be. -/
  none_left : taken = none → after = []
  /-- It is returned with its type set. -/
  picked : d.picked = taken.map fun p => (withType p.1 p.2, p.2)
  /-- The dispatchable ones before it, and those after it, stay in their order. -/
  queue_eq : d.queue = before.filter (fun td => (dispatchableType td).isSome) ++ after
  /-- The others before it are rejected and reported, each once and in their order. -/
  calls : d.calls = (before.filter fun td => (dispatchableType td).isNone).flatMap refusal
  /-- They are counted; the activity and the limits stay. -/
  router : d.router =
    { r with
      droppedUnknownWorkloadCount := r.droppedUnknownWorkloadCount +
        (before.filter fun td => (dispatchableType td).isNone).length }

variable (r : WorkerTaskRouterService)

/-- Every pick is one. -/
theorem exists_picks (queue : List WorkerTaskData) :
    ∃ before taken after, Picks r queue (r.dequeueDispatchableTask queue) before taken after := by
  have hparts := ClassQueue.passed_append dispatchableType r.canDispatchType queue
  have hfirst : ∀ td ∈ ClassQueue.passed dispatchableType r.canDispatchType queue,
      ¬ r.Dispatchable td := by
    intro td htd hready
    rw [← ready_iff_dispatchable, ClassQueue.not_ready_of_mem_passed _ _ htd] at hready
    cases hready
  rw [dequeueDispatchableTask_eq]
  cases h : ClassQueue.taken dispatchableType r.canDispatchType queue with
  | none =>
    have hall := ClassQueue.passed_of_taken_none _ _ h
    refine ⟨ClassQueue.passed dispatchableType r.canDispatchType queue, none,
      ClassQueue.unreached dispatchableType r.canDispatchType queue, ?_⟩
    rw [h] at hparts
    exact
      { parts := hparts.symm
        first := hfirst
        ready := fun td type htaken => by cases htaken
        none_left := fun _ => by rw [ClassQueue.unreached, hall, List.drop_of_length_le (by omega)]
        picked := rfl
        queue_eq := rfl
        calls := rfl
        router := rfl }
  | some c =>
    obtain ⟨type, htype, hlt⟩ := (r.ready_iff_dispatchable c).mp (ClassQueue.ready_of_taken _ _ h)
    have htype' : dispatchableType c = some type := htype
    refine ⟨ClassQueue.passed dispatchableType r.canDispatchType queue, some (c, type),
      ClassQueue.unreached dispatchableType r.canDispatchType queue, ?_⟩
    rw [h] at hparts
    exact
      { parts := hparts.symm
        first := hfirst
        ready := fun td type' htaken => by
          cases htaken
          exact ⟨htype, hlt⟩
        none_left := fun htaken => by cases htaken
        picked := by simp [htype']
        queue_eq := rfl
        calls := rfl
        router := rfl }

end BulkTraffic.Queue.WorkerTaskRouterService
