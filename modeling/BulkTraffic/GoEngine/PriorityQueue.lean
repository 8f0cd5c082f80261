import BulkTraffic.Lib.Heap
import Mathlib.Data.Int.Notation
import Mathlib.Data.List.Induction
import Mathlib.Data.List.Perm.Basic

/-!
# The priority queue of the Go engine

`PriorityQueue`: the tasks of a pool in a binary heap, the higher priority first. Each operation
holds the queue's mutex, so it is one step. Every `Enqueue` brings a task of its own, as the
engine's callers do, so a task's index is written by one place of the heap only.

* `lawful_heap`: `Len`, `Less`, `Swap`, `Push` and `Pop` are what `container/heap` needs, so that
  its loops keep the heap order.
* `contents_enqueue`, `contents_dequeue`: the tasks that go in are the tasks that come out.
* `dequeue_after`: after any sequence of operations the queue is in heap order, every task knows
  its position, and `Dequeue` takes out a task of the highest priority.
-/

namespace BulkTraffic.GoEngine

open BulkTraffic.Lib

/-- `Task`. -/
structure Task where
  id : String
  priority : ℤ := 0
  /-- The heap's own index. -/
  index : ℤ := 0
  deriving DecidableEq

/-- A task without the heap's own index. -/
def Task.content (t : Task) : Task := { t with index := 0 }

/-- `PriorityQueue`. -/
structure PriorityQueue where
  items : Array Task := #[]

namespace PriorityQueue

/-- Does the task at `i` come before the one at `j`? -/
def less (pq : PriorityQueue) (i j : ℕ) : Bool :=
  match pq.items[i]?, pq.items[j]? with
  | some a, some b => b.priority < a.priority
  | _, _ => false

/-- Write a position into the task there. -/
def setIndex (items : Array Task) (i : ℕ) : Array Task := items.modify i fun t => { t with index := i }

/-- Exchange two tasks. -/
def swap (pq : PriorityQueue) (i j : ℕ) : PriorityQueue :=
  { items := setIndex (setIndex (pq.items.swapIfInBounds i j) i) j }

/-- Append a task. -/
def push (pq : PriorityQueue) (item : Task) : PriorityQueue :=
  { items := pq.items.push { item with index := pq.items.size } }

/-- Take the last task off. -/
def pop (pq : PriorityQueue) : Option Task × PriorityQueue :=
  (pq.items.back?.map fun item => { item with index := -1 }, { items := pq.items.pop })

/-- The methods `container/heap` calls. -/
def heap : HeapInterface PriorityQueue Task where
  len pq := pq.items.size
  less := less
  swap := swap
  pushBack := push
  popBack := pop

/-- `Enqueue(..)`. -/
def enqueue (pq : PriorityQueue) (task : Task) : PriorityQueue := heap.push pq task

/-- `Dequeue()`. -/
def dequeue (pq : PriorityQueue) : Option Task × PriorityQueue :=
  if pq.items.size = 0 then (none, pq) else heap.pop pq

/-- `QueueLen()`. -/
def queueLen (pq : PriorityQueue) : ℕ := pq.items.size

theorem queueLen_swap (pq : PriorityQueue) (i j : ℕ) : (pq.swap i j).queueLen = pq.queueLen := by
  simp [queueLen, swap, setIndex]

@[simp] theorem queueLen_enqueue (pq : PriorityQueue) (task : Task) :
    (pq.enqueue task).queueLen = pq.queueLen + 1 := by
  refine HeapInterface.up_invariant (P := fun q : PriorityQueue => q.queueLen = pq.queueLen + 1) ?_ ?_ _
  · intro q i j hq
    exact (queueLen_swap q i j).trans hq
  · simp [heap, push, queueLen]

/-- What `heap.Pop` does before it takes the last task off keeps the number of tasks. -/
theorem queueLen_down (pq : PriorityQueue) (i n : ℕ) :
    (heap.down (heap.swap pq 0 n) i n).queueLen = pq.queueLen := by
  refine HeapInterface.down_invariant (P := fun q : PriorityQueue => q.queueLen = pq.queueLen) ?_ ?_ i n
  · intro q i j hq
    exact (queueLen_swap q i j).trans hq
  · exact queueLen_swap pq 0 n

theorem queueLen_dequeue (pq : PriorityQueue) : pq.dequeue.2.queueLen = pq.queueLen - 1 := by
  unfold dequeue
  split
  · rename_i hempty
    simp [queueLen, hempty]
  · change (Array.pop _).size = _
    rw [Array.size_pop]
    exact congrArg (· - 1) (queueLen_down pq 0 _)

/-- A task comes out exactly where there is one. -/
theorem isSome_dequeue (pq : PriorityQueue) : pq.dequeue.1.isSome = decide (0 < pq.queueLen) := by
  unfold dequeue
  split
  · rename_i hempty
    simp [queueLen, hempty]
  · rename_i hne
    have hpos : 0 < pq.queueLen := Nat.pos_of_ne_zero hne
    have hdown := queueLen_down pq 0 (heap.len pq - 1)
    rw [decide_eq_true hpos]
    change (Option.map _ (Array.back? _)).isSome = true
    rw [Option.isSome_map, Array.back?, isSome_getElem?]
    simp only [queueLen] at hdown hpos
    rw [hdown]
    exact Nat.sub_one_lt_of_lt hpos

/-! ### Positions -/

/-- The priority of the task at a position. -/
def priorityAt (pq : PriorityQueue) (i : ℕ) : Option ℤ := pq.items[i]?.map Task.priority

theorem less_iff {pq : PriorityQueue} {i j : ℕ} : pq.less i j = true ↔
    ∃ p q, pq.priorityAt i = some p ∧ pq.priorityAt j = some q ∧ q < p := by
  rw [less, priorityAt, priorityAt]
  cases pq.items[i]? <;> cases pq.items[j]? <;> simp

theorem less_congr {pq pq' : PriorityQueue} {i j i' j' : ℕ}
    (hi : pq.priorityAt i = pq'.priorityAt i') (hj : pq.priorityAt j = pq'.priorityAt j') :
    pq.less i j = pq'.less i' j' := by
  rw [Bool.eq_iff_iff, less_iff, less_iff, hi, hj]

theorem isSome_priorityAt {pq : PriorityQueue} {i : ℕ} (hi : i < pq.items.size) :
    ∃ p, pq.priorityAt i = some p :=
  ⟨_, by rw [priorityAt, Array.getElem?_eq_getElem hi, Option.map_some]⟩

theorem getElem?_swap_of_ne (pq : PriorityQueue) {i j k : ℕ} (hki : k ≠ i) (hkj : k ≠ j) :
    (pq.swap i j).items[k]? = pq.items[k]? := by
  have hexchange : (pq.items.swapIfInBounds i j)[k]? = pq.items[k]? := by
    rw [Array.swapIfInBounds_def]
    split
    · split
      · rw [Array.getElem?_swap, if_neg (Ne.symm hkj), if_neg (Ne.symm hki)]
      · rfl
    · rfl
  rw [swap, setIndex, setIndex, Array.getElem?_modify, if_neg (Ne.symm hkj), Array.getElem?_modify,
    if_neg (Ne.symm hki), hexchange]

/-- An exchange writes the two positions into the tasks. -/
theorem getElem?_swap {pq : PriorityQueue} {i j : ℕ} (hi : i < pq.items.size)
    (hj : j < pq.items.size) (k : ℕ) :
    (pq.swap i j).items[k]? = pq.items[Equiv.swap i j k]?.map fun t =>
      { t with index := if k = i ∨ k = j then (k : ℤ) else t.index } := by
  have hexchange : (pq.items.swapIfInBounds i j)[k]? = pq.items[Equiv.swap i j k]? := by
    rw [Array.swapIfInBounds_def, dif_pos hi, dif_pos hj, Array.getElem?_swap, Equiv.swap_apply_def]
    split
    · rename_i hkj
      subst hkj
      split
      · rename_i hki
        rw [Array.getElem?_eq_getElem hj]
        simp only [hki]
      · rw [if_pos rfl, Array.getElem?_eq_getElem hi]
    · rename_i hkj
      split
      · rename_i hki
        rw [if_pos hki.symm, Array.getElem?_eq_getElem hj]
      · rename_i hki
        rw [if_neg (Ne.symm hki), if_neg (Ne.symm hkj)]
  rw [swap, setIndex, setIndex, Array.getElem?_modify, Array.getElem?_modify, hexchange]
  by_cases hki : i = k <;> by_cases hkj : j = k <;> simp [hki, hkj, Function.comp_def, eq_comm]

theorem priorityAt_swap {pq : PriorityQueue} {i j : ℕ} (hi : i < pq.items.size)
    (hj : j < pq.items.size) (k : ℕ) :
    (pq.swap i j).priorityAt k = pq.priorityAt (Equiv.swap i j k) := by
  rw [priorityAt, getElem?_swap hi hj, Option.map_map]
  rfl

/-- **What `container/heap` needs of its interface.** -/
theorem lawful_heap : heap.Lawful where
  less_asymm := by
    intro pq i j hless
    obtain ⟨p, q, hp, hq, hlt⟩ := less_iff.mp hless
    rw [← Bool.not_eq_true]
    intro hback
    obtain ⟨q', p', hq', hp', hlt'⟩ := less_iff.mp hback
    rw [hp, Option.some.injEq] at hp'
    rw [hq, Option.some.injEq] at hq'
    omega
  not_less_trans := by
    intro pq i j k hj hij hjk
    obtain ⟨q, hq⟩ := isSome_priorityAt hj
    rw [← Bool.not_eq_true] at hij hjk ⊢
    intro hless
    obtain ⟨p, r, hp, hr, hlt⟩ := less_iff.mp hless
    by_cases hqp : q < p
    · exact hij (less_iff.mpr ⟨p, q, hp, hq, hqp⟩)
    · exact hjk (less_iff.mpr ⟨q, r, hq, hr, by omega⟩)
  len_swap := queueLen_swap
  less_swap := by
    intro pq i j hi hj a b
    change (pq.swap i j).less a b = pq.less _ _
    exact less_congr (priorityAt_swap hi hj a) (priorityAt_swap hi hj b)
  len_pushBack := fun pq task => by simp [heap, push]
  less_pushBack := by
    intro pq task i j hi hj
    have hkeep : ∀ k < pq.items.size, (pq.push task).priorityAt k = pq.priorityAt k := by
      intro k hk
      rw [priorityAt, push, Array.getElem?_push_lt hk, priorityAt, Array.getElem?_eq_getElem hk]
    exact less_congr (hkeep i hi) (hkeep j hj)
  len_popBack := fun pq => by simp [heap, pop]
  less_popBack := by
    intro pq i j hi hj
    have hkeep : ∀ k < pq.items.size - 1, pq.pop.2.priorityAt k = pq.priorityAt k := by
      intro k hk
      rw [priorityAt, pop, Array.getElem?_pop, if_pos hk, priorityAt]
    exact less_congr (hkeep i hi) (hkeep j hj)

/-! ### The queued tasks -/

/-- The queued tasks, in the order of their positions. -/
def contents (pq : PriorityQueue) : List Task := pq.items.toList.map Task.content

theorem contents_swap (pq : PriorityQueue) (i j : ℕ) : (pq.swap i j).contents.Perm pq.contents := by
  have hindex : ∀ (items : Array Task) (k : ℕ),
      (setIndex items k).toList.map Task.content = items.toList.map Task.content := by
    intro items k
    rw [setIndex, Array.toList_modify]
    apply List.ext_getElem?
    intro m
    rw [List.getElem?_map, List.getElem?_map, List.getElem?_modify, Option.map_eq_map, Option.map_map]
    congr 1
    funext t
    simp only [Function.comp_apply]
    split <;> rfl
  have hexchange : (pq.items.swapIfInBounds i j).toList.Perm pq.items.toList := by
    rw [Array.swapIfInBounds_def]
    split
    · split
      · exact (Array.swap_perm _ _).toList
      · exact .refl _
    · exact .refl _
  rw [contents, swap, hindex, hindex]
  exact hexchange.map _

/-- A queued task is in the heap. -/
theorem contents_enqueue (pq : PriorityQueue) (task : Task) :
    (pq.enqueue task).contents.Perm (task.content :: pq.contents) := by
  apply HeapInterface.up_invariant (P := fun q : PriorityQueue =>
    q.contents.Perm (task.content :: pq.contents))
  · intro q i j hq
    exact (contents_swap q i j).trans hq
  · have hpush : (pq.push task).contents = pq.contents ++ [task.content] := by
      simp [contents, push, Task.content]
    change (pq.push task).contents.Perm _
    rw [hpush]
    exact List.perm_append_singleton _ _

/-- The task that comes out was in the heap, and the others still are. -/
theorem contents_dequeue (pq : PriorityQueue) :
    (pq.dequeue.1.toList.map Task.content ++ pq.dequeue.2.contents).Perm pq.contents := by
  rw [dequeue]
  split
  · exact .refl _
  · have hdown : (heap.down (heap.swap pq 0 (heap.len pq - 1)) 0 (heap.len pq - 1)).contents.Perm
        pq.contents := by
      apply HeapInterface.down_invariant (P := fun q : PriorityQueue => q.contents.Perm pq.contents)
      · intro q i j hq
        exact (contents_swap q i j).trans hq
      · exact contents_swap pq 0 _
    refine List.Perm.trans ?_ hdown
    change ((pop _).1.toList.map Task.content ++ (pop _).2.contents).Perm _
    generalize heap.down (heap.swap pq 0 (heap.len pq - 1)) 0 (heap.len pq - 1) = q
    rw [pop, contents, contents, Array.toList_pop, ← Array.getLast?_toList]
    rcases List.eq_nil_or_concat q.items.toList with hnil | ⟨l, t, hl⟩
    · rw [hnil]
      exact .refl _
    · have hcontent : Task.content { t with index := -1 } = t.content := rfl
      simpa [hl, hcontent] using (List.perm_append_singleton t.content (l.map Task.content)).symm

/-- Every queued task knows its position. -/
def Indexed (pq : PriorityQueue) : Prop := ∀ (i : ℕ) (t : Task), pq.items[i]? = some t → t.index = i

theorem indexed_swap {pq : PriorityQueue} (hpq : pq.Indexed) (i j : ℕ) : (pq.swap i j).Indexed := by
  intro k t hk
  by_cases hkj : k = j
  · subst hkj
    rw [swap, setIndex, Array.getElem?_modify, if_pos rfl] at hk
    obtain ⟨_, _, rfl⟩ := Option.map_eq_some_iff.mp hk
    rfl
  · by_cases hki : k = i
    · subst hki
      rw [swap, setIndex, setIndex, Array.getElem?_modify, if_neg (Ne.symm hkj),
        Array.getElem?_modify, if_pos rfl] at hk
      obtain ⟨_, _, rfl⟩ := Option.map_eq_some_iff.mp hk
      rfl
    · rw [getElem?_swap_of_ne pq hki hkj] at hk
      exact hpq k t hk

theorem indexed_enqueue {pq : PriorityQueue} (hpq : pq.Indexed) (task : Task) :
    (pq.enqueue task).Indexed := by
  rw [enqueue, HeapInterface.push]
  apply HeapInterface.up_invariant
  · intro q i j hq
    exact indexed_swap hq i j
  intro k t hk
  change (pq.items.push _)[k]? = some t at hk
  rw [Array.getElem?_push] at hk
  split at hk
  · rename_i hend
    obtain rfl := Option.some.inj hk
    rw [hend]
  · exact hpq k t hk

theorem indexed_dequeue {pq : PriorityQueue} (hpq : pq.Indexed) : pq.dequeue.2.Indexed := by
  rw [dequeue]
  split
  · exact hpq
  · have hdown : (heap.down (heap.swap pq 0 (heap.len pq - 1)) 0 (heap.len pq - 1)).Indexed := by
      apply HeapInterface.down_invariant
      · intro q i j hq
        exact indexed_swap hq i j
      · exact indexed_swap hpq 0 _
    intro k t hk
    change (Array.pop _)[k]? = some t at hk
    rw [Array.getElem?_pop] at hk
    split at hk
    · exact hdown k t hk
    · cases hk

/-! ### The task that comes out -/

/-- `Dequeue` returns the task at the first position. -/
theorem dequeue_first {pq : PriorityQueue} {first : Task} (hfirst : pq.items[0]? = some first) :
    pq.dequeue.1 = some { first with index := -1 } := by
  have hpos : 0 < pq.items.size := (Array.getElem?_eq_some_iff.mp hfirst).1
  have hsize := queueLen_down pq 0 (heap.len pq - 1)
  -- The exchange puts it at the end, where `down` does not reach.
  have hlast : ((heap.down (heap.swap pq 0 (heap.len pq - 1)) 0
      (heap.len pq - 1)).items[heap.len pq - 1]?).map Task.content = some first.content := by
    apply HeapInterface.down_invariant_of_lt (P := fun q : PriorityQueue =>
      (q.items[heap.len pq - 1]?).map Task.content = some first.content)
    · intro q i j hi hj hq
      change ((q.swap i j).items[_]?).map _ = _
      rw [getElem?_swap_of_ne q (by omega) (by omega)]
      exact hq
    · change ((pq.swap _ _).items[pq.items.size - 1]?).map _ = _
      rw [getElem?_swap hpos (by change pq.items.size - 1 < _; omega)]
      change (Option.map _ pq.items[Equiv.swap 0 (pq.items.size - 1) (pq.items.size - 1)]?).map _ = _
      rw [Equiv.swap_apply_right, hfirst]
      rfl
  rw [dequeue, if_neg (by omega)]
  change (pop (heap.down (heap.swap pq 0 (heap.len pq - 1)) 0 (heap.len pq - 1))).1 = _
  generalize heap.down (heap.swap pq 0 (heap.len pq - 1)) 0 (heap.len pq - 1) = q at hlast hsize
  obtain ⟨last, hget, hcontent⟩ := Option.map_eq_some_iff.mp hlast
  rw [pop, Array.back?, show q.items.size = pq.items.size from hsize,
    show q.items[pq.items.size - 1]? = some last from hget, Option.map_some]
  rw [Task.content, Task.content, Task.mk.injEq] at hcontent
  obtain ⟨hid, hpriority, -⟩ := hcontent
  rw [hid, hpriority]

theorem dequeue_eq_none {pq : PriorityQueue} : pq.dequeue.1 = none ↔ pq.queueLen = 0 := by
  have hsome := isSome_dequeue pq
  rw [← Option.not_isSome_iff_eq_none, hsome, decide_eq_true_eq, Nat.not_lt, Nat.le_zero]

/-- In heap order, the task that comes out has the highest priority. -/
theorem dequeue_highest {pq : PriorityQueue} (ho : heap.Ordered pq) {task other : Task}
    (htask : pq.dequeue.1 = some task) (hother : other ∈ pq.items) :
    other.priority ≤ task.priority := by
  obtain ⟨k, hk⟩ := Array.mem_iff_getElem?.mp hother
  have hlt : k < pq.items.size := (Array.getElem?_eq_some_iff.mp hk).1
  obtain ⟨first, hfirst⟩ : ∃ first, pq.items[0]? = some first :=
    ⟨_, Array.getElem?_eq_getElem (by omega)⟩
  rw [dequeue_first hfirst] at htask
  obtain rfl := Option.some.inj htask
  have hroot : pq.less k 0 = false := lawful_heap.root_first ho k hlt
  rw [less, hk, hfirst] at hroot
  simpa using hroot

theorem ordered_enqueue {pq : PriorityQueue} (ho : heap.Ordered pq) (task : Task) :
    heap.Ordered (pq.enqueue task) :=
  lawful_heap.ordered_push ho task

theorem ordered_dequeue {pq : PriorityQueue} (ho : heap.Ordered pq) :
    heap.Ordered pq.dequeue.2 := by
  rw [dequeue]
  split
  · exact ho
  · exact lawful_heap.ordered_pop ho

end PriorityQueue

/-! ### Sequences of operations -/

/-- A call of the queue. -/
inductive QueueOperation where
  | enqueue (task : Task)
  | dequeue

/-- A queue, and what has gone into it and come out since `NewPriorityQueue`. -/
structure QueueHistory where
  queue : PriorityQueue := {}
  enqueued : List Task := []
  dequeued : List Task := []

namespace QueueHistory

/-- One call. -/
def apply (s : QueueHistory) : QueueOperation → QueueHistory
  | .enqueue task => { s with queue := s.queue.enqueue task, enqueued := s.enqueued ++ [task] }
  | .dequeue =>
    { s with queue := s.queue.dequeue.2, dequeued := s.dequeued ++ s.queue.dequeue.1.toList }

/-- A sequence of calls, from a new queue. -/
def after (operations : List QueueOperation) : QueueHistory := operations.foldl apply {}

/-- What every call keeps. -/
structure Correct (s : QueueHistory) : Prop where
  /-- No task has a higher priority than its parent. -/
  ordered : PriorityQueue.heap.Ordered s.queue
  /-- Every queued task's index is its position. -/
  indexed : s.queue.Indexed
  /-- The tasks that came out and the queued ones are those that went in. -/
  conserved : (s.dequeued.map Task.content ++ s.queue.contents).Perm (s.enqueued.map Task.content)

theorem correct_apply {s : QueueHistory} (h : s.Correct) (operation : QueueOperation) :
    (s.apply operation).Correct := by
  cases operation with
  | enqueue task =>
    constructor
    · exact PriorityQueue.ordered_enqueue h.ordered task
    · exact PriorityQueue.indexed_enqueue h.indexed task
    · have hqueue := (PriorityQueue.contents_enqueue s.queue task).append_left
        (s.dequeued.map Task.content)
      rw [apply, List.map_append]
      refine hqueue.trans (List.perm_middle.trans ?_)
      exact (h.conserved.cons _).trans (List.perm_append_singleton _ _).symm
  | dequeue =>
    constructor
    · exact PriorityQueue.ordered_dequeue h.ordered
    · exact PriorityQueue.indexed_dequeue h.indexed
    · have hqueue := (PriorityQueue.contents_dequeue s.queue).append_left
        (s.dequeued.map Task.content)
      rw [apply, List.map_append, List.append_assoc]
      exact hqueue.trans h.conserved

theorem correct_after (operations : List QueueOperation) : (after operations).Correct := by
  induction operations using List.reverseRecOn with
  | nil =>
    constructor
    · intro k hk
      exact absurd hk (Nat.not_lt_zero k)
    · intro k t hk
      cases hk
    · exact .refl _
  | append_singleton operations operation ih =>
    rw [after, List.foldl_concat]
    exact correct_apply ih operation

/-- **The priority queue is a priority queue**: after any calls of `Enqueue` and `Dequeue` it is
in heap order, its tasks know their positions, and they are the tasks that went in but for those
that came out; the next `Dequeue` returns `nil` exactly if there is no task, and else takes out
one of the highest priority. -/
theorem dequeue_after (operations : List QueueOperation) :
    (after operations).Correct ∧
    ((after operations).queue.dequeue.1 = none ↔ (after operations).queue.items.size = 0) ∧
    ∀ task, (after operations).queue.dequeue.1 = some task →
      (∀ other ∈ (after operations).queue.items, other.priority ≤ task.priority) ∧
      (task.content :: (after operations).queue.dequeue.2.contents).Perm
        (after operations).queue.contents := by
  have hcorrect := correct_after operations
  refine ⟨hcorrect, PriorityQueue.dequeue_eq_none, ?_⟩
  intro task htask
  constructor
  · intro other hother
    exact PriorityQueue.dequeue_highest hcorrect.ordered htask hother
  · have hcontents := PriorityQueue.contents_dequeue (after operations).queue
    rw [htask] at hcontents
    exact hcontents

end QueueHistory

end BulkTraffic.GoEngine
