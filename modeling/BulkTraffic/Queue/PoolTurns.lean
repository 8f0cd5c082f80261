import BulkTraffic.Queue.PoolSlots

/-!
# The turns of a pass

A pass offers the idle workers the pending tasks, one turn each, slot by slot. What each of them
gets can be told from the pending tasks as they are before the pass. A task is `due` where its type
has a place left when the earlier tasks of the type whose messages can be posted have taken theirs;
the turns take the tasks that are due, front first, and a turn is over when the message of its task
cannot be posted.

* `givesTaskTo_eq`: the worker with `k` idle ones in the slots before it gets task `k` of those that
  are due.
* `due_processSlots`, `idle_left_iff`: which tasks are still due after a pass, and when it leaves one
  of its workers idle.
* `strandsTask_eq`: a failure's report gives the failed worker another task exactly where
  `strandsTask` holds of the state before it.
-/

namespace BulkTraffic.Queue

open BulkTraffic.Lib BulkTraffic.Js

namespace WorkerTaskRouterService

variable (r : WorkerTaskRouterService)

/-- How many more tasks of the type may be at workers. -/
def places (type : DispatchableWorkloadType) : ℕ := r.limits type - r.activeByType type

theorem hasPlace_places : ClassQueue.hasPlace r.places = r.canDispatchType := by
  funext type
  rw [ClassQueue.hasPlace, canDispatchType, decide_eq_decide, places]
  omega

theorem places_incrementActiveByType (type : DispatchableWorkloadType) :
    (r.incrementActiveByType type).places = Function.update r.places type (r.places type - 1) := by
  funext t
  rcases eq_or_ne t type with rfl | hne
  · simp [places, incrementActiveByType, Nat.sub_add_eq]
  · simp [places, incrementActiveByType, hne]

end WorkerTaskRouterService

/-- The message of the task can be posted. -/
def postable (post : PostMessage) (taskData : WorkerTaskData) : Bool :=
  (dispatchableType taskData).any fun type =>
    (post (WorkerTaskRouterService.withType taskData type)).isNone

namespace WorkerPoolService

/-- The slot has a live worker that is idle. -/
def idle (s : WorkerPoolService) (i : ℕ) : Bool := (s.worker i).isSome && !s.busy i

/-- The slots with an idle worker, in the order of a pass. -/
def idleSlots (s : WorkerPoolService) : List ℕ :=
  (List.range s.workerPool.length).filter s.idle

/-- The pending tasks that are due, front first. -/
def due (post : PostMessage) (s : WorkerPoolService) : List WorkerTaskData :=
  ClassQueue.due dispatchableType (postable post) s.router.places s.workerTaskQueue

/-- The pending tasks of an unknown type that come up in `turns` turns: fewer tasks are due before
them. -/
def strays (post : PostMessage) (turns : ℕ) (s : WorkerPoolService) : List WorkerTaskData :=
  ClassQueue.strays dispatchableType (postable post) s.router.places turns s.workerTaskQueue

variable {post : PostMessage} {s : WorkerPoolService}

theorem due_of_empty (h : s.workerTaskQueue = []) : s.due post = [] := by
  rw [due, h]
  rfl

theorem strays_of_empty (h : s.workerTaskQueue = []) (turns : ℕ) : s.strays post turns = [] := by
  rw [strays, h]
  rfl

/-! ### One turn -/

/-- The task the next turn takes. -/
def next (s : WorkerPoolService) : Option WorkerTaskData :=
  ClassQueue.taken dispatchableType s.router.canDispatchType s.workerTaskQueue

theorem picked_eq (s : WorkerPoolService) :
    s.dequeued.picked = s.next.bind fun c => (dispatchableType c).map fun type =>
      (WorkerTaskRouterService.withType c type, type) := by
  rw [dequeued, WorkerTaskRouterService.dequeueDispatchableTask_eq]
  rfl

theorem queue_afterDequeue (s : WorkerPoolService) : s.afterDequeue.workerTaskQueue =
    ClassQueue.left dispatchableType s.router.canDispatchType s.workerTaskQueue := by
  rw [afterDequeue, dequeued, WorkerTaskRouterService.dequeueDispatchableTask_eq]

theorem places_afterDequeue (s : WorkerPoolService) : s.afterDequeue.router.places = s.router.places := by
  obtain ⟨hactive, hlimits⟩ := s.router.dequeue_router s.workerTaskQueue
  funext type
  simp only [WorkerTaskRouterService.places, afterDequeue, dequeued, hactive, hlimits]

/-- A turn: the task taken has left the queue, and it keeps a place where its message is posted. -/
theorem dispatchTo_turn (post : PostMessage) (s : WorkerPoolService) (i : ℕ) :
    (s.dispatchTo post i).1.workerTaskQueue =
        ClassQueue.left dispatchableType s.router.canDispatchType s.workerTaskQueue ∧
      (s.dispatchTo post i).1.router.places =
        ClassQueue.rest dispatchableType (postable post) s.router.places s.next.toList ∧
      s.takesTask post = s.next.any (postable post) := by
  have hpicked := s.picked_eq
  have hqueue := s.queue_afterDequeue
  have hplaces := s.places_afterDequeue
  -- a task that is taken has a type
  have htyped : ∀ c, s.next = some c → ∃ type, dispatchableType c = some type ∧
      s.dequeued.picked = some (WorkerTaskRouterService.withType c type, type) := by
    intro c hc
    obtain ⟨type, htype, -⟩ := ClassQueue.ready_iff.mp (ClassQueue.ready_of_taken _ _ hc)
    exact ⟨type, htype, by rw [hpicked, hc, Option.bind_some, htype, Option.map_some]⟩
  cases hnext : s.next with
  | none =>
    have hnone : s.dequeued.picked = none := by rw [hpicked, hnext]; rfl
    obtain ⟨-, hd⟩ | ⟨td, type, hp, -, -⟩ | ⟨td, type, thrown, hp, -, -⟩ := dispatchTo_cases post s i
    · rw [hd, takesTask, hnone]
      exact ⟨hqueue, hplaces, rfl⟩
    · rw [hnone] at hp
      cases hp
    · rw [hnone] at hp
      cases hp
  | some c =>
    obtain ⟨type, htype, hsome⟩ := htyped c hnext
    obtain ⟨hp, -⟩ | ⟨td, type', hp, hpost, hd⟩ | ⟨td, type', thrown, hp, hpost, hd⟩ :=
      dispatchTo_cases post s i
    · rw [hsome] at hp
      cases hp
    · obtain ⟨rfl, rfl⟩ := Prod.mk.inj (Option.some.inj (hsome.symm.trans hp))
      have hkeeps : postable post c = true := by simp [postable, htype, hpost]
      rw [hd, takesTask, hsome]
      refine ⟨by rw [← hqueue]; simp, ?_, by simp [hkeeps, hpost]⟩
      rw [Option.toList_some, ClassQueue.rest_of_class htype hkeeps, assignTo_router,
        WorkerTaskRouterService.places_incrementActiveByType, hplaces]
    · obtain ⟨rfl, rfl⟩ := Prod.mk.inj (Option.some.inj (hsome.symm.trans hp))
      have hkeeps : postable post c = false := by simp [postable, htype, hpost]
      rw [hd, takesTask, hsome]
      refine ⟨by rw [← hqueue]; simp, ?_, by simp [hkeeps, hpost]⟩
      rw [Option.toList_some, ClassQueue.rest_of_not_keeps hkeeps, unassign_router, hplaces]

/-- The turn takes the first task that is due. -/
theorem due_eq (post : PostMessage) (s : WorkerPoolService) (i : ℕ) :
    s.due post = s.next.toList ++ (s.dispatchTo post i).1.due post := by
  obtain ⟨hqueue, hplaces, -⟩ := dispatchTo_turn post s i
  rw [due, due, hqueue, hplaces, ClassQueue.due_eq, WorkerTaskRouterService.hasPlace_places]
  rfl

theorem due_head (post : PostMessage) (s : WorkerPoolService) : (s.due post).head? = s.next := by
  have heq := due_eq post s 0
  cases hnext : s.next with
  | none =>
    have hnil : s.due post = [] := by
      rw [due, ClassQueue.due_eq_nil_iff, WorkerTaskRouterService.hasPlace_places]
      exact hnext
    rw [hnil]
    rfl
  | some c =>
    rw [heq, hnext]
    rfl

theorem due_dispatchTo (i : ℕ) : (s.dispatchTo post i).1.due post = (s.due post).tail := by
  have heq := due_eq post s i
  have hhead := due_head post s
  cases hnext : s.next with
  | none =>
    rw [hnext, List.head?_eq_none_iff] at hhead
    rw [hhead, hnext] at heq
    rw [hhead]
    exact heq.symm
  | some c =>
    rw [heq, hnext]
    rfl

theorem takesTask_eq : s.takesTask post = (s.due post)[0]?.any (postable post) := by
  rw [(dispatchTo_turn post s 0).2.2, ← due_head post s, List.head?_eq_getElem?]

theorem strays_dispatchTo (n i : ℕ) : s.strays post (n + 1) =
    ClassQueue.dropped dispatchableType s.router.canDispatchType s.workerTaskQueue ++
      (s.dispatchTo post i).1.strays post n := by
  obtain ⟨hqueue, hplaces, -⟩ := dispatchTo_turn post s i
  rw [strays, strays, hqueue, hplaces, ClassQueue.strays_succ, WorkerTaskRouterService.hasPlace_places]
  rfl

/-! ### The turns of a pass -/

theorem not_idle_of_skip {i : ℕ} : ((s.worker i).isNone || s.busy i) = !s.idle i := by
  unfold idle
  cases s.worker i <;> cases s.busy i <;> rfl

theorem lt_length_of_worker {i : ℕ} (h : (s.worker i).isSome = true) : i < s.workerPool.length := by
  by_contra hle
  rw [worker, JsArray.read, List.getD_eq_getElem?_getD,
    List.getElem?_eq_none (Nat.le_of_not_lt hle)] at h
  cases h

theorem lt_length_of_idle {i : ℕ} (h : s.idle i = true) : i < s.workerPool.length :=
  lt_length_of_worker (Bool.and_eq_true_iff.mp h).1

/-- Dispatching to a slot leaves the other slots as idle as they were. -/
theorem idle_dispatchTo {i j : ℕ} (h : i ≠ j) : (s.dispatchTo post i).1.idle j = s.idle j := by
  have hsame := dispatchTo_same post s h
  rw [idle, hsame.worker, hsame.busy, idle]

theorem filter_idle_dispatchTo {i : ℕ} {is : List ℕ} (h : i ∉ is) :
    is.filter (s.dispatchTo post i).1.idle = is.filter s.idle := by
  refine List.filter_congr fun j hj => idle_dispatchTo ?_
  rintro rfl
  exact h hj

/-- An idle slot is idle after its turn where it gets no task. -/
theorem idle_dispatchTo_self {i : ℕ} (h : s.idle i = true) :
    (s.dispatchTo post i).1.idle i = !s.takesTask post := by
  have hlive : (s.worker i).isSome = true := (Bool.and_eq_true_iff.mp h).1
  obtain ⟨hp, hd⟩ | ⟨td, type, hp, hpost, hd⟩ | ⟨td, type, thrown, hp, hpost, hd⟩ :=
    dispatchTo_cases post s i
  · rw [hd, takesTask, hp]
    exact h
  · simp [hd, takesTask, hp, hpost, idle]
  · simp [hd, takesTask, hp, hpost, idle, hlive]

/-- A pass leaves the slots it does not visit as they are. -/
theorem idle_processSlots {i : ℕ} {is : List ℕ} (h : i ∉ is) :
    (processSlots post is s).1.idle i = s.idle i := by
  induction is generalizing s with
  | nil => rfl
  | cons j is ih =>
    simp only [List.mem_cons, not_or] at h
    simp only [processSlots]
    split
    · exact ih h.2
    · split
      · rfl
      · exact (ih h.2).trans (idle_dispatchTo (Ne.symm h.1))

/-- What is due after a pass over the slots `is`: each idle one of them has had a turn. -/
theorem due_processSlots {is : List ℕ} (hnodup : is.Nodup) (s : WorkerPoolService) :
    (processSlots post is s).1.due post = (s.due post).drop (is.filter s.idle).length := by
  induction is generalizing s with
  | nil => rfl
  | cons i is ih =>
    obtain ⟨hi, hnodup⟩ := List.nodup_cons.mp hnodup
    simp only [processSlots, not_idle_of_skip]
    by_cases hidle : s.idle i = true
    · simp only [hidle, Bool.not_true, Bool.false_eq_true, if_false, List.filter_cons_of_pos]
      split
      · rename_i hempty
        rw [due_of_empty (by simpa using hempty), List.drop_nil]
      · dsimp only
        rw [ih hnodup, due_dispatchTo, filter_idle_dispatchTo hi, List.drop_tail, List.length_cons]
    · simp only [hidle, Bool.not_false, if_true, Bool.false_eq_true, not_false_eq_true,
        List.filter_cons_of_neg, ih hnodup]

/-- A pass leaves one of its slots idle where a turn finds no task, or one that cannot be posted. -/
theorem idle_left_iff {is : List ℕ} (hnodup : is.Nodup) (s : WorkerPoolService) :
    (∃ j ∈ is, (processSlots post is s).1.idle j = true) ↔
      ∃ n < (is.filter s.idle).length, (s.due post)[n]?.any (postable post) = false := by
  induction is generalizing s with
  | nil => simp
  | cons i is ih =>
    obtain ⟨hi, hnodup⟩ := List.nodup_cons.mp hnodup
    simp only [processSlots, not_idle_of_skip]
    by_cases hidle : s.idle i = true
    · simp only [hidle, Bool.not_true, Bool.false_eq_true, if_false, List.filter_cons_of_pos]
      split
      · rename_i hempty
        rw [due_of_empty (by simpa using hempty)]
        exact ⟨fun _ => ⟨0, Nat.succ_pos _, rfl⟩, fun _ => ⟨i, List.mem_cons_self, hidle⟩⟩
      · dsimp only
        have hrest := ih hnodup (s.dispatchTo post i).1
        rw [filter_idle_dispatchTo hi, due_dispatchTo] at hrest
        rw [List.exists_mem_cons_iff, idle_processSlots hi, idle_dispatchTo_self hidle, hrest,
          takesTask_eq, List.length_cons, Nat.exists_lt_succ_left]
        simp only [List.getElem?_tail, Bool.not_eq_true']
    · simp only [hidle, Bool.not_false, if_true, Bool.false_eq_true, not_false_eq_true,
        List.filter_cons_of_neg]
      rw [List.exists_mem_cons_iff, idle_processSlots hi, ih hnodup s]
      simp only [hidle, Bool.false_eq_true, false_or]

theorem givesTaskTo_of_not_mem {i : ℕ} {is : List ℕ} (h : i ∉ is) (s : WorkerPoolService) :
    givesTaskTo post i is s = false := by
  induction is generalizing s with
  | nil => rfl
  | cons j is ih =>
    simp only [List.mem_cons, not_or] at h
    simp only [givesTaskTo]
    split
    · exact ih h.2 s
    · split
      · rfl
      · rw [ih h.2, decide_eq_false (Ne.symm h.1)]
        rfl

/-- **What a turn gives**: the worker of slot `i` gets the task that is due when the idle ones of the
slots before it have had their turns. -/
theorem givesTaskTo_eq (post : PostMessage) {i : ℕ} {before behind : List ℕ}
    (hnodup : (before ++ i :: behind).Nodup) (hidle : s.idle i = true) :
    givesTaskTo post i (before ++ i :: behind) s =
      (s.due post)[(before.filter s.idle).length]?.any (postable post) := by
  induction before generalizing s with
  | nil =>
    obtain ⟨hi, -⟩ := List.nodup_cons.mp hnodup
    simp only [List.nil_append, givesTaskTo, not_idle_of_skip, hidle, Bool.not_true,
      Bool.false_eq_true, if_false, List.filter_nil, List.length_nil]
    split
    · rename_i hempty
      rw [due_of_empty (by simpa using hempty)]
      rfl
    · rw [givesTaskTo_of_not_mem hi, takesTask_eq]
      simp
  | cons j before ih =>
    rw [List.cons_append] at hnodup
    obtain ⟨hfirst, hnodup⟩ := List.nodup_cons.mp hnodup
    obtain ⟨hj, hji⟩ : j ∉ before ∧ j ≠ i := by
      simp only [List.mem_append, List.mem_cons, not_or] at hfirst
      exact ⟨hfirst.1, hfirst.2.1⟩
    simp only [List.cons_append, givesTaskTo, not_idle_of_skip]
    by_cases hjidle : s.idle j = true
    · simp only [hjidle, Bool.not_true, Bool.false_eq_true, if_false, List.filter_cons_of_pos]
      split
      · rename_i hempty
        rw [due_of_empty (by simpa using hempty)]
        rfl
      · rw [ih hnodup (by rw [idle_dispatchTo hji, hidle]), due_dispatchTo,
          filter_idle_dispatchTo hj, List.getElem?_tail, List.length_cons, decide_eq_false hji,
          Bool.false_and, Bool.false_or]
    · simp only [hjidle, Bool.not_false, if_true, Bool.false_eq_true, not_false_eq_true,
        List.filter_cons_of_neg, ih hnodup hidle]

/-! ### The pass of a failure's report -/

/-- Worker `i` had a task, and once this is given up another one is due for it, behind those for the
idle workers in the slots before it, and can be posted. -/
def strandsTask (post : PostMessage) (s : WorkerPoolService) (i : ℕ) : Bool :=
  (s.assigned i).isSome &&
    ((s.release i).due post)[((List.range i).filter s.idle).length]?.any (postable post)

theorem idle_release {i j : ℕ} (h : i ≠ j) : (s.release i).idle j = s.idle j := by
  simp [idle, h]

theorem strandsTask_eq {i : ℕ} (huse : s.useWorkers = true) (hlive : (s.worker i).isSome = true) :
    strandsTask post s i = ((s.assigned i).isSome && (s.release i).passGivesTaskTo post i) := by
  have hidle : (s.release i).idle i = true := by simp [idle, hlive]
  have hlt : i < s.workerPool.length := lt_length_of_worker hlive
  have hbefore : (List.range i).filter (s.release i).idle = (List.range i).filter s.idle :=
    List.filter_congr fun j hj => idle_release (Nat.ne_of_gt (List.mem_range.mp hj))
  -- the slots before slot `i`, this one, and those behind it
  obtain ⟨behind, hsplit⟩ : ∃ behind, List.range s.workerPool.length = List.range i ++ i :: behind := by
    obtain ⟨m, hm⟩ := Nat.exists_eq_add_of_lt hlt
    refine ⟨(List.range m).map (i + 1 + ·), ?_⟩
    rw [hm, Nat.add_right_comm, List.range_add, List.range_succ, List.append_assoc]
    rfl
  have hgives := givesTaskTo_eq post (hsplit ▸ List.nodup_range) hidle
  rw [hbefore, ← hsplit] at hgives
  have hframe := s.release_frame i
  rw [strandsTask, passGivesTaskTo, hframe.useWorkers, huse, ← hgives]
  by_cases hempty : s.workerTaskQueue = []
  · rw [hgives, due_of_empty (by simp [hempty])]
    simp [hempty]
  · simp [hempty]

end WorkerPoolService

end BulkTraffic.Queue
