import BulkTraffic.Queue.PoolFlow

/-!
# The slots of the worker pool

Three representations say which worker runs what: the flag `workerBusy[i]`, the entry of
`assignedTasks` and the message the worker has not answered yet; a fourth, `activeByType`,
counts them. `Accounted` says that they agree, and each function of the pool is shown to
keep them in agreement, as far as it does.

`Accounted (some i)` leaves slot `i` out: it is what holds while the failure of worker `i`
is being reported, when its task has been given up and the worker has not been replaced.
`givesTaskTo` follows a pass and tells whether it gives a slot a task.
-/

namespace BulkTraffic.Queue

open BulkTraffic.Lib BulkTraffic.Js

/-- The weight that counts tasks of type `t`. -/
def ofType (t : DispatchableWorkloadType) (taskData : WorkerTaskData) : ℕ :=
  if isDispatchableType (determineTaskType taskData) = some t then 1 else 0

/-- How many messages of type `t` a worker has not answered. -/
def workerOfType (t : DispatchableWorkloadType) : Option Worker → ℕ
  | none => 0
  | some w => weight (fun p => ofType t p.taskData) w.unanswered

theorem ofType_of_type {td : WorkerTaskData} {u : DispatchableWorkloadType}
    (h : td.type = some u.toWorkloadType) (t : DispatchableWorkloadType) :
    ofType t td = if t = u then 1 else 0 := by
  simp only [ofType, determineTaskType, h, isDispatchableType_toWorkloadType, Option.some.injEq]
  by_cases htu : t = u
  · simp [htu]
  · rw [if_neg htu, if_neg (Ne.symm htu)]

namespace WorkerPoolService

/-- How many tasks of type `t` are assigned. -/
def assignedOfType (s : WorkerPoolService) (t : DispatchableWorkloadType) : ℕ :=
  s.assignedTasks.weightOf (ofType t)

/-- How many messages of type `t` the live workers have not answered. -/
def unansweredOfType (s : WorkerPoolService) (t : DispatchableWorkloadType) : ℕ :=
  weight (workerOfType t) s.workerPool

/-- How many messages of type `t` the worker of slot `i` has not answered. -/
def slotOfType (s : WorkerPoolService) (t : DispatchableWorkloadType) (i : ℕ) : ℕ :=
  workerOfType t (s.worker i)

/-- The representations of slot `i` agree. -/
structure SlotOk (s : WorkerPoolService) (i : ℕ) : Prop where
  /-- The slot is marked busy when a task is assigned. -/
  busy : s.busy i = (s.assigned i).isSome
  /-- Its worker owes an answer to the assigned task's message, and to no other. -/
  unanswered : ∀ w, s.worker i = some w → w.unanswered.map Posted.taskData = (s.assigned i).toList
  /-- A task is assigned to a slot with a worker. -/
  live : s.worker i = none → s.assigned i = none

/-- Slot `j` is the same in both pools. -/
structure SameSlot (s s' : WorkerPoolService) (j : ℕ) : Prop where
  worker : s'.worker j = s.worker j
  busy : s'.busy j = s.busy j
  assigned : s'.assigned j = s.assigned j

theorem SlotOk.of_same {s s' : WorkerPoolService} {j : ℕ} (h : SlotOk s j) (hs : SameSlot s s' j) :
    SlotOk s' j :=
  ⟨by rw [hs.busy, hs.assigned]; exact h.busy, by rw [hs.worker, hs.assigned]; exact h.unanswered,
    by rw [hs.worker, hs.assigned]; exact h.live⟩

/-- A slot left idle, whose worker owes nothing. -/
theorem SlotOk.of_idle {s : WorkerPoolService} {i : ℕ} (hb : s.busy i = false)
    (ha : s.assigned i = none) (hw : ∀ w, s.worker i = some w → w.unanswered = []) : SlotOk s i :=
  ⟨by simp [hb, ha], fun w h => by simp [hw w h, ha], fun _ => ha⟩

/-! ### What a dispatch does to the slots -/

/-- The next worker gets a task: there is one, and posting its message does not throw. -/
def takesTask (post : PostMessage) (s : WorkerPoolService) : Bool :=
  match s.dequeued.picked with
  | none => false
  | some (taskData, _) => (post taskData).isNone

/-- A dispatch touches no other slot. -/
theorem dispatchTo_same (post : PostMessage) (s : WorkerPoolService) {i j : ℕ} (h : i ≠ j) :
    SameSlot s (s.dispatchTo post i).1 j := by
  obtain ⟨-, hd⟩ | ⟨td, type, -, -, hd⟩ | ⟨td, type, thrown, -, -, hd⟩ := dispatchTo_cases post s i
  · rw [hd]; exact ⟨rfl, rfl, rfl⟩
  · rw [hd]; exact ⟨by simp [worker_assignTo, h], by simp [h], by simp [h]⟩
  · rw [hd]; exact ⟨rfl, by simp [h], by simp [h]⟩

/-- A dispatch that takes a task marks the slot, assigns the task and adds its message to
what the worker has to answer. -/
theorem dispatchTo_takes {post : PostMessage} {s : WorkerPoolService} (i : ℕ)
    (h : s.takesTask post = true) :
    ∃ td type, s.dequeued.picked = some (td, type) ∧
      (s.dispatchTo post i).1 = s.afterDequeue.assignTo i td type := by
  obtain ⟨hp, -⟩ | ⟨td, type, hp, -, hd⟩ | ⟨td, type, thrown, hp, ht, -⟩ := dispatchTo_cases post s i
  · simp [takesTask, hp] at h
  · exact ⟨td, type, hp, by rw [hd]⟩
  · simp [takesTask, hp, ht] at h

/-- A dispatch that takes no task leaves the workers as they are, and the slot idle. -/
theorem dispatchTo_takes_not {post : PostMessage} {s : WorkerPoolService} {i : ℕ}
    (h : s.takesTask post = false) (hb : s.busy i = false) (ha : s.assigned i = none) :
    SameSlot s (s.dispatchTo post i).1 i ∧ (s.dispatchTo post i).1.workerPool = s.workerPool ∧
      (s.dispatchTo post i).1.assignedTasks = s.assignedTasks ∧
      (s.dispatchTo post i).1.router.activeByType = s.router.activeByType := by
  have hr := (s.router.dequeue_router s.workerTaskQueue).1
  obtain ⟨-, hd⟩ | ⟨td, type, hp, ht, -⟩ | ⟨td, type, thrown, -, -, hd⟩ := dispatchTo_cases post s i
  · rw [hd]; exact ⟨⟨rfl, rfl, rfl⟩, rfl, rfl, hr⟩
  · simp [takesTask, hp, ht] at h
  · rw [hd]
    exact ⟨⟨rfl, by simp [hb], by simp [ha]⟩, rfl, JsMap.delete_of_none ha, hr⟩

theorem assignTo_unanswered {s : WorkerPoolService} {i : ℕ} {w : Worker} (h : s.worker i = some w)
    {td : WorkerTaskData} (type : DispatchableWorkloadType) (t : DispatchableWorkloadType) :
    (s.assignTo i td type).unansweredOfType t = s.unansweredOfType t + ofType t td := by
  have hp : (s.assignTo i td type).workerPool =
      JsArray.write none s.workerPool i
        (some { w with unanswered := w.unanswered ++ [⟨td, messageOf td type⟩] }) := by
    change (s.postTo i _).workerPool = _
    unfold postTo
    simp [h, setWorker]
  have hw : JsArray.read none s.workerPool i = some w := h
  have := JsArray.weight_write none (w := workerOfType t) rfl s.workerPool i
    (some { w with unanswered := w.unanswered ++ [⟨td, messageOf td type⟩] })
  simp only [unansweredOfType, hp]
  rw [hw] at this
  simp only [workerOfType, weight_append, weight_cons, weight_nil] at this
  omega

/-- A dispatch keeps the frame: configuration, limits and terminated workers. -/
theorem dispatchTo_frame (post : PostMessage) (s : WorkerPoolService) (i : ℕ) :
    SameFrame s (s.dispatchTo post i).1 := by
  have hl := (s.router.dequeue_router s.workerTaskQueue).2
  have hpost : ∀ (u : WorkerPoolService) p, SameFrame u (u.postTo i p) := by
    intro u p; unfold postTo; split <;> exact ⟨rfl, rfl, rfl, rfl⟩
  obtain ⟨-, hd⟩ | ⟨td, type, -, -, hd⟩ | ⟨td, type, thrown, -, -, hd⟩ := dispatchTo_cases post s i
  · rw [hd]; exact ⟨rfl, rfl, rfl, hl⟩
  · rw [hd]
    have := hpost s.afterDequeue ⟨td, messageOf td type⟩
    exact ⟨this.useWorkers, this.shuttingDown, this.terminated, this.limits.trans hl⟩
  · rw [hd]; exact ⟨rfl, rfl, rfl, hl⟩

theorem processWorkerTasks_frame (post : PostMessage) (s : WorkerPoolService) :
    SameFrame s (s.processWorkerTasks post).1 :=
  processWorkerTasks_of_dispatch (R := fun s t _ => SameFrame s t) SameFrame.refl SameFrame.trans
    (dispatchTo_frame post) s

/-! ### The accounting -/

/-- The representations agree, in every slot but the one in `skip`, and the counters count. -/
structure Accounted (skip : Option ℕ) (s : WorkerPoolService) : Prop where
  /-- The slots agree. -/
  slots : ∀ i, skip ≠ some i → SlotOk s i
  /-- An idle slot has no task. -/
  idle : ∀ i, s.busy i = false → s.assigned i = none
  /-- An assigned task has been given its type. -/
  typed : ∀ i td, s.assigned i = some td → ∃ t : DispatchableWorkloadType,
    td.type = some t.toWorkloadType
  /-- `activeByType` counts the assigned tasks. -/
  active : ∀ t, s.router.activeByType t = s.assignedOfType t
  /-- The workers owe an answer for each assigned task; the worker of the slot left out may
  owe more. -/
  unanswered : ∀ t, s.unansweredOfType t = s.assignedOfType t + skip.elim 0 (s.slotOfType t)
  /-- The limits are kept. -/
  limit : ∀ t, s.router.activeByType t ≤ s.router.limits t

/-- A dispatch to an idle worker keeps the accounting, unless it posts to the slot left out. -/
theorem Accounted.dispatchTo {skip : Option ℕ} {s : WorkerPoolService} {i : ℕ} {w : Worker}
    (h : Accounted skip s) (post : PostMessage) (hw : s.worker i = some w) (hb : s.busy i = false)
    (hskip : skip = some i → s.takesTask post = false) :
    Accounted skip (s.dispatchTo post i).1 := by
  have ha := h.idle i hb
  have hframe := dispatchTo_frame post s i
  cases htakes : s.takesTask post with
  | false =>
    obtain ⟨hsame, hpool, hmap, hact⟩ := dispatchTo_takes_not htakes hb ha
    have hsame' : ∀ j, SameSlot s (s.dispatchTo post i).1 j := by
      intro j
      by_cases hij : i = j
      · exact hij ▸ hsame
      · exact dispatchTo_same post s hij
    have hao : ∀ t, (s.dispatchTo post i).1.assignedOfType t = s.assignedOfType t := by
      intro t; simp only [assignedOfType, hmap]
    refine ⟨fun j hj => (h.slots j hj).of_same (hsame' j), fun j hj => ?_, fun j td hj => ?_,
      fun t => ?_, fun t => ?_, fun t => ?_⟩
    · rw [(hsame' j).assigned]; exact h.idle j (by rw [← (hsame' j).busy]; exact hj)
    · exact h.typed j td (by rw [← (hsame' j).assigned]; exact hj)
    · rw [hact, hao]; exact h.active t
    · have := h.unanswered t
      cases skip with
      | none => simpa [unansweredOfType, hpool, hao] using this
      | some k => simpa [unansweredOfType, hpool, hao, slotOfType, (hsame' k).worker] using this
    · rw [hact, hframe.limits]; exact h.limit t
  | true =>
    have hne : skip ≠ some i := fun hs => by rw [hskip hs] at htakes; cases htakes
    obtain ⟨td, type, hp, hd⟩ := dispatchTo_takes i htakes
    obtain ⟨htype, hlt⟩ := s.router.dequeue_picked hp
    have hempty : w.unanswered = [] := by
      have := (h.slots i hne).unanswered w hw
      simpa [ha] using this
    have hact := (s.router.dequeue_router s.workerTaskQueue).1
    have hlim := (s.router.dequeue_router s.workerTaskQueue).2
    have hao : ∀ t, (s.afterDequeue.assignTo i td type).assignedOfType t =
        s.assignedOfType t + ofType t td := by
      intro t
      simp only [assignedOfType, assignTo_assignedTasks]
      exact JsMap.weightOf_set_of_none _ ha td
    have hactive : ∀ t, (s.afterDequeue.assignTo i td type).router.activeByType t =
        s.router.activeByType t + ofType t td := by
      intro t
      have hs : s.afterDequeue.router.activeByType = s.router.activeByType := hact
      simp only [assignTo_router, WorkerTaskRouterService.incrementActiveByType, hs,
        Function.update_apply, ofType_of_type htype]
      split_ifs with htt
      · rw [htt]
      · rfl
    rw [hd] at hframe ⊢
    refine ⟨fun j hj => ?_, fun j hj => ?_, fun j td' hj => ?_, fun t => ?_, fun t => ?_, fun t => ?_⟩
    · by_cases hij : i = j
      · subst hij
        refine ⟨by simp, fun w' hw' => ?_, fun hn => ?_⟩
        · rw [worker_assignTo, if_pos rfl] at hw'
          have hw'' : s.afterDequeue.worker i = some w := hw
          simp only [hw'', Option.map_some, Option.some.injEq] at hw'
          subst hw'
          simp [hempty]
        · rw [worker_assignTo, if_pos rfl, show s.afterDequeue.worker i = some w from hw] at hn
          simp at hn
      · have := dispatchTo_same post s hij
        rw [hd] at this
        exact (h.slots j hj).of_same this
    · by_cases hij : i = j
      · simp [hij] at hj
      · simp only [busy_assignTo, if_neg hij, busy_afterDequeue] at hj
        simp only [assigned_assignTo, if_neg hij, assigned_afterDequeue]
        exact h.idle j hj
    · by_cases hij : i = j
      · simp only [assigned_assignTo, if_pos hij, Option.some.injEq] at hj
        exact ⟨type, hj ▸ htype⟩
      · simp only [assigned_assignTo, if_neg hij, assigned_afterDequeue] at hj
        exact h.typed j td' hj
    · rw [hactive, hao, h.active]
    · rw [assignTo_unanswered (show s.afterDequeue.worker i = some w from hw), hao]
      have hu := h.unanswered t
      cases skip with
      | none =>
        have : s.afterDequeue.unansweredOfType t = s.unansweredOfType t := rfl
        simp only [Option.elim_none] at hu ⊢
        omega
      | some k =>
        have hki : i ≠ k := fun hk => hne (by rw [hk])
        have h₁ : s.afterDequeue.unansweredOfType t = s.unansweredOfType t := rfl
        have h₂ : (s.afterDequeue.assignTo i td type).slotOfType t k = s.slotOfType t k := by
          simp [slotOfType, worker_assignTo, hki]
        simp only [Option.elim_some] at hu ⊢
        omega
    · rw [hactive, hframe.limits, ofType_of_type htype]
      have := h.limit t
      split_ifs with htt
      · subst htt; omega
      · omega

/-! ### Passes -/

/-- **The pass rule**: what every dispatch to an idle worker keeps, a pass keeps. -/
theorem processSlots_invariant {P : WorkerPoolService → Prop} {post : PostMessage}
    (hstep : ∀ s i w, P s → s.worker i = some w → s.busy i = false → P (s.dispatchTo post i).1)
    (is : List ℕ) {s : WorkerPoolService} (h : P s) : P (processSlots post is s).1 := by
  induction is generalizing s with
  | nil => exact h
  | cons i is ih =>
    simp only [processSlots]
    split
    · exact ih h
    · rename_i hidle
      simp only [Bool.or_eq_true, Option.isNone_iff_eq_none, not_or] at hidle
      obtain ⟨w, hw⟩ := Option.ne_none_iff_exists'.mp hidle.1
      split
      · exact h
      · exact ih (hstep s i w h hw (by simpa using hidle.2))

theorem processWorkerTasks_invariant {P : WorkerPoolService → Prop} {post : PostMessage}
    (hstep : ∀ s i w, P s → s.worker i = some w → s.busy i = false → P (s.dispatchTo post i).1)
    {s : WorkerPoolService} (h : P s) : P (s.processWorkerTasks post).1 := by
  unfold processWorkerTasks
  split
  · exact h
  · exact processSlots_invariant hstep _ h

/-- Does the pass over the given slots give slot `i` a task? -/
def givesTaskTo (post : PostMessage) (i : ℕ) : List ℕ → WorkerPoolService → Bool
  | [], _ => false
  | j :: js, s =>
    if (s.worker j).isNone || s.busy j then givesTaskTo post i js s
    else if s.workerTaskQueue.isEmpty then false
    else (decide (j = i) && s.takesTask post) || givesTaskTo post i js (s.dispatchTo post j).1

/-- Does `processWorkerTasks` give slot `i` a task? -/
def passGivesTaskTo (post : PostMessage) (i : ℕ) (s : WorkerPoolService) : Bool :=
  if !s.useWorkers || s.workerTaskQueue.isEmpty then false
  else givesTaskTo post i (List.range s.workerPool.length) s

theorem processSlots_accounted {post : PostMessage} {skip : Option ℕ} (is : List ℕ)
    {s : WorkerPoolService} (h : Accounted skip s)
    (hskip : ∀ i, skip = some i → givesTaskTo post i is s = false) :
    Accounted skip (processSlots post is s).1 := by
  induction is generalizing s with
  | nil => exact h
  | cons j is ih =>
    simp only [processSlots]
    split
    · rename_i hidle
      exact ih h fun i hi => by have := hskip i hi; rwa [givesTaskTo, if_pos hidle] at this
    · rename_i hidle
      simp only [Bool.or_eq_true, Option.isNone_iff_eq_none, not_or] at hidle
      obtain ⟨w, hw⟩ := Option.ne_none_iff_exists'.mp hidle.1
      have hb : s.busy j = false := by simpa using hidle.2
      split
      · exact h
      · rename_i hq
        have hgive : ∀ i, skip = some i → (decide (j = i) && s.takesTask post) = false ∧
            givesTaskTo post i is (s.dispatchTo post j).1 = false := by
          intro i hi
          have := hskip i hi
          rw [givesTaskTo, if_neg (by simp [hw, hb]), if_neg hq, Bool.or_eq_false_iff] at this
          exact this
        exact ih (h.dispatchTo post hw hb fun hj => by simpa using (hgive j hj).1)
          fun i hi => (hgive i hi).2

theorem processWorkerTasks_accounted {post : PostMessage} {skip : Option ℕ} {s : WorkerPoolService}
    (h : Accounted skip s) (hskip : ∀ i, skip = some i → s.passGivesTaskTo post i = false) :
    Accounted skip (s.processWorkerTasks post).1 := by
  unfold processWorkerTasks
  split
  · exact h
  · rename_i hc
    exact processSlots_accounted _ h fun i hi => by
      have := hskip i hi
      rwa [passGivesTaskTo, if_neg hc] at this

/-- How many messages the worker of slot `i` has not answered. -/
def load (s : WorkerPoolService) (i : ℕ) : ℕ := (s.worker i).elim 0 fun w => w.unanswered.length

/-- A dispatch forgets no assigned task where it picks nothing, or its slot has none. -/
theorem dispatchTo_keeps (post : PostMessage) {s : WorkerPoolService} {j : ℕ}
    (h : s.dequeued.picked = none ∨ s.assigned j = none) (x : ℕ) :
    (s.dispatchTo post j).1.assignedTasks.weightOf (isTaskData x) +
        weight (Call.settledByWorker x) (s.dispatchTo post j).2 =
      s.assignedTasks.weightOf (isTaskData x) +
        weight (Call.posted x) (s.dispatchTo post j).2 := by
  obtain ⟨-, hpost, hwork, -⟩ := s.dequeued_flow
  obtain ⟨-, hd⟩ | ⟨td, type, hp, -, hd⟩ | ⟨td, type, thrown, hp, -, hd⟩ := dispatchTo_cases post s j
  · simp [hd, hpost x, hwork x]
  · have ha : s.assigned j = none := h.resolve_left (by simp [hp])
    have := JsMap.weightOf_set_of_none (isTaskData x) ha td
    simp [hd, hpost x, hwork x] at this ⊢
    exact this
  · have ha : s.assigned j = none := h.resolve_left (by simp [hp])
    simp [hd, hpost x, hwork x, JsMap.delete_of_none ha]

/-- A pass over idle slots without tasks forgets none of the assigned ones. -/
theorem processSlots_keeps (post : PostMessage) (is : List ℕ) {s : WorkerPoolService}
    (h : ∀ i, s.busy i = false → s.assigned i = none) (x : ℕ) :
    (processSlots post is s).1.assignedTasks.weightOf (isTaskData x) +
        weight (Call.settledByWorker x) (processSlots post is s).2 =
      s.assignedTasks.weightOf (isTaskData x) +
        weight (Call.posted x) (processSlots post is s).2 := by
  induction is generalizing s with
  | nil => rfl
  | cons j is ih =>
    simp only [processSlots]
    split
    · exact ih h
    · rename_i hidle
      simp only [Bool.or_eq_true, not_or] at hidle
      have hb : s.busy j = false := by simpa using hidle.2
      have ha := h j hb
      split
      · rfl
      · have hkeep : ∀ i, (s.dispatchTo post j).1.busy i = false →
            (s.dispatchTo post j).1.assigned i = none := by
          intro i hi
          by_cases hij : j = i
          · subst hij
            cases ht : s.takesTask post with
            | false =>
              rw [(dispatchTo_takes_not ht hb ha).1.assigned]
              exact ha
            | true =>
              obtain ⟨td, type, -, hd⟩ := dispatchTo_takes j ht
              simp [hd] at hi
          · have hs := dispatchTo_same post s hij
            rw [hs.assigned]
            exact h i (by rw [← hs.busy]; exact hi)
        have hnext := ih hkeep
        have hone := dispatchTo_keeps post (.inr ha) x
        simp only [weight_append]
        omega

/-! ### Releasing and replacing -/

/-- Giving up the task of slot `i` leaves the other slots in agreement. -/
theorem Accounted.release {s : WorkerPoolService} (h : Accounted none s) (i : ℕ) :
    Accounted (some i) (s.release i) := by
  have hslot := h.slots i (by simp)
  have hframe := s.release_frame i
  -- the types lose what slot `i` had, and its worker still owes it
  have hkey : ∀ t, (s.release i).assignedOfType t + s.slotOfType t i = s.assignedOfType t ∧
      (s.release i).router.activeByType t + s.slotOfType t i = s.router.activeByType t := by
    intro t
    have hact := h.active t
    cases ha : s.assigned i with
    | none =>
      have hz : s.slotOfType t i = 0 := by
        unfold slotOfType
        cases hw : s.worker i with
        | none => rfl
        | some w =>
          have := hslot.unanswered w hw
          simp only [ha, Option.toList_none, List.map_eq_nil_iff] at this
          simp [workerOfType, this]
      have hmap : s.assignedTasks.delete i = s.assignedTasks := JsMap.delete_of_none ha
      constructor
      · simp [assignedOfType, hmap, hz]
      · simp [WorkerPoolService.release, ha, setBusy, hz]
    | some td =>
      obtain ⟨u, hu⟩ := h.typed i td ha
      have hz : s.slotOfType t i = ofType t td := by
        unfold slotOfType
        cases hw : s.worker i with
        | none => simp [hslot.live hw] at ha
        | some w =>
          have := hslot.unanswered w hw
          simp only [ha, Option.toList_some] at this
          obtain ⟨p, hp, hpt⟩ := List.map_eq_singleton_iff.mp this
          simp [workerOfType, hp, hpt]
      have hdel := JsMap.weightOf_delete_of_some (ofType t) (m := s.assignedTasks) (k := i) ha
      have htype : determineTaskType td = u.toWorkloadType := by simp [determineTaskType, hu]
      refine ⟨by simpa [assignedOfType, hz] using hdel, ?_⟩
      rw [hz, ofType_of_type hu]
      have hle : ofType t td ≤ s.assignedOfType t := JsMap.le_weightOf_of_get? (ofType t) ha
      rw [ofType_of_type hu] at hle
      simp only [WorkerPoolService.release, ha, WorkerTaskRouterService.decrementActiveByType,
        htype, isDispatchableType_toWorkloadType, Function.update_apply]
      split_ifs at hle ⊢ with htu
      · subst htu; omega
      · rfl
  refine ⟨fun j hj => ?_, fun j hj => ?_, fun j td hj => ?_, fun t => ?_, fun t => ?_, fun t => ?_⟩
  · have hij : i ≠ j := fun hij => hj (by rw [hij])
    exact (h.slots j (by simp)).of_same ⟨by simp, by simp [hij], by simp [hij]⟩
  · by_cases hij : i = j
    · simp [hij]
    · simp only [release_busy, if_neg hij] at hj
      simp only [release_assigned, if_neg hij]
      exact h.idle j hj
  · by_cases hij : i = j
    · simp [hij] at hj
    · simp only [release_assigned, if_neg hij] at hj
      exact h.typed j td hj
  · have := hkey t; have := h.active t; omega
  · have hu := h.unanswered t
    have := hkey t
    have hs : (s.release i).slotOfType t i = s.slotOfType t i := by simp [slotOfType]
    have hU : (s.release i).unansweredOfType t = s.unansweredOfType t := by simp [unansweredOfType]
    simp only [Option.elim_none, Option.elim_some] at hu ⊢
    omega
  · have := hkey t; have := h.limit t; rw [hframe.limits]; omega

/-- A slot without a task can be left out. -/
theorem Accounted.leaveOut {s : WorkerPoolService} (h : Accounted none s) {i : ℕ}
    (ha : s.assigned i = none) : Accounted (some i) s := by
  refine ⟨fun j _ => h.slots j (by simp), h.idle, h.typed, h.active, fun t => ?_, h.limit⟩
  have hz : s.slotOfType t i = 0 := by
    unfold slotOfType
    cases hw : s.worker i with
    | none => rfl
    | some w =>
      have := (h.slots i (by simp)).unanswered w hw
      simp only [ha, Option.toList_none, List.map_eq_nil_iff] at this
      simp [workerOfType, this]
  have := h.unanswered t
  simp only [Option.elim_none, Option.elim_some] at this ⊢
  omega

/-- The accounting looks at the workers, the flags, the assignments and the router. -/
theorem Accounted.congr {skip : Option ℕ} {s s' : WorkerPoolService} (h : Accounted skip s)
    (hp : s'.workerPool = s.workerPool) (hb : ∀ i, s'.busy i = s.busy i)
    (ha : s'.assignedTasks = s.assignedTasks) (hr : s'.router = s.router) : Accounted skip s' := by
  have hw : ∀ i, s'.worker i = s.worker i := fun i => by simp [worker, hp]
  have has : ∀ i, s'.assigned i = s.assigned i := fun i => by simp [WorkerPoolService.assigned, ha]
  refine ⟨fun i hi => (h.slots i hi).of_same ⟨hw i, hb i, has i⟩, fun i hi => ?_, fun i td hi => ?_,
    fun t => ?_, fun t => ?_, fun t => ?_⟩
  · rw [has]; exact h.idle i (by rw [← hb]; exact hi)
  · exact h.typed i td (by rw [← has]; exact hi)
  · simpa [assignedOfType, ha, hr] using h.active t
  · have := h.unanswered t
    cases skip with
    | none => simpa [unansweredOfType, assignedOfType, hp, ha] using this
    | some k => simpa [unansweredOfType, assignedOfType, slotOfType, hp, ha, hw] using this
  · rw [hr]; exact h.limit t

/-- Putting a worker that owes nothing into the idle slot left out completes the accounting. -/
theorem Accounted.close {s : WorkerPoolService} {i : ℕ} (h : Accounted (some i) s)
    (hb : s.busy i = false) {w : Worker} (hw : w.unanswered = []) :
    Accounted none (s.setWorker i w) := by
  have ha := h.idle i hb
  refine ⟨fun j _ => ?_, h.idle, h.typed, h.active, fun t => ?_, h.limit⟩
  · by_cases hij : i = j
    · subst hij
      exact .of_idle hb ha fun w' hw' => by
        simp only [worker_setWorker, if_true, Option.some.injEq] at hw'
        rw [← hw', hw]
    · exact (h.slots j fun hs => hij (Option.some.inj hs)).of_same ⟨by simp [hij], rfl, rfl⟩
  · have hwt := JsArray.weight_write none (w := workerOfType t) rfl s.workerPool i (some w)
    have hu := h.unanswered t
    have hz : workerOfType t (some w) = 0 := by simp [workerOfType, hw]
    have hs : s.slotOfType t i = workerOfType t (JsArray.read none s.workerPool i) := rfl
    simp only [Option.elim_some, unansweredOfType] at hu
    simp only [Option.elim_none, unansweredOfType, setWorker]
    change weight (workerOfType t) _ = s.assignedOfType t + 0
    omega

end WorkerPoolService

end BulkTraffic.Queue
