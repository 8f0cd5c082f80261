import BulkTraffic.Queue.Conservation

/-!
# The queue-wait timer

`wrapTaskWithQueueTimeout` arms a timer for every accepted task. When it fires, the task is
to be taken from wherever it waits and rejected. The timer searches the priority queues and
the batches (`removeTaskFromQueues`); it does not search `workerTaskQueue`, to which
`processQueue` moves the tasks for the workers.

* `armed`: a task in a priority queue or a batch has its timer armed.
* `queueWait_iff`: the timer of a task that has not started ends its wait exactly when the
  task is not in `workerTaskQueue`.
-/

namespace BulkTraffic.Queue

open BulkTraffic.Lib BulkTraffic.Js

namespace QueueSystem

/-- Every task that waits in a priority queue or a batch has its timer armed. -/
def Armed (s : QueueSystem) : Prop :=
  ∀ x, s.state.waiting (isTask x) ≤ weight (isTask x) s.timers

/-- A settled task waits nowhere. -/
theorem Ledger.not_waiting {s : QueueSystem} (h : Ledger s) {x : ℕ}
    (hx : 0 < weight (Call.settled x) s.log) : s.state.waiting (isTask x) = 0 := by
  have h₁ := h.place x
  have h₂ := h.main x
  have h₃ := h.worker x
  have h₄ := weight_settled x s.log
  have h₅ := h.once x
  omega

theorem Armed.moves {s u : QueueSystem} (h : Armed s) (hu : Ledger u) (hm : Moves s u) :
    Armed u := by
  intro x
  have hle := (hm.waiting x).trans (h x)
  rcases hm.armed x with htimers | hsettled
  · omega
  · have := hu.not_waiting hsettled
    omega

theorem Armed.accept {s : QueueSystem} (h : Armed s) (options : NormalizedEnqueueOptions)
    (now : ℕ) : Armed (s.accept options now) := by
  intro x
  have hwaiting := place_waiting (s.register (s.newTask options now)) (s.newTask options now)
    options.batch now (isTask x)
  have htimers : (s.accept options now).timers = s.timers ++ [s.newTask options now] := by
    unfold QueueSystem.accept
    dsimp only [requestProcessQueue]
    rw [place_frame]
    rfl
  have hx := h x
  change ((s.register (s.newTask options now)).place (s.newTask options now) options.batch
    now).state.waiting (isTask x) ≤ _
  rw [hwaiting, htimers]
  simp only [weight_append, weight_cons, weight_nil]
  change s.state.waiting (isTask x) + _ ≤ _
  omega

/-- The two ends of a timer that fires: its task is found and rejected, or nothing happens. -/
theorem onQueueWaitTimeout_cases (s : QueueSystem) (task : QueueTask) :
    ((s.state.removeTaskFromQueues task).1 = true ∧
        (s.onQueueWaitTimeout task).log =
          s.log ++ [.reject task .queueWaitTimer (.error queueWaitMessage)] ∧
        (s.onQueueWaitTimeout task).pool = s.pool) ∨
      ((s.state.removeTaskFromQueues task).1 = false ∧ s.onQueueWaitTimeout task = s) := by
  unfold QueueSystem.onQueueWaitTimeout
  split
  · rename_i state hfound
    exact .inl ⟨by rw [hfound], rfl, rfl⟩
  · rename_i state hfound
    exact .inr ⟨by rw [hfound], rfl⟩

theorem Armed.fire {s : QueueSystem} (h : Armed s) (hs : Ledger s) (k : ℕ) {task : QueueTask}
    (hk : s.timers[k]? = some task) :
    Armed ({ s with timers := s.timers.eraseIdx k }.onQueueWaitTimeout task) := by
  have hfired := hs.fire k hk
  have hmoves := onQueueWaitTimeout_moves hfired.keyed task
  have hledger := hfired.moves hmoves
  intro x
  have herase := weight_eraseIdx (isTask x) hk
  by_cases hx : task.id = x
  · obtain ⟨-, hlog, -⟩ | ⟨hnot, hsame⟩ :=
      onQueueWaitTimeout_cases { s with timers := s.timers.eraseIdx k } task
    · have hsettled : 0 < weight (Call.settled x)
          ({ s with timers := s.timers.eraseIdx k }.onQueueWaitTimeout task).log := by
        rw [hlog]
        simp [isTask, hx]
      rw [hledger.not_waiting hsettled]
      exact Nat.zero_le _
    · have hzero := (QueueStateHolder.removeTaskFromQueues_not_found hnot).2
      rw [hsame, ← hx]
      exact hzero ▸ Nat.zero_le _
  · have hwaiting := hmoves.waiting x
    have hold := h x
    have hone : isTask x task = 0 := by simp [isTask, hx]
    rcases hmoves.armed x with htimers | hsettled
    · dsimp only at hwaiting htimers
      omega
    · rw [hledger.not_waiting hsettled]
      exact Nat.zero_le _

/-- Every step keeps the timers of the waiting tasks armed. -/
theorem Armed.step {s u : QueueSystem} {e : QueueEvent} (h : Armed s) (hs : Ledger s)
    (hu : s.step e = some u) : Armed u := by
  have hledger := hs.step hu
  obtain hm | ⟨parser, normalized, now, rfl⟩ | ⟨k, task, hk, rfl⟩ := step_cases hu
  · exact h.moves hledger hm
  · have ht : Armed { s with parser := parser } := h
    exact ht.accept normalized now
  · exact h.fire hs k hk

variable {config : QueueConfig} {taskIdCounter : ℕ} {stats : QueueStatsService}
  {allowCustomWorkload useWorkers : Bool} {workerCount : ℕ} {cpu memory custom : Option ℕ}

/-- In every state of every run the waiting tasks have their timers armed. -/
theorem armed {s : QueueSystem}
    (h : Reachable step (initial config taskIdCounter stats allowCustomWorkload useWorkers
      workerCount cpu memory custom) s) : Armed s := by
  refine (h.invariant (P := fun s => Ledger s ∧ Armed s) ⟨.initial, fun x => ?_⟩
    fun _ _ _ hs _ hu => ⟨hs.1.step hu, hs.2.step hs.1 hu⟩).2
  simp [initial, QueueStateHolder.waiting]

/-- Task `x` has been dispatched on the main thread, alone or in a group, or posted to a
worker. -/
def Started (s : QueueSystem) (x : ℕ) : Prop :=
  0 < weight (Call.dispatched x) s.log ∨ 0 < weight (Call.posted x) s.log

/-- From `s` to `u` the wait of the task is ended: it is rejected with the queue-wait error,
which is all that is done to tasks, and it waits nowhere any more. -/
structure WaitEnded (s u : QueueSystem) (task : QueueTask) : Prop where
  rejected : u.log = s.log ++ [.reject task .queueWaitTimer (.error queueWaitMessage)]
  notQueued : u.state.waiting (isTask task.id) = 0
  notPending : weight (isTaskData task.id) u.pool.workerTaskQueue = 0

/-- **The queue-wait timer.** In every state of every run, the timer of a task that has not
started ends its wait exactly when the task is not in `workerTaskQueue`. -/
theorem queueWait_iff {s u : QueueSystem}
    (h : Reachable step (initial config taskIdCounter stats allowCustomWorkload useWorkers
      workerCount cpu memory custom) s)
    {k : ℕ} {task : QueueTask} (hk : s.timers[k]? = some task)
    (hstarted : ¬ s.Started task.id) (hu : s.step (.queueWaitTimer k) = some u) :
    WaitEnded s u task ↔ ∀ td ∈ s.pool.workerTaskQueue, td.task.id ≠ task.id := by
  have hs := Ledger.of_reachable h
  have hledger := hs.step hu
  simp only [step, hk, Option.some.injEq] at hu
  have htimer : 1 ≤ weight (isTask task.id) s.timers := by
    have := le_weight_of_mem (isTask task.id) (List.mem_of_getElem? hk)
    simpa [isTask] using this
  have haccepted := hs.timers task.id
  have honce := hs.once task.id
  have hplace := hs.place task.id
  simp only [Started, not_or, Nat.not_lt, Nat.le_zero] at hstarted
  -- the timer is armed, so the task has not been settled either
  have hsettled : weight (Call.settled task.id) s.log = 0 := by
    by_contra hne
    have := hs.cleared task.id (Nat.pos_of_ne_zero hne)
    omega
  have hwaiting := weight_settled task.id s.log
  obtain ⟨hfound, hlog, hpool⟩ | ⟨hnot, hsame⟩ :=
    onQueueWaitTimeout_cases { s with timers := s.timers.eraseIdx k } task
  · have hplaces := QueueStateHolder.removeTaskFromQueues_found hs.keyed hfound
      (w := isTask task.id) fun a ha => by simp [isTask, ha]
    have hself : isTask task.id task = 1 := by simp [isTask]
    constructor
    · intro _ td htd hid
      have := le_weight_of_mem (isTaskData task.id) htd
      simp only [isTaskData, isTask, hid, if_true] at this
      omega
    · intro _
      rw [hu] at hlog hpool
      have hrejected : 0 < weight (Call.settled task.id) u.log := by
        rw [hlog]
        simp [isTask]
      refine ⟨hlog, hledger.not_waiting hrejected, ?_⟩
      rw [hpool]
      dsimp only at *
      omega
  · have hzero := (QueueStateHolder.removeTaskFromQueues_not_found hnot).2
    dsimp only at hzero
    have hpending : 0 < weight (isTaskData task.id) s.pool.workerTaskQueue := by omega
    obtain ⟨td, htd, hid⟩ := exists_mem_of_weight_pos hpending
    constructor
    · intro hended
      have hlog := hended.rejected
      rw [← hu, hsame] at hlog
      simp at hlog
    · intro hnone
      exact absurd (isTask_pos.mp hid) (hnone td htd)

/-- What the two runs below show of a state: the timers, what was done to task `x`, and how
often it is in `workerTaskQueue` once its timer, the `k`-th, has fired. -/
def viewTimer (k x : ℕ) (s : QueueSystem) : List ℕ × ℕ × ℕ × Option ℕ :=
  (s.timers.map QueueTask.id, weight (Call.dispatched x) s.log, weight (Call.posted x) s.log,
    (s.step (.queueWaitTimer k)).map fun u => weight (isTaskData x) u.pool.workerTaskQueue)

theorem of_viewTimer {s : QueueSystem} {k x pending : ℕ} {ids : List ℕ}
    (h : viewTimer k x s = (ids, 0, 0, some pending)) (hx : ids[k]? = some x) :
    ∃ u task, s.timers[k]? = some task ∧ ¬ s.Started task.id ∧ task.id = x ∧
      s.step (.queueWaitTimer k) = some u ∧ weight (isTaskData x) u.pool.workerTaskQueue = pending := by
  simp only [viewTimer, Prod.mk.injEq] at h
  obtain ⟨rfl, hdispatched, hposted, hfired⟩ := h
  rw [List.getElem?_map] at hx
  obtain ⟨task, htask, rfl⟩ := Option.map_eq_some_iff.mp hx
  obtain ⟨u, hu, hpending⟩ := Option.map_eq_some_iff.mp hfired
  exact ⟨u, task, htask, by simp [Started, hdispatched, hposted], rfl, hu, hpending⟩

/-- The timer of a task that waits in a priority queue. -/
theorem queueWait_in_priority_queue :
    ∃ s u task, Reachable step (initial {} 0 {} false true 1 none none none) s ∧
      s.timers[0]? = some task ∧ s.step (.queueWaitTimer 0) = some u ∧
      (WaitEnded s u task ↔ ∀ td ∈ s.pool.workerTaskQueue, td.task.id ≠ task.id) := by
  obtain ⟨s, hs, hseen⟩ := exists_reaches_of_runEvents step (fun _ _ => True) (viewTimer 0 1)
    (s := initial {} 0 {} false true 1 none none none)
    [.enqueue { workloadType := .str "cpu" } 0] ([1], 0, 0, some 0) (by decide +kernel)
  obtain ⟨u, task, htask, hstarted, -, hu, -⟩ := of_viewTimer hseen rfl
  exact ⟨s, u, task, hs, htask, hu, queueWait_iff hs htask hstarted hu⟩

/-- Two cpu tasks and one worker: the second task waits in `workerTaskQueue`, and its timer
leaves it there. -/
theorem queueWait_ignores_worker_queue :
    ∃ s u task, Reachable step (initial {} 0 {} false true 1 none none none) s ∧
      s.timers[1]? = some task ∧ ¬ s.Started task.id ∧ s.step (.queueWaitTimer 1) = some u ∧
      ¬ WaitEnded s u task := by
  obtain ⟨s, hs, hseen⟩ := exists_reaches_of_runEvents step (fun _ _ => True) (viewTimer 1 2)
    (s := initial {} 0 {} false true 1 none none none)
    [.enqueue { workloadType := .str "cpu" } 0, .enqueue { workloadType := .str "cpu" } 0,
      .processSignal fun _ => none] ([1, 2], 0, 0, some 1) (by decide +kernel)
  obtain ⟨u, task, htask, hstarted, hid, hu, hpending⟩ := of_viewTimer hseen rfl
  refine ⟨s, u, task, hs, htask, hstarted, hu, fun h => ?_⟩
  have := h.notPending
  rw [hid] at this
  omega

end QueueSystem

end BulkTraffic.Queue
