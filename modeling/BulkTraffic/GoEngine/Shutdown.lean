import BulkTraffic.GoEngine.Backpressure
import BulkTraffic.GoEngine.PoolCounts

/-!
# What a pool has executed when `Stop` returns

A task for which `Submit` has returned `nil` is in the heap, then with the dispatch loop, then in
a goroutine that calls `executeWithRetry` once and counts what it returned once. `Stop` closes
`stopCh` and waits for the loop and the goroutines; the heap it does not look at. A loop that
finds `stopCh` closed returns with the tasks that are still in the heap, and nothing takes them
out afterwards.

* `placed_step`: an accepted task is in exactly one of the three places.
* `workersCounted_step`: the semaphore's tokens, `ActiveWorkers`, `Processed` and `Failed` count
  what the tasks that hold a slot have done, so `ActiveWorkers` is at most `Workers`.
* `accepted_executed_once`: in a run whose loop leaves no task of before `Stop` behind, each of
  these tasks has been executed and counted exactly once when `Stop` returns.
* `executedOnce_iff`: where the loop leaves one behind, it never is.
-/

namespace BulkTraffic.GoEngine

open BulkTraffic.Lib

/-! ### Copies of a task -/

/-- Is `t` the task `k`? The heap's index is not its caller's. -/
def Task.isCopy (k t : Task) : Bool := t.id = k.id ∧ t.priority = k.priority

/-- `1` for a copy of `k`, else `0`. -/
def Task.copy (k t : Task) : ℕ := if k.isCopy t then 1 else 0

/-- How many copies of `k` there are in a list of tasks. -/
def Task.copies (k : Task) (tasks : List Task) : ℕ := weight k.copy tasks

theorem Task.copy_index (k t : Task) (i : ℤ) : k.copy { t with index := i } = k.copy t := rfl

/-- Copies of one task have the same copies. -/
theorem Task.copies_eq_of_isCopy {k t : Task} (h : k.isCopy t = true) (tasks : List Task) :
    k.copies tasks = t.copies tasks := by
  obtain ⟨hid, hpriority⟩ : t.id = k.id ∧ t.priority = k.priority := by
    simpa [Task.isCopy] using h
  refine weight_congr fun a _ => ?_
  simp [Task.copy, Task.isCopy, hid, hpriority]

namespace PriorityQueue

section Weight

variable {w : Task → ℕ} (hw : ∀ (t : Task) (i : ℤ), w { t with index := i } = w t)

include hw

theorem weight_contents (pq : PriorityQueue) :
    weight w pq.contents = weight w pq.items.toList := by
  rw [contents, weight_map]
  exact weight_congr fun t _ => hw t 0

/-- A queued task is in the heap. -/
theorem weight_enqueue (pq : PriorityQueue) (task : Task) :
    weight w (pq.enqueue task).items.toList = weight w pq.items.toList + w task := by
  have hcontents := weight_perm w (contents_enqueue pq task)
  have htask : w task.content = w task := hw task 0
  rw [weight_cons, weight_contents hw, weight_contents hw, htask] at hcontents
  rw [hcontents, Nat.add_comm]

/-- The task that comes out was in the heap, and the others still are. -/
theorem weight_dequeue (pq : PriorityQueue) :
    pq.dequeue.1.elim 0 w + weight w pq.dequeue.2.items.toList = weight w pq.items.toList := by
  have hcontents := weight_perm w (contents_dequeue pq)
  rw [weight_append, weight_contents hw, weight_contents hw] at hcontents
  rw [← hcontents]
  cases pq.dequeue.1 with
  | none => rfl
  | some task =>
    have htask : w task.content = w task := hw task 0
    simp [htask]

end Weight

end PriorityQueue

/-! ### Where the accepted tasks are -/

/-- The task of a call of `Submit` that has returned `nil`. -/
def Call.acceptedTask? : Call → Option Task
  | .submit task (.returned none) => some task
  | _ => none

/-- The task that the dispatch loop holds. -/
def Dispatcher.task? : Dispatcher → Option Task
  | .limiting task | .acquiring task => some task
  | _ => none

namespace Pool

/-- The tasks for which `Submit` has returned `nil`. -/
def accepted (s : Pool) : List Task := s.calls.filterMap Call.acceptedTask?

/-- The tasks for which a goroutine has been started. -/
def started (s : Pool) : List Task := s.goroutines.map Prod.fst

/-- The tasks whose goroutine has counted an outcome and has returned. -/
def executed (s : Pool) : List Task := (s.goroutines.filter finished).map Prod.fst

/-- The copies of `k` in the heap, with the dispatch loop and in goroutines. -/
def placed (k : Task) (s : Pool) : ℕ :=
  k.copies s.queue.items.toList + k.copies s.dispatcher.task?.toList + k.copies s.started

variable {config : PoolConfig} {s u : Pool}

/-- A call goes on, and its task is counted as accepted as before and after. -/
theorem copies_accepted_setCall {i : ℕ} {c : Call} (hcall : s.calls[i]? = some c) (c' : Call)
    (k : Task) :
    k.copies (s.setCall i c').accepted + k.copies c.acceptedTask?.toList =
      k.copies s.accepted + k.copies c'.acceptedTask?.toList := by
  have helim : ∀ c : Call, k.copies c.acceptedTask?.toList = c.acceptedTask?.elim 0 k.copy := by
    intro c
    cases c.acceptedTask? <;> simp [Task.copies]
  rw [helim, helim]
  simp only [accepted, setCall, Task.copies, weight_filterMap]
  exact weight_set (fun c : Call => c.acceptedTask?.elim 0 k.copy) hcall c'

theorem map_fst_set {goroutines : List (Task × WorkerPhase)} {j : ℕ} {task : Task}
    {phase : WorkerPhase} (h : goroutines[j]? = some (task, phase)) (phase' : WorkerPhase) :
    (goroutines.set j (task, phase')).map Prod.fst = goroutines.map Prod.fst := by
  have hfst : (goroutines.map Prod.fst)[j]? = some task := by
    rw [List.getElem?_map, h]
    rfl
  obtain ⟨hlt, hj⟩ := List.getElem?_eq_some_iff.mp hfst
  rw [List.map_set]
  simp only [← hj, List.set_getElem_self]

/-- A task that holds a slot moves no other task. -/
theorem work_places {task : Task} {phase phase' : WorkerPhase} {e : WorkerEvent}
    (h : s.work task phase e = some (u, phase')) :
    u.queue = s.queue ∧ u.dispatcher = s.dispatcher ∧ u.calls = s.calls ∧
      u.goroutines = s.goroutines := by
  unfold work at h
  split at h <;> cases h <;> exact ⟨rfl, rfl, rfl, rfl⟩

/-- The task that comes out of the heap is with the dispatch loop. -/
theorem placed_tick (h : s.dispatcher = .selecting) (k : Task) :
    placed k (s.tick config) = placed k s := by
  have hdequeue := PriorityQueue.weight_dequeue k.copy_index s.queue
  have hheld : s.dispatcher.task?.toList = [] := by rw [h]; rfl
  unfold tick
  split
  · rename_i queue hq
    rw [hq] at hdequeue
    simp only [Option.elim_none, Nat.zero_add] at hdequeue
    simp only [placed, Task.copies, started, hdequeue]
  · rename_i task queue hq
    have htask : (if config.limited then Dispatcher.limiting task else .acquiring task).task? =
        some task := by
      split <;> rfl
    rw [hq] at hdequeue
    simp only [Option.elim_some] at hdequeue
    simp only [placed, Task.copies, started, hheld]
    rw [htask, ← hdequeue]
    simp only [Option.toList_some, weight_cons, weight_nil]
    omega

/-- **An accepted task is in the heap, with the dispatch loop or in a goroutine**: what a step
adds to the accepted tasks it adds to one of these places. -/
theorem placed_step {e : PoolEvent} (h : s.step config e = some u) (k : Task) :
    k.copies u.accepted + placed k s = k.copies s.accepted + placed k u := by
  -- a call goes on, and the three places stay as they are
  have hcall : ∀ {t : Pool} {i : ℕ} {c c' : Call}, s.calls[i]? = some c →
      t.calls = s.calls → placed k t = placed k s → c.acceptedTask? = none →
      c'.acceptedTask? = none →
      k.copies (t.setCall i c').accepted + placed k s =
        k.copies s.accepted + placed k (t.setCall i c') := by
    intro t i c c' hc ht hplaced hnone hnone'
    have hset := copies_accepted_setCall (s := t) (by rw [ht]; exact hc) c' k
    have haccepted : t.accepted = s.accepted := by rw [accepted, ht, accepted]
    have hsame : placed k (t.setCall i c') = placed k s := hplaced
    rw [hnone, hnone', haccepted] at hset
    rw [hsame]
    exact congrArg (· + placed k s) hset
  cases takes_of_step h with
  | submit task | submitSync task => 
    simp [accepted, placed, started, List.filterMap_cons, Call.acceptedTask?]
  | refuse hc _ | pass hc _ | refuseSync hc _ | limitSync hc _ | passSync hc _ | describe hc
  | expire hc => exact hcall hc rfl rfl rfl rfl
  | granted hc | denied hc | acquire hc _ => exact hcall hc rfl rfl rfl rfl
  | enqueue hc =>
    rename_i i task
    have hset := copies_accepted_setCall (s := { s with queue := s.queue.enqueue task }) hc
      (.submit task (.returned none)) k
    have hqueue := PriorityQueue.weight_enqueue k.copy_index s.queue task
    simp only [accepted, placed, started, setCall, Task.copies, Call.acceptedTask?,
      Option.toList_none, Option.toList_some, weight_nil, weight_cons] at hset ⊢
    omega
  | callWorks hc hwork =>
    obtain ⟨hqueue, hdispatcher, hcalls, hgoroutines⟩ := work_places hwork
    refine hcall hc hcalls ?_ rfl rfl
    simp only [placed, started, hqueue, hdispatcher, hgoroutines]
  | tick hselecting =>
    have haccepted : (s.tick config).accepted = s.accepted := by
      unfold tick
      split <;> rfl
    rw [placed_tick hselecting, haccepted]
  | dispatchWaited hlimiting =>
    rename_i error task
    obtain ⟨hqueue, hdispatcher, hcalls⟩ := countToken_frame s error
    have hgoroutines : (s.countToken error).goroutines = s.goroutines := by cases error <;> rfl
    simp only [accepted, placed, started, hqueue, hcalls, hgoroutines, hlimiting, Dispatcher.task?]
  | dispatch hacquiring _ =>
    simp only [accepted, placed, started, hacquiring, Dispatcher.task?, Task.copies, List.map_append,
      List.map_cons, List.map_nil, weight_append, Option.toList_some, Option.toList_none, weight_nil]
    omega
  | goroutineWorks hg hwork =>
    rename_i j e task phase phase' t
    obtain ⟨hqueue, hdispatcher, hcalls, hgoroutines⟩ := work_places hwork
    have hstarted : (t.goroutines.set j (task, phase')).map Prod.fst = s.goroutines.map Prod.fst := by
      rw [hgoroutines]
      exact map_fst_set hg phase'
    simp only [accepted, placed, started, hqueue, hdispatcher, hcalls, hstarted]
  | stop _ | stopReturns _ => rfl
  | dispatchLoopReturns hselecting =>
    simp only [accepted, placed, started, hselecting, Dispatcher.task?]

end Pool

/-! ### What the slots and the counters count -/

/-- `1` as long as the semaphore's token has not been given back. -/
def WorkerPhase.slot : WorkerPhase → ℕ
  | .released _ => 0
  | _ => 1

/-- `1` while `ActiveWorkers` counts it. -/
def WorkerPhase.active : WorkerPhase → ℕ
  | .executing | .recorded _ => 1
  | _ => 0

/-- `1` where `Processed` has counted it. -/
def WorkerPhase.processed (phase : WorkerPhase) : ℕ :=
  if phase.result?.any TaskResult.success then 1 else 0

/-- `1` where `Failed` has counted it. -/
def WorkerPhase.failed (phase : WorkerPhase) : ℕ :=
  if phase.result?.any fun r => !r.success then 1 else 0

/-- Where the execution of a call of `SubmitSync` is, once it has a slot. -/
def Call.phase? : Call → Option WorkerPhase
  | .submitSync _ (.working phase) => some phase
  | _ => none

namespace Pool

variable {config : PoolConfig} {s u : Pool}

/-- The sum of `f` over the goroutines and the calls that have got a slot. -/
def share (f : WorkerPhase → ℕ) (s : Pool) : ℕ :=
  weight (fun g => f g.2) s.goroutines + weight (fun c => c.phase?.elim 0 f) s.calls

/-- The semaphore and the counters say what the tasks that have got a slot have done. -/
structure WorkersCounted (config : PoolConfig) (s : Pool) : Prop where
  /-- The tokens in the semaphore are those of the tasks that hold a slot. -/
  slots : s.sem = s.share WorkerPhase.slot
  /-- The semaphore has room for `Workers` tokens. -/
  room : s.sem ≤ config.workers
  /-- `ActiveWorkers` counts the tasks that are being executed. -/
  active : s.stats.activeWorkers = s.share WorkerPhase.active
  /-- `Processed` counts the executions that succeeded. -/
  processed : s.stats.processed = s.share WorkerPhase.processed
  /-- `Failed` counts the executions that failed. -/
  failed : s.stats.failed = s.share WorkerPhase.failed

/-- What a step does to the slots and the counters. -/
inductive WorkersStep (config : PoolConfig) (s u : Pool) : Prop where
  /-- No task gets a slot, and none that has got one goes on. -/
  | idle : (∀ f, u.share f = s.share f) → u.stats = s.stats → u.sem = s.sem → WorkersStep config s u
  /-- A task gets a slot. -/
  | takesSlot : (∀ f, u.share f = s.share f + f .holding) → u.stats = s.stats →
      u.sem = s.sem + 1 → s.sem < config.workers → WorkersStep config s u
  /-- A task that has got a slot goes on. -/
  | works {task : Task} {phase phase' : WorkerPhase} {e : WorkerEvent} {t : Pool} :
      s.work task phase e = some (t, phase') →
      (∀ f, u.share f + f phase = s.share f + f phase') →
      u.stats = t.stats → u.sem = t.sem → WorkersStep config s u

/-- A call goes on, and its share for the new one. -/
theorem share_setCall {i : ℕ} {c : Call} (hcall : s.calls[i]? = some c) (c' : Call)
    (f : WorkerPhase → ℕ) :
    (s.setCall i c').share f + c.phase?.elim 0 f = s.share f + c'.phase?.elim 0 f := by
  have hset := weight_set (fun c : Call => c.phase?.elim 0 f) hcall c'
  simp only [share, setCall]
  omega

/-- **What a step does** to the slots and the counters. -/
theorem workersStep_of_step {e : PoolEvent} (h : s.step config e = some u) :
    WorkersStep config s u := by
  -- a call without a slot goes on to one without a slot
  have hcall : ∀ {i : ℕ} {c c' : Call}, s.calls[i]? = some c → c.phase? = none →
      c'.phase? = none → ∀ f, (s.setCall i c').share f = s.share f := by
    intro i c c' hc hnone hnone' f
    have := share_setCall hc c' f
    rw [hnone, hnone'] at this
    exact this
  cases takes_of_step h with
  | submit task | submitSync task =>
    exact .idle (fun f => by simp [share, Call.phase?]) rfl rfl
  | refuse hc _ | pass hc _ | refuseSync hc _ | limitSync hc _ | passSync hc _ | describe hc
  | expire hc | enqueue hc | granted hc | denied hc =>
    exact .idle (hcall hc rfl rfl) rfl rfl
  | acquire hc hslot =>
    refine .takesSlot (fun f => ?_) rfl rfl hslot
    exact share_setCall (s := s) hc _ f
  | callWorks hc hwork =>
    rename_i i e task phase phase' t
    obtain ⟨-, -, hcalls, hgoroutines⟩ := work_places hwork
    refine .works hwork (fun f => ?_) rfl rfl
    have hset := share_setCall hc (.submitSync task (.working phase')) f
    simp only [share, setCall, Call.phase?, Option.elim_some, hcalls, hgoroutines] at hset ⊢
    exact hset
  | tick hselecting =>
    refine .idle (fun f => ?_) ?_ ?_ <;> unfold tick <;> split <;> rfl
  | dispatchWaited hlimiting =>
    rename_i error task
    exact .idle (fun f => by cases error <;> rfl) (by cases error <;> rfl) (by cases error <;> rfl)
  | dispatch hacquiring hslot =>
    refine .takesSlot (fun f => ?_) rfl rfl hslot
    simp only [share, weight_append, weight_cons, weight_nil]
    omega
  | goroutineWorks hg hwork =>
    rename_i j e task phase phase' t
    obtain ⟨-, -, hcalls, hgoroutines⟩ := work_places hwork
    refine .works hwork (fun f => ?_) rfl rfl
    have hset := weight_set (fun g : Task × WorkerPhase => f g.2) hg (task, phase')
    dsimp only at hset
    simp only [share, hcalls, hgoroutines]
    omega
  | stop _ | stopReturns _ | dispatchLoopReturns _ => exact .idle (fun f => rfl) rfl rfl

/-- At most `Workers` tasks are being executed. -/
theorem WorkersCounted.activeWorkers_le (hs : WorkersCounted config s) :
    s.stats.activeWorkers ≤ config.workers := by
  have hle : s.share WorkerPhase.active ≤ s.share WorkerPhase.slot := by
    have hphase : ∀ phase : WorkerPhase, phase.active ≤ phase.slot := by
      intro phase
      cases phase <;> simp [WorkerPhase.active, WorkerPhase.slot]
    refine Nat.add_le_add (weight_le_weight fun g _ => hphase g.2) (weight_le_weight fun c _ => ?_)
    cases c.phase? with
    | none => exact Nat.le_refl _
    | some phase => exact hphase phase
  have hslots := hs.slots
  have hroom := hs.room
  rw [hs.active]
  omega

/-- A task that goes on is counted where it gets to. -/
theorem work_counts {task : Task} {phase phase' : WorkerPhase} {e : WorkerEvent}
    (h : s.work task phase e = some (u, phase')) (hslot : phase.slot ≤ s.sem + phase'.slot) :
    u.sem + phase.slot = s.sem + phase'.slot ∧
      u.stats.activeWorkers + phase.active = s.stats.activeWorkers + phase'.active ∧
      u.stats.processed + phase.processed = s.stats.processed + phase'.processed ∧
      u.stats.failed + phase.failed = s.stats.failed + phase'.failed := by
  unfold work at h
  split at h
  · cases h
    simp [WorkerPhase.slot, WorkerPhase.active, WorkerPhase.processed, WorkerPhase.failed,
      WorkerPhase.result?]
  · rename_i outcome duration
    cases h
    cases outcome <;>
      simp [WorkerPhase.slot, WorkerPhase.active, WorkerPhase.processed, WorkerPhase.failed,
        WorkerPhase.result?, Stats.record, Stats.recordLatency, executedResult]
  · cases h
    refine ⟨rfl, ?_, rfl, rfl⟩
    simp [WorkerPhase.active]
  · cases h
    simp only [WorkerPhase.slot, Nat.add_zero] at hslot
    refine ⟨?_, rfl, rfl, rfl⟩
    simp only [WorkerPhase.slot]
    omega
  · cases h

/-- No task gets a slot by going on. -/
theorem slot_of_work {task : Task} {phase phase' : WorkerPhase} {e : WorkerEvent}
    (h : s.work task phase e = some (u, phase')) : phase'.slot ≤ phase.slot := by
  unfold work at h
  split at h <;> cases h <;> simp [WorkerPhase.slot]

theorem workersCounted_initial : WorkersCounted config {} :=
  ⟨rfl, Nat.zero_le _, rfl, rfl, rfl⟩

/-- **The slots and the counters stay true** to what the tasks have done. -/
theorem workersCounted_step {e : PoolEvent} (hs : WorkersCounted config s)
    (h : s.step config e = some u) : WorkersCounted config u := by
  obtain ⟨hslots, hroom, hactive, hprocessed, hfailed⟩ := hs
  cases workersStep_of_step h with
  | idle hshare hstats hsem =>
    exact ⟨by rw [hshare, hsem, hslots], by rw [hsem]; exact hroom, by rw [hshare, hstats, hactive],
      by rw [hshare, hstats, hprocessed], by rw [hshare, hstats, hfailed]⟩
  | takesSlot hshare hstats hsem hlt =>
    refine ⟨?_, ?_, ?_, ?_, ?_⟩
    · rw [hshare, hsem, hslots]
      rfl
    · rw [hsem]
      exact hlt
    · rw [hshare, hstats, hactive]
      rfl
    · rw [hshare, hstats, hprocessed]
      rfl
    · rw [hshare, hstats, hfailed]
      rfl
  | works hwork hshare hstats hsem =>
    rename_i task phase phase' e t
    have h1 := hshare WorkerPhase.slot
    have h2 := hshare WorkerPhase.active
    have h3 := hshare WorkerPhase.processed
    have h4 := hshare WorkerPhase.failed
    obtain ⟨hsem', hactive', hprocessed', hfailed'⟩ := work_counts hwork (by omega)
    have hroom' : phase'.slot ≤ phase.slot := slot_of_work hwork
    refine ⟨?_, ?_, ?_, ?_, ?_⟩
    · omega
    · omega
    · rw [hstats]
      omega
    · rw [hstats]
      omega
    · rw [hstats]
      omega

/-! ### Shutting down -/

/-- Who changes the flags of a shutdown. -/
theorem flags_step {e : PoolEvent} (h : s.step config e = some u) :
    (u.stopping = s.stopping ∨ u.stopping = true) ∧ (u.stopped = s.stopped ∨ e = .stopReturns) ∧
      (u.dispatcher = .returned → s.dispatcher = .returned ∨ e = .dispatchLoopReturns) := by
  cases takes_of_step h with
  | callWorks hc hwork | goroutineWorks hg hwork =>
    unfold work at hwork
    split at hwork <;> cases hwork <;> exact ⟨.inl rfl, .inl rfl, .inl⟩
  | tick hd =>
    unfold tick
    split
    · exact ⟨.inl rfl, .inl rfl, .inl⟩
    · refine ⟨.inl rfl, .inl rfl, fun hr => ?_⟩
      dsimp only at hr
      split at hr <;> cases hr
  | dispatchWaited hd =>
    rename_i error task
    cases error <;> exact ⟨.inl rfl, .inl rfl, fun hr => Dispatcher.noConfusion hr⟩
  | dispatch hd _ => exact ⟨.inl rfl, .inl rfl, fun hr => Dispatcher.noConfusion hr⟩
  | stop _ => exact ⟨.inr rfl, .inl rfl, .inl⟩
  | dispatchLoopReturns _ => exact ⟨.inl rfl, .inl rfl, fun _ => .inr rfl⟩
  | stopReturns _ => exact ⟨.inl rfl, .inr rfl, .inl⟩
  | _ => exact ⟨.inl rfl, .inl rfl, .inl⟩

theorem stopping_of_dispatchLoopReturns (h : s.step config .dispatchLoopReturns = some u) :
    s.stopping = true := by
  simp only [step] at h
  split at h
  · split at h
    · assumption
    · cases h
  · cases h

theorem finished_of_stopReturns (h : s.step config .stopReturns = some u) :
    s.goroutines.all finished = true := by
  simp only [step] at h
  split at h
  · split at h
    · rename_i hall
      exact (Bool.and_eq_true_iff.mp hall).1
    · cases h
  · cases h

/-- No goroutine is started once the dispatch loop has returned, and those that have returned
do nothing. -/
theorem returned_step {e : PoolEvent} (hs : s.dispatcher = .returned)
    (h : s.step config e = some u) :
    u.dispatcher = .returned ∧ u.started = s.started ∧
      (s.goroutines.all finished = true → u.goroutines = s.goroutines) := by
  cases takes_of_step h with
  | tick hd | dispatchWaited hd | dispatch hd _ | dispatchLoopReturns hd =>
    rw [hs] at hd
    cases hd
  | goroutineWorks hg hwork =>
    rename_i j e task phase phase' t
    obtain ⟨-, hdispatcher, -, hgoroutines⟩ := work_places hwork
    refine ⟨hdispatcher.trans hs, ?_, ?_⟩
    · simp only [started, hgoroutines]
      exact map_fst_set hg phase'
    · intro hall
      have hfinished := List.all_eq_true.mp hall _ (List.mem_of_getElem? hg)
      unfold work at hwork
      split at hwork <;> first | cases hfinished | cases hwork
  | callWorks hc hwork =>
    obtain ⟨-, hdispatcher, -, hgoroutines⟩ := work_places hwork
    refine ⟨hdispatcher.trans hs, ?_, fun _ => hgoroutines⟩
    simp only [started, setCall, hgoroutines]
  | granted _ | denied _ => exact ⟨hs, rfl, fun _ => rfl⟩
  | _ => exact ⟨hs, rfl, fun _ => rfl⟩

end Pool

/-- A pool together with the tasks that were accepted before `Stop` was called. -/
structure Watched where
  pool : Pool := {}
  /-- The tasks for which `Submit` had returned `nil` when `Stop` was called, or has so far. -/
  before : List Task := []

/-- Each task accepted before `Stop` has been executed and counted exactly once. -/
structure ExecutedOnce (before : List Task) (s : Pool) : Prop where
  /-- Each of them has been executed. -/
  executed : ∀ k : Task, k.copies before ≤ k.copies s.executed
  /-- No task is executed more often than it was accepted. -/
  once : ∀ k : Task, k.copies s.executed ≤ k.copies s.accepted
  /-- Each execution is counted once, as `Processed` or as `Failed`. -/
  counted : ∀ g ∈ s.goroutines, g.2.processed + g.2.failed = 1
  /-- `Processed` counts nothing else but the calls of `SubmitSync`. -/
  processed : s.stats.processed = s.share WorkerPhase.processed
  /-- `Failed` counts nothing else but the calls of `SubmitSync`. -/
  failed : s.stats.failed = s.share WorkerPhase.failed

namespace Watched

/-- One step; once `Stop` has been called, no task is accepted before it. -/
def step (config : PoolConfig) (w : Watched) (e : PoolEvent) : Option Watched :=
  (w.pool.step config e).map fun s =>
    { pool := s, before := if s.stopping then w.before else s.accepted }

/-- A dispatch loop that returns leaves no task in the heap that was accepted before `Stop`: the
queued copies of such a task have all been accepted since. -/
def LeavesNone (w : Watched) : PoolEvent → Prop
  | .dispatchLoopReturns => ∀ k ∈ w.before,
    Task.copies k w.before + Task.copies k w.pool.queue.items.toList ≤ Task.copies k w.pool.accepted
  | _ => True

instance (w : Watched) (e : PoolEvent) : Decidable (w.LeavesNone e) :=
  match e with
  | .dispatchLoopReturns => List.decidableBAll _ _
  | .submit _ | .submitSync _ | .check _ | .describe _ | .enqueue _ | .waited _ _ | .acquire _
  | .expire _ | .callWorks _ _ | .tick | .dispatchWaited _ | .dispatch | .goroutineWorks _ _ | .stop
  | .stopReturns => instDecidableTrue

variable {config : PoolConfig} {w v : Watched}

/-- Watching a pool does not keep it from anything: each of its runs is watched. -/
theorem exists_watched {s : Pool} (h : Reachable (Pool.step config) {} s) :
    ∃ w, Reachable (step config) {} w ∧ w.pool = s := by
  induction h with
  | refl => exact ⟨{}, .refl, rfl⟩
  | next e _ _ he ih =>
    obtain ⟨w, hw, rfl⟩ := ih
    exact ⟨_, hw.next e trivial (Option.map_eq_some_iff.mpr ⟨_, he, rfl⟩), rfl⟩

/-- What holds of a watched pool as long as its loop leaves no task of before `Stop` behind. -/
structure Sound (config : PoolConfig) (w : Watched) : Prop where
  /-- The slots and the counters are true. -/
  workers : w.pool.WorkersCounted config
  /-- An accepted task is in one place. -/
  places : ∀ k : Task, k.copies w.pool.accepted = w.pool.placed k
  /-- When the loop has returned, a goroutine has been started for each task of before `Stop`. -/
  returned : w.pool.dispatcher = .returned →
    w.pool.stopping = true ∧ ∀ k : Task, k.copies w.before ≤ k.copies w.pool.started
  /-- When `Stop` has returned, the goroutines have. -/
  stopped : w.pool.stopped = true →
    w.pool.dispatcher = .returned ∧ w.pool.goroutines.all Pool.finished = true

theorem sound_initial : Sound config {} where
  workers := Pool.workersCounted_initial
  places _ := rfl
  returned h := Dispatcher.noConfusion h
  stopped h := Bool.noConfusion h

/-- A goroutine has been started for each task of before `Stop` that the loop does not leave
in the heap. -/
theorem started_of_leavesNone (hplaces : ∀ k : Task, k.copies w.pool.accepted = w.pool.placed k)
    (hselecting : w.pool.dispatcher = .selecting) (hok : w.LeavesNone .dispatchLoopReturns) (k : Task) :
    k.copies w.before ≤ k.copies w.pool.started := by
  rcases Nat.eq_zero_or_pos (k.copies w.before) with hzero | hpos
  · exact hzero ▸ Nat.zero_le _
  · obtain ⟨t, ht, hcopy⟩ := exists_mem_of_weight_pos hpos
    have his : k.isCopy t = true := by
      unfold Task.copy at hcopy
      split at hcopy
      · assumption
      · cases hcopy
    have hleft := hok t ht
    have hplace := hplaces t
    simp only [Pool.placed, hselecting, Dispatcher.task?] at hplace
    rw [Task.copies_eq_of_isCopy his, Task.copies_eq_of_isCopy his]
    simp only [Option.toList_none, Task.copies, weight_nil] at hplace hleft ⊢
    omega

theorem sound_step {e : PoolEvent} (hw : Sound config w) (hok : w.LeavesNone e)
    (h : w.step config e = some v) : Sound config v := by
  obtain ⟨hworkers, hplaces, hreturned, hstopped⟩ := hw
  obtain ⟨u, hu, rfl⟩ := Option.map_eq_some_iff.mp h
  obtain ⟨hstopping', hstopped', hreturned'⟩ := Pool.flags_step hu
  refine ⟨Pool.workersCounted_step hworkers hu, ?_, ?_, ?_⟩
  · intro k
    have hplaced := Pool.placed_step hu k
    have := hplaces k
    dsimp only
    omega
  · intro hr
    rcases hreturned' hr with hs | rfl
    · obtain ⟨hstopping, hstarted⟩ := hreturned hs
      have hu' : u.stopping = true := hstopping'.elim (·.trans hstopping) id
      obtain ⟨-, hsame, -⟩ := Pool.returned_step hs hu
      simp only [hu', if_true, hsame, true_and]
      exact hstarted
    · have hstopping := Pool.stopping_of_dispatchLoopReturns hu
      cases Pool.takes_of_step hu with
      | dispatchLoopReturns hselecting =>
        simp only [hstopping, if_true, true_and]
        exact started_of_leavesNone hplaces hselecting hok
  · intro hs
    rcases hstopped' with hsame | rfl
    · obtain ⟨hr, hall⟩ := hstopped (hsame ▸ hs)
      obtain ⟨hr', -, hgoroutines⟩ := Pool.returned_step hr hu
      refine ⟨hr', ?_⟩
      dsimp only
      rw [hgoroutines hall]
      exact hall
    · have hall := Pool.finished_of_stopReturns hu
      cases Pool.takes_of_step hu with
      | stopReturns hr => exact ⟨hr, hall⟩

theorem sound_of_reaches (h : Reaches (step config) LeavesNone {} w) : Sound config w :=
  h.invariant sound_initial fun _ _ _ hs hok hstep => sound_step hs hok hstep

theorem executed_of_finished {s : Pool} (h : s.goroutines.all Pool.finished = true) :
    s.executed = s.started := by
  rw [Pool.executed, List.filter_eq_self.mpr (List.all_eq_true.mp h), Pool.started]

/-- A goroutine that has returned has been counted once. -/
theorem counted_of_finished {s : Pool} (hs : s.goroutines.all Pool.finished = true) :
    ∀ g ∈ s.goroutines, g.2.processed + g.2.failed = 1 := by
  rintro ⟨task, phase⟩ hg
  have hfinished := List.all_eq_true.mp hs _ hg
  cases phase with
  | released result =>
    cases hsuccess : result.success <;>
      simp [WorkerPhase.processed, WorkerPhase.failed, WorkerPhase.result?, hsuccess]
  | _ => cases hfinished

theorem Sound.executedOnce (hw : Sound config w) (hs : w.pool.stopped = true) :
    ExecutedOnce w.before w.pool := by
  obtain ⟨hreturned, hall⟩ := hw.stopped hs
  obtain ⟨-, hstarted⟩ := hw.returned hreturned
  have hexecuted := executed_of_finished hall
  refine ⟨?_, ?_, counted_of_finished hall, hw.workers.processed, hw.workers.failed⟩
  · intro k
    rw [hexecuted]
    exact hstarted k
  · intro k
    rw [hexecuted, hw.places k, Pool.placed]
    exact Nat.le_add_left _ _

/-- A run whose dispatch loop has not returned has left nothing behind. -/
theorem reaches_of_running (h : Reachable (step config) {} w) (hw : w.pool.dispatcher ≠ .returned) :
    Reaches (step config) LeavesNone {} w := by
  induction h with
  | refl => exact .refl
  | next e h _ hstep ih =>
    obtain ⟨u, hu, rfl⟩ := Option.map_eq_some_iff.mp hstep
    have hprev : _ ≠ Dispatcher.returned := fun hr => hw (Pool.returned_step hr hu).1
    refine (ih hprev).next e ?_ hstep
    cases e with
    | dispatchLoopReturns =>
      cases Pool.takes_of_step hu with
      | dispatchLoopReturns _ => exact absurd rfl hw
    | _ => trivial

/-- `Stop` leaves a task behind for which no goroutine has been started. -/
def Left (w : Watched) : Prop :=
  w.pool.dispatcher = .returned ∧ w.pool.stopping = true ∧
    ∃ k : Task, k.copies w.pool.started < k.copies w.before

theorem left_step {e : PoolEvent} (hw : w.Left) (h : w.step config e = some v) : v.Left := by
  obtain ⟨hreturned, hstopping, k, hk⟩ := hw
  obtain ⟨u, hu, rfl⟩ := Option.map_eq_some_iff.mp h
  obtain ⟨hreturned', hstarted, -⟩ := Pool.returned_step hreturned hu
  obtain ⟨hstopping', -, -⟩ := Pool.flags_step hu
  have hu' : u.stopping = true := hstopping'.elim (·.trans hstopping) id
  refine ⟨hreturned', hu', k, ?_⟩
  simp only [hstarted, hu', if_true]
  exact hk

theorem copies_executed_le (s : Pool) (k : Task) : k.copies s.executed ≤ k.copies s.started := by
  simp only [Task.copies, Pool.executed, Pool.started, weight_map]
  exact weight_filter_le _ _ _

theorem left_of_not_leavesNone (hw : Sound config w) (hselecting : w.pool.dispatcher = .selecting)
    (hv : w.step config .dispatchLoopReturns = some v) (hnot : ¬ w.LeavesNone .dispatchLoopReturns) :
    v.Left := by
  obtain ⟨u, hu, rfl⟩ := Option.map_eq_some_iff.mp hv
  have hstopping := Pool.stopping_of_dispatchLoopReturns hu
  simp only [LeavesNone, not_forall, not_le] at hnot
  obtain ⟨k, -, hk⟩ := hnot
  have hplace := hw.places k
  simp only [Pool.placed, hselecting, Dispatcher.task?, Option.toList_none, Task.copies,
    weight_nil] at hplace hk
  cases Pool.takes_of_step hu with
  | dispatchLoopReturns _ =>
    refine ⟨rfl, hstopping, k, ?_⟩
    simp only [hstopping, if_true, Pool.started, Task.copies] at hplace hk ⊢
    omega

/-- **Exactly where the loop leaves no task of before `Stop` in the heap**, each of these tasks
has been executed and counted exactly once when `Stop` returns. -/
theorem executedOnce_iff {z : Watched} (hw : Reachable (step config) {} w)
    (hv : w.step config .dispatchLoopReturns = some v) (hz : Reachable (step config) v z)
    (hs : z.pool.stopped = true) :
    ExecutedOnce z.before z.pool ↔ w.LeavesNone .dispatchLoopReturns := by
  have hselecting : w.pool.dispatcher = .selecting ∧ v.pool.dispatcher = .returned := by
    obtain ⟨u, hu, rfl⟩ := Option.map_eq_some_iff.mp hv
    cases Pool.takes_of_step hu with
    | dispatchLoopReturns h => exact ⟨h, rfl⟩
  obtain ⟨hselecting, hreturned⟩ := hselecting
  have hsound : Sound config w := by
    refine sound_of_reaches (reaches_of_running hw ?_)
    rw [hselecting]
    exact Dispatcher.noConfusion
  constructor
  · intro hexecuted
    by_contra hnot
    have hleft : z.Left := hz.invariant (left_of_not_leavesNone hsound hselecting hv hnot)
      fun _ _ _ ht _ hstep => left_step ht hstep
    obtain ⟨-, -, k, hk⟩ := hleft
    have h1 := hexecuted.executed k
    have h2 := copies_executed_le z.pool k
    omega
  · intro hok
    have hz' : Sound config z ∧ z.pool.dispatcher = .returned := by
      refine hz.invariant (P := fun t => Sound config t ∧ t.pool.dispatcher = .returned)
        ⟨sound_step hsound hok hv, hreturned⟩ ?_
      rintro t e t' ⟨ht, hr⟩ - hstep
      obtain ⟨u, hu, rfl⟩ := Option.map_eq_some_iff.mp hstep
      refine ⟨sound_step ht ?_ hstep, (Pool.returned_step hr hu).1⟩
      cases e with
      | dispatchLoopReturns =>
        cases Pool.takes_of_step hu with
        | dispatchLoopReturns h => exact Dispatcher.noConfusion (h.symm.trans hr)
      | _ => trivial
    exact hz'.1.executedOnce hs

/-- **Every run of the pool keeps at most `Workers` tasks executing, and a run whose loop leaves
no task of before `Stop` behind executes and counts each of them exactly once.** -/
theorem accepted_executed_once (config : PoolConfig) :
    (∀ s, Reachable (Pool.step config) {} s → s.stats.activeWorkers ≤ config.workers) ∧
      ∀ w, Reaches (step config) LeavesNone {} w → w.pool.stopped = true →
        ExecutedOnce w.before w.pool := by
  constructor
  · intro s h
    have hs : s.WorkersCounted config := h.invariant Pool.workersCounted_initial
      fun _ _ _ ht _ hstep => Pool.workersCounted_step ht hstep
    exact hs.activeWorkers_le
  · intro w h hs
    exact (sound_of_reaches h).executedOnce hs

/-- A pool with one worker. -/
def oneWorker : PoolConfig := { name := "batch", workers := 1, maxQueue := 100 }

/-- The steps of a task that has got a slot, up to the last. -/
def works : List WorkerEvent := [.start, .finish (.ok []) 5, .leave, .release]

theorem accepted_executed_once_for_two : ∃ w : Watched, w.pool.stopped = true ∧
    w.before = [{ id := "1" }, { id := "2" }] ∧ ExecutedOnce w.before w.pool := by
  obtain ⟨w, h, hview⟩ := exists_reaches_of_runEvents (step oneWorker) LeavesNone
    (fun w => (w.pool.stopped, w.before)) (s := {})
    ([.submit { id := "1" }, .check 0, .enqueue 0, .submit { id := "2" }, .check 1, .enqueue 1,
      .stop, .tick, .dispatch] ++ works.map (.goroutineWorks 0) ++ [.tick, .dispatch] ++
      works.map (.goroutineWorks 1) ++ [.dispatchLoopReturns, .stopReturns])
    (true, [{ id := "1" }, { id := "2" }]) (by decide +kernel)
  obtain ⟨hs, hbefore⟩ := Prod.mk.inj hview
  exact ⟨w, hs, hbefore, (accepted_executed_once oneWorker).2 w h hs⟩

/-- `Stop` returns with an accepted task in the heap. -/
theorem accepted_not_executed : ∃ w : Watched, Reachable (step oneWorker) {} w ∧
    w.pool.stopped = true ∧ ¬ ExecutedOnce w.before w.pool := by
  obtain ⟨w, h, hview⟩ := exists_reaches_of_runEvents (step oneWorker) (fun _ _ => True)
    (fun w => (w.pool.stopped, w.before, w.pool.executed)) (s := {})
    [.submit { id := "1" }, .check 0, .enqueue 0, .stop, .dispatchLoopReturns, .stopReturns]
    (true, [{ id := "1" }], []) (by decide +kernel)
  obtain ⟨hs, hview⟩ := Prod.mk.inj hview
  obtain ⟨hbefore, hexecuted⟩ := Prod.mk.inj hview
  refine ⟨w, h, hs, fun honce => ?_⟩
  have := honce.executed { id := "1" }
  rw [hbefore, hexecuted] at this
  exact absurd this (by decide)

end Watched

end BulkTraffic.GoEngine
