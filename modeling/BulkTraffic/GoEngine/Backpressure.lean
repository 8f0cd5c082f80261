import BulkTraffic.GoEngine.Pool
import BulkTraffic.Lib.Runs
import BulkTraffic.Lib.Weight

/-!
# How many tasks of a pool wait

`MaxQueue` bounds the queue at the moment a call reads its length. The tasks that have been
accepted and hold no slot yet are more: `dispatch` has one in its hands, calls of `SubmitSync`
wait outside of the queue, and calls of `Submit` add their tasks some time after the check.

* `waiting`: the tasks accepted and without a slot.
* `outside`: the accepted tasks that the length of the queue leaves out.
* `promised_step`: only a check that finds room promises one more place.
* `backpressure`: the bound, in runs that check the length while it leaves out no task.
-/

namespace BulkTraffic.GoEngine.Pool

open BulkTraffic.Lib

variable {config : PoolConfig} {s u : Pool}

/-- Does a call of `SubmitSync` wait for the limiter or the semaphore? -/
def callWaits : Call → ℕ
  | .submitSync _ .limiting | .submitSync _ .acquiring => 1
  | _ => 0

/-- Does `dispatch` wait for the limiter or the semaphore? -/
def dispatcherWaits : Dispatcher → ℕ
  | .limiting _ | .acquiring _ => 1
  | .selecting | .returned => 0

/-- The tasks that have been accepted and hold no slot yet. -/
def waiting (s : Pool) : ℕ :=
  s.queue.queueLen + dispatcherWaits s.dispatcher + weight callWaits s.calls

/-- Does a call hold an accepted task that is in no queue? `SubmitSync` does until it gets a
slot, `Submit` does between its check and its `Enqueue`. -/
def callOutside : Call → ℕ
  | .submit _ .admitted | .submitSync _ .limiting | .submitSync _ .acquiring => 1
  | _ => 0

/-- The accepted tasks without a slot that the length of the queue leaves out. -/
def outside (s : Pool) : ℕ := dispatcherWaits s.dispatcher + weight callOutside s.calls

/-- A call that reads the length of the queue finds it full, or finds every accepted task in it. -/
def checksAll (config : PoolConfig) (s : Pool) : PoolEvent → Bool
  | .check _ => decide (config.maxQueue ≤ s.queue.queueLen) || s.outside == 0
  | _ => true

/-- The places of the queue that are taken or promised. -/
def promised (s : Pool) : ℕ := s.queue.queueLen + s.outside

/-- Does a check find room? -/
def passes (config : PoolConfig) (s : Pool) : PoolEvent → Bool
  | .check _ => decide ((s.queue.queueLen : ℤ) < config.maxQueue)
  | _ => false

/-- The check refused the call: `Submit` goes on to its error, `SubmitSync` has returned its. -/
def RefusedAsFull (config : PoolConfig) : Call → Prop
  | .submit _ .refusing => True
  | .submitSync task (.refused result) => result = refusedResult task (queueFullSync config)
  | _ => False

/-- If a call of `Submit` has returned an error, it is that the queue is full. -/
def ErrorIsFull (config : PoolConfig) : Call → Prop
  | .submit _ (.returned (some error)) => ∃ queueLen, error = queueFull config queueLen
  | _ => True

/-! ### What a step does to the places promised -/

theorem waiting_le_promised (s : Pool) : s.waiting ≤ s.promised := by
  have hcalls : weight callWaits s.calls ≤ weight callOutside s.calls := by
    refine weight_le_weight fun call _ => ?_
    unfold callWaits callOutside
    split <;> split <;> simp_all
  simp only [waiting, promised, outside]
  omega

theorem work_frame {task : Task} {phase phase' : WorkerPhase} {e : WorkerEvent}
    (h : s.work task phase e = some (u, phase')) :
    u.queue = s.queue ∧ u.dispatcher = s.dispatcher ∧ u.calls = s.calls := by
  unfold work at h
  split at h <;> cases h <;> exact ⟨rfl, rfl, rfl⟩

theorem countToken_frame (s : Pool) (error : Option String) :
    (s.countToken error).queue = s.queue ∧ (s.countToken error).dispatcher = s.dispatcher ∧
      (s.countToken error).calls = s.calls := by
  cases error <;> exact ⟨rfl, rfl, rfl⟩

/-- A call moves on while the queue and the dispatch loop stay as they are. -/
theorem promised_setCall {i : ℕ} {call : Call} (hcall : s.calls[i]? = some call) (call' : Call)
    (hu : u.queue = s.queue ∧ u.dispatcher = s.dispatcher ∧ u.calls = s.calls) :
    (u.setCall i call').promised + callOutside call = s.promised + callOutside call' := by
  obtain ⟨hqueue, hdispatcher, hcalls⟩ := hu
  have := weight_set callOutside hcall call'
  simp only [promised, outside, setCall, hqueue, hdispatcher, hcalls]
  omega

/-- The task that the dispatch loop takes keeps its place. -/
theorem promised_tick (h : s.dispatcher = .selecting) : (s.tick config).promised = s.promised := by
  have hlen := PriorityQueue.queueLen_dequeue s.queue
  have hsome := PriorityQueue.isSome_dequeue s.queue
  unfold tick
  split
  · rename_i queue hdequeue
    rw [hdequeue] at hlen hsome
    have : ¬ 0 < s.queue.queueLen := of_decide_eq_false hsome.symm
    dsimp only at hlen
    simp only [promised, outside]
    omega
  · rename_i task queue hdequeue
    rw [hdequeue] at hlen hsome
    have : 0 < s.queue.queueLen := of_decide_eq_true hsome.symm
    have hwaits : dispatcherWaits (if config.limited then .limiting task else .acquiring task) = 1 := by
      split <;> rfl
    dsimp only at hlen
    simp only [promised, outside]
    rw [hwaits, h, dispatcherWaits]
    omega

/-- **Only a check that finds room promises one more place.** -/
theorem promised_step {e : PoolEvent} (h : s.step config e = some u) :
    if s.passes config e then u.promised = s.promised + 1 else u.promised ≤ s.promised := by
  have hsame : s.queue = s.queue ∧ s.dispatcher = s.dispatcher ∧ s.calls = s.calls := ⟨rfl, rfl, rfl⟩
  cases takes_of_step h with
  | submit task => simp [passes, promised, outside, callOutside]
  | submitSync task => simp [passes, promised, outside, callOutside]
  | refuse hcall hfull | refuseSync hcall hfull =>
    simp only [passes, decide_eq_false (Int.not_lt.mpr hfull), Bool.false_eq_true, if_false]
    exact Nat.le_of_eq (promised_setCall hcall _ hsame)
  | pass hcall hroom | limitSync hcall hroom | passSync hcall hroom =>
    simp only [passes, decide_eq_true (Int.not_le.mp hroom), if_true]
    exact promised_setCall hcall _ hsame
  | describe hcall => exact Nat.le_of_eq (promised_setCall hcall _ hsame)
  | enqueue hcall =>
    -- the task moves from the call into the queue
    rename_i i task
    have := weight_set callOutside hcall (.submit task (.returned none))
    simp only [callOutside] at this
    simp only [passes, Bool.false_eq_true, if_false, promised, outside, setCall,
      PriorityQueue.queueLen_enqueue]
    omega
  | @granted i task hcall =>
    have := promised_setCall hcall (.submitSync task .acquiring) (countToken_frame s none)
    simp only [callOutside] at this
    simp only [passes, Bool.false_eq_true, if_false]
    omega
  | @denied i task message hcall =>
    have := promised_setCall hcall
      (.submitSync task (.refused (refusedResult task s!"rate limit: {message}")))
      (countToken_frame s (some message))
    simp only [callOutside] at this
    simp only [passes, Bool.false_eq_true, if_false]
    omega
  | @acquire i task hcall _ =>
    have := promised_setCall (u := { s with sem := s.sem + 1 }) hcall
      (.submitSync task (.working .holding)) ⟨rfl, rfl, rfl⟩
    simp only [callOutside] at this
    simp only [passes, Bool.false_eq_true, if_false]
    omega
  | @expire i task hcall =>
    have := promised_setCall hcall
      (.submitSync task (.refused (refusedResult task "timeout waiting for worker"))) hsame
    simp only [callOutside] at this
    simp only [passes, Bool.false_eq_true, if_false]
    omega
  | callWorks hcall hwork => exact Nat.le_of_eq (promised_setCall hcall _ (work_frame hwork))
  | tick hselecting => exact Nat.le_of_eq (promised_tick hselecting)
  | @dispatchWaited error task hlimiting =>
    obtain ⟨hqueue, -, hcalls⟩ := countToken_frame s error
    simp [passes, promised, outside, hqueue, hcalls, hlimiting, dispatcherWaits]
  | dispatch hacquiring _ => simp [passes, promised, outside, hacquiring, dispatcherWaits]
  | goroutineWorks _ hwork =>
    obtain ⟨hqueue, hdispatcher, hcalls⟩ := work_frame hwork
    simp [passes, promised, outside, hqueue, hdispatcher, hcalls]
  | stop _ | stopReturns _ => exact Nat.le_refl _
  | dispatchLoopReturns hselecting => simp [passes, promised, outside, hselecting, dispatcherWaits]

/-! ### The errors -/

/-- A check that finds no room refuses the call. -/
theorem refused_of_check {i : ℕ} (hfull : config.maxQueue ≤ s.queue.queueLen)
    (h : s.step config (.check i) = some u) : ∃ call, u.calls[i]? = some call ∧ RefusedAsFull config call := by
  have hset : ∀ {call : Call} (call' : Call), s.calls[i]? = some call →
      (s.setCall i call').calls[i]? = some call' := by
    intro call call' hcall
    have hlt : i < s.calls.length := (List.getElem?_eq_some_iff.mp hcall).1
    simp [setCall, hlt]
  cases takes_of_step h with
  | refuse hcall _ => exact ⟨_, hset _ hcall, trivial⟩
  | refuseSync hcall _ => exact ⟨_, hset _ hcall, rfl⟩
  | pass _ hroom | limitSync _ hroom | passSync _ hroom => exact absurd hfull hroom

theorem errorIsFull_setCall {i : ℕ} {call' : Call} (hs : ∀ call ∈ s.calls, ErrorIsFull config call)
    (hcall' : ErrorIsFull config call') : ∀ call ∈ (s.setCall i call').calls, ErrorIsFull config call := by
  intro call hcall
  rcases List.mem_or_eq_of_mem_set hcall with hmem | rfl
  · exact hs call hmem
  · exact hcall'

theorem errorIsFull_append {call' : Call} (hs : ∀ call ∈ s.calls, ErrorIsFull config call)
    (hcall' : ErrorIsFull config call') : ∀ call ∈ s.calls ++ [call'], ErrorIsFull config call := by
  intro call hcall
  rcases List.mem_append.mp hcall with hmem | hmem
  · exact hs call hmem
  · exact List.mem_singleton.mp hmem ▸ hcall'

/-- The errors of `Submit` stay what they are. -/
theorem errorIsFull_step {e : PoolEvent} (hs : ∀ call ∈ s.calls, ErrorIsFull config call)
    (h : s.step config e = some u) : ∀ call ∈ u.calls, ErrorIsFull config call := by
  cases takes_of_step h with
  | submit _ | submitSync _ => exact errorIsFull_append hs trivial
  | refuse | pass | refuseSync | limitSync | passSync | expire => exact errorIsFull_setCall hs trivial
  | describe => exact errorIsFull_setCall hs ⟨_, rfl⟩
  | enqueue => exact errorIsFull_setCall (s := { s with queue := _ }) hs trivial
  | granted => exact errorIsFull_setCall ((countToken_frame s none).2.2 ▸ hs) trivial
  | @denied _ _ message =>
    exact errorIsFull_setCall ((countToken_frame s (some message)).2.2 ▸ hs) trivial
  | acquire => exact errorIsFull_setCall (s := { s with sem := _ }) hs trivial
  | callWorks _ hwork => exact errorIsFull_setCall ((work_frame hwork).2.2 ▸ hs) trivial
  | tick =>
    unfold tick
    split <;> exact hs
  | @dispatchWaited error => exact (countToken_frame s error).2.2 ▸ hs
  | goroutineWorks _ hwork => exact (work_frame hwork).2.2 ▸ hs
  | dispatch | stop | dispatchLoopReturns | stopReturns => exact hs

/-! ### The bound -/

/-- A check that leaves out no task and finds room promises a place that is free. -/
theorem promised_lt_of_passes {e : PoolEvent} (hok : s.checksAll config e = true)
    (hpasses : s.passes config e = true) : (s.promised : ℤ) < config.maxQueue := by
  cases e with
  | check i =>
    have hlen : (s.queue.queueLen : ℤ) < config.maxQueue := of_decide_eq_true hpasses
    simp only [checksAll, decide_eq_false (Int.not_le.mpr hlen), Bool.false_or, beq_iff_eq] at hok
    simp only [promised, hok]
    omega
  | _ => cases hpasses

theorem promised_le_of_step {e : PoolEvent} (hs : (s.promised : ℤ) ≤ config.maxQueue)
    (hok : s.checksAll config e = true) (h : s.step config e = some u) :
    (u.promised : ℤ) ≤ config.maxQueue := by
  have hstep := promised_step h
  split at hstep
  · rename_i hpasses
    have := promised_lt_of_passes hok hpasses
    omega
  · omega

/-- A check that leaves out no task finds the queue full where `MaxQueue` tasks wait. -/
theorem full_of_waiting {i : ℕ} (hok : s.checksAll config (.check i) = true)
    (hwaiting : config.maxQueue ≤ s.waiting) : config.maxQueue ≤ s.queue.queueLen := by
  by_contra hroom
  have hlt := promised_lt_of_passes hok (decide_eq_true (Int.not_le.mp hroom))
  have hle := waiting_le_promised s
  omega

/-- **The backpressure of a pool**: no more than `MaxQueue` tasks wait, in runs whose calls read
the length of the queue where it is full or leaves out no accepted task. There a call that finds
`MaxQueue` tasks waiting is refused, and every error of `Submit` says that the queue is full. -/
theorem backpressure (hmax : 0 ≤ config.maxQueue)
    (h : Reaches (step config) (fun s e => s.checksAll config e = true) {} s) :
    (s.waiting : ℤ) ≤ config.maxQueue ∧
      (∀ i u, s.checksAll config (.check i) = true → s.step config (.check i) = some u →
        config.maxQueue ≤ s.waiting → ∃ call, u.calls[i]? = some call ∧ RefusedAsFull config call) ∧
      ∀ call ∈ s.calls, ErrorIsFull config call := by
  have hbound : (s.promised : ℤ) ≤ config.maxQueue :=
    h.invariant (by simpa [promised, outside, PriorityQueue.queueLen, dispatcherWaits] using hmax)
      fun t e u ht hok hu => promised_le_of_step ht hok hu
  refine ⟨?_, ?_, ?_⟩
  · have := waiting_le_promised s
    omega
  · intro i u hok hu hwaiting
    exact refused_of_check (full_of_waiting hok hwaiting) hu
  · exact h.invariant (by simp) fun t e u ht _ hu => errorIsFull_step ht hu

/-- Two calls of `Submit`, one after the other, to a pool that lets one task wait: the second
call is refused. -/
theorem backpressure_of_two_submits :
    let config : PoolConfig := { name := "test", workers := 1, maxQueue := 1 }
    ∃ s, Reaches (step config) (fun s e => s.checksAll config e = true) {} s ∧
      s.waiting = 1 ∧ (s.waiting : ℤ) ≤ config.maxQueue ∧ ∀ call ∈ s.calls, ErrorIsFull config call := by
  intro config
  obtain ⟨s, hs, hseen⟩ := exists_reaches_of_runEvents (step config)
    (fun s e => s.checksAll config e = true) waiting (s := {})
    [.submit { id := "fill", priority := 1 }, .check 0, .enqueue 0,
      .submit { id := "overflow", priority := 1 }, .check 1, .describe 1] 1 (by decide +kernel)
  obtain ⟨hbound, -, herrors⟩ := backpressure (by decide) hs
  exact ⟨s, hs, hseen, hbound, herrors⟩

/-- Three calls of `SubmitSync` to a pool with one worker that lets one task wait: each finds the
queue empty, and two wait for the slot that the first one holds. -/
theorem backpressure_fails_for_submitSync :
    let config : PoolConfig := { name := "test", workers := 1, maxQueue := 1 }
    ∃ s, Reachable (step config) {} s ∧ ¬ (s.waiting : ℤ) ≤ config.maxQueue := by
  intro config
  obtain ⟨s, hs, hseen⟩ := exists_reaches_of_runEvents (step config) (fun _ _ => True) waiting
    (s := {})
    [.submitSync { id := "a" }, .submitSync { id := "b" }, .submitSync { id := "c" },
      .check 0, .acquire 0, .callWorks 0 .start, .check 1, .check 2] 2 (by decide +kernel)
  refine ⟨s, hs, ?_⟩
  rw [hseen]
  decide

end BulkTraffic.GoEngine.Pool
