import BulkTraffic.GoEngine.Pool
import BulkTraffic.Lib.Runs
import BulkTraffic.Lib.Weight

/-!
# What a pool counts of its synchronous calls

`SubmitSync` leaves in four ways. Three of them refuse the task: the queue is full, the limiter
returns an error, the wait for a worker is over. They return a result with `Success = false` and
count nothing. Only a task that was executed is counted, as `Processed` or as `Failed`.

`SyncStep` says once what a step does to a pool that is only given calls of `SubmitSync`, as the
server gives it; `SyncOnly` is the invariant of such a pool: its statistics count the executed
calls and nothing else.
-/

namespace BulkTraffic.GoEngine

open BulkTraffic.Lib

/-- The result that has been counted. -/
def WorkerPhase.result? : WorkerPhase → Option TaskResult
  | .holding | .executing => none
  | .recorded result | .leaving result | .released result => some result

/-- The result a call of `SubmitSync` has returned. -/
def Call.result? : Call → Option TaskResult
  | .submitSync _ (.refused result) => some result
  | .submitSync _ (.working (.released result)) => some result
  | _ => none

/-- Has the call been counted as `Processed`? -/
def Call.succeeded : Call → ℕ
  | .submitSync _ (.working phase) => if phase.result?.any TaskResult.success then 1 else 0
  | _ => 0

/-- Has the call been counted as `Failed`? -/
def Call.failed : Call → ℕ
  | .submitSync _ (.working phase) => if phase.result?.any fun r => !r.success then 1 else 0
  | _ => 0

/-- The call has not been counted. -/
def Call.Uncounted (c : Call) : Prop := c.succeeded = 0 ∧ c.failed = 0

/-- Was the call refused? -/
def Call.refused : Call → ℕ
  | .submitSync _ (.refused _) => 1
  | _ => 0

/-- A call of `SubmitSync`; a refused one has a result that is no success. -/
def Call.IsSync : Call → Prop
  | .submitSync _ (.refused result) => result.success = false
  | .submitSync _ _ => True
  | .submit _ _ => False

/-- A returned call was executed and counted by its result, or it was refused. -/
theorem Call.counted_of_result {call : Call} {result : TaskResult} (hsync : call.IsSync)
    (h : call.result? = some result) :
    if result.success then call.succeeded = 1 ∧ call.failed = 0 ∧ call.refused = 0
    else call.succeeded = 0 ∧ call.failed + call.refused = 1 := by
  obtain ⟨task, phase⟩ | ⟨task, phase⟩ := call
  · exact hsync.elim
  · cases phase with
    | refused r =>
      obtain rfl : r = result := Option.some.inj h
      have hfail : r.success = false := hsync
      simp [hfail, Call.succeeded, Call.failed, Call.refused]
    | working phase =>
      cases phase with
      | released r =>
        obtain rfl : r = result := Option.some.inj h
        cases hs : r.success <;>
          simp [hs, Call.succeeded, Call.failed, Call.refused, WorkerPhase.result?]
      | _ => cases h
    | _ => cases h

namespace Pool

variable {config : PoolConfig} {s u : Pool}

/-- One call goes on from `c` to `c'`, and the statistics count what it reached. -/
structure Advances (s u : Pool) (i : ℕ) (c c' : Call) : Prop where
  /-- The call had not returned. -/
  unfinished : c.result? = none
  /-- Where the call was. -/
  before : s.calls[i]? = some c
  /-- The other calls stay. -/
  after : u.calls = s.calls.set i c'
  /-- The call is one of `SubmitSync`. -/
  sync : c'.IsSync
  /-- A success reached by the call is counted. -/
  processed : u.stats.processed + c.succeeded = s.stats.processed + c'.succeeded
  /-- A failure reached by the call is counted. -/
  failed : u.stats.failed + c.failed = s.stats.failed + c'.failed

/-- What a step does to the calls and the counters. -/
inductive SyncStep (s u : Pool) : PoolEvent → Prop where
  /-- `SubmitSync` is called. -/
  | called (task : Task) : u.calls = s.calls ++ [.submitSync task .called] → u.stats = s.stats →
      SyncStep s u (.submitSync task)
  /-- One call goes on. -/
  | advanced {e : PoolEvent} (i : ℕ) (c c' : Call) : Advances s u i c c' → SyncStep s u e
  /-- No call goes on. -/
  | idle {e : PoolEvent} : u.calls = s.calls → u.stats = s.stats → SyncStep s u e

/-- The dispatch loop has nothing to do, as no task was given to `Submit`. -/
structure IdleLoop (s : Pool) : Prop where
  /-- No task is queued. -/
  queue : s.queue.queueLen = 0
  /-- The dispatch loop has no task. -/
  dispatcher : s.dispatcher = .selecting ∨ s.dispatcher = .returned
  /-- The dispatch loop has started no goroutine. -/
  goroutines : s.goroutines = []

/-- A pool that has only been given calls of `SubmitSync`: the dispatch loop has nothing to do,
and the statistics count the executed calls. -/
structure SyncOnly (s : Pool) : Prop where
  /-- The dispatch loop idles. -/
  loop : s.IdleLoop
  /-- Every call is one of `SubmitSync`. -/
  calls : ∀ call ∈ s.calls, call.IsSync
  /-- `Processed` counts the successful calls. -/
  processed : s.stats.processed = weight Call.succeeded s.calls
  /-- `Failed` counts the calls whose handler failed. -/
  failed : s.stats.failed = weight Call.failed s.calls

theorem syncOnly_initial : SyncOnly {} where
  loop := ⟨rfl, .inl rfl, rfl⟩
  calls := by simp
  processed := rfl
  failed := rfl

/-! ### What a step does -/

theorem dequeue_of_empty {q : PriorityQueue} (h : q.queueLen = 0) : q.dequeue = (none, q) := by
  unfold PriorityQueue.dequeue
  exact if_pos h

/-- The dispatch loop finds nothing to do. -/
theorem tick_of_empty (h : s.queue.queueLen = 0) : s.tick config = s := by
  unfold tick
  rw [dequeue_of_empty h]

/-- A call that has not been counted goes on, and is not counted either. -/
theorem advances_setCall {t : Pool} {i : ℕ} {c c' : Call} (hcall : s.calls[i]? = some c)
    (hresult : c.result? = none) (hc : c.Uncounted) (hc' : c'.Uncounted) (hsync : c'.IsSync)
    (ht : t.calls = s.calls ∧ t.stats = s.stats) : Advances s (t.setCall i c') i c c' := by
  obtain ⟨hs, hf⟩ := hc
  obtain ⟨hs', hf'⟩ := hc'
  obtain ⟨hcalls, hstats⟩ := ht
  refine ⟨hresult, hcall, ?_, hsync, ?_, ?_⟩
  · simp [setCall, hcalls]
  · simp [setCall, hstats, hs, hs']
  · simp [setCall, hstats, hf, hf']

/-- A working call counts its outcome when `executeWithRetry` returns. -/
theorem advances_of_work {t : Pool} {i : ℕ} {task : Task} {phase phase' : WorkerPhase}
    {e : WorkerEvent} (hcall : s.calls[i]? = some (.submitSync task (.working phase)))
    (h : s.work task phase e = some (t, phase')) :
    Advances s (t.setCall i (.submitSync task (.working phase'))) i
      (.submitSync task (.working phase)) (.submitSync task (.working phase')) := by
  unfold work at h
  split at h
  · cases h
    exact ⟨rfl, hcall, rfl, trivial, rfl, rfl⟩
  · rename_i outcome duration
    cases h
    refine ⟨rfl, hcall, rfl, trivial, ?_, ?_⟩
    · cases outcome <;> rfl
    · cases outcome <;> rfl
  · cases h
    exact ⟨rfl, hcall, rfl, trivial, rfl, rfl⟩
  · cases h
    exact ⟨rfl, hcall, rfl, trivial, rfl, rfl⟩
  · cases h

theorem work_keeps_loop {t : Pool} {task : Task} {phase phase' : WorkerPhase} {e : WorkerEvent}
    (h : s.work task phase e = some (t, phase')) (hs : s.IdleLoop) : t.IdleLoop := by
  obtain ⟨hqueue, hdispatcher, hgoroutines⟩ := hs
  unfold work at h
  split at h <;> cases h <;> exact ⟨hqueue, hdispatcher, hgoroutines⟩

/-- **What a step does** to a pool that is only given calls of `SubmitSync`. -/
theorem syncStep_of_step {e : PoolEvent} (hidle : IdleLoop s)
    (hcalls : ∀ call ∈ s.calls, call.IsSync) (hsubmit : ∀ task, e ≠ .submit task)
    (h : s.step config e = some u) : SyncStep s u e ∧ IdleLoop u := by
  obtain ⟨hqueue, hdispatcher, hgoroutines⟩ := hidle
  have hnoSubmit : ∀ {i : ℕ} {task : Task} {phase : SubmitPhase},
      s.calls[i]? ≠ some (.submit task phase) := by
    intro i task phase hcall
    exact hcalls _ (List.mem_of_getElem? hcall)
  cases takes_of_step h with
  | submit task => exact absurd rfl (hsubmit task)
  | submitSync task => exact ⟨.called task rfl rfl, hqueue, hdispatcher, hgoroutines⟩
  | refuse hcall _ | pass hcall _ | describe hcall | enqueue hcall => exact absurd hcall hnoSubmit
  | refuseSync hcall _ | expire hcall =>
    exact ⟨.advanced _ _ _ (advances_setCall hcall rfl ⟨rfl, rfl⟩ ⟨rfl, rfl⟩ rfl ⟨rfl, rfl⟩),
      hqueue, hdispatcher, hgoroutines⟩
  | limitSync hcall _ | passSync hcall _ | acquire hcall _ | granted hcall =>
    exact ⟨.advanced _ _ _ (advances_setCall hcall rfl ⟨rfl, rfl⟩ ⟨rfl, rfl⟩ trivial ⟨rfl, rfl⟩),
      hqueue, hdispatcher, hgoroutines⟩
  | denied hcall =>
    exact ⟨.advanced _ _ _ (advances_setCall hcall rfl ⟨rfl, rfl⟩ ⟨rfl, rfl⟩ rfl ⟨rfl, rfl⟩),
      hqueue, hdispatcher, hgoroutines⟩
  | callWorks hcall hwork =>
    obtain ⟨hq, hd, hg⟩ := work_keeps_loop hwork ⟨hqueue, hdispatcher, hgoroutines⟩
    exact ⟨.advanced _ _ _ (advances_of_work hcall hwork), hq, hd, hg⟩
  | tick _ =>
    rw [tick_of_empty hqueue]
    exact ⟨.idle rfl rfl, hqueue, hdispatcher, hgoroutines⟩
  | dispatchWaited hlimiting =>
    rw [hlimiting] at hdispatcher
    exact hdispatcher.elim Dispatcher.noConfusion Dispatcher.noConfusion
  | dispatch hacquiring _ =>
    rw [hacquiring] at hdispatcher
    exact hdispatcher.elim Dispatcher.noConfusion Dispatcher.noConfusion
  | goroutineWorks hgoroutine _ =>
    rw [hgoroutines] at hgoroutine
    cases hgoroutine
  | stop _ | stopReturns _ => exact ⟨.idle rfl rfl, hqueue, hdispatcher, hgoroutines⟩
  | dispatchLoopReturns _ => exact ⟨.idle rfl rfl, hqueue, .inr rfl, hgoroutines⟩

/-- A call that has returned stays as it is. -/
theorem SyncStep.keeps_returned {e : PoolEvent} (h : SyncStep s u e) {k : ℕ} {call : Call}
    {result : TaskResult} (hcall : s.calls[k]? = some call) (hresult : call.result? = some result) :
    u.calls[k]? = some call := by
  cases h with
  | called task hu hstats =>
    obtain ⟨hlt, -⟩ := List.getElem?_eq_some_iff.mp hcall
    rw [hu, List.getElem?_append_left hlt]
    exact hcall
  | advanced i c c' hadv =>
    have hne : i ≠ k := by
      rintro rfl
      have hc := hadv.before.symm.trans hcall
      rw [← Option.some.inj hc, hadv.unfinished] at hresult
      cases hresult
    rw [hadv.after, List.getElem?_set_ne hne]
    exact hcall
  | idle hu hstats =>
    rw [hu]
    exact hcall

/-- Only a call of `SubmitSync` adds a call. -/
theorem SyncStep.length_calls {e : PoolEvent} (h : SyncStep s u e)
    (he : ∀ task, e ≠ .submitSync task) : u.calls.length = s.calls.length := by
  cases h with
  | called task hu hstats => exact absurd rfl (he task)
  | advanced i c c' hadv => rw [hadv.after, List.length_set]
  | idle hu hstats => rw [hu]

/-- **The statistics count the executed calls**, and go on counting them. -/
theorem syncOnly_step {e : PoolEvent} (hs : s.SyncOnly) (hsubmit : ∀ task, e ≠ .submit task)
    (h : s.step config e = some u) : u.SyncOnly := by
  obtain ⟨hloop, hcalls, hprocessed, hfailed⟩ := hs
  obtain ⟨hstep, hloop'⟩ := syncStep_of_step hloop hcalls hsubmit h
  cases hstep with
  | called task hu hstats =>
    refine ⟨hloop', ?_, ?_, ?_⟩
    · rw [hu]
      intro call hmem
      rcases List.mem_append.mp hmem with hmem | hmem
      · exact hcalls call hmem
      · rw [List.mem_singleton.mp hmem]
        trivial
    · simp [hu, hstats, hprocessed, Call.succeeded]
    · simp [hu, hstats, hfailed, Call.failed]
  | advanced i c c' hadv =>
    obtain ⟨-, hbefore, hu, hsync, hp, hf⟩ := hadv
    have hwp := weight_set Call.succeeded hbefore c'
    have hwf := weight_set Call.failed hbefore c'
    refine ⟨hloop', ?_, ?_, ?_⟩
    · rw [hu]
      intro call hmem
      rcases List.mem_or_eq_of_mem_set hmem with hmem | rfl
      · exact hcalls call hmem
      · exact hsync
    · rw [hu]
      omega
    · rw [hu]
      omega
  | idle hu hstats =>
    refine ⟨hloop', ?_, ?_, ?_⟩
    · rw [hu]
      exact hcalls
    · rw [hu, hstats, hprocessed]
    · rw [hu, hstats, hfailed]

end Pool

end BulkTraffic.GoEngine
