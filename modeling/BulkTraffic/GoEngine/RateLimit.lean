import BulkTraffic.GoEngine.Pool
import BulkTraffic.Lib.Runs
import BulkTraffic.Lib.Weight

/-!
# Whether a task of a limited pool has a token

A call of `SubmitSync` whose wait for the limiter fails returns. `dispatch` waits as well, for
five seconds at most, and throws the limiter's error away: its task goes on to a worker without a
token.

* `LimitedRun` records beside the pool whose wait has failed.
* `holders_step`: a task past the limiter has a token, or `dispatch` has dropped an error.
* `rateLimited_of_granted`: in runs whose limiter grants every token `dispatch` waits for, no more
  tasks are started than tokens were granted, and none whose wait has failed.
-/

namespace BulkTraffic.GoEngine

open BulkTraffic.Lib

/-! ### Started tasks -/

/-- Has the task's handler been called? -/
def WorkerPhase.handlerStarted : WorkerPhase → Bool
  | .holding => false
  | .executing | .recorded _ | .leaving _ | .released _ => true

/-- Has the handler been called for the call's task? -/
def Call.handlerStarted : Call → Bool
  | .submitSync _ (.working phase) => phase.handlerStarted
  | _ => false

/-- Is the call's task past the limiter, with a slot or waiting for one? -/
def Call.pastLimiter : Call → ℕ
  | .submitSync _ .acquiring | .submitSync _ (.working _) => 1
  | _ => 0

/-- Is the task that `dispatch` has in its hands past the limiter? -/
def Dispatcher.pastLimiter : Dispatcher → ℕ
  | .acquiring _ => 1
  | .selecting | .limiting _ | .returned => 0

/-- Was the call refused? -/
def Call.IsRefused : Call → Prop
  | .submitSync _ (.refused _) => True
  | _ => False

/-- The limiter has granted the token `dispatch` waited for, or returned to another call. -/
def PoolEvent.grantsDispatch : PoolEvent → Bool
  | .dispatchWaited (some _) => false
  | _ => true

/-- `1` where `dispatch` drops the limiter's error, else `0`. -/
def PoolEvent.droppedErrors (e : PoolEvent) : ℕ := if e.grantsDispatch then 0 else 1

namespace Pool

/-- The tasks whose handler has been started. -/
def startedTasks (s : Pool) : ℕ :=
  weight (fun c : Call => c.handlerStarted.toNat) s.calls +
    weight (fun g : Task × WorkerPhase => g.2.handlerStarted.toNat) s.goroutines

/-- The tasks past the limiter. -/
def holders (s : Pool) : ℕ :=
  weight Call.pastLimiter s.calls + s.dispatcher.pastLimiter + s.goroutines.length

variable {config : PoolConfig} {s u : Pool}

theorem startedTasks_le_holders (s : Pool) : s.startedTasks ≤ s.holders := by
  have hcalls : weight (fun c : Call => c.handlerStarted.toNat) s.calls ≤
      weight Call.pastLimiter s.calls := by
    apply weight_le_weight
    rintro (⟨task, phase⟩ | ⟨task, phase⟩) -
    · exact Nat.le_refl _
    · cases phase with
      | working phase => exact Bool.toNat_le _
      | _ => exact Nat.zero_le _
  have hgoroutines : weight (fun g : Task × WorkerPhase => g.2.handlerStarted.toNat) s.goroutines ≤
      weight (fun _ => 1) s.goroutines := weight_le_weight fun g _ => Bool.toNat_le _
  rw [weight_const, Nat.one_mul] at hgoroutines
  rw [startedTasks, holders]
  omega

/-! ### What a step does to the tasks past the limiter -/

/-- One call has moved on, in a pool that is otherwise as `s`. -/
theorem holders_setCall {t : Pool} {i : ℕ} {c : Call} (hcall : s.calls[i]? = some c) (c' : Call)
    (hcalls : t.calls = s.calls) (hdispatcher : t.dispatcher = s.dispatcher)
    (hgoroutines : t.goroutines = s.goroutines) :
    (t.setCall i c').holders + c.pastLimiter = s.holders + c'.pastLimiter := by
  have hset := weight_set Call.pastLimiter hcall c'
  simp only [holders, setCall, hcalls, hdispatcher, hgoroutines]
  omega

/-- A call that moves past the limiter takes a token. -/
theorem holders_of_setCall {t : Pool} {i dropped : ℕ} {c c' : Call} (hcall : s.calls[i]? = some c)
    (hcalls : t.calls = s.calls) (hdispatcher : t.dispatcher = s.dispatcher)
    (hgoroutines : t.goroutines = s.goroutines)
    (hle : c'.pastLimiter + s.tokens ≤ c.pastLimiter + t.tokens) :
    (t.setCall i c').holders + s.tokens ≤ s.holders + (t.setCall i c').tokens + dropped := by
  have hset := holders_setCall hcall c' hcalls hdispatcher hgoroutines
  have htokens : (t.setCall i c').tokens = t.tokens := rfl
  omega

theorem work_keeps {task : Task} {phase phase' : WorkerPhase} {e : WorkerEvent}
    (h : s.work task phase e = some (u, phase')) :
    u.calls = s.calls ∧ u.dispatcher = s.dispatcher ∧ u.goroutines = s.goroutines ∧
      u.tokens = s.tokens := by
  unfold work at h
  split at h <;> cases h <;> exact ⟨rfl, rfl, rfl, rfl⟩

/-- In a limited pool no check lets a task past the limiter. -/
theorem holders_check {i : ℕ} (hlimited : config.limited = true)
    (h : s.step config (.check i) = some u) : u.holders = s.holders ∧ u.tokens = s.tokens := by
  simp only [step, hlimited, if_true] at h
  split at h
  · rename_i task hcall
    split at h
    · cases h
      exact ⟨holders_setCall hcall _ rfl rfl rfl, rfl⟩
    · cases h
      exact ⟨holders_setCall hcall _ rfl rfl rfl, rfl⟩
  · rename_i task hcall
    split at h
    · cases h
      exact ⟨holders_setCall hcall _ rfl rfl rfl, rfl⟩
    · cases h
      exact ⟨holders_setCall hcall _ rfl rfl rfl, rfl⟩
  · cases h

theorem holders_tick (hlimited : config.limited = true) (hselecting : s.dispatcher = .selecting) :
    (s.tick config).holders = s.holders ∧ (s.tick config).tokens = s.tokens := by
  rw [tick, hlimited]
  cases s.queue.dequeue with
  | mk task queue =>
    cases task with
    | none => exact ⟨rfl, rfl⟩
    | some task => simp [holders, hselecting, Dispatcher.pastLimiter]

/-- **A task past the limiter has a token**, or `dispatch` has dropped an error. -/
theorem holders_step {e : PoolEvent} (hlimited : config.limited = true)
    (h : s.step config e = some u) :
    u.holders + s.tokens ≤ s.holders + u.tokens + e.droppedErrors := by
  cases takes_of_step h with
  | submit task | submitSync task => simp [holders, Call.pastLimiter]
  | refuse | pass | refuseSync | limitSync | passSync =>
    obtain ⟨hholders, htokens⟩ := holders_check hlimited h
    omega
  | describe hcall | enqueue hcall | denied hcall | acquire hcall _ =>
    exact holders_of_setCall hcall rfl rfl rfl (Nat.le_refl _)
  | granted hcall =>
    refine holders_of_setCall hcall rfl rfl rfl ?_
    simp only [Call.pastLimiter, countToken]
    omega
  | expire hcall =>
    apply holders_of_setCall hcall rfl rfl rfl
    simp only [Call.pastLimiter]
    omega
  | callWorks hcall hwork =>
    obtain ⟨hcalls, hdispatcher, hgoroutines, htokens⟩ := work_keeps hwork
    apply holders_of_setCall hcall hcalls hdispatcher hgoroutines
    exact Nat.le_of_eq (congrArg (1 + ·) htokens.symm)
  | @dispatchWaited error task hlimiting =>
    cases error <;>
      simp [countToken, holders, hlimiting, Dispatcher.pastLimiter, PoolEvent.droppedErrors,
        PoolEvent.grantsDispatch]
    all_goals omega
  | dispatch hacquiring _ =>
    simp only [holders, hacquiring, Dispatcher.pastLimiter, List.length_append, List.length_singleton]
    omega
  | goroutineWorks _ hwork =>
    obtain ⟨hcalls, hdispatcher, hgoroutines, htokens⟩ := work_keeps hwork
    simp only [holders, hcalls, hdispatcher, hgoroutines, htokens, List.length_set]
    omega
  | tick hselecting =>
    obtain ⟨hholders, htokens⟩ := holders_tick hlimited hselecting
    omega
  | stop _ | stopReturns _ => exact Nat.le_add_right _ _
  | dispatchLoopReturns hselecting =>
    simp only [holders, hselecting, Dispatcher.pastLimiter]
    omega

/-- A call that was refused stays so. -/
theorem refused_step {e : PoolEvent} (h : s.step config e = some u) {i : ℕ} {c : Call}
    (hcall : s.calls[i]? = some c) (hc : c.IsRefused) : u.calls[i]? = some c := by
  have hset : ∀ {t : Pool} {j : ℕ} {d : Call} (d' : Call), t.calls = s.calls → s.calls[j]? = some d →
      ¬ d.IsRefused → (t.setCall j d').calls[i]? = some c := by
    intro t j d d' ht hd hnot
    have hne : j ≠ i := by
      rintro rfl
      obtain rfl := Option.some.inj (hd.symm.trans hcall)
      exact hnot hc
    rw [setCall, List.getElem?_set_ne hne, ht]
    exact hcall
  cases takes_of_step h with
  | submit task | submitSync task =>
    rw [List.getElem?_append_left (List.getElem?_eq_some_iff.mp hcall).1]
    exact hcall
  | refuse hd _ | pass hd _ | refuseSync hd _ | limitSync hd _ | passSync hd _ | describe hd
  | enqueue hd | granted hd | denied hd | acquire hd _ | expire hd => exact hset _ rfl hd id
  | callWorks hd hwork => exact hset _ (work_keeps hwork).1 hd id
  | tick _ =>
    rw [tick]
    split <;> exact hcall
  | @dispatchWaited error =>
    cases error <;> exact hcall
  | goroutineWorks _ hwork =>
    change _ = some c
    rw [(work_keeps hwork).1]
    exact hcall
  | dispatch _ _ | stop _ | dispatchLoopReturns _ | stopReturns _ => exact hcall

/-- A wait that fails refuses the call. -/
theorem refused_of_denied {i : ℕ} {message : String}
    (h : s.step config (.waited i (some message)) = some u) :
    ∃ c, u.calls[i]? = some c ∧ c.IsRefused := by
  cases takes_of_step h with
  | denied hcall =>
    have hlt : i < s.calls.length := (List.getElem?_eq_some_iff.mp hcall).1
    exact ⟨_, List.getElem?_set_self hlt, trivial⟩

end Pool

/-! ### Runs -/

/-- A pool, and whose wait for the limiter has failed. -/
structure LimitedRun where
  pool : Pool := {}
  /-- The calls of `SubmitSync` whose wait has failed. -/
  deniedCalls : List ℕ := []
  /-- The goroutines whose task `dispatch` took on after its wait had failed. -/
  deniedGoroutines : List ℕ := []

namespace LimitedRun

/-- Whose wait fails. `dispatch` handles one task at a time, so its task is the one of the next
goroutine. -/
def record (s : LimitedRun) : PoolEvent → LimitedRun
  | .waited i (some _) => { s with deniedCalls := s.deniedCalls ++ [i] }
  | .dispatchWaited (some _) =>
    { s with deniedGoroutines := s.deniedGoroutines ++ [s.pool.goroutines.length] }
  | _ => s

/-- One step of the pool. -/
def step (config : PoolConfig) (s : LimitedRun) (e : PoolEvent) : Option LimitedRun :=
  (s.pool.step config e).map fun pool => { s.record e with pool := pool }

/-- The limiter is not bypassed: no more tasks are started than it has granted tokens, and no task
whose wait has failed. -/
structure RateLimited (s : LimitedRun) : Prop where
  started : s.pool.startedTasks ≤ s.pool.tokens
  calls : ∀ i ∈ s.deniedCalls, ∀ c, s.pool.calls[i]? = some c → c.handlerStarted = false
  goroutines : ∀ k ∈ s.deniedGoroutines, ∀ g, s.pool.goroutines[k]? = some g →
    g.2.handlerStarted = false

/-- The invariant: the tasks past the limiter are those with a token and those whose error
`dispatch` has dropped, and a call whose wait has failed is refused. -/
structure Inv (s : LimitedRun) : Prop where
  holders : s.pool.holders ≤ s.pool.tokens + s.deniedGoroutines.length
  refused : ∀ i ∈ s.deniedCalls, ∃ c, s.pool.calls[i]? = some c ∧ c.IsRefused

variable {config : PoolConfig} {s u : LimitedRun}

theorem length_deniedGoroutines_record (s : LimitedRun) (e : PoolEvent) :
    (s.record e).deniedGoroutines.length = s.deniedGoroutines.length + e.droppedErrors := by
  rcases e with _ | _ | _ | _ | _ | ⟨i, _ | message⟩ | _ | _ | _ | _ | ⟨_ | message⟩ | _ | _ | _ | _ | _ <;>
    simp [record, PoolEvent.droppedErrors, PoolEvent.grantsDispatch]

theorem inv_step {e : PoolEvent} (hlimited : config.limited = true) (hs : s.Inv)
    (h : s.step config e = some u) : u.Inv := by
  obtain ⟨pool, hpool, rfl⟩ := Option.map_eq_some_iff.mp h
  obtain ⟨hholders, hrefused⟩ := hs
  have hkeep : ∀ i ∈ s.deniedCalls, ∃ c, pool.calls[i]? = some c ∧ c.IsRefused := by
    intro i hi
    obtain ⟨c, hcall, hc⟩ := hrefused i hi
    exact ⟨c, Pool.refused_step hpool hcall hc, hc⟩
  constructor
  · have hstep := Pool.holders_step hlimited hpool
    have hdenied := length_deniedGoroutines_record s e
    change pool.holders ≤ pool.tokens + (s.record e).deniedGoroutines.length
    omega
  · change ∀ i ∈ (s.record e).deniedCalls, ∃ c, pool.calls[i]? = some c ∧ c.IsRefused
    cases e with
    | waited j error =>
      cases error with
      | none => exact hkeep
      | some message =>
        intro i hi
        rcases List.mem_append.mp hi with hmem | hmem
        · exact hkeep i hmem
        · obtain rfl := List.mem_singleton.mp hmem
          exact Pool.refused_of_denied hpool
    | dispatchWaited error => cases error <;> exact hkeep
    | _ => exact hkeep

/-- Where the limiter grants `dispatch` its tokens, no goroutine goes without. -/
theorem no_deniedGoroutines {e : PoolEvent} (hs : s.deniedGoroutines = [])
    (hok : e.grantsDispatch = true) (h : s.step config e = some u) : u.deniedGoroutines = [] := by
  obtain ⟨pool, hpool, rfl⟩ := Option.map_eq_some_iff.mp h
  have hdenied := length_deniedGoroutines_record s e
  rw [hs, PoolEvent.droppedErrors, if_pos hok] at hdenied
  exact List.length_eq_zero_iff.mp hdenied

/-- **The rate limit holds where `dispatch` gets its tokens**: in runs of a limited pool whose
limiter does not fail `dispatch`, no more tasks are started than it has granted tokens, and no task
whose wait has failed. -/
theorem rateLimited_of_granted (hlimited : config.limited = true)
    (h : Reaches (step config) (fun _ e => e.grantsDispatch = true) {} s) : s.RateLimited := by
  have hinv : s.Inv := by
    apply h.invariant
    · exact ⟨Nat.le_refl _, by simp⟩
    · intro t e u ht _ hu
      exact inv_step hlimited ht hu
  have hnone : s.deniedGoroutines = [] := by
    apply h.invariant (P := fun t => t.deniedGoroutines = [])
    · rfl
    · intro t e u ht hok hu
      exact no_deniedGoroutines ht hok hu
  constructor
  · have hstarted := s.pool.startedTasks_le_holders
    have hholders := hinv.holders
    rw [hnone, List.length_nil] at hholders
    omega
  · intro i hi c hcall
    obtain ⟨c', hcall', hc'⟩ := hinv.refused i hi
    obtain rfl := Option.some.inj (hcall.symm.trans hcall')
    obtain ⟨task, phase⟩ | ⟨task, phase⟩ := c
    · rfl
    · cases phase <;> first | rfl | exact hc'.elim
  · rw [hnone]
    simp

/-- A call whose wait has failed, a task that `dispatch` has a token for, and one token. -/
theorem rateLimited_of_two_tasks :
    let config : PoolConfig := { name := "test", workers := 2, maxQueue := 10, rateLimit := 1 }
    ∃ s, Reaches (step config) (fun _ e => e.grantsDispatch = true) {} s ∧ s.RateLimited ∧
      s.pool.startedTasks = 1 ∧ s.deniedCalls = [1] := by
  intro config
  obtain ⟨s, hs, hseen⟩ := exists_reaches_of_runEvents (step config)
    (fun _ e => e.grantsDispatch = true) (fun s => (s.pool.startedTasks, s.deniedCalls)) (s := {})
    [.submit { id := "a" }, .check 0, .enqueue 0, .tick, .dispatchWaited none, .dispatch,
      .goroutineWorks 0 .start, .submitSync { id := "b" }, .check 1,
      .waited 1 (some "context deadline exceeded")] (1, [1]) (by decide +kernel)
  rw [Prod.mk.injEq] at hseen
  exact ⟨s, hs, rateLimited_of_granted (by decide +kernel) hs, hseen.1, hseen.2⟩

/-- A limit of one task in two seconds gives the limiter a burst of `int(0.5)`, which is zero: it
grants no token at all, and `dispatch` starts the task. -/
theorem started_without_token :
    let config : PoolConfig := { name := "test", workers := 1, maxQueue := 10, rateLimit := 1 / 2 }
    config.limited = true ∧ ∃ s, Reachable (step config) {} s ∧ ¬ s.RateLimited := by
  intro config
  refine ⟨by decide +kernel, ?_⟩
  obtain ⟨s, hs, hseen⟩ := exists_reaches_of_runEvents (step config) (fun _ _ => True)
    (fun s => (s.pool.startedTasks, s.pool.tokens)) (s := {})
    [.submit { id := "a" }, .check 0, .enqueue 0, .tick,
      .dispatchWaited (some "rate: Wait(n=1) exceeds limiter's burst 0"), .dispatch,
      .goroutineWorks 0 .start] (1, 0) (by decide +kernel)
  refine ⟨s, hs, fun hlimited => ?_⟩
  rw [Prod.mk.injEq] at hseen
  have hstarted := hlimited.started
  omega

end LimitedRun

end BulkTraffic.GoEngine
