import BulkTraffic.Http.Middleware

/-!
# Refusals under memory pressure

The rule that tasks of negative priority are refused under memory pressure is written twice. `use`
answers with 503 before it calls `enqueue`; `enqueue` counts the refusal and throws, which `use`
answers with 503 too. `use` runs up to the call of `enqueue` in one go, so the pressure is the same
at both checks, and the first one leaves nothing for the second to refuse. It does not count.

* `OverloadRun`: any number of requests, with what each refusal has added to `totalRejected`.
* `overload_never_counted`: every request refused for the pressure is refused by `use`, and none is
  counted.
-/

namespace BulkTraffic.Http

open BulkTraffic.Lib BulkTraffic.Js BulkTraffic.Queue

/-- The two checks of the memory pressure. -/
inductive OverloadCheck where
  /-- The one of `QueueMiddleware.use`. -/
  | middleware
  /-- The one of `QueueService.enqueue`. -/
  | enqueue
  deriving DecidableEq

namespace RequestSystem

/-- The check that has refused a request, if one has, when `use` is at its `await` or done. -/
def overloadCheck (s : RequestSystem) : Option OverloadCheck :=
  if s.exchange.sent.any fun r => r.message == Exchange.pressureResponse.message then
    some .middleware
  else match s.exchange.enqueued with
    | some (.error (.error message)) =>
      if message = QueueSystem.pressureMessage then some .enqueue else none
    | _ => none

variable {queue : QueueSystem} {requestProcessingTimeoutMs : ℕ} {allowCustomWorkload : Bool}
  {req : Request} {requestId : String}

/-! ### Which check refuses -/

/-- Where `enqueue` throws for the pressure, the pressure is on and the priority negative. -/
theorem enqueue_pressure {options : EnqueueOptions} {now : ℕ}
    (h : (queue.enqueue options now).1 = .error QueueSystem.pressureMessage) :
    ∃ n, (queue.parser.normalizeEnqueueOptions options
      queue.state.config.executionTimeoutMs).1 = .ok n ∧
        (queue.memoryPressure && decide (n.priority < 0)) = true := by
  simp only [QueueSystem.enqueue] at h
  split at h
  · rename_i message hmessage
    have hcheck := QueueOptionsParser.normalizeEnqueueOptions_error hmessage
    rw [Except.error.inj h] at hcheck
    exact absurd hcheck (by decide +kernel)
  · rename_i n hn
    refine ⟨n, hn, ?_⟩
    by_contra hcalm
    rw [if_neg hcalm] at h
    split at h
    · exact absurd (Except.error.inj h) (by decide +kernel)
    · cases h

/-- A request that the first check has let pass is not refused by the second one. -/
theorem enqueue_ne_pressure {decision : RequestRoutingDecision} {now : ℕ}
    (hcalm : ¬ (queue.memoryPressure && decide (decision.priority < 0)) = true) :
    (queue.enqueue (enqueueOptions decision requestId) now).1 ≠ .error QueueSystem.pressureMessage := by
  intro hthrown
  obtain ⟨n, hn, hpressure⟩ := enqueue_pressure hthrown
  -- the request is enqueued with the priority that has been checked
  obtain ⟨hpriority, -⟩ := normalize_enqueueOptions hn
  rw [hpriority] at hpressure
  exact hcalm hpressure

/-- A task of negative priority that `enqueue` refuses under memory pressure is counted. -/
theorem enqueue_counts {options : EnqueueOptions} {now : ℕ} {n : NormalizedEnqueueOptions}
    (hn : (queue.parser.normalizeEnqueueOptions options
      queue.state.config.executionTimeoutMs).1 = .ok n)
    (hpressure : queue.memoryPressure = true) (hpriority : n.priority < 0) :
    (queue.enqueue options now).2.stats.totalRejected = queue.stats.totalRejected + 1 := by
  simp only [QueueSystem.enqueue, hn, hpressure, hpriority, decide_true, Bool.and_self, if_true]
  rfl

/-- **The first check leaves the second nothing to refuse**, and refuses without a trace in the
queue. -/
theorem use_overload {now : ℕ} {check : OverloadCheck}
    (h : ((RequestSystem.initial queue requestProcessingTimeoutMs allowCustomWorkload req).use
      requestId now).overloadCheck = some check) :
    check = .middleware ∧
      ((RequestSystem.initial queue requestProcessingTimeoutMs allowCustomWorkload req).use
        requestId now).queue = queue := by
  rw [use] at h ⊢
  dsimp only at h ⊢
  split at h
  · cases h
  · split at h
    · rename_i hbypass hpressure
      rw [if_neg hbypass, if_pos hpressure]
      exact ⟨(Option.some.inj h).symm, rfl⟩
    · split at h
      · cases h
      · rename_i hcalm _
        exfalso
        have hthrown : (queue.enqueue (enqueueOptions (QueueRequestAnalyzer.analyze
            requestProcessingTimeoutMs req) requestId) now).1 ≠
              .error QueueSystem.pressureMessage := enqueue_ne_pressure hcalm
        simp only [overloadCheck, RequestSystem.initial, List.any_nil, Bool.false_eq_true, if_false] at h
        generalize QueueSystem.pressureMessage = text at h hthrown
        revert h hthrown
        cases (queue.enqueue (enqueueOptions (QueueRequestAnalyzer.analyze
          requestProcessingTimeoutMs req) requestId) now).1 with
        | ok task => simp
        | error message =>
          intro h hthrown
          have hmessage : message ≠ text := fun heq => hthrown (congrArg Except.error heq)
          dsimp only at h
          rw [if_neg hmessage] at h
          cases h

end RequestSystem

/-! ### Runs -/

/-- A refusal for the pressure, and `totalRejected` before and after it. -/
structure OverloadRefusal where
  /-- The check. -/
  check : OverloadCheck
  /-- `totalRejected` when the request arrives. -/
  before : ℕ
  /-- `totalRejected` when `use` is at its `await` or done. -/
  after : ℕ

/-- The refusal has increased `totalRejected` by one. -/
def OverloadRefusal.Counted (r : OverloadRefusal) : Prop := r.after = r.before + 1

/-- The settings of the middleware. -/
structure MiddlewareSettings where
  /-- `QUEUE_EXECUTION_TIMEOUT_MS`. -/
  requestProcessingTimeoutMs : ℕ := 10000
  /-- `ALLOW_CUSTOM_WORKLOAD === 'true'`. -/
  allowCustomWorkload : Bool := false

/-- The queue, and the refusals for the pressure. -/
structure OverloadRun where
  /-- The queue. -/
  queue : QueueSystem
  /-- The refusals. -/
  refusals : List OverloadRefusal := []

/-- What can happen. What becomes of a request after `use` is at its `await` touches the queue by
the queue's own events only. -/
inductive OverloadEvent where
  /-- A request reaches the middleware. -/
  | request (req : Request) (requestId : String) (now : ℕ)
  /-- Something happens in the queue. -/
  | queue (e : QueueEvent)

namespace OverloadRun

/-- One event. -/
def step (settings : MiddlewareSettings) (s : OverloadRun) : OverloadEvent → Option OverloadRun
  | .request req requestId now =>
    let used := (RequestSystem.initial s.queue settings.requestProcessingTimeoutMs
      settings.allowCustomWorkload req).use requestId now
    some {
      queue := used.queue
      refusals := s.refusals ++ used.overloadCheck.toList.map fun check =>
        { check := check
          before := s.queue.stats.totalRejected
          after := used.queue.stats.totalRejected } }
  | .queue e => (s.queue.step e).map fun queue => { s with queue := queue }

variable {settings : MiddlewareSettings}

/-- A step adds refusals of the first check only, and leaves them uncounted. -/
theorem refusals_step {s u : OverloadRun} {e : OverloadEvent}
    (hs : ∀ r ∈ s.refusals, r.check = .middleware ∧ r.after = r.before)
    (h : s.step settings e = some u) :
    ∀ r ∈ u.refusals, r.check = .middleware ∧ r.after = r.before := by
  cases e with
  | request req requestId now =>
    obtain rfl := Option.some.inj h
    intro r hr
    rcases List.mem_append.mp hr with hr | hr
    · exact hs r hr
    · obtain ⟨check, hcheck, rfl⟩ := List.mem_map.mp hr
      obtain ⟨hmiddleware, hqueue⟩ := RequestSystem.use_overload (Option.mem_toList.mp hcheck)
      dsimp only
      rw [hqueue]
      exact ⟨hmiddleware, rfl⟩
  | queue e =>
    obtain ⟨queue, -, rfl⟩ := Option.map_eq_some_iff.mp h
    exact hs

/-- **No refusal of a request for memory pressure is counted.** In every run, every request refused
for the pressure and its negative priority is refused by the middleware's check, and has not
increased `totalRejected` by one: it has left it as it was. -/
theorem overload_never_counted {queue : QueueSystem} {s : OverloadRun}
    (h : Reachable (step settings) { queue := queue } s) :
    ∀ r ∈ s.refusals, r.check = .middleware ∧ r.after = r.before ∧ ¬ r.Counted := by
  have huncounted : ∀ r ∈ s.refusals, r.check = .middleware ∧ r.after = r.before := by
    apply h.invariant (P := fun t => ∀ r ∈ t.refusals, r.check = .middleware ∧ r.after = r.before)
    · simp
    · intro t e u ht _ hu
      exact refusals_step ht hu
  intro r hr
  obtain ⟨hcheck, hafter⟩ := huncounted r hr
  refine ⟨hcheck, hafter, ?_⟩
  rw [OverloadRefusal.Counted]
  omega

/-- A request to create an order, of priority `-3`. -/
def createOrder : Request := { path := "/api/orders", method := "POST" }

/-- Memory pressure sets in and the request comes. -/
def pressureThenOrder : List OverloadEvent :=
  [.queue (.memoryCheckTimer { heapUsed := 80, heapTotal := 100, gc := false } 0),
    .request createOrder "r" 0]

/-- One request is refused. -/
theorem overload_never_counted_of_order :
    ∃ s, Reachable (step {}) { queue := .initial {} 0 {} false false 1 none none none } s ∧
      s.refusals.length = 1 ∧
      ∀ r ∈ s.refusals, r.check = .middleware ∧ r.after = r.before ∧ ¬ r.Counted := by
  obtain ⟨s, hs, hseen⟩ := exists_reaches_of_runEvents (step {}) (fun _ _ => True)
    (fun s => s.refusals.length) (s := { queue := .initial {} 0 {} false false 1 none none none })
    pressureThenOrder 1 (by decide +kernel)
  exact ⟨s, hs, hseen, overload_never_counted hs⟩

/-- Under memory pressure, a request of negative priority is refused and not counted; `enqueue`,
called with the same options, would have counted it. -/
theorem overload_uncounted :
    ∃ s, Reachable (step {}) { queue := .initial {} 0 {} false false 1 none none none } s ∧
      s.queue.stats.totalRejected = 0 ∧
      (s.queue.enqueue (enqueueOptions (QueueRequestAnalyzer.analyze 10000 createOrder) "r")
        0).2.stats.totalRejected = 1 ∧
      ∃ r ∈ s.refusals, ¬ r.Counted := by
  obtain ⟨s, hs, hseen⟩ := exists_reaches_of_runEvents (step {}) (fun _ _ => True)
    (fun s => (s.queue.stats.totalRejected,
      (s.queue.enqueue (enqueueOptions (QueueRequestAnalyzer.analyze 10000 createOrder) "r")
        0).2.stats.totalRejected,
      s.refusals.map fun r => (r.before, r.after)))
    (s := { queue := .initial {} 0 {} false false 1 none none none }) pressureThenOrder
    (0, 1, [(0, 0)]) (by decide +kernel)
  simp only [Prod.mk.injEq] at hseen
  obtain ⟨htotal, henqueue, hrefusals⟩ := hseen
  have hmem : (0, 0) ∈ s.refusals.map fun r => (r.before, r.after) := by simp [hrefusals]
  obtain ⟨r, hr, htotals⟩ := List.mem_map.mp hmem
  refine ⟨s, hs, htotal, henqueue, r, hr, ?_⟩
  rw [OverloadRefusal.Counted]
  simp only [Prod.mk.injEq] at htotals
  omega

end OverloadRun

end BulkTraffic.Http
