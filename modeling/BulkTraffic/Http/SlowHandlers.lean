import BulkTraffic.Http.RequestTimers

/-!
# Slow handlers

`executeQueuedRequest` answers with 408 a request to which the rest of the program has sent nothing
in time. The timer of `withExecutionTimeout` has the same delay and is armed before. It rejects the
task, the rejection reaches the `catch` block of `use` before the next timer fires, and that answers
with 503.

* `Timed`: the invariant of the runs.
* `slow_never_408`: no run ever sends 408.
-/

namespace BulkTraffic.Http

open BulkTraffic.Lib BulkTraffic.Js BulkTraffic.Queue

namespace NodeRequest

/-- What holds in every state of a request with its timers. -/
structure Timed (decision : RequestRoutingDecision) (s : NodeRequest) : Prop where
  handled : RequestSystem.Handled decision s.system
  /-- The task has the timeout of the decision. -/
  timeout : ∀ id, s.system.taskId = some id → s.executionTimeout = some decision.timeout
  idle : s.system.exchange.execution = .idle → s.timers = []
  cleared : s.system.exchange.execution = .settled → ∀ t ∈ s.timers, t.1 ≠ .processing
  running : s.system.exchange.execution = .running → InTime decision s
  /-- `executeQueuedRequest` runs when the task is executed. -/
  executed : s.system.exchange.execution ≠ .idle →
    ∃ id, s.system.taskId = some id ∧ s.system.Executed id
  /-- `use` is done when the task is settled. -/
  resumed : s.system.exchange.phase = .settled → ∀ id, s.system.taskId = some id →
    0 < weight (Call.settled id) s.system.queue.log
  /-- Nothing is sent before the execution and before `use` is done. -/
  unsent : s.system.exchange.execution = .idle → s.system.exchange.phase ≠ .settled →
    s.system.exchange.sent = []
  responded : s.system.exchange.requestState = some true → s.system.exchange.execution = .settled
  headers : s.system.exchange.headersSent = true →
    s.handlerSent = true ∨ s.system.exchange.sent ≠ []
  statuses : ∀ r ∈ s.system.exchange.sent, r.status ≠ 408
  overdue : s.overdue = true → s.system.exchange.execution = .settled ∧
    (s.handlerSent = false → s.system.exchange.sent = [executionTimeoutResponse decision.timeout])

namespace Timed

variable {decision : RequestRoutingDecision} {s : NodeRequest}

/-- An event of the queue that does not execute the request. -/
theorem unexecuted (h : Timed decision s) {u : NodeRequest} {calls : List Call}
    (hhandled : RequestSystem.Handled decision u.system)
    (hlog : u.system.queue.log = s.system.queue.log ++ calls)
    (hexchange : u.system.exchange = s.system.exchange)
    (htimeout : u.executionTimeout = s.executionTimeout) (htimers : ∀ t ∈ u.timers, t ∈ s.timers)
    (hhandler : u.handlerSent = s.handlerSent) (hoverdue : u.overdue = s.overdue)
    (hrunning : s.system.exchange.execution = .running → InTime decision u) : Timed decision u := by
  have hid : u.system.taskId = s.system.taskId :=
    RequestSystem.taskId_congr (congrArg Exchange.enqueued hexchange)
  have hmore : ∀ w, weight w s.system.queue.log ≤ weight w u.system.queue.log := by
    intro w
    rw [hlog, weight_append]
    exact Nat.le_add_right _ _
  refine
    { handled := hhandled
      timeout := fun id hu => htimeout.trans (h.timeout id (hid ▸ hu))
      idle := fun hx => ?_
      cleared := fun hx t ht => h.cleared (hexchange ▸ hx) t (htimers t ht)
      running := fun hx => hrunning (hexchange ▸ hx)
      executed := fun hx => ?_
      resumed := fun hx id hu => ?_
      unsent := fun hx hp => ?_
      responded := fun hx => ?_
      headers := fun hx => ?_
      statuses := fun r hr => h.statuses r (hexchange ▸ hr)
      overdue := fun hx => ?_ }
  · have hnone := h.idle (hexchange ▸ hx)
    rw [hnone] at htimers
    exact List.subset_nil.mp fun t ht => htimers t ht
  · obtain ⟨id, hown, hexecuted⟩ := h.executed (hexchange ▸ hx)
    exact ⟨id, hid.trans hown, Nat.lt_of_lt_of_le hexecuted (hmore _)⟩
  · exact Nat.lt_of_lt_of_le (h.resumed (hexchange ▸ hx) id (hid ▸ hu)) (hmore _)
  · rw [hexchange] at hx hp ⊢
    exact h.unsent hx hp
  · rw [hexchange] at hx ⊢
    exact h.responded hx
  · rw [hexchange] at hx ⊢
    rw [hhandler]
    exact h.headers hx
  · rw [hexchange, hhandler]
    exact h.overdue (hoverdue ▸ hx)

/-- When the queue executes the request, its execution has not begun and nothing is sent. -/
theorem begins (h : Timed decision s) {v : RequestSystem} {e : QueueEvent} {calls : List Call}
    (hledger : v.queue.Ledger) (hstep : s.system.queue.step e = some v.queue)
    (hlog : v.queue.log = s.system.queue.log ++ calls)
    (hexecutes : RequestSystem.executesRequest s.system.taskId calls = true) :
    ∃ id, s.system.taskId = some id ∧ 0 < weight (Call.executed id) calls ∧
      s.system.exchange.execution = .idle ∧ s.system.exchange.phase = .awaiting ∧
      s.system.exchange.sent = [] ∧ 0 < v.queue.chains (QueueSystem.startedTask id) := by
  obtain ⟨id, hid⟩ : ∃ id, s.system.taskId = some id := by
    cases hid : s.system.taskId with
    | none =>
      rw [hid, RequestSystem.not_executesRequest_none] at hexecutes
      cases hexecutes
    | some id => exact ⟨id, rfl⟩
  have hexecuted : 0 < weight (Call.executed id) calls := by
    rw [hid] at hexecutes
    exact RequestSystem.executesRequest_iff.mp hexecutes
  -- the request has not been executed before
  have honce := hledger.executed_le_one id
  rw [hlog, weight_append] at honce
  have hidle : s.system.exchange.execution = .idle := by
    by_contra hne
    obtain ⟨id', hid', hbefore⟩ := h.executed hne
    obtain rfl : id' = id := Option.some.inj (hid'.symm.trans hid)
    rw [RequestSystem.Executed] at hbefore
    omega
  have hstarted := QueueSystem.started_of_step hstep hlog hexecuted
  have hunsettled := hledger.settled_eq_zero (QueueSystem.startedTask_le id) hstarted
  rw [hlog, weight_append] at hunsettled
  have hphase : s.system.exchange.phase = .awaiting := by
    cases hp : s.system.exchange.phase with
    | arriving =>
      have hnone := (h.handled.arriving hp).1
      simp [RequestSystem.taskId, hnone] at hid
    | awaiting => rfl
    | settled =>
      have := h.resumed hp id hid
      omega
  exact ⟨id, hid, hexecuted, hidle, hphase, h.unsent hidle (by rw [hphase]; decide), hstarted⟩

/-- The queue executes the request, and its timers are armed. -/
theorem executes (h : Timed decision s) {v : RequestSystem} {e : QueueEvent} {nextThrows : Bool}
    {calls : List Call} (hhandled : RequestSystem.Handled decision v)
    (hstep : s.system.queue.step e = some v.queue)
    (hlog : v.queue.log = s.system.queue.log ++ calls)
    (hcalls : v.queue.log.drop s.system.queue.log.length = calls)
    (hexecutes : RequestSystem.executesRequest s.system.taskId calls = true)
    (hexchange : v.exchange = s.system.exchange.executeQueuedRequest nextThrows) :
    Timed decision (s.afterEvent (.queue e nextThrows) v) := by
  obtain ⟨id, hid, hexecuted, hidle, hphase, hsent, hstarted⟩ :=
    h.begins hhandled.ledger hstep hlog hexecutes
  have hid' : v.taskId = some id := by
    rw [RequestSystem.taskId_congr (s := s.system) (by rw [hexchange]; rfl)]
    exact hid
  have harms : s.arms v (.queue e nextThrows) = (.execution, timerDelay decision.timeout) ::
      if nextThrows then [] else [(.processing, timerDelay decision.timeout)] := by
    rw [arms, hcalls, if_pos hexecutes, h.timeout id hid, h.handled.decided]
    rfl
  refine
    { handled := hhandled
      timeout := fun id' hu => ?_
      idle := fun hx => ?_
      cleared := fun hx t ht => ?_
      running := fun hx => ?_
      executed := fun _ => ⟨id, hid', ?_⟩
      resumed := fun hx => ?_
      unsent := fun hx => ?_
      responded := fun hx => ?_
      headers := fun hx => ?_
      statuses := fun r hr => ?_
      overdue := fun hx => ?_ }
  · obtain rfl : id' = id := Option.some.inj (hu.symm.trans hid')
    exact h.timeout id' hid
  · have hx : v.exchange.execution = .idle := hx
    rw [hexchange] at hx
    cases nextThrows <;> cases hx
  · have hx : v.exchange.execution = .settled := hx
    simp only [afterEvent, if_pos hx, clear, List.mem_filter] at ht
    simpa using ht.2
  · have hrun : v.exchange.execution = .running := hx
    have hnext : nextThrows = false := by
      rw [hexchange] at hrun
      cases nextThrows with
      | false => rfl
      | true => cases hrun
    subst hnext
    refine .armed id hid' ?_ hstarted ?_ ?_
    · change (if v.exchange.execution = .settled then _ else _) = _
      rw [if_neg (by rw [hrun]; decide), h.idle hidle, harms]
      rfl
    · change v.exchange.phase = .awaiting
      rw [hexchange]
      exact hphase
    · change v.exchange.sent = []
      rw [hexchange]
      exact hsent
  · rw [RequestSystem.Executed]
    change 0 < weight (Call.executed id) v.queue.log
    rw [hlog, weight_append]
    omega
  · have hx : v.exchange.phase = .settled := hx
    rw [hexchange] at hx
    exact absurd (hphase.symm.trans hx) (by decide)
  · have hx : v.exchange.execution = .idle := hx
    rw [hexchange] at hx
    cases nextThrows <;> cases hx
  · have hx : v.exchange.requestState = some true := hx
    rw [hexchange] at hx
    have := h.responded hx
    rw [hidle] at this
    cases this
  · have hx : v.exchange.headersSent = true := hx
    change s.handlerSent = true ∨ v.exchange.sent ≠ []
    rw [hexchange] at hx ⊢
    exact h.headers hx
  · have hr : r ∈ v.exchange.sent := hr
    rw [hexchange] at hr
    exact h.statuses r hr
  · have := (h.overdue hx).1
    rw [hidle] at this
    cases this

/-- The exchange has changed, and the queue has not: what has to be said of the exchange. -/
theorem exchanged (h : Timed decision s) {u : NodeRequest}
    (hhandled : RequestSystem.Handled decision u.system) (hqueue : u.system.queue = s.system.queue)
    (htimeout : u.executionTimeout = s.executionTimeout)
    (henqueued : u.system.exchange.enqueued = s.system.exchange.enqueued)
    (hexecution : u.system.exchange.execution = s.system.exchange.execution ∨
      s.system.exchange.execution = .running ∧ u.system.exchange.execution = .settled)
    (htimers : ∀ t ∈ u.timers, t ∈ s.timers)
    (hcleared : u.system.exchange.execution = .settled → ∀ t ∈ u.timers, t.1 ≠ .processing)
    (hrunning : s.system.exchange.execution = .running → u.system.exchange.execution = .running →
      InTime decision u)
    (hresumed : u.system.exchange.phase = s.system.exchange.phase ∨
      u.system.exchange.phase = .settled ∧ s.system.settlement.isSome)
    (hresponded : u.system.exchange.requestState = some true → u.system.exchange.execution = .settled)
    (hheaders : u.system.exchange.headersSent = true → u.handlerSent = true ∨ u.system.exchange.sent ≠ [])
    (hsent : u.system.exchange.sent = s.system.exchange.sent ∨
      u.system.exchange.phase = .settled ∧ ∀ r ∈ u.system.exchange.sent, r.status ≠ 408)
    (hoverdue : u.overdue = true → u.system.exchange.execution = .settled ∧
      (u.handlerSent = false →
        u.system.exchange.sent = [executionTimeoutResponse decision.timeout])) :
    Timed decision u := by
  have hid := RequestSystem.taskId_congr henqueued
  refine
    { handled := hhandled
      timeout := fun id hu => htimeout.trans (h.timeout id (hid ▸ hu))
      idle := fun hx => ?_
      cleared := hcleared
      running := fun hx => ?_
      executed := fun hx => ?_
      resumed := fun hx id hu => ?_
      unsent := fun hx hp => ?_
      responded := hresponded
      headers := hheaders
      statuses := fun r hr => ?_
      overdue := hoverdue }
  · obtain heq | ⟨-, hsettled⟩ := hexecution
    · have hnone := h.idle (heq.symm.trans hx)
      rw [hnone] at htimers
      exact List.subset_nil.mp fun t ht => htimers t ht
    · rw [hsettled] at hx
      cases hx
  · obtain heq | ⟨-, hsettled⟩ := hexecution
    · exact hrunning (heq.symm.trans hx) hx
    · rw [hsettled] at hx
      cases hx
  · have hbefore : s.system.exchange.execution ≠ .idle := by
      obtain heq | ⟨hrun, -⟩ := hexecution
      · exact heq ▸ hx
      · rw [hrun]
        decide
    obtain ⟨id, hown, hexecuted⟩ := h.executed hbefore
    refine ⟨id, hid.trans hown, ?_⟩
    rw [RequestSystem.Executed, hqueue]
    exact hexecuted
  · rw [hqueue]
    obtain heq | ⟨-, hsettled⟩ := hresumed
    · exact h.resumed (heq.symm.trans hx) id (hid ▸ hu)
    · apply Nat.pos_of_ne_zero
      intro hz
      rw [RequestSystem.settlement_eq_none (hid ▸ hu) hz] at hsettled
      cases hsettled
  · obtain heq | ⟨hdone, -⟩ := hsent
    · rw [heq]
      refine h.unsent ?_ fun hs => hp ?_
      · obtain heq | ⟨-, hsettled⟩ := hexecution
        · exact heq.symm.trans hx
        · rw [hsettled] at hx
          cases hx
      · obtain heq | ⟨hdone, -⟩ := hresumed
        · exact heq.trans hs
        · exact hdone
    · exact absurd hdone hp
  · obtain heq | ⟨-, hnew⟩ := hsent
    · exact h.statuses r (heq ▸ hr)
    · exact hnew r hr

/-- An event that arms no timers. -/
theorem afterEvent_timers {e : RequestEvent} {v : RequestSystem} (hnone : s.arms v e = []) :
    (∀ t ∈ (s.afterEvent e v).timers, t ∈ s.timers) ∧
      (v.exchange.execution = .settled → ∀ t ∈ (s.afterEvent e v).timers, t.1 ≠ .processing) ∧
      (v.exchange.execution = .running → (s.afterEvent e v).timers = s.timers) := by
  have heq : (s.afterEvent e v).timers =
      if v.exchange.execution = .settled then clear .processing s.timers else s.timers := by
    rw [← List.append_nil s.timers, ← hnone]
    rfl
  rw [heq]
  refine ⟨fun t ht => ?_, fun hv t ht => ?_, fun hv => ?_⟩
  · split at ht
    · exact List.mem_of_mem_filter ht
    · exact ht
  · rw [if_pos hv, clear, List.mem_filter] at ht
    simpa using ht.2
  · exact if_neg (by rw [hv]; decide)

theorem afterEvent_timers_nil {e : RequestEvent} {v : RequestSystem} (hnone : s.arms v e = [])
    (htimers : s.timers = []) : (s.afterEvent e v).timers = [] := by
  have hkept := (afterEvent_timers hnone).1
  rw [htimers] at hkept
  exact List.subset_nil.mp fun t ht => hkept t ht

/-- A request whose execution has not begun. -/
theorem before {u : NodeRequest} (hhandled : RequestSystem.Handled decision u.system)
    (hidle : u.system.exchange.execution = .idle) (htimers : u.timers = [])
    (htimeout : ∀ id, u.system.taskId = some id → u.executionTimeout = some decision.timeout)
    (hresumed : u.system.exchange.phase = .settled → u.system.taskId = none)
    (hunsent : u.system.exchange.phase ≠ .settled → u.system.exchange.sent = [])
    (hresponded : u.system.exchange.requestState ≠ some true)
    (hheaders : u.system.exchange.headersSent = true → u.handlerSent = true ∨ u.system.exchange.sent ≠ [])
    (hstatuses : ∀ r ∈ u.system.exchange.sent, r.status ≠ 408) (hoverdue : u.overdue = false) :
    Timed decision u where
  handled := hhandled
  timeout := htimeout
  idle _ := htimers
  cleared _ t ht := by
    rw [htimers] at ht
    cases ht
  running hx := by
    rw [hidle] at hx
    cases hx
  executed hx := absurd hidle hx
  resumed hx id hid := by
    rw [hresumed hx] at hid
    cases hid
  unsent _ hp := hunsent hp
  responded hx := absurd hx hresponded
  headers := hheaders
  statuses := hstatuses
  overdue hx := by
    rw [hoverdue] at hx
    cases hx

/-- A refusal before the request is enqueued. -/
theorem refuse_cases (x : Exchange) (response : HttpResponse) :
    (x.refuse response).execution = x.execution ∧ (x.refuse response).enqueued = x.enqueued ∧
      (x.refuse response).phase = .settled ∧ (x.refuse response).requestState = none ∧
      ((x.headersSent = true ∧ (x.refuse response).sent = x.sent) ∨
        (x.refuse response).sent = x.sent ++ [response]) := by
  rw [Exchange.refuse]
  cases hx : x.headersSent with
  | false => simp [hx, Exchange.release, Exchange.send, Exchange.markResponded]
  | true => simp [hx, Exchange.release, Exchange.markResponded]

/-- The task `enqueue` makes of a request has the timeout of its decision. -/
theorem enqueuedTimeout_eq {s : RequestSystem} {requestId : String} {now : ℕ} {task : QueueTask}
    (h : (s.queue.enqueue (enqueueOptions s.exchange.decision requestId) now).1 = .ok task) :
    s.enqueuedTimeout requestId now = some s.exchange.decision.timeout := by
  rw [RequestSystem.enqueuedTimeout, h]
  simp only [QueueSystem.enqueue] at h
  split at h
  · cases h
  · rename_i n hn
    obtain ⟨-, htimeout⟩ := normalize_enqueueOptions hn
    split at h
    · cases h
    · split at h
      · cases h
      · obtain rfl := Except.ok.inj h
        exact congrArg some htimeout

/-- `use` refuses the request. -/
theorem refused {response : HttpResponse} {x : Exchange} {requestId : String} {now : ℕ}
    (hhandled : RequestSystem.Handled decision ⟨s.system.queue, x.refuse response⟩)
    (hstatus : response.status ≠ 408) (hidle : x.execution = .idle) (hnone : x.enqueued = none)
    (hsent : x.sent = []) (hheaders : x.headersSent = true → s.handlerSent = true)
    (htimers : s.timers = []) (hoverdue : s.overdue = false) :
    Timed decision (s.afterEvent (.arrive requestId now) ⟨s.system.queue, x.refuse response⟩) := by
  obtain ⟨hexecution, henqueued, hphase, hstate, hresponse⟩ := refuse_cases x response
  have htask : (⟨s.system.queue, x.refuse response⟩ : RequestSystem).taskId = none := by
    simp [RequestSystem.taskId, henqueued, hnone]
  refine before hhandled (hexecution.trans hidle) (afterEvent_timers_nil rfl htimers) ?_
    (fun _ => htask) (fun hp => absurd hphase hp) ?_ ?_ ?_ hoverdue
  · intro id hid
    have hbad : none = some id := htask.symm.trans hid
    cases hbad
  · change (x.refuse response).requestState ≠ some true
    rw [hstate]
    simp
  · intro _
    change s.handlerSent = true ∨ (x.refuse response).sent ≠ []
    obtain ⟨hbefore, -⟩ | hnew := hresponse
    · exact .inl (hheaders hbefore)
    · exact .inr (by simp [hnew])
  · intro r hr
    have hr : r ∈ (x.refuse response).sent := hr
    obtain ⟨-, hold⟩ | hnew := hresponse
    · rw [hold, hsent] at hr
      cases hr
    · rw [hnew, hsent] at hr
      obtain rfl := List.mem_singleton.mp hr
      exact hstatus

/-- `use` awaits the promise of `enqueue`. -/
theorem awaits (h : Timed decision s) {queue : QueueSystem} {result : Except Thrown ℕ}
    {requestId : String} {now : ℕ}
    (hhandled : RequestSystem.Handled decision ⟨queue, { s.system.exchange with
      requestState := some false, enqueued := some result, phase := .awaiting }⟩)
    (hidle : s.system.exchange.execution = .idle) (hsent : s.system.exchange.sent = [])
    (hoverdue : s.overdue = false)
    (htimeout : ∀ id, result = .ok id →
      s.system.enqueuedTimeout requestId now = some decision.timeout) :
    Timed decision (s.afterEvent (.arrive requestId now) ⟨queue, { s.system.exchange with
      requestState := some false, enqueued := some result, phase := .awaiting }⟩) := by
  refine before hhandled hidle (afterEvent_timers_nil rfl (h.idle hidle)) ?_ (fun hx => by cases hx)
    (fun _ => hsent) (fun hx => by cases hx) h.headers h.statuses hoverdue
  intro id hid
  simp only [afterEvent]
  cases result with
  | ok id => exact htimeout id rfl
  | error message => cases hid

/-- `use` is called. -/
theorem arrive (h : Timed decision s) {requestId : String} {now : ℕ} {v : RequestSystem}
    (hv : s.system.step (.arrive requestId now) = some v) :
    Timed decision (s.afterEvent (.arrive requestId now) v) := by
  have hhandled := h.handled.step hv
  simp only [RequestSystem.step] at hv
  split at hv
  · rename_i ha
    obtain rfl := Option.some.inj hv
    obtain ⟨hnone, hsent, -⟩ := h.handled.arriving ha
    have htask : s.system.taskId = none := by simp [RequestSystem.taskId, hnone]
    have hidle : s.system.exchange.execution = .idle := by
      by_contra hne
      obtain ⟨id, hid, -⟩ := h.executed hne
      rw [htask] at hid
      cases hid
    have hheaders : s.system.exchange.headersSent = true → s.handlerSent = true := fun hx =>
      (h.headers hx).resolve_right fun hne => hne hsent
    have hoverdue : s.overdue = false := by
      by_contra hx
      have hdone := (h.overdue (by simpa using hx)).1
      rw [hidle] at hdone
      cases hdone
    have htimers := h.idle hidle
    revert hhandled
    rw [RequestSystem.use]
    dsimp only
    split
    · intro hhandled
      refine before hhandled hidle (afterEvent_timers_nil rfl htimers) ?_ (fun _ => htask)
        (fun hp => absurd rfl hp) ?_ h.headers h.statuses hoverdue
      · intro id hid
        have hbad : none = some id := htask.symm.trans hid
        cases hbad
      · intro hx
        have hdone := h.responded hx
        rw [hidle] at hdone
        cases hdone
    · split
      · intro hhandled
        exact refused hhandled (by decide) hidle hnone hsent hheaders htimers hoverdue
      · split
        · intro hhandled
          exact refused hhandled (by decide) hidle hnone hsent hheaders htimers hoverdue
        · rcases hq : s.system.queue.enqueue (enqueueOptions s.system.exchange.decision requestId) now
            with ⟨result, queue⟩
          have haccepted : ∀ task, result = .ok task →
              s.system.enqueuedTimeout requestId now = some decision.timeout := by
            intro task hresult
            rw [← h.handled.decided]
            apply enqueuedTimeout_eq
            rw [hq, hresult]
          refine fun hhandled => h.awaits hhandled hidle hsent hoverdue fun id hresult => ?_
          cases result with
          | ok task => exact haccepted task rfl
          | error message => cases hresult
  · cases hv

/-- The rest of the program sends its response. -/
theorem answerSent (h : Timed decision s) {v : RequestSystem}
    (hv : s.system.step .answerSent = some v) : Timed decision (s.afterEvent .answerSent v) := by
  have hhandled := h.handled.step hv
  simp only [RequestSystem.step] at hv
  split at hv
  · obtain rfl := Option.some.inj hv
    obtain ⟨htimers, hcleared, hsame⟩ := afterEvent_timers (s := s) (e := .answerSent)
      (v := { s.system with exchange := { s.system.exchange with headersSent := true } }) rfl
    refine h.exchanged hhandled rfl rfl rfl (.inl rfl) htimers hcleared (fun hx _ => ?_) (.inl rfl)
      h.responded (fun _ => .inl rfl) (.inl rfl) fun hx => ⟨(h.overdue hx).1, fun hn => by cases hn⟩
    exact (h.running hx).congr rfl (hsame hx) rfl rfl rfl (fun _ => rfl) fun hn => by cases hn
  · cases hv

/-- The timer of the `RequestStateStore` fires. -/
theorem stateExpired (h : Timed decision s) {v : RequestSystem}
    (hv : s.system.step .stateExpired = some v) : Timed decision (s.afterEvent .stateExpired v) := by
  have hhandled := h.handled.step hv
  obtain rfl := Option.some.inj hv
  obtain ⟨htimers, hcleared, hsame⟩ := afterEvent_timers (s := s) (e := .stateExpired)
    (v := { s.system with exchange := { s.system.exchange with requestState := none } }) rfl
  refine h.exchanged hhandled rfl rfl rfl (.inl rfl) htimers hcleared (fun hx _ => ?_) (.inl rfl)
    (fun hx => by cases hx) h.headers (.inl rfl) h.overdue
  exact (h.running hx).congr rfl (hsame hx) rfl rfl rfl id id

/-- The response is finished, or the connection closed. -/
theorem responseFinished (h : Timed decision s) {v : RequestSystem}
    (hv : s.system.step .responseFinished = some v) :
    Timed decision (s.afterEvent .responseFinished v) := by
  have hhandled := h.handled.step hv
  simp only [RequestSystem.step] at hv
  split at hv
  · rename_i hrun
    obtain rfl := Option.some.inj hv
    have hfinished : s.system.exchange.onResponseFinished = { s.system.exchange with
        requestState := s.system.exchange.requestState.map fun _ => true
        execution := .settled } := by
      simp [Exchange.onResponseFinished, Exchange.markResponded, Exchange.finish, hrun]
    obtain ⟨htimers, hcleared, -⟩ := afterEvent_timers (s := s) (e := .responseFinished)
      (v := { s.system with exchange := s.system.exchange.onResponseFinished }) rfl
    revert hhandled htimers hcleared
    rw [hfinished]
    intro hhandled htimers hcleared
    refine h.exchanged hhandled rfl rfl rfl (.inr ⟨hrun, rfl⟩) htimers hcleared
      (fun _ hx => by cases hx) (.inl rfl) (fun _ => rfl) h.headers (.inl rfl) fun hx => ?_
    exact ⟨rfl, (h.overdue hx).2⟩
  · cases hv

/-- No error of the queue is answered with 408. -/
theorem errorResponse_status (thrown : Thrown) : (Exchange.errorResponse thrown).status ≠ 408 := by
  rw [Exchange.errorResponse]
  dsimp only
  split
  · decide
  · split <;> decide

/-- The `catch` block of `use`. -/
theorem onError_cases (x : Exchange) (thrown : Thrown) :
    x.onError thrown = x ∧ (x.headersSent = true ∨ x.requestState = some true) ∨
      x.headersSent = false ∧ (x.onError thrown) = { x with
        requestState := x.requestState.map fun _ => true
        headersSent := true
        sent := x.sent ++ [Exchange.errorResponse thrown] } := by
  rw [Exchange.onError]
  split
  · rename_i hsends
    simp only [Bool.and_eq_true, Bool.not_eq_true'] at hsends
    exact .inr ⟨hsends.2, rfl⟩
  · rename_i hnot
    refine .inl ⟨rfl, ?_⟩
    cases hx : x.headersSent with
    | true => exact .inl rfl
    | false =>
      right
      cases hs : x.requestState with
      | none => simp [hx, Exchange.hasResponded, hs] at hnot
      | some b => simpa [hx, Exchange.hasResponded, hs] using hnot

/-- `use` catches the error of the queue. -/
theorem caught (h : Timed decision s) {thrown : Thrown}
    (hhandled : RequestSystem.Handled decision
      { s.system with exchange := (s.system.exchange.onError thrown).release })
    (herror : s.system.settlement = some (.error thrown)) :
    Timed decision (s.afterEvent .resume
      { s.system with exchange := (s.system.exchange.onError thrown).release }) := by
  obtain ⟨htimers, hcleared, hsame⟩ := afterEvent_timers (s := s) (e := .resume)
    (v := { s.system with exchange := (s.system.exchange.onError thrown).release }) rfl
  revert hhandled htimers hcleared hsame
  obtain ⟨heq, hwhy⟩ | ⟨hnone, heq⟩ := onError_cases s.system.exchange thrown
  · rw [heq]
    intro hhandled htimers hcleared hsame
    refine h.exchanged hhandled rfl rfl rfl (.inl rfl) htimers hcleared (fun hx _ => ?_)
      (.inr ⟨rfl, by rw [herror]; rfl⟩) (fun hx => by cases hx) h.headers (.inl rfl) h.overdue
    have hheaders : s.system.exchange.headersSent = true := by
      refine hwhy.resolve_right fun hs => ?_
      have hdone := h.responded hs
      rw [hx] at hdone
      cases hdone
    obtain ⟨timers, ⟨-, hsent⟩ | ⟨headers, response⟩⟩ :=
      (h.running hx).of_settlement h.handled.ledger herror
    · -- the rest of the program was faster
      have hhandler := (h.headers hheaders).resolve_right fun hne => hne hsent
      exact .answered ((hsame hx).trans timers) hheaders
        fun hn => absurd (hhandler.symm.trans hn) (by decide)
    · exact .answered ((hsame hx).trans timers) headers response
  · rw [heq]
    intro hhandled htimers hcleared hsame
    refine h.exchanged hhandled rfl rfl rfl (.inl rfl) htimers hcleared (fun hx _ => ?_)
      (.inr ⟨rfl, by rw [herror]; rfl⟩) (fun hx => by cases hx) (fun _ => .inr ?_)
      (.inr ⟨rfl, fun r hr => ?_⟩) fun hx => ⟨(h.overdue hx).1, fun hn => ?_⟩
    · obtain ⟨timers, ⟨hthrown, hsent⟩ | ⟨headers, -⟩⟩ :=
        (h.running hx).of_settlement h.handled.ledger herror
      · refine .answered ((hsame hx).trans timers) rfl fun _ => ?_
        change s.system.exchange.sent ++ [Exchange.errorResponse thrown] = _
        rw [hsent, Except.error.inj hthrown]
        rfl
      · rw [hnone] at headers
        cases headers
    · change s.system.exchange.sent ++ _ ≠ []
      simp
    · have hr : r ∈ s.system.exchange.sent ++ [Exchange.errorResponse thrown] := hr
      rcases List.mem_append.mp hr with hr | hr
      · exact h.statuses r hr
      · obtain rfl := List.mem_singleton.mp hr
        exact errorResponse_status thrown
    · have hsent := (h.overdue hx).2 hn
      have hheaders := h.handled.sentHeaders (by rw [hsent]; simp)
      rw [hnone] at hheaders
      cases hheaders

/-- `use` goes on after its `await`. -/
theorem resume (h : Timed decision s) {v : RequestSystem} (hv : s.system.step .resume = some v) :
    Timed decision (s.afterEvent .resume v) := by
  have hhandled := h.handled.step hv
  simp only [RequestSystem.step] at hv
  split at hv
  · split at hv
    · cases hv
    · rename_i hok
      obtain rfl := Option.some.inj hv
      obtain ⟨htimers, hcleared, hsame⟩ := afterEvent_timers (s := s) (e := .resume)
        (v := { s.system with exchange := s.system.exchange.release }) rfl
      refine h.exchanged hhandled rfl rfl rfl (.inl rfl) htimers hcleared (fun hx _ => ?_)
        (.inr ⟨rfl, by rw [hok]; rfl⟩) (fun hx => by cases hx) h.headers (.inl rfl) h.overdue
      obtain ⟨timers, ⟨hthrown, -⟩ | ⟨headers, response⟩⟩ :=
        (h.running hx).of_settlement h.handled.ledger hok
      · cases hthrown
      · exact .answered ((hsame hx).trans timers) headers response
    · rename_i thrown herror
      obtain rfl := Option.some.inj hv
      exact h.caught hhandled herror
  · cases hv

/-- Something happens in the queue. -/
theorem queue (h : Timed decision s) {e : QueueEvent} {nextThrows : Bool} {v : RequestSystem}
    (htimed : s.system.isTimed (.queue e nextThrows) = false)
    (hv : s.system.step (.queue e nextThrows) = some v) :
    Timed decision (s.afterEvent (.queue e nextThrows) v) := by
  have hhandled := h.handled.step hv
  obtain ⟨calls, hstep, hlog, hcalls, ⟨hexecutes, hexchange⟩ | ⟨hnot, hexchange⟩⟩ :=
    RequestSystem.queue_cases h.handled.ledger.keyed hv
  · exact h.executes hhandled hstep hlog hcalls hexecutes hexchange
  · have harms : s.arms v (.queue e nextThrows) = [] := by
      rw [arms, hcalls, hnot]
      rfl
    obtain ⟨htimers, -, hsame⟩ := afterEvent_timers harms
    refine h.unexecuted hhandled hlog hexchange rfl htimers rfl rfl fun hx => ?_
    exact (h.running hx).queue h.handled.ledger htimed hstep hlog hexchange
      (hsame (by rw [hexchange]; exact hx)) rfl

/-- The execution ends, before its timer fires or by it. -/
theorem finish (h : Timed decision s) {c : Chain} {outcome : Outcome} {v : RequestSystem}
    (hv : s.system.step (.queue (c.event (.finish outcome)) false) = some v)
    (hrunning : s.system.exchange.execution = .running →
      InTime decision { s with system := v, timers := clear .execution s.timers }) :
    Timed decision { s with system := v, timers := clear .execution s.timers } := by
  obtain ⟨-, hlog, hexchange⟩ := RequestSystem.finish_cases hv
  have hlog : v.queue.log = s.system.queue.log ++ [] := by simp [hlog]
  exact h.unexecuted (h.handled.step hv) hlog hexchange rfl
    (fun t ht => List.mem_of_mem_filter ht) rfl rfl hrunning

/-- The timer of `executeQueuedRequest` fires: the headers are sent, so it sends nothing. -/
theorem processingTimer (h : Timed decision s) (hfire : s.canFire .processing = true)
    {v : RequestSystem} (hv : s.system.step .processingTimer = some v) :
    Timed decision
      { s with system := v, timers := clear .processing s.timers, overdue := true } := by
  have hhandled := h.handled.step hv
  simp only [RequestSystem.step] at hv
  split at hv
  · rename_i hrun
    obtain rfl := Option.some.inj hv
    obtain ⟨hheaders, hresponse⟩ := (h.running hrun).of_processing hfire
    have hlate : s.system.exchange.onProcessingTimeout =
        { s.system.exchange with execution := .settled } := by
      simp [Exchange.onProcessingTimeout, hheaders, Exchange.finish, hrun]
    revert hhandled
    rw [hlate]
    intro hhandled
    exact h.exchanged hhandled rfl rfl rfl (.inr ⟨hrun, rfl⟩) (fun t ht => List.mem_of_mem_filter ht)
      (fun _ t ht => by simpa using (List.mem_filter.mp ht).2) (fun _ hx => by cases hx) (.inl rfl)
      (fun _ => rfl) h.headers (.inl rfl) fun _ => ⟨rfl, hresponse⟩
  · cases hv

/-- Every step keeps what holds of the timers. -/
theorem step (h : Timed decision s) {e : NodeEvent} {u : NodeRequest} (hu : s.step e = some u) :
    Timed decision u := by
  cases e with
  | request e =>
    simp only [NodeRequest.step] at hu
    split at hu
    · cases hu
    · rename_i htimed
      obtain ⟨v, hv, rfl⟩ := Option.map_eq_some_iff.mp hu
      cases e with
      | arrive requestId now => exact h.arrive hv
      | queue e nextThrows => exact h.queue (by simpa using htimed) hv
      | resume => exact h.resume hv
      | answerSent => exact h.answerSent hv
      | responseFinished => exact h.responseFinished hv
      | processingTimer => exact absurd rfl htimed
      | stateExpired => exact h.stateExpired hv
  | executionEnds c outcome =>
    simp only [NodeRequest.step] at hu
    split at hu
    · split at hu
      · rename_i hended
        obtain ⟨v, hv, rfl⟩ := Option.map_eq_some_iff.mp hu
        refine h.finish hv fun hx => ?_
        rw [hended.2] at hx
        cases hx
      · cases hu
    · cases hu
  | executionTimer c =>
    simp only [NodeRequest.step] at hu
    split at hu
    · rename_i task timeoutMs hchain htimeout
      split at hu
      · rename_i hfires
        obtain ⟨v, hv, rfl⟩ := Option.map_eq_some_iff.mp hu
        have hms := h.timeout task.id hfires.1
        obtain rfl := Option.some.inj (htimeout.symm.trans hms)
        obtain ⟨hstep, -, hexchange⟩ := RequestSystem.finish_cases hv
        refine h.finish hv fun hx => ?_
        exact (h.running hx).executionTimer hfires.2 hchain hfires.1 hstep hexchange rfl
      · cases hu
    · cases hu
  | processingTimer =>
    simp only [NodeRequest.step] at hu
    split at hu
    · rename_i hfire
      obtain ⟨v, hv, rfl⟩ := Option.map_eq_some_iff.mp hu
      exact h.processingTimer hfire hv
    · cases hu

end Timed

variable {config : QueueConfig} {taskIdCounter : ℕ} {stats : QueueStatsService}
  {parserAllowsCustom useWorkers : Bool} {workerCount : ℕ} {cpu memory custom : Option ℕ}
  {requestProcessingTimeoutMs : ℕ} {allowCustomWorkload : Bool} {req : Request}

/-- **A slow handler never gets 408.** In every state of every run the middleware has sent no
response with status 408. Where the timer of `executeQueuedRequest` has fired and the rest of the
program has sent nothing, it has sent the response to the rejection by the timer of
`withExecutionTimeout`, and no other. -/
theorem slow_never_408 {s : NodeRequest}
    (h : Reachable step (NodeRequest.initial (.initial config taskIdCounter stats parserAllowsCustom
      useWorkers workerCount cpu memory custom) requestProcessingTimeoutMs allowCustomWorkload req) s) :
    (∀ r ∈ s.system.exchange.sent, r.status ≠ 408) ∧
      (s.overdue = true → s.handlerSent = false → s.system.exchange.sent =
        [executionTimeoutResponse
          (QueueRequestAnalyzer.analyze requestProcessingTimeoutMs req).timeout]) := by
  have hs : Timed (QueueRequestAnalyzer.analyze requestProcessingTimeoutMs req) s := by
    refine h.invariant ?_ fun _ _ _ ht _ hu => ht.step hu
    exact Timed.before RequestSystem.Handled.initial rfl rfl (fun id hid => by cases hid)
      (fun _ => rfl) (fun _ => rfl) (fun hx => by cases hx) (fun hx => by cases hx)
      (fun r hr => by cases hr) rfl
  exact ⟨hs.statuses, fun hx => (hs.overdue hx).2⟩

/-- The request for primes, executed by a handler that does not answer until both timers have
fired. -/
def slowPrimes : List NodeEvent :=
  [.request (.arrive "r" 0), .request (.queue (.processSignal fun _ => none) false),
    .request (.queue (.single 0 .start) false), .executionTimer (.single 0),
    .request (.queue (.single 0 .settle) false), .request .resume, .processingTimer]

/-- Both timers of the request for primes have fired. -/
theorem slow_never_408_of_primes :
    ∃ s, Reachable step (NodeRequest.initial (.initial {} 0 {} false false 1 none none none) 10000
        false RequestSystem.primesRequest) s ∧ s.overdue = true ∧ s.handlerSent = false ∧
      (∀ r ∈ s.system.exchange.sent, r.status ≠ 408) ∧
      (s.overdue = true → s.handlerSent = false → s.system.exchange.sent =
        [executionTimeoutResponse
          (QueueRequestAnalyzer.analyze 10000 RequestSystem.primesRequest).timeout]) := by
  obtain ⟨s, hs, hseen⟩ := exists_reaches_of_runEvents step (fun _ _ => True)
    (fun s => (s.overdue, s.handlerSent))
    (s := NodeRequest.initial (.initial {} 0 {} false false 1 none none none) 10000 false
      RequestSystem.primesRequest) slowPrimes (true, false) (by decide +kernel)
  simp only [Prod.mk.injEq] at hseen
  exact ⟨s, hs, hseen.1, hseen.2, slow_never_408 hs⟩

/-- A request that is not marked as bypass is executed on the main thread; its handler sends
nothing, and both timers fire. The middleware has sent one response, with status 503. -/
theorem slow_gets_503 :
    (QueueRequestAnalyzer.analyze 10000 RequestSystem.primesRequest).bypass = false ∧
    ∃ s, Reachable step (NodeRequest.initial (.initial {} 0 {} false false 1 none none none) 10000
        false RequestSystem.primesRequest) s ∧ s.overdue = true ∧ s.handlerSent = false ∧
      s.system.exchange.nextCalls = 1 ∧ s.timers = [] ∧
      s.system.exchange.sent.map (fun r => (r.status, r.message)) =
        [(503, "작업 실행 시간 초과 (10000ms)")] := by
  obtain ⟨s, hs, hseen⟩ := exists_reaches_of_runEvents step (fun _ _ => True)
    (fun s => ((s.overdue, s.handlerSent), (s.system.exchange.nextCalls, s.timers.length),
      s.system.exchange.sent.map fun r => (r.status, r.message)))
    (s := NodeRequest.initial (.initial {} 0 {} false false 1 none none none) 10000 false
      RequestSystem.primesRequest) slowPrimes
    ((true, false), (1, 0), [(503, "작업 실행 시간 초과 (10000ms)")]) (by decide +kernel)
  simp only [Prod.mk.injEq, List.length_eq_zero_iff] at hseen
  obtain ⟨⟨hoverdue, hhandler⟩, ⟨hnext, htimers⟩, hsent⟩ := hseen
  exact ⟨by decide +kernel, s, hs, hoverdue, hhandler, hnext, htimers, hsent⟩

end NodeRequest

end BulkTraffic.Http
