import BulkTraffic.Http.Answers
import BulkTraffic.Queue.Chains

/-!
# The timers of a request

A request that the queue executes on the main thread has two timers, both armed with the timeout
of its decision: `withExecutionTimeout` arms the first when the execution begins, and
`executeQueuedRequest` the second when it is called a moment later. `NodeRequest` is the request
with its timers, in the order in which Node serves them: timers of equal delay fire in the order of
their creation, and between two of them the callbacks of all settled promises run.

* `InTime`: how far a request has got while `executeQueuedRequest` waits for its response.
* `InTime.of_processing`: when its timer can fire, the headers have been sent.
-/

namespace BulkTraffic.Http

open BulkTraffic.Lib BulkTraffic.Js BulkTraffic.Queue

namespace RequestSystem

/-! ### The outcome of a task -/

theorem settled_pos_of_settlesTask {id : ℕ} {c : Call} (h : settlesTask id c = true) :
    0 < c.settled id := by
  obtain ⟨task, htask, rfl⟩ := settlesTask_iff.mp h
  cases c with
  | resolve t s v => simp [Call.settles] at htask; simp [htask, isTask]
  | reject t s v => simp [Call.settles] at htask; simp [htask, isTask]
  | _ => simp [Call.settles] at htask

/-- No call has settled a task that is not settled. -/
theorem find?_settlesTask_eq_none {id : ℕ} {log : List Call} (h : weight (Call.settled id) log = 0) :
    log.find? (settlesTask id) = none := by
  apply List.find?_eq_none.mpr
  intro c hc hsettles
  have hpos := settled_pos_of_settlesTask hsettles
  have hle := le_weight_of_mem (Call.settled id) hc
  omega

/-- The promise of a task that is not settled is pending. -/
theorem settlement_eq_none {s : RequestSystem} {id : ℕ} (hid : s.taskId = some id)
    (h : weight (Call.settled id) s.queue.log = 0) : s.settlement = none := by
  rw [taskId] at hid
  split at hid
  · rename_i id' henqueued
    obtain rfl := Option.some.inj hid
    rw [settlement, henqueued]
    simp only [find?_settlesTask_eq_none h]
  · cases hid

/-- A promise that is settled stays as it is. -/
theorem settlement_append {s u : RequestSystem} {r : Except Thrown Unit} {calls : List Call}
    (h : s.settlement = some r) (henqueued : u.exchange.enqueued = s.exchange.enqueued)
    (hlog : u.queue.log = s.queue.log ++ calls) : u.settlement = some r := by
  rw [settlement] at h ⊢
  rw [henqueued, hlog]
  split at h
  · exact h
  · rename_i id _
    rw [List.find?_append]
    cases hfind : s.queue.log.find? (settlesTask id) with
    | none =>
      rw [hfind] at h
      cases h
    | some c =>
      rw [hfind] at h
      exact h
  · cases h

/-- A task's chain rejects it: the promise is rejected. -/
theorem settlement_of_reject {s u : RequestSystem} {task : QueueTask} {thrown : Thrown}
    (hid : s.taskId = some task.id) (h : weight (Call.settled task.id) s.queue.log = 0)
    (henqueued : u.exchange.enqueued = s.exchange.enqueued)
    (hlog : u.queue.log = s.queue.log ++ [.reject task .mainThread thrown]) :
    u.settlement = some (.error thrown) := by
  rw [taskId] at hid
  split at hid
  · rename_i id hen
    obtain rfl := Option.some.inj hid
    have hself : settlesTask task.id (.reject task .mainThread thrown) = true :=
      settlesTask_iff.mpr ⟨task, rfl, rfl⟩
    rw [settlement, henqueued, hen, hlog]
    dsimp only
    rw [List.find?_append, find?_settlesTask_eq_none h, Option.none_or, List.find?_singleton,
      if_pos hself]
  · cases hid

theorem taskId_congr {s u : RequestSystem} (h : u.exchange.enqueued = s.exchange.enqueued) :
    u.taskId = s.taskId := by
  rw [taskId, taskId, h]

/-- An event of the queue adds calls; where they execute the request, `executeQueuedRequest` runs. -/
theorem queue_cases {s u : RequestSystem} {e : QueueEvent} {nextThrows : Bool}
    (hkeyed : s.queue.state.Keyed) (hu : s.step (.queue e nextThrows) = some u) :
    ∃ calls, s.queue.step e = some u.queue ∧ u.queue.log = s.queue.log ++ calls ∧
      u.queue.log.drop s.queue.log.length = calls ∧
      ((executesRequest s.taskId calls = true ∧
          u.exchange = s.exchange.executeQueuedRequest nextThrows) ∨
        (executesRequest s.taskId calls = false ∧ u.exchange = s.exchange)) := by
  simp only [step] at hu
  split at hu
  · cases hu
  · rename_i queue hqueue
    obtain rfl := Option.some.inj hu
    obtain ⟨calls, hlog⟩ := QueueSystem.step_logged hkeyed hqueue
    have hcalls : queue.log.drop s.queue.log.length = calls := by simp [← hlog]
    refine ⟨calls, hqueue, hlog.symm, hcalls, ?_⟩
    dsimp only
    rw [hcalls]
    cases hexecutes : executesRequest s.taskId calls with
    | true => exact .inl ⟨rfl, if_pos rfl⟩
    | false => exact .inr ⟨rfl, if_neg (by simp)⟩

/-- The end of an execution executes nothing. -/
theorem finish_cases {s u : RequestSystem} {c : Chain} {outcome : Outcome}
    (hu : s.step (.queue (c.event (.finish outcome)) false) = some u) :
    s.queue.step (c.event (.finish outcome)) = some u.queue ∧ u.queue.log = s.queue.log ∧
      u.exchange = s.exchange := by
  simp only [step] at hu
  split at hu
  · cases hu
  · rename_i queue hqueue
    obtain rfl := Option.some.inj hu
    obtain ⟨r, stage, -, -, hlog, -⟩ := QueueSystem.step_chain hqueue
    have hsame : queue.log = s.queue.log := hlog.trans (List.append_nil _)
    refine ⟨hqueue, hsame, if_neg ?_⟩
    rw [hsame, List.drop_length]
    exact Bool.false_ne_true

end RequestSystem

/-! ### A request in Node -/

/-- The timers of a request on the main thread. -/
inductive RequestTimer where
  /-- The one of `withExecutionTimeout`. -/
  | execution
  /-- The one of `executeQueuedRequest`. -/
  | processing
  deriving DecidableEq

/-- A request on its way through the middleware, with its timers. -/
structure NodeRequest where
  /-- The queue and the request. -/
  system : RequestSystem
  /-- The timeout with which `enqueue` has called `withExecutionTimeout`. -/
  executionTimeout : Option ℕ := none
  /-- The timers that are armed and their delays, in the order of their creation. -/
  timers : List (RequestTimer × ℕ) := []
  /-- The rest of the program has sent its response. -/
  handlerSent : Bool := false
  /-- The timer of `executeQueuedRequest` has fired. -/
  overdue : Bool := false

/-- What can happen. -/
inductive NodeEvent where
  /-- An event that is no timer of the request and does not end its execution. -/
  | request (e : RequestEvent)
  /-- `withExecutionTimeout` sees the promise of the execution settled. -/
  | executionEnds (c : Chain) (outcome : Outcome)
  /-- The timer of `withExecutionTimeout` fires. -/
  | executionTimer (c : Chain)
  /-- The timer of `executeQueuedRequest` fires. -/
  | processingTimer

namespace RequestSystem

/-- Is this the promise chain of the request? -/
def isOwn (s : RequestSystem) (r : RunningTask) : Bool := s.taskId == some r.task.id

/-- Has a promise on this chain been settled whose callback has not run yet? -/
def chainWaits (s : RequestSystem) (r : RunningTask) : Bool :=
  s.isOwn r && match r.stage with
    | .started => s.exchange.execution = .settled
    | .finished _ => true
    | _ => false

/-- A callback of a promise of the request is about to run. -/
def callbackWaits (s : RequestSystem) : Bool :=
  (s.exchange.phase = .awaiting && s.settlement.isSome) || s.queue.running.any s.chainWaits ||
    s.queue.groups.any fun g => g.members.any s.chainWaits

/-- Does the event end the execution of the request, or is it its timer? -/
def isTimed (s : RequestSystem) : RequestEvent → Bool
  | .processingTimer => true
  | .queue (.single k (.finish _)) _ => (s.queue.chainAt (.single k)).any s.isOwn
  | .queue (.member k m (.finish _)) _ => (s.queue.chainAt (.member k m)).any s.isOwn
  | _ => false

/-- The timeout of the task `enqueue` makes of the request. -/
def enqueuedTimeout (s : RequestSystem) (requestId : String) (now : ℕ) : Option ℕ :=
  match (s.queue.enqueue (enqueueOptions s.exchange.decision requestId) now).1 with
  | .ok task => task.timeout
  | .error _ => none

end RequestSystem

namespace NodeRequest

/-- Can this timer fire? No callback of a promise is waiting, and no timer of the same delay has
been armed before it. -/
def canFire (s : NodeRequest) (timer : RequestTimer) : Bool :=
  !s.system.callbackWaits && s.timers.any fun t =>
    t.1 = timer && (s.timers.find? fun t' => t'.2 = t.2) = some t

/-- The timers an event arms: those of the execution of the request, where it starts. -/
def arms (s : NodeRequest) (u : RequestSystem) : RequestEvent → List (RequestTimer × ℕ)
  | .queue _ nextThrows =>
    if RequestSystem.executesRequest s.system.taskId (u.queue.log.drop s.system.queue.log.length) then
      (s.executionTimeout.toList.map fun ms => (.execution, timerDelay ms)) ++
        if nextThrows then [] else [(.processing, timerDelay s.system.exchange.decision.timeout)]
    else []
  | _ => []

/-- `clearTimeout(..)` of a timer. -/
def clear (timer : RequestTimer) (timers : List (RequestTimer × ℕ)) : List (RequestTimer × ℕ) :=
  timers.filter fun t => t.1 ≠ timer

/-- An event of the request has happened. The variable `settled` of `executeQueuedRequest` is set
together with the `cleanup()` of its timer. -/
def afterEvent (s : NodeRequest) (e : RequestEvent) (u : RequestSystem) : NodeRequest where
  system := u
  executionTimeout := match e with
    | .arrive requestId now => s.system.enqueuedTimeout requestId now
    | _ => s.executionTimeout
  timers :=
    if u.exchange.execution = .settled then clear .processing (s.timers ++ s.arms u e)
    else s.timers ++ s.arms u e
  handlerSent := match e with
    | .answerSent => true
    | _ => s.handlerSent
  overdue := s.overdue

/-- One event. -/
def step (s : NodeRequest) : NodeEvent → Option NodeRequest
  | .request e =>
    if s.system.isTimed e then none else (s.system.step e).map (s.afterEvent e)
  | .executionEnds c outcome =>
    match s.system.queue.chainAt c with
    | some { task := task, stage := .started } =>
      if s.system.taskId = some task.id ∧ s.system.exchange.execution = .settled then
        (s.system.step (.queue (c.event (.finish outcome)) false)).map fun u =>
          { s with system := u, timers := clear .execution s.timers }
      else none
    | _ => none
  | .executionTimer c =>
    match s.system.queue.chainAt c, s.executionTimeout with
    | some { task := task, stage := .started }, some ms =>
      if s.system.taskId = some task.id ∧ s.canFire .execution = true then
        (s.system.step (.queue (c.event (.finish (.error (.error (executionTimeoutMessage ms)))))
          false)).map fun u => { s with system := u, timers := clear .execution s.timers }
      else none
    | _, _ => none
  | .processingTimer =>
    if s.canFire .processing then
      (s.system.step .processingTimer).map fun u =>
        { s with system := u, timers := clear .processing s.timers, overdue := true }
    else none

/-- A queue in some state it can be in, and a request about to be handled. -/
def initial (queue : QueueSystem) (requestProcessingTimeoutMs : ℕ) (allowCustomWorkload : Bool)
    (req : Request) : NodeRequest where
  system := .initial queue requestProcessingTimeoutMs allowCustomWorkload req

/-! ### How far a request on the main thread has got -/

/-- The response to the rejection by the timer of `withExecutionTimeout`. -/
def executionTimeoutResponse (timeoutMs : ℕ) : HttpResponse :=
  Exchange.errorResponse (.error (executionTimeoutMessage timeoutMs))

/-- How far a request has got while `executeQueuedRequest` waits for its response. -/
inductive InTime (decision : RequestRoutingDecision) (s : NodeRequest) : Prop where
  /-- Both timers are armed with the same delay, that of the execution first. -/
  | armed (id : ℕ) (own : s.system.taskId = some id)
      (timers : s.timers = [(.execution, timerDelay decision.timeout),
        (.processing, timerDelay decision.timeout)])
      (started : 0 < s.system.queue.chains (QueueSystem.startedTask id))
      (awaiting : s.system.exchange.phase = .awaiting) (sent : s.system.exchange.sent = [])
  /-- The execution timer has fired, and the chain of the task is about to notice. -/
  | expired (id : ℕ) (own : s.system.taskId = some id)
      (timers : s.timers = [(.processing, timerDelay decision.timeout)])
      (timedOut : 0 < s.system.queue.chains (QueueSystem.timedOutTask id decision.timeout))
      (awaiting : s.system.exchange.phase = .awaiting) (sent : s.system.exchange.sent = [])
  /-- The task is rejected, and `use` is about to notice. -/
  | rejected (timers : s.timers = [(.processing, timerDelay decision.timeout)])
      (settlement : s.system.settlement =
        some (.error (.error (executionTimeoutMessage decision.timeout))))
      (awaiting : s.system.exchange.phase = .awaiting) (sent : s.system.exchange.sent = [])
  /-- `use` has noticed: the headers are sent. -/
  | answered (timers : s.timers = [(.processing, timerDelay decision.timeout)])
      (headers : s.system.exchange.headersSent = true)
      (response : s.handlerSent = false →
        s.system.exchange.sent = [executionTimeoutResponse decision.timeout])

/-! ### Which timer fires -/

theorem canFire_cases {s : NodeRequest} {timer : RequestTimer} (h : s.canFire timer = true) :
    s.system.callbackWaits = false ∧
      ∃ t ∈ s.timers, t.1 = timer ∧ (s.timers.find? fun t' => t'.2 = t.2) = some t := by
  simpa [canFire] using h

/-- A chain with its task rejected has a callback to run. -/
theorem callbackWaits_of_timedOut {s : RequestSystem} {id timeoutMs : ℕ} (hid : s.taskId = some id)
    (h : 0 < s.queue.chains (QueueSystem.timedOutTask id timeoutMs)) : s.callbackWaits = true := by
  have hwaits : ∀ r : RunningTask, 0 < QueueSystem.timedOutTask id timeoutMs r →
      s.chainWaits r = true := by
    intro r hr
    rw [QueueSystem.timedOutTask] at hr
    split at hr
    · rename_i hstage
      split at hr
      · have hown : r.task.id = id := isTask_pos.mp hr
        simp [RequestSystem.chainWaits, RequestSystem.isOwn, hid, hown, hstage]
      · omega
    · omega
  rw [RequestSystem.callbackWaits, Bool.or_assoc, Bool.or_eq_true]
  right
  rw [Bool.or_eq_true, List.any_eq_true, List.any_eq_true]
  rw [QueueSystem.chains] at h
  rcases Nat.eq_zero_or_pos (weight (QueueSystem.timedOutTask id timeoutMs) s.queue.running) with hz | hpos
  · right
    obtain ⟨g, hg, hw⟩ := exists_mem_of_weight_pos (l := s.queue.groups)
      (w := inGroup (QueueSystem.timedOutTask id timeoutMs)) (by omega)
    obtain ⟨r, hr, hr'⟩ := exists_mem_of_weight_pos hw
    exact ⟨g, hg, List.any_eq_true.mpr ⟨r, hr, hwaits r hr'⟩⟩
  · left
    obtain ⟨r, hr, hr'⟩ := exists_mem_of_weight_pos hpos
    exact ⟨r, hr, hwaits r hr'⟩

/-- **The processing timer comes too late**: when it can fire, the headers are sent. -/
theorem InTime.of_processing {decision : RequestRoutingDecision} {s : NodeRequest}
    (h : InTime decision s) (hfire : s.canFire .processing = true) :
    s.system.exchange.headersSent = true ∧ (s.handlerSent = false →
      s.system.exchange.sent = [executionTimeoutResponse decision.timeout]) := by
  obtain ⟨hquiet, t, ht, htimer, hfirst⟩ := canFire_cases hfire
  cases h with
  | armed id own timers started awaiting sent =>
    -- the timer of the execution has the same delay and was armed before
    rw [timers] at ht hfirst
    obtain rfl | ht := List.mem_cons.mp ht
    · cases htimer
    · obtain rfl := List.mem_singleton.mp ht
      simp at hfirst
  | expired id own timers timedOut awaiting sent =>
    rw [callbackWaits_of_timedOut own timedOut] at hquiet
    cases hquiet
  | rejected timers settlement awaiting sent =>
    simp [RequestSystem.callbackWaits, awaiting, settlement] at hquiet
  | answered timers headers response => exact ⟨headers, response⟩

/-- **The promise of `enqueue` is rejected by the execution timer**, if it is settled before the
headers are sent. -/
theorem InTime.of_settlement {decision : RequestRoutingDecision} {s : NodeRequest}
    (h : InTime decision s) (hledger : s.system.queue.Ledger) {r : Except Thrown Unit}
    (hr : s.system.settlement = some r) :
    s.timers = [(.processing, timerDelay decision.timeout)] ∧
      (r = .error (.error (executionTimeoutMessage decision.timeout)) ∧ s.system.exchange.sent = [] ∨
        s.system.exchange.headersSent = true ∧ (s.handlerSent = false →
          s.system.exchange.sent = [executionTimeoutResponse decision.timeout])) := by
  have hpending : ∀ {id : ℕ} {w : RunningTask → ℕ}, s.system.taskId = some id →
      (∀ r, w r ≤ unsettledTask id r) → 0 < s.system.queue.chains w → False := by
    intro id w hid hle hpos
    rw [RequestSystem.settlement_eq_none hid (hledger.settled_eq_zero hle hpos)] at hr
    cases hr
  cases h with
  | armed id own timers started awaiting sent =>
    exact (hpending own (QueueSystem.startedTask_le id) started).elim
  | expired id own timers timedOut awaiting sent =>
    exact (hpending own (QueueSystem.timedOutTask_le id decision.timeout) timedOut).elim
  | rejected timers settlement awaiting sent =>
    exact ⟨timers, .inl ⟨Option.some.inj (hr.symm.trans settlement), sent⟩⟩
  | answered timers headers response => exact ⟨timers, .inr ⟨headers, response⟩⟩

/-! ### The steps of a running request -/

/-- What is sent by others, and what is forgotten, changes nothing for the timers. -/
theorem InTime.congr {decision : RequestRoutingDecision} {s u : NodeRequest}
    (h : InTime decision s) (hqueue : u.system.queue = s.system.queue) (htimers : u.timers = s.timers)
    (henqueued : u.system.exchange.enqueued = s.system.exchange.enqueued)
    (hphase : u.system.exchange.phase = s.system.exchange.phase)
    (hsent : u.system.exchange.sent = s.system.exchange.sent)
    (hheaders : s.system.exchange.headersSent = true → u.system.exchange.headersSent = true)
    (hhandler : u.handlerSent = false → s.handlerSent = false) : InTime decision u := by
  have hid := RequestSystem.taskId_congr henqueued
  cases h with
  | armed id own timers started awaiting sent =>
    exact .armed id (hid.trans own) (htimers.trans timers) (by rw [hqueue]; exact started)
      (hphase.trans awaiting) (hsent.trans sent)
  | expired id own timers timedOut awaiting sent =>
    exact .expired id (hid.trans own) (htimers.trans timers) (by rw [hqueue]; exact timedOut)
      (hphase.trans awaiting) (hsent.trans sent)
  | rejected timers settlement awaiting sent =>
    refine .rejected (htimers.trans timers) ?_ (hphase.trans awaiting) (hsent.trans sent)
    have hlog : u.system.queue.log = s.system.queue.log ++ [] := by simp [hqueue]
    exact RequestSystem.settlement_append settlement henqueued hlog
  | answered timers headers response =>
    exact .answered (htimers.trans timers) (hheaders headers)
      fun hu => hsent.trans (response (hhandler hu))

/-- The step of a chain that takes it away from an execution under way ends the execution. -/
theorem finish_of_started {x : ℕ} {r : RunningTask} {p : PromiseStep} {stage : Stage}
    (hw : 0 < QueueSystem.startedTask x r) (hstage : r.stage.next p = some stage) :
    r.task.id = x ∧ ∃ outcome, p = .finish outcome := by
  obtain ⟨task, old⟩ := r
  cases Stage.moves_of_next hstage with
  | finish outcome => exact ⟨isTask_pos.mp hw, outcome, rfl⟩
  | _ => cases hw

/-- The step of a chain that takes it away from its rejected task rejects the promise of
`enqueue`. -/
theorem settle_of_timedOut {x timeoutMs : ℕ} {r : RunningTask} {p : PromiseStep} {stage : Stage}
    (hw : 0 < QueueSystem.timedOutTask x timeoutMs r) (hstage : r.stage.next p = some stage)
    (hgone : QueueSystem.timedOutTask x timeoutMs { r with stage := stage } = 0) :
    r.task.id = x ∧ QueueSystem.stepCalls r.task p stage =
      [.reject r.task .mainThread (.error (executionTimeoutMessage timeoutMs))] := by
  have hfinished : r.stage = .finished (.error (.error (executionTimeoutMessage timeoutMs))) ∧
      r.task.id = x := by
    rw [QueueSystem.timedOutTask] at hw
    split at hw
    · rename_i message hmessage
      split at hw
      · rename_i htext
        exact ⟨htext ▸ hmessage, isTask_pos.mp hw⟩
      · cases hw
    · cases hw
  obtain ⟨hold, hid⟩ := hfinished
  refine ⟨hid, ?_⟩
  rw [hold] at hstage
  cases p with
  | start => cases hstage
  | settle =>
    obtain rfl := Option.some.inj hstage
    rfl
  | finish outcome =>
    -- a second end of the execution changes nothing
    obtain rfl := Option.some.inj hstage
    rw [← hold] at hgone
    exact absurd hw (by rw [hgone]; exact Nat.lt_irrefl 0)

/-- An event of the queue that neither executes the request nor ends its execution. -/
theorem InTime.queue {decision : RequestRoutingDecision} {s u : NodeRequest} {e : QueueEvent}
    {nextThrows : Bool} {calls : List Call} (h : InTime decision s)
    (hledger : s.system.queue.Ledger) (htimed : s.system.isTimed (.queue e nextThrows) = false)
    (hstep : s.system.queue.step e = some u.system.queue)
    (hlog : u.system.queue.log = s.system.queue.log ++ calls)
    (hexchange : u.system.exchange = s.system.exchange) (htimers : u.timers = s.timers)
    (hhandler : u.handlerSent = s.handlerSent) : InTime decision u := by
  have hid : u.system.taskId = s.system.taskId :=
    RequestSystem.taskId_congr (congrArg Exchange.enqueued hexchange)
  cases h with
  | armed id own timers started awaiting sent =>
    refine .armed id (hid.trans own) (htimers.trans timers) ?_ (by rw [hexchange]; exact awaiting)
      (by rw [hexchange]; exact sent)
    obtain hpos | ⟨c, p, r, stage, rfl, hr, hstage, hw, -⟩ := QueueSystem.chains_pos_of_step
      (fun _ => rfl) (fun _ hs => QueueSystem.eq_zero_of_isSettled (QueueSystem.startedTask_le id) hs)
      started hstep
    · exact hpos
    · -- only the end of the execution takes the chain away, and this event does not end it
      obtain ⟨hown, outcome, rfl⟩ := finish_of_started hw hstage
      have hends : (s.system.queue.chainAt c).any s.system.isOwn = true := by
        simp [hr, RequestSystem.isOwn, own, hown]
      have : s.system.isTimed (.queue (c.event (.finish outcome)) nextThrows) = true := by
        cases c <;> exact hends
      rw [htimed] at this
      cases this
  | expired id own timers timedOut awaiting sent =>
    obtain hpos | ⟨c, p, r, stage, rfl, hr, hstage, hw, hgone, hnew⟩ := QueueSystem.chains_pos_of_step
      (fun _ => rfl) (fun _ hs =>
        QueueSystem.eq_zero_of_isSettled (QueueSystem.timedOutTask_le id decision.timeout) hs)
      timedOut hstep
    · exact .expired id (hid.trans own) (htimers.trans timers) hpos (by rw [hexchange]; exact awaiting)
        (by rw [hexchange]; exact sent)
    · obtain ⟨rfl, hcalls⟩ := settle_of_timedOut hw hstage hgone
      have hunsettled := hledger.settled_eq_zero
        (QueueSystem.timedOutTask_le r.task.id decision.timeout) timedOut
      refine .rejected (htimers.trans timers) ?_ (by rw [hexchange]; exact awaiting)
        (by rw [hexchange]; exact sent)
      exact RequestSystem.settlement_of_reject own hunsettled (congrArg Exchange.enqueued hexchange)
        (hcalls ▸ hnew)
  | rejected timers settlement awaiting sent =>
    refine .rejected (htimers.trans timers) ?_ (by rw [hexchange]; exact awaiting)
      (by rw [hexchange]; exact sent)
    exact RequestSystem.settlement_append settlement (congrArg Exchange.enqueued hexchange) hlog
  | answered timers headers response =>
    refine .answered (htimers.trans timers) (by rw [hexchange]; exact headers) fun hu => ?_
    rw [hexchange]
    exact response (hhandler ▸ hu)

/-- The timer of `withExecutionTimeout` fires. -/
theorem InTime.executionTimer {decision : RequestRoutingDecision} {s u : NodeRequest} {c : Chain}
    {task : QueueTask} (h : InTime decision s) (hfire : s.canFire .execution = true)
    (hchain : s.system.queue.chainAt c = some { task := task, stage := .started })
    (hown : s.system.taskId = some task.id)
    (hstep : s.system.queue.step (c.event (.finish (.error (.error
      (executionTimeoutMessage decision.timeout))))) = some u.system.queue)
    (hexchange : u.system.exchange = s.system.exchange)
    (htimers : u.timers = clear .execution s.timers) : InTime decision u := by
  obtain ⟨-, t, ht, htimer, -⟩ := canFire_cases hfire
  have hgone : s.timers = [(.processing, timerDelay decision.timeout)] → False := by
    intro htimers
    rw [htimers] at ht
    obtain rfl := List.mem_singleton.mp ht
    cases htimer
  cases h with
  | armed id own timers started awaiting sent =>
    obtain rfl : id = task.id := Option.some.inj (own.symm.trans hown)
    refine .expired task.id ?_ ?_ ?_ (by rw [hexchange]; exact awaiting) (by rw [hexchange]; exact sent)
    · rw [RequestSystem.taskId_congr (congrArg Exchange.enqueued hexchange)]
      exact own
    · rw [htimers, timers]
      rfl
    · obtain ⟨r, stage, hr, hstage, -, hchains⟩ := QueueSystem.step_chain hstep
      obtain rfl := Option.some.inj (hchain.symm.trans hr)
      obtain rfl := Option.some.inj hstage
      have hmoved := hchains (QueueSystem.timedOutTask task.id decision.timeout)
      have hbefore : QueueSystem.timedOutTask task.id decision.timeout
          { task := task, stage := .started } = 0 := rfl
      have hafter : QueueSystem.timedOutTask task.id decision.timeout
          ⟨task, .finished (.error (.error (executionTimeoutMessage decision.timeout)))⟩ = 1 := by
        simp [QueueSystem.timedOutTask, isTask]
      dsimp only at hmoved
      omega
  | expired id own timers timedOut awaiting sent => exact (hgone timers).elim
  | rejected timers settlement awaiting sent => exact (hgone timers).elim
  | answered timers headers response => exact (hgone timers).elim

end NodeRequest

end BulkTraffic.Http
