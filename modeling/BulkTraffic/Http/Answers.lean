import BulkTraffic.Http.Middleware

/-!
# Who answers a queued request

A request put into the queue is forwarded by `next()` when the queue executes its task, and
answered by the middleware when the queue rejects it. A worker that resolves the task does
neither: the callback given to `enqueue` never runs, and `use` ends with nothing sent.

* `Handled`: the invariant of the runs.
* `use_iff`: when `use` is done, the request is forwarded or answered exactly when its task
  was not resolved by a worker. The middleware sends at most one response, and none after
  the headers.
-/

namespace BulkTraffic.Http

open BulkTraffic.Lib BulkTraffic.Js BulkTraffic.Queue

namespace RequestSystem

/-- The task with this `id` has been executed. -/
def Executed (s : RequestSystem) (id : ℕ) : Prop := 0 < weight (Call.executed id) s.queue.log

/-- The task with this `id` has been rejected. -/
def Rejected (s : RequestSystem) (id : ℕ) : Prop := 0 < weight (Call.rejected id) s.queue.log

/-- The task of the request has been resolved with the result of a worker. -/
def ResolvedByWorker (s : RequestSystem) : Prop :=
  ∃ task v, s.taskId = some task.id ∧ Call.resolve task .worker v ∈ s.queue.log

/-- The invariant of the runs of a request through the middleware. -/
structure Handled (decision : RequestRoutingDecision) (s : RequestSystem) : Prop where
  ledger : QueueSystem.Ledger s.queue
  decided : s.exchange.decision = decision
  /-- Before `use` is called nothing has happened to the request. -/
  arriving : s.exchange.phase = .arriving →
    s.exchange.enqueued = none ∧ s.exchange.sent = [] ∧ s.exchange.nextCalls = 0
  sentOnce : s.exchange.sent.length ≤ 1
  sentHeaders : s.exchange.sent ≠ [] → s.exchange.headersSent = true
  /-- Headers are sent by the middleware, or after `next()`. -/
  headers : s.exchange.headersSent = true → s.exchange.Answered
  responded : s.exchange.requestState = some true → s.exchange.Answered
  running : s.exchange.execution = .running → 0 < s.exchange.nextCalls
  /-- `next` is called when the queue executes the task. -/
  forwarded : decision.bypass = false →
    (0 < s.exchange.nextCalls ↔ ∃ id, s.taskId = some id ∧ s.Executed id)
  /-- What the middleware sends for a task is its timeout or an error of the queue. -/
  sentBy : decision.bypass = false → ∀ id, s.taskId = some id → s.exchange.sent ≠ [] →
    s.Executed id ∨ s.Rejected id
  done : decision.bypass = false → s.exchange.phase = .settled →
    s.exchange.Answered ∨ s.ResolvedByWorker

/-! ### Tasks of the queue -/

/-- A task on the main thread is settled after it has been executed. -/
theorem executed_of_settledByMain {queue : QueueSystem} (h : queue.Ledger) {x : ℕ}
    (hx : 0 < weight (Call.settledByMain x) queue.log) : 0 < weight (Call.executed x) queue.log := by
  have hle : ∀ r : RunningTask, unstartedTask x r ≤ unsettledTask x r := by
    rintro ⟨task, stage⟩
    cases stage <;> simp
  have hrunning := weight_le_weight (l := queue.running) fun r _ => hle r
  have hgroups := weight_le_weight (l := queue.groups) (w := inGroup (unstartedTask x))
    (v := inGroup (unsettledTask x)) fun g _ => weight_le_weight fun r _ => hle r
  have hmain := h.main x
  have hexecute := h.execute x
  simp only [QueueSystem.chains] at hmain hexecute
  omega

/-- A task settled by a worker is neither executed nor rejected. -/
theorem not_executed_of_resolved_by_worker {queue : QueueSystem} (h : queue.Ledger)
    {task : QueueTask} {v : JsValue} (hc : Call.resolve task .worker v ∈ queue.log) :
    weight (Call.executed task.id) queue.log = 0 ∧ weight (Call.rejected task.id) queue.log = 0 := by
  have hself : isTask task.id task = 1 := by simp [isTask]
  have hresolved := le_weight_of_mem (Call.resolved task.id) hc
  have hworker := le_weight_of_mem (Call.settledByWorker task.id) hc
  simp only [Call.resolved, Call.settledByWorker, if_true, hself] at hresolved hworker
  have honce := h.once task.id
  have hplace := h.place task.id
  have hexecute := h.execute task.id
  have hposted := h.worker task.id
  have hsettled := h.settled_le_one task.id
  have hsplit := weight_settled_eq_resolved_add_rejected task.id queue.log
  omega

/-- The task `enqueue` creates is new. -/
theorem enqueue_new {queue queue' : QueueSystem} (h : queue.Ledger) {options : EnqueueOptions}
    {now : ℕ} {task : QueueTask} (he : queue.enqueue options now = (.ok task, queue')) :
    weight (Call.executed task.id) queue.log = 0 := by
  have hid : task.id = queue.state.taskIdCounter + 1 := by
    unfold QueueSystem.enqueue at he
    dsimp only at he
    split at he
    · cases he
    · split at he
      · cases he
      · split at he
        · cases he
        · cases he
          rfl
  have hnone : weight (isTask task.id) queue.accepted = 0 := by
    refine weight_eq_zero _ fun a ha => ?_
    have := h.ids a ha
    simp only [isTask]
    rw [if_neg (by omega)]
  have hplace := h.place task.id
  have hexecute := h.execute task.id
  omega

/-- A call of `enqueue` makes no calls on behalf of tasks. -/
theorem enqueue_log (queue : QueueSystem) (options : EnqueueOptions) (now : ℕ) :
    (queue.enqueue options now).2.log = queue.log := by
  obtain ⟨parser, he | he | ⟨normalized, -, -, he⟩⟩ := queue.enqueue_cases options now
  · rw [he]
  · rw [he]
    rfl
  · rw [he]
    unfold QueueSystem.accept
    dsimp only [QueueSystem.requestProcessQueue]
    rw [QueueSystem.place_frame]
    rfl

/-- Does one of the calls execute the task? -/
theorem executesRequest_iff {id : ℕ} {calls : List Call} :
    executesRequest (some id) calls = true ↔ 0 < weight (Call.executed id) calls := by
  induction calls with
  | nil => simp [executesRequest]
  | cons c calls ih =>
    simp only [executesRequest, List.any_cons, Bool.or_eq_true, weight_cons] at ih ⊢
    rw [ih]
    cases c with
    | execute task =>
      have : 0 < isTask id task ↔ task.id = id := isTask_pos
      simp only [beq_iff_eq, Option.some.injEq, Call.executed]
      omega
    | _ => simp

theorem not_executesRequest_none (calls : List Call) : executesRequest none calls = false := by
  simp only [executesRequest, List.any_eq_false]
  intro c _
  cases c <;> simp

/-- The call that has settled a task. -/
theorem settlesTask_iff {id : ℕ} {c : Call} :
    settlesTask id c = true ↔ ∃ task, c.settles = some task ∧ task.id = id := by
  simp only [settlesTask, beq_iff_eq]
  cases c.settles <;> simp

theorem settlement_ok {s : RequestSystem} (h : s.settlement = some (.ok ())) :
    ∃ task resolver v, s.taskId = some task.id ∧ Call.resolve task resolver v ∈ s.queue.log := by
  unfold settlement at h
  split at h
  · cases h
  · rename_i id henqueued
    split at h
    · rename_i task resolver v hfind
      obtain ⟨t, ht, rfl⟩ := settlesTask_iff.mp (List.find?_some hfind)
      cases ht
      exact ⟨task, resolver, v, by simp [taskId, henqueued], List.mem_of_find?_eq_some hfind⟩
    · cases h
    · cases h
  · cases h

theorem settlement_error {s : RequestSystem} {thrown : Thrown}
    (h : s.settlement = some (.error thrown)) {id : ℕ} (hid : s.taskId = some id) :
    s.Rejected id := by
  unfold settlement at h
  unfold taskId at hid
  split at h
  · rename_i henqueued
    simp [henqueued] at hid
  · rename_i id' henqueued
    simp only [henqueued, Option.some.injEq] at hid
    subst hid
    split at h
    · cases h
    · rename_i task settler reason hfind
      obtain ⟨t, ht, rfl⟩ := settlesTask_iff.mp (List.find?_some hfind)
      cases ht
      have hpos := le_weight_of_mem (Call.rejected task.id) (List.mem_of_find?_eq_some hfind)
      simp only [Call.rejected, isTask, if_true] at hpos
      exact hpos
    · cases h
  · cases h

/-! ### The steps of the middleware -/

namespace Handled

variable {decision : RequestRoutingDecision} {s : RequestSystem}

/-- A refusal before the request is enqueued is an answer. -/
theorem refuse (h : Handled decision s) (ha : s.exchange.phase = .arriving) (response : HttpResponse) :
    Handled decision { s with exchange :=
      { s.exchange with requestState := some false }.refuse response } := by
  obtain ⟨henqueued, hsent, hnext⟩ := h.arriving ha
  have hheaders : s.exchange.headersSent = false := by
    by_contra hne
    have := h.headers (by simpa using hne)
    simp [Exchange.Answered, hsent, hnext] at this
  have hrefused : { s.exchange with requestState := some false }.refuse response =
      { s.exchange with
        requestState := none
        phase := .settled
        headersSent := true
        sent := [response] } := by
    simp [Exchange.refuse, Exchange.markResponded, hheaders, Exchange.send, hsent, Exchange.release]
  rw [hrefused]
  have hanswered : ∀ x : Exchange, x.sent = [response] → x.Answered :=
    fun x hx => .inr (by simp [hx])
  have htask : s.taskId = none := by simp [taskId, henqueued]
  exact { h with
    arriving := fun hp => by cases hp
    sentOnce := Nat.le_refl 1
    sentHeaders := fun _ => rfl
    headers := fun _ => hanswered _ rfl
    responded := fun _ => hanswered _ rfl
    sentBy := fun _ id hid _ => by
      have hnone : s.taskId = some id := hid
      rw [htask] at hnone
      cases hnone
    done := fun _ _ => .inl (hanswered _ rfl) }

/-- `use` up to its `await`. -/
theorem use (h : Handled decision s) (ha : s.exchange.phase = .arriving) (requestId : String)
    (now : ℕ) : Handled decision (s.use requestId now) := by
  obtain ⟨henqueued, hsent, hnext⟩ := h.arriving ha
  unfold RequestSystem.use
  dsimp only
  split
  · rename_i hbypass
    rw [h.decided] at hbypass
    exact { h with
      arriving := fun hp => by cases hp
      headers := fun _ => .inl (Nat.succ_pos _)
      responded := fun _ => .inl (Nat.succ_pos _)
      running := fun _ => Nat.succ_pos _
      forwarded := fun hb => by rw [hbypass] at hb; cases hb
      done := fun hb => by rw [hbypass] at hb; cases hb }
  · split
    · exact h.refuse ha _
    · split
      · exact h.refuse ha _
      · rcases hq : s.queue.enqueue (enqueueOptions s.exchange.decision requestId) now with
          ⟨result, queue⟩
        have hstep : s.queue.step (.enqueue (enqueueOptions s.exchange.decision requestId) now) =
            some queue := by
          simp [QueueSystem.step, hq]
        have hlog : queue.log = s.queue.log := by
          have := enqueue_log s.queue (enqueueOptions s.exchange.decision requestId) now
          rwa [hq] at this
        dsimp only
        refine
          { ledger := h.ledger.step hstep
            decided := h.decided
            arriving := fun hp => by cases hp
            sentOnce := h.sentOnce
            sentHeaders := h.sentHeaders
            headers := h.headers
            responded := fun hr => by cases hr
            running := h.running
            forwarded := fun _ => ?_
            sentBy := fun _ id _ hne => absurd hsent hne
            done := fun _ hp => by cases hp }
        constructor
        · intro hpos
          dsimp only at hpos
          omega
        · rintro ⟨id, hid, hexecuted⟩
          cases result with
          | error message => simp [taskId] at hid
          | ok task =>
            simp only [taskId, Option.some.injEq] at hid
            subst hid
            have hzero := enqueue_new h.ledger hq
            simp only [Executed, hlog] at hexecuted
            omega

/-- Whatever happens in the queue. -/
theorem queue (h : Handled decision s) {e : QueueEvent} {u : QueueSystem} (hu : s.queue.step e = some u)
    (nextThrows : Bool) :
    Handled decision
      { queue := u
        exchange :=
          if executesRequest s.taskId (u.log.drop s.queue.log.length) then
            s.exchange.executeQueuedRequest nextThrows
          else s.exchange } := by
  obtain ⟨calls, hlog⟩ := QueueSystem.step_logged h.ledger.keyed hu
  have hcalls : u.log.drop s.queue.log.length = calls := by simp [← hlog]
  have hexecuted : ∀ id, 0 < weight (Call.executed id) u.log ↔
      s.Executed id ∨ 0 < weight (Call.executed id) calls := by
    intro id
    rw [← hlog, weight_append, Executed]
    omega
  have hrejected : ∀ id, s.Rejected id → 0 < weight (Call.rejected id) u.log := by
    intro id hr
    rw [← hlog, weight_append]
    exact Nat.lt_of_lt_of_le hr (Nat.le_add_right _ _)
  have hresolved : s.ResolvedByWorker → ∃ task v, s.taskId = some task.id ∧
      Call.resolve task .worker v ∈ u.log := by
    rintro ⟨task, v, hid, hc⟩
    exact ⟨task, v, hid, hlog ▸ List.mem_append_left _ hc⟩
  rw [hcalls]
  split
  · rename_i hexecutes
    obtain ⟨id, hid⟩ : ∃ id, s.taskId = some id := by
      cases hid : s.taskId with
      | none =>
        rw [hid, not_executesRequest_none] at hexecutes
        cases hexecutes
      | some id => exact ⟨id, rfl⟩
    rw [hid, executesRequest_iff] at hexecutes
    have hanswered : ∀ x : Exchange, x.nextCalls = s.exchange.nextCalls + 1 → x.Answered :=
      fun x hx => .inl (by omega)
    refine
      { ledger := h.ledger.step hu
        decided := h.decided
        arriving := fun hp => ?_
        sentOnce := h.sentOnce
        sentHeaders := h.sentHeaders
        headers := fun _ => hanswered _ rfl
        responded := fun _ => hanswered _ rfl
        running := fun _ => Nat.succ_pos _
        forwarded := fun _ => ⟨fun _ => ⟨id, hid, (hexecuted id).mpr (.inr hexecutes)⟩,
          fun _ => Nat.succ_pos _⟩
        sentBy := fun hb id' hid' hne => ?_
        done := fun _ _ => .inl (hanswered _ rfl) }
    · have henqueued := (h.arriving hp).1
      simp [taskId, henqueued] at hid
    · obtain he | hr := h.sentBy hb id' hid' hne
      · exact .inl ((hexecuted id').mpr (.inl he))
      · exact .inr (hrejected id' hr)
  · rename_i hexecutes
    refine
      { h with
        ledger := h.ledger.step hu
        forwarded := fun hb => ?_
        sentBy := fun hb id' hid' hne => ?_
        done := fun hb hp => (h.done hb hp).imp_right hresolved }
    · rw [h.forwarded hb]
      constructor
      · rintro ⟨id, hid, he⟩
        exact ⟨id, hid, (hexecuted id).mpr (.inl he)⟩
      · rintro ⟨id, hid, he⟩
        have hid' : s.taskId = some id := hid
        rw [hid', executesRequest_iff] at hexecutes
        exact ⟨id, hid, ((hexecuted id).mp he).resolve_right hexecutes⟩
    · obtain he | hr := h.sentBy hb id' hid' hne
      · exact .inl ((hexecuted id').mpr (.inl he))
      · exact .inr (hrejected id' hr)

/-- A response sent where no headers have been sent is the first one. -/
theorem sent_nil (h : Handled decision s) (hheaders : s.exchange.headersSent = false) :
    s.exchange.sent = [] := by
  by_contra hne
  have := h.sentHeaders hne
  rw [hheaders] at this
  cases this

/-- Where the middleware does not answer, there is an answer. -/
theorem answered_of_not (h : Handled decision s)
    (hnot : ¬ (!s.exchange.hasResponded && !s.exchange.headersSent) = true) :
    s.exchange.Answered := by
  simp only [Bool.and_eq_true, Bool.not_eq_true', not_and, Bool.not_eq_false] at hnot
  by_cases hr : s.exchange.hasResponded = true
  · apply h.responded
    unfold Exchange.hasResponded at hr
    cases hs : s.exchange.requestState <;> simp_all
  · exact h.headers (hnot (by simpa using hr))

/-- The `catch` block of `use`. -/
theorem onError (h : Handled decision s) {thrown : Thrown}
    (hthrown : s.settlement = some (.error thrown)) :
    Handled decision { s with exchange := (s.exchange.onError thrown).release } := by
  unfold Exchange.onError
  split
  · rename_i hsends
    simp only [Bool.and_eq_true, Bool.not_eq_true'] at hsends
    have hsent := h.sent_nil hsends.2
    have hone : (s.exchange.markResponded.send (Exchange.errorResponse thrown)).release.sent =
        [Exchange.errorResponse thrown] := by
      simp [Exchange.markResponded, Exchange.send, Exchange.release, hsent]
    have hanswered :
        (s.exchange.markResponded.send (Exchange.errorResponse thrown)).release.Answered :=
      .inr (by simp [hone])
    exact { h with
      arriving := fun hp => by cases hp
      sentOnce := (congrArg List.length hone).le
      sentHeaders := fun _ => rfl
      headers := fun _ => hanswered
      responded := fun _ => hanswered
      sentBy := fun _ id hid _ => .inr (settlement_error hthrown hid)
      done := fun _ _ => .inl hanswered }
  · rename_i hnot
    exact { h with
      arriving := fun hp => by cases hp
      responded := fun hr => by cases hr
      done := fun _ _ => .inl (h.answered_of_not hnot) }

/-- `use` goes on after its `await`. -/
theorem resume (h : Handled decision s) {u : RequestSystem} (hu : s.step .resume = some u) :
    Handled decision u := by
  simp only [RequestSystem.step] at hu
  split at hu
  · split at hu
    · cases hu
    · rename_i hok
      cases hu
      obtain ⟨task, resolver, v, hid, hc⟩ := settlement_ok hok
      refine
        { h with
          arriving := fun hp => by cases hp
          responded := fun hr => by cases hr
          done := fun hb _ => ?_ }
      cases resolver with
      | worker => exact .inr ⟨task, v, hid, hc⟩
      | mainThread =>
        have hmain := le_weight_of_mem (Call.settledByMain task.id) hc
        simp only [Call.settledByMain, isTask, if_true] at hmain
        have hexecuted := executed_of_settledByMain h.ledger (x := task.id) hmain
        exact .inl (.inl ((h.forwarded hb).mpr ⟨task.id, hid, hexecuted⟩))
    · rename_i thrown herror
      cases hu
      exact h.onError herror
  · cases hu

/-- The timer of `executeQueuedRequest`. -/
theorem onProcessingTimeout (h : Handled decision s) (hrun : s.exchange.execution = .running) :
    Handled decision { s with exchange := s.exchange.onProcessingTimeout } := by
  have hnext := h.running hrun
  have hfinish : ∀ x : Exchange, x.execution = .running →
      x.finish = { x with execution := .settled } := fun x hx => by simp [Exchange.finish, hx]
  unfold Exchange.onProcessingTimeout
  split
  · rename_i hsends
    simp only [Bool.and_eq_true, Bool.not_eq_true'] at hsends
    have hsent := h.sent_nil hsends.1
    rw [hfinish _ (by exact hrun)]
    have hanswered : ∀ x : Exchange, x.nextCalls = s.exchange.nextCalls → x.Answered :=
      fun x hx => .inl (by omega)
    exact { h with
      arriving := fun hp => by
        have := (h.arriving hp).2.2
        omega
      sentOnce := by simp [Exchange.markResponded, Exchange.send, hsent]
      sentHeaders := fun _ => rfl
      headers := fun _ => hanswered _ rfl
      responded := fun _ => hanswered _ rfl
      running := fun hr => by cases hr
      sentBy := fun hb id hid _ => by
        obtain ⟨id', hid', he⟩ := (h.forwarded hb).mp hnext
        have heq : some id' = some id := hid'.symm.trans hid
        cases heq
        exact .inl he
      done := fun _ _ => .inl (hanswered _ rfl) }
  · rw [hfinish _ hrun]
    exact { h with running := fun hr => by cases hr }

/-- Every step keeps the invariant. -/
theorem step (h : Handled decision s) {e : RequestEvent} {u : RequestSystem}
    (hu : s.step e = some u) : Handled decision u := by
  cases e with
  | arrive requestId now =>
    simp only [RequestSystem.step] at hu
    split at hu
    · rename_i ha
      cases hu
      exact h.use ha requestId now
    · cases hu
  | queue e nextThrows =>
    simp only [RequestSystem.step] at hu
    split at hu
    · cases hu
    · rename_i queue hqueue
      cases hu
      exact h.queue hqueue nextThrows
  | resume => exact h.resume hu
  | answerSent =>
    simp only [RequestSystem.step] at hu
    split at hu
    · rename_i hnext
      cases hu
      exact { h with
        sentHeaders := fun _ => rfl
        headers := fun _ => .inl hnext }
    · cases hu
  | responseFinished =>
    simp only [RequestSystem.step] at hu
    split at hu
    · rename_i hrun
      cases hu
      have hfinished : s.exchange.onResponseFinished = { s.exchange with
          requestState := s.exchange.requestState.map fun _ => true
          execution := .settled } := by
        simp [Exchange.onResponseFinished, Exchange.markResponded, Exchange.finish, hrun]
      rw [hfinished]
      exact { h with
        responded := fun _ => .inl (h.running hrun)
        running := fun hr => by cases hr }
    · cases hu
  | processingTimer =>
    simp only [RequestSystem.step] at hu
    split at hu
    · rename_i hrun
      cases hu
      exact h.onProcessingTimeout hrun
    · cases hu
  | stateExpired =>
    cases hu
    exact { h with responded := fun hr => by cases hr }

end Handled

variable {config : QueueConfig} {taskIdCounter : ℕ} {stats : QueueStatsService}
  {parserAllowsCustom useWorkers : Bool} {workerCount : ℕ} {cpu memory custom : Option ℕ}
  {requestProcessingTimeoutMs : ℕ} {allowCustomWorkload : Bool} {req : Request}

theorem Handled.initial : Handled (QueueRequestAnalyzer.analyze requestProcessingTimeoutMs req)
    (initial (.initial config taskIdCounter stats parserAllowsCustom useWorkers workerCount cpu memory
      custom) requestProcessingTimeoutMs allowCustomWorkload req) where
  ledger := .initial
  decided := rfl
  arriving _ := ⟨rfl, rfl, rfl⟩
  sentOnce := Nat.zero_le 1
  sentHeaders hne := absurd rfl hne
  headers hh := by cases hh
  responded hr := by cases hr
  running hr := by cases hr
  forwarded _ := by
    refine ⟨fun hn => absurd hn (Nat.lt_irrefl 0), ?_⟩
    rintro ⟨id, hid, -⟩
    cases hid
  sentBy _ _ _ hne := absurd rfl hne
  done _ hp := by cases hp

/-- The middleware sends nothing once the headers are sent. -/
theorem sent_of_headersSent {s u : RequestSystem} {e : RequestEvent} (hu : s.step e = some u)
    (hheaders : s.exchange.headersSent = true) : u.exchange.sent = s.exchange.sent := by
  have hrefuse : ∀ (x : Exchange) response, x.headersSent = true →
      (x.refuse response).sent = x.sent := by
    intro x response hx
    simp [Exchange.refuse, Exchange.markResponded, hx, Exchange.release]
  have hfinish : ∀ x : Exchange, x.finish.sent = x.sent := by
    intro x
    unfold Exchange.finish
    split <;> rfl
  cases e with
  | arrive requestId now =>
    simp only [RequestSystem.step] at hu
    split at hu
    · cases hu
      unfold RequestSystem.use
      dsimp only
      split
      · rfl
      · split
        · exact hrefuse _ _ hheaders
        · split
          · exact hrefuse _ _ hheaders
          · rfl
    · cases hu
  | queue e nextThrows =>
    simp only [RequestSystem.step] at hu
    split at hu
    · cases hu
    · cases hu
      dsimp only
      split <;> rfl
  | resume =>
    simp only [RequestSystem.step] at hu
    split at hu
    · split at hu
      · cases hu
      · cases hu
        rfl
      · cases hu
        simp [Exchange.onError, hheaders, Exchange.release]
    · cases hu
  | answerSent =>
    simp only [RequestSystem.step] at hu
    split at hu
    · cases hu
      rfl
    · cases hu
  | responseFinished =>
    simp only [RequestSystem.step] at hu
    split at hu
    · cases hu
      exact hfinish _
    · cases hu
  | processingTimer =>
    simp only [RequestSystem.step] at hu
    split at hu
    · cases hu
      simp [Exchange.onProcessingTimeout, hheaders, hfinish]
    · cases hu
  | stateExpired =>
    cases hu
    rfl

/-- **Queued requests are forwarded or answered**, except by workers. In every state of every
run the middleware has sent at most one response, and the next step sends none once the
headers are sent. When `use` is done for a request not marked as bypass, `next()` has been
called or the middleware has sent a response exactly when the task of the request was not
resolved with the result of a worker. -/
theorem use_iff {s : RequestSystem}
    (h : Reachable step (RequestSystem.initial (.initial config taskIdCounter stats
      parserAllowsCustom useWorkers workerCount cpu memory custom) requestProcessingTimeoutMs
      allowCustomWorkload req) s) :
    s.exchange.sent.length ≤ 1 ∧
      (s.exchange.headersSent = true → ∀ e u, s.step e = some u →
        u.exchange.sent = s.exchange.sent) ∧
      ((QueueRequestAnalyzer.analyze requestProcessingTimeoutMs req).bypass = false →
        s.exchange.phase = .settled →
        (0 < s.exchange.nextCalls ∨ s.exchange.sent ≠ [] ↔ ¬ s.ResolvedByWorker)) := by
  have hs := h.invariant Handled.initial fun _ _ _ hs _ hu => Handled.step hs hu
  refine ⟨hs.sentOnce, fun hh e u hu => sent_of_headersSent hu hh, fun hb hp => ?_⟩
  constructor
  · rintro hanswered ⟨task, v, hid, hc⟩
    obtain ⟨hexecuted, hrejected⟩ := not_executed_of_resolved_by_worker hs.ledger hc
    have hnext : ¬ 0 < s.exchange.nextCalls := by
      intro hpos
      obtain ⟨id, hid', he⟩ := (hs.forwarded hb).mp hpos
      rw [hid, Option.some.injEq] at hid'
      subst hid'
      exact absurd hexecuted (Nat.ne_of_gt he)
    rcases hanswered with hpos | hsent
    · exact hnext hpos
    · obtain he | hr := hs.sentBy hb task.id hid hsent
      · exact absurd hexecuted (Nat.ne_of_gt he)
      · exact absurd hrejected (Nat.ne_of_gt hr)
  · intro hnot
    exact (hs.done hb hp).resolve_right hnot

/-- A request for primes, with a query, so that it is not put into a batch. -/
def primesRequest : Request := { path := "/api/prime", query := some [("n", .str "1000")] }

/-- A request the queue executes on the main thread: `next()` is called. -/
theorem use_forwards :
    ∃ s, Reachable step (RequestSystem.initial (.initial {} 0 {} false false 1 none none none) 10000
        false primesRequest) s ∧ s.exchange.phase = .settled ∧
      (s.exchange.sent.length ≤ 1 ∧
        (s.exchange.headersSent = true → ∀ e u, s.step e = some u →
          u.exchange.sent = s.exchange.sent) ∧
        ((QueueRequestAnalyzer.analyze 10000 primesRequest).bypass = false →
          s.exchange.phase = .settled →
          (0 < s.exchange.nextCalls ∨ s.exchange.sent ≠ [] ↔ ¬ s.ResolvedByWorker))) := by
  obtain ⟨s, hs, hseen⟩ := exists_reaches_of_runEvents step (fun _ _ => True)
    (fun s => s.exchange.phase)
    (s := RequestSystem.initial (.initial {} 0 {} false false 1 none none none) 10000 false primesRequest)
    [.arrive "r" 0, .queue (.processSignal fun _ => none) false, .queue (.single 0 .start) false,
      .answerSent, .responseFinished, .queue (.single 0 (.finish (.value .undefined))) false,
      .queue (.single 0 .settle) false, .resume] .settled (by decide +kernel)
  exact ⟨s, hs, hseen, use_iff hs⟩

/-- The same request where a worker computes its task: `use` is done, `next()` has not been
called and nothing has been sent. -/
theorem use_leaves_unanswered :
    ∃ s, Reachable step (RequestSystem.initial (.initial {} 0 {} false true 1 none none none) 10000
        false primesRequest) s ∧
      (QueueRequestAnalyzer.analyze 10000 primesRequest).bypass = false ∧
      s.exchange.phase = .settled ∧ ¬ (0 < s.exchange.nextCalls ∨ s.exchange.sent ≠ []) := by
  obtain ⟨s, hs, hseen⟩ := exists_reaches_of_runEvents step (fun _ _ => True)
    (fun s => (s.exchange.phase, s.exchange.nextCalls, s.exchange.sent.length))
    (s := RequestSystem.initial (.initial {} 0 {} false true 1 none none none) 10000 false primesRequest)
    [.queue (.workerMessage 0 { initialized := true } fun _ => none) false, .arrive "r" 0,
      .queue (.processSignal fun _ => none) false,
      .queue (.workerMessage 0 { success := true, result := .arr [] } fun _ => none) false, .resume]
    (.settled, 0, 0) (by decide +kernel)
  simp only [Prod.mk.injEq, List.length_eq_zero_iff] at hseen
  obtain ⟨hphase, hnext, hsent⟩ := hseen
  exact ⟨s, hs, by decide +kernel, hphase, by simp [hnext, hsent]⟩

end RequestSystem

end BulkTraffic.Http
