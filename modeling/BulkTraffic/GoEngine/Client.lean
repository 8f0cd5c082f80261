import BulkTraffic.GoEngine.Execution
import BulkTraffic.GoEngine.Server

/-!
# The client of the Go engine

`GoEngineClient.execute` sends a task to the engine and waits for the answer; the engine takes it in
`Execute`, a pool executes it. `EngineRun` is the client with the engine behind it: any number of
calls is on its way at once, a request may get lost and an answer come too late, the pools take
their steps in any order, and the engine may die and be started again.

* `Serving`: the engine executes every request for the payload of this request.
* `EngineRun.own_reachable`: in every run, a call that was resolved has an answer to its own task.

Two tasks may have one id, as the comparison makes its ids of the time. Nothing depends on them.
-/

namespace BulkTraffic.GoEngine

open BulkTraffic.Js BulkTraffic.Lib BulkTraffic.Workload

/-! ### The client -/

/-- What `execute` reads of a task. The comparison has a workload type that the queue has not. -/
structure QueueTask where
  /-- The id. -/
  id : Number
  /-- The workload type, if there is one. -/
  workloadType : Option String := none
  /-- The priority. -/
  priority : Number := .finite 0
  /-- The parameters, if there are any. -/
  params : Option Record := none

/-- A number as an `int32`. -/
def toInt32 : Number → ℤ
  | .finite q => (truncate q).bmod (2 ^ 32)
  | _ => 0

namespace QueueTask

/-- `task.workloadType ?? WorkloadType.UNKNOWN`. -/
def type (task : QueueTask) : String := task.workloadType.getD "unknown"

/-- `task.params ?? {}`. -/
def fields (task : QueueTask) : Record := task.params.getD []

/-- `Buffer.from(payload)`. -/
def payload (task : QueueTask) : List UInt8 := stringified task.fields

/-- The request, but for its payload. -/
def request (task : QueueTask) : TaskRequest where
  taskId := numberText task.id
  workloadType := task.type
  priority := toInt32 task.priority

end QueueTask

/-- `GoEngineResult`. -/
structure GoEngineResult where
  /-- The id. -/
  taskId : String
  /-- Did the task succeed? -/
  success : Bool
  /-- The handler's value. -/
  result : JsValue
  /-- The error. -/
  error : String
  /-- The duration. -/
  durationMs : ℕ
  /-- The engine. -/
  engine : String

/-- `parsedResult`. -/
def parsedResult (bytes : List UInt8) : JsValue :=
  if 0 < bytes.length then
    match Json.read (Utf8.decode bytes) with
    | some value => value.parse
    | none => .str (String.ofList (Utf8.decode bytes))
  else .null

/-- What `execute` resolves with. -/
def TaskResponse.toResult (response : TaskResponse) : GoEngineResult where
  taskId := response.taskId
  success := response.success
  result := parsedResult response.result
  error := response.error
  durationMs := response.durationMs
  engine := response.engine

/-! ### The client and the engine -/

/-- Where the request of a call is. -/
inductive RequestPhase where
  /-- On its way. -/
  | sent
  /-- The engine has taken it, as the request with this number. -/
  | taken (i : ℕ)
  /-- The engine that had taken it is gone. -/
  | lost

/-- A call of `execute`. -/
structure ExecuteCall where
  /-- The task. -/
  task : QueueTask
  /-- The request. -/
  request : RequestPhase := .sent
  /-- What the promise was resolved or rejected with. -/
  settled : Option (Except String GoEngineResult) := none

/-- The client and the engine. -/
structure EngineRun where
  /-- `connected`. -/
  connected : Bool := false
  /-- The calls of `execute`. -/
  calls : List ExecuteCall := []
  /-- The engine. -/
  server : Server := .initial
  /-- The payloads of the requests the engine has taken. -/
  payloads : List (List UInt8) := []

/-- What happens within the engine, but for the return of `executeWithRetry`. -/
def ServerEvent.internal : ServerEvent → Bool
  | .execute _ | .pool _ (.callWorks _ (.finish _ _)) => false
  | _ => true

/-- What can happen. -/
inductive EngineEvent where
  /-- The connection test is over. -/
  | tested (ready : Bool)
  /-- `execute(task)` is called. -/
  | execute (task : QueueTask)
  /-- The request of a call reaches the engine. -/
  | arrive (c : ℕ)
  /-- Something happens within the engine. -/
  | works (e : ServerEvent)
  /-- `executeWithRetry` returns to a request. -/
  | finish (i : ℕ) (attempts : Attempts) (duration : ℕ)
  /-- The answer reaches the client. -/
  | answer (c : ℕ)
  /-- gRPC reports an error: the deadline has passed, or the engine cannot be reached. -/
  | fail (c : ℕ) (message : String)
  /-- The engine dies, and is started again. -/
  | restart

/-- The request of a call when the engine dies. -/
def ExecuteCall.dropped (call : ExecuteCall) : ExecuteCall :=
  match call.request with
  | .taken _ => { call with request := .lost }
  | _ => call

namespace EngineRun

/-- Overwrite a call. -/
def setCall (s : EngineRun) (c : ℕ) (call : ExecuteCall) : EngineRun :=
  { s with calls := s.calls.set c call }

/-- One step. -/
def step (runtime : GoRuntime) (configs : String → PoolConfig) (s : EngineRun) :
    EngineEvent → Option EngineRun
  | .tested ready => some { s with connected := ready }
  | .execute task => some { s with calls := s.calls ++ [{ task := task }] }
  | .arrive c =>
    match s.calls[c]? with
    | some { task := task, request := .sent, settled := settled } =>
      (s.server.step configs (.execute task.request)).map fun server =>
        { s.setCall c { task := task, request := .taken s.payloads.length, settled := settled } with
          server := server
          payloads := s.payloads ++ [task.payload] }
    | _ => none
  | .works e =>
    if e.internal then (s.server.step configs e).map fun server => { s with server := server } else none
  | .finish i attempts duration =>
    match s.server.requests[i]?, s.payloads[i]? with
    | some { req := req, target := .ok (pool, k), response := _ }, some payload =>
      (execution runtime pool req.taskId payload attempts).bind fun outcome =>
        (s.server.step configs (.pool pool (.callWorks k (.finish outcome duration)))).map fun server =>
          { s with server := server }
    | _, _ => none
  | .answer c =>
    match s.calls[c]? with
    | some { task := task, request := .taken i, settled := none } =>
      (s.server.requests[i]?.bind Request.response).map fun response =>
        { s.setCall c { task := task, request := .taken i, settled := some (.ok response.toResult) } with
          connected := true }
    | _ => none
  | .fail c message =>
    match s.calls[c]? with
    | some { task := task, request := request, settled := none } =>
      some { s.setCall c
          { task := task, request := request, settled := some (.error s!"Go 엔진 호출 실패: {message}") } with
        connected := false }
    | _ => none
  | .restart =>
    some { s with server := .initial, payloads := [], calls := s.calls.map ExecuteCall.dropped }

/-- Before the first call. -/
def initial : EngineRun := {}

end EngineRun

/-! ### What a call of a pool returns -/

/-- A result of this task: the bytes of what the handler made of its payload, or none. -/
structure OwnResult (runtime : GoRuntime) (pool taskID : String) (payload : List UInt8)
    (result : TaskResult) : Prop where
  /-- It has the id of the task. -/
  id : result.taskID = taskID
  /-- A success is one of the handler. -/
  success : result.success = true → result.error = "" ∧ ∃ ctx value,
    handlerOf pool runtime ctx taskID payload = .result value ∧ result.result = marshal value
  /-- A failure has no bytes. -/
  failure : result.success = false → result.result = []

/-- The result a call of `SubmitSync` has, returned or not. -/
def SyncPhase.result? : SyncPhase → Option TaskResult
  | .refused result => some result
  | .working phase => phase.result?
  | _ => none

/-- The call is made for this task, and its result is one of this task. -/
def Call.Serves (runtime : GoRuntime) (pool taskID : String) (payload : List UInt8) : Call → Prop
  | .submit _ _ => False
  | .submitSync task phase =>
    task.id = taskID ∧ ∀ result, phase.result? = some result → OwnResult runtime pool taskID payload result

section Pools

variable {runtime : GoRuntime} {pool taskID : String} {payload : List UInt8}

theorem ownResult_refused {task : Task} (h : task.id = taskID) (error : String) :
    OwnResult runtime pool taskID payload (refusedResult task error) :=
  ⟨h, nofun, fun _ => rfl⟩

/-- What `executeWithRetry` returned for the payload is a result of its own. -/
theorem ownResult_executed {task : Task} (h : task.id = taskID) {attempts : Attempts}
    {outcome : HandlerResult} (houtcome : execution runtime pool taskID payload attempts = some outcome)
    (duration : ℕ) : OwnResult runtime pool taskID payload (executedResult task duration outcome) := by
  cases outcome with
  | error message => exact ⟨h, nofun, fun _ => rfl⟩
  | ok bytes =>
    obtain ⟨ctx, value, hvalue, hbytes⟩ := result_of_execution houtcome
    exact ⟨h, fun _ => ⟨rfl, ctx, value, hvalue, hbytes⟩, nofun⟩

theorem serves_of_result {call : Call} {result : TaskResult} (h : call.Serves runtime pool taskID payload)
    (hresult : call.result? = some result) : OwnResult runtime pool taskID payload result := by
  cases call with
  | submit => cases hresult
  | submitSync task phase =>
    refine h.2 result ?_
    cases phase with
    | refused r => exact hresult
    | working phase =>
      cases phase with
      | released r => exact hresult
      | _ => cases hresult
    | _ => cases hresult

variable {config : PoolConfig} {s u : Pool}

/-- Every call comes from one that it goes on serving for. -/
def KeepsServing (runtime : GoRuntime) (pool : String) (s u : Pool) : Prop :=
  ∀ (k : ℕ) (call' : Call), u.calls[k]? = some call' → ∃ call : Call, s.calls[k]? = some call ∧
    ∀ taskID payload, call.Serves runtime pool taskID payload → call'.Serves runtime pool taskID payload

theorem keepsServing_of_eq (h : u.calls = s.calls) : KeepsServing runtime pool s u := fun _ call' hcall' =>
  ⟨call', h ▸ hcall', fun _ _ hserves => hserves⟩

theorem keepsServing_of_set {i : ℕ} {call call' : Call} (hcall : s.calls[i]? = some call)
    (hu : u.calls = s.calls.set i call')
    (h : ∀ taskID payload, call.Serves runtime pool taskID payload → call'.Serves runtime pool taskID payload) :
    KeepsServing runtime pool s u := by
  intro k after hafter
  rw [hu] at hafter
  by_cases hk : i = k
  · subst hk
    rw [List.getElem?_set_self (List.getElem?_eq_some_iff.mp hcall).1, Option.some.injEq] at hafter
    subst hafter
    exact ⟨call, hcall, h⟩
  · rw [List.getElem?_set_ne hk] at hafter
    exact ⟨after, hafter, fun _ _ hserves => hserves⟩

/-- **What happens in a pool** leaves the calls as they are or goes on with one, and a result it puts
in is a refusal, if it is not what `executeWithRetry` returns. -/
theorem keepsServing_of_step {e : PoolEvent} (hinternal : e.internal = true)
    (hfinish : ∀ k outcome duration, e ≠ .callWorks k (.finish outcome duration))
    (h : s.step config e = some u) : KeepsServing runtime pool s u := by
  cases Pool.takes_of_step h with
  | submit | submitSync => cases hinternal
  | refuse hcall | pass hcall | describe hcall | enqueue hcall =>
    exact keepsServing_of_set hcall rfl fun _ _ => False.elim
  | refuseSync hcall | expire hcall | denied hcall =>
    refine keepsServing_of_set hcall rfl fun _ _ hserves => ⟨hserves.1, fun result hresult => ?_⟩
    exact Option.some.inj hresult ▸ ownResult_refused hserves.1 _
  | limitSync hcall | passSync hcall | granted hcall | acquire hcall =>
    exact keepsServing_of_set hcall rfl fun _ _ hserves => ⟨hserves.1, nofun⟩
  | @callWorks k e task phase phase' t hcall hwork =>
    unfold Pool.work at hwork
    split at hwork
    · cases hwork
      exact keepsServing_of_set hcall rfl fun _ _ hserves => ⟨hserves.1, nofun⟩
    · exact absurd rfl (hfinish _ _ _)
    · cases hwork
      exact keepsServing_of_set hcall rfl fun _ _ hserves => ⟨hserves.1, hserves.2⟩
    · cases hwork
      exact keepsServing_of_set hcall rfl fun _ _ hserves => ⟨hserves.1, hserves.2⟩
    · cases hwork
  | tick =>
    refine keepsServing_of_eq ?_
    unfold Pool.tick
    split <;> rfl
  | @dispatchWaited error => cases error <;> exact keepsServing_of_eq rfl
  | goroutineWorks hgoroutine hwork =>
    refine keepsServing_of_eq ?_
    unfold Pool.work at hwork
    split at hwork <;> cases hwork <;> rfl
  | dispatch | stop | dispatchLoopReturns | stopReturns => exact keepsServing_of_eq rfl

/-- `executeWithRetry` returns to a call that waits for it. -/
theorem work_finish {task : Task} {phase phase' : WorkerPhase} {t : Pool} {outcome : HandlerResult}
    {duration : ℕ} (h : s.work task phase (.finish outcome duration) = some (t, phase')) :
    phase = .executing ∧ t.calls = s.calls ∧ phase' = .recorded (executedResult task duration outcome) := by
  cases phase with
  | executing =>
    cases h
    exact ⟨rfl, rfl, rfl⟩
  | _ => cases h

end Pools

/-! ### What the engine has taken -/

namespace Server

variable {configs : String → PoolConfig} {s u : Server}

/-- The requests, each with the call that serves it. -/
def received (s : Server) : List (TaskRequest × Except TaskResult (String × ℕ)) :=
  s.requests.map fun r => (r.req, r.target)

theorem received_of_step {e : ServerEvent} (he : ∀ req, e ≠ .execute req)
    (h : s.step configs e = some u) : u.received = s.received := by
  cases e with
  | execute req => exact absurd rfl (he req)
  | pool name e =>
    simp only [step] at h
    split at h
    · obtain ⟨p, -, rfl⟩ := Option.map_eq_some_iff.mp h
      rfl
    · cases h
  | record i =>
    simp only [step] at h
    split at h
    · rename_i req target hrequest
      split at h
      · cases h
        rw [received, received, List.map_set]
        refine List.ext_getElem? fun j => ?_
        by_cases hj : i = j
        · subst hj
          rw [List.getElem?_set_self (by simpa using (List.getElem?_eq_some_iff.mp hrequest).1),
            List.getElem?_map, hrequest]
          rfl
        · rw [List.getElem?_set_ne hj]
      · cases h
    · cases h

/-- A request that is routed is one more call of its pool. -/
theorem received_of_execute {req : TaskRequest} (hs : s.Inv) (h : s.step configs (.execute req) = some u) :
    let pool := routedPool req.workloadType
    u.received = s.received ++ [(req, .ok (pool, (s.router.pool pool).calls.length))] ∧
      ∀ name, (u.router.pool name).calls = if name = pool then
        (s.router.pool pool).calls ++ [.submitSync { id := req.taskId, priority := req.priority } .called]
      else (s.router.pool name).calls := by
  simp only [step, route_eq hs.names] at h
  obtain ⟨p, hp, rfl⟩ := Option.map_eq_some_iff.mp h
  cases hp
  refine ⟨by simp [received], fun name => ?_⟩
  change ((s.setPool _ _).router.pool name).calls = _
  rw [setPool_pool]
  split <;> rfl

theorem exists_of_received {i : ℕ} {req : TaskRequest} {target : Except TaskResult (String × ℕ)}
    (h : s.received[i]? = some (req, target)) :
    ∃ r, s.requests[i]? = some r ∧ r.req = req ∧ r.target = target := by
  rw [received, List.getElem?_map] at h
  obtain ⟨r, hr, hcall⟩ := Option.map_eq_some_iff.mp h
  exact ⟨r, hr, congrArg Prod.fst hcall, congrArg Prod.snd hcall⟩

theorem indexIn_of_target {r : Request} {pool : String} {k : ℕ} (h : r.target = .ok (pool, k)) :
    r.indexIn pool = some k := by
  rw [Request.indexIn, h]
  exact if_pos rfl

/-- A request is served by a call that there is. -/
theorem lt_of_received (hs : s.Inv) {i k : ℕ} {req : TaskRequest} {pool : String}
    (h : s.received[i]? = some (req, .ok (pool, k))) : k < (s.router.pool pool).calls.length := by
  obtain ⟨r, hr, -, htarget⟩ := exists_of_received h
  have hmem : k ∈ s.requests.filterMap (Request.indexIn pool) :=
    List.mem_filterMap.mpr ⟨r, List.mem_of_getElem? hr, indexIn_of_target htarget⟩
  rw [hs.indices] at hmem
  exact List.mem_range.mp hmem

/-- **A call serves one request.** -/
theorem received_inj (hs : s.Inv) {i j k : ℕ} {a b : TaskRequest} {pool : String}
    (hi : s.received[i]? = some (a, .ok (pool, k))) (hj : s.received[j]? = some (b, .ok (pool, k))) : i = j := by
  obtain ⟨r, hr, -, htargetr⟩ := exists_of_received hi
  obtain ⟨q, hq, -, htargetq⟩ := exists_of_received hj
  have hindexr := indexIn_of_target htargetr
  have hindexq := indexIn_of_target htargetq
  have hnodup : (s.requests.filterMap (Request.indexIn pool)).Pairwise (· ≠ ·) := by
    rw [hs.indices]
    exact List.nodup_range
  rw [List.pairwise_filterMap] at hnodup
  have hpairs := List.pairwise_iff_getElem.mp hnodup
  obtain ⟨hilt, rfl⟩ := List.getElem?_eq_some_iff.mp hr
  obtain ⟨hjlt, rfl⟩ := List.getElem?_eq_some_iff.mp hq
  rcases Nat.lt_trichotomy i j with hlt | heq | hlt
  · exact absurd rfl (hpairs i j hilt hjlt hlt k hindexr k hindexq)
  · exact heq
  · exact absurd rfl (hpairs j i hjlt hilt hlt k hindexq k hindexr)

end Server

/-- The engine serves every request it has taken for the payload of the request. -/
structure Serving (runtime : GoRuntime) (s : Server) (payloads : List (List UInt8)) : Prop where
  /-- The engine keeps its own invariant. -/
  inv : s.Inv
  /-- Every request has a payload. -/
  length : payloads.length = s.received.length
  /-- The call of a request serves it. -/
  own : ∀ {i k : ℕ} {req : TaskRequest} {pool : String} {payload : List UInt8} {call : Call},
    s.received[i]? = some (req, .ok (pool, k)) → payloads[i]? = some payload →
    (s.router.pool pool).calls[k]? = some call → call.Serves runtime pool req.taskId payload

section Serving

variable {runtime : GoRuntime} {configs : String → PoolConfig} {s u : Server}
  {payloads : List (List UInt8)}

theorem serving_initial (runtime : GoRuntime) : Serving runtime .initial [] where
  inv := Server.inv_initial
  length := rfl
  own := nofun

/-- A new request has a call of its own. -/
theorem Serving.execute (h : Serving runtime s payloads) {req : TaskRequest}
    (hstep : s.step configs (.execute req) = some u) (payload : List UInt8) :
    Serving runtime u (payloads ++ [payload]) := by
  obtain ⟨hreceived, hcalls⟩ := Server.received_of_execute h.inv hstep
  refine ⟨Server.inv_execute h.inv hstep, by rw [hreceived, List.length_append, List.length_append, h.length]; rfl,
    ?_⟩
  intro i k req' pool payload' call hi hpayload hcall
  rw [hreceived] at hi
  rw [hcalls] at hcall
  rcases Nat.lt_or_ge i s.received.length with hlt | hge
  · rw [List.getElem?_append_left hlt] at hi
    rw [List.getElem?_append_left (h.length ▸ hlt)] at hpayload
    have hk := Server.lt_of_received h.inv hi
    split at hcall
    · rename_i heq
      subst heq
      rw [List.getElem?_append_left hk] at hcall
      exact h.own hi hpayload hcall
    · exact h.own hi hpayload hcall
  · have hlast : i = s.received.length := by
      have hlt := (List.getElem?_eq_some_iff.mp hi).1
      rw [List.length_append, List.length_singleton] at hlt
      omega
    subst hlast
    rw [List.getElem?_concat_length, Option.some.injEq, Prod.mk.injEq, Except.ok.injEq, Prod.mk.injEq] at hi
    obtain ⟨rfl, rfl, rfl⟩ := hi
    rw [if_pos rfl, List.getElem?_concat_length, Option.some.injEq] at hcall
    subst hcall
    exact ⟨rfl, nofun⟩

/-- What happens in one pool. -/
theorem Serving.pool (h : Serving runtime s payloads) {name : String} {e : PoolEvent}
    (hstep : s.step configs (.pool name e) = some u)
    (hserves : ∀ {p : Pool}, (s.router.pool name).step (configs name) e = some p →
      ∀ {i k : ℕ} {req : TaskRequest} {payload : List UInt8} {call : Call},
        s.received[i]? = some (req, .ok (name, k)) → payloads[i]? = some payload →
        p.calls[k]? = some call → call.Serves runtime name req.taskId payload) :
    Serving runtime u payloads := by
  have hreceived := Server.received_of_step (fun _ => ServerEvent.noConfusion) hstep
  have hinv := Server.inv_pool h.inv hstep
  simp only [Server.step] at hstep
  split at hstep
  · obtain ⟨p, hp, rfl⟩ := Option.map_eq_some_iff.mp hstep
    refine ⟨hinv, hreceived ▸ h.length, ?_⟩
    intro i k req pool payload call hi hpayload hcall
    rw [hreceived] at hi
    rw [Server.setPool_pool] at hcall
    split at hcall
    · rename_i heq
      subst heq
      exact hserves hp hi hpayload hcall
    · exact h.own hi hpayload hcall
  · cases hstep

/-- What happens within the engine. -/
theorem Serving.internal (h : Serving runtime s payloads) {e : ServerEvent} (he : e.internal = true)
    (hstep : s.step configs e = some u) : Serving runtime u payloads := by
  cases e with
  | execute => cases he
  | pool name e =>
    have hinternal : e.internal = true := by
      simp only [Server.step] at hstep
      split at hstep
      · rename_i hallowed
        exact hallowed.2
      · cases hstep
    have hfinish : ∀ k outcome duration, e ≠ .callWorks k (.finish outcome duration) := by
      rintro k outcome duration rfl
      cases he
    refine h.pool hstep fun {p} hp {i k req payload call} hi hpayload hcall => ?_
    have hkeeps : KeepsServing runtime name _ p := keepsServing_of_step hinternal hfinish hp
    obtain ⟨before, hbefore, hserves⟩ := hkeeps k call hcall
    exact hserves _ _ (h.own hi hpayload hbefore)
  | record i =>
    have hreceived := Server.received_of_step (fun _ => ServerEvent.noConfusion) hstep
    have hinv := Server.inv_record h.inv hstep
    have hrouter : u.router = s.router := by
      simp only [Server.step] at hstep
      split at hstep
      · split at hstep
        · cases hstep
          rfl
        · cases hstep
      · cases hstep
    refine ⟨hinv, hreceived ▸ h.length, ?_⟩
    intro i k req pool payload call hi hpayload hcall
    rw [hreceived] at hi
    rw [hrouter] at hcall
    exact h.own hi hpayload hcall

/-- `executeWithRetry` returns what it made of the payload of the request. -/
theorem Serving.finish (h : Serving runtime s payloads) {i k duration : ℕ} {req : TaskRequest} {pool : String}
    {payload : List UInt8} {attempts : Attempts} {outcome : HandlerResult}
    (hi : s.received[i]? = some (req, .ok (pool, k))) (hpayload : payloads[i]? = some payload)
    (houtcome : execution runtime pool req.taskId payload attempts = some outcome)
    (hstep : s.step configs (.pool pool (.callWorks k (.finish outcome duration))) = some u) :
    Serving runtime u payloads := by
  refine h.pool hstep fun {p} hp {j l req' payload' call} hj hpayload' hcall => ?_
  obtain ⟨task, hbefore, hafter⟩ : ∃ task, (s.router.pool pool).calls[k]? =
      some (.submitSync task (.working .executing)) ∧ p.calls = (s.router.pool pool).calls.set k
        (.submitSync task (.working (.recorded (executedResult task duration outcome)))) := by
    cases Pool.takes_of_step hp with
    | callWorks hbefore hwork =>
      obtain ⟨rfl, hcalls, rfl⟩ := work_finish hwork
      exact ⟨_, hbefore, by rw [Pool.setCall, hcalls]⟩
  rw [hafter] at hcall
  by_cases hl : k = l
  · subst hl
    obtain rfl := Server.received_inj h.inv hi hj
    obtain rfl : req = req' := congrArg Prod.fst (Option.some.inj (hi.symm.trans hj))
    obtain rfl := Option.some.inj (hpayload.symm.trans hpayload')
    rw [List.getElem?_set_self (List.getElem?_eq_some_iff.mp hbefore).1, Option.some.injEq] at hcall
    subst hcall
    have hid := (h.own hi hpayload hbefore).1
    refine ⟨hid, fun result hresult => ?_⟩
    exact Option.some.inj hresult ▸ ownResult_executed hid houtcome duration
  · rw [List.getElem?_set_ne hl] at hcall
    exact h.own hj hpayload' hcall

end Serving

/-! ### What a call of the client resolves with -/

/-- What a call for the task resolves with: the value that the handler of the pool for its workload
type returned for its own parameters, or none. -/
structure Answers (runtime : GoRuntime) (task : QueueTask) (r : GoEngineResult) : Prop where
  /-- It has the id of the task. -/
  taskId : r.taskId = numberText task.id
  /-- It comes from the Go engine. -/
  engine : r.engine = "go"
  /-- A success has the value of the handler. -/
  success : r.success = true → r.error = "" ∧ ∃ ctx value,
    handlerOf (routedPool task.type) runtime ctx (numberText task.id) task.payload = .result value ∧
      r.result = value.parse
  /-- A failure has none. -/
  failure : r.success = false → r.result = .null

/-- What was marshalled is read. -/
theorem parsedResult_marshal {value : Json} (h : value.WellFormed) :
    parsedResult (marshal value) = value.parse := by
  rw [parsedResult, if_pos (List.length_pos_iff.mpr (marshal_ne_nil h)), read_marshal h]

/-- The response to a request made for the task. -/
theorem answers_of_response {runtime : GoRuntime} {s : Server} {payloads : List (List UInt8)}
    (h : Serving runtime s payloads) {task : QueueTask} {i : ℕ} {target : Except TaskResult (String × ℕ)}
    (hi : s.received[i]? = some (task.request, target)) (hpayload : payloads[i]? = some task.payload)
    {response : TaskResponse} (hresponse : s.requests[i]?.bind Request.response = some response) :
    Answers runtime task response.toResult := by
  obtain ⟨r, hr, hreq, -⟩ := Server.exists_of_received hi
  rw [hr, Option.bind_some] at hresponse
  have hmem := List.mem_of_getElem? hr
  obtain ⟨result, hresult, rfl⟩ := h.inv.answered r hmem response hresponse
  obtain ⟨k, htarget⟩ := h.inv.routed r hmem
  simp only [Server.resultOf, htarget] at hresult
  obtain ⟨call, hcall, hreturned⟩ := Option.bind_eq_some_iff.mp hresult
  rw [hreq] at hcall htarget
  have hserved : s.received[i]? = some (task.request, .ok (routedPool task.type, k)) := by
    rw [Server.received, List.getElem?_map, hr, Option.map_some, hreq, htarget]
    rfl
  have hown := serves_of_result (h.own hserved hpayload hcall) hreturned
  refine ⟨hown.id, rfl, fun hsuccess => ?_, fun hfailure => ?_⟩
  · obtain ⟨herror, ctx, value, hvalue, hbytes⟩ := hown.success hsuccess
    refine ⟨herror, ctx, value, hvalue, ?_⟩
    change parsedResult result.result = value.parse
    rw [hbytes, parsedResult_marshal (wellFormed_of_result hvalue)]
  · change parsedResult result.result = .null
    rw [hown.failure hfailure]
    rfl

namespace EngineRun

variable {runtime : GoRuntime} {configs : String → PoolConfig} {s u : EngineRun}

/-- **The invariant**: the engine serves its requests, they are those of the calls, and a call that
was resolved has its answer. -/
structure Own (runtime : GoRuntime) (s : EngineRun) : Prop where
  /-- The engine serves its requests. -/
  serving : Serving runtime s.server s.payloads
  /-- The request of a call is that of its task. -/
  taken : ∀ call ∈ s.calls, ∀ i, call.request = .taken i →
    (∃ target, s.server.received[i]? = some (call.task.request, target)) ∧
      s.payloads[i]? = some call.task.payload
  /-- What a call was resolved with is its own answer. -/
  answered : ∀ call ∈ s.calls, ∀ r, call.settled = some (.ok r) → Answers runtime call.task r

theorem own_initial (runtime : GoRuntime) : Own runtime initial where
  serving := serving_initial runtime
  taken _ hmem := absurd hmem List.not_mem_nil
  answered _ hmem := absurd hmem List.not_mem_nil

/-- The engine goes on with the requests it has. -/
theorem Own.works {server : Server} (h : Own runtime s) (hserving : Serving runtime server s.payloads)
    (hreceived : server.received = s.server.received) : Own runtime { s with server := server } where
  serving := hserving
  taken call hcall i hi := by
    rw [hreceived]
    exact h.taken call hcall i hi
  answered := h.answered

/-- A request reaches the engine. -/
theorem Own.arrive {c : ℕ} (h : Own runtime s) (hu : s.step runtime configs (.arrive c) = some u) :
    Own runtime u := by
  simp only [step] at hu
  split at hu
  · rename_i task settled hcall
    obtain ⟨server, hserver, rfl⟩ := Option.map_eq_some_iff.mp hu
    obtain ⟨target, hreceived⟩ : ∃ target, server.received = s.server.received ++ [(task.request, target)] :=
      ⟨_, (Server.received_of_execute h.serving.inv hserver).1⟩
    have hlength := h.serving.length
    refine ⟨h.serving.execute hserver _, ?_, ?_⟩
    · intro call hmem i hi
      rcases List.mem_or_eq_of_mem_set hmem with hmem | rfl
      · obtain ⟨⟨before, hbefore⟩, hpayload⟩ := h.taken call hmem i hi
        have hlt := (List.getElem?_eq_some_iff.mp hbefore).1
        have hlt' := (List.getElem?_eq_some_iff.mp hpayload).1
        refine ⟨⟨before, ?_⟩, ?_⟩
        · rw [hreceived, List.getElem?_append_left hlt]
          exact hbefore
        · rw [List.getElem?_append_left hlt']
          exact hpayload
      · obtain rfl := RequestPhase.taken.inj hi
        refine ⟨⟨target, ?_⟩, List.getElem?_concat_length⟩
        rw [hreceived, hlength]
        exact List.getElem?_concat_length
    · intro call hmem r hr
      rcases List.mem_or_eq_of_mem_set hmem with hmem | rfl
      · exact h.answered call hmem r hr
      · exact h.answered _ (List.mem_of_getElem? hcall) r hr
  · cases hu

/-- The promise of a call is settled. -/
theorem Own.settle (h : Own runtime s) (connected : Bool) {c : ℕ} {call : ExecuteCall}
    (hcall : s.calls[c]? = some call) {settled : Option (Except String GoEngineResult)}
    (hsettled : ∀ r, settled = some (.ok r) → Answers runtime call.task r) :
    Own runtime
      { s.setCall c { task := call.task, request := call.request, settled := settled } with
        connected := connected } where
  serving := h.serving
  taken after hmem i hi := by
    rcases List.mem_or_eq_of_mem_set hmem with hmem | rfl
    · exact h.taken after hmem i hi
    · exact h.taken call (List.mem_of_getElem? hcall) i hi
  answered after hmem r hr := by
    rcases List.mem_or_eq_of_mem_set hmem with hmem | rfl
    · exact h.answered after hmem r hr
    · exact hsettled r hr

/-- **One step** keeps the invariant. -/
theorem Own.step {e : EngineEvent} (h : Own runtime s) (hu : s.step runtime configs e = some u) :
    Own runtime u := by
  cases e with
  | tested ready =>
    cases hu
    exact ⟨h.serving, h.taken, h.answered⟩
  | execute task =>
    cases hu
    refine ⟨h.serving, ?_, ?_⟩
    · intro call hmem i hi
      rcases List.mem_append.mp hmem with hmem | hmem
      · exact h.taken call hmem i hi
      · rw [List.mem_singleton.mp hmem] at hi
        cases hi
    · intro call hmem r hr
      rcases List.mem_append.mp hmem with hmem | hmem
      · exact h.answered call hmem r hr
      · rw [List.mem_singleton.mp hmem] at hr
        cases hr
  | arrive c => exact h.arrive hu
  | works e =>
    simp only [EngineRun.step] at hu
    split at hu
    · rename_i hinternal
      obtain ⟨server, hserver, rfl⟩ := Option.map_eq_some_iff.mp hu
      refine h.works (h.serving.internal hinternal hserver) (Server.received_of_step ?_ hserver)
      rintro req rfl
      cases hinternal
    · cases hu
  | finish i attempts duration =>
    simp only [EngineRun.step] at hu
    split at hu
    · rename_i req pool k response payload hrequest hpayload
      obtain ⟨outcome, houtcome, hu⟩ := Option.bind_eq_some_iff.mp hu
      obtain ⟨server, hserver, rfl⟩ := Option.map_eq_some_iff.mp hu
      have hreceived : s.server.received[i]? = some (req, .ok (pool, k)) := by
        rw [Server.received, List.getElem?_map, hrequest]
        rfl
      exact h.works (h.serving.finish hreceived hpayload houtcome hserver)
        (Server.received_of_step (fun _ => ServerEvent.noConfusion) hserver)
    · cases hu
  | answer c =>
    simp only [EngineRun.step] at hu
    split at hu
    · rename_i task i hcall
      obtain ⟨response, hresponse, rfl⟩ := Option.map_eq_some_iff.mp hu
      have hbefore := List.mem_of_getElem? hcall
      obtain ⟨⟨target, htarget⟩, hpayload⟩ := h.taken _ hbefore i rfl
      refine h.settle true hcall fun r hr => ?_
      obtain rfl := Except.ok.inj (Option.some.inj hr)
      exact answers_of_response h.serving htarget hpayload hresponse
    · cases hu
  | fail c message =>
    simp only [EngineRun.step] at hu
    split at hu
    · rename_i task request hcall
      cases hu
      refine h.settle false hcall fun r hr => ?_
      cases hr
    · cases hu
  | restart =>
    cases hu
    refine ⟨serving_initial runtime, ?_, ?_⟩
    · intro call hmem i hi
      obtain ⟨before, -, rfl⟩ := List.mem_map.mp hmem
      unfold ExecuteCall.dropped at hi
      split at hi
      · cases hi
      · rename_i hrequest
        exact absurd hi (hrequest i)
    · intro call hmem r hr
      obtain ⟨before, hbefore, rfl⟩ := List.mem_map.mp hmem
      have hsame : before.dropped.task = before.task ∧ before.dropped.settled = before.settled := by
        unfold ExecuteCall.dropped
        split <;> exact ⟨rfl, rfl⟩
      rw [hsame.1]
      exact h.answered before hbefore r (hsame.2 ▸ hr)

theorem own_reachable (h : Reachable (step runtime configs) initial s) : Own runtime s :=
  h.invariant (own_initial runtime) fun _ _ _ hown _ hu => hown.step hu

end EngineRun

end BulkTraffic.GoEngine
