import Mathlib.Algebra.Ring.Int.Defs
import BulkTraffic.GoEngine.PoolCounts

/-!
# The gRPC server of the Go engine

`Execute` routes a request to a pool, waits for `SubmitSync` and counts the result in the
Prometheus counter `TasksProcessed`, labelled with a pool and a status. `GetStats` reports what
the pools count themselves. Any number of requests is in flight.

The two layers classify a request on their own. The router sends an unknown workload type to the
cpu pool, the server labels it with the type itself; a refused task is a failed one to the server
and none to the pool.

* `Server.Inv`: every request is one call of the pool its workload type is routed to, and the
  counter counts the answered requests.
* `counters_agree_iff`: when all requests are answered, the counter agrees with the statistics
  exactly when every request names a known workload type and none was refused.
-/

namespace BulkTraffic.GoEngine

open BulkTraffic.Lib

/-! ### The router -/

/-- `Router`: the pools by name. -/
structure Router where
  /-- The keys of `pools`. -/
  names : List String
  /-- The pool under a key. -/
  pool : String → Pool

namespace Router

/-- `getPool(..)`: a pool the router has, or an error. -/
def getPool (r : Router) (name : String) : Except String String :=
  if name ∈ r.names then .ok name else .error s!"pool \"{name}\" not found"

/-- `Route(..)`, with the name of the pool for the pool. -/
def route (r : Router) (workloadType : String) : Except String String :=
  if workloadType = "cpu" then r.getPool "cpu"
  else if workloadType = "io" then r.getPool "io"
  else if workloadType = "batch" then r.getPool "batch"
  else if workloadType = "memory" ∨ workloadType = "custom" then r.getPool "cpu"
  else r.getPool "cpu"

end Router

/-! ### The server -/

/-- The fields of `TaskRequest` the engine reads. -/
structure TaskRequest where
  /-- The id. -/
  taskId : String
  /-- The workload type, any string. -/
  workloadType : String
  /-- The priority. -/
  priority : ℤ := 0

/-- `TaskResponse`. -/
structure TaskResponse where
  /-- The id. -/
  taskId : String
  /-- Did the task succeed? -/
  success : Bool
  /-- The handler's bytes. -/
  result : List UInt8
  /-- The error. -/
  error : String
  /-- The duration. -/
  durationMs : ℕ
  /-- The engine. -/
  engine : String := "go"
  deriving DecidableEq

/-- The response to a result. -/
def respond (result : TaskResult) : TaskResponse where
  taskId := result.taskID
  success := result.success
  result := result.result
  error := result.error
  durationMs := result.durationMs

/-- A request to `Execute`. -/
structure Request where
  /-- What was asked. -/
  req : TaskRequest
  /-- The pool and the position of the call of `SubmitSync` there, or the result `Execute` of the
  router returned without one. -/
  target : Except TaskResult (String × ℕ)
  /-- The response, when the request has been answered. -/
  response : Option TaskResponse := none

/-- A counter vector with two labels. -/
abbrev CounterVec := String → String → ℕ

/-- `WithLabelValues(pool, status).Inc()`. -/
def CounterVec.inc (c : CounterVec) (pool status : String) : CounterVec := fun p st =>
  if p = pool ∧ st = status then c p st + 1 else c p st

/-- The server with its router, its metrics, and the requests it has taken. -/
structure Server where
  /-- The router. -/
  router : Router
  /-- `metrics.TasksProcessed`. -/
  tasksProcessed : CounterVec := fun _ _ => 0
  /-- The requests, in the order they came. -/
  requests : List Request := []

/-- The `status` label of a result. -/
def statusLabel (success : Bool) : String := if success then "success" else "failed"

/-- The `pool` label of a request. -/
def poolLabel (workloadType : String) : String :=
  if workloadType = "memory" ∨ workloadType = "custom" ∨ workloadType = "" then "cpu"
  else workloadType

/-- What can happen. -/
inductive ServerEvent where
  /-- `Execute` is called. -/
  | execute (req : TaskRequest)
  /-- Something happens in a pool. -/
  | pool (name : String) (e : PoolEvent)
  /-- The router's result is there for a request: it is counted, and the request answered. -/
  | record (i : ℕ)

/-- The calls that reach a pool come from `Execute`: nothing else calls `SubmitSync`, and nothing
calls `Submit`. -/
def PoolEvent.internal : PoolEvent → Bool
  | .submit _ | .submitSync _ => false
  | _ => true

namespace Server

/-- Overwrite a pool. -/
def setPool (s : Server) (name : String) (p : Pool) : Server :=
  { s with router := { s.router with pool := Function.update s.router.pool name p } }

/-- The result `router.Execute` has for a request, once it has one. -/
def resultOf (s : Server) (r : Request) : Option TaskResult :=
  match r.target with
  | .error result => some result
  | .ok (name, k) => (s.router.pool name).calls[k]?.bind Call.result?

/-- One step. -/
def step (configs : String → PoolConfig) (s : Server) : ServerEvent → Option Server
  | .execute req =>
    match s.router.route req.workloadType with
    | .error error =>
      some { s with requests := s.requests ++
        [{ req := req, target := .error { taskID := req.taskId, success := false, error := error } }] }
    | .ok name =>
      let task : Task := { id := req.taskId, priority := req.priority }
      ((s.router.pool name).step (configs name) (.submitSync task)).map fun p =>
        { s.setPool name p with requests := s.requests ++
            [{ req := req, target := .ok (name, (s.router.pool name).calls.length) }] }
  | .pool name e =>
    if name ∈ s.router.names ∧ e.internal = true then
      ((s.router.pool name).step (configs name) e).map fun p => s.setPool name p
    else none
  | .record i =>
    match s.requests[i]? with
    | some { req := req, target := target, response := none } =>
      match s.resultOf { req := req, target := target } with
      | some result =>
        some { s with
          tasksProcessed :=
            s.tasksProcessed.inc (poolLabel req.workloadType) (statusLabel result.success)
          requests := s.requests.set i
            { req := req, target := target, response := some (respond result) } }
      | none => none
    | _ => none

/-- The engine as `main` starts it: three pools and nothing counted. -/
def initial : Server := { router := { names := ["cpu", "io", "batch"], pool := fun _ => {} } }

end Server

/-! ### `GetStats` -/

/-- `PoolStats`, without the latencies. -/
structure PoolStats where
  /-- The key of the pool. -/
  name : String
  /-- The slots in use. -/
  activeWorkers : ℤ
  /-- The queued tasks. -/
  queueLength : ℕ
  /-- `Processed`. -/
  processed : ℕ
  /-- `Failed`. -/
  failed : ℕ

/-- `EngineStats`. -/
structure EngineStats where
  /-- `Processed` of all pools. -/
  totalProcessed : ℕ
  /-- `Failed` of all pools. -/
  totalFailed : ℕ
  /-- `ActiveWorkers` of all pools. -/
  activeTasks : ℤ
  /-- The pools. -/
  pools : List PoolStats

/-- `GetStats(..)`. -/
def Server.getStats (s : Server) : EngineStats where
  totalProcessed := (s.router.names.map fun name => (s.router.pool name).stats.processed).sum
  totalFailed := (s.router.names.map fun name => (s.router.pool name).stats.failed).sum
  activeTasks := (s.router.names.map fun name => (s.router.pool name).stats.activeWorkers).sum
  pools := s.router.names.map fun name =>
    let p := s.router.pool name
    { name := name, activeWorkers := p.stats.activeWorkers, queueLength := p.queue.queueLen,
      processed := p.stats.processed, failed := p.stats.failed }

/-! ### Requests and calls -/

/-- The workload types the server labels with the pool they are routed to. -/
def knownTypes : List String := ["cpu", "io", "batch", "memory", "custom", ""]

/-- The pool a workload type is routed to, among the pools of `main`. -/
def routedPool (workloadType : String) : String :=
  if workloadType = "io" then "io" else if workloadType = "batch" then "batch" else "cpu"

/-- The position of a request's call in a pool, if it is there. -/
def Request.indexIn (name : String) (r : Request) : Option ℕ :=
  match r.target with
  | .ok (pool, k) => if pool = name then some k else none
  | .error _ => none

/-- Was the request counted under these labels? -/
def Request.countedAs (pool status : String) (r : Request) : ℕ :=
  match r.response with
  | some response =>
    if pool = poolLabel r.req.workloadType ∧ status = statusLabel response.success then 1 else 0
  | none => 0

/-- Does `Route` select the pool for the request? -/
def Server.routedTo (s : Server) (name : String) (r : Request) : Bool :=
  match s.router.route r.req.workloadType with
  | .ok pool => pool == name
  | .error _ => false

theorem poolLabel_of_known {workloadType : String} (h : workloadType ∈ knownTypes) :
    poolLabel workloadType = routedPool workloadType := by
  simp only [knownTypes, List.mem_cons, List.not_mem_nil, or_false] at h
  rcases h with rfl | rfl | rfl | rfl | rfl | rfl <;> decide

/-- An unknown type is a label of its own. -/
theorem poolLabel_of_unknown {workloadType : String} (h : workloadType ∉ knownTypes) :
    poolLabel workloadType ≠ "cpu" ∧ routedPool workloadType = "cpu" := by
  simp only [knownTypes, List.mem_cons, List.not_mem_nil, or_false, not_or] at h
  obtain ⟨hcpu, hio, hbatch, hmemory, hcustom, hempty⟩ := h
  simp [poolLabel, routedPool, hcpu, hio, hbatch, hmemory, hcustom, hempty]

namespace Server

variable {configs : String → PoolConfig} {s u : Server}

theorem route_eq (h : s.router.names = ["cpu", "io", "batch"]) (workloadType : String) :
    s.router.route workloadType = .ok (routedPool workloadType) := by
  unfold Router.route routedPool
  split_ifs <;> simp_all [Router.getPool]

/-- The invariant: a request is one call of the pool it is routed to, and the counter counts the
answered requests. -/
structure Inv (s : Server) : Prop where
  /-- The pools are those of `main`. -/
  names : s.router.names = ["cpu", "io", "batch"]
  /-- Only `SubmitSync` is called. -/
  pools : ∀ name, (s.router.pool name).SyncOnly
  /-- A request has a call in the pool it is routed to. -/
  routed : ∀ r ∈ s.requests, ∃ k, r.target = .ok (routedPool r.req.workloadType, k)
  /-- The requests routed to a pool have its calls one by one. -/
  indices : ∀ name, s.requests.filterMap (Request.indexIn name) =
    List.range (s.router.pool name).calls.length
  /-- An answer is what the call returned. -/
  answered : ∀ r ∈ s.requests, ∀ response, r.response = some response →
    ∃ result, s.resultOf r = some result ∧ response = respond result
  /-- The counter counts the answers. -/
  counted : ∀ pool status,
    s.tasksProcessed pool status = weight (Request.countedAs pool status) s.requests

theorem inv_initial : Inv initial where
  names := rfl
  pools _ := Pool.syncOnly_initial
  routed := by simp [initial]
  indices _ := rfl
  answered := by simp [initial]
  counted _ _ := rfl

@[simp] theorem setPool_names (s : Server) (name : String) (p : Pool) :
    (s.setPool name p).router.names = s.router.names := rfl

@[simp] theorem setPool_requests (s : Server) (name : String) (p : Pool) :
    (s.setPool name p).requests = s.requests := rfl

theorem setPool_pool (s : Server) (name name' : String) (p : Pool) :
    (s.setPool name p).router.pool name' = if name' = name then p else s.router.pool name' := by
  simp [setPool, Function.update_apply]

/-- A result that is there stays. -/
theorem resultOf_setPool {name : String} {p : Pool} {e : PoolEvent}
    (hstep : Pool.SyncStep (s.router.pool name) p e) {r : Request} {result : TaskResult}
    (h : s.resultOf r = some result) : (s.setPool name p).resultOf r = some result := by
  obtain ⟨req, target, response⟩ := r
  cases target with
  | error _ => exact h
  | ok target =>
    obtain ⟨pool, k⟩ := target
    obtain ⟨call, hcall, hresult⟩ := Option.bind_eq_some_iff.mp h
    refine Option.bind_eq_some_iff.mpr ⟨call, ?_, hresult⟩
    rw [setPool_pool]
    split
    · rename_i heq
      subst heq
      exact hstep.keeps_returned hcall hresult
    · exact hcall

/-- A new request is one more call of its pool. -/
theorem inv_execute {req : TaskRequest} (hs : s.Inv) (h : s.step configs (.execute req) = some u) :
    u.Inv := by
  simp only [step, route_eq hs.names] at h
  obtain ⟨p, hp, rfl⟩ := Option.map_eq_some_iff.mp h
  have hpool := hs.pools (routedPool req.workloadType)
  obtain ⟨hstep, -⟩ := Pool.syncStep_of_step hpool.loop hpool.calls
    (fun _ => PoolEvent.noConfusion) hp
  have hcalls : p.calls.length = (s.router.pool (routedPool req.workloadType)).calls.length + 1 := by
    cases hp
    simp
  refine ⟨hs.names, ?_, ?_, ?_, ?_, ?_⟩
  · intro name
    show ((s.setPool _ p).router.pool name).SyncOnly
    rw [setPool_pool]
    split
    · exact Pool.syncOnly_step hpool (fun _ => PoolEvent.noConfusion) hp
    · exact hs.pools name
  · intro r hr
    rcases List.mem_append.mp hr with hr | hr
    · exact hs.routed r hr
    · rw [List.mem_singleton.mp hr]
      exact ⟨_, rfl⟩
  · intro name
    show (s.requests ++ _).filterMap _ = List.range ((s.setPool _ p).router.pool name).calls.length
    rw [List.filterMap_append, hs.indices, setPool_pool]
    by_cases hname : name = routedPool req.workloadType
    · subst hname
      simp [Request.indexIn, hcalls, List.range_succ]
    · simp [Request.indexIn, hname, Ne.symm hname]
  · intro r hr response hresponse
    rcases List.mem_append.mp hr with hr | hr
    · obtain ⟨result, hresult, rfl⟩ := hs.answered r hr response hresponse
      exact ⟨result, resultOf_setPool hstep hresult, rfl⟩
    · rw [List.mem_singleton.mp hr] at hresponse
      cases hresponse
  · intro pool status
    show s.tasksProcessed pool status = weight _ (s.requests ++ _)
    rw [hs.counted, weight_append]
    simp [Request.countedAs]

/-- A step inside a pool leaves the requests as they are. -/
theorem inv_pool {name : String} {e : PoolEvent} (hs : s.Inv)
    (h : s.step configs (.pool name e) = some u) : u.Inv := by
  simp only [step] at h
  split at h
  · rename_i hallowed
    obtain ⟨-, hinternal⟩ := hallowed
    obtain ⟨p, hp, rfl⟩ := Option.map_eq_some_iff.mp h
    have hsubmit : ∀ task, e ≠ .submit task := by
      rintro task rfl
      cases hinternal
    have hsync : ∀ task, e ≠ .submitSync task := by
      rintro task rfl
      cases hinternal
    have hpool := hs.pools name
    obtain ⟨hstep, -⟩ := Pool.syncStep_of_step hpool.loop hpool.calls hsubmit hp
    refine ⟨hs.names, ?_, hs.routed, ?_, ?_, hs.counted⟩
    · intro name'
      rw [setPool_pool]
      split
      · exact Pool.syncOnly_step hpool hsubmit hp
      · exact hs.pools name'
    · intro name'
      rw [setPool_pool]
      split
      · rename_i heq
        subst heq
        rw [hstep.length_calls hsync]
        exact hs.indices name'
      · exact hs.indices name'
    · intro r hr response hresponse
      obtain ⟨result, hresult, rfl⟩ := hs.answered r hr response hresponse
      exact ⟨result, resultOf_setPool hstep hresult, rfl⟩
  · cases h

/-- Overwriting an element by one with the same image changes no image. -/
theorem filterMap_set {α β : Type*} {f : α → Option β} {l : List α} {i : ℕ} {a b : α}
    (h : l[i]? = some a) (hf : f b = f a) : (l.set i b).filterMap f = l.filterMap f := by
  induction l generalizing i with
  | nil => rfl
  | cons c l ih =>
    cases i with
    | zero =>
      obtain rfl : c = a := by simpa using h
      simp only [List.set_cons_zero, List.filterMap_cons, hf]
    | succ i =>
      have htail := ih (by simpa using h)
      simp only [List.set_cons_succ, List.filterMap_cons, htail]

/-- An answer is counted once. -/
theorem inv_record {i : ℕ} (hs : s.Inv) (h : s.step configs (.record i) = some u) : u.Inv := by
  simp only [step] at h
  split at h
  · rename_i req target hr
    split at h
    · rename_i result hresult
      cases h
      have hmem := List.mem_of_getElem? hr
      refine ⟨hs.names, hs.pools, ?_, ?_, ?_, ?_⟩
      · intro r hmem'
        rcases List.mem_or_eq_of_mem_set hmem' with hmem' | rfl
        · exact hs.routed r hmem'
        · obtain ⟨k, hk⟩ := hs.routed _ hmem
          exact ⟨k, hk⟩
      · intro name
        rw [← hs.indices name]
        exact filterMap_set hr rfl
      · intro r hmem' response hresponse
        rcases List.mem_or_eq_of_mem_set hmem' with hmem' | rfl
        · exact hs.answered r hmem' response hresponse
        · exact ⟨result, hresult, (Option.some.inj hresponse).symm⟩
      · intro pool status
        have hweight := weight_set (Request.countedAs pool status) hr
          { req := req, target := target, response := some (respond result) }
        have hcounted := hs.counted pool status
        simp only [CounterVec.inc, Request.countedAs, respond] at hweight ⊢
        split <;> simp_all
    · cases h
  · cases h

/-- **The invariant holds in every run.** -/
theorem inv_reachable (h : Reachable (step configs) initial s) : s.Inv := by
  refine h.invariant inv_initial ?_
  intro t e u ht _ hu
  cases e with
  | execute req => exact inv_execute ht hu
  | pool name e => exact inv_pool ht hu
  | record i => exact inv_record ht hu

/-! ### When every request is answered -/

/-- Every request has been answered. -/
def Settled (s : Server) : Prop := ∀ r ∈ s.requests, r.response.isSome

/-- The two layers agree: for every pool, the counter has what the pool's statistics have, and
under every pool name as many requests are counted as `Route` selected that pool for. -/
structure CountersAgree (s : Server) : Prop where
  /-- The successes. -/
  success : ∀ p ∈ s.getStats.pools, s.tasksProcessed p.name "success" = p.processed
  /-- The failures. -/
  failed : ∀ p ∈ s.getStats.pools, s.tasksProcessed p.name "failed" = p.failed
  /-- Every request is counted once, under the pool it was routed to. -/
  once : ∀ name, s.tasksProcessed name "success" + s.tasksProcessed name "failed" =
    (s.requests.filter (s.routedTo name)).length

/-- `1` for a request with this pool and success, `0` for any other. -/
def resultIn (pool : Request → String) (name : String) (success : Bool) (r : Request) : ℕ :=
  if pool r = name ∧ r.response.any TaskResponse.success = success then 1 else 0

/-- The pool a request is routed to. -/
def routedOf (r : Request) : String := routedPool r.req.workloadType

/-- The pool a request is labelled with. -/
def labelOf (r : Request) : String := poolLabel r.req.workloadType

/-- The calls of a pool, weighed by the requests they serve. -/
theorem weight_calls (hs : s.Inv) (f : Call → ℕ) (name : String) :
    weight f (s.router.pool name).calls =
      weight (fun r => (r.indexIn name).elim 0 fun k => ((s.router.pool name).calls[k]?).elim 0 f)
        s.requests := by
  rw [← weight_range_getElem?, ← hs.indices, weight_filterMap]

/-- An answered request is a call that has returned, counted by the pool unless it was refused. -/
theorem counted_of_settled (hs : s.Inv) (hq : s.Settled) {r : Request} (hr : r ∈ s.requests)
    (name : String) :
    let serving := fun f : Call → ℕ =>
      (r.indexIn name).elim 0 fun k => ((s.router.pool name).calls[k]?).elim 0 f
    serving Call.succeeded = resultIn routedOf name true r ∧
      serving Call.failed + serving Call.refused = resultIn routedOf name false r := by
  obtain ⟨response, hresponse⟩ := Option.isSome_iff_exists.mp (hq r hr)
  obtain ⟨result, hresult, rfl⟩ := hs.answered r hr response hresponse
  obtain ⟨k, htarget⟩ := hs.routed r hr
  simp only [resultOf, htarget] at hresult
  obtain ⟨call, hcall, hreturned⟩ := Option.bind_eq_some_iff.mp hresult
  have hsync := (hs.pools _).calls call (List.mem_of_getElem? hcall)
  have hcounted := Call.counted_of_result hsync hreturned
  by_cases hname : routedPool r.req.workloadType = name
  · subst hname
    simp only [Request.indexIn, htarget, if_true, Option.elim_some, hcall, resultIn, routedOf,
      hresponse, Option.any_some, respond, true_and]
    cases hsuccess : result.success <;> simp_all
  · simp [Request.indexIn, htarget, hname, resultIn, routedOf]

/-- What the pools have counted. -/
theorem stats_of_settled (hs : s.Inv) (hq : s.Settled) (name : String) :
    (s.router.pool name).stats.processed = weight (resultIn routedOf name true) s.requests ∧
      (s.router.pool name).stats.failed + weight Call.refused (s.router.pool name).calls =
        weight (resultIn routedOf name false) s.requests := by
  constructor
  · rw [(hs.pools name).processed, weight_calls hs]
    exact weight_congr fun r hr => (counted_of_settled hs hq hr name).1
  · rw [(hs.pools name).failed, weight_calls hs, weight_calls hs, ← weight_add]
    exact weight_congr fun r hr => (counted_of_settled hs hq hr name).2

/-- What the server has counted. -/
theorem tasksProcessed_of_settled (hs : s.Inv) (hq : s.Settled) (name : String) (success : Bool) :
    s.tasksProcessed name (statusLabel success) =
      weight (resultIn labelOf name success) s.requests := by
  rw [hs.counted]
  refine weight_congr fun r hr => ?_
  obtain ⟨response, hresponse⟩ := Option.isSome_iff_exists.mp (hq r hr)
  have hstatus : statusLabel success = statusLabel response.success ↔
      response.success = success := by
    cases success <;> cases response.success <;> decide
  simp only [Request.countedAs, resultIn, labelOf, hresponse, Option.any_some, hstatus,
    @eq_comm _ name]

/-- Succeeded and failed requests are all requests. -/
theorem resultIn_total (pool : Request → String) (name : String) (r : Request) :
    resultIn pool name true r + resultIn pool name false r = if pool r = name then 1 else 0 := by
  unfold resultIn
  by_cases hp : pool r = name
  · cases r.response.any TaskResponse.success <;> simp [hp]
  · simp [hp]

/-- How many requests are routed to a pool. -/
theorem length_routedTo (hs : s.Inv) (name : String) :
    (s.requests.filter (s.routedTo name)).length =
      weight (fun r => if routedOf r = name then 1 else 0) s.requests := by
  rw [← List.countP_eq_length_filter]
  induction s.requests with
  | nil => rfl
  | cons r requests ih =>
    have hrouted : s.routedTo name r = decide (routedOf r = name) := by
      simp only [routedTo, route_eq hs.names, routedOf]
      rfl
    rw [List.countP_cons, ih, weight_cons, Nat.add_comm, hrouted]
    by_cases hname : routedOf r = name <;> simp [hname]

/-- How many requests are counted under a label. -/
theorem tasksProcessed_total (hs : s.Inv) (hq : s.Settled) (name : String) :
    s.tasksProcessed name "success" + s.tasksProcessed name "failed" =
      weight (fun r => if labelOf r = name then 1 else 0) s.requests := by
  have hsuccess : s.tasksProcessed name "success" = _ := tasksProcessed_of_settled hs hq name true
  have hfailed : s.tasksProcessed name "failed" = _ := tasksProcessed_of_settled hs hq name false
  rw [hsuccess, hfailed, ← weight_add]
  exact weight_congr fun r _ => resultIn_total labelOf name r

/-- If every request is counted under the pool it is routed to, every workload type is known: an
unknown one is missing under `cpu`. -/
theorem known_of_once (hs : s.Inv) (hq : s.Settled)
    (h : ∀ name, s.tasksProcessed name "success" + s.tasksProcessed name "failed" =
      (s.requests.filter (s.routedTo name)).length) :
    ∀ r ∈ s.requests, r.req.workloadType ∈ knownTypes := by
  have hcpu := h "cpu"
  rw [tasksProcessed_total hs hq, length_routedTo hs] at hcpu
  have hle : ∀ r ∈ s.requests, (if labelOf r = "cpu" then 1 else 0) ≤
      if routedOf r = "cpu" then 1 else 0 := by
    intro r _
    by_cases hknown : r.req.workloadType ∈ knownTypes
    · apply Nat.le_of_eq
      rw [labelOf, routedOf, poolLabel_of_known hknown]
    · rw [labelOf, if_neg (poolLabel_of_unknown hknown).1]
      exact Nat.zero_le _
  intro r hr
  by_contra hunknown
  obtain ⟨hlabel, hrouted⟩ := poolLabel_of_unknown hunknown
  have heq := eq_of_weight_eq hle hcpu r hr
  simp [labelOf, routedOf, hlabel, hrouted] at heq

theorem labelOf_eq_routedOf {r : Request} (h : r.req.workloadType ∈ knownTypes) :
    labelOf r = routedOf r := poolLabel_of_known h

/-- With known workload types, the counter has what the pools count and, among the failures, the
refused calls. -/
theorem tasksProcessed_of_known (hs : s.Inv) (hq : s.Settled)
    (hknown : ∀ r ∈ s.requests, r.req.workloadType ∈ knownTypes) (name : String) :
    s.tasksProcessed name "success" = (s.router.pool name).stats.processed ∧
      s.tasksProcessed name "failed" = (s.router.pool name).stats.failed +
        weight Call.refused (s.router.pool name).calls := by
  obtain ⟨hprocessed, hfailed⟩ := stats_of_settled hs hq name
  have hlabel : ∀ success, weight (resultIn labelOf name success) s.requests =
      weight (resultIn routedOf name success) s.requests := by
    intro success
    refine weight_congr fun r hr => ?_
    rw [resultIn, resultIn, labelOf_eq_routedOf (hknown r hr)]
  have hs' := tasksProcessed_of_settled hs hq name true
  have hf' := tasksProcessed_of_settled hs hq name false
  rw [hlabel] at hs' hf'
  exact ⟨hs'.trans hprocessed.symm, hf'.trans hfailed.symm⟩

/-- **The counter agrees with the statistics exactly when every request names a known workload
type and none was refused**: in every run of any number of concurrent requests to pools with any
settings, whenever all of them are answered. -/
theorem counters_agree_iff (h : Reachable (step configs) initial s) (hq : s.Settled) :
    s.CountersAgree ↔
      (∀ r ∈ s.requests, r.req.workloadType ∈ knownTypes) ∧
        ∀ name ∈ s.router.names, ∀ call ∈ (s.router.pool name).calls, call.refused = 0 := by
  have hs := inv_reachable h
  constructor
  · rintro ⟨-, hfailed, honce⟩
    have hknown := known_of_once hs hq honce
    refine ⟨hknown, ?_⟩
    intro name hname call hcall
    have hcounted := (tasksProcessed_of_known hs hq hknown name).2
    have hagree := hfailed _ (List.mem_map_of_mem hname)
    have hle := le_weight_of_mem Call.refused hcall
    dsimp only at hagree
    omega
  · rintro ⟨hknown, hrefused⟩
    refine ⟨?_, ?_, ?_⟩
    · intro p hp
      obtain ⟨name, -, rfl⟩ := List.mem_map.mp hp
      exact (tasksProcessed_of_known hs hq hknown name).1
    · intro p hp
      obtain ⟨name, hname, rfl⟩ := List.mem_map.mp hp
      have hcounted := (tasksProcessed_of_known hs hq hknown name).2
      rw [weight_eq_zero Call.refused (hrefused name hname)] at hcounted
      exact hcounted
    · intro name
      rw [tasksProcessed_total hs hq, length_routedTo hs]
      refine weight_congr fun r hr => ?_
      rw [labelOf_eq_routedOf (hknown r hr)]

/-- The settings of `main`, with one worker in every pool. -/
def mainConfigs (name : String) : PoolConfig :=
  if name = "io" then { name := "io", workers := 1, maxQueue := 5000, rateLimit := 100 }
  else if name = "batch" then { name := "batch", workers := 1, maxQueue := 500, rateLimit := 10 }
  else { name := "cpu", workers := 1, maxQueue := 1000 }

/-- The steps of a request whose call, the `k`-th of its pool, is executed. -/
def executes (pool : String) (k : ℕ) (outcome : Except String (List UInt8)) : List ServerEvent :=
  [.check k, .acquire k, .callWorks k .start, .callWorks k (.finish outcome 3),
    .callWorks k .leave, .callWorks k .release].map (.pool pool)

/-- Two requests at once, a `custom` one that succeeds and a `cpu` one whose handler fails: both
layers count one success and one failure of the cpu pool. -/
theorem counters_agree_for_two :
    ∃ s, Reachable (step mainConfigs) initial s ∧ s.Settled ∧ s.requests.length = 2 ∧
      s.CountersAgree := by
  obtain ⟨s, hs, hseen⟩ := exists_reaches_of_runEvents (step mainConfigs) (fun _ _ => True)
    (fun s => (s.requests.map fun r => (r.req.workloadType, r.response.isSome),
      s.router.names.map fun name => (s.router.pool name).calls.map Call.refused))
    (s := initial)
    ([.execute { taskId := "1", workloadType := "custom" },
        .execute { taskId := "2", workloadType := "cpu" }] ++
      executes "cpu" 1 (.error "boom") ++ executes "cpu" 0 (.ok []) ++ [.record 0, .record 1])
    ([("custom", true), ("cpu", true)], [[0, 0], [], []]) (by decide +kernel)
  obtain ⟨hrequests, hrefused⟩ := Prod.mk.inj hseen
  have hmap : ∀ r ∈ s.requests, (r.req.workloadType, r.response.isSome) ∈
      [("custom", true), ("cpu", true)] := by
    intro r hr
    rw [← hrequests]
    exact List.mem_map_of_mem hr
  have hq : s.Settled := by
    intro r hr
    have := hmap r hr
    simp only [List.mem_cons, Prod.mk.injEq, List.not_mem_nil, or_false] at this
    rcases this with ⟨-, h⟩ | ⟨-, h⟩ <;> exact h
  refine ⟨s, hs, hq, by simpa using congrArg List.length hrequests,
    (counters_agree_iff hs hq).mpr ⟨?_, ?_⟩⟩
  · intro r hr
    have := hmap r hr
    simp only [List.mem_cons, Prod.mk.injEq, List.not_mem_nil, or_false] at this
    rcases this with ⟨h, -⟩ | ⟨h, -⟩ <;> rw [h] <;> decide
  · intro name hname call hcall
    have hmem : call.refused ∈ [[0, 0], [], []].flatten := by
      rw [← hrefused]
      exact List.mem_flatten.mpr ⟨_, List.mem_map_of_mem hname, List.mem_map_of_mem hcall⟩
    simpa using hmem

/-- Two runs of one request. The first has the workload type `unknown`, which the Node side sends
for a task without a type: it is executed by the cpu pool and counted under `unknown`. The second
gives up waiting for a worker of the io pool: the server counts a failure, the pool none. -/
theorem counters_disagree :
    (∃ s, Reachable (step mainConfigs) initial s ∧ s.Settled ∧
      s.tasksProcessed "unknown" "success" = 1 ∧ ¬ s.CountersAgree) ∧
    ∃ s, Reachable (step mainConfigs) initial s ∧ s.Settled ∧
      s.tasksProcessed "io" "failed" = 1 ∧ ¬ s.CountersAgree := by
  constructor
  · obtain ⟨s, hs, hseen⟩ := exists_reaches_of_runEvents (step mainConfigs) (fun _ _ => True)
      (fun s => (s.requests.all fun r => r.response.isSome, s.tasksProcessed "unknown" "success",
        s.tasksProcessed "cpu" "success", (s.router.pool "cpu").stats.processed))
      (s := initial)
      ([.execute { taskId := "1", workloadType := "unknown" }] ++ executes "cpu" 0 (.ok []) ++
        [.record 0])
      (true, 1, 0, 1) (by decide +kernel)
    simp only [Prod.mk.injEq, List.all_eq_true] at hseen
    obtain ⟨hq, hunknown, hcounter, hprocessed⟩ := hseen
    refine ⟨s, hs, hq, hunknown, fun hagree => ?_⟩
    have hcpu : "cpu" ∈ s.router.names := by simp [(inv_reachable hs).names]
    have h := hagree.success _ (List.mem_map_of_mem hcpu)
    dsimp only at h
    omega
  · obtain ⟨s, hs, hseen⟩ := exists_reaches_of_runEvents (step mainConfigs) (fun _ _ => True)
      (fun s => (s.requests.all fun r => r.response.isSome, s.tasksProcessed "io" "failed",
        (s.router.pool "io").stats.failed))
      (s := initial)
      [.execute { taskId := "1", workloadType := "io" }, .pool "io" (.check 0),
        .pool "io" (.waited 0 none), .pool "io" (.expire 0), .record 0]
      (true, 1, 0) (by decide +kernel)
    simp only [Prod.mk.injEq, List.all_eq_true] at hseen
    obtain ⟨hq, hcounter, hfailed⟩ := hseen
    refine ⟨s, hs, hq, hcounter, fun hagree => ?_⟩
    have hio : "io" ∈ s.router.names := by simp [(inv_reachable hs).names]
    have h := hagree.failed _ (List.mem_map_of_mem hio)
    dsimp only at h
    omega

end Server

end BulkTraffic.GoEngine
