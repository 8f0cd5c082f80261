import BulkTraffic.Queue.OptionsParser

/-!
# The analysis of requests

`QueueRequestAnalyzer`: from a request to its `RequestRoutingDecision`, the priority, the
category, the size, the timeout and the workload with which it is enqueued.
-/

namespace BulkTraffic.Http

open BulkTraffic.Js BulkTraffic.Queue

/-- What the analyzer reads of a request; a text that is `undefined` is the empty one. -/
structure Request where
  path : String := ""
  url : String := ""
  method : String := "GET"
  /-- `req.query`, `none` for `undefined`. -/
  query : Option Record := some []
  body : JsValue := .undefined
  /-- `Buffer.byteLength(JSON.stringify(req.body), 'utf8')`, `none` where this throws. -/
  bodySize : Option ℕ := some 0

/-- `RequestRoutingDecision`. -/
structure RequestRoutingDecision where
  priority : ℤ
  category : String
  isBatchable : Bool
  size : ℕ
  bypass : Bool
  timeout : ℕ
  workloadType : Option String
  params : Option Record
  functionCode : Option String

namespace QueueRequestAnalyzer

/-- The file name extensions of `shouldBypass`. -/
def staticExtensions : List String :=
  ["css", "js", "png", "jpg", "jpeg", "gif", "svg", "ico", "woff", "woff2", "ttf", "eot"]

/-- `shouldBypass(path)`. -/
def shouldBypass (path : String) : Bool :=
  if path = "/health" || path = "/queue-stats" || includes path "/status" || includes path "/ping" then
    true
  else staticExtensions.any fun extension => endsWith path ("." ++ extension)

/-- `calculateBodySizeWeight(body)`. -/
def calculateBodySizeWeight (body : JsValue) (bodySize : Option ℕ) : ℕ :=
  if !body.truthy then 0
  else match bodySize with
    | some n => if 10000 < n then 4 else if 3000 < n then 2 else if 1000 < n then 1 else 0
    | none => 1

/-- `asObject(value)`. -/
def asObject : JsValue → Option Record
  | .obj fields => some fields
  | _ => none

/-- `extractParams(bodyRecord)`. -/
def extractParams (bodyRecord : Option Record) : Option Record :=
  bodyRecord.bind fun record =>
    let source := (asObject (record.field "params")).getD record
    let rest := source.filter fun e => !(["workloadType", "functionCode", "params"].contains e.1)
    if rest.isEmpty then none else some rest

/-- `!req.query || Object.keys(req.query).length === 0`. -/
def hasNoQuery (query : Option Record) : Bool := (query.getD []).isEmpty

/-- What the method and the path contribute to a decision. -/
structure Routing where
  priority : ℤ
  category : String
  isBatchable : Bool
  size : ℕ
  timeout : ℕ

/-- The rules by method. -/
def routeMethod (method : String) (noQuery : Bool) (r : Routing) : Routing :=
  if method = "GET" then
    { r with priority := r.priority + 2, isBatchable := r.isBatchable || noQuery }
  else if method = "DELETE" then { r with priority := r.priority - 1 }
  else if method = "PUT" || method = "PATCH" then { r with priority := r.priority - 2 }
  else if method = "POST" then { r with priority := r.priority - 3, size := r.size + 1 }
  else r

/-- The rules by path. -/
def routePath (path method : String) (r : Routing) : Routing :=
  if includes path "/admin" then { r with priority := r.priority + 5, category := "admin" }
  else if includes path "bulk" || includes path "batch" then
    { r with
      priority := r.priority - 5
      category := "bulk"
      isBatchable := true
      size := r.size + 3
      timeout := 15000 }
  else if includes path "analytics" || includes path "report" then
    { r with
      priority := r.priority - 3
      category := "analytics"
      isBatchable := true
      size := r.size + 2
      timeout := 15000 }
  else if includes path "user" || includes path "account" then
    { r with category := "user", priority := if method = "GET" then r.priority + 1 else r.priority }
  else r

/-- The workload type the body asks for. -/
def bodyWorkloadType (bodyRecord : Option Record) : Option String :=
  match bodyRecord.map (Record.field · "workloadType") with
  | some (.str s) => if s = "" then none else some (toLowerCase (trim s))
  | _ => none

/-- The workload type the path suggests. -/
def pathWorkloadType (path : String) : Option String :=
  if includes path "cpu" || includes path "prime" || includes path "fibonacci" ||
      includes path "matrix" then
    some "cpu"
  else if includes path "memory" || includes path "array" || includes path "clone" then some "memory"
  else none

/-- `bodyRecord.functionCode`, where it is a string. -/
def bodyFunctionCode (bodyRecord : Option Record) : Option String :=
  match bodyRecord.map (Record.field · "functionCode") with
  | some (.str s) => some s
  | _ => none

/-- The workload type: the body's, or else the path's, but custom where there is code. -/
def workloadTypeOf (path : String) (bodyRecord : Option Record) : Option String :=
  if (bodyFunctionCode bodyRecord).getD "" ≠ "" then some "custom"
  else match bodyWorkloadType bodyRecord with
    | some s => if s = "" then (pathWorkloadType path) <|> some s else some s
    | none => pathWorkloadType path

/-- `analyze(req)`. -/
def analyze (requestProcessingTimeoutMs : ℕ) (req : Request) : RequestRoutingDecision :=
  let path := toLowerCase (if req.path = "" then req.url else req.path)
  let method := toUpperCase (if req.method = "" then "GET" else req.method)
  let bodyRecord := asObject req.body
  let routing := routePath path method (routeMethod method (hasNoQuery req.query)
    { priority := 0
      category := "default"
      isBatchable := false
      size := 1 + calculateBodySizeWeight req.body req.bodySize
      timeout := requestProcessingTimeoutMs })
  { priority := routing.priority
    category := routing.category
    isBatchable := routing.isBatchable
    size := max 1 routing.size
    bypass := shouldBypass path
    timeout := routing.timeout
    workloadType := workloadTypeOf path bodyRecord
    params := extractParams bodyRecord
    functionCode := bodyFunctionCode bodyRecord }

example : (analyze 10000 { path := "/api/users" }).isBatchable = true := by decide +kernel

example : (analyze 10000 { path := "/assets/app.js" }).bypass = true := by decide +kernel

end QueueRequestAnalyzer

/-- The options with which a request is enqueued. -/
def enqueueOptions (decision : RequestRoutingDecision) (requestId : String) : EnqueueOptions where
  priority := .ofInt decision.priority
  requestId := some (.str requestId)
  category := .str decision.category
  batch := .bool decision.isBatchable
  size := .ofInt decision.size
  timeout := .ofInt decision.timeout
  workloadType := decision.workloadType.elim .undefined .str
  params := decision.params.elim .undefined .obj
  functionCode := decision.functionCode.elim .undefined .str

/-- **The parser keeps a decision's priority and timeout.** -/
theorem normalize_enqueueOptions {p : QueueOptionsParser} {decision : RequestRoutingDecision}
    {requestId : String} {defaultTimeout : ℕ} {n : NormalizedEnqueueOptions}
    (h : (p.normalizeEnqueueOptions (enqueueOptions decision requestId) defaultTimeout).1 = .ok n) :
    n.priority = decision.priority ∧ n.timeout = decision.timeout := by
  have hleading := QueueOptionsParser.normalizeEnqueueOptions_leading h
  obtain ⟨hpriority, -, htimeout⟩ := QueueOptionsParser.parseLeading_ok hleading
  constructor
  · simpa [QueueOptionsParser.parsePriorityOption, enqueueOptions, Number.toInteger?] using
      hpriority.symm
  · simp only [QueueOptionsParser.parsePositiveIntegerOption, enqueueOptions,
      JsValue.isNullish_ofInt, JsValue.toNumber_ofInt, Number.toInteger?, Bool.false_eq_true,
      if_false, Int.cast_natCast, Rat.den_natCast, if_true, Rat.num_natCast] at htimeout
    split at htimeout
    · cases htimeout
    · exact (Except.ok.inj htimeout).symm

end BulkTraffic.Http
