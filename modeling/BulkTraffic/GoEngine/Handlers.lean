import BulkTraffic.GoEngine.Durations
import BulkTraffic.GoEngine.Server
import BulkTraffic.Js.Json
import BulkTraffic.Workload.FindPrimes

/-!
# The handlers of the Go engine

`CPUHandler`, `IOHandler` and `BatchHandler` read the payload of a task as a JSON object and take a
number out of it: the limit of the sieve or the number of hashes, the delay, the number of items. A
number is a `float64` first and converted to `int` then, and no handler looks at the result before
it is the length of a slice, the capacity of one or the bound of a loop. `make` panics if it is
given a negative length or capacity, or one that cannot be allocated.

What the language leaves open or is not part of the engine is `GoRuntime`. A `HandlerContext` says
when a look at the context finds it done.

* `looks`: the looks at the context that the work of a payload takes.
* `selected_completes_iff`: the payloads on which the selected handler ends with its context's error
  or with a result, for every workload type.
-/

namespace BulkTraffic.GoEngine

open BulkTraffic.Js BulkTraffic.Workload

/-! ### Numbers of a payload -/

/-- A number without its fraction. -/
def truncate (q : ℚ) : ℤ := q.num.tdiv q.den

/-- What the handlers find in the Go runtime and its library. -/
structure GoRuntime where
  /-- `int(f)`. -/
  int : ℚ → Int64
  /-- The fraction is dropped, if what is left is an `int`; any other value depends on the
  machine. -/
  int_eq : ∀ q, -2 ^ 63 ≤ truncate q → truncate q < 2 ^ 63 → (int q).toInt = truncate q
  /-- The most bytes that can be allocated at once. -/
  maxAlloc : ℕ
  /-- The two million bytes of the largest sieve can. -/
  maxAlloc_ge : 2000000 ≤ maxAlloc
  /-- `sha256.Sum256(data)`. -/
  sum256 : List UInt8 → Vector UInt8 32
  /-- The JSON value that a text is, or what is wrong with it. -/
  parseJson : List UInt8 → Except String Json

/-- The context of a handler. -/
structure HandlerContext where
  /-- Does the given look at `ctx.Done()` find it closed? -/
  done : ℕ → Bool
  /-- `ctx.Err()`. -/
  err : String

/-- What a handler does. -/
inductive HandlerOutcome where
  /-- It returns the JSON text of a value. -/
  | result (value : Json)
  /-- It returns an error. -/
  | error (message : String)
  /-- It panics. -/
  | panicked (message : String)

/-- A handler, called with the id and the payload of a task. -/
abbrev Handler := GoRuntime → HandlerContext → String → List UInt8 → HandlerOutcome

mutual

/-- Is every number of the value a `float64`? -/
def inRange : Json → Bool
  | .num literal => (numberOfString literal).isFinite
  | .arr items => itemsInRange items
  | .obj members => membersInRange members
  | _ => true

/-- The items of an array. -/
def itemsInRange : List Json → Bool
  | [] => true
  | item :: items => inRange item && itemsInRange items

/-- The members of an object. -/
def membersInRange : List (String × Json) → Bool
  | [] => true
  | (_, value) :: members => inRange value && membersInRange members

end

/-- `json.Unmarshal(text, &payload)` into a `map[string]interface{}`. -/
def unmarshalMap (runtime : GoRuntime) (text : List UInt8) : Except String Record :=
  match runtime.parseJson text with
  | .error message => .error message
  | .ok (.obj members) =>
    if membersInRange members then .ok (Json.parseMembers members)
    else .error "json: cannot unmarshal number into Go value of type float64"
  | .ok .null => .ok []
  | .ok _ => .error "json: cannot unmarshal into Go value of type map[string]interface {}"

/-- `payload[key]`, where it is a `float64`. -/
def floatField (payload : Record) (key : String) : Option ℚ :=
  match payload.field key with
  | .num (.finite f) => some f
  | _ => none

/-- The payload a handler reads: `other` where the text is no object. -/
def payloadOr (runtime : GoRuntime) (text : List UInt8) (other : Record) : Record :=
  match unmarshalMap runtime text with
  | .ok payload => payload
  | .error _ => other

/-- `int(f)` of a field that is a number, or the default. -/
def intField (runtime : GoRuntime) (payload : Record) (key : String) (default : Int64) : Int64 :=
  match floatField payload key with
  | some f => runtime.int f
  | none => default

/-! ### The handlers -/

/-- `fmt.Sprintf("%x", bytes)`. -/
def hexText (bytes : List UInt8) : String :=
  String.join (bytes.map fun b =>
    String.ofList [Nat.digitChar (b.toNat / 16), Nat.digitChar (b.toNat % 16)])

/-- The bytes of a string. -/
def bytesOf (s : String) : List UInt8 := s.toUTF8.toList

/-- An integer as it is marshalled. -/
def jsonInt (n : ℤ) : Json := .num (toString n)

/-- The rounds of the hash loop. The `i`-th one looks at the context for the `i + 1`-th time. -/
def hashLoop (runtime : GoRuntime) (ctx : HandlerContext) : ℕ → ℕ → List UInt8 →
    Except String (List UInt8)
  | 0, _, data => .ok data
  | rounds + 1, i, data =>
    if ctx.done (i + 1) then .error ctx.err
    else hashLoop runtime ctx rounds (i + 1) (runtime.sum256 data).toList

/-- The result of `findPrimes`. -/
def primesJson (found : Go.Result) : Json :=
  .obj [("first10Primes", .arr (found.first10Primes.map fun (p : ℕ) => jsonInt p)),
    ("last10Primes", .arr (found.last10Primes.map fun (p : ℕ) => jsonInt p)),
    ("primeCount", jsonInt found.primeCount), ("task_id", .str found.task_id)]

/-- `CPUHandler(ctx, task)`. -/
def cpuHandler : Handler := fun runtime ctx taskID payload =>
  if ctx.done 0 then .error ctx.err
  else
    -- Bytes that are no UTF-8 are left out of the text, which nothing reads.
    let text := (String.fromUTF8? ⟨payload.toArray⟩).getD ""
    let fields := payloadOr runtime payload [("data", .str text)]
    match floatField fields "max" with
    | some f =>
      match Go.findPrimes (fun i => ctx.done (i + 1)) (runtime.int f).toInt taskID with
      | .ok found => .result (primesJson found)
      | .error .ctx => .error ctx.err
      | .error .panic => .panicked "runtime error: makeslice: len out of range"
    | none =>
      let iterations := intField runtime fields "iterations" 1000
      match hashLoop runtime ctx iterations.toInt.toNat 0 payload with
      | .error message => .error message
      | .ok data => .result (.obj [("hash", .str (hexText data)),
          ("iterations", jsonInt iterations.toInt), ("task_id", .str taskID)])

/-- The wait of `IOHandler`. -/
def ioDelay (runtime : GoRuntime) (payload : List UInt8) : Int64 :=
  milliseconds (intField runtime (payloadOr runtime payload []) "delay_ms" 100)

/-- `IOHandler(ctx, task)`. Either the context is done or the wait is over. -/
def ioHandler : Handler := fun runtime ctx taskID payload =>
  if ctx.done 0 then .error ctx.err
  else .result (.obj
    [("delay_ms", jsonInt (intField runtime (payloadOr runtime payload []) "delay_ms" 100).toInt),
      ("status", .str "completed"), ("task_id", .str taskID)])

/-- `make([]string, 0, cap)`: a string takes 16 bytes. -/
def makeStrings (runtime : GoRuntime) (cap : Int64) : Except String (List String) :=
  if cap.toInt < 0 ∨ (runtime.maxAlloc : ℤ) < 16 * cap.toInt then
    .error "runtime error: makeslice: cap out of range"
  else .ok []

/-- The rounds of the batch loop. -/
def batchLoop (runtime : GoRuntime) (ctx : HandlerContext) (taskID : String) : ℕ → ℕ →
    List String → Except String (List String)
  | 0, _, processedItems => .ok processedItems
  | rounds + 1, i, processedItems =>
    if ctx.done i then .error ctx.err
    else
      let hash := runtime.sum256 (bytesOf s!"{taskID}-item-{i}")
      batchLoop runtime ctx taskID rounds (i + 1)
        (processedItems ++ [hexText (hash.toList.take 8)])

/-- `BatchHandler(ctx, task)`. -/
def batchHandler : Handler := fun runtime ctx taskID payload =>
  let itemCount := intField runtime (payloadOr runtime payload []) "item_count" 10
  match makeStrings runtime itemCount with
  | .error message => .panicked message
  | .ok processedItems =>
    match batchLoop runtime ctx taskID itemCount.toInt.toNat 0 processedItems with
    | .error message => .error message
    | .ok processedItems => .result (.obj [("item_count", jsonInt itemCount.toInt),
        ("processed", jsonInt processedItems.length),
        ("samples", .arr ((processedItems.take 3).map .str)), ("task_id", .str taskID)])

/-- The handlers of the pools that `main` makes. -/
def handlerOf (pool : String) : Handler :=
  if pool = "io" then ioHandler else if pool = "batch" then batchHandler else cpuHandler

/-- The handler of the pool the router selects for a workload type. -/
def selectedHandler (workloadType : String) : Except String Handler :=
  (Server.initial.router.route workloadType).map handlerOf

/-! ### How a handler ends -/

/-- The looks at the context that the handler of a pool takes to do the work of a payload, in
order. -/
def looks (runtime : GoRuntime) (pool : String) (payload : List UInt8) : List ℕ :=
  if pool = "io" then [0]
  else if pool = "batch" then
    List.range' 0
      (intField runtime (payloadOr runtime payload []) "item_count" 10).toInt.toNat
  else
    let text := (String.fromUTF8? ⟨payload.toArray⟩).getD ""
    let fields := payloadOr runtime payload [("data", .str text)]
    match floatField fields "max" with
    | some f => 0 :: (Lib.rounds (min (runtime.int f).toInt.toNat 2000000)).map (· + 1)
    | none => 0 :: List.range' 1 (intField runtime fields "iterations" 1000).toInt.toNat

/-- Whatever its context does, the handler ends with the context's error if one of the looks that
its work takes finds the context done, and with a result otherwise. -/
def Completes (runtime : GoRuntime) (handler : Handler) (looks : List ℕ) (taskID : String)
    (payload : List UInt8) : Prop :=
  ∀ ctx, if looks.any ctx.done then handler runtime ctx taskID payload = .error ctx.err
    else ∃ value, handler runtime ctx taskID payload = .result value

/-- The payload has no negative limit for the sieve of the cpu pool, and the number of items it has
for the batch pool is the capacity of a slice. -/
def Admissible (runtime : GoRuntime) (workloadType : String) (payload : List UInt8) : Prop :=
  if routedPool workloadType = "io" then True
  else if routedPool workloadType = "batch" then
    let itemCount := intField runtime (payloadOr runtime payload []) "item_count" 10
    0 ≤ itemCount.toInt ∧ 16 * itemCount.toInt ≤ runtime.maxAlloc
  else
    ∀ fields f, unmarshalMap runtime payload = .ok fields → floatField fields "max" = some f →
      0 ≤ (runtime.int f).toInt

/-- A handler that panics in a context that is never done does not complete. -/
theorem not_completes_of_panicked {runtime : GoRuntime} {handler : Handler} {looks : List ℕ}
    {taskID message : String} {payload : List UInt8}
    (h : handler runtime { done := fun _ => false, err := "" } taskID payload = .panicked message) :
    ¬ Completes runtime handler looks taskID payload := by
  intro hcompletes
  have hctx := hcompletes { done := fun _ => false, err := "" }
  rw [if_neg (by simp)] at hctx
  obtain ⟨value, hvalue⟩ := hctx
  rw [h] at hvalue
  cases hvalue

/-- The hash loop is over when a look finds the context done, or after its rounds. -/
theorem hashLoop_eq (runtime : GoRuntime) (ctx : HandlerContext) (n i : ℕ) (data : List UInt8) :
    hashLoop runtime ctx n i data =
      if (List.range' (i + 1) n).any ctx.done then .error ctx.err
      else .ok ((fun bytes => (runtime.sum256 bytes).toList)^[n] data) := by
  induction n generalizing i data with
  | zero => rfl
  | succ n ih =>
    rw [hashLoop, List.range'_succ, List.any_cons]
    by_cases hdone : ctx.done (i + 1) = true
    · rw [if_pos hdone, hdone, Bool.true_or, if_pos rfl]
    · rw [if_neg hdone, ih, Bool.eq_false_iff.mpr hdone, Bool.false_or, Function.iterate_succ_apply]

/-- The batch loop is over when a look finds the context done, or after its items. -/
theorem batchLoop_eq (runtime : GoRuntime) (ctx : HandlerContext) (taskID : String) (n i : ℕ)
    (processedItems : List String) :
    batchLoop runtime ctx taskID n i processedItems =
      if (List.range' i n).any ctx.done then .error ctx.err
      else .ok (processedItems ++ (List.range' i n).map fun k =>
        hexText ((runtime.sum256 (bytesOf s!"{taskID}-item-{k}")).toList.take 8)) := by
  induction n generalizing i processedItems with
  | zero => simp [batchLoop]
  | succ n ih =>
    rw [batchLoop, List.range'_succ, List.any_cons]
    by_cases hdone : ctx.done i = true
    · rw [if_pos hdone, hdone, Bool.true_or, if_pos rfl]
    · rw [if_neg hdone, ih, Bool.eq_false_iff.mpr hdone, Bool.false_or, List.map_cons,
        List.append_assoc, List.singleton_append]

/-- `findPrimes` panics if it is given a negative limit. -/
theorem findPrimes_panic (done : ℕ → Bool) {max : ℤ} (hneg : max < 0) (taskID : String) :
    Go.findPrimes done max taskID = .error .panic := by
  have hsieve : Go.newSieve max = .error .panic := by
    rw [Go.newSieve, if_pos hneg]
    rfl
  rw [Go.findPrimes, if_neg (by omega), Go.sieve, hsieve]
  rfl

/-- The look before the work decides alone when it finds the context done. -/
theorem completes_cons_zero {runtime : GoRuntime} {handler : Handler} {looks : List ℕ}
    {taskID : String} {payload : List UInt8}
    (hfirst : ∀ ctx, ctx.done 0 = true → handler runtime ctx taskID payload = .error ctx.err)
    (hrest : ∀ ctx, ctx.done 0 = false →
      if looks.any ctx.done then handler runtime ctx taskID payload = .error ctx.err
      else ∃ value, handler runtime ctx taskID payload = .result value) :
    Completes runtime handler (0 :: looks) taskID payload := by
  intro ctx
  by_cases hdone : ctx.done 0 = true
  · rw [List.any_cons, hdone, Bool.true_or, if_pos rfl]
    exact hfirst ctx hdone
  · have hfalse := Bool.eq_false_iff.mpr hdone
    rw [List.any_cons, hfalse, Bool.false_or]
    exact hrest ctx hfalse

/-- `CPUHandler` completes unless `findPrimes` is given a negative limit. -/
theorem cpuHandler_completes_iff (runtime : GoRuntime) {pool : String} (hio : pool ≠ "io")
    (hbatch : pool ≠ "batch") (taskID : String) (payload : List UInt8) :
    Completes runtime cpuHandler (looks runtime pool payload) taskID payload ↔
      ∀ fields f, unmarshalMap runtime payload = .ok fields →
        floatField fields "max" = some f → 0 ≤ (runtime.int f).toInt := by
  constructor
  · intro h fields f hfields hf
    by_contra hneg
    refine not_completes_of_panicked
      (?_ : _ = HandlerOutcome.panicked "runtime error: makeslice: len out of range") h
    rw [cpuHandler, if_neg (by exact Bool.false_ne_true)]
    simp only [payloadOr, hfields, hf]
    rw [findPrimes_panic _ (Int.not_le.mp hneg)]
  · intro h
    have hdone : ∀ ctx : HandlerContext, ctx.done 0 = true →
        cpuHandler runtime ctx taskID payload = .error ctx.err := by
      intro ctx hdone
      rw [cpuHandler, if_pos hdone]
    rw [looks, if_neg hio, if_neg hbatch]
    dsimp only
    split
    · rename_i f hf
      have hnonneg : 0 ≤ (runtime.int f).toInt := by
        rw [payloadOr] at hf
        split at hf
        · rename_i fields hfields
          exact h fields f hfields hf
        · cases hf
      obtain ⟨n, hn⟩ := Int.eq_ofNat_of_zero_le hnonneg
      refine completes_cons_zero hdone fun ctx hlook => ?_
      simp only [cpuHandler, hlook, Bool.false_eq_true, if_false, hf, hn, Int.toNat_natCast,
        Go.findPrimes_natCast, List.any_map, Function.comp_def]
      split
      · rfl
      · exact ⟨_, rfl⟩
    · rename_i hf
      refine completes_cons_zero hdone fun ctx hlook => ?_
      simp only [cpuHandler, hlook, Bool.false_eq_true, if_false, hf, hashLoop_eq, Nat.zero_add]
      split
      · rfl
      · exact ⟨_, rfl⟩

theorem ioHandler_completes (runtime : GoRuntime) (taskID : String) (payload : List UInt8) :
    Completes runtime ioHandler (looks runtime "io" payload) taskID payload := by
  rw [looks, if_pos rfl]
  refine completes_cons_zero ?_ ?_
  · intro ctx hdone
    rw [ioHandler, if_pos hdone]
  · intro ctx hdone
    rw [List.any_nil, if_neg Bool.false_ne_true, ioHandler, if_neg (Bool.eq_false_iff.mp hdone)]
    exact ⟨_, rfl⟩

/-- `BatchHandler` completes unless the slice it makes is refused. -/
theorem batchHandler_completes_iff (runtime : GoRuntime) (taskID : String) (payload : List UInt8) :
    Completes runtime batchHandler (looks runtime "batch" payload) taskID payload ↔
      0 ≤ (intField runtime (payloadOr runtime payload []) "item_count" 10).toInt ∧
        16 * (intField runtime (payloadOr runtime payload []) "item_count" 10).toInt ≤
          runtime.maxAlloc := by
  constructor
  · intro h
    by_contra hcap
    refine not_completes_of_panicked
      (?_ : _ = HandlerOutcome.panicked "runtime error: makeslice: cap out of range") h
    rw [batchHandler, makeStrings, if_pos (by omega)]
  · intro hcap ctx
    have hlooks : looks runtime "batch" payload = List.range' 0
        (intField runtime (payloadOr runtime payload []) "item_count" 10).toInt.toNat := rfl
    have hmake : makeStrings runtime
        (intField runtime (payloadOr runtime payload []) "item_count" 10) = .ok [] :=
      if_neg (by omega)
    simp only [hlooks, batchHandler, hmake, batchLoop_eq]
    split
    · rfl
    · exact ⟨_, rfl⟩

/-- **The payloads on which every handler ends as it should**: for every workload type, the handler
the router selects ends with its context's error, if one of its looks finds the context done, and
with a result otherwise, in every context, if and only if the numbers it makes slices of are
admissible. -/
theorem selected_completes_iff (runtime : GoRuntime) (workloadType taskID : String)
    (payload : List UInt8) :
    (∃ handler, selectedHandler workloadType = .ok handler ∧
      Completes runtime handler (looks runtime (routedPool workloadType) payload) taskID payload) ↔
      Admissible runtime workloadType payload := by
  have hselected : selectedHandler workloadType = .ok (handlerOf (routedPool workloadType)) := by
    rw [selectedHandler, Server.route_eq rfl]
    rfl
  have hcompletes : (∃ handler, selectedHandler workloadType = .ok handler ∧ Completes runtime
      handler (looks runtime (routedPool workloadType) payload) taskID payload) ↔
      Completes runtime (handlerOf (routedPool workloadType))
        (looks runtime (routedPool workloadType) payload) taskID payload := by
    constructor
    · rintro ⟨handler, hhandler, h⟩
      obtain rfl := Except.ok.inj (hselected.symm.trans hhandler)
      exact h
    · intro h
      exact ⟨_, hselected, h⟩
  rw [hcompletes, Admissible, handlerOf]
  split
  · rename_i hio
    rw [hio]
    exact ⟨fun _ => trivial, fun _ => ioHandler_completes runtime taskID payload⟩
  · rename_i hio
    split
    · rename_i hbatch
      rw [hbatch]
      exact batchHandler_completes_iff runtime taskID payload
    · rename_i hbatch
      exact cpuHandler_completes_iff runtime hio hbatch taskID payload

/-- The text `{"max":-1}` of a cpu task: `findPrimes` makes a slice of length `-1`. -/
theorem panics_on_negative_max :
    let text := bytesOf "\x7b\"max\":-1\x7d"
    let runtime : GoRuntime :=
      { int := fun q => Int64.ofInt (truncate q)
        int_eq := fun _ h h' => Int64.toInt_ofInt_of_le h h'
        maxAlloc := 2 ^ 48
        maxAlloc_ge := by decide
        sum256 := fun _ => Vector.replicate 32 0
        parseJson := fun bytes =>
          if bytes = text then .ok (.obj [("max", .num "-1")]) else .error "invalid character" }
    let ctx : HandlerContext := { done := fun _ => false, err := "" }
    selectedHandler "cpu" = .ok cpuHandler ∧
      cpuHandler runtime ctx "task-1" text =
        .panicked "runtime error: makeslice: len out of range" ∧
      ¬ Completes runtime cpuHandler (looks runtime "cpu" text) "task-1" text := by
  intro text runtime ctx
  have hpanics : cpuHandler runtime ctx "task-1" text =
      .panicked "runtime error: makeslice: len out of range" := by
    have hnumber : numberOfString "-1" = .finite (-1) := by decide +kernel
    have hparse : runtime.parseJson text = .ok (.obj [("max", .num "-1")]) := if_pos rfl
    have hfields : unmarshalMap runtime text = .ok [("max", .num (.finite (-1)))] := by
      rw [unmarshalMap, hparse]
      simp [membersInRange, inRange, hnumber, Number.isFinite, Json.parseMembers, Json.parse]
    have hf : floatField [("max", .num (.finite (-1)))] "max" = some (-1) := rfl
    rw [cpuHandler, if_neg (by exact Bool.false_ne_true)]
    simp only [payloadOr, hfields, hf]
    rw [findPrimes_panic _ (by decide +kernel)]
  exact ⟨rfl, hpanics, not_completes_of_panicked hpanics⟩

end BulkTraffic.GoEngine
