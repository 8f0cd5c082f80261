import BulkTraffic.Lib.JsMap
import BulkTraffic.Orders.OrderService

/-!
# Bulk orders

`POST /orders/bulk` and `POST /orders/lifecycle`: the controller clamps the count, and
`repeatCollecting` makes that many attempts and reports what came of them.

What an attempt does is a parameter: it may change the state of the service, and it gives a
result or the text of an error. The waits between two attempts have no effect on the result and
are left out.

`failed` is not counted. It is what is left of the count, and the count need not be an integer:
a count between two integers gets one attempt more than fits (`postBulk_addsUp_iff`).
-/

namespace BulkTraffic.Orders

open BulkTraffic.Lib BulkTraffic.Js

variable {σ α : Type}

/-! ### The loop -/

/-- `MAX_REPORTED_ERRORS`. -/
def maxReportedErrors : ℕ := 5

/-- Where the loop of `repeatCollecting` is. -/
structure Repeating (σ α : Type) where
  /-- What the attempts change. -/
  state : σ
  /-- What the attempts gave. No variable of the source. -/
  outcomes : List (Except String α) := []
  results : List α := []
  errors : List String := []

/-- One attempt: `work(i)` in its `try`. -/
def Repeating.attempt (work : ℕ → σ → σ × Except String α) (i : ℕ) (r : Repeating σ α) :
    Repeating σ α :=
  match work i r.state with
  | (s, .ok result) =>
    { r with state := s, outcomes := r.outcomes ++ [.ok result], results := r.results ++ [result] }
  | (s, .error message) =>
    { r with
      state := s
      outcomes := r.outcomes ++ [.error message]
      errors := if r.errors.length < maxReportedErrors then r.errors ++ [message] else r.errors }

/-- `for (let i = 0; i < count; i++)`, from `i` on. The fuel is for a count that is `Infinity`. -/
def repeatLoop (count : Number) (work : ℕ → σ → σ × Except String α) :
    ℕ → ℕ → Repeating σ α → Repeating σ α
  | 0, _, r => r
  | fuel + 1, i, r =>
    if Number.lt (.finite i) count then repeatLoop count work fuel (i + 1) (r.attempt work i) else r

/-- `RepeatOutcome`. -/
structure RepeatOutcome (α : Type) where
  results : List α
  failed : Number
  elapsedMs : Number
  errors : List String

/-- The readings of `Date.now()` around a loop. -/
structure LoopClock where
  startedAt : TimeValue
  finishedAt : TimeValue

/-- `Date.now() - startedAt`. -/
def LoopClock.elapsedMs (clock : LoopClock) : Number :=
  Number.sub (.finite clock.finishedAt.ms) (.finite clock.startedAt.ms)

/-- The return value of `repeatCollecting`, where the loop ended as `r`. -/
def repeatOutcome (count : Number) (clock : LoopClock) (r : Repeating σ α) : RepeatOutcome α where
  results := r.results
  failed := count.sub (.finite r.results.length)
  elapsedMs := clock.elapsedMs
  errors := r.errors

/-! ### The service -/

/-- `BulkOrderResult`. -/
structure BulkOrderResult where
  requested : Number
  created : ℕ
  failed : Number
  elapsedMs : Number
  partitionCounts : JsMap ℕ ℕ
  errors : List String

/-- The loop over `outcome.results`: how many went to each partition. -/
def countPartitions (results : List DispatchResult) : JsMap ℕ ℕ :=
  results.foldl (fun counts dispatch =>
    match dispatch.partition with
    | none => counts
    | some partition => counts.set partition ((counts.get? partition).getD 0 + 1)) .empty

/-- `ScatterSummary`. -/
structure ScatterSummary where
  singlePartition : ℕ
  multiPartition : ℕ
  avgPartitionsPerOrder : Option Number
  deriving DecidableEq

/-- The partitions of the steps, each once. -/
def LifecycleResult.partitions (lifecycle : LifecycleResult) : List ℕ :=
  (lifecycle.steps.filterMap LifecycleStep.partition).dedup

/-- `summarizeScatter(lifecycles)`. -/
def summarizeScatter (lifecycles : List LifecycleResult) : ScatterSummary :=
  let sizes := (lifecycles.map fun lifecycle => lifecycle.partitions.length).filter (0 < ·)
  { singlePartition := (sizes.filter (· = 1)).length
    multiPartition := (sizes.filter (· ≠ 1)).length
    avgPartitionsPerOrder :=
      if 0 < sizes.length then some (Number.div (.finite sizes.sum) (.finite sizes.length)) else none }

/-- `LifecycleBulkResult`. -/
structure LifecycleBulkResult where
  requested : Number
  completed : ℕ
  failed : Number
  elapsedMs : Number
  orderIds : List String
  errors : List String
  scatter : ScatterSummary
  samples : List LifecycleResult

section Service

variable (createOrder : ℕ → σ → σ × Except String CreateOrderResult)
  (dispatchLifecycle : ℕ → String → σ → σ × Except String LifecycleResult)

/-- An attempt of `createBulk`. -/
def bulkWork (i : ℕ) (s : σ) : σ × Except String DispatchResult :=
  let (s, created) := createOrder i s
  (s, created.map CreateOrderResult.dispatch)

/-- An attempt of `createWithLifecycle`. -/
def lifecycleWork (i : ℕ) (s : σ) : σ × Except String LifecycleResult :=
  match createOrder i s with
  | (s, .error message) => (s, .error message)
  | (s, .ok created) => dispatchLifecycle i created.order.orderId s

/-- `createBulk(count)`, with the end of its loop. -/
def createBulk (fuel : ℕ) (count : Number) (clock : LoopClock) (s : σ) :
    Repeating σ DispatchResult × BulkOrderResult :=
  let r := repeatLoop count (bulkWork createOrder) fuel 0 { state := s }
  let outcome := repeatOutcome count clock r
  (r,
    { requested := count
      created := outcome.results.length
      failed := outcome.failed
      elapsedMs := outcome.elapsedMs
      partitionCounts := countPartitions outcome.results
      errors := outcome.errors })

/-- `createWithLifecycle(count)`, with the end of its loop. -/
def createWithLifecycle (fuel : ℕ) (count : Number) (clock : LoopClock) (s : σ) :
    Repeating σ LifecycleResult × LifecycleBulkResult :=
  let r := repeatLoop count (lifecycleWork createOrder dispatchLifecycle) fuel 0 { state := s }
  let outcome := repeatOutcome count clock r
  (r,
    { requested := count
      completed := outcome.results.length
      failed := outcome.failed
      elapsedMs := outcome.elapsedMs
      orderIds := outcome.results.map LifecycleResult.orderId
      errors := outcome.errors
      scatter := summarizeScatter outcome.results
      samples := outcome.results.take 3 })

/-! ### The controller -/

/-- `MAX_BULK_COUNT`. -/
def maxBulkCount : ℕ := 10000

/-- `MAX_LIFECYCLE_COUNT`. -/
def maxLifecycleCount : ℕ := 500

/-- `Math.min(Math.max(count ?? fallback, 1), limit)`. -/
def clampCount (fallback limit : ℕ) (count : Option Number) : Number :=
  Number.min (Number.max (count.getD (.finite fallback)) (.finite 1)) (.finite limit)

/-- `POST /orders/bulk`. -/
def postBulk (count : Option Number) (clock : LoopClock) (s : σ) :
    Repeating σ DispatchResult × BulkOrderResult :=
  createBulk createOrder maxBulkCount (clampCount 100 maxBulkCount count) clock s

/-- `POST /orders/lifecycle`. -/
def postLifecycle (count : Option Number) (clock : LoopClock) (s : σ) :
    Repeating σ LifecycleResult × LifecycleBulkResult :=
  createWithLifecycle createOrder dispatchLifecycle maxLifecycleCount
    (clampCount 10 maxLifecycleCount count) clock s

end Service

/-! ### What a loop has collected -/

/-- The results of the attempts that succeeded. -/
def successes (outcomes : List (Except String α)) : List α := outcomes.filterMap Except.toOption

/-- The messages of the attempts that threw. -/
def failures (outcomes : List (Except String α)) : List String :=
  outcomes.filterMap fun
    | .ok _ => none
    | .error message => some message

theorem length_successes_add_failures (outcomes : List (Except String α)) :
    (successes outcomes).length + (failures outcomes).length = outcomes.length := by
  induction outcomes with
  | nil => rfl
  | cons outcome outcomes ih =>
    simp only [successes, failures] at ih ⊢
    cases outcome with
    | ok a =>
      simp only [List.filterMap_cons, Except.toOption, List.length_cons]
      omega
    | error message =>
      simp only [List.filterMap_cons, Except.toOption, List.length_cons]
      omega

namespace Repeating

/-- The lists hold what the attempts gave. -/
structure Collected (r : Repeating σ α) : Prop where
  results : r.results = successes r.outcomes
  errors : r.errors = (failures r.outcomes).take maxReportedErrors

variable {work : ℕ → σ → σ × Except String α} {count : Number} {i : ℕ} {r : Repeating σ α}

/-- A list is pushed to until it has `n` elements. -/
theorem take_concat (n : ℕ) (l : List String) (a : String) :
    (l ++ [a]).take n = if (l.take n).length < n then l.take n ++ [a] else l.take n := by
  rw [List.take_append, List.length_take]
  split
  · rename_i h
    rw [List.take_of_length_le (l := [a]) (by simp; omega)]
  · rename_i h
    rw [(by omega : n - l.length = 0), List.take_zero, List.append_nil]

/-- An attempt adds one outcome. -/
theorem attempt_outcomes (work : ℕ → σ → σ × Except String α) (i : ℕ) (r : Repeating σ α) :
    (r.attempt work i).outcomes = r.outcomes ++ [(work i r.state).2] := by
  rw [attempt]
  rcases work i r.state with ⟨s, message | result⟩ <;> rfl

theorem Collected.attempt (h : r.Collected) : (r.attempt work i).Collected := by
  rw [Repeating.attempt]
  rcases work i r.state with ⟨s, message | result⟩
  · constructor
    · simp [h.results, successes, Except.toOption]
    · have hfailures : failures (r.outcomes ++ [.error message]) = failures r.outcomes ++ [message] := by
        simp [failures]
      simp only [hfailures, take_concat, h.errors]
  · constructor
    · simp [h.results, successes, Except.toOption]
    · simp [h.errors, failures]

theorem Collected.repeatLoop {fuel : ℕ} (h : r.Collected) :
    (repeatLoop count work fuel i r).Collected := by
  induction fuel generalizing i r with
  | zero => exact h
  | succ fuel ih =>
    rw [Orders.repeatLoop]
    split
    · exact ih h.attempt
    · exact h

/-- With fuel up to the count, the loop ends at the first index that is not below it. -/
theorem repeatLoop_length {fuel : ℕ} (hfuel : Number.lt (.finite (i + fuel : ℕ)) count = false)
    (hr : r.outcomes.length = i) :
    let n := (Orders.repeatLoop count work fuel i r).outcomes.length
    i ≤ n ∧ (∀ j, i ≤ j → j < n → Number.lt (.finite j) count = true) ∧
      Number.lt (.finite n) count = false := by
  induction fuel generalizing i r with
  | zero => exact ⟨hr.ge, fun j hle hlt => absurd hlt (by rw [Orders.repeatLoop]; omega), hr ▸ hfuel⟩
  | succ fuel ih =>
    rw [Orders.repeatLoop]
    split
    · rename_i hlt
      have hnext : (r.attempt work i).outcomes.length = i + 1 := by
        rw [attempt_outcomes, List.length_append, hr]
        rfl
      obtain ⟨hle, hbelow, hend⟩ := ih (by rwa [Nat.add_assoc, Nat.add_comm 1]) hnext
      refine ⟨by omega, fun j hj hjn => ?_, hend⟩
      rcases Nat.eq_or_lt_of_le hj with rfl | hj
      · exact hlt
      · exact hbelow j hj hjn
    · rename_i hge
      exact ⟨hr.ge, fun j hle hlt => absurd hlt (by omega), hr ▸ Bool.eq_false_of_not_eq_true hge⟩

end Repeating

/-! ### Which counts are whole -/

/-- The counts that are integers once they are clamped. -/
def WholeCount (limit : ℕ) : Option Number → Prop
  | none => True
  | some (.finite q) => q < 1 ∨ (limit : ℚ) < q ∨ q.den = 1
  | some (.infinity _) => True
  | some .nan => False

theorem clampCount_finite (fallback limit : ℕ) (q : ℚ) :
    clampCount fallback limit (some (.finite q)) =
      .finite (if (if q ≤ 1 then 1 else q) ≤ limit then (if q ≤ 1 then 1 else q) else limit) := rfl

/-- The clamped count is at most the limit. -/
theorem not_lt_clampCount (fallback limit : ℕ) (count : Option Number) :
    Number.lt (.finite limit) (clampCount fallback limit count) = false := by
  have hfinite : ∀ q : ℚ, Number.lt (.finite limit) (.finite (if q ≤ limit then q else limit)) = false := by
    intro q
    simp only [Number.lt, decide_eq_false_iff_not, not_lt]
    split
    · assumption
    · exact le_refl _
  rcases count with _ | _ | s | q
  · exact hfinite _
  · rfl
  · cases s with
    | true => exact hfinite 1
    | false => exact decide_eq_false (lt_irrefl _)
  · exact hfinite _

/-- Between `1` and the limit a count is passed on as it is. -/
theorem clampCount_eq_natCast_iff (fallback : ℕ) {limit : ℕ} (count : Option Number) (hlimit : 1 ≤ limit) :
    (∃ n : ℕ, clampCount fallback limit count = .finite n) ↔ WholeCount limit count := by
  have hnat : ∀ n : ℕ, ∃ m : ℕ, clampCount fallback limit (some (.finite n)) = .finite m := by
    intro n
    rw [clampCount_finite]
    split_ifs
    · exact ⟨1, by rw [Nat.cast_one]⟩
    · exact ⟨limit, rfl⟩
    · exact ⟨n, rfl⟩
    · exact ⟨limit, rfl⟩
  rcases count with _ | _ | s | q
  · exact iff_of_true (hnat fallback) trivial
  · exact iff_of_false (fun ⟨n, hn⟩ => Number.noConfusion hn) id
  · cases s with
    | true =>
      obtain ⟨n, hn⟩ := hnat 1
      refine iff_of_true ⟨n, ?_⟩ trivial
      rw [← hn, Nat.cast_one]
      rfl
    | false => exact iff_of_true ⟨limit, rfl⟩ trivial
  · rw [WholeCount, clampCount_finite]
    by_cases hlow : q ≤ 1
    · have hone : (1 : ℚ) ≤ limit := by exact_mod_cast hlimit
      rw [if_pos hlow, if_pos hone]
      refine iff_of_true ⟨1, by rw [Nat.cast_one]⟩ ?_
      rcases lt_or_eq_of_le hlow with hlt | rfl
      · exact .inl hlt
      · exact .inr (.inr rfl)
    · by_cases hhigh : q ≤ limit
      · rw [if_neg hlow, if_pos hhigh]
        constructor
        · rintro ⟨n, hn⟩
          rw [Number.finite.inj hn]
          exact .inr (.inr (Rat.den_natCast n))
        · rintro (hlt | hlt | hden)
          · exact absurd hlt.le hlow
          · exact absurd hlt (not_lt.mpr hhigh)
          · have hnum : 0 ≤ q.num := Rat.num_nonneg.mpr (zero_le_one.trans (not_le.mp hlow).le)
            have hq : q = (q.num.toNat : ℕ) := by
              rw [← Int.cast_natCast, Int.toNat_of_nonneg hnum, Rat.coe_int_num_of_den_eq_one hden]
            exact ⟨q.num.toNat, congrArg Number.finite hq⟩
      · rw [if_neg hlow, if_neg hhigh]
        exact iff_of_true ⟨limit, rfl⟩ (.inr (.inl (not_le.mp hhigh)))

/-! ### What the reports say -/

/-- The report agrees with what the attempts gave. -/
structure AddsUp (outcomes : List (Except String α)) (requested : Number) (created : ℕ)
    (failed : Number) (errors : List String) : Prop where
  attempts : requested = .finite outcomes.length
  successes_eq : created = (successes outcomes).length
  failures_eq : failed = .finite (failures outcomes).length
  total : Number.add (.finite created) failed = requested
  errors_eq : errors = (failures outcomes).take maxReportedErrors

/-- A loop that is allowed `limit` attempts adds up exactly for the counts that are naturals. -/
theorem addsUp_repeatLoop_iff {limit : ℕ} {count : Number} (work : ℕ → σ → σ × Except String α)
    (clock : LoopClock) (s : σ) (hlimit : limit < 2 ^ 53)
    (hle : Number.lt (.finite limit) count = false) :
    (let r := repeatLoop count work limit 0 { state := s }
      let outcome := repeatOutcome count clock r
      AddsUp r.outcomes count outcome.results.length outcome.failed outcome.errors) ↔
      ∃ n : ℕ, count = .finite n := by
  have hcollected : (repeatLoop count work limit 0 { state := s }).Collected :=
    Repeating.Collected.repeatLoop ⟨rfl, rfl⟩
  obtain ⟨-, hbelow, hend⟩ := @Repeating.repeatLoop_length σ α work count 0 { state := s } limit
    (by rwa [Nat.zero_add]) rfl
  generalize repeatLoop count work limit 0 { state := s } = r at hcollected hbelow hend
  constructor
  · exact fun h => ⟨_, h.attempts⟩
  · rintro ⟨n, rfl⟩
    have hattempts : n = r.outcomes.length := by
      have hge : ¬ r.outcomes.length < n := by simpa [Number.lt] using hend
      by_contra hne
      have hlt : n < n := by simpa [Number.lt] using hbelow n (Nat.zero_le n) (by omega)
      exact lt_irrefl n hlt
    have hsum := length_successes_add_failures r.outcomes
    have hnlimit : n ≤ limit := by simpa [Number.lt] using hle
    have hcreated : (repeatOutcome (.finite n) clock r).results = successes r.outcomes := hcollected.results
    have hfailed : (repeatOutcome (.finite n) clock r).failed = .finite (failures r.outcomes).length := by
      rw [repeatOutcome, hcollected.results, Number.sub_natCast (by omega) (by omega), hattempts, ← hsum,
        Nat.add_sub_cancel_left]
    refine ⟨by rw [← hattempts], by rw [hcreated], hfailed, ?_, hcollected.errors⟩
    rw [hfailed, hcreated, Number.add_natCast (by omega), hsum, ← hattempts]

/-- The successes whose partition is known. -/
def knownPartitions (outcomes : List (Except String DispatchResult)) : List ℕ :=
  (successes outcomes).filterMap DispatchResult.partition

/-- Each result with a known partition is counted once. -/
theorem sum_countPartitions (results : List DispatchResult) :
    (countPartitions results).values.sum = (results.filterMap DispatchResult.partition).length := by
  have hfold : ∀ counts : JsMap ℕ ℕ,
      (results.foldl (fun counts dispatch =>
        match dispatch.partition with
        | none => counts
        | some partition => counts.set partition ((counts.get? partition).getD 0 + 1)) counts).values.sum =
        counts.values.sum + (results.filterMap DispatchResult.partition).length := by
    induction results with
    | nil => exact fun counts => rfl
    | cons dispatch results ih =>
      intro counts
      rw [List.foldl_cons, ih]
      cases hpartition : dispatch.partition with
      | none => rw [List.filterMap_cons_none hpartition]
      | some partition =>
        rw [List.filterMap_cons_some hpartition, List.length_cons]
        have hset := counts.sum_values_set_succ partition
        dsimp only
        omega
  have hsum := hfold .empty
  rwa [show (JsMap.empty : JsMap ℕ ℕ).values.sum = 0 from rfl, Nat.zero_add] at hsum

/-- What the answer of `POST /orders/bulk` should be, after the loop `r`. -/
def BulkAddsUp (r : Repeating σ DispatchResult) (result : BulkOrderResult) : Prop :=
  AddsUp r.outcomes result.requested result.created result.failed result.errors ∧
    result.partitionCounts.values.sum = (knownPartitions r.outcomes).length

/-- What the answer of `POST /orders/lifecycle` should be, after the loop `r`. -/
def LifecycleAddsUp (r : Repeating σ LifecycleResult) (result : LifecycleBulkResult) : Prop :=
  AddsUp r.outcomes result.requested result.completed result.failed result.errors

section Service

variable (createOrder : ℕ → σ → σ × Except String CreateOrderResult)
  (dispatchLifecycle : ℕ → String → σ → σ × Except String LifecycleResult)
  (count : Option Number) (clock : LoopClock) (s : σ)

theorem postBulk_addsUp_iff :
    BulkAddsUp (postBulk createOrder count clock s).1 (postBulk createOrder count clock s).2 ↔
      WholeCount maxBulkCount count := by
  rw [← clampCount_eq_natCast_iff 100 count (by decide),
    ← addsUp_repeatLoop_iff (bulkWork createOrder) clock s (by decide) (not_lt_clampCount 100 _ count)]
  apply and_iff_left
  have hcollected : (postBulk createOrder count clock s).1.Collected :=
    Repeating.Collected.repeatLoop ⟨rfl, rfl⟩
  rw [knownPartitions, ← hcollected.results, ← sum_countPartitions]
  rfl

theorem postLifecycle_addsUp_iff :
    LifecycleAddsUp (postLifecycle createOrder dispatchLifecycle count clock s).1
        (postLifecycle createOrder dispatchLifecycle count clock s).2 ↔
      WholeCount maxLifecycleCount count := by
  rw [← clampCount_eq_natCast_iff 10 count (by decide),
    ← addsUp_repeatLoop_iff (lifecycleWork createOrder dispatchLifecycle) clock s (by decide)
      (not_lt_clampCount 10 _ count)]
  rfl

/-- **Both endpoints add up exactly for whole counts**, whatever the attempts do. -/
theorem bulkRuns_addUp_iff :
    (BulkAddsUp (postBulk createOrder count clock s).1 (postBulk createOrder count clock s).2 ↔
      WholeCount maxBulkCount count) ∧
    (LifecycleAddsUp (postLifecycle createOrder dispatchLifecycle count clock s).1
        (postLifecycle createOrder dispatchLifecycle count clock s).2 ↔
      WholeCount maxLifecycleCount count) :=
  ⟨postBulk_addsUp_iff createOrder count clock s,
    postLifecycle_addsUp_iff createOrder dispatchLifecycle count clock s⟩

end Service

/-- An attempt that succeeds: the order is on partition `0`. -/
def orderCreated (_ : ℕ) (s : Unit) : Unit × Except String CreateOrderResult :=
  (s, .ok
    { order :=
        { orderId := "ord-1"
          userId := .ofString "user-1"
          amount := .finite 10000
          items := [defaultItem]
          status := .created
          createdAt := .epoch
          updatedAt := .epoch }
      dispatch :=
        { destination := "orders.created"
          partition := some 0
          offset := some "0"
          key := some "ord-1" } })

/-- For a count of `2.5` three orders are created, and `-0.5` orders have failed. -/
theorem not_bulkAddsUp_of_fraction :
    (postBulk orderCreated (some (.finite (mkRat 5 2))) ⟨.epoch, .epoch⟩ ()).2.created = 3 ∧
    (postBulk orderCreated (some (.finite (mkRat 5 2))) ⟨.epoch, .epoch⟩ ()).2.failed = .finite (mkRat (-1) 2) ∧
    ¬ BulkAddsUp (postBulk orderCreated (some (.finite (mkRat 5 2))) ⟨.epoch, .epoch⟩ ()).1
      (postBulk orderCreated (some (.finite (mkRat 5 2))) ⟨.epoch, .epoch⟩ ()).2 := by
  have hfailed : (postBulk orderCreated (some (.finite (mkRat 5 2))) ⟨.epoch, .epoch⟩ ()).2.failed =
      .finite (mkRat (-1) 2) := by decide +kernel
  refine ⟨by decide +kernel, hfailed, fun h => ?_⟩
  have hnat := Number.finite.inj (hfailed.symm.trans h.1.failures_eq)
  have hneg : mkRat (-1) 2 < 0 := by decide +kernel
  rw [hnat] at hneg
  exact absurd hneg (not_lt.mpr (Nat.cast_nonneg _))

end BulkTraffic.Orders
