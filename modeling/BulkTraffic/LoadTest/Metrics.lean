import Mathlib.Data.List.Sort
import BulkTraffic.Js.Number

/-!
# Latency summaries

`summarizeLatencies` of the load tests: from the measured latencies the average, three
percentiles and the two ends. Without a sample every one of them is `null`: a latency of `0`
would read as the best result there is.

A percentile stands in the sorted latencies at `sorted.length * ratio`, rounded down, or at their end.
A `Scaling` is how the product is computed: `exactly`, or, as the program does, in `floating` point.

Latencies are differences of clock readings, rounded to hundredths (`elapsedMs`); no clock
reading is `NaN`, so no latency is, and two of them can always be compared (`le_eq_not_lt`).
-/

namespace BulkTraffic.LoadTest

open BulkTraffic.Js

/-- The readings of `performance.now()` before and after a task. -/
structure Timing where
  /-- The reading before. -/
  start : ℚ
  /-- The reading after. -/
  stop : ℚ

/-- `Math.round(x * 100) / 100`. -/
def toHundredths (x : Number) : Number :=
  Number.div (Number.round (Number.mul x (.finite 100))) (.finite 100)

/-- `Math.round((performance.now() - start) * 100) / 100`. -/
def elapsedMs (t : Timing) : Number :=
  toHundredths (Number.sub (.finite t.stop) (.finite t.start))

/-- The latency distribution of one engine; without a sample every value is `null`. -/
structure LatencySummary where
  /-- The average, in hundredths. -/
  avgMs : Option Number
  /-- The median. -/
  p50 : Option Number
  /-- The 95th percentile. -/
  p95 : Option Number
  /-- The 99th percentile. -/
  p99 : Option Number
  /-- The smallest sample. -/
  min : Option Number
  /-- The largest sample. -/
  max : Option Number
  deriving DecidableEq

/-- How `sorted.length * ratio` is computed. -/
abbrev Scaling := ℕ → ℚ → Number

/-- The product of the rationals. -/
def exactly : Scaling := fun n ratio => .finite (n * ratio)

/-- The product of the numbers the program has. -/
def floating : Scaling := fun n ratio => Number.mul (.finite n) (binary64 ratio)

/-- `percentile(sorted, ratio)`: `null` without a sample. -/
def percentileBy (times : Scaling) (sorted : List Number) (ratio : ℚ) : Option Number :=
  if sorted.length = 0 then none
  else
    let index := Number.min (Number.floor (times sorted.length ratio))
      (.finite (sorted.length - 1 : ℕ))
    match index.toInteger? with
    | some z => if 0 ≤ z then sorted[z.toNat]? else none
    | none => none

/-- `(a, b) => a - b` does not put `a` behind `b`. -/
def sortsBefore (a b : Number) : Bool := !(Number.lt (.finite 0) (Number.sub a b))

/-- `summarizeLatencies(samples)`, the products computed as `times` says. -/
def summarizeLatenciesBy (times : Scaling) (samples : List Number) : LatencySummary :=
  let sorted := samples.insertionSort (fun a b => sortsBefore a b = true)
  let hasSample := decide (0 < sorted.length)
  { avgMs :=
      if hasSample then
        some (toHundredths
          (Number.div (sorted.foldl Number.add (.finite 0)) (.finite sorted.length)))
      else none
    p50 := percentileBy times sorted (mkRat 1 2)
    p95 := percentileBy times sorted (mkRat 95 100)
    p99 := percentileBy times sorted (mkRat 99 100)
    min := if hasSample then sorted.head? else none
    max := if hasSample then sorted.getLast? else none }

/-- `summarizeLatencies(samples)`. -/
def summarizeLatencies (samples : List Number) : LatencySummary := summarizeLatenciesBy floating samples

/-- There is an average exactly when there is a sample. -/
theorem summarizeLatencies_avgMs_eq_none (samples : List Number) :
    (summarizeLatencies samples).avgMs = none ↔ samples = [] := by
  simp only [summarizeLatencies, summarizeLatenciesBy, List.length_insertionSort]
  cases samples with
  | nil => simp
  | cons a samples => simp

/-! ### Latencies can be compared -/

theorem binary64_ne_nan (q : ℚ) : binary64 q ≠ .nan := by
  unfold binary64
  dsimp only
  split_ifs <;> exact Number.noConfusion

theorem mul_hundred_ne_nan {x : Number} (hx : x ≠ .nan) : Number.mul x (.finite 100) ≠ .nan := by
  cases x with
  | nan => exact absurd rfl hx
  | infinity s => simp [Number.mul]
  | finite q => exact binary64_ne_nan _

theorem div_hundred_ne_nan {x : Number} (hx : x ≠ .nan) : Number.div x (.finite 100) ≠ .nan := by
  cases x with
  | nan => exact absurd rfl hx
  | infinity s => simp [Number.div]
  | finite q => simpa [Number.div] using binary64_ne_nan _

theorem round_ne_nan {x : Number} (hx : x ≠ .nan) : Number.round x ≠ .nan := by
  cases x with
  | nan => exact absurd rfl hx
  | infinity s => exact Number.noConfusion
  | finite q => exact Number.noConfusion

theorem toHundredths_ne_nan {x : Number} (hx : x ≠ .nan) : toHundredths x ≠ .nan :=
  div_hundred_ne_nan (round_ne_nan (mul_hundred_ne_nan hx))

theorem elapsedMs_ne_nan (t : Timing) : elapsedMs t ≠ .nan :=
  toHundredths_ne_nan (binary64_ne_nan _)

/-- Of two numbers that are not `NaN`, the first is at most the second exactly when the second
is not smaller. -/
theorem le_eq_not_lt {a b : Number} (ha : a ≠ .nan) (hb : b ≠ .nan) :
    Number.le a b = !(Number.lt b a) := by
  cases a with
  | nan => exact absurd rfl ha
  | infinity s =>
    cases b with
    | nan => exact absurd rfl hb
    | infinity t => cases s <;> cases t <;> rfl
    | finite q => cases s <;> rfl
  | finite p =>
    cases b with
    | nan => exact absurd rfl hb
    | infinity t => cases t <;> rfl
    | finite q => simp [Number.le, Number.lt, ← not_lt]

end BulkTraffic.LoadTest
