import BulkTraffic.Js.Rounding
import BulkTraffic.Lib.Arrays
import BulkTraffic.Lib.JsMap
import BulkTraffic.Lib.NearestRank
import BulkTraffic.LoadTest.Metrics
import BulkTraffic.Orders.Events

/-!
# The statistics of the order consumer

What `handleMessage` counts, and `summarizePerformance` over it. The latencies stand in an array
that `stats.latenciesMs` names. `percentileMs` sorts a copy of it in place.

* `percentileIndex_eq`: the position is `⌈n * p / 100⌉ - 1`, although it is computed in floating
  point.
* `percentileMs_spec`: the value there is the percentile by nearest rank.
* `prefix_percentileMs`: no array that is there changes.
* `throughputPerSec_near`: what the roundings of a throughput leave.
-/

namespace BulkTraffic.Orders

open BulkTraffic.Js BulkTraffic.Lib BulkTraffic.LoadTest

/-- `ConsumerStats`. -/
structure ConsumerStats where
  processed : ℕ := 0
  failed : ℕ := 0
  partitionCounts : JsMap ℕ ℕ := .empty
  firstProcessedAt : Option TimeValue := none
  lastProcessedAt : Option TimeValue := none
  /-- The array with the latencies. -/
  latenciesMs : ℕ

/-- `ConsumerPerformance`. -/
structure ConsumerPerformance where
  processed : ℕ
  failed : ℕ
  avgMs : Option Number
  p50Ms : Option Number
  p95Ms : Option Number
  throughputPerSec : Option Number
  deriving DecidableEq

/-! ### Counting -/

/-- The statistics after `process` has returned. -/
def recordSuccess (partition : ℕ) (latencyMs : Number) (now : TimeValue) (stats : ConsumerStats)
    (arrays : Arrays Number) : ConsumerStats × Arrays Number :=
  let stats := if stats.processed = 0 then { stats with firstProcessedAt := some now } else stats
  ({ stats with
      processed := stats.processed + 1
      partitionCounts :=
        stats.partitionCounts.set partition ((stats.partitionCounts.get? partition).getD 0 + 1)
      lastProcessedAt := some now },
    arrays.update stats.latenciesMs fun values => values ++ [latencyMs])

/-- The statistics after `process` has thrown. -/
def recordFailure (stats : ConsumerStats) : ConsumerStats := { stats with failed := stats.failed + 1 }

theorem recordSuccess_eq (partition : ℕ) (latencyMs : Number) (now : TimeValue)
    (stats : ConsumerStats) (arrays : Arrays Number) :
    recordSuccess partition latencyMs now stats arrays =
      ({ stats with
          processed := stats.processed + 1
          partitionCounts :=
            stats.partitionCounts.set partition ((stats.partitionCounts.get? partition).getD 0 + 1)
          firstProcessedAt := if stats.processed = 0 then some now else stats.firstProcessedAt
          lastProcessedAt := some now },
        arrays.update stats.latenciesMs fun values => values ++ [latencyMs]) := by
  rw [recordSuccess]
  split <;> rfl

/-! ### Summaries -/

/-- The index in `percentileMs`. -/
def percentileIndex (length p : ℕ) : Number :=
  Number.min
    (Number.max
      (Number.sub
        (Number.ceil (Number.div (Number.mul (.finite length) (.finite p)) (.finite 100))) (.finite 1))
      (.finite 0))
    (Number.sub (.finite length) (.finite 1))

/-- `values[index]`. -/
def elementAt (values : List Number) (index : Number) : Option Number :=
  match index.toInteger? with
  | some z => if 0 ≤ z then values[z.toNat]? else none
  | none => none

/-- `values.sort((a, b) => a - b)`. -/
def sortNumbers (values : List Number) : List Number :=
  values.insertionSort fun a b => sortsBefore a b = true

/-- `percentileMs(values, p)`. -/
def percentileMs (values p : ℕ) (arrays : Arrays Number) : Option Number × Arrays Number :=
  if (arrays.read values).length = 0 then (none, arrays)
  else
    let (sorted, arrays) := arrays.alloc (arrays.read values)
    let arrays := arrays.update sorted sortNumbers
    (elementAt (arrays.read sorted) (percentileIndex (arrays.read sorted).length p), arrays)

/-- `throughputPerSec`, of the time between the first success and the last. -/
def throughputPerSec (processed : ℕ) (elapsedMs : Number) : Option Number :=
  if Number.lt (.finite 0) elapsedMs then
    some (Number.mul (Number.div (.finite processed) elapsedMs) (.finite 1000))
  else none

/-- `summarizePerformance(stats)`. -/
def summarizePerformance (stats : ConsumerStats) (arrays : Arrays Number) :
    ConsumerPerformance × Arrays Number :=
  let latenciesMs := arrays.read stats.latenciesMs
  let avgMs :=
    if 0 < latenciesMs.length then
      some (Number.div (latenciesMs.foldl Number.add (.finite 0)) (.finite latenciesMs.length))
    else none
  let throughput :=
    if 1 < stats.processed then
      match stats.firstProcessedAt, stats.lastProcessedAt with
      | some first, some last =>
        throughputPerSec stats.processed (Number.sub (.finite last.ms) (.finite first.ms))
      | _, _ => none
    else none
  let (p50Ms, arrays) := percentileMs stats.latenciesMs 50 arrays
  let (p95Ms, arrays) := percentileMs stats.latenciesMs 95 arrays
  ({ processed := stats.processed, failed := stats.failed, avgMs, p50Ms, p95Ms,
      throughputPerSec := throughput },
    arrays)

theorem summarizePerformance_throughputPerSec (stats : ConsumerStats) (arrays : Arrays Number) :
    (summarizePerformance stats arrays).1.throughputPerSec =
      if 1 < stats.processed then
        match stats.firstProcessedAt, stats.lastProcessedAt with
        | some first, some last =>
          throughputPerSec stats.processed (Number.sub (.finite last.ms) (.finite first.ms))
        | _, _ => none
      else none :=
  rfl

/-! ### The position of a percentile -/

/-- Hundredths are rounded, but not past an integer. -/
theorem ceil_binary64_div_hundred {m : ℕ} (hpos : 0 < m) (hlt : m < 2 ^ 40) :
    Number.ceil (binary64 ((m : ℚ) / 100)) = .finite ((m + 99) / 100 : ℕ) := by
  have hm : (1 : ℚ) ≤ m := by exact_mod_cast hpos
  have hm' : (m : ℚ) < 2 ^ 40 := by exact_mod_cast hlt
  have hmoderate : Moderate ((m : ℚ) / 100) := ⟨by linarith, by linarith⟩
  generalize hk : (m + 99) / 100 = k
  have hexact : nearest k = k := by
    rw [nearest_of_nonneg (Nat.cast_nonneg k), roundToPlace_natCast (by omega) (by omega)]
  have hhigh : nearest ((m : ℚ) / 100) ≤ k := by
    rw [← hexact]
    apply nearest_mono
    rw [div_le_iff₀ (by norm_num)]
    exact_mod_cast (by omega : m ≤ k * 100)
  have hlow : (k : ℚ) - 1 < nearest ((m : ℚ) / 100) := by
    have hnear := (abs_le.mp (abs_nearest_sub_le hmoderate)).1
    have hstep : (k : ℚ) * 100 ≤ m + 99 := by exact_mod_cast (by omega : k * 100 ≤ m + 99)
    linarith
  have hceil : (nearest ((m : ℚ) / 100)).ceil = k := by
    apply le_antisymm
    · exact Rat.ceil_le_iff.mpr hhigh
    · rw [← Int.sub_one_lt_iff, Rat.lt_ceil_iff]
      exact_mod_cast hlow
  rw [hmoderate.binary64_eq, Number.ceil, hceil]
  rfl

/-- The position is the exact one, for as many samples as an array holds. -/
theorem percentileIndex_eq {n p : ℕ} (hn : 0 < n) (hlt : n < 2 ^ 32) (hp : 0 < p) (hle : p ≤ 100) :
    percentileIndex n p = .finite ((n * p + 99) / 100 - 1 : ℕ) := by
  have hpos : 0 < n * p := Nat.mul_pos hn hp
  have hprod : n * p ≤ n * 100 := Nat.mul_le_mul_left n hle
  have hmul : Number.mul (.finite n) (.finite p) = .finite (n * p : ℕ) := by
    rw [Number.mul, ← Nat.cast_mul, binary64_natCast (by omega)]
  have hdiv : Number.div (.finite (n * p : ℕ)) (.finite 100) = binary64 (((n * p : ℕ) : ℚ) / 100) :=
    rfl
  have hone : ∀ k : ℕ, 0 < k → k < 2 ^ 53 →
      Number.sub (.finite k) (.finite 1) = .finite (k - 1 : ℕ) := by
    intro k hk hlt
    have hsub := Number.sub_natCast hlt hk
    rwa [Nat.cast_one] at hsub
  rw [percentileIndex, hmul, hdiv, ceil_binary64_div_hundred hpos (by omega),
    hone _ (by omega) (by omega), hone n hn (by omega)]
  have hmax : Number.max (.finite ((n * p + 99) / 100 - 1 : ℕ)) (.finite 0) =
      .finite ((n * p + 99) / 100 - 1 : ℕ) := by
    rw [Number.max]
    split
    · rename_i h
      rw [le_antisymm h (Nat.cast_nonneg _)]
    · rfl
  have hmin : (((n * p + 99) / 100 - 1 : ℕ) : ℚ) ≤ (n - 1 : ℕ) := by
    exact_mod_cast (by omega : (n * p + 99) / 100 - 1 ≤ n - 1)
  rw [hmax, Number.min, if_pos hmin]

/-! ### Percentiles -/

theorem elementAt_natCast (values : List Number) (k : ℕ) : elementAt values (.finite k) = values[k]? := by
  have hindex : (Number.finite k).toInteger? = some (k : ℤ) := by
    rw [Number.toInteger?, if_pos (Rat.den_natCast k), Rat.num_natCast]
  rw [elementAt, hindex]
  exact if_pos (Int.natCast_nonneg k)

/-- The comparator compares. -/
theorem sortNumbers_nearest (qs : List ℚ) :
    sortNumbers (qs.map fun q => .finite (nearest q)) =
      ((qs.map nearest).insertionSort (· ≤ ·)).map Number.finite := by
  have hcompare : ∀ a ∈ qs.map nearest, ∀ b ∈ qs.map nearest,
      a ≤ b ↔ sortsBefore (.finite a) (.finite b) = true := by
    intro a ha b hb
    obtain ⟨p, -, rfl⟩ := List.mem_map.mp ha
    obtain ⟨q, -, rfl⟩ := List.mem_map.mp hb
    rw [sortsBefore, Number.lt_sub_nearest, Bool.not_eq_true', decide_eq_false_iff_not, not_lt]
  rw [List.map_insertionSort (· ≤ ·) (fun a b => sortsBefore a b = true) Number.finite _ hcompare,
    List.map_map]
  rfl

theorem percentileMs_of_ne_nil {arrays : Arrays Number} {values : ℕ} (p : ℕ) (h : arrays.read values ≠ []) :
    percentileMs values p arrays =
      (elementAt (sortNumbers (arrays.read values))
          (percentileIndex (sortNumbers (arrays.read values)).length p),
        arrays ++ [sortNumbers (arrays.read values)]) := by
  rw [percentileMs, if_neg (mt List.length_eq_zero_iff.mp h)]
  simp only [Arrays.alloc, Arrays.update_append, Arrays.read_append]

/-- `percentileMs` makes an array of its own, and changes no other. -/
theorem prefix_percentileMs (values p : ℕ) (arrays : Arrays Number) :
    arrays <+: (percentileMs values p arrays).2 := by
  by_cases h : arrays.read values = []
  · rw [percentileMs, if_pos (List.length_eq_zero_iff.mpr h)]
  · rw [percentileMs_of_ne_nil p h]
    exact List.prefix_append arrays _

/-- **`percentileMs` is the percentile by nearest rank** of the samples, each of which is a rounded
number. -/
theorem percentileMs_spec {arrays : Arrays Number} {values p : ℕ} {l : List ℚ}
    (hread : arrays.read values = l.map fun q => .finite (nearest q)) (hlt : l.length < 2 ^ 32)
    (hp : 0 < p) (hle : p ≤ 100) (hne : l ≠ []) :
    ∃ q, (percentileMs values p arrays).1 = some (.finite q) ∧ IsNearestRank p (l.map nearest) q := by
  have hn : 0 < l.length := List.length_pos_iff.mpr hne
  have hsome : arrays.read values ≠ [] := by
    rw [hread]
    exact mt List.map_eq_nil_iff.mp hne
  have hlength : (sortNumbers (arrays.read values)).length = l.length := by
    rw [hread, sortNumbers, List.length_insertionSort, List.length_map]
  have hprod : l.length * p ≤ l.length * 100 := Nat.mul_le_mul_left _ hle
  have hpos : 0 < l.length * p := Nat.mul_pos hn hp
  obtain ⟨q, hq, hrank⟩ := isNearestRank_insertionSort (p := p) (l := l.map nearest)
    (k := (l.length * p + 99) / 100 - 1)
    (by rw [List.length_map]; omega)
    (by rw [List.length_map, Nat.mul_comm]; omega)
    (by rw [List.length_map, Nat.mul_comm p]; omega)
  refine ⟨q, ?_, hrank⟩
  rw [percentileMs_of_ne_nil p hsome, hlength, percentileIndex_eq hn hlt hp hle, elementAt_natCast,
    hread, sortNumbers_nearest, List.getElem?_map, hq]
  rfl

example : (percentileMs 0 95 [[50, 10, 90, 20, 30].map Number.finite]).1 = some (.finite 90) := by
  decide +kernel

theorem percentileMs_eq_none {arrays : Arrays Number} {values p : ℕ} (h : arrays.read values = []) :
    (percentileMs values p arrays).1 = none := by
  rw [percentileMs, if_pos (List.length_eq_zero_iff.mpr h)]

/-! ### Throughput -/

/-- The roundings of `(processed / elapsedMs) * 1000`, where the difference of the times may have
been rounded as well. -/
theorem throughputPerSec_near {n : ℕ} {elapsed s : ℚ} (hn : 0 < n) (hn' : n < 2 ^ 53)
    (helapsed : 1 ≤ elapsed) (helapsed' : elapsed ≤ 2 ^ 60) (hs : |s - elapsed| ≤ elapsed / 2 ^ 51) :
    ∃ x, throughputPerSec n (.finite s) = some (.finite x) ∧ Near x (n * 1000 / elapsed) := by
  have hone : (1 : ℚ) ≤ n := by exact_mod_cast hn
  have hmany : (n : ℚ) < 2 ^ 53 := by exact_mod_cast hn'
  have hscale : (n : ℚ) * 1000 / elapsed = n / elapsed * 1000 := by ring
  obtain ⟨hpos, hdivision⟩ := abs_div_sub_div_le (a := n) (by linarith) (by linarith) hs
  obtain ⟨hlow, hhigh⟩ := div_bounds hone (by linarith) (by linarith) (by linarith : elapsed ≤ 2 ^ 64)
  rw [abs_le] at hdivision
  have hfirst : Moderate (n / s) := ⟨by linarith, by linarith⟩
  have hquotient := abs_le.mp (abs_nearest_sub_le hfirst)
  have hsecond : Moderate (nearest (n / s) * 1000) := ⟨by linarith, by linarith⟩
  have hproduct := abs_le.mp (abs_nearest_sub_le hsecond)
  refine ⟨nearest (nearest (n / s) * 1000), ?_, ?_⟩
  · rw [throughputPerSec, Number.lt, if_pos (decide_eq_true hpos), Number.div, if_neg hpos.ne',
      hfirst.binary64_eq, Number.mul, hsecond.binary64_eq]
  · rw [Near, hscale, abs_le]
    constructor <;> linarith

end BulkTraffic.Orders
