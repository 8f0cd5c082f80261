import BulkTraffic.Js.Comparable
import BulkTraffic.Lib.NearestRank
import BulkTraffic.LoadTest.Metrics

/-!
# The metrics of a load test

`computeMetrics` over the results of a load test: how many tasks succeeded, and how the latencies of
these are distributed.

* `IsRatio.percentileBy_exactly`, `IsRatio.percentileBy_floating`: where the percentiles stand, and
  that of as many latencies as an array holds floating point makes no difference.
* `computeMetricsBy_perm`: the order of the results does not matter.
* `coherent`: what the metrics say of the results.
-/

namespace BulkTraffic.LoadTest

open BulkTraffic.Js BulkTraffic.Lib

/-- `TaskResult`. -/
structure TaskResult where
  index : ℕ
  ok : Bool
  ms : Number
  /-- It is measured between two readings of a clock, so it is not `NaN`. -/
  measured : ∃ q, ms = binary64 q

theorem exists_binary64_eq_infinity (s : Bool) : ∃ q, Number.infinity s = binary64 q := by
  cases s with
  | false => exact ⟨(2 ^ 1024 : ℕ), by decide +kernel⟩
  | true => exact ⟨-(2 ^ 1024 : ℕ), by decide +kernel⟩

/-- Rounding to hundredths gives a number again. -/
theorem exists_toHundredths_eq {x : Number} (hx : x ≠ .nan) : ∃ q, toHundredths x = binary64 q := by
  have hround := round_ne_nan (mul_hundred_ne_nan hx)
  rw [toHundredths]
  cases h : Number.round (Number.mul x (.finite 100)) with
  | nan => exact absurd h hround
  | infinity s =>
    have hpos : decide ((100 : ℚ) < 0) = false := by decide
    rw [Number.div, hpos, Bool.bne_false]
    exact exists_binary64_eq_infinity s
  | finite q => exact ⟨q / 100, by simp [Number.div]⟩

/-- `{ index: i, ok, ms }`, as the load test records it. -/
def taskResult (i : ℕ) (ok : Bool) (t : Timing) : TaskResult where
  index := i
  ok := ok
  ms := elapsedMs t
  measured := exists_toHundredths_eq (binary64_ne_nan _)

/-- The latency of a result. -/
def TaskResult.latency (r : TaskResult) : Comparable := ⟨r.ms, r.measured⟩

/-- `StreamMetrics`. The latency figures are `null` where no task has succeeded. -/
structure StreamMetrics where
  total : ℕ
  fulfilled : ℕ
  rejected : ℕ
  totalMs : Number
  avgMs : Option Number
  p50 : Option Number
  p95 : Option Number
  p99 : Option Number
  minMs : Option Number
  maxMs : Option Number
  deriving DecidableEq

/-- The latency figures of the metrics. -/
def StreamMetrics.figures (m : StreamMetrics) : LatencySummary :=
  ⟨m.avgMs, m.p50, m.p95, m.p99, m.minMs, m.maxMs⟩

/-- `computeMetrics(results, totalMs)`. -/
def computeMetricsBy (times : Scaling) (results : List TaskResult) (totalMs : Number) :
    StreamMetrics :=
  let fulfilled := results.filter fun r => r.ok
  let rejected := results.filter fun r => !r.ok
  let durations := (fulfilled.map TaskResult.ms).insertionSort (fun a b => sortsBefore a b = true)
  let hasSample := decide (0 < durations.length)
  { total := results.length
    fulfilled := fulfilled.length
    rejected := rejected.length
    totalMs := totalMs
    avgMs :=
      if hasSample then
        some (toHundredths
          (Number.div (durations.foldl Number.add (.finite 0)) (.finite durations.length)))
      else none
    p50 := percentileBy times durations (mkRat 1 2)
    p95 := percentileBy times durations (mkRat 95 100)
    p99 := percentileBy times durations (mkRat 99 100)
    minMs := if hasSample then durations.head? else none
    maxMs := if hasSample then durations.getLast? else none }

/-- `computeMetrics(results, totalMs)`, as the program computes it. -/
def computeMetrics (results : List TaskResult) (totalMs : Number) : StreamMetrics :=
  computeMetricsBy floating results totalMs

/-! ### Sorting -/

/-- The latencies of the tasks that have succeeded. -/
def latencies (results : List TaskResult) : List Comparable :=
  (results.filter fun r => r.ok).map TaskResult.latency

theorem mem_latencies {results : List TaskResult} {v : Comparable} :
    v ∈ latencies results ↔ ∃ r ∈ results, r.ok = true ∧ r.latency = v := by
  simp [latencies, and_assoc]

theorem latencies_eq_nil {results : List TaskResult} :
    latencies results = [] ↔ ∀ r ∈ results, r.ok = false := by
  simp [latencies]

theorem map_value_latencies (results : List TaskResult) :
    (latencies results).map Comparable.value = (results.filter fun r => r.ok).map TaskResult.ms := by
  rw [latencies, List.map_map]
  rfl

/-- The comparator sorts numbers that can be compared by their order. -/
theorem sort_map_value (l : List Comparable) :
    (l.map Comparable.value).insertionSort (fun a b => sortsBefore a b = true) =
      (l.insertionSort (· ≤ ·)).map Comparable.value := by
  refine (List.map_insertionSort (· ≤ ·) _ Comparable.value l fun a _ b _ => ?_).symm
  rw [sortsBefore, Bool.not_eq_true', ← Bool.not_eq_true, Comparable.lt_sub, not_lt]

/-! ### Where the percentiles stand -/

/-- A position in the sample, at most the last one. -/
theorem percentileBy_of_floor {times : Scaling} {sorted : List Number} {ratio : ℚ} {p : ℕ}
    (h : Number.floor (times sorted.length ratio) = .finite (p * sorted.length / 100 : ℕ)) :
    percentileBy times sorted ratio = sorted[floorRank p sorted.length]? := by
  rw [percentileBy]
  split
  · rename_i hempty
    rw [List.length_eq_zero_iff.mp hempty]
    rfl
  · have hmin : Number.min (.finite (p * sorted.length / 100 : ℕ)) (.finite (sorted.length - 1 : ℕ))
        = .finite (floorRank p sorted.length : ℕ) := by
      rw [Number.min, floorRank]
      split
      · rename_i hle
        rw [min_eq_left (by exact_mod_cast hle)]
      · rename_i hlt
        rw [min_eq_right (by exact_mod_cast (not_le.mp hlt).le)]
    have hindex : (Number.finite (floorRank p sorted.length : ℕ)).toInteger?
        = some (floorRank p sorted.length : ℤ) := by
      rw [Number.toInteger?, if_pos (Rat.den_natCast _), Rat.num_natCast]
    rw [h, hmin]
    simp only [hindex]
    exact if_pos (Int.natCast_nonneg _)

/-- The product of the rationals, rounded down. -/
theorem floor_exactly {ratio : ℚ} {p : ℕ} (n : ℕ) (h : ratio = p / 100) :
    Number.floor (exactly n ratio) = .finite (p * n / 100 : ℕ) := by
  have hproduct : (n : ℚ) * ratio = ((p * n : ℕ) : ℚ) / (100 : ℕ) := by
    rw [h]
    push_cast
    ring
  have hfloor : ((n : ℚ) * ratio).floor = ((p * n / 100 : ℕ) : ℤ) := by
    rw [hproduct]
    exact Rat.floor_natCast_div_natCast (p * n) 100
  rw [exactly, Number.floor, hfloor]
  rfl

/-- A number of hundredths, or what is close below it, is rounded but not past an integer. -/
theorem floor_nearest {x : ℚ} {m : ℕ} (hm : 0 < m) (hlt : m < 2 ^ 40) (hhigh : x ≤ (m : ℚ) / 100)
    (hlow : (m : ℚ) / 100 - (m : ℚ) / 100 / 2 ^ 54 < x) :
    Moderate x ∧ (nearest x).floor = ((m / 100 : ℕ) : ℤ) := by
  have hm' : (1 : ℚ) ≤ m := by exact_mod_cast hm
  have hlt' : (m : ℚ) < 2 ^ 40 := by exact_mod_cast hlt
  have hmoderate : Moderate x := ⟨by linarith, by linarith⟩
  obtain ⟨k, hk⟩ : ∃ k, k = m / 100 := ⟨_, rfl⟩
  obtain ⟨rest, hrest⟩ : ∃ rest, rest = m % 100 := ⟨_, rfl⟩
  have hparts : (m : ℚ) = 100 * k + rest := by exact_mod_cast (by omega : m = 100 * k + rest)
  have hround : (k : ℚ) ≤ nearest x ∧ nearest x < k + 1 := by
    rcases Nat.eq_zero_or_pos rest with hzero | hpos
    · -- close to an integer: rounded to it
      have hint : (m : ℚ) / 100 = k := by
        rw [hparts, hzero]
        push_cast
        ring
      rw [hint] at hhigh hlow
      rw [nearest_of_nonneg hmoderate.pos.le,
        roundToPlace_of_near (by omega) (by omega) hhigh hlow]
      constructor <;> linarith
    · -- a hundredth at least from the integers on either side
      have hnear := abs_le.mp (abs_nearest_sub_le hmoderate)
      have hone : (1 : ℚ) ≤ rest := by exact_mod_cast hpos
      have hlast : (rest : ℚ) ≤ 99 := by exact_mod_cast (by omega : rest ≤ 99)
      constructor <;> linarith
  refine ⟨hmoderate, ?_⟩
  rw [← hk]
  exact Int.floor_eq_iff.mpr ⟨by exact_mod_cast hround.1, by exact_mod_cast hround.2⟩

/-- **The product in floating point, rounded down**, is the same where the ratio has been rounded down
by less than half a last place, and the sample is one that an array holds. -/
theorem floor_floating {ratio v : ℚ} {n p : ℕ} (hn : n < 2 ^ 32) (hp : 0 < p) (hle : p ≤ 100)
    (hratio : binary64 ratio = .finite v) (hv : v ≤ p / 100) (hnear : p / 100 - p / 100 / 2 ^ 54 < v) :
    Number.floor (floating n ratio) = .finite (p * n / 100 : ℕ) := by
  rw [floating, hratio, Number.mul]
  rcases Nat.eq_zero_or_pos n with rfl | hpos
  · have hzero : Rat.floor 0 = 0 := rfl
    simp [binary64, Number.floor, hzero]
  · have hprod : p * n ≤ 100 * n := Nat.mul_le_mul_right n hle
    have hn' : (0 : ℚ) < n := by exact_mod_cast hpos
    have hexact : ((p * n : ℕ) : ℚ) / 100 = n * (p / 100) := by
      push_cast
      ring
    have hhigh : (n : ℚ) * v ≤ ((p * n : ℕ) : ℚ) / 100 := by
      rw [hexact]
      exact mul_le_mul_of_nonneg_left hv hn'.le
    have hlow : ((p * n : ℕ) : ℚ) / 100 - ((p * n : ℕ) : ℚ) / 100 / 2 ^ 54 < n * v := by
      have hscaled := mul_lt_mul_of_pos_left hnear hn'
      rw [hexact]
      linarith
    obtain ⟨hmoderate, hfloor⟩ := floor_nearest (Nat.mul_pos hp hpos) (by omega) hhigh hlow
    rw [hmoderate.binary64_eq, Number.floor, hfloor]
    rfl

/-- A ratio of the source and its per cent, and how the ratio is rounded. -/
structure IsRatio (p : ℕ) (ratio : ℚ) : Prop where
  pos : 0 < p
  le : p ≤ 100
  eq : ratio = p / 100
  rounded : ∃ v, binary64 ratio = .finite v ∧ v ≤ p / 100 ∧ (p : ℚ) / 100 - p / 100 / 2 ^ 54 < v

theorem IsRatio.fifty : IsRatio 50 (mkRat 1 2) where
  pos := by decide
  le := by decide
  eq := by norm_num [Rat.mkRat_eq_div]
  rounded := ⟨mkRat 1 2, by decide +kernel, by norm_num [Rat.mkRat_eq_div], by norm_num [Rat.mkRat_eq_div]⟩

theorem IsRatio.ninetyFive : IsRatio 95 (mkRat 95 100) where
  pos := by decide
  le := by decide
  eq := by norm_num [Rat.mkRat_eq_div]
  rounded := ⟨mkRat 4278419646001971 4503599627370496, by decide +kernel,
    by norm_num [Rat.mkRat_eq_div], by norm_num [Rat.mkRat_eq_div]⟩

theorem IsRatio.ninetyNine : IsRatio 99 (mkRat 99 100) where
  pos := by decide
  le := by decide
  eq := by norm_num [Rat.mkRat_eq_div]
  rounded := ⟨mkRat 4458563631096791 4503599627370496, by decide +kernel,
    by norm_num [Rat.mkRat_eq_div], by norm_num [Rat.mkRat_eq_div]⟩

theorem IsRatio.percentileBy_exactly {p : ℕ} {ratio : ℚ} (h : IsRatio p ratio) (sorted : List Number) :
    percentileBy exactly sorted ratio = sorted[floorRank p sorted.length]? :=
  percentileBy_of_floor (floor_exactly sorted.length h.eq)

/-- **Floating point makes no difference** for a sample that an array holds. -/
theorem IsRatio.percentileBy_floating {p : ℕ} {ratio : ℚ} (h : IsRatio p ratio) {sorted : List Number}
    (hlt : sorted.length < 2 ^ 32) :
    percentileBy floating sorted ratio = percentileBy exactly sorted ratio := by
  obtain ⟨v, hratio, hv, hnear⟩ := h.rounded
  rw [h.percentileBy_exactly,
    percentileBy_of_floor (floor_floating hlt h.pos h.le hratio hv hnear)]

/-! ### Two summaries -/

/-- The sorted durations are the sorted latencies. -/
theorem sort_durations (results : List TaskResult) :
    ((results.filter fun r => r.ok).map TaskResult.ms).insertionSort (fun a b => sortsBefore a b = true)
      = ((latencies results).insertionSort (· ≤ ·)).map Comparable.value := by
  rw [← map_value_latencies, sort_map_value]

/-- The metrics have the figures of the summary of the successful latencies. -/
theorem summarizeLatenciesBy_ms (times : Scaling) (results : List TaskResult) (totalMs : Number) :
    summarizeLatenciesBy times ((results.filter fun r => r.ok).map TaskResult.ms) =
      (computeMetricsBy times results totalMs).figures :=
  rfl

theorem summarizeLatencies_eq_exactly {samples : List Number} (h : samples.length < 2 ^ 32) :
    summarizeLatencies samples = summarizeLatenciesBy exactly samples := by
  have hlength := List.length_insertionSort (fun a b => sortsBefore a b = true) samples
  rw [← hlength] at h
  rw [summarizeLatencies, summarizeLatenciesBy, summarizeLatenciesBy,
    IsRatio.fifty.percentileBy_floating h, IsRatio.ninetyFive.percentileBy_floating h,
    IsRatio.ninetyNine.percentileBy_floating h]

/-- **The program's metrics** are those with exact products, for as many results as an array holds. -/
theorem computeMetrics_eq_exactly {results : List TaskResult} (totalMs : Number)
    (h : results.length < 2 ^ 32) :
    computeMetrics results totalMs = computeMetricsBy exactly results totalMs := by
  have hlength : (((results.filter fun r => r.ok).map TaskResult.ms).insertionSort
      (fun a b => sortsBefore a b = true)).length < 2 ^ 32 := by
    rw [List.length_insertionSort, List.length_map]
    exact (List.length_filter_le _ results).trans_lt h
  rw [computeMetrics, computeMetricsBy, computeMetricsBy,
    IsRatio.fifty.percentileBy_floating hlength, IsRatio.ninetyFive.percentileBy_floating hlength,
    IsRatio.ninetyNine.percentileBy_floating hlength]

/-- **The order of the results** does not matter. -/
theorem computeMetricsBy_perm (times : Scaling) {results results' : List TaskResult}
    (h : results.Perm results') (totalMs : Number) :
    computeMetricsBy times results' totalMs = computeMetricsBy times results totalMs := by
  have hsorted : (latencies results').insertionSort (· ≤ ·) = (latencies results).insertionSort (· ≤ ·) := by
    apply List.Perm.eq_of_sortedLE List.sortedLE_insertionSort List.sortedLE_insertionSort
    have hperm : (latencies results').Perm (latencies results) := (h.symm.filter _).map _
    exact ((latencies results').perm_insertionSort _).trans
      (hperm.trans ((latencies results).perm_insertionSort _).symm)
  rw [computeMetricsBy, computeMetricsBy]
  simp only [sort_durations, hsorted, h.length_eq, (h.filter _).length_eq]

/-! ### What the metrics say -/

/-- The latency at a position of the sorted ones. -/
def standing (results : List TaskResult) (k : ℕ) : Option Number :=
  (((latencies results).insertionSort (· ≤ ·))[k]?).map Comparable.value

/-- Where the figures stand, with exact products. -/
structure Figures (results : List TaskResult) (m : StreamMetrics) : Prop where
  total : m.total = results.length
  fulfilled : m.fulfilled = (results.filter fun r => r.ok).length
  rejected : m.rejected = (results.filter fun r => !r.ok).length
  avgMs : m.avgMs = none ↔ latencies results = []
  minMs : m.minMs = standing results 0
  p50 : m.p50 = standing results (floorRank 50 (latencies results).length)
  p95 : m.p95 = standing results (floorRank 95 (latencies results).length)
  p99 : m.p99 = standing results (floorRank 99 (latencies results).length)
  maxMs : m.maxMs = standing results ((latencies results).length - 1)

theorem head_of_sample (sorted : List Number) :
    (if decide (0 < sorted.length) then sorted.head? else none) = sorted[0]? := by
  cases sorted <;> simp

theorem last_of_sample (sorted : List Number) :
    (if decide (0 < sorted.length) then sorted.getLast? else none) = sorted[sorted.length - 1]? := by
  rw [← List.getLast?_eq_getElem?]
  cases sorted <;> simp

theorem figures (results : List TaskResult) (totalMs : Number) :
    Figures results (computeMetricsBy exactly results totalMs) := by
  have hlength : (((latencies results).insertionSort (· ≤ ·)).map Comparable.value).length
      = (latencies results).length := by
    rw [List.length_map, List.length_insertionSort]
  have hrank : ∀ {p : ℕ} {ratio : ℚ}, IsRatio p ratio →
      percentileBy exactly (((latencies results).insertionSort (· ≤ ·)).map Comparable.value) ratio
        = standing results (floorRank p (latencies results).length) := by
    intro p ratio h
    rw [h.percentileBy_exactly, hlength, standing, List.getElem?_map]
  rw [computeMetricsBy, sort_durations]
  exact
    { total := rfl
      fulfilled := rfl
      rejected := rfl
      avgMs := by
        rw [← List.length_eq_zero_iff, ← hlength]
        simp
      minMs := by
        rw [standing, ← List.getElem?_map]
        exact head_of_sample _
      p50 := hrank .fifty
      p95 := hrank .ninetyFive
      p99 := hrank .ninetyNine
      maxMs := by
        rw [standing, ← List.getElem?_map, ← hlength]
        exact last_of_sample _ }

/-! ### Positions in the sorted latencies -/

/-- `a <= b`, of two figures that are there. -/
def AtMost (a b : Option Number) : Prop :=
  ∃ x y, a = some x ∧ b = some y ∧ Number.le x y = true

section Standing

variable {results : List TaskResult}

/-- Every position up to the last has a latency, where there is any. -/
theorem standing_eq_none {k : ℕ} (hk : k ≤ (latencies results).length - 1) :
    standing results k = none ↔ latencies results = [] := by
  rw [standing, Option.map_eq_none_iff, List.getElem?_eq_none_iff, List.length_insertionSort,
    ← List.length_eq_zero_iff]
  omega

theorem standing_of_lt {k : ℕ} (hk : k < ((latencies results).insertionSort (· ≤ ·)).length) :
    standing results k = some ((latencies results).insertionSort (· ≤ ·))[k].value := by
  rw [standing, List.getElem?_eq_getElem hk]
  rfl

/-- A later position has no smaller latency. -/
theorem standing_mono {j k : ℕ} (hjk : j ≤ k) (hk : k < (latencies results).length) :
    AtMost (standing results j) (standing results k) := by
  rw [← List.length_insertionSort (· ≤ ·) (latencies results)] at hk
  refine ⟨_, _, standing_of_lt (hjk.trans_lt hk), standing_of_lt hk, ?_⟩
  rw [← Comparable.le_iff]
  exact List.sortedLE_insertionSort.getElem_le_getElem_of_le hjk

/-- What stands at the position of a percentile. -/
theorem standing_floorRank {p : ℕ} (hp : 0 < p) (hle : p ≤ 100) {x : Number}
    (hx : standing results (floorRank p (latencies results).length) = some x) :
    ∃ r ∈ results, r.ok = true ∧ r.ms = x ∧
      p * (latencies results).length ≤ 100 * (latencies results).countP (· ≤ r.latency) ∧
      ∃ u, IsNearestRank p (latencies results) u ∧ u ≤ r.latency := by
  have hne : latencies results ≠ [] := by
    intro hnil
    rw [(standing_eq_none (floorRank_le p _)).mpr hnil] at hx
    cases hx
  obtain ⟨v, hv, hmem, henough, hrank⟩ := floorRank_insertionSort hp hle hne
  rw [standing, hv, Option.map_some, Option.some.injEq] at hx
  obtain ⟨r, hr, hok, rfl⟩ := mem_latencies.mp hmem
  exact ⟨r, hr, hok, hx, henough, hrank⟩

end Standing

/-- What the metrics say of the results. -/
structure Coherent (results : List TaskResult) (m : StreamMetrics) : Prop where
  /-- Every result is counted once. -/
  total : m.fulfilled + m.rejected = m.total ∧ m.total = results.length
  /-- There are no latencies exactly where no task has succeeded. -/
  null : ∀ figure ∈ [m.avgMs, m.p50, m.p95, m.p99, m.minMs, m.maxMs],
    figure = none ↔ ∀ r ∈ results, r.ok = false
  ordered : (∃ r ∈ results, r.ok = true) →
    AtMost m.minMs m.p50 ∧ AtMost m.p50 m.p95 ∧ AtMost m.p95 m.p99 ∧ AtMost m.p99 m.maxMs
  /-- A percentile is the latency of a task that has succeeded. At least so many per cent of the
  latencies are at most it, and so is the percentile by nearest rank. -/
  ranked : ∀ p figure, (p, figure) ∈ [(50, m.p50), (95, m.p95), (99, m.p99)] → ∀ x, figure = some x →
    ∃ r ∈ results, r.ok = true ∧ r.ms = x ∧
      p * (latencies results).length ≤ 100 * (latencies results).countP (· ≤ r.latency) ∧
      ∃ u, IsNearestRank p (latencies results) u ∧ u ≤ r.latency

/-- **The metrics are coherent**, whatever the results. -/
theorem coherent (results : List TaskResult) (totalMs : Number) :
    Coherent results (computeMetricsBy exactly results totalMs) := by
  have hfig := figures results totalMs
  generalize computeMetricsBy exactly results totalMs = m at hfig
  constructor
  · rw [hfig.fulfilled, hfig.rejected, hfig.total]
    exact ⟨(List.length_eq_length_filter_add fun r : TaskResult => r.ok).symm, rfl⟩
  · intro figure hfigure
    rw [← latencies_eq_nil]
    simp only [List.mem_cons, List.not_mem_nil, or_false] at hfigure
    rcases hfigure with rfl | rfl | rfl | rfl | rfl | rfl
    · exact hfig.avgMs
    · rw [hfig.p50, standing_eq_none (floorRank_le _ _)]
    · rw [hfig.p95, standing_eq_none (floorRank_le _ _)]
    · rw [hfig.p99, standing_eq_none (floorRank_le _ _)]
    · rw [hfig.minMs, standing_eq_none (Nat.zero_le _)]
    · rw [hfig.maxMs, standing_eq_none le_rfl]
  · rintro ⟨r, hr, hok⟩
    have hpos : 0 < (latencies results).length :=
      List.length_pos_of_mem (mem_latencies.mpr ⟨r, hr, hok, rfl⟩)
    rw [hfig.minMs, hfig.p50, hfig.p95, hfig.p99, hfig.maxMs]
    refine ⟨?_, ?_, ?_, ?_⟩
    · exact standing_mono (Nat.zero_le _) (floorRank_lt 50 hpos)
    · exact standing_mono (floorRank_mono (by decide) _) (floorRank_lt 95 hpos)
    · exact standing_mono (floorRank_mono (by decide) _) (floorRank_lt 99 hpos)
    · exact standing_mono (floorRank_le 99 _) (by omega)
  · intro p figure hfigure x hx
    simp only [List.mem_cons, Prod.mk.injEq, List.not_mem_nil, or_false] at hfigure
    rcases hfigure with ⟨rfl, rfl⟩ | ⟨rfl, rfl⟩ | ⟨rfl, rfl⟩
    · exact standing_floorRank (by decide) (by decide) (hfig.p50 ▸ hx)
    · exact standing_floorRank (by decide) (by decide) (hfig.p95 ▸ hx)
    · exact standing_floorRank (by decide) (by decide) (hfig.p99 ▸ hx)

/-- **The metrics of a load test are coherent**, whatever the results and their order, and they agree
with the summary of the latencies. All this is with exact products; for as many results as an array
holds, the program has the same metrics. -/
theorem computeMetrics_coherent (results : List TaskResult) (totalMs : Number) :
    Coherent results (computeMetricsBy exactly results totalMs) ∧
      (∀ results', results.Perm results' →
        computeMetricsBy exactly results' totalMs = computeMetricsBy exactly results totalMs) ∧
      summarizeLatenciesBy exactly ((results.filter fun r => r.ok).map TaskResult.ms) =
        (computeMetricsBy exactly results totalMs).figures ∧
      (results.length < 2 ^ 32 →
        computeMetrics results totalMs = computeMetricsBy exactly results totalMs ∧
          summarizeLatencies ((results.filter fun r => r.ok).map TaskResult.ms) =
            summarizeLatenciesBy exactly ((results.filter fun r => r.ok).map TaskResult.ms)) := by
  refine ⟨coherent results totalMs, fun results' h => computeMetricsBy_perm exactly h totalMs,
    summarizeLatenciesBy_ms exactly results totalMs, fun h => ⟨computeMetrics_eq_exactly totalMs h, ?_⟩⟩
  apply summarizeLatencies_eq_exactly
  rw [List.length_map]
  exact (List.length_filter_le _ results).trans_lt h

/-- Three tasks, of which the second has failed. -/
theorem computeMetrics_coherent_of_three :
    let results := [taskResult 0 true ⟨0, 30⟩, taskResult 1 false ⟨30, 31⟩, taskResult 2 true ⟨31, 41⟩]
    let m := computeMetrics results (.finite 41)
    (m.fulfilled, m.rejected, m.avgMs, m.p50, m.p99, m.minMs) =
        (2, 1, some (.finite 20), some (.finite 30), some (.finite 30), some (.finite 10)) ∧
      m = computeMetricsBy exactly results (.finite 41) ∧ Coherent results m := by
  intro results m
  obtain ⟨hcoherent, -, -, hexactly⟩ := computeMetrics_coherent results (.finite 41)
  have hm : m = computeMetricsBy exactly results (.finite 41) := (hexactly (by decide)).1
  refine ⟨by decide +kernel, hm, ?_⟩
  rw [hm]
  exact hcoherent

end BulkTraffic.LoadTest
