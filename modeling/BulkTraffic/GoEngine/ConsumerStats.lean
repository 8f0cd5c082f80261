import BulkTraffic.Js.Rounding
import BulkTraffic.Lib.Arrays
import BulkTraffic.Lib.JsMap
import BulkTraffic.Lib.NearestRank

/-!
# The statistics of the Go consumer

`Stats` of `stats.go` and what `Snapshot` copies out of it. The latencies stand in an array that
`Stats.latencies` names; `percentile` sorts a copy of it.

A `time.Time` is the number of nanoseconds since the zero time, and `Sub` gives the longest duration
there is for times that are further apart. `range` over a map visits the entries in any order, so
`Snapshot` takes the order as a parameter.

* `percentile_spec`: the value at the computed position is the percentile by nearest rank.
* `prefix_percentile`: no array that is there changes.
* `throughput_near`: what the roundings of a throughput leave.
-/

namespace BulkTraffic.GoEngine.Consumer

open BulkTraffic.Js BulkTraffic.Lib

/-- `time.UnixMilli(ms)`, in nanoseconds since the zero time. -/
def unixMilli (ms : ℤ) : ℤ := (62135596800000 + ms) * 1000000

/-- `t.Sub(u)`. -/
def sub (t u : ℤ) : Int64 := Int64.ofInt (max (-2 ^ 63) (min (2 ^ 63 - 1) (t - u)))

/-- `d.Seconds()`. -/
def seconds (d : Int64) : Number :=
  Number.add (binary64 (d / 1000000000).toInt)
    (Number.div (binary64 (d % 1000000000).toInt) (.finite 1000000000))

/-- `Stats`. -/
structure Stats where
  consumerID : String
  processed : ℕ := 0
  failed : ℕ := 0
  partitionCounts : JsMap ℕ ℕ := .empty
  /-- The array with the latencies. -/
  latencies : ℕ
  firstProcessed : ℤ := 0
  lastProcessed : ℤ := 0

/-- `Snapshot`. -/
structure Snapshot where
  consumerID : String
  processed : ℕ
  failed : ℕ
  partitionCounts : JsMap ℕ ℕ
  elapsed : Int64
  avgLatency : Option Int64
  p50Latency : Option Int64
  p95Latency : Option Int64
  throughput : Option Number

/-! ### Counting -/

/-- `RecordSuccess(partition, latency)`, at the time `now`. -/
def Stats.recordSuccess (partition : ℕ) (latency : Int64) (now : ℤ) (s : Stats)
    (arrays : Arrays Int64) : Stats × Arrays Int64 :=
  let s := if s.processed = 0 then { s with firstProcessed := now } else s
  ({ s with
      processed := s.processed + 1
      partitionCounts := s.partitionCounts.set partition ((s.partitionCounts.get? partition).getD 0 + 1)
      lastProcessed := now },
    arrays.update s.latencies fun values => values ++ [latency])

/-- `RecordFailure()`. -/
def Stats.recordFailure (s : Stats) : Stats := { s with failed := s.failed + 1 }

theorem Stats.recordSuccess_eq (partition : ℕ) (latency : Int64) (now : ℤ) (s : Stats)
    (arrays : Arrays Int64) :
    s.recordSuccess partition latency now arrays =
      ({ s with
          processed := s.processed + 1
          partitionCounts :=
            s.partitionCounts.set partition ((s.partitionCounts.get? partition).getD 0 + 1)
          firstProcessed := if s.processed = 0 then now else s.firstProcessed
          lastProcessed := now },
        arrays.update s.latencies fun values => values ++ [latency]) := by
  rw [recordSuccess]
  split <;> rfl

/-! ### Snapshots -/

/-- `average(values)`. -/
def average (values : List Int64) : Option Int64 :=
  if values.length = 0 then none
  else some (values.foldl (· + ·) 0 / Int64.ofNat values.length)

/-- The index in `percentile`. -/
def percentileIndex (length p : ℕ) : ℕ :=
  let index := (length * p + 99) / 100
  let index := if 0 < index then index - 1 else index
  if length ≤ index then length - 1 else index

/-- `sort.Slice(sorted, func(i, j int) bool { return sorted[i] < sorted[j] })`. -/
def sortDurations (values : List Int64) : List Int64 := values.insertionSort (· ≤ ·)

/-- `percentile(values, p)`. -/
def percentile (values p : ℕ) (arrays : Arrays Int64) : Option Int64 × Arrays Int64 :=
  if (arrays.read values).length = 0 then (none, arrays)
  else
    let (sorted, arrays) := arrays.alloc (arrays.read values)
    let arrays := arrays.update sorted sortDurations
    ((arrays.read sorted)[percentileIndex (arrays.read sorted).length p]?, arrays)

/-- `Snapshot()`, where `range` is the order in which the loop visits the entries of a map. -/
def Stats.snapshot (range : List (ℕ × ℕ) → List (ℕ × ℕ)) (s : Stats) (arrays : Arrays Int64) :
    Snapshot × Arrays Int64 :=
  let counts := (range s.partitionCounts.entries).foldl (fun counts e => counts.set e.1 e.2) .empty
  let elapsed := sub s.lastProcessed s.firstProcessed
  let avgLatency := average (arrays.read s.latencies)
  let (p50Latency, arrays) := percentile s.latencies 50 arrays
  let (p95Latency, arrays) := percentile s.latencies 95 arrays
  let throughput :=
    if 1 < s.processed ∧ 0 < elapsed then some (Number.div (binary64 s.processed) (seconds elapsed))
    else none
  ({ consumerID := s.consumerID, processed := s.processed, failed := s.failed,
      partitionCounts := counts, elapsed, avgLatency, p50Latency, p95Latency, throughput },
    arrays)

theorem Stats.snapshot_throughput (range : List (ℕ × ℕ) → List (ℕ × ℕ)) (s : Stats)
    (arrays : Arrays Int64) :
    (s.snapshot range arrays).1.throughput =
      if 1 < s.processed ∧ 0 < sub s.lastProcessed s.firstProcessed then
        some (Number.div (binary64 s.processed) (seconds (sub s.lastProcessed s.firstProcessed)))
      else none :=
  rfl

/-- The copy has the entries in the order in which they were visited. -/
theorem Stats.entries_snapshot {range : List (ℕ × ℕ) → List (ℕ × ℕ)} (hrange : ∀ es, (range es).Perm es)
    (s : Stats) (arrays : Arrays Int64) :
    (s.snapshot range arrays).1.partitionCounts.entries = range s.partitionCounts.entries := by
  have hkeys := (hrange s.partitionCounts.entries).map Prod.fst
  exact JsMap.entries_foldl_set (m := .empty) (hkeys.nodup_iff.mpr s.partitionCounts.nodup)

/-! ### Percentiles -/

theorem percentileIndex_eq {n p : ℕ} (hn : 0 < n) (hp : 0 < p) (hle : p ≤ 100) :
    percentileIndex n p = (n * p + 99) / 100 - 1 := by
  have hprod : n * p ≤ n * 100 := Nat.mul_le_mul_left n hle
  have hpos : 0 < n * p := Nat.mul_pos hn hp
  have hsome : 0 < (n * p + 99) / 100 := by omega
  simp only [percentileIndex, if_pos hsome]
  exact if_neg (by omega)

theorem map_toInt_sortDurations (values : List Int64) :
    (sortDurations values).map Int64.toInt = (values.map Int64.toInt).insertionSort (· ≤ ·) := by
  rw [sortDurations]
  apply List.map_insertionSort
  exact fun a _ b _ => Int64.le_iff_toInt_le

theorem percentile_of_ne_nil {arrays : Arrays Int64} {values : ℕ} (p : ℕ) (h : arrays.read values ≠ []) :
    percentile values p arrays =
      ((sortDurations (arrays.read values))[percentileIndex (sortDurations (arrays.read values)).length p]?,
        arrays ++ [sortDurations (arrays.read values)]) := by
  rw [percentile, if_neg (mt List.length_eq_zero_iff.mp h)]
  simp only [Arrays.alloc, Arrays.update_append, Arrays.read_append]

/-- `percentile` makes an array of its own, and changes no other. -/
theorem prefix_percentile (values p : ℕ) (arrays : Arrays Int64) :
    arrays <+: (percentile values p arrays).2 := by
  by_cases h : arrays.read values = []
  · rw [percentile, if_pos (List.length_eq_zero_iff.mpr h)]
  · rw [percentile_of_ne_nil p h]
    exact List.prefix_append arrays _

theorem percentile_eq_none {arrays : Arrays Int64} {values p : ℕ} (h : arrays.read values = []) :
    (percentile values p arrays).1 = none := by
  rw [percentile, if_pos (List.length_eq_zero_iff.mpr h)]

/-- **`percentile` is the percentile by nearest rank.** -/
theorem percentile_spec {arrays : Arrays Int64} {values p : ℕ} (hp : 0 < p) (hle : p ≤ 100)
    (hne : arrays.read values ≠ []) :
    ∃ d, (percentile values p arrays).1 = some d ∧
      IsNearestRank p ((arrays.read values).map Int64.toInt) d.toInt := by
  have hn : 0 < (arrays.read values).length := List.length_pos_iff.mpr hne
  have hlength : (sortDurations (arrays.read values)).length = (arrays.read values).length := by
    rw [sortDurations, List.length_insertionSort]
  have hprod : (arrays.read values).length * p ≤ (arrays.read values).length * 100 :=
    Nat.mul_le_mul_left _ hle
  have hpos : 0 < (arrays.read values).length * p := Nat.mul_pos hn hp
  obtain ⟨z, hz, hrank⟩ := isNearestRank_insertionSort (p := p)
    (l := (arrays.read values).map Int64.toInt) (k := ((arrays.read values).length * p + 99) / 100 - 1)
    (by rw [List.length_map]; omega)
    (by rw [List.length_map, Nat.mul_comm]; omega)
    (by rw [List.length_map, Nat.mul_comm p]; omega)
  rw [← map_toInt_sortDurations, List.getElem?_map, Option.map_eq_some_iff] at hz
  obtain ⟨d, hd, rfl⟩ := hz
  refine ⟨d, ?_, hrank⟩
  rw [percentile_of_ne_nil p hne, hlength, percentileIndex_eq hn hp hle, hd]

/-! ### Throughput -/

theorem toInt_sub {t u : ℤ} (h : u ≤ t) : (sub t u).toInt = min (2 ^ 63 - 1) (t - u) := by
  rw [sub, Int64.toInt_ofInt_of_le (by omega) (by omega)]
  omega

/-- Whole seconds and nanoseconds. -/
theorem seconds_eq {d : Int64} {ns : ℕ} (h : d.toInt = ns) :
    seconds d = Number.add (.finite (ns / 1000000000 : ℕ))
      (binary64 ((ns % 1000000000 : ℕ) / 1000000000)) := by
  have hlt := Int64.toInt_lt d
  have hsec : (d / 1000000000).toInt = (ns / 1000000000 : ℕ) := by
    rw [Int64.toInt_div, h]
    show ((ns : ℤ).tdiv (1000000000 : ℕ)).bmod (2 ^ 64) = _
    rw [← Int.ofNat_tdiv, Int.bmod_eq_of_le (by omega) (by omega)]
  have hnsec : (d % 1000000000).toInt = (ns % 1000000000 : ℕ) := by
    rw [Int64.toInt_mod, h]
    rfl
  rw [seconds, hsec, hnsec, Int.cast_natCast, Int.cast_natCast, binary64_natCast (by omega),
    binary64_natCast (by omega)]
  rfl

/-- The two roundings of the seconds of a duration. -/
theorem seconds_near {d : Int64} (hpos : 0 < d.toInt) :
    ∃ s, seconds d = .finite s ∧ |s - d.toInt / 1000000000| ≤ d.toInt / 1000000000 / 2 ^ 51 := by
  obtain ⟨ns, hns⟩ : ∃ ns : ℕ, d.toInt = ns := Int.eq_ofNat_of_zero_le hpos.le
  have hlt := Int64.toInt_lt d
  have hlow : (1 : ℚ) ≤ ns := by exact_mod_cast (by omega : 1 ≤ ns)
  have hhigh : (ns : ℚ) < 2 ^ 63 := by exact_mod_cast (by omega : ns < 2 ^ 63)
  obtain ⟨f, hf, hfraction⟩ : ∃ f, binary64 (((ns % 1000000000 : ℕ) : ℚ) / 1000000000) = .finite f ∧
      |f - ((ns % 1000000000 : ℕ) : ℚ) / 1000000000| ≤ ((ns % 1000000000 : ℕ) : ℚ) / 1000000000 / 2 ^ 53 := by
    rcases Nat.eq_zero_or_pos (ns % 1000000000) with hzero | hnsec
    · rw [hzero]
      rw [Nat.cast_zero, zero_div]
      exact ⟨0, rfl, by norm_num⟩
    · have hone : (1 : ℚ) ≤ (ns % 1000000000 : ℕ) := by exact_mod_cast hnsec
      have hless : ((ns % 1000000000 : ℕ) : ℚ) ≤ 1000000000 := by
        exact_mod_cast (Nat.mod_lt ns (by omega)).le
      have hmoderate : Moderate (((ns % 1000000000 : ℕ) : ℚ) / 1000000000) :=
        ⟨by linarith, by linarith⟩
      exact ⟨_, hmoderate.binary64_eq, abs_nearest_sub_le hmoderate⟩
  have hsum : (ns : ℚ) / 1000000000 =
      (ns / 1000000000 : ℕ) + ((ns % 1000000000 : ℕ) : ℚ) / 1000000000 := by
    rw [div_eq_iff (by norm_num), add_mul, div_mul_cancel₀ _ (by norm_num)]
    exact_mod_cast (Nat.div_add_mod' ns 1000000000).symm
  have hwhole : (0 : ℚ) ≤ (ns / 1000000000 : ℕ) := Nat.cast_nonneg _
  rw [abs_le] at hfraction
  have hmoderate : Moderate (((ns / 1000000000 : ℕ) : ℚ) + f) := ⟨by linarith, by linarith⟩
  have hnear := abs_le.mp (abs_nearest_sub_le hmoderate)
  refine ⟨nearest (((ns / 1000000000 : ℕ) : ℚ) + f), ?_, ?_⟩
  · rw [seconds_eq hns, hf, Number.add, hmoderate.binary64_eq]
  · rw [hns, Int.cast_natCast, abs_le]
    constructor <;> linarith

/-- The roundings of a throughput. -/
theorem throughput_near {n : ℕ} {d : Int64} (hn : 0 < n) (hn' : n < 2 ^ 53) (hpos : 0 < d.toInt) :
    ∃ y, Number.div (binary64 n) (seconds d) = .finite y ∧ Near y (n * 1000000000 / d.toInt) := by
  obtain ⟨s, hs, hseconds⟩ := seconds_near hpos
  have hlow : (1 : ℚ) ≤ d.toInt := by exact_mod_cast hpos
  have hhigh : (d.toInt : ℚ) < 2 ^ 63 := by exact_mod_cast Int64.toInt_lt d
  have hone : (1 : ℚ) ≤ n := by exact_mod_cast hn
  have hmany : (n : ℚ) < 2 ^ 53 := by exact_mod_cast hn'
  have hscale : (n : ℚ) * 1000000000 / d.toInt = n / (d.toInt / 1000000000) := by field_simp
  obtain ⟨hspos, hdivision⟩ := abs_div_sub_div_le (a := n) (by linarith) (by linarith) hseconds
  obtain ⟨hsmall, hlarge⟩ := div_bounds (b := (d.toInt : ℚ) / 1000000000) hone (by linarith)
    (by linarith) (by linarith)
  rw [abs_le] at hdivision
  have hmoderate : Moderate (n / s) := ⟨by linarith, by linarith⟩
  have hnear := abs_le.mp (abs_nearest_sub_le hmoderate)
  refine ⟨nearest (n / s), ?_, ?_⟩
  · rw [hs, binary64_natCast hn', Number.div, if_neg hspos.ne', hmoderate.binary64_eq]
  · rw [Near, hscale, abs_le]
    constructor <;> linarith

end BulkTraffic.GoEngine.Consumer
