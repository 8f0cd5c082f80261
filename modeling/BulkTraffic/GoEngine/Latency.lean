import Mathlib.Data.List.DropRight
import BulkTraffic.GoEngine.Pool
import BulkTraffic.Js.Number
import BulkTraffic.Lib.NearestRank
import BulkTraffic.Lib.Runs

/-!
# The latencies a pool reports

`recordLatency` keeps the last thousand latencies and `P99LatencyMs` sorts a copy of them and picks
a position. Both are right: `p99LatencyMs_window`. But `Pool.GetStats` copies the counters into a
new `Stats` and leaves the latencies out, and the server asks that copy.

* `sortInt64s_spec`: the insertion loops sort.
* `window_step`: the pool's latencies are the last thousand of its successful tasks.
* `reportsP99_iff`: what the server reports is the 99th percentile exactly when at least 99 per cent
  of these latencies are `0`.
-/

namespace BulkTraffic.GoEngine

open BulkTraffic.Lib
open BulkTraffic.Js

/-! ### `sortInt64s` -/

/-- The inner loop of `sortInt64s`, at `j = hole - 1`: greater elements move up by one. It returns
`j + 1` with the slice. -/
def shift (key : ℕ) : ℕ → List ℕ → ℕ × List ℕ
  | 0, a => (0, a)
  | hole + 1, a =>
    if key < a.getD hole 0 then shift key hole (a.set (hole + 1) (a.getD hole 0)) else (hole + 1, a)

/-- The body of the outer loop of `sortInt64s`. -/
def insertKey (a : List ℕ) (i : ℕ) : List ℕ :=
  let key := a.getD i 0
  let (hole, shifted) := shift key i a
  shifted.set hole key

/-- `sortInt64s(a)`. -/
def sortInt64s (a : List ℕ) : List ℕ := (List.range' 1 (a.length - 1)).foldl insertKey a

/-- An insertion from behind: `key` comes after the last element that is not greater. -/
def insertBehind (key : ℕ) (sorted : List ℕ) : List ℕ :=
  (sorted.reverse.orderedInsert (· ≥ ·) key).reverse

theorem perm_insertBehind (key : ℕ) (sorted : List ℕ) :
    (insertBehind key sorted).Perm (key :: sorted) :=
  calc (insertBehind key sorted).Perm (sorted.reverse.orderedInsert (· ≥ ·) key) :=
        List.reverse_perm _
    _ |>.Perm (key :: sorted.reverse) := List.perm_orderedInsert _ key _
    _ |>.Perm (key :: sorted) := (List.reverse_perm sorted).cons key

theorem sorted_insertBehind (key : ℕ) {sorted : List ℕ} (h : sorted.Pairwise (· ≤ ·)) :
    (insertBehind key sorted).Pairwise (· ≤ ·) := by
  rw [insertBehind, List.pairwise_reverse]
  apply List.Pairwise.orderedInsert
  rw [List.pairwise_reverse]
  exact h

theorem insertBehind_concat (key y : ℕ) (sorted : List ℕ) :
    insertBehind key (sorted ++ [y]) =
      if key < y then insertBehind key sorted ++ [y] else sorted ++ [y, key] := by
  simp only [insertBehind, List.reverse_append, List.reverse_singleton, List.singleton_append,
    List.orderedInsert_cons, ge_iff_le]
  split_ifs with hle hlt hlt
  · omega
  · simp
  · simp
  · omega

/-- **The inner loop inserts**: with `x` at the hole, the elements before it stay sorted around
`key` and the elements behind it stay. -/
theorem set_shift (key : ℕ) (sorted : List ℕ) (x : ℕ) (rest : List ℕ) :
    let r := shift key sorted.length (sorted ++ x :: rest)
    r.2.set r.1 key = insertBehind key sorted ++ rest := by
  induction sorted using List.reverseRecOn generalizing x rest with
  | nil => rfl
  | append_singleton sorted y ih =>
    rw [List.length_append, List.length_singleton, shift]
    have hlast : (sorted ++ [y] ++ x :: rest).getD sorted.length 0 = y := by simp
    have hmoved : (sorted ++ [y] ++ x :: rest).set (sorted.length + 1) y =
        sorted ++ y :: y :: rest := by
      simp
    rw [hlast, hmoved, insertBehind_concat]
    by_cases hlt : key < y
    · rw [if_pos hlt, if_pos hlt, List.append_assoc, List.singleton_append]
      exact ih y (y :: rest)
    · rw [if_neg hlt, if_neg hlt]
      simp

theorem insertKey_append (sorted : List ℕ) (x : ℕ) (rest : List ℕ) :
    insertKey (sorted ++ x :: rest) sorted.length = insertBehind x sorted ++ rest := by
  have hkey : (sorted ++ x :: rest).getD sorted.length 0 = x := by simp
  rw [insertKey, hkey]
  exact set_shift x sorted x rest

/-- The outer loop, from a sorted part on. -/
theorem foldl_insertKey {sorted : List ℕ} (h : sorted.Pairwise (· ≤ ·)) (rest : List ℕ) :
    let a := (List.range' sorted.length rest.length).foldl insertKey (sorted ++ rest)
    a.Pairwise (· ≤ ·) ∧ a.Perm (sorted ++ rest) := by
  induction rest generalizing sorted with
  | nil => simpa using h
  | cons x rest ih =>
    have hperm := perm_insertBehind x sorted
    have hlength : (insertBehind x sorted).length = sorted.length + 1 := hperm.length_eq
    obtain ⟨hsorted, hrest⟩ := ih (sorted_insertBehind x h)
    rw [hlength] at hsorted hrest
    dsimp only
    rw [List.length_cons, List.range'_succ, List.foldl_cons, insertKey_append]
    exact ⟨hsorted, hrest.trans ((hperm.append_right rest).trans List.perm_middle.symm)⟩

/-- **`sortInt64s` sorts.** -/
theorem sortInt64s_spec (a : List ℕ) :
    (sortInt64s a).Pairwise (· ≤ ·) ∧ (sortInt64s a).Perm a := by
  cases a with
  | nil => exact ⟨.nil, .refl _⟩
  | cons x rest => exact foldl_insertKey (List.pairwise_singleton _ x) rest

/-! ### The statistics of the latencies -/

/-- `math.Ceil(x)`. -/
def ceil : Number → Number
  | .finite q => .finite q.ceil
  | x => x

/-- `int(math.Ceil(float64(n)*0.99)) - 1`, at most `n - 1`. -/
def p99Index (n : ℕ) : ℤ :=
  match (ceil (Number.mul (.finite n) (binary64 (mkRat 99 100)))).toInteger? with
  | some z => if (n : ℤ) ≤ z - 1 then n - 1 else z - 1
  | none => -1

namespace Stats

/-- `AvgLatencyMs()`. -/
def avgLatencyMs (s : Stats) : Number :=
  if s.processed = 0 then .finite 0
  else Number.div (binary64 s.totalLatency) (binary64 s.processed)

/-- `P99LatencyMs()`. -/
def p99LatencyMs (s : Stats) : Number :=
  let n := s.latencies.length
  if n = 0 then .finite 0
  else binary64 ((sortInt64s s.latencies).getD (p99Index n).toNat 0 : ℕ)

end Stats

/-- `0.99` is a little less than 99 hundredths. Its product with a length is rounded, but not past
an integer. -/
theorem exists_double_99_100 : ∃ m : ℕ, binary64 (mkRat 99 100) = .finite (m / 2 ^ 53) ∧
    ∀ n, 0 < n → n ≤ 1000 → 2 ^ 52 ≤ n * m ∧ n * m < 2 ^ 63 ∧
      ((99 * n + 99) / 100 - 1) * 2 ^ 53 < roundNat (n * m) ∧
      roundNat (n * m) ≤ (99 * n + 99) / 100 * 2 ^ 53 := by
  refine ⟨8917127262193582, by decide +kernel, fun n hpos hle => ⟨by omega, by omega, ?_⟩⟩
  by_cases hhundred : n % 100 = 0
  · obtain ⟨k, rfl⟩ := Nat.dvd_of_mod_eq_zero hhundred
    have hten : ∀ k ∈ List.range' 1 10, roundNat (100 * k * 8917127262193582) = 99 * k * 2 ^ 53 := by
      decide +kernel
    have hround := hten k (List.mem_range'_1.mpr (by omega))
    omega
  · have hlog : Nat.log2 (n * 8917127262193582) < 63 := (Nat.log2_lt (by omega)).mpr (by omega)
    have hunit : 2 ^ excessBits (n * 8917127262193582) ≤ 2 ^ 10 :=
      Nat.pow_le_pow_right (by omega) (by rw [excessBits]; omega)
    have hfraction : 99 * n ≠ 100 * ((99 * n + 99) / 100) := by omega
    obtain ⟨hlow, hhigh⟩ := roundNat_near (n * 8917127262193582)
    omega

theorem p99Index_of_ceil {n : ℕ} {z : ℤ} {x : Number}
    (h : ceil (Number.mul (.finite n) (binary64 (mkRat 99 100))) = x) (hx : x.toInteger? = some z)
    (hz : z ≤ n) : p99Index n = z - 1 := by
  -- unfolded without its argument, so that nothing evaluates the product of an unknown number
  have hdef : p99Index = fun n : ℕ =>
      match (ceil (Number.mul (.finite n) (binary64 (mkRat 99 100)))).toInteger? with
      | some z => if (n : ℤ) ≤ z - 1 then (n : ℤ) - 1 else z - 1
      | none => -1 := rfl
  rw [hdef]
  dsimp only
  rw [h, hx]
  exact if_neg (by omega)

/-- For as many latencies as are kept, the position is the exact one. -/
theorem p99Index_eq {n : ℕ} (hpos : 0 < n) (hle : n ≤ 1000) :
    p99Index n = ((99 * n + 99) / 100 : ℕ) - 1 := by
  obtain ⟨m, hdouble, hproducts⟩ := exists_double_99_100
  obtain ⟨hmin, hmax, hlow, hhigh⟩ := hproducts n hpos hle
  have hceil : Rat.ceil ((roundNat (n * m) : ℚ) / 2 ^ 53) = (((99 * n + 99) / 100 : ℕ) : ℤ) := by
    apply le_antisymm
    · rw [Rat.ceil_le_iff, div_le_iff₀ (by positivity)]
      exact_mod_cast hhigh
    · rw [← Int.sub_one_lt_iff, Rat.lt_ceil_iff, lt_div_iff₀ (by positivity)]
      have hcast : (((99 * n + 99) / 100 - 1 : ℕ) : ℤ) = ((99 * n + 99) / 100 : ℕ) - 1 := by omega
      rw [← hcast]
      exact_mod_cast hlow
  have hproduct : Number.mul (.finite n) (binary64 (mkRat 99 100)) =
      .finite ((roundNat (n * m) : ℚ) / 2 ^ 53) := by
    rw [hdouble]
    exact Number.mul_div_two_pow hmin (by omega) (by omega)
  apply p99Index_of_ceil
  · rw [hproduct, ceil, hceil]
  · rfl
  · omega

/-- **`P99LatencyMs` is the 99th percentile** of the latencies it is asked about. -/
theorem p99LatencyMs_spec {s : Stats} (hkept : s.latencies.length ≤ 1000) (hsome : s.latencies ≠ []) :
    ∃ v, IsNearestRank 99 s.latencies v ∧ s.p99LatencyMs = binary64 v := by
  have hpos : 0 < s.latencies.length := List.length_pos_iff.mpr hsome
  obtain ⟨hsorted, hperm⟩ := sortInt64s_spec s.latencies
  have hindex := p99Index_eq hpos hkept
  obtain ⟨k, hk⟩ : ∃ k : ℕ, p99Index s.latencies.length = k :=
    Int.eq_ofNat_of_zero_le (by omega)
  have hlength := hperm.length_eq
  have hin : k < (sortInt64s s.latencies).length := by omega
  have hrank : IsNearestRank 99 (sortInt64s s.latencies) (sortInt64s s.latencies)[k] := by
    apply isNearestRank_getElem
    · exact List.sortedLE_iff_pairwise.mpr hsorted
    · omega
    · omega
  refine ⟨_, hrank.perm hperm, ?_⟩
  rw [Stats.p99LatencyMs, if_neg hpos.ne', hk]
  simp [List.getD_eq_getElem?_getD, List.getElem?_eq_getElem hin]

/-! ### What the server reports -/

/-- A `Stats` as `GetStats` returns it; `QueueLength` is set nowhere else. -/
structure StatsSnapshot extends Stats where
  /-- `QueueLength`. -/
  queueLength : ℕ

/-- `GetStats()` of a pool: a new `Stats` with the counters. -/
def Pool.getStats (s : Pool) : StatsSnapshot where
  activeWorkers := s.stats.activeWorkers
  queueLength := s.queue.queueLen
  processed := s.stats.processed
  failed := s.stats.failed
  totalLatency := s.stats.totalLatency

/-- The latencies in `pb.PoolStats`. -/
structure ReportedLatencies where
  /-- `AvgLatencyMs`. -/
  avgLatencyMs : Number
  /-- `P99LatencyMs`. -/
  p99LatencyMs : Number

/-- `GRPCServer.GetStats(..)`, the latencies of one pool. -/
def Pool.reportedLatencies (s : Pool) : ReportedLatencies :=
  let stats := s.getStats
  { avgLatencyMs := stats.avgLatencyMs, p99LatencyMs := stats.p99LatencyMs }

/-! ### Runs -/

/-- The duration of a task that a step finds to have succeeded. -/
def WorkerEvent.succeeded : WorkerEvent → List ℕ
  | .finish (.ok _) duration => [duration]
  | _ => []

/-- The duration of a task that a step finds to have succeeded. -/
def PoolEvent.succeeded : PoolEvent → List ℕ
  | .callWorks _ e | .goroutineWorks _ e => e.succeeded
  | _ => []

/-- A pool, and how long its successful tasks took, in the order of their completion. -/
structure LatencyRun where
  /-- The pool. -/
  pool : Pool := {}
  /-- The durations. -/
  succeeded : List ℕ := []

namespace LatencyRun

/-- One step of the pool. -/
def step (config : PoolConfig) (s : LatencyRun) (e : PoolEvent) : Option LatencyRun :=
  (s.pool.step config e).map fun pool => { pool := pool, succeeded := s.succeeded ++ e.succeeded }

/-- The latencies of the last `1000` successful tasks. -/
def window (s : LatencyRun) : List ℕ := s.succeeded.rtake 1000

/-- A reported number is the 99th percentile of these latencies, and `0` without any. -/
structure IsP99 (s : LatencyRun) (reported : Number) : Prop where
  /-- No task has succeeded. -/
  zero : s.succeeded = [] → reported = .finite 0
  /-- Some task has succeeded. -/
  rank : s.succeeded ≠ [] → ∃ v : ℕ, IsNearestRank 99 s.window v ∧ reported = .finite v

variable {config : PoolConfig} {s u : LatencyRun}

/-! ### The window -/

theorem length_rtake (l : List ℕ) (n : ℕ) : (l.rtake n).length = min n l.length := by
  rw [List.rtake, List.length_drop]
  omega

/-- What is dropped early would be dropped late. -/
theorem rtake_rtake_append (l l' : List ℕ) (n : ℕ) :
    (l.rtake n ++ l').rtake n = (l ++ l').rtake n := by
  simp only [List.rtake, List.length_append, List.length_drop, List.drop_append, List.drop_drop]
  congr 2 <;> omega

theorem recordLatency_latencies (s : Stats) (ms : ℕ) :
    (s.recordLatency ms).latencies = (s.latencies ++ [ms]).rtake 1000 := by
  rw [Stats.recordLatency, List.rtake]

/-- A task that works records its duration when it succeeds. -/
theorem latencies_work {p t : Pool} {task : Task} {phase phase' : WorkerPhase} {e : WorkerEvent}
    (h : p.work task phase e = some (t, phase')) (hkept : p.stats.latencies.length ≤ 1000) :
    t.stats.latencies = (p.stats.latencies ++ e.succeeded).rtake 1000 := by
  have hall : (p.stats.latencies ++ []).rtake 1000 = p.stats.latencies := by
    rw [List.append_nil, List.rtake, Nat.sub_eq_zero_of_le hkept, List.drop_zero]
  unfold Pool.work at h
  split at h
  · cases h
    exact hall.symm
  · rename_i outcome duration
    cases h
    cases outcome with
    | error message => exact hall.symm
    | ok bytes => exact recordLatency_latencies _ duration
  · cases h
    exact hall.symm
  · cases h
    exact hall.symm
  · cases h

/-- **The pool keeps the last thousand latencies.** -/
theorem window_step {e : PoolEvent} (hs : s.pool.stats.latencies = s.window)
    (h : s.step config e = some u) : u.pool.stats.latencies = u.window := by
  obtain ⟨pool, hpool, rfl⟩ := Option.map_eq_some_iff.mp h
  have hkept : s.pool.stats.latencies.length ≤ 1000 := by
    rw [hs, window, length_rtake]
    omega
  have hwork : ∀ {t : Pool} {task : Task} {phase phase' : WorkerPhase} {e : WorkerEvent},
      s.pool.work task phase e = some (t, phase') →
        t.stats.latencies = (s.succeeded ++ e.succeeded).rtake 1000 := by
    intro t task phase phase' e hwork
    rw [latencies_work hwork hkept, hs, window, rtake_rtake_append]
  have hidle : s.pool.stats.latencies = (s.succeeded ++ []).rtake 1000 := by
    rw [List.append_nil]
    exact hs
  dsimp only [window]
  cases Pool.takes_of_step hpool with
  | callWorks _ hworks => exact (hwork hworks :)
  | goroutineWorks _ hworks => exact (hwork hworks :)
  | @granted | @denied => exact hidle
  | @dispatchWaited error => cases error <;> exact hidle
  | tick =>
    rw [Pool.tick]
    split <;> exact hidle
  | _ => exact hidle

theorem window_reachable (h : Reachable (step config) {} s) :
    s.pool.stats.latencies = s.window := by
  apply h.invariant
  · rfl
  · intro t e u ht _ hu
    exact window_step ht hu

theorem window_eq_nil_iff (s : LatencyRun) : s.window = [] ↔ s.succeeded = [] := by
  rw [← List.length_eq_zero_iff, ← List.length_eq_zero_iff, window, length_rtake]
  omega

/-- **The live statistics know the percentile**, in every run. -/
theorem p99LatencyMs_window (h : Reachable (step config) {} s) (hsome : s.succeeded ≠ []) {v : ℕ} :
    IsNearestRank 99 s.window v → s.pool.stats.p99LatencyMs = binary64 v := by
  have hwindow := window_reachable h
  have hkept : s.pool.stats.latencies.length ≤ 1000 := by
    rw [hwindow, window, length_rtake]
    omega
  have hnonempty : s.pool.stats.latencies ≠ [] := by
    rw [hwindow]
    exact mt s.window_eq_nil_iff.mp hsome
  obtain ⟨known, hknown, hcomputed⟩ := p99LatencyMs_spec hkept hnonempty
  intro hv
  rw [← hwindow] at hv
  rw [hcomputed, hknown.unique hv]

/-- The copy has no latencies. -/
theorem reportedLatencies_p99 (p : Pool) : p.reportedLatencies.p99LatencyMs = .finite 0 := rfl

/-- **The server reports the percentile exactly when it is `0`**: in every run, when at least 99 per
cent of the latencies that the pool keeps are. -/
theorem reportsP99_iff (h : Reachable (step config) {} s) :
    s.IsP99 s.pool.reportedLatencies.p99LatencyMs ↔
      99 * s.pool.stats.latencies.length ≤ 100 * s.pool.stats.latencies.countP (· = 0) := by
  have hzeros : s.window.countP (· = 0) = s.window.countP (· ≤ ⊥) :=
    List.countP_congr fun x _ => by simp
  rw [window_reachable h, hzeros, reportedLatencies_p99]
  by_cases hnone : s.succeeded = []
  · have hempty := s.window_eq_nil_iff.mpr hnone
    rw [hempty]
    exact ⟨fun _ => Nat.le_refl _, fun _ => ⟨fun _ => rfl, fun hsome => absurd hnone hsome⟩⟩
  · rw [← isNearestRank_bot_iff (by decide) (mt s.window_eq_nil_iff.mp hnone)]
    constructor
    · intro hright
      obtain ⟨v, hv, hreported⟩ := hright.rank hnone
      have hzero : v = 0 := by exact_mod_cast (Number.finite.inj hreported).symm
      rw [hzero] at hv
      exact hv
    · intro hrank
      exact ⟨fun hempty => absurd hempty hnone, fun _ => ⟨0, hrank, rfl⟩⟩

/-- A task that takes less than a millisecond. -/
theorem reportsP99_of_fast_task :
    let config : PoolConfig := { name := "test", workers := 1, maxQueue := 10 }
    ∃ s, Reachable (step config) {} s ∧ s.IsP99 s.pool.reportedLatencies.p99LatencyMs ∧
      s.succeeded = [0] := by
  intro config
  obtain ⟨s, hs, hseen⟩ := exists_reaches_of_runEvents (step config) (fun _ _ => True)
    (fun s => (s.pool.stats.latencies, s.succeeded)) (s := {})
    [.submitSync { id := "a" }, .check 0, .acquire 0, .callWorks 0 .start,
      .callWorks 0 (.finish (.ok []) 0)] ([0], [0]) (by decide +kernel)
  rw [Prod.mk.injEq] at hseen
  refine ⟨s, hs, (reportsP99_iff hs).mpr ?_, hseen.2⟩
  rw [hseen.1]
  decide

/-- A task that takes 250 milliseconds: the percentile is 250, and `0` is reported. -/
theorem reports_no_p99 :
    let config : PoolConfig := { name := "test", workers := 1, maxQueue := 10 }
    ∃ s, Reachable (step config) {} s ∧ s.succeeded = [250] ∧
      ¬ s.IsP99 s.pool.reportedLatencies.p99LatencyMs := by
  intro config
  obtain ⟨s, hs, hseen⟩ := exists_reaches_of_runEvents (step config) (fun _ _ => True)
    LatencyRun.succeeded (s := {})
    [.submitSync { id := "a" }, .check 0, .acquire 0, .callWorks 0 .start,
      .callWorks 0 (.finish (.ok []) 250)] [250] (by decide +kernel)
  refine ⟨s, hs, hseen, fun hright => ?_⟩
  obtain ⟨v, hv, hreported⟩ := hright.rank (by rw [hseen]; exact List.cons_ne_nil _ _)
  rw [reportedLatencies_p99] at hreported
  have hzero : v = 0 := by exact_mod_cast (Number.finite.inj hreported).symm
  have h250 : v = 250 := by simpa [window, hseen, List.rtake] using hv.mem
  omega

end LatencyRun

end BulkTraffic.GoEngine
