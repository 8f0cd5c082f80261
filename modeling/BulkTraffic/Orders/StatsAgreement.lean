import BulkTraffic.GoEngine.ConsumerStats
import BulkTraffic.Orders.ConsumerStats

/-!
# The two consumers' statistics agree

The Node consumer and the Go consumer count the same successes and failures. Each is run over the
same outcomes, with summaries made in between. `Tally` is what both of them keep, whatever they
measure in.

* `nodeRun_holds`, `goRun_holds`: what the statistics hold after any outcomes.
* `summaries_agree`: the counts are the same, the percentiles are the same sample, and the
  throughputs are the same number up to the roundings.
-/

namespace BulkTraffic.Orders.StatsAgreement

open BulkTraffic.GoEngine BulkTraffic.Js BulkTraffic.Lib

/-- A message has been processed. -/
structure Success where
  partition : ℕ
  latency : Int64
  completedAt : TimeValue

/-- What a consumer's statistics go through. -/
inductive Outcome where
  /-- `process` returns. -/
  | success (s : Success)
  /-- `process` throws. -/
  | failure
  /-- A summary is made. -/
  | report

/-- The messages that have been processed. -/
def successes (os : List Outcome) : List Success :=
  os.filterMap fun
    | .success s => some s
    | _ => none

/-- How many messages were processed with an error. -/
def failures (os : List Outcome) : ℕ :=
  os.countP fun
    | .failure => true
    | _ => false

/-- A duration in milliseconds. -/
def inMs (d : Int64) : ℚ := d.toInt / 1000000

/-! ### The two consumers -/

/-- The Node consumer's statistics at first. -/
def nodeStart : ConsumerStats × Arrays Number := (⟨0, 0, .empty, none, none, 0⟩, [[]])

/-- The Node consumer. It measures in milliseconds. -/
def nodeStep (c : ConsumerStats × Arrays Number) : Outcome → ConsumerStats × Arrays Number
  | .success s => recordSuccess s.partition (binary64 (inMs s.latency)) s.completedAt c.1 c.2
  | .failure => (recordFailure c.1, c.2)
  | .report => (c.1, (summarizePerformance c.1 c.2).2)

def nodeRun (os : List Outcome) : ConsumerStats × Arrays Number := os.foldl nodeStep nodeStart

section Go

variable (range : List (ℕ × ℕ) → List (ℕ × ℕ)) (consumerID : String)

/-- `NewStats(consumerID)`. -/
def goStart : Consumer.Stats × Arrays Int64 := (⟨consumerID, 0, 0, .empty, 0, 0, 0⟩, [[]])

/-- The Go consumer. It measures in nanoseconds. -/
def goStep (c : Consumer.Stats × Arrays Int64) : Outcome → Consumer.Stats × Arrays Int64
  | .success s => c.1.recordSuccess s.partition s.latency (Consumer.unixMilli s.completedAt.ms) c.2
  | .failure => (c.1.recordFailure, c.2)
  | .report => (c.1, (c.1.snapshot range c.2).2)

def goRun (os : List Outcome) : Consumer.Stats × Arrays Int64 := os.foldl (goStep range) (goStart consumerID)

end Go

/-! ### What both of them keep -/

/-- The count of a partition, if it has one. -/
def partitionCount (ss : List Success) (partition : ℕ) : Option ℕ :=
  if ss.countP (fun s => s.partition = partition) = 0 then none
  else some (ss.countP fun s => s.partition = partition)

/-- The latencies of the messages that have been processed. -/
def latencies (os : List Outcome) : List Int64 := (successes os).map Success.latency

/-- The statistics of a consumer, whatever it measures times and latencies in. -/
structure Tally (τ μ : Type) where
  processed : ℕ
  failed : ℕ
  counts : JsMap ℕ ℕ
  first : τ
  last : τ
  samples : List μ

theorem successes_append (os os' : List Outcome) : successes (os ++ os') = successes os ++ successes os' :=
  List.filterMap_append

theorem failures_append (os os' : List Outcome) : failures (os ++ os') = failures os + failures os' :=
  List.countP_append

theorem successes_success (os : List Outcome) (s : Success) :
    successes (os ++ [.success s]) = successes os ++ [s] := successes_append os _

/-- Nothing but a success is one. -/
theorem successes_concat (os : List Outcome) {o : Outcome} (h : ∀ s, o ≠ .success s) :
    successes (os ++ [o]) = successes os := by
  rw [successes_append]
  cases o with
  | success s => exact absurd rfl (h s)
  | failure => exact List.append_nil _
  | report => exact List.append_nil _

/-- The first success stays the first. -/
theorem head?_concat {α : Type*} (l : List α) (a : α) :
    (l ++ [a]).head? = if l.length = 0 then some a else l.head? := by
  cases l with
  | nil => rfl
  | cons b l => rfl

theorem partitionCount_concat (ss : List Success) (s : Success) (partition : ℕ) :
    partitionCount (ss ++ [s]) partition =
      if s.partition = partition then some ((partitionCount ss partition).getD 0 + 1)
      else partitionCount ss partition := by
  rw [partitionCount, partitionCount, List.countP_append, List.countP_singleton]
  by_cases heq : s.partition = partition
  · by_cases hzero : ss.countP (fun t => t.partition = partition) = 0
    · simp [heq, hzero]
    · simp [heq, hzero]
  · simp [heq]

section Tally

variable {τ μ : Type} (zero : τ) (time : TimeValue → τ) (measure : Int64 → μ)

/-- What an outcome does to them. -/
def Tally.next (t : Tally τ μ) : Outcome → Tally τ μ
  | .success s =>
    { processed := t.processed + 1
      failed := t.failed
      counts := t.counts.set s.partition ((t.counts.get? s.partition).getD 0 + 1)
      first := if t.processed = 0 then time s.completedAt else t.first
      last := time s.completedAt
      samples := t.samples ++ [measure s.latency] }
  | .failure => { t with failed := t.failed + 1 }
  | .report => t

/-- The statistics hold what has happened; the times are `zero` before the first success. -/
structure Tally.Holds (os : List Outcome) (t : Tally τ μ) : Prop where
  processed : t.processed = (successes os).length
  failed : t.failed = failures os
  partitions : ∀ partition, t.counts.get? partition = partitionCount (successes os) partition
  sum : t.counts.values.sum = (successes os).length
  first : t.first = ((successes os).head?.map fun s => time s.completedAt).getD zero
  last : t.last = ((successes os).getLast?.map fun s => time s.completedAt).getD zero
  samples : t.samples = (latencies os).map measure

variable {zero time measure} {os : List Outcome} {t : Tally τ μ}

theorem Tally.Holds.success (h : t.Holds zero time measure os) (s : Success) :
    (t.next time measure (.success s)).Holds zero time measure (os ++ [.success s]) where
  processed := by
    rw [successes_success, List.length_append, ← h.processed]
    rfl
  failed := by
    rw [failures_append, ← h.failed]
    rfl
  partitions := by
    intro partition
    rw [successes_success, partitionCount_concat, next, JsMap.get?_set, h.partitions, h.partitions]
    split_ifs with heq
    · rw [heq]
    · rfl
  sum := by
    rw [successes_success, List.length_append, ← h.sum]
    exact JsMap.sum_values_set_succ _ _
  first := by
    rw [successes_success, head?_concat, next, h.processed, h.first]
    split <;> rfl
  last := by
    rw [successes_success, List.getLast?_concat]
    rfl
  samples := by
    rw [latencies, successes_success, List.map_append, List.map_append, ← latencies, ← h.samples]
    rfl

/-- What is not a success changes the failures only. -/
theorem Tally.Holds.quiet (h : t.Holds zero time measure os) {os' : List Outcome} {n : ℕ}
    (hsame : successes os' = successes os) (hfailed : n = failures os') :
    Tally.Holds zero time measure os' { t with failed := n } where
  processed := by rw [hsame]; exact h.processed
  failed := hfailed
  partitions := by rw [hsame]; exact h.partitions
  sum := by rw [hsame]; exact h.sum
  first := by rw [hsame]; exact h.first
  last := by rw [hsame]; exact h.last
  samples := by rw [latencies, hsame]; exact h.samples

theorem Tally.Holds.next (h : t.Holds zero time measure os) (o : Outcome) :
    (t.next time measure o).Holds zero time measure (os ++ [o]) := by
  cases o with
  | success s => exact h.success s
  | failure =>
    apply h.quiet (successes_concat os fun s hs => Outcome.noConfusion hs)
    rw [failures_append, ← h.failed]
    rfl
  | report =>
    apply h.quiet (successes_concat os fun s hs => Outcome.noConfusion hs)
    rw [failures_append, ← h.failed]
    rfl

end Tally

/-! ### What the two consumers keep -/

/-- The Node consumer's statistics. -/
def nodeTally (c : ConsumerStats × Arrays Number) : Tally (Option TimeValue) Number where
  processed := c.1.processed
  failed := c.1.failed
  counts := c.1.partitionCounts
  first := c.1.firstProcessedAt
  last := c.1.lastProcessedAt
  samples := c.2.read c.1.latenciesMs

/-- The Go consumer's statistics. -/
def goTally (c : Consumer.Stats × Arrays Int64) : Tally ℤ Int64 where
  processed := c.1.processed
  failed := c.1.failed
  counts := c.1.partitionCounts
  first := c.1.firstProcessed
  last := c.1.lastProcessed
  samples := c.2.read c.1.latencies

theorem prefix_summarizePerformance (stats : ConsumerStats) (arrays : Arrays Number) :
    arrays <+: (summarizePerformance stats arrays).2 :=
  (prefix_percentileMs _ 50 arrays).trans (prefix_percentileMs _ 95 _)

theorem prefix_snapshot (range : List (ℕ × ℕ) → List (ℕ × ℕ)) (s : Consumer.Stats)
    (arrays : Arrays Int64) : arrays <+: (s.snapshot range arrays).2 :=
  (Consumer.prefix_percentile _ 50 arrays).trans (Consumer.prefix_percentile _ 95 _)

/-- The array of the latencies is there, and the Node consumer's statistics hold what has happened. -/
structure NodeHolds (os : List Outcome) (c : ConsumerStats × Arrays Number) : Prop where
  named : c.1.latenciesMs < c.2.length
  tally : (nodeTally c).Holds none (fun t => some t) (fun d => binary64 (inMs d)) os

/-- The same of the Go consumer, whose times are zero before the first success. -/
structure GoHolds (os : List Outcome) (c : Consumer.Stats × Arrays Int64) : Prop where
  named : c.1.latencies < c.2.length
  tally : (goTally c).Holds 0 (fun t => Consumer.unixMilli t.ms) id os

theorem GoHolds.samples {os : List Outcome} {c : Consumer.Stats × Arrays Int64} (h : GoHolds os c) :
    c.2.read c.1.latencies = latencies os := h.tally.samples.trans (List.map_id _)

/-- A report makes arrays, and leaves the one with the latencies as it is. -/
theorem nodeTally_nodeStep {c : ConsumerStats × Arrays Number} (h : c.1.latenciesMs < c.2.length)
    (o : Outcome) :
    nodeTally (nodeStep c o) = (nodeTally c).next (fun t => some t) (fun d => binary64 (inMs d)) o := by
  cases o with
  | success s =>
    rw [nodeStep, recordSuccess_eq, nodeTally]
    dsimp only
    rw [Arrays.read_update _ h]
    rfl
  | failure => rfl
  | report =>
    rw [nodeStep, nodeTally, Arrays.read_of_isPrefix (prefix_summarizePerformance c.1 c.2) h]
    rfl

theorem named_nodeStep {c : ConsumerStats × Arrays Number} (h : c.1.latenciesMs < c.2.length)
    (o : Outcome) : (nodeStep c o).1.latenciesMs < (nodeStep c o).2.length := by
  cases o with
  | success s =>
    rw [nodeStep, recordSuccess_eq, Arrays.length_update]
    exact h
  | failure => exact h
  | report => exact h.trans_le (prefix_summarizePerformance c.1 c.2).length_le

theorem nodeRun_holds (os : List Outcome) : NodeHolds os (nodeRun os) := by
  induction os using List.reverseRecOn with
  | nil => exact ⟨Nat.one_pos, rfl, rfl, fun _ => rfl, rfl, rfl, rfl, rfl⟩
  | append_singleton os o ih =>
    rw [nodeRun, List.foldl_append]
    refine ⟨named_nodeStep ih.named o, ?_⟩
    show (nodeTally (nodeStep (nodeRun os) o)).Holds _ _ _ _
    rw [nodeTally_nodeStep ih.named]
    exact ih.tally.next o

section Go

variable {range : List (ℕ × ℕ) → List (ℕ × ℕ)} {c : Consumer.Stats × Arrays Int64}

theorem goTally_goStep (h : c.1.latencies < c.2.length) (o : Outcome) :
    goTally (goStep range c o) = (goTally c).next (fun t => Consumer.unixMilli t.ms) id o := by
  cases o with
  | success s =>
    rw [goStep, Consumer.Stats.recordSuccess_eq, goTally]
    dsimp only
    rw [Arrays.read_update _ h]
    rfl
  | failure => rfl
  | report =>
    rw [goStep, goTally, Arrays.read_of_isPrefix (prefix_snapshot range c.1 c.2) h]
    rfl

theorem named_goStep (h : c.1.latencies < c.2.length) (o : Outcome) :
    (goStep range c o).1.latencies < (goStep range c o).2.length := by
  cases o with
  | success s =>
    rw [goStep, Consumer.Stats.recordSuccess_eq, Arrays.length_update]
    exact h
  | failure => exact h
  | report => exact h.trans_le (prefix_snapshot range c.1 c.2).length_le

theorem goRun_holds (consumerID : String) (os : List Outcome) : GoHolds os (goRun range consumerID os) := by
  induction os using List.reverseRecOn with
  | nil => exact ⟨Nat.one_pos, rfl, rfl, fun _ => rfl, rfl, rfl, rfl, rfl⟩
  | append_singleton os o ih =>
    rw [goRun, List.foldl_append]
    refine ⟨named_goStep ih.named o, ?_⟩
    show (goTally (goStep range (goRun range consumerID os) o)).Holds _ _ _ _
    rw [goTally_goStep ih.named]
    exact ih.tally.next o

end Go

/-! ### The percentiles -/

/-- The percentiles of the two summaries: missing without a sample, and otherwise one and the same
sample, in milliseconds and in nanoseconds. -/
inductive SamePercentile (p : ℕ) (durations : List Int64) : Option Number → Option Int64 → Prop where
  | missing : durations = [] → SamePercentile p durations none none
  | sample (d : Int64) :
      IsNearestRank p (durations.map Int64.toInt) d.toInt →
      IsNearestRank p (durations.map fun d => nearest (inMs d)) (nearest (inMs d)) →
      SamePercentile p durations (some (binary64 (inMs d))) (some d)

theorem binary64_inMs (d : Int64) : binary64 (inMs d) = .finite (nearest (inMs d)) := by
  have hlow : (-2 ^ 63 : ℚ) ≤ d.toInt := by exact_mod_cast Int64.le_toInt d
  have hhigh : (d.toInt : ℚ) < 2 ^ 63 := by exact_mod_cast Int64.toInt_lt d
  apply binary64_eq_nearest
  calc |inMs d| ≤ 2 ^ 200 := by
        rw [abs_le, inMs]
        constructor <;> linarith
    _ ≤ pow2 1023 := Moderate.le_pow2 ⟨by norm_num, le_rfl⟩

theorem inMs_mono {y z : ℤ} (h : y ≤ z) : nearest ((y : ℚ) / 1000000) ≤ nearest ((z : ℚ) / 1000000) := by
  apply nearest_mono
  have hle : (y : ℚ) ≤ z := by exact_mod_cast h
  linarith

theorem samePercentile {p : ℕ} {durations : List Int64} {na : Arrays Number} {ga : Arrays Int64} {nr gr : ℕ}
    (hp : 0 < p) (hle : p ≤ 100) (hlt : durations.length < 2 ^ 32)
    (hn : na.read nr = durations.map fun d => binary64 (inMs d)) (hg : ga.read gr = durations) :
    SamePercentile p durations (percentileMs nr p na).1 (Consumer.percentile gr p ga).1 := by
  by_cases hnil : durations = []
  · subst hnil
    rw [percentileMs_eq_none hn, Consumer.percentile_eq_none hg]
    exact .missing rfl
  · obtain ⟨d, hd, hgo⟩ := Consumer.percentile_spec hp hle (by rwa [hg])
    obtain ⟨q, hq, hnode⟩ := percentileMs_spec (p := p) (l := durations.map inMs)
      (by rw [hn, List.map_map]; exact List.map_congr_left fun d _ => binary64_inMs d)
      (by rwa [List.length_map]) hp hle (mt List.map_eq_nil_iff.mp hnil)
    -- the Go sample, in milliseconds, is the percentile of the Node samples
    have himage := hgo.map fun _ _ h => inMs_mono h
    rw [hg, List.map_map] at himage
    rw [List.map_map] at hnode
    have hsame : q = nearest (inMs d) := hnode.unique himage
    rw [hd, hq, hsame, ← binary64_inMs]
    rw [hg] at hgo
    exact .sample d hgo himage

/-! ### The throughputs -/

/-- The milliseconds from the first success to the last. -/
def spanMs (ss : List Success) : ℤ :=
  match ss.head?, ss.getLast? with
  | some first, some last => last.completedAt.ms - first.completedAt.ms
  | _, _ => 0

/-- The throughputs of the two summaries: missing unless two successes span a positive time, and
otherwise near to the quotient of the successes and the seconds. A duration is at most `2 ^ 63 - 1`
nanoseconds. -/
inductive SameThroughput (count : ℕ) (span : ℤ) : Option Number → Option Number → Prop where
  | missing : ¬ (1 < count ∧ 0 < span) → SameThroughput count span none none
  | measured (x y : ℚ) : 1 < count → 0 < span → Near x (count * 1000 / span) →
      Near y (count * 1000000000 / (min (2 ^ 63 - 1) (span * 1000000) : ℤ)) →
      SameThroughput count span (some (.finite x)) (some (.finite y))

/-- What `summarizePerformance` makes of the times. -/
theorem throughputPerSec_span {n : ℕ} {first last : TimeValue} (hn : 1 < n) (hlt : n < 2 ^ 53)
    (h : first.ms < last.ms) :
    ∃ x, throughputPerSec n (Number.sub (.finite last.ms) (.finite first.ms)) = some (.finite x) ∧
      Near x (n * 1000 / (last.ms - first.ms : ℤ)) := by
  have hfirst := first.bounded
  have hlast := last.bounded
  have hone : (1 : ℚ) ≤ (last.ms - first.ms : ℤ) := by exact_mod_cast (by omega : 1 ≤ last.ms - first.ms)
  have hmany : ((last.ms - first.ms : ℤ) : ℚ) ≤ 2 ^ 60 := by
    exact_mod_cast (by omega : last.ms - first.ms ≤ 2 ^ 60)
  have hmoderate : Moderate ((last.ms - first.ms : ℤ) : ℚ) := ⟨by linarith, by linarith⟩
  have hnear := abs_nearest_sub_le hmoderate
  have hsub : Number.sub (.finite last.ms) (.finite first.ms) =
      .finite (nearest ((last.ms - first.ms : ℤ) : ℚ)) := by
    rw [← hmoderate.binary64_eq, Int.cast_sub]
    rfl
  rw [hsub]
  exact throughputPerSec_near (by omega) hlt hone hmany (hnear.trans (by linarith))

theorem throughputPerSec_of_eq {n : ℕ} {first last : TimeValue} (h : first.ms = last.ms) :
    throughputPerSec n (Number.sub (.finite last.ms) (.finite first.ms)) = none := by
  rw [h, Number.sub, sub_self]
  rfl

/-- The elapsed time of a snapshot. -/
theorem toInt_sub_unixMilli {first last : TimeValue} (h : first.ms ≤ last.ms) :
    (Consumer.sub (Consumer.unixMilli last.ms) (Consumer.unixMilli first.ms)).toInt =
      min (2 ^ 63 - 1) ((last.ms - first.ms) * 1000000) := by
  rw [Consumer.toInt_sub (by rw [Consumer.unixMilli, Consumer.unixMilli]; omega), Consumer.unixMilli,
    Consumer.unixMilli]
  omega

/-- The completion times do not decrease. -/
def TimesSorted (os : List Outcome) : Prop :=
  (successes os).Pairwise fun s t => s.completedAt.ms ≤ t.completedAt.ms

theorem first_le_last {ss : List Success}
    (h : ss.Pairwise fun s t => s.completedAt.ms ≤ t.completedAt.ms) {first last : Success}
    (hfirst : ss.head? = some first) (hlast : ss.getLast? = some last) :
    first.completedAt.ms ≤ last.completedAt.ms := by
  cases ss with
  | nil => cases hfirst
  | cons s ss =>
    obtain rfl := Option.some.inj hfirst
    rcases List.mem_cons.mp (List.mem_of_getLast? hlast) with rfl | hmem
    · exact le_rfl
    · exact List.rel_of_pairwise_cons h hmem

theorem sameThroughput {os : List Outcome} {node : ConsumerStats × Arrays Number}
    {go : Consumer.Stats × Arrays Int64} (range : List (ℕ × ℕ) → List (ℕ × ℕ)) (hnode : NodeHolds os node)
    (hgo : GoHolds os go) (hlt : (successes os).length < 2 ^ 53) (htimes : TimesSorted os) :
    SameThroughput (successes os).length (spanMs (successes os))
      (summarizePerformance node.1 node.2).1.throughputPerSec
      (go.1.snapshot range go.2).1.throughput := by
  have hprocessed : node.1.processed = (successes os).length := hnode.tally.processed
  have hprocessed' : go.1.processed = (successes os).length := hgo.tally.processed
  have hstart : node.1.firstProcessedAt = _ := hnode.tally.first
  have hstart' : go.1.firstProcessed = _ := hgo.tally.first
  have hend : node.1.lastProcessedAt = _ := hnode.tally.last
  have hend' : go.1.lastProcessed = _ := hgo.tally.last
  rw [summarizePerformance_throughputPerSec, Consumer.Stats.snapshot_throughput, hprocessed, hprocessed',
    hstart, hend, hstart', hend']
  by_cases hmany : 1 < (successes os).length
  · have hne : successes os ≠ [] := List.ne_nil_of_length_pos (by omega)
    obtain ⟨first, hfirst⟩ := Option.isSome_iff_exists.mp (List.isSome_head?.mpr hne)
    obtain ⟨last, hlast⟩ := Option.isSome_iff_exists.mp (List.getLast?_isSome.mpr hne)
    have hle := first_le_last htimes hfirst hlast
    have hspan : spanMs (successes os) = last.completedAt.ms - first.completedAt.ms := by
      rw [spanMs, hfirst, hlast]
    have helapsed := toInt_sub_unixMilli hle
    rw [hfirst, hlast, hspan]
    simp only [Option.map_some, Option.getD_some, if_pos hmany, Int64.lt_iff_toInt_lt,
      Int64.toInt_zero, helapsed]
    rcases hle.lt_or_eq with hspan | heq
    · obtain ⟨x, hx, hnear⟩ := throughputPerSec_span hmany hlt hspan
      have hpos : 0 < (Consumer.sub (Consumer.unixMilli last.completedAt.ms)
          (Consumer.unixMilli first.completedAt.ms)).toInt := by
        rw [helapsed]
        omega
      obtain ⟨y, hy, hnear'⟩ := Consumer.throughput_near (by omega) hlt hpos
      rw [if_pos ⟨hmany, by omega⟩, hx, hy]
      rw [helapsed] at hnear'
      exact .measured x y hmany (by omega) hnear hnear'
    · rw [throughputPerSec_of_eq heq, if_neg (by omega)]
      exact .missing (by omega)
  · rw [if_neg hmany, if_neg fun h => hmany h.1]
    exact .missing fun h => hmany h.1

/-! ### The summaries -/

/-- The summaries of the two consumers agree, and leave the latencies as they were recorded. -/
structure Agree (os : List Outcome) (node : ConsumerStats × Arrays Number)
    (performance : ConsumerPerformance × Arrays Number) (go : Consumer.Stats × Arrays Int64)
    (snapshot : Consumer.Snapshot × Arrays Int64) : Prop where
  processed : performance.1.processed = (successes os).length ∧
    snapshot.1.processed = (successes os).length
  failed : performance.1.failed = failures os ∧ snapshot.1.failed = failures os
  partitions : ∀ partition, node.1.partitionCounts.get? partition = partitionCount (successes os) partition ∧
    snapshot.1.partitionCounts.get? partition = partitionCount (successes os) partition
  sums : node.1.partitionCounts.values.sum = performance.1.processed ∧
    snapshot.1.partitionCounts.values.sum = snapshot.1.processed
  p50 : SamePercentile 50 (latencies os) performance.1.p50Ms snapshot.1.p50Latency
  p95 : SamePercentile 95 (latencies os) performance.1.p95Ms snapshot.1.p95Latency
  throughput : SameThroughput (successes os).length (spanMs (successes os))
    performance.1.throughputPerSec snapshot.1.throughput
  samples : performance.2.read node.1.latenciesMs = (latencies os).map (fun d => binary64 (inMs d)) ∧
    snapshot.2.read go.1.latencies = latencies os

/-- **The two consumers' statistics agree**, for as many successes as a JavaScript array holds. -/
theorem summaries_agree {range : List (ℕ × ℕ) → List (ℕ × ℕ)} (hrange : ∀ es, (range es).Perm es)
    (consumerID : String) {os : List Outcome} (hlt : (successes os).length < 2 ^ 32)
    (htimes : TimesSorted os) :
    let node := nodeRun os
    let go := goRun range consumerID os
    Agree os node (summarizePerformance node.1 node.2) go (go.1.snapshot range go.2) := by
  intro node go
  have hnode : NodeHolds os node := nodeRun_holds os
  have hgo : GoHolds os go := goRun_holds consumerID os
  have hentries := Consumer.Stats.entries_snapshot hrange go.1 go.2
  have hperm := hrange go.1.partitionCounts.entries
  rw [← hentries] at hperm
  have hcount : (latencies os).length < 2 ^ 32 := by rwa [latencies, List.length_map]
  have hnode' := prefix_percentileMs node.1.latenciesMs 50 node.2
  have hgo' := Consumer.prefix_percentile go.1.latencies 50 go.2
  exact
    { processed := ⟨hnode.tally.processed, hgo.tally.processed⟩
      failed := ⟨hnode.tally.failed, hgo.tally.failed⟩
      partitions := fun partition =>
        ⟨hnode.tally.partitions partition,
          (JsMap.get?_of_perm hperm partition).trans (hgo.tally.partitions partition)⟩
      sums :=
        ⟨hnode.tally.sum.trans hnode.tally.processed.symm,
          ((hperm.map Prod.snd).sum_eq.trans hgo.tally.sum).trans hgo.tally.processed.symm⟩
      p50 := samePercentile (by decide) (by decide) hcount hnode.tally.samples hgo.samples
      p95 := samePercentile (by decide) (by decide) hcount
        ((Arrays.read_of_isPrefix hnode' hnode.named).trans hnode.tally.samples)
        ((Arrays.read_of_isPrefix hgo' hgo.named).trans hgo.samples)
      throughput := sameThroughput range hnode hgo (by omega) htimes
      samples :=
        ⟨(Arrays.read_of_isPrefix (prefix_summarizePerformance _ _) hnode.named).trans hnode.tally.samples,
          (Arrays.read_of_isPrefix (prefix_snapshot range _ _) hgo.named).trans hgo.samples⟩ }

/-- Two successes, 9 milliseconds apart, with a failure and a report in between. -/
def nineMs : List Outcome :=
  [.success ⟨0, 1500000, .epoch⟩, .failure, .report, .success ⟨2, 250000, ⟨9, by decide⟩⟩]

theorem summaries_agree_nineMs :
    let node := nodeRun nineMs
    let go := goRun id "go-1" nineMs
    Agree nineMs node (summarizePerformance node.1 node.2) go (go.1.snapshot id go.2) :=
  summaries_agree (fun es => List.Perm.refl es) "go-1" (by decide)
    (by rw [TimesSorted]; decide)

/-- One rounds a quotient and a product, the other a number of seconds and a quotient: the
throughputs differ in their last bit. -/
theorem throughputs_differ :
    let node := nodeRun nineMs
    let go := goRun id "go-1" nineMs
    TimesSorted nineMs ∧ (summarizePerformance node.1 node.2).1.throughputPerSec ≠
      (go.1.snapshot id go.2).1.throughput := by
  refine ⟨?_, ?_⟩
  · rw [TimesSorted]
    decide
  · decide +kernel

end BulkTraffic.Orders.StatsAgreement
