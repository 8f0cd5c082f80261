import BulkTraffic.GoEngine.ConsumerConfig
import BulkTraffic.GoEngine.Handlers

/-!
# The durations of the Go engine

Five durations are given in milliseconds: the deadline of a task in `SubmitSync` and in `dispatch`,
the wait of `IOHandler`, and the processing delay and the report interval of the consumer. None of
them is bounded from above.

* `ioDelay_covers_iff`: the wait of `IOHandler` covers a `delay_ms` that is whole and whose product
  does not wrap around.
* `durations_cover_iff`: which of the five cover what was asked for.
-/

namespace BulkTraffic.GoEngine

open BulkTraffic.Js Consumer

/-- `timeout` of `SubmitSync` and of `dispatch`: the task's, or the pool's. -/
def taskTimeout (poolTimeout timeoutMs : Int64) : Int64 :=
  if 0 < timeoutMs then milliseconds timeoutMs else poolTimeout

theorem taskTimeout_of_pos {poolTimeout timeoutMs : Int64} (h : 0 < timeoutMs) :
    taskTimeout poolTimeout timeoutMs = milliseconds timeoutMs :=
  if_pos h

theorem truncate_of_nonneg {f : ℚ} (h : 0 ≤ f) : truncate f = ⌊f⌋ := by
  rw [truncate, Int.tdiv_eq_ediv_of_nonneg (Rat.num_nonneg.mpr h), Rat.floor_def']

theorem ioDelay_of_field {runtime : GoRuntime} {payload : List UInt8} {f : ℚ}
    (hf : floatField (payloadOr runtime payload []) "delay_ms" = some f) :
    ioDelay runtime payload = milliseconds (runtime.int f) := by
  rw [ioDelay, intField, hf]

/-- The wait of `IOHandler` covers a `delay_ms` that is whole and does not make the product wrap
around, and no other one. -/
theorem ioDelay_covers_iff {runtime : GoRuntime} {payload : List UInt8} {f : ℚ}
    (hf : floatField (payloadOr runtime payload []) "delay_ms" = some f) (hnonneg : 0 ≤ f) :
    Covers (ioDelay runtime payload) f ↔ f.den = 1 ∧ f ≤ 9223372036854 := by
  have hfloor : (⌊f⌋ : ℚ) ≤ f := Int.floor_le f
  have hfloor0 : 0 ≤ ⌊f⌋ := Int.floor_nonneg.mpr hnonneg
  -- A number below the bound is converted to its floor, and the product does not wrap around.
  have hsmall : f ≤ 9223372036855 → (runtime.int f).toInt = ⌊f⌋ := by
    intro hle
    have hbound : (⌊f⌋ : ℚ) ≤ 9223372036855 := hfloor.trans hle
    have hbound' : ⌊f⌋ ≤ 9223372036855 := by exact_mod_cast hbound
    rw [← truncate_of_nonneg hnonneg] at hfloor0 hbound' ⊢
    exact runtime.int_eq f (by omega) (by omega)
  rw [ioDelay_of_field hf]
  constructor
  · rintro ⟨-, hcovers⟩
    have hlt := (milliseconds (runtime.int f)).toInt_lt
    have hlt' : ((milliseconds (runtime.int f)).toInt : ℚ) < 9223372036854775808 := by
      exact_mod_cast hlt
    have hint := hsmall (by linarith)
    have hvalue : (milliseconds (runtime.int f)).toInt = ⌊f⌋ * 1000000 := by
      have hbound : (⌊f⌋ : ℚ) * 1000000 < 9223372036854775808 := by linarith
      have hbound' : ⌊f⌋ * 1000000 < 9223372036854775808 := by exact_mod_cast hbound
      rw [toInt_milliseconds, hint]
      exact Int.bmod_eq_of_le (by omega) (by omega)
    have hwhole : f = ⌊f⌋ := by
      rw [hvalue] at hcovers
      push_cast at hcovers
      linarith
    refine ⟨by rw [hwhole]; exact Rat.den_intCast _, ?_⟩
    rw [hvalue] at hlt
    have hbound : ⌊f⌋ ≤ 9223372036854 := by omega
    rw [hwhole]
    exact_mod_cast hbound
  · rintro ⟨hden, hle⟩
    have hwhole : (⌊f⌋ : ℚ) = f := by
      rw [Rat.floor_def', hden, Nat.cast_one, Int.ediv_one]
      exact Rat.coe_int_num_of_den_eq_one hden
    have hint := hsmall (by linarith)
    have hbound : ⌊f⌋ ≤ 9223372036854 := by
      rw [← hwhole] at hle
      exact_mod_cast hle
    have hcovers : Covers (milliseconds (runtime.int f)) (runtime.int f).toInt := by
      rw [covers_milliseconds_iff, hint]
      · exact hbound
      · rw [Int64.le_iff_toInt_le, Int64.toInt_zero, hint]
        exact hfloor0
    rwa [hint, hwhole] at hcovers

/-- **Which durations cover what was asked for**: a timeout of a task, a `delay_ms` and the two
settings of an accepted configuration do exactly up to 9223372036854 milliseconds, and a `delay_ms`
only if it is whole. Up to there a larger timeout gives no earlier deadline. -/
theorem durations_cover_iff (runtime : GoRuntime) :
    (∀ poolTimeout timeoutMs, 0 < timeoutMs →
      (Covers (taskTimeout poolTimeout timeoutMs) timeoutMs.toInt ↔
        timeoutMs.toInt ≤ 9223372036854)) ∧
    (∀ poolTimeout earlier later, 0 < earlier → earlier ≤ later → later.toInt ≤ 9223372036854 →
      (taskTimeout poolTimeout earlier).toInt ≤ (taskTimeout poolTimeout later).toInt) ∧
    (∀ payload f, floatField (payloadOr runtime payload []) "delay_ms" = some f → 0 ≤ f →
      (Covers (ioDelay runtime payload) f ↔ f.den = 1 ∧ f ≤ 9223372036854)) ∧
    ∀ env config, fromEnv env = .ok config → ∃ delayMs reportMs,
      envInt env "GO_CONSUMER_DELAY_MS" 0 = .ok delayMs ∧
      (Covers config.processingDelay delayMs.toInt ↔ delayMs.toInt ≤ 9223372036854) ∧
      envInt env "GO_CONSUMER_REPORT_INTERVAL_MS" 10000 = .ok reportMs ∧
      (Covers config.reportInterval reportMs.toInt ↔ reportMs.toInt ≤ 9223372036854) := by
  refine ⟨?_, ?_, ?_, ?_⟩
  · intro poolTimeout timeoutMs hpos
    rw [taskTimeout_of_pos hpos]
    exact covers_milliseconds_iff (Int64.le_of_lt hpos)
  · intro poolTimeout earlier later hpos hle hbound
    rw [taskTimeout_of_pos hpos, taskTimeout_of_pos (Int64.lt_of_lt_of_le hpos hle)]
    exact milliseconds_mono (Int64.le_of_lt hpos) hle hbound
  · intro payload f hf hnonneg
    exact ioDelay_covers_iff hf hnonneg
  · intro env config hconfig
    obtain ⟨delayMs, reportMs, hread⟩ := readAs_of_ok hconfig
    refine ⟨delayMs, reportMs, hread.delay, ?_, hread.report, ?_⟩
    · rw [hread.processingDelay]
      exact covers_milliseconds_iff (nonneg_of_envInt (by decide) hread.delay)
    · rw [hread.reportInterval]
      exact covers_milliseconds_iff (nonneg_of_envInt (by decide) hread.report)

/-- A timeout of 9223372036855 milliseconds gives a deadline that is long past, and so one before
that of a millisecond. -/
theorem timeout_wraps :
    (taskTimeout 30000000000 9223372036855).toInt = -9223372036854551616 ∧
      ¬ Covers (taskTimeout 30000000000 9223372036855) (9223372036855 : Int64).toInt ∧
      (taskTimeout 30000000000 9223372036855).toInt < (taskTimeout 30000000000 1).toInt := by
  have hvalue : (taskTimeout 30000000000 9223372036855).toInt = -9223372036854551616 := by
    decide +kernel
  refine ⟨hvalue, fun h => ?_, by decide +kernel⟩
  have hnonneg := h.1
  omega

end BulkTraffic.GoEngine
