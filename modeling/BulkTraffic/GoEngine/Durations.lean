import Mathlib.Algebra.Order.Ring.Rat
import Mathlib.Tactic.NormNum

/-!
# Milliseconds in the Go engine

A number of milliseconds becomes a `time.Duration` by a product with a million, in 64 bits and
without a bound. From 9223372036855 milliseconds on the product wraps around.

* `Covers`: a duration that is not negative and not shorter than what was asked for.
* `covers_milliseconds_iff`: the numbers of milliseconds whose product covers them.
-/

namespace BulkTraffic.GoEngine

/-- `time.Duration(ms) * time.Millisecond`, in nanoseconds. -/
def milliseconds (ms : Int64) : Int64 := ms * 1000000

/-- The duration is not negative and not shorter than the milliseconds that were asked for. -/
def Covers (duration : Int64) (requestedMs : ℚ) : Prop :=
  0 ≤ duration.toInt ∧ requestedMs * 1000000 ≤ duration.toInt

theorem toInt_milliseconds (ms : Int64) :
    (milliseconds ms).toInt = (ms.toInt * 1000000).bmod (2 ^ 64) := by
  rw [milliseconds, Int64.toInt_mul]
  rfl

theorem covers_intCast {duration : Int64} {ms : ℤ} :
    Covers duration ms ↔ 0 ≤ duration.toInt ∧ ms * 1000000 ≤ duration.toInt := by
  rw [Covers]
  norm_cast

/-- The product covers the milliseconds if and only if it does not wrap around. -/
theorem covers_milliseconds_iff {ms : Int64} (h : 0 ≤ ms) :
    Covers (milliseconds ms) ms.toInt ↔ ms.toInt ≤ 9223372036854 := by
  rw [Int64.le_iff_toInt_le, Int64.toInt_zero] at h
  have hlt := Int.bmod_lt (x := ms.toInt * 1000000) (m := 2 ^ 64) (by decide)
  rw [covers_intCast, toInt_milliseconds]
  constructor
  · intro hcovers
    omega
  · intro hfits
    rw [Int.bmod_eq_of_le (by omega) (by omega)]
    omega

/-- A larger number of milliseconds gives no shorter duration, if its product does not wrap
around. -/
theorem milliseconds_mono {a b : Int64} (ha : 0 ≤ a) (hab : a ≤ b) (hb : b.toInt ≤ 9223372036854) :
    (milliseconds a).toInt ≤ (milliseconds b).toInt := by
  rw [Int64.le_iff_toInt_le] at hab
  rw [Int64.le_iff_toInt_le, Int64.toInt_zero] at ha
  rw [toInt_milliseconds, toInt_milliseconds, Int.bmod_eq_of_le (by omega) (by omega),
    Int.bmod_eq_of_le (by omega) (by omega)]
  omega

end BulkTraffic.GoEngine
