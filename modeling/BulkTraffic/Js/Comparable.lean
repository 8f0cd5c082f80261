import Mathlib.Order.WithBot
import BulkTraffic.Js.Rounding

/-!
# Numbers that can be compared

A `Comparable` is a JavaScript number other than `NaN`. The operator `<=` is a linear order on them
(`le_iff`), and so is what the comparator `(a, b) => a - b` sorts by (`lt_sub`): the difference of two
different numbers has the sign it should have, and that of two equal infinities, `NaN`, counts as
none.
-/

namespace BulkTraffic.Js

/-- A number is rounded to an infinity or to the nearest finite value. -/
theorem binary64_cases (q : ℚ) : (∃ s, binary64 q = .infinity s) ∨ binary64 q = .finite (nearest q) := by
  rcases lt_trichotomy q 0 with hq | rfl | hq
  · have hround := binary64_neg (-q) (neg_pos.mpr hq)
    rw [neg_neg] at hround
    rw [hround, nearest, if_pos hq]
    split
    · exact .inl ⟨true, rfl⟩
    · exact .inr rfl
  · right
    rw [nearest_of_nonneg le_rfl, roundToPlace_zero]
    rfl
  · rw [binary64_of_pos hq, nearest_of_nonneg hq.le]
    split
    · exact .inl ⟨false, rfl⟩
    · exact .inr rfl

/-- A JavaScript number other than `NaN`. -/
structure Comparable where
  value : Number
  /-- It is what some rational is rounded to. -/
  isNumber : ∃ q, value = binary64 q

/-- Where a number stands. -/
def Number.key : Number → WithBot (WithTop ℚ)
  | nan | infinity true => ⊥
  | infinity false => ((⊤ : WithTop ℚ) : WithBot (WithTop ℚ))
  | finite q => ((q : WithTop ℚ) : WithBot (WithTop ℚ))

namespace Comparable

theorem ext {a b : Comparable} (h : a.value = b.value) : a = b := by
  cases a
  cases b
  cases h
  rfl

/-- The values there are. -/
theorem value_cases (a : Comparable) :
    (∃ s, a.value = .infinity s) ∨ ∃ q, a.value = .finite (nearest q) := by
  obtain ⟨q, hq⟩ := a.isNumber
  rw [hq]
  rcases binary64_cases q with h | h
  · exact .inl h
  · exact .inr ⟨q, h⟩

theorem key_injective : Function.Injective fun a : Comparable => a.value.key := by
  intro a b h
  apply ext
  simp only at h
  rcases a.value_cases with ⟨s, ha⟩ | ⟨p, ha⟩ <;> rcases b.value_cases with ⟨t, hb⟩ | ⟨q, hb⟩ <;>
    rw [ha, hb] at h ⊢
  · cases s <;> cases t <;> simp [Number.key] at h ⊢
  · cases s <;> simp [Number.key] at h
  · cases t <;> simp [Number.key] at h
  · simpa [Number.key] using h

instance : LinearOrder Comparable := LinearOrder.lift' (fun a => a.value.key) key_injective

/-- `a <= b`. -/
theorem le_iff (a b : Comparable) : a ≤ b ↔ Number.le a.value b.value = true := by
  change a.value.key ≤ b.value.key ↔ _
  rcases a.value_cases with ⟨s, ha⟩ | ⟨p, ha⟩ <;> rcases b.value_cases with ⟨t, hb⟩ | ⟨q, hb⟩ <;>
    rw [ha, hb]
  · cases s <;> cases t <;> simp [Number.key, Number.le]
  · cases s <;> simp [Number.key, Number.le]
  · cases t <;> simp [Number.key, Number.le]
  · simp [Number.key, Number.le]

/-- `a - b > 0`. -/
theorem lt_sub (a b : Comparable) :
    Number.lt (.finite 0) (Number.sub a.value b.value) = true ↔ b < a := by
  change _ ↔ b.value.key < a.value.key
  rcases a.value_cases with ⟨s, ha⟩ | ⟨p, ha⟩ <;> rcases b.value_cases with ⟨t, hb⟩ | ⟨q, hb⟩ <;>
    rw [ha, hb]
  · cases s <;> cases t <;> simp [Number.key, Number.sub, Number.lt]
  · cases s with
    | true => simp [Number.key, Number.sub, Number.lt]
    | false => exact iff_of_true rfl (WithBot.coe_lt_coe.mpr (WithTop.coe_lt_top _))
  · cases t <;> simp [Number.key, Number.sub, Number.lt]
  · rw [Number.lt_sub_nearest]
    simp [Number.key]

end Comparable

end BulkTraffic.Js
