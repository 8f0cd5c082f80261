import BulkTraffic.Js.NumberText
import BulkTraffic.Orders.CommitModes

/-!
# The committed position

`commit` passes `(Number(offset) + 1).toString()`. The offset comes as a decimal text of a
64-bit integer and goes through a binary64 number, which has 53 bits for it.

Three ranges come out. Below `2 ^ 53` the arithmetic is exact. From `2 ^ 53` to `2 ^ 54` the
numbers are two apart: reading an odd offset rounds it, and the sum is rounded once more. From
`2 ^ 54` on adding `1` changes nothing, and the text is the shortest decimal of the number that
the offset was rounded to.
-/

namespace BulkTraffic.Orders

open BulkTraffic.Js

/-- The text that `commit` passes for the text of an offset. -/
def commitText (offset : String) : String := numberText ((numberOfString offset).add (.finite 1))

/-- The text is that of `commitOffset`. -/
theorem commitText_repr {n : ℕ} (h : n < 2 ^ 63) : commitText (Nat.repr n) = Nat.repr (commitOffset n) := by
  have hread : numberOfString (Nat.repr n) = .finite (roundNat n) := by
    rw [numberOfString_repr, binary64_natCast_eq (by omega)]
  have hr : roundNat n ≤ 2 ^ 64 := by
    rcases Nat.eq_zero_or_pos n with rfl | hn
    · decide
    · have := roundNat_le_two_mul hn.ne'
      omega
  have hsum : Number.add (.finite (roundNat n)) (.finite 1) = .finite (roundNat (roundNat n + 1)) := by
    have hadd := binary64_natCast_eq (n := roundNat n + 1) (by omega)
    rw [Nat.cast_add, Nat.cast_one] at hadd
    exact hadd
  have hle : roundNat (roundNat n + 1) ≤ 2 * (roundNat n + 1) := roundNat_le_two_mul (by omega)
  rw [commitText, hread, hsum, numberText_natCast, naturalText, if_pos (by omega),
    Nat.repr_eq_ofList_toDigits, commitOffset]

/-! ### From `2 ^ 53` to `2 ^ 54` -/

theorem excessBits_of_between {n : ℕ} (h : 2 ^ 53 ≤ n) (h' : n < 2 ^ 54) : excessBits n = 1 := by
  have hn : n ≠ 0 := by omega
  have hlog : Nat.log2 n = 53 := (Nat.log2_eq_iff hn).mpr ⟨h, h'⟩
  rw [excessBits, hlog]

/-- Even numbers stay, and odd ones go to the multiple of four beside them. -/
theorem roundNat_of_between {n : ℕ} (h : 2 ^ 53 ≤ n) (h' : n < 2 ^ 54) :
    roundNat n = if n % 2 = 0 then n else if n % 4 = 1 then n - 1 else n + 1 := by
  rw [roundNat, excessBits_of_between h h', pow_one]
  split_ifs <;> omega

/-- An even number reads back from no other even number. -/
theorem eq_of_roundNat_even {c x : ℕ} (hc : c % 2 = 0) (hx : x < 2 ^ 54) (h : roundNat c = x) : c = x := by
  by_cases hlarge : 2 ^ 54 ≤ c
  · have := two_pow_le_roundNat hlarge
    omega
  · by_cases hsmall : c < 2 ^ 53
    · rw [← h, roundNat_of_lt hsmall]
    · rw [← h, roundNat_of_between (by omega) (by omega), if_pos hc]

/-- The multiples of a power of ten are even, so a number below `2 ^ 54` is printed digit by digit. -/
theorem shortestFrom_of_between {x : ℕ} (hx : x < 2 ^ 54) (e : ℕ) : shortestFrom x e = x := by
  induction e with
  | zero => rfl
  | succ e ih =>
    have hten : 10 ^ (e + 1) % 2 = 0 := by
      rw [pow_succ, Nat.mul_mod]
      simp
    have hlo : x / 10 ^ (e + 1) * 10 ^ (e + 1) % 2 = 0 := by rw [Nat.mul_mod, hten, Nat.mul_zero]
    have hhi : (x / 10 ^ (e + 1) * 10 ^ (e + 1) + 10 ^ (e + 1)) % 2 = 0 := by omega
    simp only [shortestFrom]
    split_ifs with h₁ h₂ h₃ h₄ h₅ h₆
    · exact eq_of_roundNat_even hlo hx h₁.1
    · exact eq_of_roundNat_even hhi hx h₁.2
    · exact eq_of_roundNat_even hlo hx h₁.1
    · exact eq_of_roundNat_even hhi hx h₁.2
    · exact eq_of_roundNat_even hlo hx h₅
    · exact eq_of_roundNat_even hhi hx h₆
    · exact ih

/-- The number read is even, and so is the rounded sum. -/
theorem commitOffset_of_between {n : ℕ} (h : 2 ^ 53 ≤ n) (h' : n < 2 ^ 54) :
    commitOffset n = if n % 4 < 2 then n - n % 4 else if n % 4 = 2 then n + 2 else n + 1 := by
  by_cases hlast : n < 2 ^ 54 - 2
  · have hr := roundNat_of_between h h'
    have hsum : roundNat (roundNat n + 1) =
        if n % 4 < 2 then n - n % 4 else if n % 4 = 2 then n + 2 else n + 1 := by
      rw [roundNat_of_between (by split_ifs at hr <;> omega) (by split_ifs at hr <;> omega)]
      split_ifs at hr ⊢ <;> omega
    rw [commitOffset, shortestDecimal, shortestFrom_of_between, hsum]
    rw [hsum]
    split_ifs <;> omega
  · obtain rfl | rfl : n = 2 ^ 54 - 2 ∨ n = 2 ^ 54 - 1 := by omega
    · decide +kernel
    · decide +kernel

/-! ### From `2 ^ 54` on -/

/-- A multiple of four or more has room below it for the `1`, which is rounded off. -/
theorem roundNat_succ {r : ℕ} (h : 2 ^ 54 ≤ r) (hr : roundNat r = r) : roundNat (r + 1) = r := by
  have hne : r ≠ 0 := by omega
  have hlog : 54 ≤ Nat.log2 r := (Nat.le_log2 hne).mpr h
  obtain ⟨k, hk⟩ : ∃ k, excessBits r = k + 2 := ⟨excessBits r - 2, by rw [excessBits]; omega⟩
  have hu : 2 ^ (k + 2) = 2 ^ k * 4 := pow_add 2 k 2
  have hkpos : 0 < 2 ^ k := Nat.two_pow_pos k
  have hdvd : 2 ^ (k + 2) ∣ r := by
    rw [roundNat, hk] at hr
    rw [← hr]
    split_ifs
    · exact Nat.dvd_mul_left _ _
    · exact Nat.dvd_mul_left _ _
    · exact Nat.dvd_mul_left _ _
    · exact Nat.dvd_mul_left _ _
  have hsucc : excessBits (r + 1) = k + 2 := by
    have hlog' : Nat.log2 (r + 1) = Nat.log2 r := by
      have hlt : r < 2 ^ (Nat.log2 r + 1) := Nat.lt_log2_self
      have heven : 2 ^ (k + 2) ∣ 2 ^ (Nat.log2 r + 1) := Nat.pow_dvd_pow 2 (by rw [excessBits] at hk; omega)
      have hstep := Nat.le_of_dvd (Nat.sub_pos_of_lt hlt) (Nat.dvd_sub heven hdvd)
      exact (Nat.log2_eq_iff (by omega)).mpr ⟨(Nat.log2_self_le hne).trans (by omega), by omega⟩
    rw [← hk, excessBits, excessBits, hlog']
  obtain ⟨c, rfl⟩ := hdvd
  have hmod : (2 ^ (k + 2) * c + 1) % 2 ^ (k + 2) = 1 := by
    rw [Nat.mul_add_mod, Nat.mod_eq_of_lt (by omega)]
  have hdiv : (2 ^ (k + 2) * c + 1) / 2 ^ (k + 2) = c := by
    rw [Nat.mul_add_div (by omega), Nat.div_eq_of_lt (by omega), Nat.add_zero]
  rw [roundNat, hsucc, hmod, hdiv, if_pos (by omega), Nat.mul_comm]

theorem commitOffset_of_large {n : ℕ} (h : 2 ^ 54 ≤ n) :
    commitOffset n = shortestDecimal (roundNat n) := by
  rw [commitOffset, roundNat_succ (two_pow_le_roundNat h) (roundNat_roundNat n)]

/-- The text reads back as the number it was printed for, so it is the next offset only where
both offsets are rounded alike. -/
theorem commitOffset_of_large_eq_succ_iff {n : ℕ} (h : 2 ^ 54 ≤ n) :
    commitOffset n = n + 1 ↔
      roundNat n = roundNat (n + 1) ∧ shortestDecimal (roundNat (n + 1)) = n + 1 := by
  rw [commitOffset_of_large h]
  constructor
  · intro heq
    have hback := roundNat_shortestDecimal (roundNat_roundNat n)
    rw [heq] at hback
    exact ⟨hback.symm, hback ▸ heq⟩
  · rintro ⟨hround, hshort⟩
    rw [hround, hshort]

/-- **Exactly when the next offset is committed.** -/
theorem commitText_eq_succ_iff {n : ℕ} (h : n < 2 ^ 63 - 1) :
    commitText (Nat.repr n) = Nat.repr (n + 1) ↔
      n < 2 ^ 53 ∨ (n < 2 ^ 54 ∧ n % 4 = 3) ∨
        (2 ^ 54 ≤ n ∧ roundNat n = roundNat (n + 1) ∧ shortestDecimal (roundNat (n + 1)) = n + 1) := by
  rw [commitText_repr (by omega), repr_inj]
  by_cases hsmall : n < 2 ^ 53
  · exact iff_of_true (commitOffset_of_lt hsmall) (.inl hsmall)
  by_cases hlarge : 2 ^ 54 ≤ n
  · rw [commitOffset_of_large_eq_succ_iff hlarge]
    constructor
    · intro hround
      exact .inr (.inr ⟨hlarge, hround⟩)
    · rintro (hlt | ⟨hlt, -⟩ | ⟨-, hround⟩)
      · omega
      · omega
      · exact hround
  · rw [commitOffset_of_between (Nat.le_of_not_lt hsmall) (Nat.lt_of_not_le hlarge)]
    constructor
    · intro heq
      exact .inr (.inl ⟨by omega, by split_ifs at heq <;> omega⟩)
    · rintro (hlt | ⟨-, hmod⟩ | ⟨hle, -⟩)
      · omega
      · rw [hmod]
        rfl
      · omega

/-- The offset after the last one that is printed right. -/
theorem commitText_eq_succ_of_last : commitText (Nat.repr (2 ^ 53 - 1)) = Nat.repr (2 ^ 53) :=
  (commitText_eq_succ_iff (n := 2 ^ 53 - 1) (by decide)).mpr (.inl (by decide))

/-- At `2 ^ 53` the offset itself is committed. -/
theorem not_commitText_eq_succ : ¬ ∀ n < 2 ^ 63 - 1, commitText (Nat.repr n) = Nat.repr (n + 1) := by
  intro h
  have hstuck := h (2 ^ 53) (by decide)
  rw [commitText_repr (by decide), repr_inj] at hstuck
  exact absurd hstuck (by decide +kernel)

end BulkTraffic.Orders
