import BulkTraffic.Js.Number

/-!
# Rounding to binary64

`binary64` is monotone (`nearest_mono`), and away from zero and from infinity it is off by at most one
part in `2 ^ 53` (`abs_nearest_sub_le`).

Both come from `roundToPlace`: a positive number is divided by its last place, rounded to an integer
and multiplied again. Two numbers with the same last place keep their order because rounding to
integers does, and two with different ones have a power of two between them.
-/

namespace BulkTraffic.Js

/-! ### Rounding to integers -/

theorem abs_roundHalfEven_sub_le (q : ℚ) : |(roundHalfEven q : ℚ) - q| ≤ 1 / 2 := by
  have hhalf : mkRat 1 2 = (1 / 2 : ℚ) := by rw [Rat.mkRat_eq_div]; norm_num
  have hfloor : (q.floor : ℚ) ≤ q := Rat.floor_le q
  have hlt : q < q.floor + 1 := by exact_mod_cast Rat.lt_floor_add_one q
  rw [abs_le, roundHalfEven, hhalf]
  split_ifs
  · constructor <;> linarith
  · push_cast
    constructor <;> linarith
  · constructor <;> linarith
  · push_cast
    constructor <;> linarith

/-- Two numbers that were rounded past each other are equal. -/
theorem roundHalfEven_mono {p q : ℚ} (h : p ≤ q) : roundHalfEven p ≤ roundHalfEven q := by
  by_contra hlt
  have hstep : (roundHalfEven q : ℚ) + 1 ≤ roundHalfEven p := by exact_mod_cast Int.not_le.mp hlt
  have hp := (abs_le.mp (abs_roundHalfEven_sub_le p)).2
  have hq := (abs_le.mp (abs_roundHalfEven_sub_le q)).1
  have heq : p = q := by linarith
  exact hlt (heq ▸ le_refl _)

/-! ### Rounding to a last place -/

/-- The exponent of the last place of a positive number. -/
def lastPlace (a : ℚ) : ℤ := max (floorLog2 a - 52) (-1074)

/-- A positive number rounded to its last place. -/
def roundToPlace (a : ℚ) : ℚ := (roundHalfEven (a / pow2 (lastPlace a)) : ℚ) * pow2 (lastPlace a)

theorem binary64_of_pos {a : ℚ} (ha : 0 < a) :
    binary64 a = if pow2 1024 ≤ roundToPlace a then .infinity false else .finite (roundToPlace a) := by
  have hneg : ¬ a < 0 := not_lt.mpr ha.le
  simp only [binary64, ha.ne', hneg, if_false, decide_false]
  rfl

theorem binary64_neg (a : ℚ) (ha : 0 < a) :
    binary64 (-a) = if pow2 1024 ≤ roundToPlace a then .infinity true else .finite (-roundToPlace a) := by
  have hneg : -a < 0 := neg_lt_zero.mpr ha
  simp only [binary64, hneg.ne, hneg, if_true, if_false, decide_true, neg_neg]
  rfl

theorem pow2_pos (e : ℤ) : 0 < pow2 e := by
  rw [pow2_eq_zpow]
  exact zpow_pos two_pos e

theorem pow2_le_pow2 {d e : ℤ} (h : d ≤ e) : pow2 d ≤ pow2 e := by
  rw [pow2_eq_zpow, pow2_eq_zpow]
  exact zpow_le_zpow_right₀ one_le_two h

/-- A power of two that is a multiple of the last place is an integer number of them. -/
theorem pow2_div_pow2 {d e : ℤ} (h : d ≤ e) : pow2 e / pow2 d = (2 ^ (e - d).toNat : ℤ) := by
  rw [pow2_eq_zpow, pow2_eq_zpow, ← zpow_sub₀ two_ne_zero]
  push_cast
  rw [← zpow_natCast, Int.toNat_of_nonneg (by omega)]

theorem roundToPlace_le_pow2 {a : ℚ} {e : ℤ} (ha : a ≤ pow2 e) (he : lastPlace a ≤ e) :
    roundToPlace a ≤ pow2 e := by
  have hpos := pow2_pos (lastPlace a)
  rw [roundToPlace, ← le_div_iff₀ hpos, pow2_div_pow2 he, Int.cast_le,
    ← roundHalfEven_intCast (2 ^ (e - lastPlace a).toNat), ← pow2_div_pow2 he]
  exact roundHalfEven_mono (div_le_div_of_nonneg_right ha hpos.le)

theorem pow2_le_roundToPlace {a : ℚ} {e : ℤ} (ha : pow2 e ≤ a) (he : lastPlace a ≤ e) :
    pow2 e ≤ roundToPlace a := by
  have hpos := pow2_pos (lastPlace a)
  rw [roundToPlace, ← div_le_iff₀ hpos, pow2_div_pow2 he, Int.cast_le,
    ← roundHalfEven_intCast (2 ^ (e - lastPlace a).toNat), ← pow2_div_pow2 he]
  exact roundHalfEven_mono (div_le_div_of_nonneg_right ha hpos.le)

theorem pow2_floorLog2_le {a : ℚ} (ha : 0 < a) : pow2 (floorLog2 a) ≤ a := by
  rw [pow2_eq_zpow, floorLog2_eq_log ha]
  exact_mod_cast Int.zpow_log_le_self Nat.one_lt_two ha

theorem lt_pow2_floorLog2_succ {a : ℚ} (ha : 0 < a) : a < pow2 (floorLog2 a + 1) := by
  rw [pow2_eq_zpow, floorLog2_eq_log ha]
  exact_mod_cast Int.lt_zpow_succ_log_self Nat.one_lt_two a

/-- A larger number has no smaller last place. -/
theorem floorLog2_mono {a b : ℚ} (ha : 0 < a) (hab : a ≤ b) : floorLog2 a ≤ floorLog2 b := by
  rw [floorLog2_eq_log ha, floorLog2_eq_log (ha.trans_le hab)]
  exact Int.log_mono_right ha hab

/-- **Rounding keeps the order** of positive numbers. -/
theorem roundToPlace_mono {a b : ℚ} (ha : 0 < a) (hab : a ≤ b) : roundToPlace a ≤ roundToPlace b := by
  have hlog := floorLog2_mono ha hab
  by_cases hplace : lastPlace a = lastPlace b
  · rw [roundToPlace, roundToPlace, hplace]
    have hpos := pow2_pos (lastPlace b)
    apply mul_le_mul_of_nonneg_right _ hpos.le
    exact_mod_cast roundHalfEven_mono (div_le_div_of_nonneg_right hab hpos.le)
  · -- a power of two lies between them
    have hlt : floorLog2 a + 1 ≤ floorLog2 b := by
      rw [lastPlace, lastPlace] at hplace
      omega
    calc roundToPlace a ≤ pow2 (floorLog2 b) := by
          apply roundToPlace_le_pow2
          · exact (lt_pow2_floorLog2_succ ha).le.trans (pow2_le_pow2 hlt)
          · rw [lastPlace] at hplace ⊢
            rw [lastPlace] at hplace
            omega
      _ ≤ roundToPlace b := by
          apply pow2_le_roundToPlace (pow2_floorLog2_le (ha.trans_le hab))
          rw [lastPlace] at hplace ⊢
          rw [lastPlace] at hplace
          omega

theorem roundToPlace_one : roundToPlace 1 = 1 := by
  have hlog : floorLog2 1 = 0 := by
    have h := floorLog2_natCast (n := 1) one_ne_zero
    rwa [Nat.cast_one] at h
  have hplace : lastPlace 1 ≤ 0 := by
    rw [lastPlace, hlog]
    decide
  have hone : pow2 0 = 1 := by rw [pow2_eq_zpow, zpow_zero]
  apply le_antisymm
  · have h := roundToPlace_le_pow2 (a := 1) hone.ge hplace
    rwa [hone] at h
  · have h := pow2_le_roundToPlace (a := 1) hone.le hplace
    rwa [hone] at h

theorem roundToPlace_zero : roundToPlace 0 = 0 := by
  have hzero : roundHalfEven 0 = 0 := roundHalfEven_intCast 0
  rw [roundToPlace, zero_div, hzero, Int.cast_zero, zero_mul]

theorem roundToPlace_natCast {n : ℕ} (hn : 0 < n) (h : n < 2 ^ 53) : roundToPlace n = n := by
  have hround := binary64_natCast h
  rw [binary64_of_pos (by exact_mod_cast hn)] at hround
  split at hround
  · cases hround
  · exact Number.finite.inj hround

/-- An integer is rounded to itself, and so is what is close below it. -/
theorem roundToPlace_of_near {m : ℕ} {x : ℚ} (hm : 0 < m) (hlt : m < 2 ^ 53) (hle : x ≤ m)
    (hnear : m - m / 2 ^ 54 < x) : roundToPlace x = m := by
  have hmpos : (0 : ℚ) < m := by exact_mod_cast hm
  have hx : 0 < x := by linarith
  apply le_antisymm
  · rw [← roundToPlace_natCast hm hlt]
    exact roundToPlace_mono hx hle
  · have hpos := pow2_pos (lastPlace x)
    -- the integer is a number of last places, and at most `2 ^ 53` of them
    have hplace : lastPlace x ≤ 0 := by
      have hlog := floorLog2_mono hx hle
      rw [floorLog2_natCast hm.ne'] at hlog
      have := (Nat.log2_lt hm.ne').mpr hlt
      rw [lastPlace]
      omega
    obtain ⟨k, hk⟩ : ∃ k : ℤ, (m : ℚ) / pow2 (lastPlace x) = k := by
      have hone := pow2_div_pow2 hplace
      rw [pow2_eq_zpow 0, zpow_zero] at hone
      refine ⟨m * 2 ^ (0 - lastPlace x).toNat, ?_⟩
      rw [Int.cast_mul, ← hone, mul_one_div]
      rfl
    have hscaled : (k : ℚ) - k / 2 ^ 54 < x / pow2 (lastPlace x) := by
      rw [lt_div_iff₀ hpos, ← hk, sub_mul, div_mul_cancel₀ _ hpos.ne', div_right_comm,
        div_mul_cancel₀ _ hpos.ne']
      exact hnear
    have hfits : x / pow2 (lastPlace x) < 2 ^ 53 := by
      have hup : x < pow2 (lastPlace x + 53) := by
        refine (lt_pow2_floorLog2_succ hx).trans_le (pow2_le_pow2 ?_)
        rw [lastPlace]
        omega
      rw [div_lt_iff₀ hpos]
      rw [pow2_eq_zpow, zpow_add₀ two_ne_zero, ← pow2_eq_zpow, mul_comm] at hup
      exact_mod_cast hup
    have hsmall : (k : ℚ) ≤ 2 ^ 53 := by
      by_contra hlarge
      have hstep : (2 ^ 53 : ℤ) + 1 ≤ k := by
        have : (2 ^ 53 : ℤ) < k := by exact_mod_cast not_le.mp hlarge
        omega
      have hstep' : (2 ^ 53 : ℚ) + 1 ≤ k := by exact_mod_cast hstep
      linarith
    have hround : k ≤ roundHalfEven (x / pow2 (lastPlace x)) := by
      have hhalf := (abs_le.mp (abs_roundHalfEven_sub_le (x / pow2 (lastPlace x)))).1
      rw [← Int.sub_one_lt_iff]
      have hlow : (k : ℚ) - 1 < roundHalfEven (x / pow2 (lastPlace x)) := by linarith
      exact_mod_cast hlow
    rw [roundToPlace, ← div_le_iff₀ hpos, hk]
    exact_mod_cast hround
/-! ### How much is rounded off -/

theorem floorLog2_pow2 (e : ℤ) : floorLog2 (pow2 e) = e := by
  rw [floorLog2_eq_log (pow2_pos e), pow2_eq_zpow]
  have hlog := Int.log_zpow (R := ℚ) Nat.one_lt_two e
  rwa [Nat.cast_ofNat] at hlog

/-- Half a last place, of a number with 53 significant bits. -/
theorem abs_roundToPlace_sub_le {a : ℚ} (h : pow2 (-1022) ≤ a) : |roundToPlace a - a| ≤ a / 2 ^ 53 := by
  have ha : 0 < a := (pow2_pos _).trans_le h
  have hplace : lastPlace a = floorLog2 a - 52 := by
    have hlog := floorLog2_mono (pow2_pos (-1022)) h
    rw [floorLog2_pow2] at hlog
    rw [lastPlace]
    omega
  have hpos := pow2_pos (lastPlace a)
  have hunit : pow2 (lastPlace a) ≤ a / 2 ^ 52 := by
    have hlow := pow2_floorLog2_le ha
    rw [pow2_eq_zpow] at hlow
    rw [hplace, pow2_eq_zpow, zpow_sub₀ two_ne_zero]
    exact div_le_div_of_nonneg_right hlow (by positivity)
  calc |roundToPlace a - a|
      = |(roundHalfEven (a / pow2 (lastPlace a)) : ℚ) - a / pow2 (lastPlace a)| * pow2 (lastPlace a) := by
        rw [roundToPlace, ← abs_of_pos hpos, ← abs_mul, abs_of_pos hpos, sub_mul,
          div_mul_cancel₀ _ hpos.ne']
    _ ≤ 1 / 2 * pow2 (lastPlace a) := by
        exact mul_le_mul_of_nonneg_right (abs_roundHalfEven_sub_le _) hpos.le
    _ ≤ a / 2 ^ 53 := by linarith

/-! ### Numbers of either sign -/

theorem roundToPlace_nonneg {a : ℚ} (ha : 0 ≤ a) : 0 ≤ roundToPlace a := by
  have hpos := pow2_pos (lastPlace a)
  apply mul_nonneg _ hpos.le
  exact_mod_cast roundHalfEven_nonneg (div_nonneg ha hpos.le)

/-- The rational a number that is not too large is rounded to. -/
def nearest (q : ℚ) : ℚ := if q < 0 then -roundToPlace (-q) else roundToPlace q

theorem nearest_of_nonneg {q : ℚ} (hq : 0 ≤ q) : nearest q = roundToPlace q := if_neg (not_lt.mpr hq)

theorem binary64_eq_nearest {q : ℚ} (h : |q| ≤ pow2 1023) : binary64 q = .finite (nearest q) := by
  have hfits : ∀ a : ℚ, 0 < a → a ≤ pow2 1023 → ¬ pow2 1024 ≤ roundToPlace a := by
    intro a ha hle hlarge
    have hplace : lastPlace a ≤ 1023 := by
      have hlog := floorLog2_mono ha hle
      rw [floorLog2_pow2] at hlog
      rw [lastPlace]
      omega
    have hround := hlarge.trans (roundToPlace_le_pow2 hle hplace)
    rw [pow2_eq_zpow, pow2_eq_zpow] at hround
    exact absurd ((zpow_le_zpow_iff_right₀ one_lt_two).mp hround) (by decide)
  rcases lt_trichotomy q 0 with hq | rfl | hq
  · rw [abs_of_neg hq] at h
    have hround := binary64_neg (-q) (neg_pos.mpr hq)
    rw [neg_neg, if_neg (hfits _ (neg_pos.mpr hq) h)] at hround
    rw [hround, nearest, if_pos hq]
  · rw [nearest_of_nonneg le_rfl, roundToPlace_zero]
    rfl
  · rw [abs_of_pos hq] at h
    rw [binary64_of_pos hq, if_neg (hfits q hq h), nearest_of_nonneg hq.le]

/-- **Rounding keeps the order.** -/
theorem nearest_mono {p q : ℚ} (h : p ≤ q) : nearest p ≤ nearest q := by
  by_cases hq : q < 0
  · have hp : p < 0 := h.trans_lt hq
    rw [nearest, if_pos hp, nearest, if_pos hq, neg_le_neg_iff]
    exact roundToPlace_mono (neg_pos.mpr hq) (neg_le_neg h)
  · rw [not_lt] at hq
    rw [nearest_of_nonneg hq]
    rcases lt_trichotomy p 0 with hp | rfl | hp
    · rw [nearest, if_pos hp]
      have hleft := roundToPlace_nonneg (neg_pos.mpr hp).le
      have hright := roundToPlace_nonneg hq
      linarith
    · rw [nearest_of_nonneg le_rfl, roundToPlace_zero]
      exact roundToPlace_nonneg hq
    · rw [nearest_of_nonneg hp.le]
      exact roundToPlace_mono hp h

/-- A number far from both ends of the range of binary64. -/
structure Moderate (a : ℚ) : Prop where
  low : 1 / 2 ^ 200 ≤ a
  high : a ≤ 2 ^ 200

theorem Moderate.pos {a : ℚ} (h : Moderate a) : 0 < a := lt_of_lt_of_le (by positivity) h.low

theorem Moderate.le_pow2 {a : ℚ} (h : Moderate a) : a ≤ pow2 1023 := by
  apply h.high.trans
  have hle := pow2_le_pow2 (d := 200) (e := 1023) (by decide)
  rw [pow2_eq_zpow] at hle
  exact_mod_cast hle

theorem Moderate.pow2_le {a : ℚ} (h : Moderate a) : pow2 (-1022) ≤ a := by
  have hle := pow2_le_pow2 (d := -1022) (e := -200) (by decide)
  exact hle.trans ((pow2_neg 200).le.trans h.low)

/-- Such a number is rounded by at most one part in `2 ^ 53`. -/
theorem abs_nearest_sub_le {a : ℚ} (h : Moderate a) : |nearest a - a| ≤ a / 2 ^ 53 := by
  rw [nearest_of_nonneg h.pos.le]
  exact abs_roundToPlace_sub_le h.pow2_le

theorem Moderate.binary64_eq {a : ℚ} (h : Moderate a) : binary64 a = .finite (nearest a) :=
  binary64_eq_nearest ((abs_of_pos h.pos).le.trans h.le_pow2)

/-! ### A few roundings -/

/-- A value that a few roundings have moved by at most one part in `2 ^ 50`. -/
def Near (x a : ℚ) : Prop := |x - a| ≤ a / 2 ^ 50

/-- Dividing by what a few roundings have left of a number. -/
theorem abs_div_sub_div_le {a e s : ℚ} (ha : 0 < a) (he : 0 < e) (hs : |s - e| ≤ e / 2 ^ 51) :
    0 < s ∧ |a / s - a / e| ≤ a / e * (5 / 2 ^ 53) := by
  obtain ⟨hlow, hhigh⟩ := abs_le.mp hs
  have hspos : 0 < s := by linarith
  obtain ⟨t, ht⟩ : ∃ t, t = a / e := ⟨_, rfl⟩
  have htpos : 0 < t := by
    rw [ht]
    exact div_pos ha he
  have hquotient : t * e = a := by rw [ht, div_mul_cancel₀ _ he.ne']
  have hupper : a / s ≤ t + t * (5 / 2 ^ 53) := by
    rw [div_le_iff₀ hspos]
    calc a = t * e := hquotient.symm
      _ ≤ (t + t * (5 / 2 ^ 53)) * (e - e / 2 ^ 51) := by linarith [mul_pos htpos he]
      _ ≤ (t + t * (5 / 2 ^ 53)) * s := by
        apply mul_le_mul_of_nonneg_left _ (by positivity)
        linarith
  have hlower : t - t * (5 / 2 ^ 53) ≤ a / s := by
    rw [le_div_iff₀ hspos]
    calc (t - t * (5 / 2 ^ 53)) * s ≤ (t - t * (5 / 2 ^ 53)) * (e + e / 2 ^ 51) := by
          apply mul_le_mul_of_nonneg_left <;> linarith
      _ ≤ t * e := by linarith [mul_pos htpos he]
      _ = a := hquotient
  refine ⟨hspos, ?_⟩
  rw [← ht, abs_le]
  constructor <;> linarith

/-- A quotient of moderate numbers is moderate. -/
theorem div_bounds {a b : ℚ} (ha : 1 ≤ a) (ha' : a ≤ 2 ^ 64) (hb : 1 / 2 ^ 32 ≤ b) (hb' : b ≤ 2 ^ 64) :
    1 / 2 ^ 64 ≤ a / b ∧ a / b ≤ 2 ^ 96 := by
  have hpos : 0 < b := by linarith
  constructor
  · rw [le_div_iff₀ hpos]
    linarith
  · rw [div_le_iff₀ hpos]
    linarith

/-! ### Differences -/

/-- A value of binary64 is an integer number of the smallest last places. -/
theorem exists_nearest_eq (q : ℚ) : ∃ z : ℤ, nearest q = z * pow2 (-1074) := by
  have hround : ∀ a : ℚ, ∃ z : ℤ, roundToPlace a = z * pow2 (-1074) := by
    intro a
    have hplace : -1074 ≤ lastPlace a := le_max_right _ _
    refine ⟨roundHalfEven (a / pow2 (lastPlace a)) * 2 ^ (lastPlace a - -1074).toNat, ?_⟩
    rw [Int.cast_mul, ← pow2_div_pow2 hplace, mul_assoc, div_mul_cancel₀ _ (pow2_pos _).ne']
    rfl
  rw [nearest]
  split
  · obtain ⟨z, hz⟩ := hround (-q)
    exact ⟨-z, by rw [hz, Int.cast_neg, neg_mul]⟩
  · exact hround q

/-- The difference of two values of binary64 is not rounded to zero, so its sign compares them. -/
theorem Number.lt_sub_nearest (p q : ℚ) :
    lt (finite 0) (sub (finite (nearest p)) (finite (nearest q))) = decide (nearest q < nearest p) := by
  rw [sub]
  rcases lt_trichotomy (nearest p) (nearest q) with hlt | heq | hlt
  · rw [decide_eq_false hlt.not_gt]
    rcases binary64_of_neg (sub_neg.mpr hlt) with h | ⟨m, hm, h⟩
    · rw [h]
      rfl
    · rw [h, lt, decide_eq_false_iff_not]
      linarith
  · rw [heq, sub_self, decide_eq_false (lt_irrefl _)]
    rfl
  · rw [decide_eq_true hlt]
    -- the difference is at least one of the smallest last places
    obtain ⟨y, hy⟩ := exists_nearest_eq p
    obtain ⟨z, hz⟩ := exists_nearest_eq q
    have hunit := pow2_pos (-1074)
    have hdiff : pow2 (-1074) ≤ nearest p - nearest q := by
      rw [hy, hz, mul_lt_mul_iff_of_pos_right hunit, Int.cast_lt] at hlt
      rw [hy, hz, ← sub_mul]
      apply le_mul_of_one_le_left hunit.le
      exact_mod_cast (by omega : 1 ≤ y - z)
    have hround : 0 < roundToPlace (nearest p - nearest q) := by
      have hplace : lastPlace (pow2 (-1074)) ≤ -1074 := by
        rw [lastPlace, floorLog2_pow2]
        decide
      calc 0 < pow2 (-1074) := hunit
        _ ≤ roundToPlace (pow2 (-1074)) := pow2_le_roundToPlace le_rfl hplace
        _ ≤ roundToPlace (nearest p - nearest q) := roundToPlace_mono hunit hdiff
    rw [binary64_of_pos (sub_pos.mpr hlt)]
    split
    · rfl
    · exact decide_eq_true hround

/-! ### The sign of a rounded integer -/

theorem one_le_roundToPlace {a : ℚ} (ha : 1 ≤ a) : 1 ≤ roundToPlace a := by
  calc 1 = roundToPlace 1 := roundToPlace_one.symm
    _ ≤ roundToPlace a := roundToPlace_mono one_pos ha

theorem binary64_of_one_le {a : ℚ} (ha : 1 ≤ a) :
    binary64 a = .infinity false ∨ ∃ q, 1 ≤ q ∧ binary64 a = .finite q := by
  rw [binary64_of_pos (one_pos.trans_le ha)]
  split
  · exact .inl rfl
  · exact .inr ⟨_, one_le_roundToPlace ha, rfl⟩

theorem binary64_of_le_neg_one {a : ℚ} (ha : a ≤ -1) :
    binary64 a = .infinity true ∨ ∃ q, q ≤ -1 ∧ binary64 a = .finite q := by
  have hone : 1 ≤ -a := by linarith
  have hround := binary64_neg (-a) (one_pos.trans_le hone)
  rw [neg_neg] at hround
  rw [hround]
  split
  · exact .inl rfl
  · exact .inr ⟨_, neg_le_neg (one_le_roundToPlace hone), rfl⟩

/-- Rounding an integer keeps its sign. -/
theorem binary64_intCast_cases (z : ℤ) :
    z < 0 ∧ (binary64 z = .infinity true ∨ ∃ q, q ≤ -1 ∧ binary64 z = .finite q) ∨
    z = 0 ∧ binary64 z = .finite 0 ∨
    0 < z ∧ (binary64 z = .infinity false ∨ ∃ q, 1 ≤ q ∧ binary64 z = .finite q) := by
  rcases lt_trichotomy z 0 with hz | rfl | hz
  · have hle : (z : ℚ) ≤ -1 := by exact_mod_cast (by omega : z ≤ -1)
    exact .inl ⟨hz, binary64_of_le_neg_one hle⟩
  · exact .inr (.inl ⟨rfl, rfl⟩)
  · have hle : (1 : ℚ) ≤ z := by exact_mod_cast hz
    exact .inr (.inr ⟨hz, binary64_of_one_le hle⟩)

/-- `n < 0`, of a rounded integer. -/
theorem Number.lt_binary64_zero (z : ℤ) : lt (binary64 z) (finite 0) = decide (z < 0) := by
  rcases binary64_intCast_cases z with ⟨hz, h | ⟨q, hq, h⟩⟩ | ⟨hz, h⟩ | ⟨hz, h | ⟨q, hq, h⟩⟩
  · rw [h, decide_eq_true hz]
    rfl
  · rw [h, decide_eq_true hz, lt, decide_eq_true_eq]
    linarith
  · rw [h, hz]
    rfl
  · rw [h, decide_eq_false (by omega)]
    rfl
  · rw [h, decide_eq_false (by omega), lt, decide_eq_false_iff_not]
    linarith

/-- `n <= 0`. -/
theorem Number.le_binary64_zero (z : ℤ) : le (binary64 z) (finite 0) = decide (z < 1) := by
  rcases binary64_intCast_cases z with ⟨hz, h | ⟨q, hq, h⟩⟩ | ⟨hz, h⟩ | ⟨hz, h | ⟨q, hq, h⟩⟩
  · rw [h, decide_eq_true (by omega)]
    rfl
  · rw [h, decide_eq_true (by omega), le, decide_eq_true_eq]
    linarith
  · rw [h, hz]
    rfl
  · rw [h, decide_eq_false (by omega)]
    rfl
  · rw [h, decide_eq_false (by omega), le, decide_eq_false_iff_not]
    linarith

end BulkTraffic.Js
