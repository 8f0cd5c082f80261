import BulkTraffic.Js.NumberLiteral

/-!
# Every number is read back from its text

`Number(String(n))` is `n` for every finite number (`numberOfString_numberText`).

A decimal of seventeen digits is nearer to the number than half of its last place
(`Rounded.binary64_of_close`), so the search for the shortest decimal ends there at the latest
(`Rounded.shortestDigits`). What is left is that the text of a decimal is read as the decimal, with a
point, with zeros before it or with an exponent (`readDecimal_magnitudeText`).
-/

namespace BulkTraffic.Js

/-! ### What is close to a number -/

/-- A positive number as binary64 has it. -/
structure Rounded (q : ℚ) : Prop where
  pos : 0 < q
  fits : q < pow2 1024
  whole : ∃ z : ℤ, q = z * pow2 (lastPlace q)

/-- A multiple of a place is a multiple of the smaller ones. -/
theorem multiple_of_le {q : ℚ} {d e : ℤ} (h : d ≤ e) (hq : ∃ z : ℤ, q = z * pow2 e) :
    ∃ z : ℤ, q = z * pow2 d := by
  obtain ⟨z, rfl⟩ := hq
  refine ⟨z * 2 ^ (e - d).toNat, ?_⟩
  rw [Int.cast_mul, ← pow2_div_pow2 h, mul_assoc, div_mul_cancel₀ _ (pow2_pos d).ne']

theorem lastPlace_le_of_lt {a b : ℚ} (hb : 0 < b) (h : b < pow2 (floorLog2 a + 1)) :
    lastPlace b ≤ lastPlace a := by
  have hlog : floorLog2 b ≤ floorLog2 a := by
    have hle := (pow2_floorLog2_le hb).trans_lt h
    by_contra hlt
    exact absurd (pow2_le_pow2 (show floorLog2 a + 1 ≤ floorLog2 b by omega)) (not_le.mpr hle)
  rw [lastPlace, lastPlace]
  omega

/-- What a number is rounded to is a multiple of its own last place. -/
theorem roundToPlace_whole {a : ℚ} (ha : 0 < a) (hpos : 0 < roundToPlace a) :
    ∃ z : ℤ, roundToPlace a = z * pow2 (lastPlace (roundToPlace a)) := by
  have hle : roundToPlace a ≤ pow2 (max (floorLog2 a + 1) (lastPlace a)) :=
    roundToPlace_le_pow2 ((lt_pow2_floorLog2_succ ha).le.trans (pow2_le_pow2 (le_max_left _ _)))
      (le_max_right _ _)
  rcases hle.lt_or_eq with hlt | heq
  · have hlog : floorLog2 (roundToPlace a) < max (floorLog2 a + 1) (lastPlace a) := by
      by_contra hge
      exact absurd ((pow2_le_pow2 (not_lt.mp hge)).trans (pow2_floorLog2_le hpos)) (not_le.mpr hlt)
    refine multiple_of_le ?_ ⟨_, rfl⟩
    rw [lastPlace, lastPlace] at *
    omega
  · refine multiple_of_le ?_ ⟨1, by rw [Int.cast_one, one_mul]; exact heq⟩
    rw [heq, lastPlace, floorLog2_pow2, lastPlace]
    omega

theorem rounded_roundToPlace {a : ℚ} (ha : 0 < a) (hfits : ¬ pow2 1024 ≤ roundToPlace a) :
    roundToPlace a = 0 ∨ Rounded (roundToPlace a) := by
  rcases (roundToPlace_nonneg ha.le).eq_or_lt with hzero | hpos
  · exact .inl hzero.symm
  · exact .inr ⟨hpos, not_le.mp hfits, roundToPlace_whole ha hpos⟩

/-- A finite number is zero, or such a number with or without a sign. -/
theorem rounded_of_binary64 {x q : ℚ} (h : binary64 x = .finite q) :
    q = 0 ∨ Rounded q ∨ Rounded (-q) := by
  rcases lt_trichotomy x 0 with hx | rfl | hx
  · rw [← neg_neg x, binary64_neg _ (neg_pos.mpr hx)] at h
    split at h
    · cases h
    · rename_i hfits
      obtain rfl := Number.finite.inj h
      rw [neg_neg, neg_eq_zero]
      exact (rounded_roundToPlace (neg_pos.mpr hx) hfits).imp_right .inr
  · exact .inl (Number.finite.inj h).symm
  · rw [binary64_of_pos hx] at h
    split at h
    · cases h
    · rename_i hfits
      obtain rfl := Number.finite.inj h
      exact (rounded_roundToPlace hx hfits).imp_right .inl

/-- What is closer than half a place to a multiple of the place is rounded to it. -/
theorem roundToPlace_of_close {d q : ℚ} (hq : ∃ z : ℤ, q = z * pow2 (lastPlace d))
    (h : |d - q| < pow2 (lastPlace d) / 2) : roundToPlace d = q := by
  obtain ⟨z, hz⟩ := hq
  have hpos := pow2_pos (lastPlace d)
  have hclose : |d / pow2 (lastPlace d) - z| < 1 / 2 := by
    have hscaled : d / pow2 (lastPlace d) - z = (d - q) / pow2 (lastPlace d) := by
      rw [hz, sub_div, mul_div_cancel_right₀ _ hpos.ne']
    rw [hscaled, abs_div, abs_of_pos hpos, div_lt_iff₀ hpos]
    linarith
  have hround := abs_roundHalfEven_sub_le (d / pow2 (lastPlace d))
  have hsame : roundHalfEven (d / pow2 (lastPlace d)) = z := by
    obtain ⟨hlow, hhigh⟩ := abs_lt.mp hclose
    obtain ⟨hlow', hhigh'⟩ := abs_le.mp hround
    have hup : (roundHalfEven (d / pow2 (lastPlace d)) : ℚ) < z + 1 := by linarith
    have hdown : (z : ℚ) < roundHalfEven (d / pow2 (lastPlace d)) + 1 := by linarith
    have hup' : roundHalfEven (d / pow2 (lastPlace d)) < z + 1 := by exact_mod_cast hup
    have hdown' : z < roundHalfEven (d / pow2 (lastPlace d)) + 1 := by exact_mod_cast hdown
    omega
  rw [roundToPlace, hsame, ← hz]

theorem Rounded.lastPlace_le {q : ℚ} (h : Rounded q) : pow2 (lastPlace q) ≤ q := by
  obtain ⟨z, hz⟩ := h.whole
  have hu := pow2_pos (lastPlace q)
  have hpos : (0 : ℚ) < z * pow2 (lastPlace q) := hz ▸ h.pos
  have hone : (1 : ℤ) ≤ z := by exact_mod_cast (mul_pos_iff_of_pos_right hu).mp hpos
  have hone' : (1 : ℚ) ≤ z := by exact_mod_cast hone
  exact (le_mul_of_one_le_left hu.le hone').trans_eq hz.symm

/-- The next power of two is at least a last place away. -/
theorem Rounded.add_place_le {q : ℚ} (h : Rounded q) :
    q + pow2 (lastPlace q) ≤ pow2 (floorLog2 q + 1) := by
  have hu := pow2_pos (lastPlace q)
  have hbelow := lt_pow2_floorLog2_succ h.pos
  have hexp : lastPlace q ≤ floorLog2 q + 1 := by
    by_contra hlt
    have hle := pow2_le_pow2 (not_le.mp hlt).le
    have := h.lastPlace_le
    linarith
  obtain ⟨z, hz⟩ := h.whole
  obtain ⟨m, hm⟩ := multiple_of_le hexp ⟨1, (by rw [Int.cast_one, one_mul] :
    pow2 (floorLog2 q + 1) = (1 : ℤ) * pow2 (floorLog2 q + 1))⟩
  have hstep : (z : ℚ) + 1 ≤ m := by
    have hlt : (z : ℚ) < m := by
      rw [hm] at hbelow
      nth_rewrite 1 [hz] at hbelow
      exact lt_of_mul_lt_mul_right hbelow hu.le
    exact_mod_cast (by exact_mod_cast hlt : z < m)
  rw [hm]
  nth_rewrite 1 [hz]
  calc z * pow2 (lastPlace q) + pow2 (lastPlace q) = (z + 1) * pow2 (lastPlace q) := by ring
    _ ≤ m * pow2 (lastPlace q) := mul_le_mul_of_nonneg_right hstep hu.le

theorem lt_place_mul {x : ℚ} (hx : 0 < x) : x < pow2 (lastPlace x) * 2 ^ 53 := by
  have hle : pow2 (floorLog2 x + 1) ≤ pow2 (lastPlace x + (53 : ℕ)) := by
    apply pow2_le_pow2
    rw [lastPlace]
    omega
  refine (lt_pow2_floorLog2_succ hx).trans_le (hle.trans_eq ?_)
  rw [pow2_eq_zpow, pow2_eq_zpow, zpow_add₀ two_ne_zero, zpow_natCast]

theorem Rounded.roundToPlace_eq {q : ℚ} (h : Rounded q) : roundToPlace q = q :=
  Js.roundToPlace_of_close h.whole (by rw [sub_self, abs_zero]; exact half_pos (pow2_pos _))

theorem Rounded.isMagnitude {q : ℚ} (h : Rounded q) : IsMagnitude (magnitudeText q) := by
  have hmagnitude := isMagnitude_magnitudeText h.pos
  rwa [h.roundToPlace_eq] at hmagnitude

/-- **Seventeen digits are enough**: what differs by less than half of the last of them is rounded to
the number. -/
theorem Rounded.roundToPlace_of_close {q : ℚ} (h : Rounded q) {d : ℚ}
    (hclose : |d - q| ≤ q / (2 * 10 ^ 16)) : 0 < d ∧ roundToPlace d = q := by
  obtain ⟨hlow, hhigh⟩ := abs_le.mp hclose
  have hqpos := h.pos
  have hd : 0 < d := by linarith
  have hplace : lastPlace d ≤ lastPlace q := by
    apply lastPlace_le_of_lt hd
    have hgap := h.add_place_le
    have hfits := lt_place_mul hqpos
    linarith
  refine ⟨hd, Js.roundToPlace_of_close (multiple_of_le hplace h.whole) (hclose.trans_lt ?_)⟩
  have hfits := lt_place_mul hd
  linarith

theorem Rounded.binary64_of_close {q : ℚ} (h : Rounded q) {d : ℚ}
    (hclose : |d - q| ≤ q / (2 * 10 ^ 16)) : binary64 d = .finite q := by
  obtain ⟨hd, hround⟩ := h.roundToPlace_of_close hclose
  rw [binary64_of_pos hd, hround, if_neg (not_le.mpr h.fits)]

/-! ### The shortest decimal reads back -/

/-- One of the two decimals of `k` digits next to a number reads back as it, from seventeen digits
on. -/
theorem Rounded.reads_neighbour {q : ℚ} (h : Rounded q) {n : ℤ} (hn : (10 : ℚ) ^ (n - 1) ≤ q) {k : ℕ}
    (hk : 17 ≤ k) :
    binary64 ((q / 10 ^ (n - k)).floor.toNat * 10 ^ (n - k)) = .finite q ∨
      binary64 (((q / 10 ^ (n - k)).floor.toNat + 1 : ℕ) * 10 ^ (n - k)) = .finite q := by
  obtain ⟨hunit, hscale, hsmall⟩ := place_le hn (k := k) (by omega)
  obtain ⟨-, hfloor, hle⟩ := leading_digits hunit hsmall
  have hlt : q / 10 ^ (n - k) < (q / 10 ^ (n - k)).floor.toNat + 1 := by
    rw [hfloor]
    exact_mod_cast Rat.lt_floor_add_one _
  have habove : q < ((q / 10 ^ (n - k)).floor.toNat + 1) * 10 ^ (n - k) := (div_lt_iff₀ hunit).mp hlt
  have hsixteen : (10 : ℚ) ^ (n - k) * 10 ^ 16 ≤ q :=
    (mul_le_mul_of_nonneg_left (pow_le_pow_right₀ (by norm_num) (by omega)) hunit.le).trans hscale
  have hhalf : (10 : ℚ) ^ (n - k) / 2 ≤ q / (2 * 10 ^ 16) := by
    rw [div_le_div_iff₀ two_pos (by norm_num)]
    linarith
  rw [add_mul, one_mul] at habove
  by_cases hnear : q - (q / 10 ^ (n - k)).floor.toNat * 10 ^ (n - k) ≤ 10 ^ (n - k) / 2
  · refine .inl (h.binary64_of_close (le_trans ?_ hhalf))
    rw [abs_le]
    constructor <;> linarith
  · refine .inr (h.binary64_of_close (le_trans ?_ hhalf))
    rw [Nat.cast_succ, add_mul, one_mul, abs_le]
    constructor <;> linarith

/-- **The shortest decimal** reads back as the number. -/
theorem Rounded.shortestDigits {q : ℚ} (h : Rounded q) {n : ℤ} (hn : (10 : ℚ) ^ (n - 1) ≤ q)
    (fuel k : ℕ) (hk : k ≤ 17) (hsum : 18 ≤ fuel + k) :
    binary64 ((shortestDigits q n fuel k).1 * 10 ^ (shortestDigits q n fuel k).2) = .finite q := by
  induction fuel generalizing k with
  | zero => omega
  | succ fuel ih =>
    simp only [Js.shortestDigits, scale10_one]
    split_ifs with hboth hbelow habove heven hlower hupper
    · exact hboth.1
    · exact hboth.2
    · exact hboth.1
    · exact hboth.2
    · exact hlower
    · exact hupper
    · refine ih (k + 1) ?_ (by omega)
      by_contra hlast
      rcases h.reads_neighbour hn (k := k) (by omega) with hread | hread
      · exact hlower hread
      · exact hupper hread

/-! ### Reading a decimal -/

/-- What ends a run of digits. -/
def Stops (rest : List Char) : Prop := ∀ c ∈ rest.head?, digitValue 10 c = none

theorem readDigits_run {cs rest : List Char} (h : ∀ c ∈ cs, c.isDigit = true) (hrest : Stops rest)
    (value digits : ℕ) :
    readDigits 10 (cs ++ rest) value digits =
      (Nat.ofDigitChars 10 cs value, digits + cs.length, rest) := by
  rw [readDigits_append h]
  cases rest with
  | nil => rfl
  | cons c rest => rw [readDigits, hrest c rfl]

/-- A decimal with a point. -/
theorem readDecimal_point {whole fraction power : List Char} (hwhole : ∀ c ∈ whole, c.isDigit = true)
    (hne : whole ≠ []) (hfraction : ∀ c ∈ fraction, c.isDigit = true) (hpower : Stops power) {e : ℤ}
    (he : readExponent power = some e) :
    readDecimal (whole ++ '.' :: (fraction ++ power)) =
      some (scale10 (Nat.ofDigitChars 10 (whole ++ fraction) 0) (e - fraction.length)) := by
  have hpoint : Stops ('.' :: (fraction ++ power)) := by
    intro c hc
    cases hc
    rfl
  have hlength : whole.length + fraction.length ≠ 0 := by
    have := List.length_pos_iff.mpr hne
    omega
  simp only [readDecimal, readDigits_run hwhole hpoint, readDigits_run hfraction hpower, Nat.zero_add,
    if_neg hlength, he, Option.map_some, Nat.ofDigitChars_append]

/-- A decimal with a point and no exponent. -/
theorem readDecimal_fraction {whole fraction : List Char} (hwhole : ∀ c ∈ whole, c.isDigit = true)
    (hne : whole ≠ []) (hfraction : ∀ c ∈ fraction, c.isDigit = true) :
    readDecimal (whole ++ '.' :: fraction) =
      some (scale10 (Nat.ofDigitChars 10 (whole ++ fraction) 0) (0 - fraction.length)) := by
  have hend : Stops [] := fun _ hc => absurd hc (Option.not_mem_none _)
  have hread := readDecimal_point hwhole hne hfraction hend rfl
  rwa [List.append_nil] at hread

/-- A decimal without a point. -/
theorem readDecimal_whole {whole power : List Char} (hwhole : ∀ c ∈ whole, c.isDigit = true)
    (hne : whole ≠ []) (hpower : Stops power) (hpoint : ∀ rest, power ≠ '.' :: rest) {e : ℤ}
    (he : readExponent power = some e) :
    readDecimal (whole ++ power) = some (scale10 (Nat.ofDigitChars 10 whole 0) e) := by
  have hlength : 0 + whole.length + 0 ≠ 0 := by
    have := List.length_pos_iff.mpr hne
    omega
  simp only [readDecimal, readDigits_run hwhole hpower, if_neg hlength, he, Option.map_some,
    Nat.cast_zero, sub_zero]

theorem readExponent_sign (e : ℤ) :
    readExponent ('e' :: (if 0 ≤ e then '+' else '-') :: Nat.toDigits 10 e.natAbs) = some e := by
  have hlength := Nat.length_toDigits_pos (b := 10) (n := e.natAbs)
  obtain ⟨l, hl⟩ := Nat.exists_eq_succ_of_ne_zero hlength.ne'
  split
  · rename_i hsign
    have habs : (e.natAbs : ℤ) = e := by omega
    simp only [readExponent, readDigits_toDigits, hl]
    simp [habs]
  · rename_i hsign
    have habs : -(e.natAbs : ℤ) = e := by omega
    simp only [readExponent, readDigits_toDigits, hl]
    simp only [if_true, habs, Char.reduceEq, or_false]

/-! ### Reading the text of a number -/

theorem scale10_eq (mantissa : ℕ) (e : ℤ) : scale10 mantissa e = mantissa * 10 ^ e := by
  rw [scale10]
  split
  · rename_i h
    obtain ⟨k, rfl⟩ := Int.eq_ofNat_of_zero_le h
    rw [Int.toNat_natCast, Nat.cast_mul, Nat.cast_pow, zpow_natCast]
    rfl
  · rename_i h
    obtain ⟨k, hk⟩ : ∃ k : ℕ, e = -(k : ℤ) := ⟨(-e).toNat, by omega⟩
    rw [hk, neg_neg, Int.toNat_natCast, Rat.mkRat_eq_div, zpow_neg, zpow_natCast, ← div_eq_mul_inv]
    push_cast
    rfl

theorem readDecimal_scientific {digits : List Char} (hne : digits ≠ [])
    (hall : ∀ c ∈ digits, c.isDigit = true) (e : ℤ) :
    readDecimal (scientific digits e) =
      some (scale10 (Nat.ofDigitChars 10 digits 0) (e - (digits.length - 1 : ℕ))) := by
  have hpower : Stops ('e' :: (if 0 ≤ e then '+' else '-') :: Nat.toDigits 10 e.natAbs) := by
    intro c hc
    cases hc
    rfl
  have he := readExponent_sign e
  obtain ⟨d, ds, rfl⟩ := List.exists_cons_of_ne_nil hne
  have hd : ∀ c ∈ [d], c.isDigit = true := fun c hc => hall c (by simp_all)
  have hds : ∀ c ∈ ds, c.isDigit = true := fun c hc => hall c (List.mem_cons_of_mem _ hc)
  cases ds with
  | nil =>
    have hread := readDecimal_whole hd (List.cons_ne_nil _ _) hpower (fun _ => by simp) he
    simpa [scientific] using hread
  | cons d' ds =>
    have hread := readDecimal_point hd (List.cons_ne_nil _ _) hds hpower he
    simpa [scientific] using hread

/-- The digits of a number that is not zero, without the zeros at their end. -/
theorem stripped {s : ℕ} (hs : s ≠ 0) :
    stripZeros (Nat.toDigits 10 s) ≠ [] ∧ (∀ c ∈ stripZeros (Nat.toDigits 10 s), c.isDigit = true) ∧
      ∀ e : ℤ, scale10 (Nat.ofDigitChars 10 (stripZeros (Nat.toDigits 10 s)) 0)
        ((Nat.toDigits 10 s).length + e - (stripZeros (Nat.toDigits 10 s)).length) = s * 10 ^ e := by
  obtain ⟨z, hz⟩ := stripZeros_append (Nat.toDigits 10 s)
  have hall : ∀ c ∈ stripZeros (Nat.toDigits 10 s), c.isDigit = true := by
    intro c hc
    refine isDigit_of_mem_toDigits (n := s) ?_
    rw [hz]
    exact List.mem_append_left _ hc
  have hvalue := eq_of_toDigits hz
  have hlength := congrArg List.length hz
  rw [List.length_append, List.length_replicate] at hlength
  refine ⟨?_, hall, fun e => ?_⟩
  · intro hnil
    rw [hnil, Nat.ofDigitChars_nil, Nat.mul_zero] at hvalue
    exact hs hvalue
  · have hexp : (Nat.toDigits 10 s).length + e - (stripZeros (Nat.toDigits 10 s)).length = z + e := by
      rw [hlength]
      push_cast
      ring
    rw [hexp, scale10_eq, zpow_add₀ (by norm_num), zpow_natCast]
    nth_rewrite 2 [hvalue]
    push_cast
    ring

/-- The text of a number that is no integer is read as its shortest decimal. -/
theorem readDecimal_fractionText {q : ℚ} (h : Fractional q) :
    readDecimal (fractionText q) = some (((shortestDigits q (decimalPoint q) 17 1).1 : ℚ) *
      10 ^ (shortestDigits q (decimalPoint q) 17 1).2) := by
  obtain ⟨hne, hint⟩ := h.shortestDigits (pow_decimalPoint_le h.pos) 17 1 (Nat.le_refl _) (by decide)
  simp only [fractionText]
  generalize shortestDigits q (decimalPoint q) 17 1 = decimal at hne hint ⊢
  obtain ⟨s, e⟩ := decimal
  have hlength := length_stripZeros_gt hint
  obtain ⟨hdigits, hall, hvalue⟩ := stripped hne
  specialize hvalue e
  simp only at hlength hdigits hall hvalue ⊢
  generalize stripZeros (Nat.toDigits 10 s) = digits at hlength hdigits hall hvalue ⊢
  generalize ((Nat.toDigits 10 s).length : ℤ) + e = n at hlength hvalue ⊢
  have hpos := List.length_pos_iff.mpr hdigits
  rw [← hvalue]
  split
  · rw [readDecimal_scientific hdigits hall]
    congr 2
    omega
  · split
    · have hzeros : ∀ c ∈ List.replicate (-n).toNat '0' ++ digits, c.isDigit = true := by
        intro c hc
        rcases List.mem_append.mp hc with hc | hc
        · rw [List.eq_of_mem_replicate hc]
          rfl
        · exact hall c hc
      have hleading : ∀ c ∈ ['0'], c.isDigit = true := by simp
      have hread := readDecimal_fraction hleading (List.cons_ne_nil _ _) hzeros
      rw [List.singleton_append] at hread
      rw [hread, ← List.append_assoc, Nat.ofDigitChars_append]
      have hzero : Nat.ofDigitChars 10 (['0'] ++ List.replicate (-n).toNat '0') 0 = 0 := by
        rw [Nat.ofDigitChars_append, Nat.ofDigitChars_replicate_zero]
        rfl
      rw [hzero, List.length_append, List.length_replicate]
      congr 2
      omega
    · have htake : digits.take n.toNat ≠ [] := by
        rw [ne_eq, List.take_eq_nil_iff]
        simp only [hdigits, or_false]
        omega
      have hdrop : ∀ c ∈ digits.drop n.toNat, c.isDigit = true := fun c hc =>
        hall c (List.mem_of_mem_drop hc)
      have hread := readDecimal_fraction (fun c hc => hall c (List.mem_of_mem_take hc)) htake hdrop
      rw [List.take_append_drop, List.length_drop] at hread
      rw [hread]
      congr 2
      omega

/-- An integer is rounded as `roundNat` says. -/
theorem roundToPlace_eq_roundNat {n : ℕ} (hn : n ≠ 0) : roundToPlace n = roundNat n := by
  rcases Nat.lt_or_ge n (2 ^ 53) with hlt | hge
  · rw [roundToPlace_natCast (Nat.pos_of_ne_zero hn) hlt, roundNat_of_lt hlt]
  · have hlog : 53 ≤ Nat.log2 n := (Nat.le_log2 hn).mpr hge
    have hplace : lastPlace n = (excessBits n : ℤ) := by
      rw [lastPlace, floorLog2_natCast hn, excessBits]
      omega
    have hpow : pow2 (excessBits n : ℤ) = (2 ^ excessBits n : ℕ) := by
      rw [pow2_eq_zpow, zpow_natCast]
      norm_cast
    rw [roundToPlace, hplace, hpow, roundHalfEven_div n (Nat.two_pow_pos _), roundNat]
    split_ifs <;> push_cast <;> rfl

/-- The text of a natural number is read as its shortest decimal. -/
theorem readDecimal_naturalText {n : ℕ} (hn : n ≠ 0) :
    readDecimal (naturalText n) = some (shortestDecimal n : ℚ) := by
  simp only [naturalText]
  split
  · exact readDecimal_toDigits _
  · obtain ⟨hdigits, hall, hvalue⟩ := stripped (shortestFrom_pos hn (Nat.le_refl _))
    have hpos := List.length_pos_iff.mpr hdigits
    have hlength := Nat.length_toDigits_pos (b := 10) (n := shortestDecimal n)
    specialize hvalue 0
    rw [zpow_zero, mul_one] at hvalue
    rw [shortestDecimal] at hlength ⊢
    rw [readDecimal_scientific hdigits hall, ← hvalue]
    congr 2
    omega

/-- **The text of a positive number** is read as a decimal that is rounded to it. -/
theorem readDecimal_magnitudeText {q : ℚ} (h : Rounded q) :
    ∃ r, 0 < r ∧ roundToPlace r = q ∧ readDecimal (magnitudeText q) = some r := by
  rw [magnitudeText]
  split
  · rename_i hden
    obtain ⟨n, hn⟩ : ∃ n : ℕ, q = n := by
      have hnum : 0 < q.num := Rat.num_pos.mpr h.pos
      refine ⟨q.num.toNat, ?_⟩
      have hq : (q.num : ℚ) = q := Rat.coe_int_num_of_den_eq_one hden
      rw [← hq]
      exact_mod_cast (Int.toNat_of_nonneg hnum.le).symm
    subst hn
    have hne : n ≠ 0 := by
      rintro rfl
      exact absurd h.pos (by norm_num)
    have hround : roundNat n = n := by
      have hfix := h.roundToPlace_eq
      rw [roundToPlace_eq_roundNat hne] at hfix
      exact_mod_cast hfix
    have hshortest : shortestDecimal n ≠ 0 := shortestFrom_pos hne (Nat.le_refl _)
    refine ⟨shortestDecimal n, by exact_mod_cast Nat.pos_of_ne_zero hshortest, ?_, ?_⟩
    · rw [roundToPlace_eq_roundNat hshortest, roundNat_shortestDecimal hround]
    · rw [Rat.num_natCast, Int.toNat_natCast]
      exact readDecimal_naturalText hne
  · rename_i hden
    have hfix := h.roundToPlace_eq
    have hfractional : Fractional q := by
      rw [← hfix] at hden ⊢
      exact fractional_roundToPlace h.pos (hfix.symm ▸ h.pos) hden
    have hread := h.shortestDigits (pow_decimalPoint_le h.pos) 17 1 (by decide) (by decide)
    obtain ⟨hne, -⟩ := hfractional.shortestDigits (pow_decimalPoint_le h.pos) 17 1 (Nat.le_refl _)
      (by decide)
    have hpos : (0 : ℚ) < (shortestDigits q (decimalPoint q) 17 1).1 *
        10 ^ (shortestDigits q (decimalPoint q) 17 1).2 :=
      mul_pos (by exact_mod_cast Nat.pos_of_ne_zero hne) (zpow_pos (by norm_num) _)
    refine ⟨_, hpos, ?_, readDecimal_fractionText hfractional⟩
    rw [binary64_of_pos hpos] at hread
    split at hread
    · cases hread
    · exact Number.finite.inj hread

/-! ### `Number(String(n))` -/

/-- A character of a number literal. -/
def IsLiteralChar (c : Char) : Prop := c.isDigit = true ∨ c = '.' ∨ c = 'e' ∨ c = '+' ∨ c = '-'

theorem isLiteralChar_of_isMagnitude {cs : List Char} (h : IsMagnitude cs) :
    ∀ c ∈ cs, IsLiteralChar c := by
  obtain ⟨hwhole, hfraction, hpower⟩ := h
  intro c hc
  rcases List.mem_append.mp hc with hc | hc
  · cases hwhole with
    | zero => exact .inl (by simp_all)
    | digits hd hzero hds =>
      rcases List.mem_cons.mp hc with rfl | hc
      · exact .inl hd
      · exact .inl (hds c hc)
  rcases List.mem_append.mp hc with hc | hc
  · cases hfraction with
    | none => cases hc
    | digits hne hds =>
      rcases List.mem_cons.mp hc with rfl | hc
      · exact .inr (.inl rfl)
      · exact .inl (hds c hc)
  · cases hpower with
    | none => cases hc
    | digits hsign hne hds =>
      rcases List.mem_cons.mp hc with rfl | hc
      · exact .inr (.inr (.inl rfl))
      rcases List.mem_cons.mp hc with rfl | hc
      · exact .inr (.inr (.inr hsign))
      · exact .inl (hds c hc)

theorem head_of_isMagnitude {cs : List Char} (h : IsMagnitude cs) :
    ∃ d ds, cs = d :: ds ∧ d.isDigit = true := by
  obtain ⟨hwhole, -, -⟩ := h
  cases hwhole with
  | zero => exact ⟨'0', _, rfl, rfl⟩
  | digits hd => exact ⟨_, _, rfl, hd⟩

theorem trim_of_noWhite {cs : List Char} (h : ∀ c ∈ cs, isWhite c = false) :
    trim (String.ofList cs) = String.ofList cs := by
  have hdrop : ∀ {l : List Char}, (∀ c ∈ l, isWhite c = false) → l.dropWhile isWhite = l := by
    intro l hl
    cases l with
    | nil => rfl
    | cons c l => rw [List.dropWhile_cons_of_neg (by simp [hl c List.mem_cons_self])]
  rw [trim, String.toList_ofList, hdrop h, hdrop (fun c hc => h c (List.mem_reverse.mp hc)),
    List.reverse_reverse]

theorem isWhite_of_isLiteralChar {c : Char} (h : IsLiteralChar c) : isWhite c = false := by
  rcases h with h | rfl | rfl | rfl | rfl
  · exact isWhite_of_isDigit h
  all_goals decide

/-- A literal without a sign is read as a decimal. -/
theorem readSigned_of_isMagnitude {cs : List Char} (h : IsMagnitude cs) {r : ℚ}
    (hr : readDecimal cs = some r) (negative : Bool) :
    readSigned negative cs = binary64 (if negative then -r else r) := by
  have hne : cs ≠ "Infinity".toList := by
    intro heq
    obtain ⟨d, ds, rfl, hd⟩ := head_of_isMagnitude h
    obtain rfl : d = 'I' := (List.cons.inj heq).1
    cases hd
  rw [readSigned, if_neg hne, hr]

theorem numberOfString_positive {cs : List Char} (h : IsMagnitude cs) :
    numberOfString (String.ofList cs) = readSigned false cs := by
  have hall := isLiteralChar_of_isMagnitude h
  obtain ⟨d, ds, rfl, hd⟩ := head_of_isMagnitude h
  have hsecond : ∀ c rest, d :: ds = '0' :: c :: rest → IsLiteralChar c := by
    intro c rest heq
    exact hall c (by rw [heq]; simp)
  rw [numberOfString, trim_of_noWhite fun c hc => isWhite_of_isLiteralChar (hall c hc),
    String.toList_ofList]
  split
  · rename_i heq
    cases heq
  · rename_i heq
    exact absurd (hsecond _ _ heq) (by unfold IsLiteralChar; decide)
  · rename_i heq
    exact absurd (hsecond _ _ heq) (by unfold IsLiteralChar; decide)
  · rename_i heq
    exact absurd (hsecond _ _ heq) (by unfold IsLiteralChar; decide)
  · rename_i heq
    exact absurd (hsecond _ _ heq) (by unfold IsLiteralChar; decide)
  · rename_i heq
    exact absurd (hsecond _ _ heq) (by unfold IsLiteralChar; decide)
  · rename_i heq
    exact absurd (hsecond _ _ heq) (by unfold IsLiteralChar; decide)
  · rename_i heq
    rw [(List.cons.inj heq).1] at hd
    cases hd
  · rename_i heq
    rw [(List.cons.inj heq).1] at hd
    cases hd
  · rfl

theorem numberOfString_negative {cs : List Char} (h : IsMagnitude cs) :
    numberOfString (String.ofList ('-' :: cs)) = readSigned true cs := by
  have hall := isLiteralChar_of_isMagnitude h
  have hwhite : ∀ c ∈ '-' :: cs, isWhite c = false := by
    rw [List.forall_mem_cons]
    exact ⟨by decide, fun c hc => isWhite_of_isLiteralChar (hall c hc)⟩
  rw [numberOfString, trim_of_noWhite hwhite, String.toList_ofList]
  rfl

/-- **Every finite number is read back** from its text. -/
theorem numberOfString_numberText {x q : ℚ} (h : binary64 x = .finite q) :
    numberOfString (numberText (.finite q)) = .finite q := by
  rcases rounded_of_binary64 h with rfl | hrounded | hrounded
  · decide +kernel
  · have hmagnitude := hrounded.isMagnitude
    obtain ⟨r, hr, hplace, hread⟩ := readDecimal_magnitudeText hrounded
    rw [numberText, if_neg (not_lt.mpr hrounded.pos.le), numberOfString_positive hmagnitude,
      readSigned_of_isMagnitude hmagnitude hread]
    simp only [Bool.false_eq_true, if_false]
    rw [binary64_of_pos hr, hplace, if_neg (not_le.mpr hrounded.fits)]
  · have hmagnitude := hrounded.isMagnitude
    obtain ⟨r, hr, hplace, hread⟩ := readDecimal_magnitudeText hrounded
    rw [numberText, if_pos (neg_pos.mp hrounded.pos), numberOfString_negative hmagnitude,
      readSigned_of_isMagnitude hmagnitude hread, if_pos rfl, binary64_neg _ hr, hplace,
      if_neg (not_le.mpr hrounded.fits), neg_neg]

end BulkTraffic.Js
