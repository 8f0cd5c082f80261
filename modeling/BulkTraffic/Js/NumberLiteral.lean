import BulkTraffic.Js.JsonRoundTrip
import BulkTraffic.Js.Rounding
import Mathlib.Data.List.TakeWhile

/-!
# Every number is written as a literal of JSON

`numberText` prints a finite number as an integer, with a fraction or with an exponent.
`isNumber_numberText` says that each of these is a number literal of JSON, and `wellFormed_ofNumber`
that this is all `JSON.stringify` writes for a number, but for `null`.

What has to be seen is that a digit stands behind every point. Between a binary64 number that is no
integer and the integer below it there is a gap (`Fractional.gap`). A decimal that reads back as the
number is no integer then, and neither are its first digits from seventeen on, so some digit behind
the point is not zero.
-/

namespace BulkTraffic.Js

/-! ### Digits -/

theorem head_toDigits {n : ℕ} (h : n ≠ 0) : ∃ d ds, Nat.toDigits 10 n = d :: ds ∧ d ≠ '0' := by
  induction n using Nat.strongRecOn with
  | ind n ih =>
    have hdigit : ∀ n < 10, n ≠ 0 → Nat.digitChar n ≠ '0' := by decide
    rw [Nat.toDigits_eq_if (by decide)]
    split
    · rename_i hlt
      exact ⟨_, _, rfl, hdigit n hlt h⟩
    · rename_i hle
      obtain ⟨d, ds, hds, hd⟩ := ih (n / 10) (by omega) (by omega)
      exact ⟨d, ds ++ [Nat.digitChar (n % 10)], by rw [hds, List.cons_append], hd⟩

/-- The digits of an integer are what stands before a point. -/
theorem isWhole_toDigits (n : ℕ) : IsWhole (Nat.toDigits 10 n) := by
  by_cases h : n = 0
  · rw [h]
    exact .zero
  · obtain ⟨d, ds, hds, hd⟩ := head_toDigits h
    have hall : ∀ c ∈ d :: ds, c.isDigit = true := fun c hc => isDigit_of_mem_toDigits (hds ▸ hc)
    rw [hds]
    exact .digits (hall d List.mem_cons_self) hd fun c hc => hall c (List.mem_cons_of_mem _ hc)

theorem isMagnitude_toDigits (n : ℕ) : IsMagnitude (Nat.toDigits 10 n) := by
  have h := IsMagnitude.parts (isWhole_toDigits n) .none .none
  rwa [List.append_nil, List.append_nil] at h

theorem stripZeros_append (digits : List Char) :
    ∃ z, digits = stripZeros digits ++ List.replicate z '0' := by
  have hsplit := List.takeWhile_append_dropWhile (p := fun c => c == '0') (l := digits.reverse)
  have hzeros : digits.reverse.takeWhile (fun c => c == '0') =
      List.replicate (digits.reverse.takeWhile fun c => c == '0').length '0' :=
    List.eq_replicate_iff.mpr ⟨rfl, fun c hc => by simpa using List.mem_takeWhile_imp hc⟩
  refine ⟨(digits.reverse.takeWhile fun c => c == '0').length, ?_⟩
  rw [stripZeros, ← List.reverse_replicate, ← hzeros, ← List.reverse_append, hsplit, List.reverse_reverse]

/-- The first digit stays where it is no zero. -/
theorem stripZeros_cons {d : Char} (hd : d ≠ '0') (ds : List Char) :
    ∃ ts, stripZeros (d :: ds) = d :: ts ∧ ∀ c ∈ ts, c ∈ ds := by
  obtain ⟨z, hz⟩ := stripZeros_append (d :: ds)
  cases hstrip : stripZeros (d :: ds) with
  | nil =>
    rw [hstrip, List.nil_append] at hz
    have hmem : d ∈ List.replicate z '0' := hz ▸ List.mem_cons_self
    exact absurd (List.eq_of_mem_replicate hmem) hd
  | cons c ts =>
    rw [hstrip, List.cons_append, List.cons.injEq] at hz
    obtain ⟨rfl, rfl⟩ := hz
    exact ⟨ts, rfl, fun c hc => List.mem_append_left _ hc⟩

theorem isMagnitude_scientific {d : Char} {ds : List Char} (hzero : d ≠ '0')
    (hall : ∀ c ∈ d :: ds, c.isDigit = true) (e : ℤ) : IsMagnitude (scientific (d :: ds) e) := by
  have hd : d.isDigit = true := hall d List.mem_cons_self
  have hds : ∀ c ∈ ds, c.isDigit = true := fun c hc => hall c (List.mem_cons_of_mem _ hc)
  have hfraction : IsFraction (if (d :: ds).length ≤ 1 then [] else '.' :: (d :: ds).drop 1) := by
    split
    · exact .none
    · rename_i hlength
      refine .digits (fun hnil => hlength ?_) hds
      have hnil : ds = [] := hnil
      simp [hnil]
  have hpower : IsPower ('e' :: (if 0 ≤ e then '+' else '-') :: Nat.toDigits 10 e.natAbs) := by
    refine .digits ?_ Nat.toDigits_ne_nil fun c hc => isDigit_of_mem_toDigits hc
    split
    · exact .inl rfl
    · exact .inr rfl
  rw [scientific, List.append_assoc]
  exact .parts (.digits hd hzero (List.forall_mem_nil _)) hfraction hpower

/-! ### Integers -/

theorem shortestFrom_pos {x : ℕ} (hx : x ≠ 0) {e : ℕ} (he : e ≤ Nat.log 10 x) : shortestFrom x e ≠ 0 := by
  induction e with
  | zero => exact hx
  | succ e ih =>
    have hu : 10 ^ (e + 1) ≤ x :=
      (Nat.pow_le_pow_right (by omega) he).trans (Nat.pow_log_le_self 10 hx)
    have hupos : 0 < 10 ^ (e + 1) := Nat.pow_pos (by decide)
    have hlo : 0 < x / 10 ^ (e + 1) * 10 ^ (e + 1) := Nat.mul_pos (Nat.div_pos hu hupos) hupos
    have hih := ih (by omega)
    simp only [shortestFrom]
    split_ifs <;> omega

theorem isMagnitude_naturalText (n : ℕ) : IsMagnitude (naturalText n) := by
  simp only [naturalText]
  split
  · exact isMagnitude_toDigits _
  · have hn : n ≠ 0 := by omega
    obtain ⟨d, ds, hds, hd⟩ := head_toDigits (shortestFrom_pos hn (Nat.le_refl _))
    have hall : ∀ c ∈ d :: ds, c.isDigit = true := fun c hc => isDigit_of_mem_toDigits (hds ▸ hc)
    obtain ⟨ts, hts, hsub⟩ := stripZeros_cons hd ds
    rw [shortestDecimal, hds, hts]
    refine isMagnitude_scientific hd (fun c hc => ?_) _
    rcases List.mem_cons.mp hc with rfl | hc
    · exact hall _ List.mem_cons_self
    · exact hall c (List.mem_cons_of_mem _ (hsub c hc))

/-! ### What is no integer -/

theorem scale10_one (e : ℤ) : scale10 1 e = 10 ^ e := by
  rw [scale10]
  split
  · rename_i h
    rw [one_mul, Nat.cast_pow, ← zpow_natCast, Int.toNat_of_nonneg h]
    rfl
  · rename_i h
    have hneg : ((-e).toNat : ℤ) = -e := Int.toNat_of_nonneg (by omega)
    rw [Rat.mkRat_eq_div, Nat.cast_one, Int.cast_one, Nat.cast_pow, ← zpow_natCast, hneg, zpow_neg,
      one_div, inv_inv]
    rfl

theorem pow_decimalPoint_le {q : ℚ} (hq : 0 < q) : (10 : ℚ) ^ (decimalPoint q - 1) ≤ q := by
  rw [decimalPoint]
  split
  · rename_i hone
    have hfloor : (q.floor : ℚ) ≤ q := Rat.floor_le q
    have hge : 1 ≤ q.floor := Rat.le_floor_iff.mpr (by exact_mod_cast hone)
    have hcast : ((q.floor.toNat : ℤ) : ℚ) = q.floor := by rw [Int.toNat_of_nonneg (by omega)]
    have hlog : (10 ^ Nat.log 10 q.floor.toNat : ℕ) ≤ q.floor.toNat :=
      Nat.pow_log_le_self 10 (by omega)
    have hlog' : (10 : ℚ) ^ Nat.log 10 q.floor.toNat ≤ q.floor.toNat := by exact_mod_cast hlog
    rw [add_sub_cancel_right, zpow_natCast]
    calc (10 : ℚ) ^ Nat.log 10 q.floor.toNat ≤ q.floor.toNat := hlog'
      _ = q.floor := by exact_mod_cast hcast
      _ ≤ q := hfloor
  · have hceil : q⁻¹ ≤ (q⁻¹.ceil : ℚ) := Rat.le_ceil
    have hnat : (q⁻¹.ceil : ℚ) ≤ (q⁻¹.ceil.toNat : ℚ) := by exact_mod_cast Int.self_le_toNat _
    have hclog : ((q⁻¹.ceil.toNat : ℕ) : ℚ) ≤ 10 ^ Nat.clog 10 q⁻¹.ceil.toNat := by
      exact_mod_cast Nat.le_pow_clog (by decide) _
    have hexp : (1 - (Nat.clog 10 q⁻¹.ceil.toNat : ℤ)) - 1 = -(Nat.clog 10 q⁻¹.ceil.toNat : ℤ) := by ring
    rw [hexp, zpow_neg, zpow_natCast, inv_le_comm₀ (by positivity) hq]
    exact hceil.trans (hnat.trans hclog)

/-- A positive number that is no integer, as a binary64 number: at most `2 ^ 52`, and with a gap to
the integers below. -/
structure Fractional (q : ℚ) : Prop where
  pos : 0 < q
  high : q ≤ 2 ^ 52
  gap : ∀ m : ℕ, (m : ℚ) ≤ q → m + q / 2 ^ 53 ≤ q

theorem Fractional.ne_natCast {q : ℚ} (h : Fractional q) (m : ℕ) : q ≠ m := by
  intro hm
  have hgap := h.gap m hm.ge
  have hpos : 0 < q / 2 ^ 53 := div_pos h.pos (by norm_num)
  linarith

/-- What is rounded to a number that is no integer. -/
theorem fractional_roundToPlace {a : ℚ} (ha : 0 < a) (hpos : 0 < roundToPlace a)
    (hden : (roundToPlace a).den ≠ 1) : Fractional (roundToPlace a) := by
  -- It is `k` last places, each of them `1 / 2 ^ j`, with `k` at most `2 ^ 53`.
  have hplace : lastPlace a < 0 := by
    by_contra hge
    have hpow : pow2 (lastPlace a) = ((2 ^ (lastPlace a).toNat : ℕ) : ℚ) := by
      rw [pow2, if_pos (by omega)]
    rw [roundToPlace, hpow] at hden
    have hint : (roundHalfEven (a / ((2 ^ (lastPlace a).toNat : ℕ) : ℚ)) : ℚ) *
        ((2 ^ (lastPlace a).toNat : ℕ) : ℚ) = ((roundHalfEven (a / ((2 ^ (lastPlace a).toNat : ℕ) : ℚ)) *
        ((2 ^ (lastPlace a).toNat : ℕ) : ℤ) : ℤ) : ℚ) := by
      rw [Int.cast_mul, Int.cast_natCast]
    rw [hint] at hden
    exact hden (Rat.den_intCast _)
  obtain ⟨j, hj⟩ : ∃ j : ℕ, lastPlace a = -(j : ℤ) := ⟨(-lastPlace a).toNat, by omega⟩
  have hjpos : 1 ≤ j := by omega
  have hhigh : roundToPlace a ≤ pow2 (max (floorLog2 a + 1) (lastPlace a)) :=
    roundToPlace_le_pow2 ((lt_pow2_floorLog2_succ ha).le.trans (pow2_le_pow2 (le_max_left _ _)))
      (le_max_right _ _)
  have hlast : floorLog2 a - 52 ≤ lastPlace a := le_max_left _ _
  obtain ⟨k, hk⟩ : ∃ k : ℕ, roundToPlace a = k / 2 ^ j := by
    rw [roundToPlace, hj, pow2_neg] at hpos ⊢
    have hunit : (0 : ℚ) < 1 / 2 ^ j := by positivity
    have hround : 0 < roundHalfEven (a / (1 / 2 ^ j)) := by
      exact_mod_cast (mul_pos_iff_of_pos_right hunit).mp hpos
    obtain ⟨k, hk⟩ := Int.eq_ofNat_of_zero_le hround.le
    exact ⟨k, by rw [hk, Int.cast_natCast]; ring⟩
  have hpow : (0 : ℚ) < 2 ^ j := by positivity
  have hk53 : (k : ℚ) ≤ 2 ^ 53 := by
    have hle : pow2 (max (floorLog2 a + 1) (lastPlace a)) ≤ pow2 (53 - (j : ℤ)) :=
      pow2_le_pow2 (max_le (by omega) (by omega))
    rw [hk] at hhigh
    have hmul := (div_le_iff₀ hpow).mp (hhigh.trans hle)
    rw [pow2_eq_zpow, zpow_sub₀ two_ne_zero, zpow_natCast, div_mul_cancel₀ _ hpow.ne'] at hmul
    exact_mod_cast hmul
  refine ⟨hpos, ?_, fun m hm => ?_⟩
  · rw [hk, div_le_iff₀ hpow]
    have htwo : (2 : ℚ) ≤ 2 ^ j := by
      calc (2 : ℚ) = 2 ^ 1 := (pow_one 2).symm
        _ ≤ 2 ^ j := pow_le_pow_right₀ one_le_two hjpos
    linarith
  · have hne : (m : ℚ) ≠ roundToPlace a := by
      intro heq
      rw [← heq] at hden
      exact hden (Rat.den_natCast m)
    have hlt : m * 2 ^ j < k := by
      have hlt := lt_of_le_of_ne hm hne
      rw [hk, lt_div_iff₀ hpow] at hlt
      exact_mod_cast hlt
    have hstep : (m : ℚ) * 2 ^ j + 1 ≤ k := by exact_mod_cast hlt
    rw [hk, div_div, mul_comm, ← div_div, le_div_iff₀ hpow, add_mul, div_mul_cancel₀ _ hpow.ne']
    have hsmall : (k : ℚ) / 2 ^ 53 ≤ 1 := (div_le_one (by norm_num)).mpr hk53
    linarith

/-- A decimal that reads back as such a number is no integer. -/
theorem Fractional.not_reads {q : ℚ} (h : Fractional q) {m : ℕ} (hm : (m : ℚ) ≤ 2 * q) :
    binary64 m ≠ .finite q := by
  have hlt : m < 2 ^ 128 := by
    have hle : (m : ℚ) ≤ 2 ^ 53 := hm.trans (by linarith [h.high])
    have hnat : m ≤ 2 ^ 53 := by exact_mod_cast hle
    omega
  rw [binary64_natCast_eq hlt]
  intro heq
  exact h.ne_natCast _ (Number.finite.inj heq).symm

/-- The leading digits of a number, down to a place that is not above it. -/
theorem leading_digits {q unit : ℚ} (hunit : 0 < unit) (hsmall : unit ≤ q) :
    (q / unit).floor.toNat ≠ 0 ∧ ((q / unit).floor.toNat : ℚ) = (q / unit).floor ∧
      ((q / unit).floor.toNat : ℚ) * unit ≤ q := by
  have hone : 1 ≤ (q / unit).floor := Rat.le_floor_iff.mpr (by simpa using (one_le_div hunit).mpr hsmall)
  have hfloor : ((q / unit).floor.toNat : ℚ) = (q / unit).floor := by
    exact_mod_cast Int.toNat_of_nonneg (by omega)
  refine ⟨by omega, hfloor, ?_⟩
  rw [hfloor, ← le_div_iff₀ hunit]
  exact Rat.floor_le _

theorem Fractional.reads_ne {q unit : ℚ} (h : Fractional q) (hunit : 0 < unit) (hsmall : unit ≤ q)
    {s : ℕ} (hs : s ≤ (q / unit).floor.toNat + 1) (hread : binary64 (s * unit) = .finite q) (m : ℕ) :
    (s : ℚ) * unit ≠ m := by
  intro hm
  rw [hm] at hread
  refine h.not_reads (m := m) ?_ hread
  have hs' : (s : ℚ) ≤ (q / unit).floor.toNat + 1 := by exact_mod_cast hs
  have hmul := mul_le_mul_of_nonneg_right hs' hunit.le
  have hle := (leading_digits hunit hsmall).2.2
  rw [← hm]
  linarith

theorem place_le {q : ℚ} {n : ℤ} (hn : (10 : ℚ) ^ (n - 1) ≤ q) {k : ℕ} (hk : 1 ≤ k) :
    (0 : ℚ) < 10 ^ (n - k) ∧ (10 : ℚ) ^ (n - k) * 10 ^ (k - 1) ≤ q ∧ (10 : ℚ) ^ (n - k) ≤ q := by
  have hunit : (0 : ℚ) < 10 ^ (n - k) := zpow_pos (by norm_num) _
  have hexp : n - 1 = n - k + ((k - 1 : ℕ) : ℤ) := by omega
  rw [hexp, zpow_add₀ (by norm_num), zpow_natCast] at hn
  exact ⟨hunit, hn, (le_mul_of_one_le_right hunit.le (one_le_pow₀ (by norm_num))).trans hn⟩

/-- **The shortest decimal** of such a number is not zero and no integer. -/
theorem Fractional.shortestDigits {q : ℚ} (h : Fractional q) {n : ℤ} (hn : (10 : ℚ) ^ (n - 1) ≤ q)
    (fuel k : ℕ) (hk : 1 ≤ k) (hsum : 17 ≤ fuel + k) :
    (shortestDigits q n fuel k).1 ≠ 0 ∧
      ∀ m : ℕ, ((shortestDigits q n fuel k).1 : ℚ) * 10 ^ (shortestDigits q n fuel k).2 ≠ m := by
  induction fuel generalizing k with
  | zero =>
    obtain ⟨hunit, hscale, hsmall⟩ := place_le hn hk
    obtain ⟨hpos, hfloor, hle⟩ := leading_digits hunit hsmall
    simp only [Js.shortestDigits, scale10_one]
    refine ⟨hpos, fun m hm => ?_⟩
    -- Seventeen digits reach into the gap above the integer.
    have hgap := h.gap m (by rw [← hm]; exact hle)
    have hten : (10 : ℚ) ^ (n - k) ≤ q / 2 ^ 53 := by
      rw [le_div_iff₀ (by norm_num)]
      have hle16 : (2 : ℚ) ^ 53 ≤ 10 ^ (k - 1) :=
        (by norm_num : (2 : ℚ) ^ 53 ≤ 10 ^ 16).trans (pow_le_pow_right₀ (by norm_num) (by omega))
      exact (mul_le_mul_of_nonneg_left hle16 hunit.le).trans hscale
    have hnext : ((q / 10 ^ (n - k)).floor : ℚ) + 1 ≤ q / 10 ^ (n - k) := by
      rw [le_div_iff₀ hunit, add_mul, one_mul, ← hfloor, hm]
      exact (add_le_add_right hten _).trans hgap
    have hlt : q / 10 ^ (n - k) < ((q / 10 ^ (n - k)).floor : ℚ) + 1 := by
      exact_mod_cast Rat.lt_floor_add_one _
    exact absurd hnext (not_le.mpr hlt)
  | succ fuel ih =>
    obtain ⟨hunit, -, hsmall⟩ := place_le hn hk
    obtain ⟨hpos, -, -⟩ := leading_digits hunit hsmall
    simp only [Js.shortestDigits, scale10_one]
    split_ifs with hboth hbelow habove heven hlower hupper
    · exact ⟨hpos, h.reads_ne hunit hsmall (Nat.le_succ _) hboth.1⟩
    · exact ⟨Nat.succ_ne_zero _, h.reads_ne hunit hsmall (Nat.le_refl _) hboth.2⟩
    · exact ⟨hpos, h.reads_ne hunit hsmall (Nat.le_succ _) hboth.1⟩
    · exact ⟨Nat.succ_ne_zero _, h.reads_ne hunit hsmall (Nat.le_refl _) hboth.2⟩
    · exact ⟨hpos, h.reads_ne hunit hsmall (Nat.le_succ _) hlower⟩
    · exact ⟨Nat.succ_ne_zero _, h.reads_ne hunit hsmall (Nat.le_refl _) hupper⟩
    · exact ih (k + 1) (by omega) (by omega)

/-! ### With a point -/

/-- The zeros at the end of a number are a factor of it. -/
theorem eq_of_toDigits {s z : ℕ} {digits : List Char}
    (h : Nat.toDigits 10 s = digits ++ List.replicate z '0') : s = 10 ^ z * Nat.ofDigitChars 10 digits 0 := by
  rw [← Nat.ofDigitChars_ten_toDigits (n := s), h, Nat.ofDigitChars_append,
    Nat.ofDigitChars_replicate_zero]

/-- Some digit of a decimal that is no integer stands behind the point. -/
theorem length_stripZeros_gt {s : ℕ} {e : ℤ} (hint : ∀ m : ℕ, (s : ℚ) * 10 ^ e ≠ m) :
    ((Nat.toDigits 10 s).length + e).toNat < (stripZeros (Nat.toDigits 10 s)).length := by
  by_contra hle
  obtain ⟨z, hz⟩ := stripZeros_append (Nat.toDigits 10 s)
  have hlength := congrArg List.length hz
  rw [List.length_append, List.length_replicate] at hlength
  have hs := eq_of_toDigits hz
  have hne : (stripZeros (Nat.toDigits 10 s)).length ≠ 0 := by
    intro hnil
    rw [List.length_eq_zero_iff.mp hnil, Nat.ofDigitChars_nil, Nat.mul_zero] at hs
    exact hint 0 (by rw [hs, Nat.cast_zero, zero_mul])
  obtain ⟨k, hk⟩ : ∃ k : ℕ, (z : ℤ) + e = k := ⟨(z + e).toNat, by omega⟩
  refine hint (10 ^ k * Nat.ofDigitChars 10 (stripZeros (Nat.toDigits 10 s)) 0) ?_
  rw [Nat.cast_mul, Nat.cast_pow, ← zpow_natCast ((10 : ℕ) : ℚ) k, ← hk]
  nth_rewrite 1 [hs]
  rw [Nat.cast_ofNat, zpow_add₀ (by norm_num), zpow_natCast, Nat.cast_mul, Nat.cast_pow, Nat.cast_ofNat]
  ring

theorem isMagnitude_leadingZeros {digits : List Char} (hne : digits ≠ [])
    (hall : ∀ c ∈ digits, c.isDigit = true) (z : ℕ) :
    IsMagnitude ('0' :: '.' :: (List.replicate z '0' ++ digits)) := by
  have hdigits : ∀ c ∈ List.replicate z '0' ++ digits, c.isDigit = true := by
    intro c hc
    rcases List.mem_append.mp hc with hc | hc
    · rw [List.eq_of_mem_replicate hc]
      rfl
    · exact hall c hc
  have hparts := IsMagnitude.parts .zero (.digits (by simp [hne]) hdigits) .none
  rwa [List.append_nil] at hparts

theorem isMagnitude_fractionText {q : ℚ} (h : Fractional q) : IsMagnitude (fractionText q) := by
  obtain ⟨hne, hint⟩ := h.shortestDigits (pow_decimalPoint_le h.pos) 17 1 (Nat.le_refl _) (by decide)
  simp only [fractionText]
  generalize shortestDigits q (decimalPoint q) 17 1 = decimal at hne hint ⊢
  obtain ⟨s, e⟩ := decimal
  have hlength := length_stripZeros_gt hint
  obtain ⟨d, ds, hds, hd⟩ := head_toDigits hne
  obtain ⟨ts, hts, hsub⟩ := stripZeros_cons hd ds
  have hall : ∀ c ∈ d :: ts, c.isDigit = true := by
    intro c hc
    refine isDigit_of_mem_toDigits (n := s) (hds ▸ ?_)
    rcases List.mem_cons.mp hc with rfl | hc
    · exact List.mem_cons_self
    · exact List.mem_cons_of_mem _ (hsub c hc)
  simp only at hlength ⊢
  rw [hds, hts] at hlength ⊢
  split
  · exact isMagnitude_scientific hd hall _
  · split
    · exact isMagnitude_leadingZeros (List.cons_ne_nil _ _) hall _
    · rename_i hpos
      obtain ⟨k, hk⟩ := Nat.exists_eq_succ_of_ne_zero (n := ((d :: ds).length + e).toNat) (by omega)
      rw [hk] at hlength ⊢
      have hwhole : IsWhole ((d :: ts).take (k + 1)) :=
        .digits (hall d List.mem_cons_self) hd fun c hc =>
          hall c (List.mem_cons_of_mem _ (List.mem_of_mem_take hc))
      have hdrop : (d :: ts).drop (k + 1) ≠ [] := by
        rw [ne_eq, List.drop_eq_nil_iff]
        omega
      have hparts := IsMagnitude.parts hwhole
        (.digits hdrop fun c hc => hall c (List.mem_of_mem_drop hc)) .none
      rwa [List.append_nil] at hparts

theorem isMagnitude_magnitudeText {a : ℚ} (ha : 0 < a) : IsMagnitude (magnitudeText (roundToPlace a)) := by
  rw [magnitudeText]
  split
  · exact isMagnitude_naturalText _
  · rename_i hden
    refine isMagnitude_fractionText (fractional_roundToPlace ha ?_ hden)
    refine lt_of_le_of_ne (roundToPlace_nonneg ha.le) fun hzero => ?_
    rw [← hzero] at hden
    exact hden rfl

/-- **Every finite number is written as a number literal.** -/
theorem isNumber_numberText {x q : ℚ} (h : binary64 x = .finite q) :
    IsNumber (numberText (.finite q)).toList := by
  rw [numberText, String.toList_ofList]
  rcases lt_trichotomy x 0 with hx | rfl | hx
  · rw [← neg_neg x, binary64_neg _ (neg_pos.mpr hx)] at h
    split at h
    · cases h
    · rw [← Number.finite.inj h]
      have hmagnitude := isMagnitude_magnitudeText (neg_pos.mpr hx)
      split
      · rw [neg_neg]
        exact .negative hmagnitude
      · rename_i hneg
        have hzero : roundToPlace (-x) = 0 :=
          le_antisymm (by linarith) (roundToPlace_nonneg (neg_pos.mpr hx).le)
        rw [hzero, neg_zero]
        exact .positive (isMagnitude_naturalText 0)
  · rw [← Number.finite.inj h]
    exact .positive (isMagnitude_naturalText 0)
  · rw [binary64_of_pos hx] at h
    split at h
    · cases h
    · rw [← Number.finite.inj h, if_neg (not_lt.mpr (roundToPlace_nonneg hx.le))]
      exact .positive (isMagnitude_magnitudeText hx)

/-- A JavaScript number: it is what a rational is rounded to, if it is finite. -/
def IsDouble (n : Number) : Prop := ∀ q, n = .finite q → ∃ x, binary64 x = .finite q

theorem isDouble_binary64 (x : ℚ) : IsDouble (binary64 x) := fun _ h => ⟨x, h⟩

theorem isDouble_natCast {n : ℕ} (h : n < 2 ^ 53) : IsDouble (.finite n) :=
  binary64_natCast h ▸ isDouble_binary64 n

theorem binary64_of_integer {z : ℤ} (h : z.natAbs < 2 ^ 53) : binary64 z = .finite z := by
  obtain ⟨n, rfl | rfl⟩ := Int.eq_nat_or_neg z
  · exact_mod_cast binary64_natCast (by simpa using h)
  · rw [Int.natAbs_neg, Int.natAbs_natCast] at h
    rcases Nat.eq_zero_or_pos n with rfl | hn
    · exact binary64_natCast (n := 0) (by decide)
    · have hround := roundToPlace_natCast hn h
      have hpos : (0 : ℚ) < n := by exact_mod_cast hn
      have hsmall : ¬ pow2 1024 ≤ (n : ℚ) := not_pow2_le (e := 1024) h (by decide)
      rw [Int.cast_neg, Int.cast_natCast, binary64_neg _ hpos, hround, if_neg hsmall]

theorem isDouble_intCast {z : ℤ} (h : z.natAbs < 2 ^ 53) : IsDouble (.finite z) :=
  binary64_of_integer h ▸ isDouble_binary64 z

theorem isDouble_div (a b : Number) : IsDouble (Number.div a b) := by
  have hzero : IsDouble (.finite 0) := isDouble_natCast (n := 0) (by decide)
  cases a with
  | nan => cases b <;> nofun
  | infinity s => cases b <;> nofun
  | finite a =>
    cases b with
    | nan => nofun
    | infinity t => exact hzero
    | finite b =>
      simp only [Number.div]
      split
      · split <;> nofun
      · exact isDouble_binary64 _

theorem isDouble_min {a b : Number} (ha : IsDouble a) (hb : IsDouble b) : IsDouble (Number.min a b) := by
  intro q hq
  cases a with
  | nan => cases hq
  | infinity s =>
    cases s with
    | true => cases b <;> cases hq
    | false =>
      cases b with
      | nan => cases hq
      | infinity t => cases t <;> cases hq
      | finite b => exact hb q hq
  | finite a =>
    cases b with
    | nan => cases hq
    | infinity t =>
      cases t with
      | true => cases hq
      | false => exact ha q hq
    | finite b =>
      simp only [Number.min, Number.finite.injEq] at hq
      subst hq
      split
      · exact ha a rfl
      · exact hb b rfl

/-- **What `JSON.stringify` writes for a number** is a number literal or `null`. -/
theorem wellFormed_ofNumber {n : Number} (h : IsDouble n) : (Json.ofNumber n).WellFormed := by
  cases n with
  | nan => trivial
  | infinity negative => trivial
  | finite q =>
    obtain ⟨x, hx⟩ := h q rfl
    exact isNumber_numberText hx

end BulkTraffic.Js
