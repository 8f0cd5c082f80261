import Mathlib.Data.Int.Log
import Mathlib.Data.Rat.Floor
import Mathlib.Tactic.FieldSimp

/-!
# JavaScript numbers

`Number` is a JavaScript number: `NaN`, an infinity, or a binary64 value kept as the
rational it stands for (`-0` is not told apart from `0`). `binary64 q` rounds a rational
to the nearest binary64 value, ties to even.

For non-negative integers the rounding is also given on naturals: `roundNat n` is the
integer nearest to `n` with a significand of 53 bits, and `shortestDecimal x` is the
integer whose digits `(x).toString()` prints: JavaScript prints the shortest decimal that
reads back as `x`, filled up with zeros. A fraction over a power of two is rounded as its
numerator is (`binary64_div_two_pow`).

Sums and differences of naturals below `2 ^ 53` are exact (`Number.add_natCast`,
`Number.sub_natCast`).
-/

namespace BulkTraffic.Js

/-- A JavaScript number. -/
inductive Number where
  /-- `NaN`. -/
  | nan
  /-- `Infinity` or `-Infinity`. -/
  | infinity (negative : Bool)
  /-- A finite value. -/
  | finite (value : ℚ)
  deriving DecidableEq

/-! ### Rounding -/

/-- `2 ^ e` for an integer exponent. -/
def pow2 (e : ℤ) : ℚ := if 0 ≤ e then ((2 ^ e.toNat : ℕ) : ℚ) else mkRat 1 (2 ^ (-e).toNat)

/-- The largest `e` with `2 ^ e ≤ q`, for positive `q`. -/
def floorLog2 (q : ℚ) : ℤ :=
  let e : ℤ := (Nat.log2 q.num.natAbs : ℤ) - Nat.log2 q.den
  if pow2 e ≤ q then e else e - 1

/-- The nearest integer, ties to even. -/
def roundHalfEven (q : ℚ) : ℤ :=
  let f := q.floor
  let r := q - f
  if r < mkRat 1 2 then f
  else if mkRat 1 2 < r then f + 1
  else if f % 2 = 0 then f else f + 1

/-- The nearest binary64 value: 53 significant bits, exponents from `-1074`, ties to even,
an infinity from `2 ^ 1024` on. -/
def binary64 (q : ℚ) : Number :=
  if q = 0 then .finite 0
  else
    let a := if q < 0 then -q else q
    let ulp := max (floorLog2 a - 52) (-1074)
    let m := (roundHalfEven (a / pow2 ulp) : ℚ) * pow2 ulp
    if pow2 1024 ≤ m then .infinity (decide (q < 0))
    else .finite (if q < 0 then -m else m)

namespace Number

/-- `Number.isInteger(n)`, with the integer. -/
def toInteger? : Number → Option ℤ
  | finite q => if q.den = 1 then some q.num else none
  | _ => none

/-- `Number.isFinite(n)`. -/
def isFinite : Number → Bool
  | finite _ => true
  | _ => false

/-- `a + b`. -/
def add : Number → Number → Number
  | finite a, finite b => binary64 (a + b)
  | infinity s, infinity t => if s = t then infinity s else nan
  | infinity s, finite _ => infinity s
  | finite _, infinity t => infinity t
  | _, _ => nan

/-- `a - b`. -/
def sub : Number → Number → Number
  | finite a, finite b => binary64 (a - b)
  | infinity s, infinity t => if s = t then nan else infinity s
  | infinity s, finite _ => infinity s
  | finite _, infinity t => infinity !t
  | _, _ => nan

/-- `a * b`. -/
def mul : Number → Number → Number
  | finite a, finite b => binary64 (a * b)
  | infinity s, infinity t => infinity (s != t)
  | infinity s, finite b | finite b, infinity s =>
    if b = 0 then nan else infinity (s != decide (b < 0))
  | _, _ => nan

/-- `a / b`. A zero divisor counts as positive. -/
def div : Number → Number → Number
  | finite a, finite b =>
    if b = 0 then if a = 0 then nan else infinity (decide (a < 0)) else binary64 (a / b)
  | infinity s, finite b => infinity (s != decide (b < 0))
  | finite _, infinity _ => finite 0
  | _, _ => nan

/-- `Math.floor(n)`. -/
def floor : Number → Number
  | finite q => finite q.floor
  | n => n

/-- `Math.ceil(n)`. -/
def ceil : Number → Number
  | finite q => finite q.ceil
  | n => n

/-- `Math.round(n)`: the nearest integer, ties up. -/
def round : Number → Number
  | finite q => finite (q + mkRat 1 2).floor
  | n => n

/-- `Math.max(0, n)`. -/
def clamp0 : Number → Number
  | finite q => if q < 0 then finite 0 else finite q
  | infinity true => finite 0
  | infinity false => infinity false
  | nan => nan

/-- `Math.min(a, b)`. -/
def min : Number → Number → Number
  | finite a, finite b => finite (if a ≤ b then a else b)
  | nan, _ | _, nan => nan
  | infinity true, _ | _, infinity true => infinity true
  | infinity false, n | n, infinity false => n

/-- `Math.max(a, b)`. -/
def max : Number → Number → Number
  | finite a, finite b => finite (if a ≤ b then b else a)
  | nan, _ | _, nan => nan
  | infinity false, _ | _, infinity false => infinity false
  | infinity true, n | n, infinity true => n

/-- The length `new Array(n)` allocates: an integer below `2 ^ 32`, or a `RangeError`. -/
def arrayLength? (n : Number) : Option ℕ :=
  match n.toInteger? with
  | some z => if 0 ≤ z ∧ z < 2 ^ 32 then some z.toNat else none
  | none => none

/-- `a < b`. -/
def lt : Number → Number → Bool
  | finite a, finite b => a < b
  | infinity s, infinity t => s && !t
  | infinity s, finite _ => s
  | finite _, infinity t => !t
  | _, _ => false

/-- `a <= b`. -/
def le : Number → Number → Bool
  | finite a, finite b => a ≤ b
  | infinity s, infinity t => s || !t
  | infinity s, finite _ => s
  | finite _, infinity t => !t
  | _, _ => false

/-- `a >= b`. -/
def ge : Number → Number → Bool
  | finite a, finite b => b ≤ a
  | infinity s, infinity t => !s || t
  | infinity s, finite _ => !s
  | finite _, infinity t => t
  | _, _ => false

end Number

/-! ### Exact arithmetic on small naturals -/

theorem roundHalfEven_intCast (z : ℤ) : roundHalfEven z = z := by
  have hf : (z : ℚ).floor = z := Rat.floor_intCast z
  have hr : (z : ℚ) - (z : ℚ) < mkRat 1 2 := by
    rw [sub_self]
    decide
  simp only [roundHalfEven, hf]
  rw [if_pos hr]

theorem floorLog2_natCast {n : ℕ} (hn : n ≠ 0) : floorLog2 n = Nat.log2 n := by
  have hone : Nat.log2 1 = 0 := by decide
  have hle : pow2 (Nat.log2 n : ℤ) ≤ (n : ℚ) := by
    simp only [pow2, Int.natCast_nonneg, if_true, Int.toNat_natCast]
    exact_mod_cast Nat.log2_self_le hn
  simp [floorLog2, hone, hle]

theorem pow2_neg (k : ℕ) : pow2 (-(k : ℤ)) = 1 / 2 ^ k := by
  unfold pow2
  split
  · rename_i h
    obtain rfl : k = 0 := by omega
    simp
  · simp [Rat.mkRat_eq_div]

theorem not_pow2_le {e k n : ℕ} (h : n < 2 ^ k) (he : k ≤ e) : ¬ pow2 e ≤ n := by
  simp only [pow2, Int.natCast_nonneg, if_true, Int.toNat_natCast, not_le]
  exact_mod_cast Nat.lt_of_lt_of_le h (Nat.pow_le_pow_right (by omega) he)

/-- A natural below `2 ^ 53` is a binary64 value. -/
theorem binary64_natCast {n : ℕ} (h : n < 2 ^ 53) : binary64 n = .finite n := by
  rcases Nat.eq_zero_or_pos n with rfl | hn
  · simp [binary64]
  · have hlog : Nat.log2 n ≤ 52 := by
      have := (Nat.log2_lt (by omega)).mpr h
      omega
    obtain ⟨k, hk⟩ : ∃ k, Nat.log2 n + k = 52 := ⟨52 - Nat.log2 n, by omega⟩
    have hulp : max ((Nat.log2 n : ℤ) - 52) (-1074) = -(k : ℤ) := by omega
    -- the significand is an integer, so nothing is rounded off
    have hsignificand : (n : ℚ) / pow2 (-(k : ℤ)) = ((n * 2 ^ k : ℤ) : ℚ) := by
      rw [pow2_neg]
      push_cast
      field_simp
    have hback : ((n * 2 ^ k : ℤ) : ℚ) * pow2 (-(k : ℤ)) = n := by
      rw [pow2_neg]
      push_cast
      field_simp
    have hfinite : ¬ pow2 1024 ≤ (n : ℚ) := not_pow2_le (e := 1024) h (by omega)
    have hne : (n : ℚ) ≠ 0 := by exact_mod_cast (by omega : n ≠ 0)
    have hpos : ¬ (n : ℚ) < 0 := by simp
    simp only [binary64, hne, if_false, hpos, floorLog2_natCast (by omega : n ≠ 0), hulp,
      hsignificand, roundHalfEven_intCast, hback, hfinite]

theorem Number.add_natCast {a b : ℕ} (h : a + b < 2 ^ 53) :
    add (finite a) (finite b) = finite (a + b : ℕ) := by
  simp only [add]
  rw [← Nat.cast_add, binary64_natCast h]

theorem Number.sub_natCast {a b : ℕ} (h : a < 2 ^ 53) (hb : b ≤ a) :
    sub (finite a) (finite b) = finite (a - b : ℕ) := by
  simp only [sub]
  rw [← Nat.cast_sub hb, binary64_natCast (by omega)]

theorem Number.clamp0_natCast (a : ℕ) : clamp0 (finite a) = finite a := by
  simp [clamp0]

theorem pow2_nonneg (e : ℤ) : 0 ≤ pow2 e := by
  unfold pow2
  split
  · exact Nat.cast_nonneg _
  · rw [Rat.mkRat_eq_div]
    positivity

theorem roundHalfEven_nonneg {q : ℚ} (h : 0 ≤ q) : 0 ≤ roundHalfEven q := by
  have hfloor : 0 ≤ q.floor := Rat.le_floor_iff.mpr (by simpa using h)
  simp only [roundHalfEven]
  split_ifs <;> omega

/-- A negative number is not rounded to a positive one. -/
theorem binary64_of_neg {q : ℚ} (h : q < 0) :
    binary64 q = .infinity true ∨ ∃ m : ℚ, 0 ≤ m ∧ binary64 q = .finite (-m) := by
  have hne : q ≠ 0 := by linarith
  simp only [binary64, hne, if_false, h, if_true, decide_true]
  split
  · exact .inl rfl
  · refine .inr ⟨_, ?_, rfl⟩
    refine mul_nonneg (Int.cast_nonneg (roundHalfEven_nonneg ?_)) (pow2_nonneg _)
    exact div_nonneg (by linarith) (pow2_nonneg _)

/-- A difference that is not positive is cut off at zero, however it is rounded. -/
theorem Number.clamp0_sub_of_le {a b : ℚ} (h : a ≤ b) :
    clamp0 (sub (finite a) (finite b)) = finite 0 := by
  rcases eq_or_lt_of_le h with rfl | hlt
  · simp [sub, binary64, clamp0]
  · rcases binary64_of_neg (sub_neg.mpr hlt) with hq | ⟨m, hm, hq⟩
    · rw [sub, hq, clamp0]
    · rw [sub, hq, clamp0]
      split
      · rfl
      · rename_i hge
        have hzero : m = 0 := by linarith
        rw [hzero, neg_zero]

/-- Is the natural number a JavaScript number? -/
def Number.Exact (n : ℕ) : Prop := binary64 n = finite n

/-- The difference of naturals, cut off at zero. -/
theorem Number.clamp0_sub_exact {a b : ℕ} (h : Exact (a - b)) :
    clamp0 (sub (finite a) (finite b)) = finite (a - b : ℕ) := by
  rcases Nat.le_total b a with hle | hle
  · have hexact : binary64 (a - b : ℕ) = finite (a - b : ℕ) := h
    rw [sub, ← Nat.cast_sub hle, hexact, clamp0_natCast]
  · rw [clamp0_sub_of_le (by exact_mod_cast hle), Nat.sub_eq_zero_of_le hle, Nat.cast_zero]

/-- Adding up naturals is exact while every sum is a JavaScript number. -/
theorem Number.foldl_add_exact (l : List ℕ) (acc : ℕ)
    (h : ∀ k ≤ l.length, Exact (acc + (l.take k).sum)) :
    (l.map fun n : ℕ => finite n).foldl add (finite acc) = finite (acc + l.sum : ℕ) := by
  induction l generalizing acc with
  | nil => simp
  | cons n l ih =>
    have hone : Exact (acc + n) := by simpa using h 1 (by simp)
    have hnext : binary64 (acc + n : ℕ) = finite (acc + n : ℕ) := hone
    have hrest : ∀ k ≤ l.length, Exact (acc + n + (l.take k).sum) := by
      intro k hk
      have hk' := h (k + 1) (by simpa using hk)
      rwa [List.take_succ_cons, List.sum_cons, ← Nat.add_assoc] at hk'
    rw [List.map_cons, List.foldl_cons, add, ← Nat.cast_add, hnext, ih _ hrest, List.sum_cons,
      Nat.add_assoc]

theorem Number.sum_exact {l : List ℕ} (h : ∀ k ≤ l.length, Exact (l.take k).sum) :
    (l.map fun n : ℕ => finite n).foldl add (finite 0) = finite (l.sum : ℕ) := by
  have hsum := foldl_add_exact l 0 (by simpa using h)
  rw [Nat.cast_zero, Nat.zero_add] at hsum
  exact hsum

/-! ### Non-negative integers -/

/-- How many low bits of `n` do not fit in a 53-bit significand. -/
def excessBits (n : ℕ) : ℕ := Nat.log2 n - 52

/-- The integer nearest to `n` with a 53-bit significand, ties to even. -/
def roundNat (n : ℕ) : ℕ :=
  let u := 2 ^ excessBits n
  let q := n / u
  let r := n % u
  if 2 * r < u then q * u
  else if u < 2 * r then (q + 1) * u
  else if q % 2 = 0 then q * u else (q + 1) * u

theorem excessBits_of_lt {n : ℕ} (h : n < 2 ^ 53) : excessBits n = 0 := by
  unfold excessBits
  rcases Nat.eq_zero_or_pos n with rfl | hn
  · rfl
  · have := (Nat.log2_lt (by omega)).mpr h
    omega

/-- Below `2 ^ 53` every integer is a binary64 value. -/
theorem roundNat_of_lt {n : ℕ} (h : n < 2 ^ 53) : roundNat n = n := by
  simp [roundNat, excessBits_of_lt h, Nat.mod_one]

/-- Rounding does not cross a power of two downwards. -/
theorem two_pow_log2_le_roundNat {n : ℕ} (hn : n ≠ 0) : 2 ^ Nat.log2 n ≤ roundNat n := by
  have hdvd : 2 ^ excessBits n ∣ 2 ^ Nat.log2 n := Nat.pow_dvd_pow 2 (Nat.sub_le _ _)
  have hbase : 2 ^ Nat.log2 n ≤ n / 2 ^ excessBits n * 2 ^ excessBits n := by
    rw [← Nat.div_mul_cancel hdvd]
    exact Nat.mul_le_mul_right _ (Nat.div_le_div_right (Nat.log2_self_le hn))
  have hstep : n / 2 ^ excessBits n * 2 ^ excessBits n ≤
      (n / 2 ^ excessBits n + 1) * 2 ^ excessBits n := Nat.mul_le_mul_right _ (by omega)
  simp only [roundNat]
  split_ifs <;> omega

theorem two_pow_le_roundNat {j n : ℕ} (h : 2 ^ j ≤ n) : 2 ^ j ≤ roundNat n := by
  have hn : n ≠ 0 := Nat.ne_of_gt (Nat.lt_of_lt_of_le (Nat.two_pow_pos j) h)
  calc 2 ^ j ≤ 2 ^ Nat.log2 n := Nat.pow_le_pow_right (by omega) ((Nat.le_log2 hn).mpr h)
    _ ≤ roundNat n := two_pow_log2_le_roundNat hn

/-- A multiple of its last place is rounded to itself. -/
theorem roundNat_of_dvd {n : ℕ} (h : 2 ^ excessBits n ∣ n) : roundNat n = n := by
  have hmod : n % 2 ^ excessBits n = 0 := Nat.mod_eq_zero_of_dvd h
  have hpos : 0 < 2 ^ excessBits n := Nat.two_pow_pos _
  rw [roundNat, hmod, if_pos (by omega)]
  exact Nat.div_mul_cancel h

/-- A significand of up to 53 bits has a power of two behind it exactly. -/
theorem roundNat_mul_two_pow {c : ℕ} (hc : c ≤ 2 ^ 53) (k : ℕ) : roundNat (c * 2 ^ k) = c * 2 ^ k := by
  apply roundNat_of_dvd
  rcases Nat.lt_or_eq_of_le hc with hlt | rfl
  · have hle : excessBits (c * 2 ^ k) ≤ k := by
      rcases Nat.eq_zero_or_pos c with rfl | hpos
      · rw [Nat.zero_mul]
        exact Nat.zero_le k
      · have hlog : Nat.log2 (c * 2 ^ k) < 53 + k := by
          rw [Nat.log2_lt (Nat.mul_ne_zero (by omega) (Nat.two_pow_pos k).ne'), Nat.pow_add]
          exact Nat.mul_lt_mul_of_pos_right hlt (Nat.two_pow_pos k)
        rw [excessBits]
        omega
    exact (Nat.pow_dvd_pow 2 hle).mul_left c
  · rw [← Nat.pow_add, excessBits, Nat.log2_two_pow]
    exact Nat.pow_dvd_pow 2 (Nat.sub_le _ _)

/-- Rounding twice is rounding once. -/
theorem roundNat_roundNat (n : ℕ) : roundNat (roundNat n) = roundNat n := by
  have hq : n / 2 ^ excessBits n < 2 ^ 53 := by
    rw [Nat.div_lt_iff_lt_mul (Nat.two_pow_pos _), ← Nat.pow_add]
    exact (Nat.lt_log2_self).trans_le (Nat.pow_le_pow_right (by omega) (by rw [excessBits]; omega))
  have hlow := roundNat_mul_two_pow (Nat.le_of_lt hq) (excessBits n)
  have hhigh := roundNat_mul_two_pow (Nat.succ_le_of_lt hq) (excessBits n)
  generalize hr : roundNat n = r
  rw [roundNat] at hr
  subst hr
  split_ifs
  · exact hlow
  · exact hhigh
  · exact hlow
  · exact hhigh

/-- The fractional part of a quotient compares with a half as twice the remainder with the
divisor. -/
theorem frac_lt_half {r u : ℕ} (hu : 0 < u) : ((r : ℚ) / u < mkRat 1 2) ↔ 2 * r < u := by
  have hu' : (0 : ℚ) < u := by exact_mod_cast hu
  rw [Rat.mkRat_eq_div, div_lt_div_iff₀ hu' (by norm_num)]
  norm_num
  rw [← @Nat.cast_lt ℚ]
  push_cast
  rw [mul_comm]

theorem half_lt_frac {r u : ℕ} (hu : 0 < u) : (mkRat 1 2 < (r : ℚ) / u) ↔ u < 2 * r := by
  have hu' : (0 : ℚ) < u := by exact_mod_cast hu
  rw [Rat.mkRat_eq_div, div_lt_div_iff₀ (by norm_num) hu']
  norm_num
  rw [← @Nat.cast_lt ℚ]
  push_cast
  rw [mul_comm]

/-- Rounding a fraction looks at twice the remainder. -/
theorem roundHalfEven_div (n : ℕ) {u : ℕ} (hu : 0 < u) :
    roundHalfEven ((n : ℚ) / u) =
      ((if 2 * (n % u) < u then n / u
        else if u < 2 * (n % u) then n / u + 1
        else if n / u % 2 = 0 then n / u else n / u + 1 : ℕ) : ℤ) := by
  have hu' : (u : ℚ) ≠ 0 := by exact_mod_cast (by omega : u ≠ 0)
  have hfloor : ((n : ℚ) / u).floor = ((n / u : ℕ) : ℤ) := by
    show ⌊(n : ℚ) / u⌋ = _
    rw [Rat.floor_natCast_div_natCast]
    rfl
  have hn : (n : ℚ) = u * (n / u : ℕ) + (n % u : ℕ) := by exact_mod_cast (Nat.div_add_mod n u).symm
  have hr : (n : ℚ) / u - (((n / u : ℕ) : ℤ) : ℚ) = (n % u : ℕ) / u := by
    rw [Int.cast_natCast]
    field_simp
    linarith
  simp only [roundHalfEven, hfloor, hr, frac_lt_half hu, half_lt_frac hu]
  split_ifs <;> first | rfl | omega

/-- What is rounded off is at most half the last place. -/
theorem roundNat_near (n : ℕ) :
    2 * n ≤ 2 * roundNat n + 2 ^ excessBits n ∧ 2 * roundNat n ≤ 2 * n + 2 ^ excessBits n := by
  have hdiv : n / 2 ^ excessBits n * 2 ^ excessBits n + n % 2 ^ excessBits n = n :=
    Nat.div_add_mod' n _
  have hmod : n % 2 ^ excessBits n < 2 ^ excessBits n := Nat.mod_lt _ (Nat.two_pow_pos _)
  have hstep : (n / 2 ^ excessBits n + 1) * 2 ^ excessBits n =
      n / 2 ^ excessBits n * 2 ^ excessBits n + 2 ^ excessBits n := Nat.succ_mul _ _
  rw [roundNat]
  split_ifs <;> omega

/-- Rounding at most doubles. -/
theorem roundNat_le_two_mul {n : ℕ} (hn : n ≠ 0) : roundNat n ≤ 2 * n := by
  have hu : 2 ^ excessBits n ≤ n :=
    (Nat.pow_le_pow_right (by omega) (Nat.sub_le _ _)).trans (Nat.log2_self_le hn)
  have hdiv : n / 2 ^ excessBits n * 2 ^ excessBits n ≤ n := Nat.div_mul_le_self _ _
  have hstep : (n / 2 ^ excessBits n + 1) * 2 ^ excessBits n =
      n / 2 ^ excessBits n * 2 ^ excessBits n + 2 ^ excessBits n := Nat.succ_mul _ _
  simp only [roundNat]
  split_ifs <;> omega

theorem pow2_eq_zpow (e : ℤ) : pow2 e = 2 ^ e := by
  rw [pow2]
  split
  · rename_i he
    obtain ⟨k, rfl⟩ := Int.eq_ofNat_of_zero_le he
    simp
  · rename_i he
    obtain ⟨k, hk⟩ : ∃ k : ℕ, e = -(k : ℤ) := ⟨(-e).toNat, by omega⟩
    rw [hk]
    simp [Rat.mkRat_eq_div]

/-- The binary logarithm of a fraction, up to one. -/
theorem log_div_natCast {a b : ℕ} (ha : a ≠ 0) (hb : b ≠ 0) :
    (Nat.log2 a : ℤ) - Nat.log2 b - 1 ≤ Int.log 2 ((a : ℚ) / b) ∧
      Int.log 2 ((a : ℚ) / b) ≤ (Nat.log2 a : ℤ) - Nat.log2 b := by
  have hpos : (0 : ℚ) < a / b := by positivity
  have hlow : (2 : ℚ) ^ ((Nat.log2 a : ℤ) - Nat.log2 b - 1) ≤ a / b := by
    have hle : (2 : ℚ) ^ Nat.log2 a ≤ a := by exact_mod_cast Nat.log2_self_le ha
    have hlt : (b : ℚ) ≤ 2 ^ (Nat.log2 b + 1) := by exact_mod_cast Nat.lt_log2_self.le
    rw [sub_sub, zpow_sub₀ two_ne_zero]
    exact div_le_div₀ (by positivity) (by exact_mod_cast hle) (by positivity) (by exact_mod_cast hlt)
  have hhigh : (a : ℚ) / b < 2 ^ ((Nat.log2 a : ℤ) - Nat.log2 b + 1) := by
    have hlt : (a : ℚ) < 2 ^ (Nat.log2 a + 1) := by exact_mod_cast Nat.lt_log2_self
    have hle : (2 : ℚ) ^ Nat.log2 b ≤ b := by exact_mod_cast Nat.log2_self_le hb
    have htop : (0 : ℚ) ≤ 2 ^ ((Nat.log2 a : ℤ) + 1) := zpow_nonneg zero_le_two _
    have hbottom : (0 : ℚ) < 2 ^ (Nat.log2 b : ℤ) := zpow_pos zero_lt_two _
    rw [sub_add_eq_add_sub, zpow_sub₀ two_ne_zero]
    exact div_lt_div₀ (by exact_mod_cast hlt) (by exact_mod_cast hle) htop hbottom
  have hle := (Int.zpow_le_iff_le_log Nat.one_lt_two hpos).mp (by rwa [Nat.cast_ofNat])
  have hlt := (Int.lt_zpow_iff_log_lt Nat.one_lt_two hpos).mp (by rwa [Nat.cast_ofNat])
  exact ⟨hle, Int.lt_add_one_iff.mp hlt⟩

/-- `floorLog2` is the binary logarithm. -/
theorem floorLog2_eq_log {q : ℚ} (hq : 0 < q) : floorLog2 q = Int.log 2 q := by
  have hnum : q.num.natAbs ≠ 0 := by
    have := Rat.num_pos.mpr hq
    omega
  have hvalue : (q.num.natAbs : ℚ) / q.den = q := by
    rw [Nat.cast_natAbs, abs_of_pos (Rat.num_pos.mpr hq)]
    exact Rat.num_div_den q
  obtain ⟨hlow, hhigh⟩ := log_div_natCast hnum q.den_pos.ne'
  have hself := Int.zpow_le_iff_le_log Nat.one_lt_two hq
    (x := (Nat.log2 q.num.natAbs : ℤ) - Nat.log2 q.den)
  rw [Nat.cast_ofNat] at hself
  rw [hvalue] at hlow hhigh
  rw [floorLog2, pow2_eq_zpow]
  split
  · rename_i h
    exact le_antisymm (hself.mp h) hhigh
  · rename_i h
    have := mt hself.mpr h
    omega

/-- Dividing by a power of two shifts the logarithm. -/
theorem floorLog2_div_two_pow {n : ℕ} (hn : n ≠ 0) (j : ℕ) :
    floorLog2 ((n : ℚ) / 2 ^ j) = Nat.log2 n - j := by
  have hpos : (0 : ℚ) < n / 2 ^ j := by positivity
  have hlow : (2 : ℚ) ^ ((Nat.log2 n : ℤ) - j) ≤ n / 2 ^ j := by
    have hle : (2 : ℚ) ^ Nat.log2 n ≤ n := by exact_mod_cast Nat.log2_self_le hn
    rw [zpow_sub₀ two_ne_zero, zpow_natCast, zpow_natCast]
    gcongr
  have hhigh : (n : ℚ) / 2 ^ j < 2 ^ ((Nat.log2 n : ℤ) - j + 1) := by
    have hlt : (n : ℚ) < 2 ^ (Nat.log2 n + 1) := by exact_mod_cast Nat.lt_log2_self
    rw [sub_add_eq_add_sub, zpow_sub₀ two_ne_zero, zpow_natCast]
    gcongr
    exact_mod_cast hlt
  have hle := (Int.zpow_le_iff_le_log Nat.one_lt_two hpos).mp (by rwa [Nat.cast_ofNat])
  have hlt := (Int.lt_zpow_iff_log_lt Nat.one_lt_two hpos).mp (by rwa [Nat.cast_ofNat])
  rw [floorLog2_eq_log hpos]
  omega

/-- An integer divided by a power of two is rounded as `roundNat` says. -/
theorem binary64_div_two_pow {n j : ℕ} (hlow : 2 ^ 52 ≤ n) (hhigh : n < 2 ^ 128) (hj : j ≤ 1000) :
    binary64 ((n : ℚ) / 2 ^ j) = .finite ((roundNat n : ℚ) / 2 ^ j) := by
  have hn : n ≠ 0 := by omega
  have hlog : 52 ≤ Nat.log2 n := (Nat.le_log2 hn).mpr hlow
  obtain ⟨k, hk⟩ : ∃ k, Nat.log2 n = k + 52 := ⟨Nat.log2 n - 52, by omega⟩
  have hexcess : excessBits n = k := by
    rw [excessBits]
    omega
  have hne : (n : ℚ) / 2 ^ j ≠ 0 := by positivity
  have hpos : ¬ (n : ℚ) / 2 ^ j < 0 := not_lt.mpr (by positivity)
  have hulp : max (floorLog2 ((n : ℚ) / 2 ^ j) - 52) (-1074) = (k : ℤ) - j := by
    rw [floorLog2_div_two_pow hn]
    omega
  have hpow : pow2 ((k : ℤ) - j) = (2 ^ k : ℕ) / 2 ^ j := by
    rw [pow2_eq_zpow, zpow_sub₀ two_ne_zero, zpow_natCast, zpow_natCast]
    norm_cast
  have hsignificand : (n : ℚ) / 2 ^ j / ((2 ^ k : ℕ) / 2 ^ j) = n / (2 ^ k : ℕ) := by
    field_simp
  have hrounded : ((roundHalfEven ((n : ℚ) / (2 ^ k : ℕ)) : ℤ) : ℚ) * ((2 ^ k : ℕ) / 2 ^ j) =
      roundNat n / 2 ^ j := by
    rw [roundHalfEven_div n (Nat.two_pow_pos k), roundNat, hexcess, mul_div_assoc']
    split_ifs <;> push_cast <;> rfl
  have hfinite : ¬ pow2 (1024 : ℕ) ≤ (roundNat n : ℚ) / 2 ^ j := by
    have hle := roundNat_le_two_mul hn
    have hlarge := not_pow2_le (k := 129) (e := 1024) (n := roundNat n) (by omega) (by omega)
    have hdiv : (roundNat n : ℚ) / 2 ^ j ≤ roundNat n :=
      div_le_self (Nat.cast_nonneg _) (one_le_pow₀ one_le_two)
    exact fun h => hlarge (h.trans hdiv)
  simp only [binary64, hne, if_false, hpos, hulp, hpow, hsignificand, hrounded]
  exact if_neg hfinite

/-- So is the product of an integer with such a quotient. -/
theorem Number.mul_div_two_pow {n m j : ℕ} (hlow : 2 ^ 52 ≤ n * m) (hhigh : n * m < 2 ^ 128)
    (hj : j ≤ 1000) :
    mul (finite n) (finite ((m : ℚ) / 2 ^ j)) = finite ((roundNat (n * m) : ℚ) / 2 ^ j) := by
  rw [mul, ← binary64_div_two_pow hlow hhigh hj, mul_div_assoc', Nat.cast_mul]

/-- An integer is rounded as `roundNat` says. -/
theorem binary64_natCast_eq {n : ℕ} (h : n < 2 ^ 128) : binary64 n = .finite (roundNat n) := by
  by_cases hsmall : n < 2 ^ 53
  · rw [binary64_natCast hsmall, roundNat_of_lt hsmall]
  · have hround := binary64_div_two_pow (n := n) (j := 0) (by omega) h (by omega)
    rw [pow_zero, div_one, div_one] at hround
    exact hround

/-- The search for the shortest decimal: the multiples of `10 ^ (e + 1)` next to `x`, then
finer ones. -/
def shortestFrom (x : ℕ) : ℕ → ℕ
  | 0 => x
  | e + 1 =>
    let u := 10 ^ (e + 1)
    let lo := x / u * u
    let hi := lo + u
    if roundNat lo = x ∧ roundNat hi = x then
      if 2 * (x - lo) < u then lo
      else if u < 2 * (x - lo) then hi
      else if x / u % 2 = 0 then lo else hi
    else if roundNat lo = x then lo
    else if roundNat hi = x then hi
    else shortestFrom x e

/-- The integer whose digits `(x).toString()` prints, for a binary64 integer below `10 ^ 21`. -/
def shortestDecimal (x : ℕ) : ℕ := shortestFrom x (Nat.log 10 x)

/-- What reads back as an integer below `2 ^ 53` is that integer. -/
theorem eq_of_roundNat_eq {c x : ℕ} (h : roundNat c = x) (hx : x < 2 ^ 53) : c = x := by
  by_cases hc : c < 2 ^ 53
  · rw [← h, roundNat_of_lt hc]
  · have := two_pow_le_roundNat (Nat.le_of_not_lt hc)
    omega

theorem shortestFrom_of_lt {x : ℕ} (hx : x < 2 ^ 53) (e : ℕ) : shortestFrom x e = x := by
  induction e with
  | zero => rfl
  | succ e ih =>
    simp only [shortestFrom]
    split_ifs with h₁ h₂ h₃ h₄ h₅ h₆
    · exact eq_of_roundNat_eq h₁.1 hx
    · exact eq_of_roundNat_eq h₁.2 hx
    · exact eq_of_roundNat_eq h₁.1 hx
    · exact eq_of_roundNat_eq h₁.2 hx
    · exact eq_of_roundNat_eq h₅ hx
    · exact eq_of_roundNat_eq h₆ hx
    · exact ih

/-- The decimal reads back as the value. -/
theorem roundNat_shortestFrom {x : ℕ} (hx : roundNat x = x) (e : ℕ) :
    roundNat (shortestFrom x e) = x := by
  induction e with
  | zero => exact hx
  | succ e ih =>
    simp only [shortestFrom]
    split_ifs with h₁ h₂ h₃ h₄ h₅ h₆
    · exact h₁.1
    · exact h₁.2
    · exact h₁.1
    · exact h₁.2
    · exact h₅
    · exact h₆
    · exact ih

theorem roundNat_shortestDecimal {x : ℕ} (hx : roundNat x = x) :
    roundNat (shortestDecimal x) = x :=
  roundNat_shortestFrom hx _

/-- Integers up to `2 ^ 53` are printed digit by digit. -/
theorem shortestDecimal_of_le {x : ℕ} (hx : x ≤ 2 ^ 53) : shortestDecimal x = x := by
  rcases Nat.lt_or_eq_of_le hx with hx | rfl
  · exact shortestFrom_of_lt hx _
  · decide

end BulkTraffic.Js
