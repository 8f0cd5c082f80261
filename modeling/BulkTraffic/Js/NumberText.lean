import BulkTraffic.Js.Text
import Mathlib.Data.Nat.Digits.Defs

/-!
# Numbers as text

`numberText n` is `String(n)`: the shortest decimal that reads back as `n`, as digits below
`10 ^ 21` and with an exponent from there on. `parseInt text` is `Number.parseInt(text, 10)`: it
skips white space, takes a sign and the digits that follow, and stops at the first character that
is no digit.

* `numberOfString_repr`: `Number(..)` reads the digits of a natural as that natural, rounded.
* `parseInt_numberText`: `parseInt` gives back every integer below `10 ^ 21` that is a JavaScript
  number.
* `parseInt_numberText_ne`: from `10 ^ 21` on it reads the leading digit only, so it gives back
  none of them.
-/

namespace BulkTraffic.Js

/-! ### `String(n)` -/

/-- `d.ddde+x`. -/
def scientific (digits : List Char) (e : ℤ) : List Char :=
  digits.take 1 ++ (if digits.length ≤ 1 then [] else '.' :: digits.drop 1) ++
    'e' :: (if 0 ≤ e then '+' else '-') :: Nat.toDigits 10 e.natAbs

/-- The digits without the zeros at their end. -/
def stripZeros (digits : List Char) : List Char :=
  (digits.reverse.dropWhile fun c => c == '0').reverse

/-- The `n` with `10 ^ (n - 1) ≤ q < 10 ^ n`, for positive `q`. -/
def decimalPoint (q : ℚ) : ℤ :=
  if 1 ≤ q then Nat.log 10 q.floor.toNat + 1 else 1 - Nat.clog 10 (q⁻¹).ceil.toNat

/-- The search for the shortest decimal `s * 10 ^ (n - k)` that reads back as `q`, from `k`
digits on. Of two decimals of the same length the nearer one counts. -/
def shortestDigits (q : ℚ) (n : ℤ) : ℕ → ℕ → ℕ × ℤ
  | 0, k => ((q / scale10 1 (n - k)).floor.toNat, n - k)
  | fuel + 1, k =>
    let unit := scale10 1 (n - k)
    let s := (q / unit).floor.toNat
    let reads := fun (s : ℕ) => binary64 (s * unit) = .finite q
    if reads s ∧ reads (s + 1) then
      (if q / unit - s < mkRat 1 2 then s
        else if mkRat 1 2 < q / unit - s then s + 1
        else if s % 2 = 0 then s else s + 1, n - k)
    else if reads s then (s, n - k)
    else if reads (s + 1) then (s + 1, n - k)
    else shortestDigits q n fuel (k + 1)

/-- The text of a positive number that is no integer. Some digit is behind the point. -/
def fractionText (q : ℚ) : List Char :=
  let (s, e) := shortestDigits q (decimalPoint q) 17 1
  let n := (Nat.toDigits 10 s).length + e
  let digits := stripZeros (Nat.toDigits 10 s)
  if n < -5 then scientific digits (n - 1)
  else if n ≤ 0 then '0' :: '.' :: (List.replicate (-n).toNat '0' ++ digits)
  else digits.take n.toNat ++ '.' :: digits.drop n.toNat

/-- The text of a natural number. -/
def naturalText (n : ℕ) : List Char :=
  let digits := Nat.toDigits 10 (shortestDecimal n)
  if n < 10 ^ 21 then digits else scientific (stripZeros digits) (digits.length - 1 : ℕ)

/-- The text of a finite number that is not negative. -/
def magnitudeText (q : ℚ) : List Char :=
  if q.den = 1 then naturalText q.num.toNat else fractionText q

/-- `String(n)`. -/
def numberText : Number → String
  | .nan => "NaN"
  | .infinity negative => if negative then "-Infinity" else "Infinity"
  | .finite q =>
    String.ofList (if q < 0 then '-' :: magnitudeText (-q) else magnitudeText q)

example : numberText (.finite (10 ^ 21)) = "1e+21" := by decide +kernel

example : numberText (binary64 (mkRat 3 10)) = "0.3" := by decide +kernel

example : numberText ((binary64 (mkRat 11 10)).mul (binary64 (mkRat 11 10))) =
    "1.2100000000000002" := by decide +kernel

/-! ### `Number.parseInt(text, 10)` -/

/-- The digits after the sign. -/
def parseDigits (negative : Bool) (cs : List Char) : Number :=
  match readDigits 10 cs 0 0 with
  | (_, 0, _) => .nan
  | (value, _ + 1, _) => binary64 (if negative then -(value : ℚ) else value)

/-- `Number.parseInt(text, 10)`. -/
def parseInt (text : String) : Number :=
  match text.toList.dropWhile isWhite with
  | '-' :: cs => parseDigits true cs
  | '+' :: cs => parseDigits false cs
  | cs => parseDigits false cs

example : parseInt "1e+21" = .finite 1 := by decide +kernel

/-! ### Reading digits -/

theorem toNat_of_isDigit {c : Char} (h : c.isDigit = true) : 48 ≤ c.toNat ∧ c.toNat ≤ 57 := by
  simpa [Char.isDigit, UInt32.le_iff_toNat_le] using h

theorem digitValue_of_isDigit {c : Char} (h : c.isDigit = true) :
    digitValue 10 c = some (c.toNat - '0'.toNat) := by
  obtain ⟨h₁, h₂⟩ := toNat_of_isDigit h
  have hzero : '0'.toNat = 48 := rfl
  simp only [digitValue, hzero, h₁, h₂, and_self, if_true]
  exact if_pos (by omega)

/-- A run of digits is read as the number it is the text of. -/
theorem readDigits_append {cs : List Char} (h : ∀ c ∈ cs, c.isDigit = true) (rest : List Char)
    (value digits : ℕ) :
    readDigits 10 (cs ++ rest) value digits =
      readDigits 10 rest (Nat.ofDigitChars 10 cs value) (digits + cs.length) := by
  induction cs generalizing value digits with
  | nil => rfl
  | cons c cs ih =>
    have hc := digitValue_of_isDigit (h c (by simp))
    have htail : ∀ c ∈ cs, c.isDigit = true := fun c hc => h c (by simp [hc])
    rw [List.cons_append]
    simp only [readDigits, hc]
    rw [ih htail, Nat.ofDigitChars_cons, List.length_cons, Nat.mul_comm value]
    congr 1
    omega

theorem isDigit_of_mem_toDigits {n : ℕ} {c : Char} (h : c ∈ Nat.toDigits 10 n) :
    c.isDigit = true :=
  Nat.isDigit_of_mem_toDigits (by omega) (by omega) h

theorem toDigits_inj {m n : ℕ} (h : Nat.toDigits 10 m = Nat.toDigits 10 n) : m = n := by
  rw [← Nat.ofDigitChars_ten_toDigits (n := m), h, Nat.ofDigitChars_ten_toDigits]

theorem repr_inj {m n : ℕ} : Nat.repr m = Nat.repr n ↔ m = n := by
  constructor
  · intro h
    rw [Nat.repr_eq_ofList_toDigits, Nat.repr_eq_ofList_toDigits] at h
    exact toDigits_inj (String.ofList_injective h)
  · rintro rfl
    rfl

theorem readDigits_toDigits (n : ℕ) :
    readDigits 10 (Nat.toDigits 10 n) 0 0 = (n, (Nat.toDigits 10 n).length, []) := by
  have h := readDigits_append (fun c hc => isDigit_of_mem_toDigits (n := n) hc) [] 0 0
  rw [List.append_nil, Nat.ofDigitChars_ten_toDigits, Nat.zero_add] at h
  exact h

theorem isWhite_of_isDigit {c : Char} (h : c.isDigit = true) : isWhite c = false := by
  obtain ⟨h₁, h₂⟩ := toNat_of_isDigit h
  simp only [isWhite, Bool.or_eq_false_iff, Bool.and_eq_false_iff, decide_eq_false_iff_not,
    beq_eq_false_iff_ne]
  omega

theorem ne_of_isDigit {c d : Char} (h : c.isDigit = true) (hd : d.isDigit = false) : c ≠ d := by
  rintro rfl
  rw [h] at hd
  cases hd

/-- Text that starts and ends with a digit has nothing to trim. -/
theorem trim_of_digits {cs : List Char} (h : ∀ c ∈ cs, c.isDigit = true) :
    trim (String.ofList cs) = String.ofList cs := by
  have hdrop : ∀ {l : List Char}, (∀ c ∈ l, c.isDigit = true) → l.dropWhile isWhite = l := by
    intro l hl
    cases l with
    | nil => rfl
    | cons c l => rw [List.dropWhile_cons_of_neg (by simp [isWhite_of_isDigit (hl c (by simp))])]
  rw [trim, String.toList_ofList, hdrop h, hdrop (fun c hc => h c (List.mem_reverse.mp hc)),
    List.reverse_reverse]

theorem readDecimal_toDigits (n : ℕ) : readDecimal (Nat.toDigits 10 n) = some (n : ℚ) := by
  have hlen : (Nat.toDigits 10 n).length ≠ 0 := by
    have := Nat.length_toDigits_pos (b := 10) (n := n)
    omega
  simp [readDecimal, readDigits_toDigits, hlen, readExponent, scale10]

/-- **`Number(..)` reads the digits of a natural as that natural**, rounded. -/
theorem numberOfString_repr (n : ℕ) : numberOfString (Nat.repr n) = binary64 n := by
  have hdigits : ∀ c ∈ Nat.toDigits 10 n, c.isDigit = true := fun c hc => isDigit_of_mem_toDigits hc
  have hmem : ∀ {c d : Char} {rest : List Char}, Nat.toDigits 10 n = c :: d :: rest →
      d.isDigit = true := fun h => hdigits _ (by simp [h])
  have hsigned : readSigned false (Nat.toDigits 10 n) = binary64 n := by
    have hne : Nat.toDigits 10 n ≠ "Infinity".toList := by
      intro h
      have := hdigits 'I' (by simp [h])
      simp at this
    rw [readSigned, if_neg hne, readDecimal_toDigits]
    simp only [Bool.false_eq_true, if_false]
  rw [numberOfString, Nat.repr_eq_ofList_toDigits, trim_of_digits hdigits, String.toList_ofList]
  split
  · rename_i h
    exact absurd h Nat.toDigits_ne_nil
  · rename_i h
    exact absurd (hmem h) (by decide)
  · rename_i h
    exact absurd (hmem h) (by decide)
  · rename_i h
    exact absurd (hmem h) (by decide)
  · rename_i h
    exact absurd (hmem h) (by decide)
  · rename_i h
    exact absurd (hmem h) (by decide)
  · rename_i h
    exact absurd (hmem h) (by decide)
  · rename_i h
    exact absurd (hdigits '-' (by simp [h])) (by decide)
  · rename_i h
    exact absurd (hdigits '+' (by simp [h])) (by decide)
  · exact hsigned

/-! ### Reading a number's text back -/

/-- `parseInt` reads a run of digits up to the first character that is none. -/
theorem parseInt_digits (cs rest : List Char) (hne : cs ≠ []) (h : ∀ c ∈ cs, c.isDigit = true)
    (hrest : ∀ c ∈ rest.head?, digitValue 10 c = none) :
    parseInt (String.ofList (cs ++ rest)) = binary64 (Nat.ofDigitChars 10 cs 0) := by
  obtain ⟨c, tail, rfl⟩ := List.exists_cons_of_ne_nil hne
  have hc := h c (by simp)
  have hread : readDigits 10 (c :: tail ++ rest) 0 0 =
      (Nat.ofDigitChars 10 (c :: tail) 0, tail.length + 1, rest) := by
    rw [readDigits_append h]
    cases rest with
    | nil => simp [readDigits]
    | cons d rest => simp [readDigits, hrest d (by simp)]
  have hparse : parseDigits false (c :: tail ++ rest) =
      binary64 (Nat.ofDigitChars 10 (c :: tail) 0) := by
    simp only [parseDigits, hread]
    rfl
  rw [parseInt, String.toList_ofList, List.cons_append,
    List.dropWhile_cons_of_neg (by simp [isWhite_of_isDigit hc])]
  split
  · rename_i heq
    exact absurd (List.cons.inj heq).1 (ne_of_isDigit hc (by decide))
  · rename_i heq
    exact absurd (List.cons.inj heq).1 (ne_of_isDigit hc (by decide))
  · exact hparse

theorem magnitudeText_natCast (n : ℕ) : magnitudeText n = naturalText n := by
  simp [magnitudeText]

theorem numberText_natCast (n : ℕ) : numberText (.finite n) = String.ofList (naturalText n) := by
  have hneg : ¬ (n : ℚ) < 0 := by simp
  rw [numberText, if_neg hneg, magnitudeText_natCast]

/-- Below `10 ^ 21` an integer is printed as digits, behind a sign where it is negative. -/
theorem numberText_intCast {z : ℤ} (h : z.natAbs < 10 ^ 21) :
    numberText (.finite z) = String.ofList
      ((if z < 0 then ['-'] else []) ++ Nat.toDigits 10 (shortestDecimal z.natAbs)) := by
  have hsign : (z : ℚ) < 0 ↔ z < 0 := Int.cast_lt_zero
  rw [numberText]
  simp only [hsign]
  split
  · rename_i hz
    have habs : -(z : ℚ) = (z.natAbs : ℕ) := by
      rw [← Int.cast_neg, (by omega : -z = (z.natAbs : ℕ)), Int.cast_natCast]
    rw [habs, magnitudeText_natCast, naturalText, if_pos h]
    rfl
  · rename_i hz
    have habs : (z : ℚ) = (z.natAbs : ℕ) := by
      rw [← Int.cast_natCast, ← (by omega : z = (z.natAbs : ℕ))]
    rw [habs, magnitudeText_natCast, naturalText, if_pos h]
    rfl

theorem mem_scientific (digits : List Char) (e : ℤ) : 'e' ∈ scientific digits e := by
  simp [scientific]

/-- The text of what is no integer has a point or an exponent. -/
theorem exists_mem_fractionText (q : ℚ) : ∃ c ∈ fractionText q, c = '.' ∨ c = 'e' := by
  simp only [fractionText]
  split
  · exact ⟨'e', mem_scientific _ _, .inr rfl⟩
  · split
    · exact ⟨'.', by simp, .inl rfl⟩
    · exact ⟨'.', by simp, .inl rfl⟩

theorem shortestFrom_le {x : ℕ} (hx : x ≠ 0) {e : ℕ} (he : e ≤ Nat.log 10 x) :
    shortestFrom x e ≤ 2 * x := by
  induction e with
  | zero => simp only [shortestFrom]; omega
  | succ e ih =>
    have hu : 10 ^ (e + 1) ≤ x :=
      (Nat.pow_le_pow_right (by omega) he).trans (Nat.pow_log_le_self 10 hx)
    have hlo : x / 10 ^ (e + 1) * 10 ^ (e + 1) ≤ x := Nat.div_mul_le_self _ _
    have hih := ih (by omega)
    simp only [shortestFrom]
    split_ifs <;> omega

theorem shortestDecimal_le (x : ℕ) : shortestDecimal x ≤ 2 * x := by
  rcases Nat.eq_zero_or_pos x with rfl | hx
  · decide
  · exact shortestFrom_le (by omega) (Nat.le_refl _)

/-- **`parseInt` gives back every integer below `10 ^ 21`** that is a JavaScript number. -/
theorem parseInt_numberText {n : ℕ} (hn : roundNat n = n) (h : n < 10 ^ 21) :
    parseInt (numberText (.finite n)) = .finite n := by
  have hdigits := parseInt_digits (Nat.toDigits 10 (shortestDecimal n)) []
    Nat.toDigits_ne_nil (fun c hc => isDigit_of_mem_toDigits hc) (by simp)
  have hle := shortestDecimal_le n
  rw [List.append_nil, Nat.ofDigitChars_ten_toDigits,
    binary64_natCast_eq (by omega), roundNat_shortestDecimal hn] at hdigits
  rw [numberText_natCast, naturalText, if_pos h]
  exact hdigits

/-- **From `10 ^ 21` on `parseInt` gives back no integer**: the text has an exponent, and only its
leading digit is read. -/
theorem parseInt_numberText_ne {n : ℕ} (h : 10 ^ 21 ≤ n) :
    parseInt (numberText (.finite n)) ≠ .finite n := by
  have hne : 10 ≤ n := by omega
  have hall : ∀ c ∈ stripZeros (Nat.toDigits 10 (shortestDecimal n)), c.isDigit = true := by
    intro c hc
    have hmem := (List.dropWhile_sublist _).subset (List.mem_reverse.mp hc)
    exact isDigit_of_mem_toDigits (List.mem_reverse.mp hmem)
  rw [numberText_natCast, naturalText, if_neg (by omega), scientific]
  generalize stripZeros (Nat.toDigits 10 (shortestDecimal n)) = digits at hall ⊢
  cases digits with
  | nil =>
    have hnan : ∀ rest, parseInt (String.ofList ('e' :: rest)) = .nan := by
      intro rest
      rw [parseInt, String.toList_ofList]
      rfl
    simp only [List.take_nil, List.length_nil, Nat.zero_le, if_true, List.nil_append, hnan]
    exact Number.noConfusion
  | cons d digits =>
    have hd := hall d (by simp)
    have hvalue : d.toNat - '0'.toNat < 10 := by
      obtain ⟨-, hle⟩ : 48 ≤ d.toNat ∧ d.toNat ≤ 57 := toNat_of_isDigit hd
      have hzero : '0'.toNat = 48 := rfl
      omega
    rw [List.take_succ_cons, List.take_zero, List.append_assoc,
      parseInt_digits _ _ (by simp) (by simpa using hd)]
    · have hd' : Nat.ofDigitChars 10 [d] 0 < 10 := by
        simpa [Nat.ofDigitChars_cons] using hvalue
      rw [binary64_natCast (by omega)]
      intro heq
      have := Nat.cast_injective (Number.finite.inj heq)
      omega
    · split <;> simp [digitValue]

end BulkTraffic.Js
