import BulkTraffic.Js.NumberText
import BulkTraffic.Lib.Trim

/-!
# What `parseInt` reads

`Number.parseInt(text, 10)` skips white space, takes a sign and the digits behind it, and leaves the
rest of the text unread (`parseInt_eq`).

`IsNotation cs z` says that a text is the decimal notation of the integer `z`: digits, with a sign
before them or not. A text is one exactly if `parseInt` finds digits in it, skips no white space and
leaves nothing unread (`isNotation_iff`).
-/

namespace BulkTraffic.Js

open BulkTraffic.Lib

/-- A text behind its white space. -/
structure IntegerParts where
  /-- Is there a minus sign? -/
  negative : Bool
  /-- The digits behind the sign. -/
  digits : List Char
  /-- What is left unread. -/
  rest : List Char

/-- What stands behind a sign. -/
def signedParts (negative : Bool) (cs : List Char) : IntegerParts :=
  { negative, digits := cs.takeWhile Char.isDigit, rest := cs.dropWhile Char.isDigit }

/-- The parts of a text without white space before it. -/
def partsOf : List Char → IntegerParts
  | '-' :: cs => signedParts true cs
  | '+' :: cs => signedParts false cs
  | cs => signedParts false cs

/-- The parts of a text. -/
def integerParts (text : String) : IntegerParts := partsOf (text.toList.dropWhile isWhite)

/-- The number that digits behind a sign write. -/
def signed (negative : Bool) (digits : List Char) : ℤ :=
  if negative then -(Nat.ofDigitChars 10 digits 0 : ℤ) else Nat.ofDigitChars 10 digits 0

/-- The integer that is read. -/
def IntegerParts.value (parts : IntegerParts) : ℤ := signed parts.negative parts.digits

/-- The decimal notation of an integer. -/
inductive IsNotation : List Char → ℤ → Prop where
  /-- Digits. -/
  | unsigned {ds : List Char} : ds ≠ [] → (∀ c ∈ ds, c.isDigit = true) → IsNotation ds (signed false ds)
  /-- Digits behind a plus sign. -/
  | plus {ds : List Char} : ds ≠ [] → (∀ c ∈ ds, c.isDigit = true) → IsNotation ('+' :: ds) (signed false ds)
  /-- Digits behind a minus sign. -/
  | minus {ds : List Char} : ds ≠ [] → (∀ c ∈ ds, c.isDigit = true) → IsNotation ('-' :: ds) (signed true ds)

/-! ### What is parsed -/

theorem digitValue_eq_none {c : Char} (h : c.isDigit = false) : digitValue 10 c = none := by
  have hrange : ¬ (48 ≤ c.toNat ∧ c.toNat ≤ 57) := by
    simpa [Char.isDigit, UInt32.le_iff_toNat_le] using h
  simp only [digitValue]
  split_ifs <;> first | rfl | omega

/-- Reading digits stops at the first character that is none. -/
theorem readDigits_eq (cs : List Char) :
    readDigits 10 cs 0 0 = (Nat.ofDigitChars 10 (cs.takeWhile Char.isDigit) 0,
      (cs.takeWhile Char.isDigit).length, cs.dropWhile Char.isDigit) := by
  have hdigits : ∀ c ∈ cs.takeWhile Char.isDigit, c.isDigit = true := fun c hc =>
    List.mem_takeWhile_imp hc
  have hread := readDigits_append hdigits (cs.dropWhile Char.isDigit) 0 0
  rw [List.takeWhile_append_dropWhile, Nat.zero_add] at hread
  rw [hread]
  cases hrest : cs.dropWhile Char.isDigit with
  | nil => rfl
  | cons c rest =>
    have hne : cs.dropWhile Char.isDigit ≠ [] := by simp [hrest]
    have hc : c.isDigit = false := by simpa [hrest] using List.head_dropWhile_not Char.isDigit hne
    simp only [readDigits, digitValue_eq_none hc]

theorem parseDigits_eq (negative : Bool) (cs : List Char) :
    parseDigits negative cs = if (signedParts negative cs).digits = [] then .nan
      else binary64 (signedParts negative cs).value := by
  rw [parseDigits, readDigits_eq, signedParts]
  cases htake : cs.takeWhile Char.isDigit with
  | nil => rfl
  | cons c ds =>
    rw [List.length_cons, if_neg (List.cons_ne_nil c ds), IntegerParts.value, signed]
    cases negative with
    | false => rfl
    | true => simp

/-- **`parseInt` reads the leading digits** and rounds the number they write. -/
theorem parseInt_eq (text : String) :
    parseInt text = if (integerParts text).digits = [] then .nan
      else binary64 (integerParts text).value := by
  rw [parseInt, integerParts]
  generalize text.toList.dropWhile isWhite = cs
  split
  · exact parseDigits_eq true _
  · exact parseDigits_eq false _
  · rename_i hminus hplus
    rw [partsOf, parseDigits_eq]
    · exact hminus
    · exact hplus

/-! ### Notations -/

theorem partsOf_of_head {cs : List Char} (hminus : cs.head? ≠ some '-') (hplus : cs.head? ≠ some '+') :
    partsOf cs = signedParts false cs := by
  rw [partsOf]
  · rintro cs' rfl
    exact hminus rfl
  · rintro cs' rfl
    exact hplus rfl

/-- What is read of digits with something else behind them. -/
theorem signedParts_append {ds t : List Char} (hds : ∀ c ∈ ds, c.isDigit = true)
    (ht : ∀ c ∈ t.head?, c.isDigit = false) (negative : Bool) :
    signedParts negative (ds ++ t) = { negative, digits := ds, rest := t } := by
  have hnone : t.takeWhile Char.isDigit = [] ∧ t.dropWhile Char.isDigit = t := by
    cases t with
    | nil => exact ⟨rfl, rfl⟩
    | cons c t => simp [ht c rfl]
  rw [signedParts, List.takeWhile_append_of_pos hds, List.dropWhile_append_of_pos hds, hnone.1,
    hnone.2, List.append_nil]

/-- A notation is read up to its end. -/
theorem partsOf_append {cs t : List Char} {z : ℤ} (h : IsNotation cs z)
    (ht : ∀ c ∈ t.head?, c.isDigit = false) :
    (partsOf (cs ++ t)).digits ≠ [] ∧ (partsOf (cs ++ t)).rest = t ∧ (partsOf (cs ++ t)).value = z := by
  cases h with
  | unsigned hne hds =>
    obtain ⟨c, ds, rfl⟩ := List.exists_cons_of_ne_nil hne
    have hc := hds c (List.mem_cons_self ..)
    have hhead : ∀ d : Char, d.isDigit = false → (c :: ds ++ t).head? ≠ some d :=
      fun d hd heq => ne_of_isDigit hc hd (Option.some.inj heq)
    rw [partsOf_of_head (hhead '-' (by decide)) (hhead '+' (by decide)), signedParts_append hds ht]
    exact ⟨hne, rfl, rfl⟩
  | plus hne hds =>
    have hparts := signedParts_append hds ht false
    rw [List.cons_append, partsOf, hparts]
    exact ⟨hne, rfl, rfl⟩
  | minus hne hds =>
    have hparts := signedParts_append hds ht true
    rw [List.cons_append, partsOf, hparts]
    exact ⟨hne, rfl, rfl⟩

/-- What is read is a notation. -/
theorem exists_isNotation {cs : List Char} (hne : (partsOf cs).digits ≠ []) :
    ∃ sign, cs = sign ++ (partsOf cs).digits ++ (partsOf cs).rest ∧
      (∀ c ∈ (partsOf cs).digits, c.isDigit = true) ∧
      IsNotation (sign ++ (partsOf cs).digits) (partsOf cs).value := by
  have hall : ∀ l : List Char, ∀ c ∈ l.takeWhile Char.isDigit, c.isDigit = true :=
    fun l c hc => List.mem_takeWhile_imp hc
  have hsplit : ∀ l : List Char, l = l.takeWhile Char.isDigit ++ l.dropWhile Char.isDigit :=
    fun l => List.takeWhile_append_dropWhile.symm
  revert hne
  rw [partsOf.eq_def]
  split
  · rename_i cs
    exact fun hne => ⟨['-'], congrArg _ (hsplit cs), hall cs, .minus hne (hall cs)⟩
  · rename_i cs
    exact fun hne => ⟨['+'], congrArg _ (hsplit cs), hall cs, .plus hne (hall cs)⟩
  · exact fun hne => ⟨[], hsplit cs, hall cs, .unsigned hne (hall cs)⟩

theorem dropWhile_of_isNotation {cs : List Char} {z : ℤ} (h : IsNotation cs z) :
    cs.dropWhile isWhite = cs := by
  cases h with
  | unsigned hne hds =>
    obtain ⟨c, ds, rfl⟩ := List.exists_cons_of_ne_nil hne
    exact List.dropWhile_cons_of_neg (by simp [isWhite_of_isDigit (hds c (List.mem_cons_self ..))])
  | plus => rfl
  | minus => rfl

/-- When a text is the notation of an integer as it stands. -/
theorem isNotation_iff (text : String) (z : ℤ) :
    IsNotation text.toList z ↔ (integerParts text).digits ≠ [] ∧
      text.toList.dropWhile isWhite = text.toList ∧ (integerParts text).rest = [] ∧
      (integerParts text).value = z := by
  constructor
  · intro h
    have hdrop := dropWhile_of_isNotation h
    obtain ⟨hne, hrest, hvalue⟩ := partsOf_append h (t := []) (by simp)
    rw [List.append_nil] at hne hrest hvalue
    rw [integerParts, hdrop]
    exact ⟨hne, rfl, hrest, hvalue⟩
  · rintro ⟨hne, hdrop, hrest, rfl⟩
    rw [integerParts, hdrop] at hne hrest ⊢
    obtain ⟨sign, hcs, -, hwritten⟩ := exists_isNotation hne
    rw [hrest, List.append_nil] at hcs
    rwa [← hcs] at hwritten

/-! ### Trimmed texts -/

theorem isDigit_of_isWhite {c : Char} (h : isWhite c = true) : c.isDigit = false := by
  by_contra hdigit
  rw [isWhite_of_isDigit (by simpa using hdigit)] at h
  cases h

theorem takeWhile_isDigit_append {t : List Char} (ht : ∀ c ∈ t, isWhite c = true) (cs : List Char) :
    (cs ++ t).takeWhile Char.isDigit = cs.takeWhile Char.isDigit := by
  have hnone : t.takeWhile Char.isDigit = [] := by
    cases t with
    | nil => rfl
    | cons c t => simp [isDigit_of_isWhite (ht c (List.mem_cons_self ..))]
  rw [List.takeWhile_append, hnone, List.append_nil]
  split
  · rename_i hall
    exact ((List.takeWhile_prefix _).eq_of_length hall).symm
  · rfl

theorem signedParts_append_white {t : List Char} (ht : ∀ c ∈ t, isWhite c = true) (negative : Bool)
    (cs : List Char) :
    (signedParts negative (cs ++ t)).digits = (signedParts negative cs).digits ∧
      (signedParts negative (cs ++ t)).value = (signedParts negative cs).value := by
  simp only [signedParts, IntegerParts.value, takeWhile_isDigit_append ht, and_self]

/-- White space at the end is not read. -/
theorem partsOf_append_white {t : List Char} (ht : ∀ c ∈ t, isWhite c = true) (cs : List Char) :
    (partsOf (cs ++ t)).digits = (partsOf cs).digits ∧ (partsOf (cs ++ t)).value = (partsOf cs).value := by
  by_cases hminus : cs.head? = some '-'
  · obtain ⟨cs, rfl⟩ := List.head?_eq_some_iff.mp hminus
    exact signedParts_append_white ht true cs
  · by_cases hplus : cs.head? = some '+'
    · obtain ⟨cs, rfl⟩ := List.head?_eq_some_iff.mp hplus
      exact signedParts_append_white ht false cs
    · have hwhite : ∀ {d : Char}, isWhite d = false → cs.head? ≠ some d → (cs ++ t).head? ≠ some d := by
        intro d hd hne heq
        cases cs with
        | nil => exact absurd (ht d (List.mem_of_mem_head? heq)) (by simp [hd])
        | cons c cs => exact hne heq
      rw [partsOf_of_head hminus hplus, partsOf_of_head (hwhite (by decide) hminus) (hwhite (by decide) hplus)]
      exact signedParts_append_white ht false cs

theorem toList_trim (text : String) : (trim text).toList = trimBy isWhite text.toList := String.toList_ofList

theorem dropWhile_trim (text : String) : (trim text).toList.dropWhile isWhite = (trim text).toList := by
  rw [toList_trim, dropWhile_trimBy]

/-- White space around a text is not read. -/
theorem parseInt_trim (text : String) : parseInt (trim text) = parseInt text := by
  obtain ⟨t, htext, ht⟩ := exists_append_trimBy isWhite text.toList
  obtain ⟨hdigits, hvalue⟩ := partsOf_append_white ht (trimBy isWhite text.toList)
  rw [parseInt_eq, parseInt_eq, integerParts, integerParts, dropWhile_trim, toList_trim, htext, hdigits,
    hvalue]

end BulkTraffic.Js
