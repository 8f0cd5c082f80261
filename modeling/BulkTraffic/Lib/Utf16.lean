import Mathlib.Data.List.Basic

/-!
# UTF-16

A string in UTF-16 is a list of code units. A character beyond `U+FFFF` takes two of them, a high
surrogate and a low one. A string may also have a surrogate that is not part of such a pair: no
character stands for it, and what is to be a text has `U+FFFD` in its place.

* `encode_toWellFormed_iff`: code units are those of a text exactly if every surrogate is in a pair.
-/

namespace BulkTraffic.Lib.Utf16

/-- A string, as code units. -/
abbrev Units := List UInt16

/-- Does the code unit begin a pair? -/
def isHigh (u : UInt16) : Bool := 0xD800 ≤ u.toNat && u.toNat ≤ 0xDBFF

/-- Does the code unit end a pair? -/
def isLow (u : UInt16) : Bool := 0xDC00 ≤ u.toNat && u.toNat ≤ 0xDFFF

/-- The character of a pair. -/
def pairChar (high low : UInt16) : Char :=
  Char.ofNat (0x10000 + (high.toNat - 0xD800) * 0x400 + (low.toNat - 0xDC00))

/-- The code units of a character. -/
def encodeChar (c : Char) : Units :=
  if c.toNat < 0x10000 then [UInt16.ofNat c.toNat]
  else
    [UInt16.ofNat (0xD800 + (c.toNat - 0x10000) / 0x400),
      UInt16.ofNat (0xDC00 + (c.toNat - 0x10000) % 0x400)]

/-- The code units of a text. -/
def encode (s : String) : Units := s.toList.flatMap encodeChar

/-- What stands for a surrogate without a partner. -/
def replacement : Char := Char.ofNat 0xFFFD

/-- The character of a code unit that is in no pair. -/
def single (u : UInt16) : Char := if isHigh u || isLow u then replacement else Char.ofNat u.toNat

/-- The characters of code units. -/
def characters : Units → List Char
  | [] => []
  | [u] => [single u]
  | u :: v :: rest =>
    if isHigh u && isLow v then pairChar u v :: characters rest
    else single u :: characters (v :: rest)

/-- The text of code units. -/
def toWellFormed (units : Units) : String := String.ofList (characters units)

/-- Is every surrogate in a pair? -/
def paired : Units → Bool
  | [] => true
  | [u] => !(isHigh u || isLow u)
  | u :: v :: rest =>
    if isHigh u && isLow v then paired rest else !(isHigh u || isLow u) && paired (v :: rest)

/-! ### One character -/

/-- A surrogate is no character. -/
theorem toNat_cases (c : Char) : c.toNat < 0xD800 ∨ 0xDFFF < c.toNat ∧ c.toNat < 0x110000 := c.valid

theorem toNat_ofNat {n : ℕ} (h : n < 0xD800 ∨ 0xDFFF < n ∧ n < 0x110000) : (Char.ofNat n).toNat = n := by
  have hvalid : n.isValidChar := h
  rw [Char.ofNat, dif_pos hvalid]
  rfl

theorem toNat_ofNat16 {n : ℕ} (h : n < 0x10000) : (UInt16.ofNat n).toNat = n := UInt16.toNat_ofNat_of_lt h

/-- A character of one code unit. -/
theorem encodeChar_of_lt {c : Char} (h : c.toNat < 0x10000) :
    ∃ u, encodeChar c = [u] ∧ isHigh u = false ∧ isLow u = false := by
  have hc := toNat_cases c
  have hu := toNat_ofNat16 h
  refine ⟨_, if_pos h, ?_, ?_⟩
  · rw [isHigh, hu]
    simp
    omega
  · rw [isLow, hu]
    simp
    omega

/-- A character of two code units. -/
theorem encodeChar_of_ge {c : Char} (h : ¬ c.toNat < 0x10000) :
    ∃ u v, encodeChar c = [u, v] ∧ isHigh u = true ∧ isLow v = true := by
  have hc := toNat_cases c
  have hhigh := toNat_ofNat16 (n := 0xD800 + (c.toNat - 0x10000) / 0x400) (by omega)
  have hlow := toNat_ofNat16 (n := 0xDC00 + (c.toNat - 0x10000) % 0x400) (by omega)
  refine ⟨_, _, if_neg h, ?_, ?_⟩
  · rw [isHigh, hhigh]
    simp
    omega
  · rw [isLow, hlow]
    simp
    omega

/-- A code unit that is no surrogate is its character. -/
theorem encodeChar_ofNat {u : UInt16} (hhigh : isHigh u = false) (hlow : isLow u = false) :
    encodeChar (Char.ofNat u.toNat) = [u] := by
  have hlt : u.toNat < 0x10000 := u.toNat_lt
  have hvalue : (Char.ofNat u.toNat).toNat = u.toNat := by
    refine toNat_ofNat ?_
    simp only [isHigh, isLow, Bool.and_eq_false_iff, decide_eq_false_iff_not] at hhigh hlow
    omega
  rw [encodeChar, hvalue, if_pos hlt, UInt16.ofNat_toNat]

/-- The two surrogates of a pair are those of its character. -/
theorem encodeChar_pairChar {u v : UInt16} (hhigh : isHigh u = true) (hlow : isLow v = true) :
    encodeChar (pairChar u v) = [u, v] := by
  simp only [isHigh, isLow, Bool.and_eq_true, decide_eq_true_eq] at hhigh hlow
  have hvalue : (pairChar u v).toNat =
      0x10000 + (u.toNat - 0xD800) * 0x400 + (v.toNat - 0xDC00) := toNat_ofNat (by omega)
  have hu : 0xD800 + ((pairChar u v).toNat - 0x10000) / 0x400 = u.toNat := by omega
  have hv : 0xDC00 + ((pairChar u v).toNat - 0x10000) % 0x400 = v.toNat := by omega
  rw [encodeChar, if_neg (by omega), hu, hv, UInt16.ofNat_toNat, UInt16.ofNat_toNat]

/-! ### Strings -/

theorem paired_cons {u : UInt16} (h : isHigh u = false) (rest : Units) :
    paired (u :: rest) = (!isLow u && paired rest) := by
  cases rest with
  | nil => simp [paired, h]
  | cons v rest => simp [paired, h]

theorem paired_encode (s : String) : paired (encode s) = true := by
  unfold encode
  induction s.toList with
  | nil => rfl
  | cons c l ih =>
    rw [List.flatMap_cons]
    by_cases h : c.toNat < 0x10000
    · obtain ⟨u, hc, hhigh, hlow⟩ := encodeChar_of_lt h
      rw [hc, List.singleton_append, paired_cons hhigh, hlow, ih]
      rfl
    · obtain ⟨u, v, hc, hhigh, hlow⟩ := encodeChar_of_ge h
      simp [hc, paired, hhigh, hlow, ih]

/-- Code units whose surrogates are in pairs are those of their text. -/
theorem encode_toWellFormed {units : Units} (h : paired units = true) :
    encode (toWellFormed units) = units := by
  rw [encode, toWellFormed, String.toList_ofList]
  have hsingle : ∀ {u : UInt16}, (!(isHigh u || isLow u)) = true → encodeChar (single u) = [u] := by
    intro u hu
    obtain ⟨hhigh, hlow⟩ : isHigh u = false ∧ isLow u = false := by simpa using hu
    rw [single, hhigh, hlow]
    exact encodeChar_ofNat hhigh hlow
  induction units using paired.induct with
  | case1 => rfl
  | case2 u => rw [characters, List.flatMap_singleton, hsingle h]
  | case3 u v rest hpair ih =>
    rw [paired, if_pos hpair] at h
    obtain ⟨hhigh, hlow⟩ := Bool.and_eq_true_iff.mp hpair
    rw [characters, if_pos hpair, List.flatMap_cons, ih h, encodeChar_pairChar hhigh hlow]
    rfl
  | case4 u v rest hpair ih =>
    rw [paired, if_neg hpair] at h
    obtain ⟨hu, hrest⟩ := Bool.and_eq_true_iff.mp h
    rw [characters, if_neg hpair, List.flatMap_cons, ih hrest, hsingle hu]
    rfl

/-- **Code units are those of a text exactly if every surrogate is in a pair.** -/
theorem encode_toWellFormed_iff (units : Units) :
    encode (toWellFormed units) = units ↔ paired units = true :=
  ⟨fun h => h ▸ paired_encode _, encode_toWellFormed⟩

/-- A surrogate alone, and two in a pair. -/
example : characters [0xD800, 0x41, 0xD83D, 0xDE00] = [replacement, 'A', '😀'] := by decide

end BulkTraffic.Lib.Utf16
