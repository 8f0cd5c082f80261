import BulkTraffic.Js.JsonText

/-!
# JSON is read back from its text

* `Json.read_text`: every value whose numbers are number literals is read back from its text.
* `Json.read_textWith`: so it is from a text with other escapes, if the reader undoes them.
* `Json.printable_text`: no control character, and so no line break, stands in a text that
  `JSON.stringify` writes.

A value is read back whatever follows it, as long as what follows could not go on with a number
(`Json.Ends`): that is what the induction over the value carries.
-/

namespace BulkTraffic.Js

theorem IsMagnitude.head {literal : List Char} (h : IsMagnitude literal) :
    ∃ d ds, literal = d :: ds ∧ d.isDigit = true := by
  obtain ⟨hwhole, -, -⟩ := h
  cases hwhole with
  | zero => exact ⟨_, _, rfl, rfl⟩
  | digits hd _ _ => exact ⟨_, _, rfl, hd⟩

/-- A number begins with a minus sign or a digit. -/
theorem IsNumber.head {literal : List Char} (h : IsNumber literal) :
    ∃ d ds, literal = d :: ds ∧ (d = '-' ∨ d.isDigit = true) := by
  cases h with
  | positive h =>
    obtain ⟨d, ds, rfl, hd⟩ := h.head
    exact ⟨d, ds, rfl, .inr hd⟩
  | negative _ => exact ⟨_, _, rfl, .inl rfl⟩

namespace Json

/-! ### Strings are read back -/

theorem digitValue_digitChar {d : ℕ} (h : d < 16) : digitValue 16 (Nat.digitChar d) = some d := by
  have hall : ∀ d < 16, digitValue 16 (Nat.digitChar d) = some d := by decide
  exact hall d h

theorem readUnit_control {n : ℕ} (h : n < 32) (rest : List Char) :
    readUnit ('0' :: '0' :: Nat.digitChar (n / 16) :: Nat.digitChar (n % 16) :: rest) = some (n, rest) := by
  have hzero : digitValue 16 '0' = some 0 := by decide
  simp only [readUnit, hzero, digitValue_digitChar (d := n / 16) (by omega),
    digitValue_digitChar (d := n % 16) (by omega)]
  congr 2
  omega

/-- **A character is read back** from what is written for it. -/
theorem readChar_escapeChar (c : Char) (rest : List Char) :
    readChar (escapeChar c ++ rest) = some (c, rest) := by
  have hof : ∀ n, c.toNat = n → Char.ofNat n = c := fun n hn => hn ▸ Char.ofNat_toNat c
  unfold escapeChar
  split
  · rename_i h
    rw [h]
    rfl
  split
  · rename_i h
    rw [h]
    rfl
  split
  · rename_i h
    rw [← hof 8 h]
    rfl
  split
  · rename_i h
    rw [← hof 9 h]
    rfl
  split
  · rename_i h
    rw [← hof 10 h]
    rfl
  split
  · rename_i h
    rw [← hof 12 h]
    rfl
  split
  · rename_i h
    rw [← hof 13 h]
    rfl
  split
  · rename_i h
    have hunit := readUnit_control h rest
    simp only [List.cons_append, List.nil_append, readChar, if_true, readUnicode, hunit,
      Option.bind_some]
    rw [if_neg (by omega), if_neg (by omega), hof _ rfl]
  · rename_i hquote hback _ _ _ _ _ hlow
    simp [readChar, hback, hlow]

theorem head_escapeChar (c : Char) : ∃ d ds, escapeChar c = d :: ds ∧ d ≠ '"' := by
  unfold escapeChar
  split
  · exact ⟨_, _, rfl, by decide⟩
  · rename_i hquote
    repeat' split
    all_goals exact ⟨_, _, rfl, by first | decide | exact hquote⟩

/-- The reader undoes the escapes, and what is written for a character does not end the string. -/
structure Undone (escape : Char → List Char) : Prop where
  /-- The character is read back. -/
  read : ∀ c rest, readChar (escape c ++ rest) = some (c, rest)
  /-- No quotation mark is at the head. -/
  head : ∀ c, ∃ d ds, escape c = d :: ds ∧ d ≠ '"'

theorem undone_escapeChar : Undone escapeChar := ⟨readChar_escapeChar, head_escapeChar⟩

variable {escape : Char → List Char}

theorem readChars_quotedTail (hescape : Undone escape) (cs rest : List Char) {fuel : ℕ}
    (h : cs.length < fuel) : readChars fuel (quotedTail escape cs ++ rest) = some (cs, rest) := by
  induction cs generalizing fuel with
  | nil =>
    obtain ⟨fuel, rfl⟩ := Nat.exists_eq_succ_of_ne_zero (Nat.ne_of_gt h)
    rfl
  | cons c cs ih =>
    obtain ⟨fuel, rfl⟩ := Nat.exists_eq_succ_of_ne_zero (Nat.ne_of_gt (Nat.zero_lt_of_lt h))
    obtain ⟨d, ds, hcons, hne⟩ := hescape.head c
    have hread := hescape.read c (quotedTail escape cs ++ rest)
    have htail : quotedTail escape (c :: cs) ++ rest = escape c ++ (quotedTail escape cs ++ rest) := by
      simp [quotedTail]
    rw [hcons] at hread htail
    have hlength : cs.length < fuel := by simpa using h
    rw [htail, List.cons_append, readChars, if_neg hne, ← List.cons_append, hread]
    simp only [Option.bind_some, ih hlength, Option.map_some]

theorem length_lt_length_quotedTail (hescape : Undone escape) (cs : List Char) :
    cs.length < (quotedTail escape cs).length := by
  induction cs with
  | nil => simp [quotedTail]
  | cons c cs ih =>
    obtain ⟨d, ds, hcons, -⟩ := hescape.head c
    simp only [quotedTail, List.flatMap_cons, hcons, List.length_append, List.length_cons,
      List.length_nil] at ih ⊢
    omega

/-- **A string is read back.** -/
theorem readString_quotedTail (hescape : Undone escape) (s : String) (rest : List Char) :
    readString (quotedTail escape s.toList ++ rest) = some (s, rest) := by
  have hlength : s.toList.length < (quotedTail escape s.toList ++ rest).length := by
    rw [List.length_append]
    exact Nat.lt_of_lt_of_le (length_lt_length_quotedTail hescape _) (Nat.le_add_right _ _)
  simp only [readString, readChars_quotedTail hescape _ _ hlength, Option.map_some, String.ofList_toList]

/-! ### Numbers are read back -/

/-- What follows a value: nothing, or a comma, a bracket or a brace. -/
def Ends (rest : List Char) : Prop := ∀ c ∈ rest.head?, c = ',' ∨ c = ']' ∨ c = '\x7d'

theorem Ends.not_isDigit {rest : List Char} (h : Ends rest) : ∀ c ∈ rest.head?, c.isDigit = false := by
  intro c hc
  rcases h c hc with rfl | rfl | rfl <;> rfl

theorem takeWhile_digits {ds rest : List Char} (hds : ∀ c ∈ ds, c.isDigit = true)
    (hrest : ∀ c ∈ rest.head?, c.isDigit = false) :
    (ds ++ rest).takeWhile Char.isDigit = ds ∧ (ds ++ rest).dropWhile Char.isDigit = rest := by
  have htake : rest.takeWhile Char.isDigit = [] ∧ rest.dropWhile Char.isDigit = rest := by
    cases rest with
    | nil => exact ⟨rfl, rfl⟩
    | cons c cs => simp [hrest c rfl]
  rw [List.takeWhile_append_of_pos hds, List.dropWhile_append_of_pos hds, htake.1, htake.2, List.append_nil]
  exact ⟨rfl, rfl⟩

theorem readDigitRun_append {ds rest : List Char} (hne : ds ≠ []) (hds : ∀ c ∈ ds, c.isDigit = true)
    (hrest : ∀ c ∈ rest.head?, c.isDigit = false) : readDigitRun (ds ++ rest) = some (ds, rest) := by
  rw [readDigitRun, (takeWhile_digits hds hrest).1, (takeWhile_digits hds hrest).2, if_neg hne]

theorem readWhole_append {whole rest : List Char} (h : IsWhole whole)
    (hrest : ∀ c ∈ rest.head?, c.isDigit = false) : readWhole (whole ++ rest) = some (whole, rest) := by
  cases h with
  | zero => rfl
  | digits hd hzero hds =>
    rw [List.cons_append, readWhole, if_neg hzero, ← List.cons_append]
    refine readDigitRun_append (List.cons_ne_nil _ _) (fun c hc => ?_) hrest
    rcases List.mem_cons.mp hc with rfl | hc
    · exact hd
    · exact hds c hc

theorem readPower_append {power rest : List Char} (h : IsPower power) (hrest : Ends rest) :
    readPower (power ++ rest) = some (power, rest) := by
  cases h with
  | none =>
    cases rest with
    | nil => rfl
    | cons c cs =>
      have hc : ¬ (c = 'e' ∨ c = 'E') := by
        rcases hrest c rfl with rfl | rfl | rfl <;> decide
      simp [readPower, hc]
  | digits hsign hne hds =>
    simp only [List.cons_append, readPower, true_or, if_true, if_pos hsign,
      readDigitRun_append hne hds hrest.not_isDigit]
    rfl

theorem head_power {power rest : List Char} (h : IsPower power) (hrest : Ends rest) :
    ∀ c ∈ (power ++ rest).head?, c.isDigit = false ∧ c ≠ '.' := by
  intro c hc
  cases h with
  | none =>
    rcases hrest c hc with rfl | rfl | rfl <;> decide
  | digits _ _ _ =>
    obtain rfl : 'e' = c := by simpa using hc
    decide

theorem readFraction_append {fraction rest : List Char} (h : IsFraction fraction)
    (hrest : ∀ c ∈ rest.head?, c.isDigit = false ∧ c ≠ '.') :
    readFraction (fraction ++ rest) = some (fraction, rest) := by
  cases h with
  | none =>
    cases rest with
    | nil => rfl
    | cons c cs => simp [readFraction, (hrest c rfl).2]
  | digits hne hds =>
    rw [List.cons_append, readFraction, if_pos rfl,
      readDigitRun_append hne hds fun c hc => (hrest c hc).1]
    rfl

theorem head_fraction {fraction rest : List Char} (h : IsFraction fraction)
    (hrest : ∀ c ∈ rest.head?, c.isDigit = false) : ∀ c ∈ (fraction ++ rest).head?, c.isDigit = false := by
  cases h with
  | none => exact hrest
  | digits _ _ =>
    intro c hc
    obtain rfl : '.' = c := by simpa using hc
    rfl

theorem readMagnitude_append {literal rest : List Char} (h : IsMagnitude literal) (hrest : Ends rest) :
    readMagnitude (literal ++ rest) = some (literal, rest) := by
  obtain ⟨hwhole, hfraction, hpower⟩ := h
  have hpowerHead := head_power hpower hrest
  have hfractionHead := head_fraction hfraction fun c hc => (hpowerHead c hc).1
  simp only [List.append_assoc, readMagnitude, readWhole_append hwhole hfractionHead, Option.bind_some,
    readFraction_append hfraction hpowerHead, readPower_append hpower hrest, Option.map_some]

/-- **A number is read back** as its literal. -/
theorem readNumber_append {literal rest : List Char} (h : IsNumber literal) (hrest : Ends rest) :
    readNumber (literal ++ rest) = some (num (String.ofList literal), rest) := by
  cases h with
  | positive h =>
    obtain ⟨d, ds, hcons, hd⟩ := h.head
    have hread := readMagnitude_append h hrest
    rw [hcons, List.cons_append] at hread ⊢
    have hminus : d ≠ '-' := ne_of_isDigit hd rfl
    rw [readNumber, if_neg hminus, hread]
    rfl
  | negative h =>
    rw [List.cons_append, readNumber, if_pos rfl, readMagnitude_append h hrest]
    rfl

/-! ### Values are read back -/

mutual

/-- All numbers in the value are number literals. -/
def WellFormed : Json → Prop
  | null | bool _ | str _ => True
  | num literal => IsNumber literal.toList
  | arr items => ItemsWellFormed items
  | obj members => MembersWellFormed members

/-- All numbers in the items are. -/
def ItemsWellFormed : List Json → Prop
  | [] => True
  | item :: items => WellFormed item ∧ ItemsWellFormed items

/-- All numbers in the members are. -/
def MembersWellFormed : List (String × Json) → Prop
  | [] => True
  | (_, value) :: members => WellFormed value ∧ MembersWellFormed members

end

mutual

/-- How often the reader calls itself for the value. -/
def size : Json → ℕ
  | null | bool _ | str _ | num _ => 1
  | arr items => itemsSize items + 1
  | obj members => membersSize members + 1

/-- How often it does for the items. -/
def itemsSize : List Json → ℕ
  | [] => 0
  | item :: items => size item + itemsSize items + 1

/-- How often it does for the members. -/
def membersSize : List (String × Json) → ℕ
  | [] => 0
  | (_, value) :: members => size value + membersSize members + 1

end

theorem nextToken_cons {c : Char} (h : (c == ' ' || c == '\t' || c == '\n' || c == '\r') = false)
    (cs : List Char) : nextToken (c :: cs) = some (c, cs) := by
  rw [nextToken, skipWhite, List.dropWhile_cons_of_neg (by simpa using h)]

/-- A character with which a value begins: no white space, no closing bracket and no brace. -/
def IsFirst (c : Char) : Prop :=
  (c == ' ' || c == '\t' || c == '\n' || c == '\r') = false ∧ c ≠ ']' ∧ c ≠ '\x7d'

theorem isFirst_of_isDigit {c : Char} (h : c.isDigit = true) : IsFirst c := by
  have hne : ∀ d : Char, d.isDigit = false → (c == d) = false := fun d hd =>
    beq_eq_false_iff_ne.mpr (ne_of_isDigit h hd)
  refine ⟨?_, ne_of_isDigit h rfl, ne_of_isDigit h rfl⟩
  simp [hne ' ' rfl, hne '\t' rfl, hne '\n' rfl, hne '\r' rfl]

/-- How a value begins. -/
theorem head_textWith {value : Json} (h : value.WellFormed) :
    ∃ c cs, value.textWith escape = c :: cs ∧ IsFirst c := by
  cases value with
  | null => exact ⟨_, _, rfl, by decide, by decide, by decide⟩
  | bool b => cases b <;> exact ⟨_, _, rfl, by decide, by decide, by decide⟩
  | num literal =>
    obtain ⟨d, ds, hcons, hd⟩ := IsNumber.head h
    refine ⟨d, ds, hcons, ?_⟩
    rcases hd with rfl | hd
    · exact ⟨by decide, by decide, by decide⟩
    · exact isFirst_of_isDigit hd
  | str s => exact ⟨_, _, rfl, by decide, by decide, by decide⟩
  | arr items => exact ⟨_, _, rfl, by decide, by decide, by decide⟩
  | obj members => exact ⟨_, _, rfl, by decide, by decide, by decide⟩

theorem readValue_word {word rest : List Char} {c : Char} {value : Json} {fuel : ℕ}
    (h : ∀ cs, readValue (fuel + 1) (c :: cs) = readWord word value cs) :
    readValue (fuel + 1) (c :: (word ++ rest)) = some (value, rest) := by
  rw [h, readWord, if_pos (List.isPrefixOf_iff_prefix.mpr (List.prefix_append _ _)), List.drop_left]

/-- A number where a value is expected. -/
theorem readValue_number {literal rest : List Char} (h : IsNumber literal) (hrest : Ends rest) (fuel : ℕ) :
    readValue (fuel + 1) (literal ++ rest) = some (num (String.ofList literal), rest) := by
  have hread := readNumber_append h hrest
  obtain ⟨d, ds, rfl, hd⟩ := h.head
  have hfirst : IsFirst d := by
    rcases hd with rfl | hd
    · exact ⟨by decide, by decide, by decide⟩
    · exact isFirst_of_isDigit hd
  have hne : ∀ c : Char, c ≠ '-' → c.isDigit = false → d ≠ c := by
    rintro c hminus hdigit rfl
    rcases hd with hd | hd
    · exact hminus hd
    · rw [hd] at hdigit
      cases hdigit
  rw [List.cons_append] at hread ⊢
  rw [readValue, nextToken_cons hfirst.1]
  simp only [Option.bind_some, hne '"' (by decide) rfl, hne '[' (by decide) rfl, hne '\x7b' (by decide) rfl,
    hne 'n' (by decide) rfl, hne 't' (by decide) rfl, hne 'f' (by decide) rfl, if_false, hread]

/-- How the items of an array begin. -/
theorem head_itemsText {items : List Json} (hne : items ≠ []) (h : ItemsWellFormed items) :
    ∃ c cs, itemsText escape items = c :: cs ∧ IsFirst c := by
  obtain ⟨item, items, rfl⟩ := List.exists_cons_of_ne_nil hne
  obtain ⟨c, cs, htext, hfirst⟩ := head_textWith h.1
  cases items with
  | nil => exact ⟨c, cs, htext, hfirst⟩
  | cons next items => exact ⟨c, _, by rw [itemsText, htext, List.cons_append], hfirst⟩

/-- How the members of an object begin. -/
theorem head_membersText {members : List (String × Json)} (hne : members ≠ []) :
    ∃ cs, membersText escape members = '"' :: cs := by
  obtain ⟨⟨name, value⟩, members, rfl⟩ := List.exists_cons_of_ne_nil hne
  cases members with
  | nil => exact ⟨_, rfl⟩
  | cons next members => exact ⟨_, rfl⟩

theorem readItems_cons {cs after : List Char} {item : Json} {fuel : ℕ}
    (hitem : readValue fuel cs = some (item, after)) :
    readItems (fuel + 1) cs = (nextToken after).bind fun (c, cs) =>
      if c = ',' then (readItems fuel cs).map fun (items, rest) => (item :: items, rest)
      else if c = ']' then some ([item], cs)
      else none := by
  rw [readItems, hitem, Option.bind_some]

theorem readMembers_cons (hescape : Undone escape) {name : String} {rest after : List Char} {value : Json} {fuel : ℕ}
    (hvalue : readValue fuel rest = some (value, after)) :
    readMembers (fuel + 1) (quoted escape name ++ ':' :: rest) =
      (nextToken after).bind fun (c, cs) =>
        if c = ',' then (readMembers fuel cs).map fun (members, rest) => ((name, value) :: members, rest)
        else if c = '\x7d' then some ([(name, value)], cs)
        else none := by
  have hcolon : nextToken (':' :: rest) = some (':', rest) := nextToken_cons rfl _
  rw [quoted, List.cons_append, readMembers, nextToken_cons rfl]
  simp only [Option.bind_some, if_true, readString_quotedTail hescape, hcolon, hvalue]

mutual

/-- **A value is read back** from its text, whatever ends it. -/
theorem readValue_textWith (hescape : Undone escape) (value : Json) (h : value.WellFormed) {fuel : ℕ}
    (hf : value.size ≤ fuel) (rest : List Char) (hrest : Ends rest) :
    readValue fuel (value.textWith escape ++ rest) = some (value, rest) := by
  obtain ⟨fuel, rfl⟩ : ∃ n, fuel = n + 1 := by
    refine Nat.exists_eq_succ_of_ne_zero ?_
    rintro rfl
    cases value <;> cases hf
  cases value with
  | null =>
    have hword : ∀ cs, readValue (fuel + 1) ('n' :: cs) = readWord ['u', 'l', 'l'] null cs := fun _ => rfl
    exact readValue_word hword
  | bool b =>
    cases b with
    | true => exact readValue_word fun _ => rfl
    | false => exact readValue_word fun _ => rfl
  | num literal =>
    have hread := readValue_number h hrest fuel
    rwa [String.ofList_toList] at hread
  | str s =>
    rw [textWith, quoted, List.cons_append, readValue, nextToken_cons rfl]
    simp only [Option.bind_some, if_true, readString_quotedTail hescape, Option.map_some]
  | arr items =>
    rw [textWith, List.append_assoc, List.cons_append, readValue, nextToken_cons rfl]
    by_cases hne : items = []
    · subst hne
      rfl
    · have hread := readItems_text hescape items hne h (by simpa [size] using hf) rest
      obtain ⟨c, cs, htext, hfirst, hbracket, -⟩ := head_itemsText hne h
      have hnext : nextToken (itemsText escape items ++ (']' :: rest)) = some (c, cs ++ ']' :: rest) := by
        rw [htext, List.cons_append, nextToken_cons hfirst]
      simp only [Option.bind_some, List.singleton_append, hnext, hread, if_neg hbracket]
      rfl
  | obj members =>
    rw [textWith, List.append_assoc, List.cons_append, readValue, nextToken_cons rfl]
    by_cases hne : members = []
    · subst hne
      rfl
    · have hread := readMembers_text hescape members hne h (by simpa [size] using hf) rest
      obtain ⟨cs, htext⟩ := head_membersText hne
      have hnext : nextToken (membersText escape members ++ ('\x7d' :: rest)) = some ('"', cs ++ '\x7d' :: rest) := by
        rw [htext, List.cons_append, nextToken_cons rfl]
      simp only [Option.bind_some, List.singleton_append, hnext, hread]
      rfl

/-- The items of an array are read back. -/
theorem readItems_text (hescape : Undone escape) (items : List Json) (hne : items ≠ [])
    (h : ItemsWellFormed items) {fuel : ℕ} (hf : itemsSize items ≤ fuel) (rest : List Char) :
    readItems fuel (itemsText escape items ++ ']' :: rest) = some (items, rest) := by
  cases items with
  | nil => exact absurd rfl hne
  | cons item items =>
    obtain ⟨fuel, rfl⟩ : ∃ n, fuel = n + 1 :=
      Nat.exists_eq_succ_of_ne_zero (by simp only [itemsSize] at hf; omega)
    simp only [itemsSize, Nat.add_le_add_iff_right] at hf
    cases items with
    | nil =>
      have hread := readValue_textWith hescape item h.1 (by omega : item.size ≤ fuel) (']' :: rest)
        fun c hc => .inr (.inl (Option.some.inj hc).symm)
      rw [itemsText, readItems_cons hread, nextToken_cons rfl]
      rfl
    | cons next items =>
      have hread := readValue_textWith hescape item h.1 (by omega : item.size ≤ fuel)
        (',' :: (itemsText escape (next :: items) ++ ']' :: rest)) fun c hc => .inl (Option.some.inj hc).symm
      have hmore := readItems_text hescape (next :: items) (List.cons_ne_nil _ _) h.2
        (by omega : itemsSize (next :: items) ≤ fuel) rest
      rw [itemsText, List.append_assoc, List.cons_append, readItems_cons hread, nextToken_cons rfl]
      simp only [Option.bind_some, if_true, hmore, Option.map_some]

/-- The members of an object are read back. -/
theorem readMembers_text (hescape : Undone escape) (members : List (String × Json)) (hne : members ≠ [])
    (h : MembersWellFormed members) {fuel : ℕ} (hf : membersSize members ≤ fuel) (rest : List Char) :
    readMembers fuel (membersText escape members ++ '\x7d' :: rest) = some (members, rest) := by
  cases members with
  | nil => exact absurd rfl hne
  | cons member members =>
    obtain ⟨name, value⟩ := member
    obtain ⟨fuel, rfl⟩ : ∃ n, fuel = n + 1 :=
      Nat.exists_eq_succ_of_ne_zero (by simp only [membersSize] at hf; omega)
    simp only [membersSize, Nat.add_le_add_iff_right] at hf
    cases members with
    | nil =>
      have hread := readValue_textWith hescape value h.1 (by omega : value.size ≤ fuel) ('\x7d' :: rest)
        fun c hc => .inr (.inr (Option.some.inj hc).symm)
      rw [membersText, List.append_assoc, List.cons_append, readMembers_cons hescape hread, nextToken_cons rfl]
      rfl
    | cons next members =>
      have hread := readValue_textWith hescape value h.1 (by omega : value.size ≤ fuel)
        (',' :: (membersText escape (next :: members) ++ '\x7d' :: rest))
        fun c hc => .inl (Option.some.inj hc).symm
      have hmore := readMembers_text hescape (next :: members) (List.cons_ne_nil _ _) h.2
        (by omega : membersSize (next :: members) ≤ fuel) rest
      rw [membersText, List.append_assoc, List.cons_append, List.append_assoc, List.cons_append,
        readMembers_cons hescape hread, nextToken_cons rfl]
      simp only [Option.bind_some, if_true, hmore, Option.map_some]

end

mutual

theorem size_le_length_textWith (value : Json) (h : value.WellFormed) :
    value.size ≤ (value.textWith escape).length := by
  cases value with
  | null => simp [size, textWith]
  | bool b => cases b <;> simp [size, textWith]
  | num literal =>
    obtain ⟨d, ds, hcons, -⟩ := IsNumber.head h
    simp [size, textWith, hcons]
  | str s => simp [size, textWith, quoted]
  | arr items =>
    have hle := itemsSize_le_length items h
    simp only [size, textWith, List.length_cons, List.length_append, List.length_nil]
    omega
  | obj members =>
    have hle := membersSize_le_length members h
    simp only [size, textWith, List.length_cons, List.length_append, List.length_nil]
    omega

theorem itemsSize_le_length (items : List Json) (h : ItemsWellFormed items) :
    itemsSize items ≤ (itemsText escape items).length + 1 := by
  cases items with
  | nil => simp [itemsSize]
  | cons item items =>
    have hitem := size_le_length_textWith item h.1
    cases items with
    | nil =>
      simp only [itemsSize, itemsText]
      omega
    | cons next items =>
      have hmore := itemsSize_le_length (next :: items) h.2
      rw [itemsSize, itemsText, List.length_append, List.length_cons]
      omega

theorem membersSize_le_length (members : List (String × Json)) (h : MembersWellFormed members) :
    membersSize members ≤ (membersText escape members).length + 1 := by
  cases members with
  | nil => simp [membersSize]
  | cons member members =>
    obtain ⟨name, value⟩ := member
    have hvalue := size_le_length_textWith value h.1
    cases members with
    | nil =>
      simp only [membersSize, membersText, List.length_append, List.length_cons]
      omega
    | cons next members =>
      have hmore := membersSize_le_length (next :: members) h.2
      rw [membersSize, membersText, List.length_append, List.length_cons, List.length_append,
        List.length_cons]
      omega

end

/-- **`JSON.parse` reads a text back** whose escapes it undoes. -/
theorem read_textWith (hescape : Undone escape) {value : Json} (h : value.WellFormed) :
    read (value.textWith escape) = some value := by
  have hsize := @size_le_length_textWith escape value h
  have hread := readValue_textWith hescape value h (Nat.le_succ_of_le hsize) [] nofun
  rw [List.append_nil] at hread
  rw [read, hread]
  rfl

/-- **`JSON.parse` reads back what `JSON.stringify` writes.** -/
theorem read_text {value : Json} (h : value.WellFormed) : read value.text = some value :=
  read_textWith undone_escapeChar h

/-! ### No control characters -/

theorem printable_escapeChar (c : Char) : ∀ d ∈ escapeChar c, 32 ≤ d.toNat := by
  have hdigit : ∀ d < 16, 32 ≤ (Nat.digitChar d).toNat := by decide
  unfold escapeChar
  split
  · simp
  split
  · simp
  split
  · simp
  split
  · simp
  split
  · simp
  split
  · simp
  split
  · simp
  split
  · rename_i h
    have hhigh := hdigit (c.toNat / 16) (by omega)
    have hlow := hdigit (c.toNat % 16) (by omega)
    simp [hhigh, hlow]
  · rename_i h
    intro d hd
    rw [List.mem_singleton.mp hd]
    exact Nat.le_of_not_lt h

theorem printable_quoted (s : String) : ∀ c ∈ quoted escapeChar s, 32 ≤ c.toNat := by
  intro c hc
  simp only [quoted, quotedTail, List.mem_cons, List.mem_append, List.mem_flatMap, List.not_mem_nil,
    or_false] at hc
  rcases hc with rfl | ⟨d, -, hc⟩ | rfl
  · decide
  · exact printable_escapeChar d c hc
  · decide

end Json

theorem IsMagnitude.printable {literal : List Char} (h : IsMagnitude literal) :
    ∀ c ∈ literal, 32 ≤ c.toNat := by
  have hdigits : ∀ {ds : List Char}, (∀ c ∈ ds, c.isDigit = true) → ∀ c ∈ ds, 32 ≤ c.toNat :=
    fun hds c hc => Nat.le_trans (by decide) (toNat_of_isDigit (hds c hc)).1
  obtain ⟨hwhole, hfraction, hpower⟩ := h
  intro c hc
  simp only [List.mem_append] at hc
  rcases hc with hc | hc | hc
  · cases hwhole with
    | zero =>
      rw [List.mem_singleton.mp hc]
      decide
    | digits hd _ hds =>
      refine hdigits (fun c hc => ?_) c hc
      rcases List.mem_cons.mp hc with rfl | hc
      · exact hd
      · exact hds c hc
  · cases hfraction with
    | none => cases hc
    | digits _ hds =>
      rcases List.mem_cons.mp hc with rfl | hc
      · decide
      · exact hdigits hds c hc
  · cases hpower with
    | none => cases hc
    | digits hsign _ hds =>
      rcases List.mem_cons.mp hc with rfl | hc
      · decide
      rcases List.mem_cons.mp hc with rfl | hc
      · rcases hsign with rfl | rfl <;> decide
      · exact hdigits hds c hc

theorem IsNumber.printable {literal : List Char} (h : IsNumber literal) : ∀ c ∈ literal, 32 ≤ c.toNat := by
  cases h with
  | positive h => exact h.printable
  | negative h => exact List.forall_mem_cons.mpr ⟨by decide, h.printable⟩

namespace Json

mutual

/-- **The text has no control character**: it is one line. -/
theorem printable_text (value : Json) (h : value.WellFormed) : ∀ c ∈ value.text, 32 ≤ c.toNat := by
  cases value with
  | null => simp [textWith]
  | bool b => cases b <;> simp [textWith]
  | num literal => exact IsNumber.printable h
  | str s => exact printable_quoted s
  | arr items =>
    have hitems := printable_itemsText items h
    rw [text, textWith, List.forall_mem_append, List.forall_mem_cons]
    exact ⟨⟨by decide, hitems⟩, by simp⟩
  | obj members =>
    have hmembers := printable_membersText members h
    rw [text, textWith, List.forall_mem_append, List.forall_mem_cons]
    exact ⟨⟨by decide, hmembers⟩, by simp⟩

theorem printable_itemsText (items : List Json) (h : ItemsWellFormed items) :
    ∀ c ∈ itemsText escapeChar items, 32 ≤ c.toNat := by
  cases items with
  | nil => nofun
  | cons item items =>
    have hitem := printable_text item h.1
    cases items with
    | nil => exact hitem
    | cons next items =>
      have hmore := printable_itemsText (next :: items) h.2
      rw [itemsText]
      exact List.forall_mem_append.mpr ⟨hitem, List.forall_mem_cons.mpr ⟨by decide, hmore⟩⟩

theorem printable_membersText (members : List (String × Json)) (h : MembersWellFormed members) :
    ∀ c ∈ membersText escapeChar members, 32 ≤ c.toNat := by
  cases members with
  | nil => nofun
  | cons member members =>
    obtain ⟨name, value⟩ := member
    have hname := printable_quoted name
    have hvalue := printable_text value h.1
    cases members with
    | nil =>
      rw [membersText]
      exact List.forall_mem_append.mpr ⟨hname, List.forall_mem_cons.mpr ⟨by decide, hvalue⟩⟩
    | cons next members =>
      have hmore := printable_membersText (next :: members) h.2
      rw [membersText]
      exact List.forall_mem_append.mpr ⟨hname, List.forall_mem_cons.mpr ⟨by decide,
        List.forall_mem_append.mpr ⟨hvalue, List.forall_mem_cons.mpr ⟨by decide, hmore⟩⟩⟩⟩

end

end Json

end BulkTraffic.Js
