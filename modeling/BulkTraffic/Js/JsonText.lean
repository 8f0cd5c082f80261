import BulkTraffic.Js.Json

/-!
# JSON as text

`Json.text` is what `JSON.stringify` writes: no white space, and within strings the quotation mark,
the backslash and the control characters escaped. Another writer may escape more
(`Json.textWith`). `Json.read` reads a text by the grammar of JSON, white space and escapes included.
`IsNumber` is the grammar of the number literals that are written.

The strings are texts of characters. A JavaScript string with an unpaired surrogate is none: it is not
written here, and a text with a surrogate escaped without its other half is not read.
-/

namespace BulkTraffic.Js

/-! ### Number literals -/

/-- The digits before the point: a zero alone, or digits of which the first is no zero. -/
inductive IsWhole : List Char → Prop where
  /-- `0`. -/
  | zero : IsWhole ['0']
  /-- `12`. -/
  | digits {d : Char} {ds : List Char} (hd : d.isDigit = true) (hzero : d ≠ '0')
      (hds : ∀ c ∈ ds, c.isDigit = true) : IsWhole (d :: ds)

/-- The point and the digits behind it, or nothing. -/
inductive IsFraction : List Char → Prop where
  /-- Nothing. -/
  | none : IsFraction []
  /-- `.25`. -/
  | digits {ds : List Char} (hne : ds ≠ []) (hds : ∀ c ∈ ds, c.isDigit = true) : IsFraction ('.' :: ds)

/-- The exponent, or nothing. -/
inductive IsPower : List Char → Prop where
  /-- Nothing. -/
  | none : IsPower []
  /-- `e+21`. -/
  | digits {sign : Char} {ds : List Char} (hsign : sign = '+' ∨ sign = '-') (hne : ds ≠ [])
      (hds : ∀ c ∈ ds, c.isDigit = true) : IsPower ('e' :: sign :: ds)

/-- A number literal without a sign. -/
inductive IsMagnitude : List Char → Prop where
  /-- `12.5e+21`. -/
  | parts {whole fraction power : List Char} (hwhole : IsWhole whole) (hfraction : IsFraction fraction)
      (hpower : IsPower power) : IsMagnitude (whole ++ (fraction ++ power))

/-- A number literal as `JSON.stringify` writes it. -/
inductive IsNumber : List Char → Prop where
  /-- Without a sign. -/
  | positive {literal : List Char} (h : IsMagnitude literal) : IsNumber literal
  /-- With a minus sign. -/
  | negative {literal : List Char} (h : IsMagnitude literal) : IsNumber ('-' :: literal)

namespace Json

/-! ### `JSON.stringify` -/

/-- One character within a string. -/
def escapeChar (c : Char) : List Char :=
  if c = '"' then ['\\', '"']
  else if c = '\\' then ['\\', '\\']
  else if c.toNat = 8 then ['\\', 'b']
  else if c.toNat = 9 then ['\\', 't']
  else if c.toNat = 10 then ['\\', 'n']
  else if c.toNat = 12 then ['\\', 'f']
  else if c.toNat = 13 then ['\\', 'r']
  else if c.toNat < 32 then
    ['\\', 'u', '0', '0', Nat.digitChar (c.toNat / 16), Nat.digitChar (c.toNat % 16)]
  else [c]

section Writer

variable (escape : Char → List Char)

/-- The characters of a string behind the quotation mark, and the mark at its end. -/
def quotedTail (cs : List Char) : List Char := cs.flatMap escape ++ ['"']

/-- A string between quotation marks. -/
def quoted (s : String) : List Char := '"' :: quotedTail escape s.toList

mutual

/-- The text of a value, with these escapes. -/
def textWith : Json → List Char
  | null => ['n', 'u', 'l', 'l']
  | bool true => ['t', 'r', 'u', 'e']
  | bool false => ['f', 'a', 'l', 's', 'e']
  | num literal => literal.toList
  | str s => quoted escape s
  | arr items => '[' :: itemsText items ++ [']']
  | obj members => '{' :: membersText members ++ ['}']

/-- The items of an array, with commas between them. -/
def itemsText : List Json → List Char
  | [] => []
  | [item] => textWith item
  | item :: next :: items => textWith item ++ ',' :: itemsText (next :: items)

/-- The members of an object, with commas between them. -/
def membersText : List (String × Json) → List Char
  | [] => []
  | [(name, value)] => quoted escape name ++ ':' :: textWith value
  | (name, value) :: next :: members =>
    quoted escape name ++ ':' :: (textWith value ++ ',' :: membersText (next :: members))

end

end Writer

/-- `JSON.stringify(value)`. -/
abbrev text : Json → List Char := textWith escapeChar

/-! ### `JSON.parse` -/

/-- White space between the tokens. -/
def skipWhite (cs : List Char) : List Char :=
  cs.dropWhile fun c => c == ' ' || c == '\t' || c == '\n' || c == '\r'

/-- Four hexadecimal digits. -/
def readUnit : List Char → Option (ℕ × List Char)
  | a :: b :: c :: d :: cs =>
    match digitValue 16 a, digitValue 16 b, digitValue 16 c, digitValue 16 d with
    | some a, some b, some c, some d => some (((a * 16 + b) * 16 + c) * 16 + d, cs)
    | _, _, _, _ => none
  | _ => none

/-- Behind `\u`: a unit of UTF-16, or the two halves of a surrogate pair. -/
def readUnicode (cs : List Char) : Option (Char × List Char) :=
  (readUnit cs).bind fun (unit, cs) =>
    if 0xD800 ≤ unit ∧ unit ≤ 0xDBFF then
      match cs with
      | '\\' :: 'u' :: cs => (readUnit cs).bind fun (low, cs) =>
        if 0xDC00 ≤ low ∧ low ≤ 0xDFFF then
          some (Char.ofNat (0x10000 + (unit - 0xD800) * 0x400 + (low - 0xDC00)), cs)
        else none
      | _ => none
    else if 0xDC00 ≤ unit ∧ unit ≤ 0xDFFF then none
    else some (Char.ofNat unit, cs)

/-- The character that a letter behind the backslash stands for. -/
def escaped (c : Char) : Option Char :=
  if c = '"' ∨ c = '\\' ∨ c = '/' then some c
  else if c = 'b' then some (Char.ofNat 8)
  else if c = 't' then some '\t'
  else if c = 'n' then some '\n'
  else if c = 'f' then some (Char.ofNat 12)
  else if c = 'r' then some '\r'
  else none

/-- One character of a string. -/
def readChar : List Char → Option (Char × List Char)
  | [] => none
  | c :: cs =>
    if c = '\\' then
      match cs with
      | [] => none
      | letter :: cs => if letter = 'u' then readUnicode cs else (escaped letter).map fun c => (c, cs)
    else if c.toNat < 32 then none
    else some (c, cs)

/-- The characters up to the quotation mark that ends the string. -/
def readChars : ℕ → List Char → Option (List Char × List Char)
  | 0, _ => none
  | _ + 1, [] => none
  | fuel + 1, c :: cs =>
    if c = '"' then some ([], cs)
    else (readChar (c :: cs)).bind fun (d, cs) =>
      (readChars fuel cs).map fun (ds, rest) => (d :: ds, rest)

/-- A string behind its first quotation mark. -/
def readString (cs : List Char) : Option (String × List Char) :=
  (readChars cs.length cs).map fun (ds, rest) => (String.ofList ds, rest)

/-- The digits at the start, at least one. -/
def readDigitRun (cs : List Char) : Option (List Char × List Char) :=
  if cs.takeWhile Char.isDigit = [] then none
  else some (cs.takeWhile Char.isDigit, cs.dropWhile Char.isDigit)

/-- The digits before the point. -/
def readWhole : List Char → Option (List Char × List Char)
  | [] => none
  | c :: cs => if c = '0' then some (['0'], cs) else readDigitRun (c :: cs)

/-- The point and the digits behind it. -/
def readFraction : List Char → Option (List Char × List Char)
  | [] => some ([], [])
  | c :: cs =>
    if c = '.' then (readDigitRun cs).map fun (ds, rest) => ('.' :: ds, rest)
    else some ([], c :: cs)

/-- The exponent. -/
def readPower : List Char → Option (List Char × List Char)
  | [] => some ([], [])
  | c :: cs =>
    if c = 'e' ∨ c = 'E' then
      match cs with
      | [] => none
      | sign :: digits =>
        if sign = '+' ∨ sign = '-' then
          (readDigitRun digits).map fun (ds, rest) => (c :: sign :: ds, rest)
        else (readDigitRun cs).map fun (ds, rest) => (c :: ds, rest)
    else some ([], c :: cs)

/-- A number without a sign. -/
def readMagnitude (cs : List Char) : Option (List Char × List Char) :=
  (readWhole cs).bind fun (whole, cs) => (readFraction cs).bind fun (fraction, cs) =>
    (readPower cs).map fun (power, cs) => (whole ++ (fraction ++ power), cs)

/-- A number: its literal. -/
def readNumber : List Char → Option (Json × List Char)
  | [] => none
  | c :: cs =>
    if c = '-' then (readMagnitude cs).map fun (l, rest) => (num (String.ofList ('-' :: l)), rest)
    else (readMagnitude (c :: cs)).map fun (l, rest) => (num (String.ofList l), rest)

/-- One of the three words. -/
def readWord (word : List Char) (value : Json) (cs : List Char) : Option (Json × List Char) :=
  if word.isPrefixOf cs then some (value, cs.drop word.length) else none

/-- The character at the start of a text, without the white space before it. -/
def nextToken (cs : List Char) : Option (Char × List Char) :=
  match skipWhite cs with
  | [] => none
  | c :: cs => some (c, cs)

mutual

/-- A value at the start of a text, and what follows it. -/
def readValue : ℕ → List Char → Option (Json × List Char)
  | 0, _ => none
  | fuel + 1, cs => (nextToken cs).bind fun (c, cs) =>
    if c = '"' then (readString cs).map fun (s, rest) => (str s, rest)
    else if c = '[' then
      (nextToken cs).bind fun (d, rest) =>
        if d = ']' then some (arr [], rest)
        else (readItems fuel cs).map fun (items, rest) => (arr items, rest)
    else if c = '{' then
      (nextToken cs).bind fun (d, rest) =>
        if d = '}' then some (obj [], rest)
        else (readMembers fuel cs).map fun (members, rest) => (obj members, rest)
    else if c = 'n' then readWord ['u', 'l', 'l'] null cs
    else if c = 't' then readWord ['r', 'u', 'e'] (bool true) cs
    else if c = 'f' then readWord ['a', 'l', 's', 'e'] (bool false) cs
    else readNumber (c :: cs)

/-- The items of an array that is not empty, up to its bracket. -/
def readItems : ℕ → List Char → Option (List Json × List Char)
  | 0, _ => none
  | fuel + 1, cs => (readValue fuel cs).bind fun (item, cs) => (nextToken cs).bind fun (c, cs) =>
    if c = ',' then (readItems fuel cs).map fun (items, rest) => (item :: items, rest)
    else if c = ']' then some ([item], cs)
    else none

/-- The members of an object that is not empty, up to its brace. -/
def readMembers : ℕ → List Char → Option (List (String × Json) × List Char)
  | 0, _ => none
  | fuel + 1, cs => (nextToken cs).bind fun (quote, cs) =>
    if quote = '"' then
      (readString cs).bind fun (name, cs) => (nextToken cs).bind fun (colon, cs) =>
        if colon = ':' then
          (readValue fuel cs).bind fun (value, cs) => (nextToken cs).bind fun (c, cs) =>
            if c = ',' then
              (readMembers fuel cs).map fun (members, rest) => ((name, value) :: members, rest)
            else if c = '}' then some ([(name, value)], cs)
            else none
        else none
    else none

end

/-- The value of a text. -/
def read (cs : List Char) : Option Json :=
  (readValue (cs.length + 1) cs).bind fun (value, rest) => if skipWhite rest = [] then some value else none

example : (read " [1, \x7b \"a\\u00e9\": -2.5e3 \x7d]\n".toList).map text =
    some "[1,\x7b\"aé\":-2.5e3\x7d]".toList := by
  decide +kernel

end Json

end BulkTraffic.Js
