import BulkTraffic.Js.Number

/-!
# JavaScript strings

The string functions the server uses, on lists of characters: `trim`, `toLowerCase`,
`includes`, `endsWith` and the conversion `Number(text)`.

`toLowerCase` is given on the ASCII letters and on the two other characters whose lower
case contains an ASCII letter (`İ` and the Kelvin sign); it leaves all others alone. The
results are only compared with ASCII words, so nothing is lost.
-/

namespace BulkTraffic.Js

/-- JavaScript's white space and line terminators. -/
def isWhite (c : Char) : Bool :=
  let n := c.toNat
  (0x9 ≤ n && n ≤ 0xD) || n == 0x20 || n == 0xA0 || n == 0x1680 || (0x2000 ≤ n && n ≤ 0x200A) ||
    n == 0x2028 || n == 0x2029 || n == 0x202F || n == 0x205F || n == 0x3000 || n == 0xFEFF

/-- `text.trim()`. -/
def trim (s : String) : String :=
  String.ofList ((s.toList.dropWhile isWhite).reverse.dropWhile isWhite).reverse

/-- The lower case of one character. -/
def lowerChar (c : Char) : List Char :=
  let n := c.toNat
  if 0x41 ≤ n ∧ n ≤ 0x5A then [Char.ofNat (n + 32)]
  else if n = 0x130 then ['i', Char.ofNat 0x307]
  else if n = 0x212A then ['k']
  else [c]

/-- `text.toLowerCase()`. -/
def toLowerCase (s : String) : String := String.ofList (s.toList.flatMap lowerChar)

/-- `text.toUpperCase()`, of ASCII text (the method of a request). -/
def toUpperCase (s : String) : String := String.ofList (s.toList.map Char.toUpper)

/-- Does `sub` occur in the characters? -/
def includesChars (sub : List Char) : List Char → Bool
  | [] => sub.isEmpty
  | c :: cs => sub.isPrefixOf (c :: cs) || includesChars sub cs

/-- `text.includes(sub)`. -/
def includes (s sub : String) : Bool := includesChars sub.toList s.toList

/-- `text.endsWith(suffix)`. -/
def endsWith (s suffix : String) : Bool := suffix.toList.reverse.isPrefixOf s.toList.reverse

/-! ### `Number(text)` -/

/-- The value of a digit in a base up to sixteen. -/
def digitValue (base : ℕ) (c : Char) : Option ℕ :=
  let n := c.toNat
  let v :=
    if 0x30 ≤ n ∧ n ≤ 0x39 then n - 0x30
    else if 0x41 ≤ n ∧ n ≤ 0x46 then n - 0x37
    else if 0x61 ≤ n ∧ n ≤ 0x66 then n - 0x57
    else base
  if v < base then some v else none

/-- Read the leading digits: their value, how many there are, and the rest. -/
def readDigits (base : ℕ) : List Char → ℕ → ℕ → ℕ × ℕ × List Char
  | [], value, digits => (value, digits, [])
  | c :: cs, value, digits =>
    match digitValue base c with
    | some d => readDigits base cs (value * base + d) (digits + 1)
    | none => (value, digits, c :: cs)

/-- An exponent part: nothing, or `e` with an integer. -/
def readExponent : List Char → Option ℤ
  | [] => some 0
  | c :: cs =>
    if c = 'e' ∨ c = 'E' then
      let (negative, digits) := match cs with
        | '-' :: rest => (true, rest)
        | '+' :: rest => (false, rest)
        | rest => (false, rest)
      match readDigits 10 digits 0 0 with
      | (value, _ + 1, []) => some (if negative then -(value : ℤ) else value)
      | _ => none
    else none

/-- `mantissa * 10 ^ exponent`. -/
def scale10 (mantissa : ℕ) (exponent : ℤ) : ℚ :=
  if 0 ≤ exponent then ((mantissa * 10 ^ exponent.toNat : ℕ) : ℚ)
  else mkRat mantissa (10 ^ (-exponent).toNat)

/-- An unsigned decimal literal. -/
def readDecimal (cs : List Char) : Option ℚ :=
  let (whole, wholeCount, rest) := readDigits 10 cs 0 0
  let (value, fractionCount, rest) := match rest with
    | '.' :: rest => readDigits 10 rest whole 0
    | rest => (whole, 0, rest)
  if wholeCount + fractionCount = 0 then none
  else (readExponent rest).map fun e => scale10 value (e - fractionCount)

/-- An unsigned literal in another base: digits only, at least one. -/
def readBase (base : ℕ) (cs : List Char) : Number :=
  match readDigits base cs 0 0 with
  | (value, _ + 1, []) => binary64 value
  | _ => .nan

/-- A literal with an optional sign. -/
def readSigned (negative : Bool) (cs : List Char) : Number :=
  if cs = "Infinity".toList then .infinity negative
  else match readDecimal cs with
    | some q => binary64 (if negative then -q else q)
    | none => .nan

/-- `Number(text)`. -/
def numberOfString (s : String) : Number :=
  match (trim s).toList with
  | [] => .finite 0
  | '0' :: 'x' :: cs | '0' :: 'X' :: cs => readBase 16 cs
  | '0' :: 'o' :: cs | '0' :: 'O' :: cs => readBase 8 cs
  | '0' :: 'b' :: cs | '0' :: 'B' :: cs => readBase 2 cs
  | '-' :: cs => readSigned true cs
  | '+' :: cs => readSigned false cs
  | cs => readSigned false cs

example : numberOfString " 42 " = .finite 42 := by decide +kernel

example : numberOfString "1e3x" = .nan := by decide +kernel

end BulkTraffic.Js
