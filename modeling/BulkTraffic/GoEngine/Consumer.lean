import BulkTraffic.Js.Json
import Mathlib.Data.Int.Cast.Lemmas

/-!
# The Go consumer of order events

`process` of `consumer.go`: the body of a message is decoded with `json.Unmarshal` into an
`OrderEvent` and checked. The source returns the error only; here `process` also gives the event
it has decoded. The delay after the checks is left out.

`Unmarshal` matches the members of an object with the fields of the struct without regard to
case, skips the members that match none, leaves a field alone where it reads `null`, and lets
a later member overwrite an earlier one. It decodes on after an error and reports the first.

* `parseInt64_numberText`: what `int64` makes of the text of an integer.
* `parseInt64_fraction`: it takes the text of no fraction.
-/

namespace BulkTraffic.GoEngine.Consumer

open BulkTraffic.Js

/-- `OrderEvent`. -/
structure OrderEvent where
  eventType : String := ""
  orderId : String := ""
  userId : String := ""
  amount : Int64 := 0
  emittedAt : Int64 := 0
  deriving DecidableEq

/-- `knownEventTypes`. -/
def knownEventTypes : List String :=
  ["orders.created", "inventory.reserved", "payments.approved", "shipments.started"]

/-! ### `strconv.ParseInt(text, 10, 64)` -/

/-- Digits, at least one. -/
def parseUint (cs : List Char) : Option ℕ :=
  match readDigits 10 cs 0 0 with
  | (value, _ + 1, []) => some value
  | _ => none

/-- An integer that fits. -/
def toInt64? (z : ℤ) : Option Int64 :=
  if -2 ^ 63 ≤ z ∧ z < 2 ^ 63 then some (Int64.ofInt z) else none

/-- `strconv.ParseInt(text, 10, 64)`. -/
def parseInt64 (text : String) : Option Int64 :=
  match text.toList with
  | '-' :: cs => (parseUint cs).bind fun n => toInt64? (-n)
  | '+' :: cs => (parseUint cs).bind fun n => toInt64? n
  | cs => (parseUint cs).bind fun n => toInt64? n

/-! ### `json.Unmarshal` -/

/-- The fields of the struct. -/
inductive StructField where
  | eventType
  | orderId
  | userId
  | amount
  | emittedAt
  deriving DecidableEq

/-- The names in the tags of the fields. -/
def structFields : List (String × StructField) :=
  [("eventType", .eventType), ("orderId", .orderId), ("userId", .userId), ("amount", .amount),
    ("emittedAt", .emittedAt)]

/-- A character as names are compared. Two characters beyond ASCII fold to a letter. -/
def foldRune (c : Char) : Char :=
  if c.toNat = 0x17F then 'S' else if c.toNat = 0x212A then 'K' else c.toUpper

/-- A name as names are compared. -/
def foldName (name : String) : List Char := name.toList.map foldRune

/-- The field a member belongs to. -/
def structField (name : String) : Option StructField :=
  (structFields.find? fun field => foldName field.1 == foldName name).map Prod.snd

/-- How an error names the kind of a value. -/
def kindOf : Json → String
  | .null => "null"
  | .bool _ => "bool"
  | .num _ => "number"
  | .str _ => "string"
  | .arr _ => "array"
  | .obj _ => "object"

/-- The error of a value that does not fit its field. -/
def typeError (value field type : String) : String :=
  "json: cannot unmarshal " ++ value ++ " into Go struct field OrderEvent." ++ field ++
    " of type " ++ type

/-- Decode into a field of type `string`. -/
def decodeString (field old : String) : Json → Except String String
  | .str s => .ok s
  | .null => .ok old
  | value => .error (typeError (kindOf value) field "string")

/-- Decode into a field of type `int64`. -/
def decodeInt64 (field : String) (old : Int64) : Json → Except String Int64
  | .num literal =>
    match parseInt64 literal with
    | some n => .ok n
    | none => .error (typeError ("number " ++ literal) field "int64")
  | .null => .ok old
  | value => .error (typeError (kindOf value) field "int64")

/-- Decode one member. -/
def decodeMember (event : OrderEvent) (member : String × Json) : Except String OrderEvent :=
  match structField member.1 with
  | some .eventType => (decodeString "eventType" event.eventType member.2).map fun s =>
      { event with eventType := s }
  | some .orderId => (decodeString "orderId" event.orderId member.2).map fun s =>
      { event with orderId := s }
  | some .userId => (decodeString "userId" event.userId member.2).map fun s =>
      { event with userId := s }
  | some .amount => (decodeInt64 "amount" event.amount member.2).map fun n =>
      { event with amount := n }
  | some .emittedAt => (decodeInt64 "emittedAt" event.emittedAt member.2).map fun n =>
      { event with emittedAt := n }
  | none => .ok event

/-- `json.Unmarshal(text, &event)`. -/
def unmarshal : Json → Except String OrderEvent
  | .obj members => members.foldlM decodeMember {}
  | .null => .ok {}
  | value => .error ("json: cannot unmarshal " ++ kindOf value ++
      " into Go value of type consumer.OrderEvent")

/-! ### `process` -/

/-- The checks on an event. -/
def checkEvent (event : OrderEvent) : Except String OrderEvent :=
  if event.orderId = "" ∨ event.eventType = "" then
    .error "필수 항목이 없습니다: orderId·eventType 확인 필요"
  else if !knownEventTypes.contains event.eventType then
    .error ("알 수 없는 이벤트 종류입니다: " ++ event.eventType)
  else .ok event

/-- `process(msg)`. The body is empty, no JSON, or a JSON value. -/
def process (value : Option (Except String Json)) : Except String OrderEvent :=
  match value with
  | none => .error "메시지 본문이 비어 있습니다"
  | some body =>
    match body.bind unmarshal with
    | .error error => .error ("본문을 읽지 못했습니다: " ++ error)
    | .ok event => checkEvent event

/-! ### Reading integers -/

theorem toInt_of_toInt64? {z : ℤ} {v : Int64} (h : toInt64? z = some v) :
    v.toInt = z ∧ -2 ^ 63 ≤ z ∧ z < 2 ^ 63 := by
  unfold toInt64? at h
  split at h
  · rename_i hz
    obtain rfl := Option.some.inj h
    exact ⟨Int64.toInt_ofInt_of_le hz.1 hz.2, hz⟩
  · cases h

theorem toInt64?_eq {z : ℤ} (h : z.natAbs < 2 ^ 63) : toInt64? z = some (Int64.ofInt z) :=
  if_pos (by omega)

theorem parseUint_toDigits (n : ℕ) : parseUint (Nat.toDigits 10 n) = some n := by
  obtain ⟨k, hk⟩ : ∃ k, (Nat.toDigits 10 n).length = k + 1 :=
    Nat.exists_eq_succ_of_ne_zero (Nat.ne_of_gt Nat.length_toDigits_pos)
  unfold parseUint
  rw [readDigits_toDigits, hk]

/-- Reading stops at what is no digit. -/
theorem readDigits_rest {c : Char} (hc : digitValue 10 c = none) {cs : List Char} (hmem : c ∈ cs)
    (value digits : ℕ) : (readDigits 10 cs value digits).2.2 ≠ [] := by
  induction cs generalizing value digits with
  | nil => cases hmem
  | cons d cs ih =>
    unfold readDigits
    cases hd : digitValue 10 d with
    | none => simp
    | some v =>
      have htail : c ∈ cs := by
        rcases List.mem_cons.mp hmem with rfl | h
        · rw [hc] at hd
          cases hd
        · exact h
      exact ih htail _ _

theorem parseUint_eq_none {c : Char} (hc : digitValue 10 c = none) {cs : List Char}
    (hmem : c ∈ cs) : parseUint cs = none := by
  have hrest := readDigits_rest hc hmem 0 0
  unfold parseUint
  split
  · rename_i h
    rw [h] at hrest
    exact absurd rfl hrest
  · rfl

/-- A text with a character that is no digit, beyond the sign, is no integer. -/
theorem parseInt64_eq_none {c : Char} (hc : digitValue 10 c = none) {cs : List Char}
    (hsign : c ≠ '-' ∧ c ≠ '+') (hmem : c ∈ cs) : parseInt64 (String.ofList cs) = none := by
  have htail : ∀ {d : Char} {rest : List Char}, c ≠ d → cs = d :: rest →
      parseUint rest = none := by
    rintro d rest hne rfl
    exact parseUint_eq_none hc ((List.mem_cons.mp hmem).resolve_left hne)
  unfold parseInt64
  rw [String.toList_ofList]
  split
  · rw [htail hsign.1 rfl]
    rfl
  · rw [htail hsign.2 rfl]
    rfl
  · rw [parseUint_eq_none hc hmem]
    rfl

theorem parseInt64_toDigits (n : ℕ) :
    parseInt64 (String.ofList (Nat.toDigits 10 n)) = toInt64? n := by
  have hhead : ∀ {c : Char} {cs : List Char}, Nat.toDigits 10 n = c :: cs → c.isDigit = true := by
    intro c cs h
    exact isDigit_of_mem_toDigits (n := n) (by simp [h])
  unfold parseInt64
  rw [String.toList_ofList]
  split
  · rename_i h
    exact absurd (hhead h) (by decide)
  · rename_i h
    exact absurd (hhead h) (by decide)
  · rw [parseUint_toDigits, Option.bind_some]

theorem parseInt64_neg_toDigits (n : ℕ) :
    parseInt64 (String.ofList ('-' :: Nat.toDigits 10 n)) = toInt64? (-n) := by
  unfold parseInt64
  rw [String.toList_ofList]
  show (parseUint (Nat.toDigits 10 n)).bind _ = _
  rw [parseUint_toDigits, Option.bind_some]

/-- **What `int64` makes of the text of an integer**: the number its digits denote, if it fits. -/
theorem parseInt64_numberText {z : ℤ} (h : z.natAbs < 10 ^ 21) :
    parseInt64 (numberText (.finite z)) =
      toInt64? (if z < 0 then -(shortestDecimal z.natAbs) else shortestDecimal z.natAbs) := by
  rw [numberText_intCast h]
  by_cases hz : z < 0
  · rw [if_pos hz, if_pos hz, List.singleton_append, parseInt64_neg_toDigits]
  · rw [if_neg hz, if_neg hz, List.nil_append, parseInt64_toDigits]

/-- **`int64` takes the text of no fraction.** -/
theorem parseInt64_fraction {q : ℚ} (h : q.den ≠ 1) :
    parseInt64 (numberText (.finite q)) = none := by
  have hneg : (-q).den ≠ 1 := by rwa [Rat.neg_den]
  have hmem : ∃ c, (c = '.' ∨ c = 'e') ∧
      c ∈ if q < 0 then '-' :: magnitudeText (-q) else magnitudeText q := by
    split
    · obtain ⟨c, hmem, hc⟩ := exists_mem_fractionText (-q)
      exact ⟨c, hc, List.mem_cons_of_mem _ (by rwa [magnitudeText, if_neg hneg])⟩
    · obtain ⟨c, hmem, hc⟩ := exists_mem_fractionText q
      exact ⟨c, hc, by rwa [magnitudeText, if_neg h]⟩
  obtain ⟨c, hc, hmem⟩ := hmem
  rcases hc with rfl | rfl
  · exact parseInt64_eq_none (by decide) (by decide) hmem
  · exact parseInt64_eq_none (by decide) (by decide) hmem

end BulkTraffic.GoEngine.Consumer
