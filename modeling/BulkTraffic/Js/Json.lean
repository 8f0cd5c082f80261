import BulkTraffic.Js.NumberText
import BulkTraffic.Js.Value

/-!
# JSON

`Json` is a JSON value as it stands in a text: a number is its literal, for two readers may
read one literal differently. White space and the escapes within strings are left out; every
reader undoes them.

* `Json.ofNumber`: what `JSON.stringify` writes for a number.
* `Json.parse`: the JavaScript value `JSON.parse` makes of a text.
-/

namespace BulkTraffic.Js

/-- A JSON value. -/
inductive Json where
  /-- `null`. -/
  | null
  /-- `true` or `false`. -/
  | bool (b : Bool)
  /-- A number, as its literal. -/
  | num (literal : String)
  /-- A string. -/
  | str (s : String)
  /-- An array. -/
  | arr (items : List Json)
  /-- An object: its members in the order of the text. -/
  | obj (members : List (String × Json))

mutual

/-- Are two values the same? -/
def Json.decEq (a b : Json) : Decidable (a = b) :=
  match a, b with
  | .null, .null => isTrue rfl
  | .bool a, .bool b => decidable_of_iff (a = b) (by simp)
  | .num a, .num b => decidable_of_iff (a = b) (by simp)
  | .str a, .str b => decidable_of_iff (a = b) (by simp)
  | .arr a, .arr b =>
    match decEqItems a b with
    | isTrue h => isTrue (by rw [h])
    | isFalse h => isFalse (by simpa using h)
  | .obj a, .obj b =>
    match decEqMembers a b with
    | isTrue h => isTrue (by rw [h])
    | isFalse h => isFalse (by simpa using h)
  | .null, .bool _ | .null, .num _ | .null, .str _ | .null, .arr _ | .null, .obj _
  | .bool _, .null | .bool _, .num _ | .bool _, .str _ | .bool _, .arr _ | .bool _, .obj _
  | .num _, .null | .num _, .bool _ | .num _, .str _ | .num _, .arr _ | .num _, .obj _
  | .str _, .null | .str _, .bool _ | .str _, .num _ | .str _, .arr _ | .str _, .obj _
  | .arr _, .null | .arr _, .bool _ | .arr _, .num _ | .arr _, .str _ | .arr _, .obj _
  | .obj _, .null | .obj _, .bool _ | .obj _, .num _ | .obj _, .str _ | .obj _, .arr _ =>
    isFalse Json.noConfusion

/-- Are the items the same? -/
def Json.decEqItems (a b : List Json) : Decidable (a = b) :=
  match a, b with
  | [], [] => isTrue rfl
  | x :: xs, y :: ys =>
    match Json.decEq x y, decEqItems xs ys with
    | isTrue h, isTrue h' => isTrue (by rw [h, h'])
    | isFalse h, _ => isFalse fun heq => h (List.cons.inj heq).1
    | _, isFalse h => isFalse fun heq => h (List.cons.inj heq).2
  | [], _ :: _ | _ :: _, [] => isFalse (by intro h; cases h)

/-- Are the members the same? -/
def Json.decEqMembers (a b : List (String × Json)) : Decidable (a = b) :=
  match a, b with
  | [], [] => isTrue rfl
  | (k, x) :: xs, (l, y) :: ys =>
    match instDecidableEqString k l, Json.decEq x y, decEqMembers xs ys with
    | isTrue h, isTrue h', isTrue h'' => isTrue (by rw [h, h', h''])
    | isFalse h, _, _ => isFalse fun heq => h (Prod.mk.inj (List.cons.inj heq).1).1
    | _, isFalse h, _ => isFalse fun heq => h (Prod.mk.inj (List.cons.inj heq).1).2
    | _, _, isFalse h => isFalse fun heq => h (List.cons.inj heq).2
  | [], _ :: _ | _ :: _, [] => isFalse (by intro h; cases h)

end

instance : DecidableEq Json := Json.decEq

namespace Json

/-- `JSON.stringify(n)`: a number that is not finite becomes `null`. -/
def ofNumber : Number → Json
  | .finite q => num (numberText (.finite q))
  | _ => null

mutual

/-- `JSON.parse(text)`. -/
def parse : Json → JsValue
  | null => .null
  | bool b => .bool b
  | num literal => .num (numberOfString literal)
  | str s => .str s
  | arr items => .arr (parseItems items)
  | obj members => .obj (parseMembers members)

/-- The items of an array. -/
def parseItems : List Json → List JsValue
  | [] => []
  | item :: items => parse item :: parseItems items

/-- The members of an object. -/
def parseMembers : List (String × Json) → List (String × JsValue)
  | [] => []
  | (name, value) :: members => (name, parse value) :: parseMembers members

end

end Json

end BulkTraffic.Js
