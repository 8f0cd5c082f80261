import BulkTraffic.Js.NumberRoundTrip

/-!
# `JSON.stringify` of a value

`JsValue.toJson` is the JSON value that `JSON.stringify` writes for a value.

* `JsValue.parse_toJson`: what is read back of a value.
* `JsValue.wellFormed_toJson`: its numbers are written as literals.
-/

namespace BulkTraffic.Js

namespace JsValue

mutual

/-- The JSON value `JSON.stringify` writes. What is `undefined` is written as `null` in an array. -/
def toJson : JsValue → Json
  | undefined | null => .null
  | bool b => .bool b
  | num n => .ofNumber n
  | str s => .str s
  | arr items => .arr (itemsToJson items)
  | obj fields => .obj (fieldsToJson fields)

/-- The items of an array. -/
def itemsToJson : List JsValue → List Json
  | [] => []
  | item :: items => toJson item :: itemsToJson items

/-- The members of an object: those that are `undefined` are left out. -/
def fieldsToJson : List (String × JsValue) → List (String × Json)
  | [] => []
  | (_, undefined) :: fields => fieldsToJson fields
  | (name, value) :: fields => (name, toJson value) :: fieldsToJson fields

end

end JsValue

/-- A finite number is written as a literal, and read back from it. -/
theorem survives_of_isDouble {q : ℚ} (h : IsDouble (.finite q)) :
    IsNumber (numberText (.finite q)).toList ∧ numberOfString (numberText (.finite q)) = .finite q := by
  obtain ⟨x, hx⟩ := h q rfl
  exact ⟨isNumber_numberText hx, numberOfString_numberText hx⟩

namespace JsValue

mutual

/-- Every number of the value is a JavaScript number. -/
def Doubles : JsValue → Prop
  | num n => IsDouble n
  | arr items => ItemsDoubles items
  | obj fields => FieldsDoubles fields
  | _ => True

/-- Every number of the items is. -/
def ItemsDoubles : List JsValue → Prop
  | [] => True
  | item :: items => Doubles item ∧ ItemsDoubles items

/-- Every number of the members is. -/
def FieldsDoubles : List (String × JsValue) → Prop
  | [] => True
  | (_, value) :: fields => Doubles value ∧ FieldsDoubles fields

end

mutual

/-- **What is written is read back**, but for numbers that are not finite and what is `undefined`. -/
theorem parse_toJson (value : JsValue) (h : value.Doubles) : value.toJson.parse = value.reparsed := by
  cases value with
  | num n =>
    cases n with
    | finite q => exact congrArg JsValue.num (survives_of_isDouble h).2
    | _ => rfl
  | arr items => exact congrArg arr (parseItems_itemsToJson items h)
  | obj fields => exact congrArg obj (parseMembers_fieldsToJson fields h)
  | _ => rfl

theorem parseItems_itemsToJson (items : List JsValue) (h : ItemsDoubles items) :
    Json.parseItems (itemsToJson items) = reparsedItems items := by
  cases items with
  | nil => rfl
  | cons item items =>
    rw [itemsToJson, Json.parseItems, reparsedItems, parse_toJson item h.1, parseItems_itemsToJson items h.2]

theorem parseMembers_fieldsToJson (fields : List (String × JsValue)) (h : FieldsDoubles fields) :
    Json.parseMembers (fieldsToJson fields) = reparsedFields fields := by
  cases fields with
  | nil => rfl
  | cons field fields =>
    obtain ⟨name, value⟩ := field
    have hrest := parseMembers_fieldsToJson fields h.2
    by_cases hundefined : value = undefined
    · subst hundefined
      exact hrest
    · rw [fieldsToJson.eq_3 _ _ _ hundefined, Json.parseMembers, reparsedFields.eq_3 _ _ _ hundefined,
        parse_toJson value h.1, hrest]

end

mutual

theorem wellFormed_toJson (value : JsValue) (h : value.Doubles) : value.toJson.WellFormed := by
  cases value with
  | num n =>
    cases n with
    | finite q => exact (survives_of_isDouble h).1
    | _ => trivial
  | arr items => exact wellFormed_itemsToJson items h
  | obj fields => exact wellFormed_fieldsToJson fields h
  | _ => trivial

theorem wellFormed_itemsToJson (items : List JsValue) (h : ItemsDoubles items) :
    Json.ItemsWellFormed (itemsToJson items) := by
  cases items with
  | nil => trivial
  | cons item items => exact ⟨wellFormed_toJson item h.1, wellFormed_itemsToJson items h.2⟩

theorem wellFormed_fieldsToJson (fields : List (String × JsValue)) (h : FieldsDoubles fields) :
    Json.MembersWellFormed (fieldsToJson fields) := by
  cases fields with
  | nil => trivial
  | cons field fields =>
    obtain ⟨name, value⟩ := field
    have hrest := wellFormed_fieldsToJson fields h.2
    by_cases hundefined : value = undefined
    · subst hundefined
      exact hrest
    · rw [fieldsToJson.eq_3 _ _ _ hundefined]
      exact ⟨wellFormed_toJson value h.1, hrest⟩

end

end JsValue

end BulkTraffic.Js
