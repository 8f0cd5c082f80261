import BulkTraffic.Js.Text
import Mathlib.Algebra.Ring.Nat

/-!
# JavaScript values

`JsValue` is a value whose type the program does not know (`unknown`): what a caller puts
in the options of `enqueue`, what a request body holds, what a worker answers.
-/

namespace BulkTraffic.Js

/-- A JavaScript value. Functions and symbols are left out. -/
inductive JsValue where
  /-- `undefined`. -/
  | undefined
  /-- `null`. -/
  | null
  /-- A boolean. -/
  | bool (b : Bool)
  /-- A number. -/
  | num (n : Number)
  /-- A string. -/
  | str (s : String)
  /-- An array. -/
  | arr (items : List JsValue)
  /-- An object: its own properties in order. -/
  | obj (fields : List (String × JsValue))

/-- An object read as a `Record<string, unknown>`. -/
abbrev Record := List (String × JsValue)

namespace JsValue

/-- `value === undefined || value === null`. -/
def isNullish : JsValue → Bool
  | undefined | null => true
  | _ => false

/-- The boolean an `if` tests. -/
def truthy : JsValue → Bool
  | undefined | null => false
  | bool b => b
  | num n => n != .nan && n != .finite 0
  | str s => s != ""
  | arr _ | obj _ => true

/-- `typeof value === 'number' ? value : typeof value === 'string' ? Number(value) : NaN`. -/
def toNumber : JsValue → Number
  | num n => n
  | str s => numberOfString s
  | _ => .nan

/-- The number an item of a one-item array is read as: the item's text is read back. -/
def itemNumber : JsValue → Number
  | undefined | null => .finite 0
  | bool _ => .nan
  | num n => n
  | str s => numberOfString s
  | arr [] => .finite 0
  | arr [item] => itemNumber item
  | arr _ => .nan
  | obj _ => .nan

/-- `Number(value)`, the number arithmetic converts a value to. -/
def asNumber : JsValue → Number
  | undefined => .nan
  | null => .finite 0
  | bool b => .finite (if b then 1 else 0)
  | num n => n
  | str s => numberOfString s
  | arr [] => .finite 0
  | arr [item] => itemNumber item
  | arr _ => .nan
  | obj _ => .nan

/-- `value || other`. -/
def orElse (value other : JsValue) : JsValue := if value.truthy then value else other

/-- An integer as a value. -/
def ofInt (n : ℤ) : JsValue := num (.finite n)

@[simp] theorem toNumber_ofInt (n : ℤ) : (ofInt n).toNumber = .finite n := rfl

@[simp] theorem isNullish_ofInt (n : ℤ) : (ofInt n).isNullish = false := rfl

end JsValue

/-- A property of an object, `undefined` when it has none. The last definition counts. -/
def Record.field (r : Record) (name : String) : JsValue :=
  match r.reverse.find? fun e => e.1 == name with
  | some e => e.2
  | none => .undefined

namespace JsValue

/-- `value.name`, of a value that `JSON.parse` made: nothing where it throws, of `undefined` and
`null`. The names read here are no properties of a prototype, but for `length`. -/
def property? (value : JsValue) (name : String) : Option JsValue :=
  match value with
  | undefined | null => none
  | obj fields => some (Record.field fields name)
  | arr items => some (if name = "length" then ofInt items.length else undefined)
  | str s =>
    -- The length counts the units of UTF-16.
    some (if name = "length" then ofInt (s.toList.map fun c => if c.toNat < 65536 then 1 else 2).sum
      else undefined)
  | bool _ | num _ => some undefined

mutual

/-- Can the value be converted to a primitive one? An object whose own `toString` hides the
inherited one cannot: a value of `JSON.parse` is no function. -/
def isConvertible : JsValue → Bool
  | arr items => areConvertible items
  | obj fields => !fields.any fun e => e.1 == "toString"
  | _ => true

/-- An array is converted item by item. -/
def areConvertible : List JsValue → Bool
  | [] => true
  | item :: items => isConvertible item && areConvertible items

end

mutual

/-- `JSON.parse(JSON.stringify(value))`: a number is read back as it is if it is finite, and as
`null` otherwise. -/
def reparsed : JsValue → JsValue
  | undefined => null
  | num n => if n.isFinite then num n else null
  | arr items => arr (reparsedItems items)
  | obj fields => obj (reparsedFields fields)
  | value => value

/-- The items of an array. -/
def reparsedItems : List JsValue → List JsValue
  | [] => []
  | item :: items => reparsed item :: reparsedItems items

/-- The members of an object: those that are `undefined` are left out. -/
def reparsedFields : List (String × JsValue) → List (String × JsValue)
  | [] => []
  | (_, undefined) :: fields => reparsedFields fields
  | (name, value) :: fields => (name, reparsed value) :: reparsedFields fields

end

end JsValue

/-! ### Members of an object -/

theorem Record.find?_eq_none {fields : Record} {name : String}
    (h : name ∉ fields.map Prod.fst) : fields.reverse.find? (fun e => e.1 == name) = none := by
  refine List.find?_eq_none.mpr fun e he hname => h ?_
  rw [← eq_of_beq hname]
  exact List.mem_map_of_mem (List.mem_reverse.mp he)

theorem Record.field_of_not_mem {fields : Record} {name : String}
    (h : name ∉ fields.map Prod.fst) : Record.field fields name = .undefined := by
  rw [Record.field, Record.find?_eq_none h]

/-- The first member, where its name does not occur again. -/
theorem Record.field_cons {name : String} {value : JsValue} {rest : Record}
    (h : name ∉ rest.map Prod.fst) (key : String) :
    Record.field ((name, value) :: rest) key =
      if name = key then value else Record.field rest key := by
  have hfind : ((name, value) :: rest).reverse.find? (fun e => e.1 == key) =
      (rest.reverse.find? fun e => e.1 == key).or
        (if name = key then some (name, value) else none) := by
    rw [List.reverse_cons, List.find?_append, List.find?_singleton]
    by_cases hk : name = key
    · simp [hk]
    · simp [hk]
  by_cases hk : name = key
  · subst hk
    rw [Record.field, hfind, Record.find?_eq_none h, if_pos rfl, if_pos rfl]
    rfl
  · rw [Record.field, hfind, if_neg hk, if_neg hk, Option.or_none]
    rfl

namespace JsValue

theorem mem_names_of_reparsed {fields : List (String × JsValue)} {name : String}
    (h : name ∈ (reparsedFields fields).map Prod.fst) : name ∈ fields.map Prod.fst := by
  induction fields with
  | nil => exact h
  | cons e fields ih =>
    obtain ⟨key, value⟩ := e
    by_cases hundefined : value = undefined
    · subst hundefined
      exact List.mem_cons_of_mem _ (ih h)
    · rw [reparsedFields.eq_3 _ _ _ hundefined] at h
      rcases List.mem_cons.mp h with rfl | h
      · exact List.mem_cons_self
      · exact List.mem_cons_of_mem _ (ih h)

/-- A member as it is read back: one that is `undefined` is left out. -/
inductive ReadBack (value : JsValue) : JsValue → Prop where
  | leftOut (h : value = undefined) : ReadBack value undefined
  | written (h : value ≠ undefined) : ReadBack value value.reparsed

/-- **A member of an object is read back.** -/
theorem field_reparsed {fields : List (String × JsValue)} (hnodup : (fields.map Prod.fst).Nodup)
    {name : String} {read : JsValue} (h : ReadBack (Record.field fields name) read) :
    Record.field (reparsedFields fields) name = read := by
  induction fields with
  | nil =>
    cases h with
    | leftOut => rfl
    | written hne => exact absurd rfl hne
  | cons e fields ih =>
    obtain ⟨key, v⟩ := e
    obtain ⟨hkey, hrest⟩ := List.nodup_cons.mp hnodup
    have hkey' : key ∉ (reparsedFields fields).map Prod.fst := fun hmem =>
      hkey (mem_names_of_reparsed hmem)
    rw [Record.field_cons hkey] at h
    by_cases hundefined : v = undefined
    · subst hundefined
      change Record.field (reparsedFields fields) name = read
      by_cases hname : key = name
      · rw [if_pos hname] at h
        rw [← hname, Record.field_of_not_mem hkey']
        cases h with
        | leftOut => rfl
        | written hne => exact absurd rfl hne
      · rw [if_neg hname] at h
        exact ih hrest h
    · rw [reparsedFields.eq_3 _ _ _ hundefined, Record.field_cons hkey']
      by_cases hname : key = name
      · rw [if_pos hname] at h ⊢
        cases h with
        | leftOut h => exact absurd h hundefined
        | written => rfl
      · rw [if_neg hname] at h ⊢
        exact ih hrest h

end JsValue

end BulkTraffic.Js
