import Mathlib.Data.List.GetD
import Mathlib.Data.List.Infix

/-!
# Arrays by reference

`Arrays α` holds the arrays a program has made; a variable that names an array holds its position.
Two variables may name one array, and a change made through one of them is seen through the other.

Arrays are only added behind those that are there, so a computation that changes no array but its
own leaves the arrays before it as a prefix. `read_of_isPrefix` is what its caller knows then.
-/

namespace BulkTraffic.Lib

/-- The arrays that have been made. -/
abbrev Arrays (α : Type*) := List (List α)

namespace Arrays

variable {α : Type*}

/-- The elements of an array. -/
def read (arrays : Arrays α) (r : ℕ) : List α := arrays.getD r []

/-- Make an array. -/
def alloc (arrays : Arrays α) (elements : List α) : ℕ × Arrays α :=
  (arrays.length, arrays ++ [elements])

/-- Change an array in place. -/
def update (arrays : Arrays α) (r : ℕ) (f : List α → List α) : Arrays α := arrays.modify r f

theorem read_append (arrays : Arrays α) (elements : List α) :
    read (arrays ++ [elements]) arrays.length = elements := by
  simp [read, List.getD_eq_getElem?_getD]

/-- An array that was there has the elements it had. -/
theorem read_of_isPrefix {arrays arrays' : Arrays α} (h : arrays <+: arrays') {r : ℕ}
    (hr : r < arrays.length) : arrays'.read r = arrays.read r := by
  obtain ⟨rest, rfl⟩ := h
  rw [read, read, List.getD_append _ _ _ _ hr]

/-- A change of the array made last leaves the others alone. -/
theorem update_append (arrays : Arrays α) (elements : List α) (f : List α → List α) :
    update (arrays ++ [elements]) arrays.length f = arrays ++ [f elements] := by
  rw [update, List.modify_eq_set]
  simp

theorem read_update (arrays : Arrays α) {r : ℕ} (hr : r < arrays.length) (f : List α → List α) :
    (arrays.update r f).read r = f (arrays.read r) := by
  simp [read, update, List.getD_eq_getElem?_getD, hr]

@[simp]
theorem length_update (arrays : Arrays α) (r : ℕ) (f : List α → List α) :
    (arrays.update r f).length = arrays.length :=
  List.length_modify ..

end Arrays

end BulkTraffic.Lib
