import Mathlib.Data.List.DropRight
import Mathlib.Data.List.ReduceOption

/-!
# Splitting what comes in parts

A list that is split at two separators is split into the same parts whichever comes first
(`flatMap_splitOnP_comm`). What has come so far can be split before the rest comes, if the last part
is kept open (`splitOnP_append`).

A list that comes in parts is also one list with marks where the parts meet (`marked`): splitting it
at the marks gives the parts, and dropping the marks gives the whole.
-/

namespace BulkTraffic.Lib

variable {α : Type*}

/-! ### Two separators -/

theorem flatMap_splitOnP (p q : α → Bool) (l : List α) :
    (l.splitOnP p).flatMap (fun part => part.splitOnP q) = l.splitOnP fun a => p a || q a := by
  induction l with
  | nil => rfl
  | cons a l ih =>
    rw [List.splitOnP_cons_eq_if_modifyHead, List.splitOnP_cons_eq_if_modifyHead, ← ih]
    obtain ⟨x, xs, hparts⟩ := List.exists_cons_of_ne_nil (List.splitOnP_ne_nil p l)
    obtain ⟨y, ys, hsplit⟩ := List.exists_cons_of_ne_nil (List.splitOnP_ne_nil q x)
    by_cases hp : p a = true
    · simp [hp]
    · rw [hparts, if_neg hp, List.modifyHead_cons, List.flatMap_cons, List.flatMap_cons,
        List.splitOnP_cons_eq_if_modifyHead, hsplit]
      by_cases hq : q a = true
      · simp [hq]
      · simp [hp, hq]

/-- **It does not matter which separator comes first.** -/
theorem flatMap_splitOnP_comm (p q : α → Bool) (l : List α) :
    (l.splitOnP p).flatMap (fun part => part.splitOnP q) =
      (l.splitOnP q).flatMap fun part => part.splitOnP p := by
  rw [flatMap_splitOnP, flatMap_splitOnP]
  congr 1
  funext a
  exact Bool.or_comm _ _

/-! ### Splitting in parts -/

/-- **The last part is open** until the rest has come. -/
theorem splitOnP_append (p : α → Bool) (xs ys : List α) :
    (xs ++ ys).splitOnP p = (xs.splitOnP p).dropLast ++
      ((xs.splitOnP p).getLast (List.splitOnP_ne_nil p xs) ++ ys).splitOnP p := by
  induction xs with
  | nil => rfl
  | cons a xs ih =>
    obtain ⟨x, more, hparts⟩ := List.exists_cons_of_ne_nil (List.splitOnP_ne_nil p xs)
    simp only [List.cons_append, List.splitOnP_cons_eq_if_modifyHead, ih]
    by_cases hp : p a = true
    · simp [hp, List.dropLast_cons_of_ne_nil]
    · cases more with
      | nil => simp [hp, hparts, List.splitOnP_cons_eq_if_modifyHead]
      | cons y more => simp [hp, hparts]

/-- A part has no separator in it. -/
theorem not_of_mem_splitOnP {p : α → Bool} {l part : List α} (h : part ∈ l.splitOnP p) {a : α} (ha : a ∈ part) :
    p a = false := by
  induction l generalizing part with
  | nil =>
    rw [List.splitOnP_nil, List.mem_singleton] at h
    rw [h] at ha
    cases ha
  | cons b l ih =>
    obtain ⟨x, more, hparts⟩ := List.exists_cons_of_ne_nil (List.splitOnP_ne_nil p l)
    rw [hparts] at ih
    rw [List.splitOnP_cons_eq_if_modifyHead, hparts] at h
    split at h
    · rcases List.mem_cons.mp h with rfl | h
      · cases ha
      · exact ih h ha
    · rename_i hb
      rcases List.mem_cons.mp h with rfl | h
      · rcases List.mem_cons.mp ha with rfl | ha
        · simpa using hb
        · exact ih (List.mem_cons_self ..) ha
      · exact ih (List.mem_cons_of_mem x h) ha

/-! ### Marks -/

/-- The parts one after the other, with a mark between two. -/
def marked : List (List α) → List (Option α)
  | [] => []
  | [part] => part.map some
  | part :: next :: parts => part.map some ++ none :: marked (next :: parts)

theorem splitOnP_map_some (part : List α) : (part.map some).splitOnP Option.isNone = [part.map some] := by
  apply List.splitOnP_eq_singleton
  intro a ha
  obtain ⟨b, -, rfl⟩ := List.mem_map.mp ha
  rfl

/-- **Splitting at the marks** gives the parts. -/
theorem splitOnP_marked {parts : List (List α)} (h : parts ≠ []) :
    (marked parts).splitOnP Option.isNone = parts.map (List.map some) := by
  induction parts with
  | nil => exact absurd rfl h
  | cons part parts ih =>
    cases parts with
    | nil => exact splitOnP_map_some part
    | cons next parts =>
      rw [marked, List.splitOnP_append_cons _ _ rfl, splitOnP_map_some, ih (List.cons_ne_nil _ _)]
      rfl

theorem reduceOption_map_some (part : List α) : (part.map some).reduceOption = part := by
  rw [List.reduceOption, List.filterMap_map]
  exact List.filterMap_some

/-- **Dropping the marks** gives the whole. -/
theorem reduceOption_marked (parts : List (List α)) : (marked parts).reduceOption = parts.flatten := by
  induction parts with
  | nil => rfl
  | cons part parts ih =>
    cases parts with
    | nil => rw [marked, reduceOption_map_some, List.flatten_singleton]
    | cons next parts =>
      rw [marked, List.reduceOption_append, List.reduceOption_cons_of_none, ih, reduceOption_map_some]
      rfl

/-- The lines of a list that comes in parts, with the marks inside them. -/
def cutLines (p : α → Bool) (parts : List (List α)) : List (List (Option α)) :=
  (marked parts).splitOnP fun a => a.any p

/-- The pieces a line comes in. -/
def pieces (line : List (Option α)) : List (List α) := (line.splitOnP Option.isNone).map List.reduceOption

theorem splitOnP_reduceOption (p : α → Bool) (l : List (Option α)) :
    l.reduceOption.splitOnP p = (l.splitOnP fun a => a.any p).map List.reduceOption := by
  induction l with
  | nil => rfl
  | cons a l ih =>
    obtain ⟨x, more, hparts⟩ := List.exists_cons_of_ne_nil (List.splitOnP_ne_nil (fun a => a.any p) l)
    rw [List.splitOnP_cons_eq_if_modifyHead]
    cases a with
    | none =>
      rw [List.reduceOption_cons_of_none, ih, hparts]
      rfl
    | some a =>
      rw [List.reduceOption_cons_of_some, List.splitOnP_cons_eq_if_modifyHead, ih, hparts]
      by_cases hp : p a = true
      · simp [hp]
      · simp [hp]

/-- The lines without their marks. -/
theorem map_reduceOption_cutLines (p : α → Bool) (parts : List (List α)) :
    (cutLines p parts).map List.reduceOption = parts.flatten.splitOnP p := by
  rw [cutLines, ← splitOnP_reduceOption, reduceOption_marked]

/-- **The pieces of the lines are the lines of the parts.** -/
theorem flatMap_pieces {parts : List (List α)} (h : parts ≠ []) (p : α → Bool) :
    (cutLines p parts).flatMap pieces = parts.flatMap fun part => part.splitOnP p := by
  have hmap : ∀ part : List α, ((part.map some).splitOnP fun a => a.any p).map List.reduceOption =
      part.splitOnP p := fun part => by rw [← splitOnP_reduceOption, reduceOption_map_some]
  calc (cutLines p parts).flatMap pieces
      = ((cutLines p parts).flatMap fun line => line.splitOnP Option.isNone).map List.reduceOption := by
        rw [List.map_flatMap]
        rfl
    _ = ((parts.map (List.map some)).flatMap fun part => part.splitOnP fun a => a.any p).map
          List.reduceOption := by
        rw [cutLines, flatMap_splitOnP_comm, splitOnP_marked h]
    _ = parts.flatMap fun part => part.splitOnP p := by
        simp only [List.flatMap_map, List.map_flatMap, hmap]

/-- The pieces make up the line. -/
theorem flatten_pieces (line : List (Option α)) : (pieces line).flatten = line.reduceOption := by
  induction line with
  | nil => rfl
  | cons a line ih =>
    obtain ⟨x, more, hparts⟩ := List.exists_cons_of_ne_nil (List.splitOnP_ne_nil Option.isNone line)
    rw [pieces, hparts] at ih
    rw [pieces, List.splitOnP_cons_eq_if_modifyHead, hparts]
    cases a with
    | none =>
      rw [List.reduceOption_cons_of_none, ← ih]
      rfl
    | some a =>
      rw [List.reduceOption_cons_of_some, ← ih]
      rfl

end BulkTraffic.Lib
