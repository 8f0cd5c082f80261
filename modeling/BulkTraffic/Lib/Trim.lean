import Mathlib.Data.List.DropRight

/-!
# Trimming and splitting lists

`trimBy p l` is `l` without the elements at both ends that satisfy `p`. It depends on `p` at the
elements of `l` only, commutes with `map`, and trims to a list that is trimmed.

A part of a list that is split has no element that the list has not.
-/

namespace BulkTraffic.Lib

variable {α β : Type*}

/-- The list without the elements at its ends that satisfy `p`. -/
def trimBy (p : α → Bool) (l : List α) : List α := ((l.dropWhile p).reverse.dropWhile p).reverse

theorem mem_of_mem_trimBy {p : α → Bool} {l : List α} {a : α} (h : a ∈ trimBy p l) : a ∈ l := by
  have hmem := (List.dropWhile_sublist p).subset (List.mem_reverse.mp h)
  exact (List.dropWhile_sublist p).subset (List.mem_reverse.mp hmem)

theorem dropWhile_congr {p q : α → Bool} {l : List α} (h : ∀ a ∈ l, p a = q a) :
    l.dropWhile p = l.dropWhile q := by
  induction l with
  | nil => rfl
  | cons a l ih =>
    rw [List.dropWhile_cons, List.dropWhile_cons, h a (List.mem_cons_self ..),
      ih fun b hb => h b (List.mem_cons_of_mem a hb)]

theorem trimBy_congr {p q : α → Bool} {l : List α} (h : ∀ a ∈ l, p a = q a) :
    trimBy p l = trimBy q l := by
  rw [trimBy, dropWhile_congr h]
  congr 1
  apply dropWhile_congr
  intro a ha
  exact h a ((List.dropWhile_sublist q).subset (List.mem_reverse.mp ha))

/-- Elements can be replaced before or after trimming, if that changes no one's being trimmed. -/
theorem trimBy_map {p : β → Bool} (f : α → β) (l : List α) :
    trimBy p (l.map f) = (trimBy (fun a => p (f a)) l).map f := by
  rw [trimBy, trimBy, List.dropWhile_map, ← List.map_reverse, List.dropWhile_map, List.map_reverse]
  rfl

/-- A trimmed list begins with an element to keep. -/
theorem head_trimBy {p : α → Bool} {l : List α} (h : trimBy p l ≠ []) : p ((trimBy p l).head h) = false := by
  have hkept : trimBy p l <+: l.dropWhile p := List.rdropWhile_prefix p (l.dropWhile p)
  have hne : l.dropWhile p ≠ [] := fun hnil => h (List.prefix_nil.mp (hnil ▸ hkept))
  rw [hkept.head h]
  simpa using List.head_dropWhile_not p hne

/-- A trimmed list has nothing to drop. -/
theorem dropWhile_trimBy (p : α → Bool) (l : List α) : (trimBy p l).dropWhile p = trimBy p l := by
  by_cases h : trimBy p l = []
  · rw [h, List.dropWhile_nil]
  · rw [List.dropWhile_eq_self_iff]
    intro hpos
    simpa [← List.head_eq_getElem_zero h] using head_trimBy h

/-- Trimming once is enough. -/
theorem trimBy_trimBy (p : α → Bool) (l : List α) : trimBy p (trimBy p l) = trimBy p l := by
  rw [trimBy, dropWhile_trimBy]
  exact List.rdropWhile_idempotent p (l.dropWhile p)

theorem trimBy_eq_nil_iff {p : α → Bool} {l : List α} : trimBy p l = [] ↔ ∀ a ∈ l, p a = true := by
  constructor
  · intro h a ha
    by_contra hp
    have hdrop : ∀ b ∈ l.dropWhile p, p b = true := List.rdropWhile_eq_nil_iff.mp h
    have hsplit := List.takeWhile_append_dropWhile (p := p) (l := l)
    rw [← hsplit] at ha
    rcases List.mem_append.mp ha with htake | hrest
    · exact hp (List.mem_takeWhile_imp htake)
    · exact hp (hdrop a hrest)
  · intro h
    rw [trimBy, List.dropWhile_eq_nil_iff.mpr h]
    rfl

/-- What is trimmed off the end. -/
theorem exists_append_trimBy (p : α → Bool) (l : List α) :
    ∃ t, l.dropWhile p = trimBy p l ++ t ∧ ∀ a ∈ t, p a = true :=
  ⟨(l.dropWhile p).rtakeWhile p, List.rdropWhile_append_rtakeWhile.symm,
    fun _ ha => List.mem_rtakeWhile_imp ha⟩

/-- The parts of a list are made of its elements. -/
theorem mem_of_mem_splitOnP {p : α → Bool} {l part : List α} (h : part ∈ l.splitOnP p) {a : α}
    (ha : a ∈ part) : a ∈ l := by
  induction l generalizing part with
  | nil =>
    rw [List.splitOnP_nil, List.mem_singleton] at h
    exact h ▸ ha
  | cons b l ih =>
    rw [List.splitOnP_cons_eq_if_modifyHead] at h
    split_ifs at h
    · rcases List.mem_cons.mp h with rfl | hmem
      · cases ha
      · exact List.mem_cons_of_mem b (ih hmem ha)
    · obtain ⟨first, rest, hparts⟩ := List.exists_cons_of_ne_nil (List.splitOnP_ne_nil p l)
      rw [hparts, List.modifyHead_cons] at h
      rw [hparts] at ih
      rcases List.mem_cons.mp h with rfl | hmem
      · rcases List.mem_cons.mp ha with rfl | ha
        · exact List.mem_cons_self ..
        · exact List.mem_cons_of_mem b (ih (List.mem_cons_self ..) ha)
      · exact List.mem_cons_of_mem b (ih (List.mem_cons_of_mem first hmem) ha)

end BulkTraffic.Lib
