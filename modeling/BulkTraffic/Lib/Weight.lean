import Mathlib.Data.List.Basic
import Mathlib.Algebra.BigOperators.Group.List.Basic
import Mathlib.Algebra.Ring.Nat

/-!
# Weighing lists

`weight w l` is the sum of `w` over the list `l`. A resource that moves between
containers is followed by its weight: each operation on a container says how the
weight changes, and what a whole program conserves is then linear arithmetic.
-/

namespace BulkTraffic.Lib

variable {α β : Type*}

/-- The sum of `w` over a list. -/
def weight (w : α → ℕ) (l : List α) : ℕ := (l.map w).sum

section Weight

variable (w : α → ℕ)

@[simp] theorem weight_nil : weight w [] = 0 := rfl

@[simp] theorem weight_cons (a : α) (l : List α) : weight w (a :: l) = w a + weight w l := by
  simp [weight]

@[simp] theorem weight_append (l₁ l₂ : List α) :
    weight w (l₁ ++ l₂) = weight w l₁ + weight w l₂ := by
  simp [weight]

@[simp] theorem weight_reverse (l : List α) : weight w l.reverse = weight w l := by
  induction l with
  | nil => rfl
  | cons a l ih => simp [ih, Nat.add_comm]

theorem weight_map (f : β → α) (l : List β) : weight w (l.map f) = weight (fun b => w (f b)) l := by
  simp [weight, Function.comp_def]

theorem weight_filterMap (f : β → Option α) (l : List β) :
    weight w (l.filterMap f) = weight (fun b => (f b).elim 0 w) l := by
  induction l with
  | nil => rfl
  | cons b l ih => cases h : f b <;> simp [h, ih]

theorem weight_flatMap (f : β → List α) (l : List β) :
    weight w (l.flatMap f) = weight (fun b => weight w (f b)) l := by
  induction l with
  | nil => rfl
  | cons b l ih => simp [ih]

/-- Weighing the positions of a list by its elements is weighing the list. -/
theorem weight_range_getElem? (l : List α) :
    weight (fun i => (l[i]?).elim 0 w) (List.range l.length) = weight w l := by
  have hmap : (List.range l.length).filterMap (fun i => l[i]?) = l := by
    induction l with
    | nil => rfl
    | cons a l ih =>
      rw [List.length_cons, List.range_succ_eq_map, List.filterMap_cons, List.filterMap_map]
      simpa [Function.comp_def] using ih
  rw [← weight_filterMap, hmap]

/-- What a filter keeps and what it drops make up the whole. -/
theorem weight_filter_add (p : α → Bool) (l : List α) :
    weight w (l.filter p) + weight w (l.filter fun a => !p a) = weight w l := by
  induction l with
  | nil => rfl
  | cons a l ih => cases h : p a <;> simp [h] <;> omega

theorem weight_filter_le (p : α → Bool) (l : List α) : weight w (l.filter p) ≤ weight w l := by
  have := weight_filter_add w p l
  omega

theorem weight_take_add_drop (n : ℕ) (l : List α) :
    weight w (l.take n) + weight w (l.drop n) = weight w l := by
  rw [← weight_append, List.take_append_drop]

/-- Overwriting an element exchanges its weight for the new one's. -/
theorem weight_set {l : List α} {i : ℕ} {a : α} (h : l[i]? = some a) (b : α) :
    weight w (l.set i b) + w a = weight w l + w b := by
  induction l generalizing i with
  | nil => simp at h
  | cons c l ih =>
    cases i with
    | zero =>
      simp only [List.getElem?_cons_zero, Option.some.injEq] at h
      subst h
      simp; omega
    | succ i =>
      have := ih (by simpa using h)
      simp; omega

/-- Rearranging a list keeps its weight. -/
theorem weight_perm {l l' : List α} (h : l.Perm l') : weight w l = weight w l' :=
  (h.map w).sum_eq

/-- Removing an element removes its weight. -/
theorem weight_eraseIdx {l : List α} {i : ℕ} {a : α} (h : l[i]? = some a) :
    weight w (l.eraseIdx i) + w a = weight w l := by
  induction l generalizing i with
  | nil => simp at h
  | cons c l ih =>
    cases i with
    | zero =>
      simp only [List.getElem?_cons_zero, Option.some.injEq] at h
      subst h
      simp; omega
    | succ i =>
      have := ih (by simpa using h)
      simp; omega

/-- Removing the first element that satisfies `p` removes its weight. -/
theorem weight_eraseP {p : α → Bool} {l : List α} {a : α} (h : l.find? p = some a) :
    weight w (l.eraseP p) + w a = weight w l := by
  induction l with
  | nil => simp at h
  | cons c l ih =>
    by_cases hc : p c = true
    · rw [List.find?_cons_of_pos hc, Option.some.injEq] at h
      rw [List.eraseP_cons_of_pos hc, h, weight_cons, Nat.add_comm]
    · rw [List.find?_cons_of_neg hc] at h
      have := ih h
      rw [List.eraseP_cons_of_neg hc]
      simp only [weight_cons]
      omega

theorem le_weight_of_mem {l : List α} {a : α} (h : a ∈ l) : w a ≤ weight w l := by
  induction l with
  | nil => simp at h
  | cons c l ih =>
    rcases List.mem_cons.mp h with rfl | h
    · simp
    · have := ih h
      simp; omega

theorem weight_eq_zero {l : List α} (h : ∀ a ∈ l, w a = 0) : weight w l = 0 := by
  induction l with
  | nil => rfl
  | cons c l ih =>
    simp [h c (by simp), ih fun a ha => h a (by simp [ha])]

theorem weight_congr {w v : α → ℕ} {l : List α} (h : ∀ a ∈ l, w a = v a) :
    weight w l = weight v l := by
  induction l with
  | nil => rfl
  | cons c l ih => simp [h c (by simp), ih fun a ha => h a (by simp [ha])]

theorem weight_le_weight {w v : α → ℕ} {l : List α} (h : ∀ a ∈ l, w a ≤ v a) :
    weight w l ≤ weight v l := by
  induction l with
  | nil => exact Nat.le_refl _
  | cons c l ih =>
    have hc := h c (by simp)
    have hl := ih fun a ha => h a (by simp [ha])
    simp only [weight_cons]
    omega

/-- Two weighings that agree in sum, one below the other, agree on every element. -/
theorem eq_of_weight_eq {w v : α → ℕ} {l : List α} (hle : ∀ a ∈ l, w a ≤ v a)
    (h : weight w l = weight v l) : ∀ a ∈ l, w a = v a := by
  induction l with
  | nil => simp
  | cons c l ih =>
    have hc := hle c (by simp)
    have htail : ∀ a ∈ l, w a ≤ v a := fun a ha => hle a (by simp [ha])
    have hl := weight_le_weight htail
    simp only [weight_cons] at h
    intro a ha
    rcases List.mem_cons.mp ha with rfl | ha
    · omega
    · exact ih htail (by omega) a ha

theorem weight_add (v : α → ℕ) (l : List α) :
    weight (fun a => w a + v a) l = weight w l + weight v l := by
  induction l with
  | nil => rfl
  | cons c l ih => simp [ih]; omega

theorem weight_const (n : ℕ) (l : List α) : weight (fun _ => n) l = n * l.length := by
  induction l with
  | nil => simp
  | cons c l ih => simp [ih, Nat.mul_succ]; omega

/-- Weighing `m` by weighings of `l` is weighing `l` by weighings of `m`. -/
theorem weight_comm (f : α → β → ℕ) (m : List α) (l : List β) :
    weight (fun a => weight (f a) l) m = weight (fun b => weight (fun a => f a b) m) l := by
  induction m with
  | nil => simp [weight_const]
  | cons a m ih => simp only [weight_cons, ih, weight_add]

/-- A weight of at most one counts the elements that have it. -/
theorem weight_eq_length_filter {w : α → ℕ} {l : List α} (h : ∀ a ∈ l, w a ≤ 1) :
    weight w l = (l.filter fun a => 0 < w a).length := by
  induction l with
  | nil => rfl
  | cons c l ih =>
    have hc := h c (by simp)
    have hl := ih fun a ha => h a (by simp [ha])
    by_cases hz : w c = 0
    · simp [hz, hl]
    · have hone : w c = 1 := by omega
      simp [hone, hl, Nat.add_comm]

end Weight

/-- A list has weight where it has an element with weight. -/
theorem exists_mem_of_weight_pos {w : α → ℕ} {l : List α} (h : 0 < weight w l) :
    ∃ a ∈ l, 0 < w a := by
  by_contra hn
  have hz : ∀ a ∈ l, w a = 0 := by
    intro a ha
    by_contra hw
    exact hn ⟨a, ha, Nat.pos_of_ne_zero hw⟩
  rw [weight_eq_zero w hz] at h
  omega

end BulkTraffic.Lib
