import Mathlib.Data.Finset.Max
import Mathlib.Data.List.Sort

/-!
# Percentiles by nearest rank

`IsNearestRank p l v`: among the values of `l`, `v` is the smallest with at least `p` per cent of
the list at most it. A list has at most one (`IsNearestRank.unique`), and in a sorted list it stands
at a position that is computed from the length (`isNearestRank_getElem`).

Rounding the position down instead (`floorRank`) gives a value that is at least the percentile
(`floorRank_insertionSort`).
-/

namespace BulkTraffic.Lib

variable {α : Type*} [LinearOrder α] {p : ℕ} {l l' : List α} {v w : α}

/-- `v` is the percentile `p` of the values in `l`, by nearest rank. -/
structure IsNearestRank (p : ℕ) (l : List α) (v : α) : Prop where
  /-- It is one of the values. -/
  mem : v ∈ l
  /-- At least `p` per cent of the values are at most it. -/
  enough : p * l.length ≤ 100 * l.countP (· ≤ v)
  /-- No smaller value will do. -/
  least : ∀ w ∈ l, p * l.length ≤ 100 * l.countP (· ≤ w) → v ≤ w

/-- A list has one percentile. -/
theorem IsNearestRank.unique (hv : IsNearestRank p l v) (hw : IsNearestRank p l w) : v = w :=
  le_antisymm (hv.least w hw.mem hw.enough) (hw.least v hv.mem hv.enough)

/-- The order of the values does not matter. -/
theorem IsNearestRank.perm (h : IsNearestRank p l v) (hl : l.Perm l') : IsNearestRank p l' v where
  mem := hl.mem_iff.mp h.mem
  enough := by
    rw [← hl.length_eq, ← hl.countP_eq]
    exact h.enough
  least w hw := by
    rw [← hl.length_eq, ← hl.countP_eq]
    exact h.least w (hl.mem_iff.mpr hw)

/-- A monotone function takes the percentile of the values to the percentile of their images. -/
theorem IsNearestRank.map {β : Type*} [LinearOrder β] {f : α → β} (hf : Monotone f)
    (h : IsNearestRank p l v) : IsNearestRank p (l.map f) (f v) where
  mem := List.mem_map_of_mem h.mem
  enough := by
    have hle : l.countP (· ≤ v) ≤ (l.map f).countP (· ≤ f v) := by
      rw [List.countP_map]
      apply List.countP_mono_left
      intro x _ hx
      rw [decide_eq_true_eq] at hx
      exact decide_eq_true (hf hx)
    rw [List.length_map]
    have := h.enough
    omega
  least := by
    intro w hw henough
    obtain ⟨x, hx, rfl⟩ := List.mem_map.mp hw
    -- the largest value whose image is at most `f x` has as many values below it
    obtain ⟨u, hu, hmax⟩ := Finset.exists_max_image (l.toFinset.filter fun y => f y ≤ f x) id
      ⟨x, Finset.mem_filter.mpr ⟨List.mem_toFinset.mpr hx, le_rfl⟩⟩
    rw [Finset.mem_filter, List.mem_toFinset] at hu
    have hle : (l.map f).countP (· ≤ f x) ≤ l.countP (· ≤ u) := by
      rw [List.countP_map]
      apply List.countP_mono_left
      intro y hy hyx
      rw [Function.comp_apply, decide_eq_true_eq] at hyx
      exact decide_eq_true (hmax y (Finset.mem_filter.mpr ⟨List.mem_toFinset.mpr hy, hyx⟩))
    rw [List.length_map] at henough
    exact (hf (h.least u hu.1 (by omega))).trans hu.2

/-! ### In a sorted list -/

/-- The first `k + 1` values of a sorted list are at most the last of them. -/
theorem lt_countP_getElem (hl : l.SortedLE) {k : ℕ} (hk : k < l.length) :
    k < l.countP (· ≤ l[k]) := by
  have hfirst : (l.take (k + 1)).countP (· ≤ l[k]) = (l.take (k + 1)).length := by
    rw [List.countP_eq_length]
    intro x hx
    rw [decide_eq_true_eq]
    obtain ⟨i, hi, rfl⟩ := List.mem_take_iff_getElem.mp hx
    exact hl.getElem_le_getElem_of_le (by omega)
  have hsplit := congrArg (List.countP (· ≤ l[k])) (List.take_append_drop (k + 1) l)
  rw [List.countP_append, hfirst, List.length_take] at hsplit
  omega

/-- No more than the first `k` values of a sorted list are smaller than the next. -/
theorem countP_le_of_lt_getElem (hl : l.SortedLE) {k : ℕ} (hk : k < l.length)
    (hw : w < l[k]) : l.countP (· ≤ w) ≤ k := by
  have hrest : (l.drop k).countP (· ≤ w) = 0 := by
    rw [List.countP_eq_zero]
    intro x hx
    rw [decide_eq_true_eq, not_le]
    obtain ⟨i, hi, rfl⟩ := List.mem_drop_iff_getElem.mp hx
    refine lt_of_lt_of_le hw ?_
    exact hl.getElem_le_getElem_of_le (by omega)
  have hsplit := congrArg (List.countP (· ≤ w)) (List.take_append_drop k l)
  rw [List.countP_append, hrest] at hsplit
  have hfirst := List.countP_le_length (p := fun x => decide (x ≤ w)) (l := l.take k)
  rw [List.length_take] at hfirst
  omega

/-- **Where the percentile stands**: at the first position of a sorted list that has at least `p`
per cent of it up to there. -/
theorem isNearestRank_getElem (hl : l.SortedLE) {k : ℕ} (hk : k < l.length)
    (henough : p * l.length ≤ 100 * (k + 1)) (hfirst : 100 * k < p * l.length) :
    IsNearestRank p l l[k] where
  mem := List.getElem_mem hk
  enough := by
    have := lt_countP_getElem hl hk
    omega
  least w _ hcount := by
    by_contra hlt
    have := countP_le_of_lt_getElem hl hk (not_le.mp hlt)
    omega

/-- Where it stands when the values have been sorted. -/
theorem isNearestRank_insertionSort {k : ℕ} (hk : k < l.length) (henough : p * l.length ≤ 100 * (k + 1))
    (hfirst : 100 * k < p * l.length) :
    ∃ v, (l.insertionSort (· ≤ ·))[k]? = some v ∧ IsNearestRank p l v := by
  have hperm := l.perm_insertionSort (· ≤ ·)
  have hlength := hperm.length_eq
  rw [← hlength] at hk henough hfirst
  refine ⟨(l.insertionSort (· ≤ ·))[k], List.getElem?_eq_getElem hk, ?_⟩
  exact (isNearestRank_getElem List.sortedLE_insertionSort hk henough hfirst).perm hperm

/-- Every list that is not empty has a percentile. -/
theorem exists_isNearestRank (hp : 0 < p) (hle : p ≤ 100) (hl : l ≠ []) : ∃ v, IsNearestRank p l v := by
  have hlength : 0 < l.length := List.length_pos_iff.mpr hl
  have hpos : 0 < p * l.length := Nat.mul_pos hp hlength
  have hprod : p * l.length ≤ 100 * l.length := Nat.mul_le_mul_right _ hle
  obtain ⟨v, -, hv⟩ := isNearestRank_insertionSort (p := p) (l := l)
    (k := (p * l.length + 99) / 100 - 1) (by omega) (by omega) (by omega)
  exact ⟨v, hv⟩

/-- The smallest element there can be is the percentile when enough values are equal to it. -/
theorem isNearestRank_bot_iff [OrderBot α] (hp : 0 < p) (hl : l ≠ []) :
    IsNearestRank p l ⊥ ↔ p * l.length ≤ 100 * l.countP (· ≤ ⊥) := by
  constructor
  · exact IsNearestRank.enough
  · intro henough
    have hlength : 0 < p * l.length := Nat.mul_pos hp (List.length_pos_iff.mpr hl)
    have hcount : 0 < l.countP (· ≤ ⊥) := by omega
    obtain ⟨x, hx, hle⟩ := List.countP_pos_iff.mp hcount
    rw [decide_eq_true_eq, le_bot_iff] at hle
    exact ⟨hle ▸ hx, henough, fun w _ _ => bot_le⟩

/-! ### The position rounded down -/

/-- The position `n * p / 100` of a list of `n` values, rounded down, or the last one. -/
def floorRank (p n : ℕ) : ℕ := min (p * n / 100) (n - 1)

theorem floorRank_le (p n : ℕ) : floorRank p n ≤ n - 1 := min_le_right _ _

theorem floorRank_lt (p : ℕ) {n : ℕ} (hn : 0 < n) : floorRank p n < n := by
  have := floorRank_le p n
  omega

theorem floorRank_mono {p q : ℕ} (h : p ≤ q) (n : ℕ) : floorRank p n ≤ floorRank q n :=
  min_le_min_right _ (Nat.div_le_div_right (Nat.mul_le_mul_right n h))

/-- In a sorted list at least `p` per cent of the values are at most the one that stands there. -/
theorem le_countP_floorRank (hp : p ≤ 100) (hl : l.SortedLE) (h : floorRank p l.length < l.length) :
    p * l.length ≤ 100 * l.countP (· ≤ l[floorRank p l.length]) := by
  have hcount := lt_countP_getElem hl h
  have hprod : p * l.length ≤ 100 * l.length := Nat.mul_le_mul_right _ hp
  have hrank : p * l.length ≤ 100 * (floorRank p l.length + 1) := by
    rw [floorRank]
    omega
  omega

/-- What stands there when the values have been sorted: one of them, and at least the percentile. -/
theorem floorRank_insertionSort (hp : 0 < p) (hle : p ≤ 100) (hl : l ≠ []) :
    ∃ v, (l.insertionSort (· ≤ ·))[floorRank p l.length]? = some v ∧ v ∈ l ∧
      p * l.length ≤ 100 * l.countP (· ≤ v) ∧ ∃ u, IsNearestRank p l u ∧ u ≤ v := by
  have hperm := l.perm_insertionSort (· ≤ ·)
  have hlt := floorRank_lt p (List.length_pos_iff.mpr hl)
  rw [← hperm.length_eq] at hlt ⊢
  obtain ⟨v, hv⟩ : ∃ v, (l.insertionSort (· ≤ ·))[floorRank p (l.insertionSort (· ≤ ·)).length] = v :=
    ⟨_, rfl⟩
  have henough := le_countP_floorRank hle List.sortedLE_insertionSort hlt
  have hmem := List.getElem_mem hlt
  rw [hv] at henough hmem
  rw [hperm.mem_iff] at hmem
  rw [hperm.length_eq, hperm.countP_eq] at henough
  obtain ⟨u, hu⟩ := exists_isNearestRank hp hle hl
  refine ⟨v, by rw [List.getElem?_eq_getElem hlt, hv], hmem, ?_, u, hu, hu.least v hmem henough⟩
  rw [hperm.length_eq]
  exact henough

end BulkTraffic.Lib
