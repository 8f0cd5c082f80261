import Mathlib.Logic.Equiv.Basic

/-!
# Binary heaps over an interface

The loops of a binary heap that reaches its collection only through an interface: its length,
a comparison and an exchange of two positions, and adding and removing at the end. Go's
`container/heap` is written this way.

* `HeapInterface.up` and `HeapInterface.down` move an element to its place, `push` and `pop`
  are the heap's operations.
* `up_invariant`, `down_invariant`: what every exchange keeps, they keep.
* `Lawful` is what the methods of an interface owe the heap, and `Ordered` the heap order: no
  element comes before its parent.
* `ordered_push`, `ordered_pop`: the operations of a lawful interface keep the order, and
  `Ordered.root_first` says that no element comes before the first.
-/

namespace BulkTraffic.Lib

/-- What a heap needs of a collection `σ` of elements `α`. -/
structure HeapInterface (σ α : Type*) where
  /-- The number of elements. -/
  len : σ → ℕ
  /-- Does the element at the first position come before the one at the second? -/
  less : σ → ℕ → ℕ → Bool
  /-- Exchange the elements at two positions. -/
  swap : σ → ℕ → ℕ → σ
  /-- Add an element at the end. -/
  pushBack : σ → α → σ
  /-- Remove the element at the end. -/
  popBack : σ → Option α × σ

namespace HeapInterface

variable {σ α : Type*} (h : HeapInterface σ α)

/-- The loop of `up`, with a bound on its rounds. -/
def upLoop : ℕ → σ → ℕ → σ
  | 0, s, _ => s
  | rounds + 1, s, j =>
    let i := (j - 1) / 2
    if i = j || !h.less s j i then s else upLoop rounds (h.swap s i j) i

/-- Move the element at a position up to its place. -/
def up (s : σ) (j : ℕ) : σ := h.upLoop (j + 1) s j

/-- The child of a position that comes first, among the first `n` elements. -/
def firstChild (s : σ) (i n : ℕ) : ℕ :=
  if 2 * i + 2 < n && h.less s (2 * i + 2) (2 * i + 1) then 2 * i + 2 else 2 * i + 1

/-- The loop of `down`, with a bound on its rounds. -/
def downLoop (n : ℕ) : ℕ → σ → ℕ → σ
  | 0, s, _ => s
  | rounds + 1, s, i =>
    if n ≤ 2 * i + 1 then s
    else
      let j := h.firstChild s i n
      if !h.less s j i then s else downLoop n rounds (h.swap s i j) j

/-- Move the element at a position down to its place among the first `n` elements. -/
def down (s : σ) (i n : ℕ) : σ := h.downLoop n n s i

/-- Add an element. -/
def push (s : σ) (a : α) : σ := h.up (h.pushBack s a) (h.len (h.pushBack s a) - 1)

/-- Remove the first element. -/
def pop (s : σ) : Option α × σ :=
  let n := h.len s - 1
  h.popBack (h.down (h.swap s 0 n) 0 n)

variable {h} {P : σ → Prop}

theorem upLoop_invariant (hswap : ∀ s i j, P s → P (h.swap s i j)) (rounds : ℕ) {s : σ} (hs : P s)
    (j : ℕ) : P (h.upLoop rounds s j) := by
  induction rounds generalizing s j with
  | zero => exact hs
  | succ rounds ih =>
    rw [upLoop]
    split
    · exact hs
    · exact ih (hswap _ _ _ hs) _

/-- What every exchange keeps, moving up keeps. -/
theorem up_invariant (hswap : ∀ s i j, P s → P (h.swap s i j)) {s : σ} (hs : P s) (j : ℕ) :
    P (h.up s j) :=
  upLoop_invariant hswap _ hs j

theorem firstChild_lt {s : σ} {i n : ℕ} (hchild : 2 * i + 1 < n) : h.firstChild s i n < n := by
  rw [firstChild]
  split
  · rename_i hsecond
    rw [Bool.and_eq_true, decide_eq_true_eq] at hsecond
    exact hsecond.1
  · exact hchild

theorem parent_firstChild {s : σ} {i n : ℕ} : (h.firstChild s i n - 1) / 2 = i := by
  rw [firstChild]
  split <;> omega

theorem firstChild_ne_zero {s : σ} {i n : ℕ} : h.firstChild s i n ≠ 0 := by
  rw [firstChild]
  split <;> omega

theorem downLoop_invariant {n : ℕ} (hswap : ∀ s i j, i < n → j < n → P s → P (h.swap s i j))
    (rounds : ℕ) {s : σ} (hs : P s) (i : ℕ) : P (h.downLoop n rounds s i) := by
  induction rounds generalizing s i with
  | zero => exact hs
  | succ rounds ih =>
    rw [downLoop]
    split
    · exact hs
    · rename_i hchild
      have hfirst : h.firstChild s i n < n := firstChild_lt (by omega)
      dsimp only
      split
      · exact hs
      · exact ih (hswap _ _ _ (by omega) hfirst hs) _

/-- What every exchange among the first `n` elements keeps, moving down among them keeps. -/
theorem down_invariant_of_lt {n : ℕ} (hswap : ∀ s i j, i < n → j < n → P s → P (h.swap s i j))
    {s : σ} (hs : P s) (i : ℕ) : P (h.down s i n) :=
  downLoop_invariant hswap n hs i

/-- What every exchange keeps, moving down keeps. -/
theorem down_invariant (hswap : ∀ s i j, P s → P (h.swap s i j)) {s : σ} (hs : P s) (i n : ℕ) :
    P (h.down s i n) :=
  down_invariant_of_lt (fun s i j _ _ => hswap s i j) hs i

/-! ### The heap order -/

variable (h) in
/-- What the methods owe the heap: the comparison is a strict order whose incomparable elements
form classes, and the others do to the positions what their names say. -/
structure Lawful : Prop where
  less_asymm : ∀ {s i j}, h.less s i j = true → h.less s j i = false
  not_less_trans : ∀ {s i j k}, j < h.len s → h.less s i j = false → h.less s j k = false →
    h.less s i k = false
  len_swap : ∀ s i j, h.len (h.swap s i j) = h.len s
  less_swap : ∀ {s i j}, i < h.len s → j < h.len s → ∀ a b,
    h.less (h.swap s i j) a b = h.less s (Equiv.swap i j a) (Equiv.swap i j b)
  len_pushBack : ∀ s a, h.len (h.pushBack s a) = h.len s + 1
  less_pushBack : ∀ {s a i j}, i < h.len s → j < h.len s →
    h.less (h.pushBack s a) i j = h.less s i j
  len_popBack : ∀ s, h.len (h.popBack s).2 = h.len s - 1
  less_popBack : ∀ {s i j}, i < h.len s - 1 → j < h.len s - 1 →
    h.less (h.popBack s).2 i j = h.less s i j

variable (h) in
/-- The first `n` elements are in heap order: none comes before its parent. -/
def OrderedTo (n : ℕ) (s : σ) : Prop := ∀ k < n, h.less s k ((k - 1) / 2) = false

variable (h) in
/-- The heap order. -/
def Ordered (s : σ) : Prop := h.OrderedTo (h.len s) s

variable (h) in
/-- In order but for the element at `j`, which may have to move up: the others do not come before
their parents, and its children not before its own parent. -/
structure UpOrder (s : σ) (j : ℕ) : Prop where
  others : ∀ k < h.len s, k ≠ j → h.less s k ((k - 1) / 2) = false
  children : ∀ k < h.len s, k ≠ j → (k - 1) / 2 = j → h.less s k ((j - 1) / 2) = false

variable (h) in
/-- In order but for the element at `i`, which may have to move down: the children of the others
do not come before them, and its own children not before its parent. -/
structure DownOrder (n : ℕ) (s : σ) (i : ℕ) : Prop where
  others : ∀ k < n, (k - 1) / 2 ≠ i → h.less s k ((k - 1) / 2) = false
  children : i ≠ 0 → ∀ k < n, (k - 1) / 2 = i → h.less s k ((i - 1) / 2) = false

namespace Lawful

variable (law : h.Lawful) {s : σ} {n i j : ℕ}

include law

theorem less_irrefl (s : σ) (i : ℕ) : h.less s i i = false := by
  cases hless : h.less s i i with
  | false => rfl
  | true => exact hless ▸ law.less_asymm hless

/-- No element comes before the first. -/
theorem root_first (ho : h.Ordered s) (k : ℕ) (hk : k < h.len s) : h.less s k 0 = false := by
  induction k using Nat.strongRecOn with
  | ind k ih =>
    rcases Nat.eq_zero_or_pos k with rfl | hpos
    · exact law.less_irrefl s 0
    · have hparent : (k - 1) / 2 < k := by omega
      exact law.not_less_trans (by omega) (ho k hk) (ih _ hparent (by omega))

/-! ### Moving up -/

theorem upOrder_swap (hj : j < h.len s) (o : h.UpOrder s j)
    (hless : h.less s j ((j - 1) / 2) = true) :
    h.UpOrder (h.swap s ((j - 1) / 2) j) ((j - 1) / 2) := by
  have hne : (j - 1) / 2 ≠ j := by
    intro heq
    rw [heq, law.less_irrefl] at hless
    cases hless
  have hback := law.less_asymm hless
  have hswap := law.less_swap (s := s) (i := (j - 1) / 2) (j := j) (by omega) hj
  -- The siblings of `j` come before neither its parent nor, hence, itself.
  have hsibling : ∀ k < h.len s, k ≠ j → (k - 1) / 2 = (j - 1) / 2 → h.less s k j = false := by
    intro k hk hkj hparent
    exact law.not_less_trans (by omega) (hparent ▸ o.others k hk hkj) hback
  constructor
  · intro k hk hki
    rw [law.len_swap] at hk
    rw [hswap]
    by_cases hkj : k = j
    · rw [hkj, Equiv.swap_apply_right, Equiv.swap_apply_left]
      exact hback
    · rw [Equiv.swap_apply_of_ne_of_ne hki hkj]
      by_cases hparent : (k - 1) / 2 = (j - 1) / 2
      · rw [hparent, Equiv.swap_apply_left]
        exact hsibling k hk hkj hparent
      · by_cases hchild : (k - 1) / 2 = j
        · rw [hchild, Equiv.swap_apply_right]
          exact o.children k hk hkj hchild
        · rw [Equiv.swap_apply_of_ne_of_ne hparent hchild]
          exact o.others k hk hkj
  · intro k hk hki hparent
    rw [law.len_swap] at hk
    rw [hswap]
    by_cases hroot : (j - 1) / 2 = 0
    · have hgrand : ((j - 1) / 2 - 1) / 2 = (j - 1) / 2 := by omega
      rw [hgrand, Equiv.swap_apply_left]
      by_cases hkj : k = j
      · rw [hkj, Equiv.swap_apply_right]
        exact hback
      · rw [Equiv.swap_apply_of_ne_of_ne hki hkj]
        exact hsibling k hk hkj hparent
    · have hup : h.less s ((j - 1) / 2) (((j - 1) / 2 - 1) / 2) = false :=
        o.others _ (by omega) hne
      rw [Equiv.swap_apply_of_ne_of_ne (x := ((j - 1) / 2 - 1) / 2) (by omega) (by omega)]
      by_cases hkj : k = j
      · rw [hkj, Equiv.swap_apply_right]
        exact hup
      · rw [Equiv.swap_apply_of_ne_of_ne hki hkj]
        exact law.not_less_trans (by omega) (hparent ▸ o.others k hk hkj) hup

theorem ordered_upLoop (rounds : ℕ) (hrounds : j < rounds) (hj : j < h.len s)
    (o : h.UpOrder s j) : h.Ordered (h.upLoop rounds s j) := by
  induction rounds generalizing s j with
  | zero => omega
  | succ rounds ih =>
    have hstop : h.less s j ((j - 1) / 2) = false → h.Ordered s := by
      intro hless k hk
      by_cases hkj : k = j
      · rw [hkj]
        exact hless
      · exact o.others k hk hkj
    rw [upLoop]
    split
    · rename_i hend
      rw [Bool.or_eq_true, decide_eq_true_eq, Bool.not_eq_true'] at hend
      rcases hend with hroot | hless
      · exact hstop (hroot.symm ▸ law.less_irrefl s j)
      · exact hstop hless
    · rename_i hgo
      rw [Bool.or_eq_true, not_or, decide_eq_true_eq, Bool.not_eq_true', Bool.not_eq_false] at hgo
      obtain ⟨hne, hless⟩ := hgo
      refine ih (by omega) ?_ (law.upOrder_swap hj o hless)
      rw [law.len_swap]
      omega

/-- Moving up restores the order. -/
theorem ordered_up (hj : j < h.len s) (o : h.UpOrder s j) : h.Ordered (h.up s j) :=
  law.ordered_upLoop (j + 1) (Nat.lt_succ_self j) hj o

/-- **Adding an element keeps the order.** -/
theorem ordered_push (ho : h.Ordered s) (a : α) : h.Ordered (h.push s a) := by
  have hlen := law.len_pushBack s a
  apply law.ordered_up
  · omega
  · constructor
    · intro k hk hne
      rw [law.less_pushBack (by omega) (by omega)]
      exact ho k (by omega)
    · intro k hk hne hparent
      omega

/-! ### Moving down -/

/-- Neither child comes before the one that `down` compares. -/
theorem firstChild_first {k : ℕ} (hk : k < n) (hpos : k ≠ 0) (hparent : (k - 1) / 2 = i) :
    h.less s k (h.firstChild s i n) = false := by
  rcases (by omega : k = 2 * i + 1 ∨ k = 2 * i + 2) with hleft | hright
  · rw [firstChild]
    split
    · rename_i hsecond
      rw [Bool.and_eq_true] at hsecond
      exact hleft ▸ law.less_asymm hsecond.2
    · exact hleft ▸ law.less_irrefl s _
  · rw [firstChild]
    split
    · exact hright ▸ law.less_irrefl s _
    · rename_i hfirst
      rw [Bool.and_eq_true, not_and, Bool.not_eq_true] at hfirst
      exact hright ▸ hfirst (decide_eq_true (hright ▸ hk))

theorem downOrder_swap (hn : n ≤ h.len s) (hchild : 2 * i + 1 < n) (o : h.DownOrder n s i)
    (hless : h.less s (h.firstChild s i n) i = true) :
    h.DownOrder n (h.swap s i (h.firstChild s i n)) (h.firstChild s i n) := by
  have hfirst : ∀ k < n, k ≠ 0 → (k - 1) / 2 = i → h.less s k (h.firstChild s i n) = false :=
    fun k hk hpos hparent => law.firstChild_first hk hpos hparent
  have hlt : h.firstChild s i n < n := firstChild_lt hchild
  have hparent : (h.firstChild s i n - 1) / 2 = i := parent_firstChild
  have hpos : h.firstChild s i n ≠ 0 := firstChild_ne_zero
  generalize h.firstChild s i n = j at hless hfirst hlt hparent hpos ⊢
  have hback := law.less_asymm hless
  have hswap := law.less_swap (s := s) (i := i) (j := j) (by omega) (by omega)
  constructor
  · intro k hk hkj
    rw [hswap]
    by_cases hki : k = i
    · subst hki
      rw [Equiv.swap_apply_left]
      by_cases hroot : k = 0
      · rw [show (k - 1) / 2 = k by omega, Equiv.swap_apply_left]
        exact law.less_irrefl s j
      · rw [Equiv.swap_apply_of_ne_of_ne (by omega) (by omega)]
        exact o.children hroot j hlt hparent
    · by_cases hk' : k = j
      · rw [hk', Equiv.swap_apply_right, hparent, Equiv.swap_apply_left]
        exact hback
      · rw [Equiv.swap_apply_of_ne_of_ne hki hk']
        by_cases hsibling : (k - 1) / 2 = i
        · rw [hsibling, Equiv.swap_apply_left]
          exact hfirst k hk (by omega) hsibling
        · rw [Equiv.swap_apply_of_ne_of_ne hsibling hkj]
          exact o.others k hk hsibling
  · intro _ k hk hgrand
    have hchildren := o.others k hk (by omega)
    rw [hswap, hparent, Equiv.swap_apply_left, Equiv.swap_apply_of_ne_of_ne (by omega) (by omega)]
    exact hgrand ▸ hchildren

theorem orderedTo_downLoop (hn : n ≤ h.len s) (rounds : ℕ) (hrounds : n ≤ rounds + i)
    (o : h.DownOrder n s i) : h.OrderedTo n (h.downLoop n rounds s i) := by
  -- Where the loop stops, the children of `i` do not come before it.
  have hstop : ∀ {s : σ} {i : ℕ}, h.DownOrder n s i →
      (∀ k < n, k ≠ 0 → (k - 1) / 2 = i → h.less s k i = false) → h.OrderedTo n s := by
    intro s i o hchildren k hk
    by_cases hparent : (k - 1) / 2 = i
    · rw [hparent]
      by_cases hroot : k = 0
      · rw [show i = k by omega]
        exact law.less_irrefl s k
      · exact hchildren k hk hroot hparent
    · exact o.others k hk hparent
  induction rounds generalizing s i with
  | zero => exact hstop o fun k hk hpos hparent => by omega
  | succ rounds ih =>
    rw [downLoop]
    split
    · exact hstop o fun k hk hpos hparent => by omega
    · rename_i hchild
      have hlt : h.firstChild s i n < n := firstChild_lt (by omega)
      dsimp only
      split
      · rename_i hless
        rw [Bool.not_eq_true'] at hless
        refine hstop o fun k hk hpos hparent => ?_
        exact law.not_less_trans (by omega) (law.firstChild_first hk hpos hparent) hless
      · rename_i hless
        rw [Bool.not_eq_true', Bool.not_eq_false] at hless
        have hparent : (h.firstChild s i n - 1) / 2 = i := parent_firstChild
        have hpos : h.firstChild s i n ≠ 0 := firstChild_ne_zero
        refine ih ?_ (by omega) (law.downOrder_swap hn (by omega) o hless)
        rw [law.len_swap]
        exact hn

/-- Moving down restores the order of the first `n` elements. -/
theorem orderedTo_down (hn : n ≤ h.len s) (o : h.DownOrder n s i) :
    h.OrderedTo n (h.down s i n) :=
  law.orderedTo_downLoop hn n (Nat.le_add_right n i) o

/-- **Removing the first element keeps the order.** -/
theorem ordered_pop (ho : h.Ordered s) : h.Ordered (h.pop s).2 := by
  have hlen : h.len (h.down (h.swap s 0 (h.len s - 1)) 0 (h.len s - 1)) = h.len s := by
    refine down_invariant (P := fun t => h.len t = h.len s) ?_ (law.len_swap _ _ _) _ _
    intro t i j ht
    exact (law.len_swap t i j).trans ht
  have hdown : h.OrderedTo (h.len s - 1) (h.down (h.swap s 0 (h.len s - 1)) 0 (h.len s - 1)) := by
    apply law.orderedTo_down
    · rw [law.len_swap]
      omega
    · constructor
      · intro k hk hparent
        rw [law.less_swap (by omega) (by omega), Equiv.swap_apply_of_ne_of_ne (by omega) (by omega),
          Equiv.swap_apply_of_ne_of_ne hparent (by omega)]
        exact ho k (by omega)
      · intro hroot
        exact absurd rfl hroot
  intro k hk
  rw [pop, law.len_popBack, hlen] at hk
  rw [pop, law.less_popBack (by omega) (by omega)]
  exact hdown k hk

end Lawful

end HeapInterface

end BulkTraffic.Lib
