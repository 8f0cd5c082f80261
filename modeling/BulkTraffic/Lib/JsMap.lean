import BulkTraffic.Lib.Weight
import Mathlib.Data.List.Nodup

/-!
# Maps with insertion order

A JavaScript `Map`: a list of entries with distinct keys, in the order in which the keys
were first set. `set` of a key that is present overwrites its value in place, `set` of a
new key appends, `delete` removes the entry.

`weightOf w m` is the sum of `w` over the values of `m`; `weightOf_set` and
`weightOf_delete` say how it changes.
-/

namespace BulkTraffic.Lib

/-- A map, as its entries in insertion order. -/
structure JsMap (κ ν : Type*) where
  /-- The entries. -/
  entries : List (κ × ν)
  /-- No key occurs twice. -/
  nodup : (entries.map Prod.fst).Nodup

namespace JsMap

variable {κ ν : Type*}

/-- The map with no entries. -/
def empty : JsMap κ ν := ⟨[], by simp⟩

instance : Inhabited (JsMap κ ν) := ⟨empty⟩

/-- The keys, in insertion order. -/
def keys (m : JsMap κ ν) : List κ := m.entries.map Prod.fst

/-- The values, in insertion order. -/
def values (m : JsMap κ ν) : List ν := m.entries.map Prod.snd

/-- How many entries. -/
def size (m : JsMap κ ν) : ℕ := m.entries.length

/-- The sum of `w` over the values. -/
def weightOf (w : ν → ℕ) (m : JsMap κ ν) : ℕ := weight (fun e => w e.2) m.entries

variable [DecidableEq κ]

/-- Look a key up in a list of entries. -/
def find (k : κ) : List (κ × ν) → Option ν
  | [] => none
  | e :: es => if e.1 = k then some e.2 else find k es

/-- Overwrite the value of a key, or append it. -/
def insert (k : κ) (v : ν) : List (κ × ν) → List (κ × ν)
  | [] => [(k, v)]
  | e :: es => if e.1 = k then (k, v) :: es else e :: insert k v es

/-- Remove a key. -/
def remove (k : κ) : List (κ × ν) → List (κ × ν)
  | [] => []
  | e :: es => if e.1 = k then es else e :: remove k es

/-! ### Entry lists -/

theorem mem_keys_insert {k j : κ} {v : ν} {es : List (κ × ν)} :
    j ∈ (insert k v es).map Prod.fst ↔ j = k ∨ j ∈ es.map Prod.fst := by
  induction es with
  | nil => simp [insert]
  | cons e es ih =>
    by_cases h : e.1 = k
    · simp [insert, h]
    · simp only [insert, if_neg h, List.map_cons, List.mem_cons, ih]
      tauto

theorem mem_keys_remove {k j : κ} {es : List (κ × ν)} (h : j ∈ (remove k es).map Prod.fst) :
    j ∈ es.map Prod.fst := by
  induction es with
  | nil => simp [remove] at h
  | cons e es ih =>
    by_cases hk : e.1 = k
    · rw [remove, if_pos hk] at h
      simp only [List.map_cons, List.mem_cons]
      exact .inr h
    · rw [remove, if_neg hk] at h
      simp only [List.map_cons, List.mem_cons] at h ⊢
      exact h.imp_right ih

theorem nodup_insert {k : κ} {v : ν} {es : List (κ × ν)} (h : (es.map Prod.fst).Nodup) :
    ((insert k v es).map Prod.fst).Nodup := by
  induction es with
  | nil => simp [insert]
  | cons e es ih =>
    simp only [List.map_cons, List.nodup_cons] at h
    by_cases hk : e.1 = k
    · rw [insert, if_pos hk, List.map_cons, List.nodup_cons]
      exact ⟨hk ▸ h.1, h.2⟩
    · rw [insert, if_neg hk, List.map_cons, List.nodup_cons, mem_keys_insert]
      exact ⟨by rintro (h' | h'); exacts [hk h', h.1 h'], ih h.2⟩

theorem nodup_remove {k : κ} {es : List (κ × ν)} (h : (es.map Prod.fst).Nodup) :
    ((remove k es).map Prod.fst).Nodup := by
  induction es with
  | nil => simp [remove]
  | cons e es ih =>
    simp only [List.map_cons, List.nodup_cons] at h
    by_cases hk : e.1 = k
    · rw [remove, if_pos hk]; exact h.2
    · rw [remove, if_neg hk, List.map_cons, List.nodup_cons]
      exact ⟨fun h' => h.1 (mem_keys_remove h'), ih h.2⟩

theorem find_eq_none {k : κ} {es : List (κ × ν)} : find k es = none ↔ k ∉ es.map Prod.fst := by
  induction es with
  | nil => simp [find]
  | cons e es ih =>
    by_cases hk : e.1 = k
    · simp [find, hk]
    · simp only [find, if_neg hk, ih, List.map_cons, List.mem_cons, not_or]
      exact ⟨fun h => ⟨fun h' => hk h'.symm, h⟩, fun h => h.2⟩

theorem find_insert (k j : κ) (v : ν) (es : List (κ × ν)) :
    find j (insert k v es) = if k = j then some v else find j es := by
  induction es with
  | nil => simp [insert, find]
  | cons e es ih =>
    by_cases hk : e.1 = k
    · by_cases hj : k = j
      · simp [insert, find, hk, hj]
      · have : ¬ e.1 = j := fun h => hj (hk.symm.trans h)
        simp [insert, find, hk, hj]
    · by_cases hj : k = j
      · subst hj; simp [insert, find, hk, ih]
      · simp [insert, find, hk, hj, ih]

theorem find_remove {es : List (κ × ν)} (h : (es.map Prod.fst).Nodup) (k j : κ) :
    find j (remove k es) = if k = j then none else find j es := by
  induction es with
  | nil => simp [remove, find]
  | cons e es ih =>
    simp only [List.map_cons, List.nodup_cons] at h
    by_cases hk : e.1 = k
    · by_cases hj : k = j
      · rw [remove, if_pos hk, if_pos hj, find_eq_none, ← hj, ← hk]
        exact h.1
      · have : ¬ e.1 = j := fun h => hj (hk.symm.trans h)
        simp [remove, find, hk, hj]
    · by_cases hj : k = j
      · subst hj; simp [remove, find, hk, ih h.2]
      · simp [remove, find, hk, hj, ih h.2]

theorem weight_insert (w : ν → ℕ) (k : κ) (v : ν) (es : List (κ × ν)) :
    weight (fun e => w e.2) (insert k v es) + ((find k es).elim 0 w) =
      weight (fun e => w e.2) es + w v := by
  induction es with
  | nil => simp [insert, find]
  | cons e es ih =>
    by_cases hk : e.1 = k
    · simp [insert, find, hk]; omega
    · simp [insert, find, hk]; omega

theorem weight_remove (w : ν → ℕ) (k : κ) (es : List (κ × ν)) :
    weight (fun e => w e.2) (remove k es) + ((find k es).elim 0 w) =
      weight (fun e => w e.2) es := by
  induction es with
  | nil => simp [remove, find]
  | cons e es ih =>
    by_cases hk : e.1 = k
    · simp [remove, find, hk]; omega
    · simp [remove, find, hk]; omega

theorem remove_of_find {k : κ} {es : List (κ × ν)} (h : find k es = none) : remove k es = es := by
  induction es with
  | nil => rfl
  | cons e es ih =>
    by_cases hk : e.1 = k
    · simp [find, hk] at h
    · rw [find, if_neg hk] at h
      rw [remove, if_neg hk, ih h]

/-- Removing the key of an entry takes this entry out. -/
theorem remove_append {e : κ × ν} {es fs : List (κ × ν)}
    (h : ((es ++ e :: fs).map Prod.fst).Nodup) : remove e.1 (es ++ e :: fs) = es ++ fs := by
  induction es with
  | nil => simp [remove]
  | cons d es ih =>
    simp only [List.cons_append, List.map_cons, List.nodup_cons] at h
    have hne : d.1 ≠ e.1 := by
      rintro heq
      exact h.1 (by simp [heq])
    rw [List.cons_append, remove, if_neg hne, ih h.2, List.cons_append]

theorem find_of_mem {k : κ} {v : ν} {es : List (κ × ν)} (hn : (es.map Prod.fst).Nodup)
    (h : (k, v) ∈ es) : find k es = some v := by
  induction es with
  | nil => simp at h
  | cons e es ih =>
    simp only [List.map_cons, List.nodup_cons] at hn
    rcases List.mem_cons.mp h with rfl | h'
    · simp [find]
    · have hk : e.1 ≠ k := fun hk => hn.1 (hk ▸ List.mem_map_of_mem h')
      rw [find, if_neg hk, ih hn.2 h']

theorem mem_of_find {k : κ} {v : ν} {es : List (κ × ν)} (h : find k es = some v) : (k, v) ∈ es := by
  induction es with
  | nil => cases h
  | cons e es ih =>
    rw [find] at h
    split at h
    · rename_i hk
      rw [← hk, ← Option.some.inj h]
      exact List.mem_cons_self ..
    · exact List.mem_cons_of_mem e (ih h)

theorem remove_eq_filter {k : κ} {es : List (κ × ν)} (hn : (es.map Prod.fst).Nodup) :
    remove k es = es.filter fun e => e.1 ≠ k := by
  induction es with
  | nil => rfl
  | cons e es ih =>
    simp only [List.map_cons, List.nodup_cons] at hn
    by_cases hk : e.1 = k
    · rw [remove, if_pos hk, List.filter_cons_of_neg (by simp [hk]), ← ih hn.2]
      exact (remove_of_find (find_eq_none.mpr (hk ▸ hn.1))).symm
    · rw [remove, if_neg hk, List.filter_cons_of_pos (by simp [hk]), ih hn.2]

/-! ### The operations -/

/-- `map.get(k)`. -/
def get? (m : JsMap κ ν) (k : κ) : Option ν := find k m.entries

/-- `map.has(k)`. -/
def has (m : JsMap κ ν) (k : κ) : Bool := (m.get? k).isSome

/-- `map.set(k, v)`. -/
def set (m : JsMap κ ν) (k : κ) (v : ν) : JsMap κ ν := ⟨insert k v m.entries, nodup_insert m.nodup⟩

/-- `map.delete(k)`. -/
def delete (m : JsMap κ ν) (k : κ) : JsMap κ ν := ⟨remove k m.entries, nodup_remove m.nodup⟩

@[simp] theorem get?_empty (k : κ) : (empty : JsMap κ ν).get? k = none := rfl

omit [DecidableEq κ] in
@[simp] theorem weightOf_empty (w : ν → ℕ) : (empty : JsMap κ ν).weightOf w = 0 := rfl

theorem get?_set (m : JsMap κ ν) (k j : κ) (v : ν) :
    (m.set k v).get? j = if k = j then some v else m.get? j :=
  find_insert k j v m.entries

theorem get?_delete (m : JsMap κ ν) (k j : κ) :
    (m.delete k).get? j = if k = j then none else m.get? j :=
  find_remove m.nodup k j

@[simp] theorem get?_set_self (m : JsMap κ ν) (k : κ) (v : ν) : (m.set k v).get? k = some v := by
  simp [get?_set]

@[simp] theorem get?_delete_self (m : JsMap κ ν) (k : κ) : (m.delete k).get? k = none := by
  simp [get?_delete]

theorem get?_set_of_ne (m : JsMap κ ν) {k j : κ} (h : k ≠ j) (v : ν) :
    (m.set k v).get? j = m.get? j := by
  simp [get?_set, h]

theorem get?_delete_of_ne (m : JsMap κ ν) {k j : κ} (h : k ≠ j) :
    (m.delete k).get? j = m.get? j := by
  simp [get?_delete, h]

/-- Setting a key exchanges the weight of its old value for the new one's. -/
theorem weightOf_set (w : ν → ℕ) (m : JsMap κ ν) (k : κ) (v : ν) :
    (m.set k v).weightOf w + (m.get? k).elim 0 w = m.weightOf w + w v :=
  weight_insert w k v m.entries

/-- Deleting a key removes its value's weight. -/
theorem weightOf_delete (w : ν → ℕ) (m : JsMap κ ν) (k : κ) :
    (m.delete k).weightOf w + (m.get? k).elim 0 w = m.weightOf w :=
  weight_remove w k m.entries

theorem weightOf_set_of_none (w : ν → ℕ) {m : JsMap κ ν} {k : κ} (h : m.get? k = none) (v : ν) :
    (m.set k v).weightOf w = m.weightOf w + w v := by
  have := m.weightOf_set w k v
  rw [h] at this
  exact this

theorem weightOf_set_of_some (w : ν → ℕ) {m : JsMap κ ν} {k : κ} {u : ν} (h : m.get? k = some u)
    (v : ν) : (m.set k v).weightOf w + w u = m.weightOf w + w v := by
  have := m.weightOf_set w k v
  rw [h] at this
  exact this

theorem weightOf_delete_of_some (w : ν → ℕ) {m : JsMap κ ν} {k : κ} {u : ν}
    (h : m.get? k = some u) : (m.delete k).weightOf w + w u = m.weightOf w := by
  have := m.weightOf_delete w k
  rw [h] at this
  exact this

theorem delete_of_none {m : JsMap κ ν} {k : κ} (h : m.get? k = none) : m.delete k = m := by
  obtain ⟨es, hn⟩ := m
  simp [delete, remove_of_find h]

theorem get?_of_mem {m : JsMap κ ν} {k : κ} {v : ν} (h : (k, v) ∈ m.entries) : m.get? k = some v :=
  find_of_mem m.nodup h

/-- A value has no more weight than the map it is in. -/
theorem le_weightOf_of_get? (w : ν → ℕ) {m : JsMap κ ν} {k : κ} {v : ν} (h : m.get? k = some v) :
    w v ≤ m.weightOf w := by
  have := m.weightOf_delete_of_some w h
  omega

/-- A map has weight where one of its values has. -/
theorem exists_of_weightOf_pos {w : ν → ℕ} {m : JsMap κ ν} (h : 0 < m.weightOf w) :
    ∃ k v, m.get? k = some v ∧ 0 < w v := by
  obtain ⟨e, he, hw⟩ := exists_mem_of_weight_pos h
  exact ⟨e.1, e.2, get?_of_mem he, hw⟩

theorem mem_entries_iff {m : JsMap κ ν} {k : κ} {v : ν} : (k, v) ∈ m.entries ↔ m.get? k = some v :=
  ⟨get?_of_mem, mem_of_find⟩

theorem entries_delete (m : JsMap κ ν) (k : κ) : (m.delete k).entries = m.entries.filter fun e => e.1 ≠ k :=
  remove_eq_filter m.nodup

/-- Deleting keys leaves the other entries. -/
theorem entries_foldl_delete (ks : List κ) (m : JsMap κ ν) :
    (ks.foldl delete m).entries = m.entries.filter fun e => e.1 ∉ ks := by
  induction ks generalizing m with
  | nil => simp
  | cons k ks ih =>
    rw [List.foldl_cons, ih, entries_delete, List.filter_filter]
    congr 1
    funext e
    simp [Bool.and_comm]

/-! ### Copies and counters -/

theorem entries_set_of_none {m : JsMap κ ν} {k : κ} (h : m.get? k = none) (v : ν) :
    (m.set k v).entries = m.entries ++ [(k, v)] := by
  have hinsert : ∀ es : List (κ × ν), find k es = none → insert k v es = es ++ [(k, v)] := by
    intro es
    induction es with
    | nil => exact fun _ => rfl
    | cons e es ih =>
      intro h
      rw [find] at h
      split at h
      · cases h
      · rename_i hne
        rw [insert, if_neg hne, ih h, List.cons_append]
  exact hinsert m.entries h

/-- A map made of entries with distinct keys, one after the other, has these entries. -/
theorem entries_foldl_set {es : List (κ × ν)} {m : JsMap κ ν}
    (h : ((m.entries ++ es).map Prod.fst).Nodup) :
    (es.foldl (fun copy e => copy.set e.1 e.2) m).entries = m.entries ++ es := by
  induction es generalizing m with
  | nil => exact (List.append_nil _).symm
  | cons e es ih =>
    have hnone : m.get? e.1 = none := by
      rw [get?, find_eq_none]
      rw [List.map_append, List.map_cons] at h
      exact fun hmem => (List.disjoint_of_nodup_append h) hmem List.mem_cons_self
    have hset := entries_set_of_none hnone e.2
    have happend : (m.set e.1 e.2).entries ++ es = m.entries ++ e :: es := by
      rw [hset, List.append_assoc, List.singleton_append]
    rw [List.foldl_cons, ih (by rw [happend]; exact h), happend]

/-- Maps with the same entries, in whatever order, have the same values under the same keys. -/
theorem get?_of_perm {m m' : JsMap κ ν} (h : m.entries.Perm m'.entries) (k : κ) :
    m.get? k = m'.get? k := by
  apply Option.ext
  intro v
  rw [← mem_entries_iff, ← mem_entries_iff]
  exact h.mem_iff

/-- Counting a key once more adds one to the sum of the counts. -/
theorem sum_values_set_succ (m : JsMap κ ℕ) (k : κ) :
    (m.set k ((m.get? k).getD 0 + 1)).values.sum = m.values.sum + 1 := by
  have hset := m.weightOf_set id k ((m.get? k).getD 0 + 1)
  show (m.set k _).weightOf id = m.weightOf id + 1
  cases hcount : m.get? k with
  | none =>
    simp only [hcount, Option.elim_none, Option.getD_none, id] at hset ⊢
    omega
  | some n =>
    simp only [hcount, Option.elim_some, Option.getD_some, id] at hset ⊢
    omega

end JsMap

end BulkTraffic.Lib
