import Mathlib.Data.List.Dedup
import Mathlib.Data.List.Sort
import Mathlib.Data.Finset.Card
import Mathlib.Data.Finset.Image
import BulkTraffic.Lib.Weight

/-!
# Grouping rows by a key

`GROUP BY` on a list of rows: the distinct keys (`keys`), the rows of a key (`rowsOf`), and
one summary per key (`groupBy`).

* `mem_groupBy`, `filter_groupBy`: which summaries there are, one for each value of the key.
* `weight_extra`: the rows beyond the first of their group, over all groups, are as many as
  there are rows less keys.
* `keys_length_le`: a coarser key has at most as many values as a finer one, and as many exactly
  when it determines the finer one.
-/

namespace BulkTraffic.Lib

variable {α κ γ β : Type*} [DecidableEq κ] (key : α → κ)

/-- The distinct values of a key. -/
def keys (rows : List α) : List κ := (rows.map key).dedup

/-- The rows with a value of the key. -/
def rowsOf (rows : List α) (k : κ) : List α := rows.filter fun a => decide (key a = k)

/-- One summary for each value of the key, made from its rows. -/
def groupBy (rows : List α) (summary : κ → List α → β) : List β :=
  (keys key rows).map fun k => summary k (rowsOf key rows k)

@[simp] theorem mem_keys {rows : List α} {k : κ} : k ∈ keys key rows ↔ ∃ a ∈ rows, key a = k := by
  simp [keys]

@[simp] theorem mem_rowsOf {rows : List α} {k : κ} {a : α} :
    a ∈ rowsOf key rows k ↔ a ∈ rows ∧ key a = k := by
  simp [rowsOf]

/-- A summary is there for each value of the key that some row has. -/
theorem mem_groupBy {rows : List α} {summary : κ → List α → β} {b : β} :
    b ∈ groupBy key rows summary ↔
      ∃ k, (∃ a ∈ rows, key a = k) ∧ summary k (rowsOf key rows k) = b := by
  simp [groupBy]

/-- Of the summaries that name their value, one names a value that some row has. -/
theorem filter_groupBy {rows : List α} {summary : κ → List α → β} {name : β → κ}
    (hname : ∀ k members, name (summary k members) = k) {k : κ} (h : ∃ a ∈ rows, key a = k) :
    (groupBy key rows summary).filter (fun b => decide (name b = k))
      = [summary k (rowsOf key rows k)] := by
  have hone : (keys key rows).filter (fun j => decide (j = k)) = [k] := by
    have hcount : (keys key rows).count k = 1 :=
      List.count_eq_one_of_mem (List.nodup_dedup _) ((mem_keys key).mpr h)
    rw [List.filter_eq, hcount]
    rfl
  rw [groupBy, List.filter_map]
  simp only [Function.comp_def, hname]
  rw [hone]
  rfl

theorem rowsOf_pos {rows : List α} {k : κ} (h : k ∈ keys key rows) :
    0 < (rowsOf key rows k).length := by
  obtain ⟨a, ha, hk⟩ := (mem_keys key).mp h
  exact List.length_pos_of_mem ((mem_rowsOf key).mpr ⟨ha, hk⟩)

/-- A row counts in the group of its key and in no other. -/
theorem weight_rowsOf_cons {ks : List κ} (hnodup : ks.Nodup) (a : α) (rows : List α)
    (h : key a ∈ ks) :
    weight (fun k => (rowsOf key (a :: rows) k).length) ks
      = weight (fun k => (rowsOf key rows k).length) ks + 1 := by
  induction ks with
  | nil => cases h
  | cons k ks ih =>
    obtain ⟨hk, hnodup⟩ := List.nodup_cons.mp hnodup
    simp only [weight_cons]
    rcases List.mem_cons.mp h with heq | hmem
    · have hrest : weight (fun k => (rowsOf key (a :: rows) k).length) ks
          = weight (fun k => (rowsOf key rows k).length) ks := by
        refine weight_congr fun j hj => ?_
        have hne : key a ≠ j := fun hj' => hk (heq ▸ hj' ▸ hj)
        simp [rowsOf, hne]
      have hself : (rowsOf key (a :: rows) k).length = (rowsOf key rows k).length + 1 := by
        simp [rowsOf, heq]
      omega
    · have hne : key a ≠ k := fun heq => hk (heq ▸ hmem)
      have hself : (rowsOf key (a :: rows) k).length = (rowsOf key rows k).length := by
        simp [rowsOf, hne]
      have := ih hnodup hmem
      omega

/-- The groups have all the rows. -/
theorem weight_rowsOf (rows : List α) {ks : List κ} (hnodup : ks.Nodup)
    (h : ∀ a ∈ rows, key a ∈ ks) : weight (fun k => (rowsOf key rows k).length) ks = rows.length := by
  induction rows with
  | nil => exact weight_eq_zero _ fun k _ => rfl
  | cons a rows ih =>
    rw [weight_rowsOf_cons key hnodup a rows (h a (List.mem_cons_self ..)),
      ih fun b hb => h b (List.mem_cons_of_mem _ hb), List.length_cons]

/-- **The rows beyond the first** of each group, and the groups, make up the rows. -/
theorem weight_extra (rows : List α) :
    weight (fun k => (rowsOf key rows k).length - 1) (keys key rows) + (keys key rows).length
      = rows.length := by
  have hall := weight_rowsOf key rows (List.nodup_dedup (rows.map key))
    fun a ha => (mem_keys key).mpr ⟨a, ha, rfl⟩
  have hone : weight (fun k => (rowsOf key rows k).length - 1) (keys key rows)
      + weight (fun _ => 1) (keys key rows)
      = weight (fun k => (rowsOf key rows k).length) (keys key rows) := by
    rw [← weight_add]
    refine weight_congr fun k hk => ?_
    have := rowsOf_pos key hk
    omega
  have hcount : weight (fun _ => 1) (keys key rows) = (keys key rows).length := by
    rw [weight_const, Nat.one_mul]
  have hall' : weight (fun k => (rowsOf key rows k).length) (keys key rows) = rows.length := hall
  omega

theorem keys_length (rows : List α) : (keys key rows).length = (rows.map key).toFinset.card :=
  (List.card_toFinset _).symm

variable [DecidableEq γ]

/-- A key that a finer one determines has at most as many values, and as many exactly when it
tells apart what the finer one does. -/
theorem keys_length_le (fine : α → γ) {f : γ → κ} (hf : ∀ a, f (fine a) = key a) (rows : List α) :
    (keys key rows).length ≤ (keys fine rows).length ∧
      ((keys key rows).length = (keys fine rows).length ↔
        ∀ a ∈ rows, ∀ b ∈ rows, key a = key b → fine a = fine b) := by
  have himage : (rows.map key).toFinset = (rows.map fine).toFinset.image f := by
    ext k
    simp [hf]
  rw [keys_length, keys_length, himage]
  refine ⟨Finset.card_image_le, ?_⟩
  rw [Finset.card_image_iff]
  constructor
  · intro hinj a ha b hb heq
    refine hinj ?_ ?_ (by rw [hf, hf, heq])
    · simpa using ⟨a, ha, rfl⟩
    · simpa using ⟨b, hb, rfl⟩
  · rintro hdet x hx y hy heq
    simp only [List.coe_toFinset, Set.mem_ofPred_eq, List.mem_map] at hx hy
    obtain ⟨a, ha, rfl⟩ := hx
    obtain ⟨b, hb, rfl⟩ := hy
    rw [hf, hf] at heq
    exact hdet a ha b hb heq

end BulkTraffic.Lib
