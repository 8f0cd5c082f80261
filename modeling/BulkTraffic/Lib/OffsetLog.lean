import Mathlib.Data.List.Basic

/-!
# Logs of entries with increasing offsets

A reader of a log keeps a position and takes the first entry at it or after it. What it knows of
the entries it has passed is a property of all of them up to a position.

* `nextFrom`, `Next`: the entry a reader takes.
* `Upto`: every entry from an origin up to a position has a property.
* `Upto.next`, `Upto.snoc`: reading an entry, and what holds of it then.
-/

namespace BulkTraffic.Lib

/-- A log: entries with increasing offsets, perhaps with gaps. -/
structure OffsetLog {α : Type*} (offset : α → ℕ) where
  entries : List α
  sorted : entries.Pairwise fun a b => offset a < offset b

namespace OffsetLog

variable {α : Type*} {offset : α → ℕ} {log : OffsetLog offset} {P Q : α → Prop}
  {origin position : ℕ} {m : α}

/-- The first entry at a position or after it. -/
def nextFrom (log : OffsetLog offset) (position : ℕ) : Option α :=
  log.entries.find? fun a => position ≤ offset a

/-- An entry is the first at a position or after it. -/
structure Next (log : OffsetLog offset) (position : ℕ) (m : α) : Prop where
  mem : m ∈ log.entries
  le : position ≤ offset m
  first : ∀ a ∈ log.entries, position ≤ offset a → offset m ≤ offset a

/-- Every entry from `origin` on and before `position` has the property. -/
def Upto (log : OffsetLog offset) (P : α → Prop) (origin position : ℕ) : Prop :=
  ∀ a ∈ log.entries, origin ≤ offset a → offset a < position → P a

theorem next_of_nextFrom (h : log.nextFrom position = some m) : log.Next position m := by
  refine ⟨List.mem_of_find?_eq_some h, by simpa using List.find?_some h, ?_⟩
  obtain ⟨-, before, after, hentries, hbefore⟩ := List.find?_eq_some_iff_append.mp h
  intro a ha hle
  have hsorted := log.sorted
  rw [hentries] at ha hsorted
  rcases List.mem_append.mp ha with ha | ha
  · have hlt : ¬ position ≤ offset a := by simpa using hbefore a ha
    exact absurd hle hlt
  · rcases List.mem_cons.mp ha with rfl | ha
    · exact Nat.le_refl _
    · have hafter := (List.pairwise_append.mp hsorted).2.1
      exact Nat.le_of_lt ((List.pairwise_cons.mp hafter).1 a ha)

/-- The offset determines the entry. -/
theorem eq_of_offset {a b : α} (ha : a ∈ log.entries) (hb : b ∈ log.entries)
    (h : offset a = offset b) : a = b := by
  have hne : log.entries.Pairwise fun a b => offset a = offset b → a = b :=
    log.sorted.imp fun hlt heq => absurd heq (Nat.ne_of_lt hlt)
  have hflip : log.entries.Pairwise (flip fun a b => offset a = offset b → a = b) :=
    log.sorted.imp fun hlt heq => absurd heq.symm (Nat.ne_of_lt hlt)
  exact List.Pairwise.forall_of_forall_of_flip (fun _ _ _ => rfl) hne hflip ha hb h

/-! ### What holds up to a position -/

theorem Upto.imp (h : log.Upto P origin position) (hPQ : ∀ a ∈ log.entries, P a → Q a) :
    log.Upto Q origin position :=
  fun a ha hle hlt => hPQ a ha (h a ha hle hlt)

/-- A later origin leaves fewer entries. -/
theorem Upto.origin_le (h : log.Upto P origin position) {later : ℕ} (hle : origin ≤ later) :
    log.Upto P later position :=
  fun a ha hlater hlt => h a ha (Nat.le_trans hle hlater) hlt

/-- No entry is before the origin. -/
theorem upto_origin (log : OffsetLog offset) (P : α → Prop) (origin : ℕ) :
    log.Upto P origin origin :=
  fun _ _ hle hlt => absurd hlt (Nat.not_lt.mpr hle)

/-- The entry taken is the first that the reader has not passed. -/
theorem Upto.next (h : log.Upto P origin position) (hnext : log.Next position m) :
    log.Upto P origin (offset m) := by
  intro a ha hle hlt
  refine h a ha hle ?_
  by_contra hge
  exact absurd hlt (Nat.not_lt.mpr (hnext.first a ha (Nat.not_lt.mp hge)))

/-- The property of the entry taken is one more. -/
theorem Upto.snoc (h : log.Upto P origin (offset m)) (hmem : m ∈ log.entries) (hm : P m) :
    log.Upto P origin (offset m + 1) := by
  intro a ha hle hlt
  rcases Nat.lt_or_eq_of_le (Nat.le_of_lt_succ hlt) with hlt | heq
  · exact h a ha hle hlt
  · exact eq_of_offset ha hmem heq ▸ hm

end OffsetLog

end BulkTraffic.Lib
