import Mathlib.Order.Basic

/-!
# Loops

A loop is given by its body: from the state before a round the body goes on to the state before the
next one, or it leaves the loop with a result. `runLoop` runs it for a number of rounds, and has no
result where these are not enough.

* `runLoop_of_variant` is the loop rule: a loop whose rounds keep an invariant and lower a variant
  is left, after no more rounds than the variant says, and with what the invariant promises.
-/

namespace BulkTraffic.Lib

variable {σ β : Type*}

/-- What a round of a loop ends with. -/
inductive Round (σ β : Type*) where
  /-- The loop goes on. -/
  | next (s : σ)
  /-- The loop is left. -/
  | leave (b : β)

/-- The loop, for so many rounds. -/
def runLoop (body : σ → Round σ β) : ℕ → σ → Option β
  | 0, _ => none
  | rounds + 1, s =>
    match body s with
    | .next t => runLoop body rounds t
    | .leave b => some b

/-- **The loop rule.** Where every round keeps the invariant and lowers the variant, the loop is
left before the rounds run out. -/
theorem runLoop_of_variant {body : σ → Round σ β} (Inv : σ → Prop) (variant : σ → ℕ) {Post : β → Prop}
    (hnext : ∀ s t, Inv s → body s = .next t → Inv t ∧ variant t < variant s)
    (hleave : ∀ s b, Inv s → body s = .leave b → Post b) {rounds : ℕ} {s : σ} (hs : Inv s)
    (hrounds : variant s < rounds) : ∃ b, runLoop body rounds s = some b ∧ Post b := by
  induction rounds generalizing s with
  | zero => exact absurd hrounds (Nat.not_lt_zero _)
  | succ rounds ih =>
    rw [runLoop]
    cases h : body s with
    | leave b => exact ⟨b, rfl, hleave s b hs h⟩
    | next t =>
      obtain ⟨ht, hlt⟩ := hnext s t hs h
      exact ih ht (by omega)

end BulkTraffic.Lib
