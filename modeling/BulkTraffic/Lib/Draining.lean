import BulkTraffic.Lib.Runs

/-!
# Systems that run out of work

A measure that no step raises and that a working step lowers bounds the number of working
steps of a run, whatever comes between them. Where a state that is not done always has a
working step, a run that keeps working gets done.

* `Works step ok works s n t`: a run from `s` to `t` with `n` working steps, all of whose
  steps are taken where `ok` holds.
* `Works.measure_le`: the number of working steps is bounded by what the measure loses.
* `Works.exists_done`: a done state can be reached by working steps alone.
-/

namespace BulkTraffic.Lib

variable {σ ε : Type*}

/-- A run from `s` to the given state with so many working steps. -/
inductive Works (step : σ → ε → Option σ) (ok works : σ → ε → Prop) (s : σ) : ℕ → σ → Prop where
  /-- The run of no steps. -/
  | refl : Works step ok works s 0 s
  /-- One more step, which does no work. -/
  | idle {n : ℕ} {t u : σ} (e : ε) : Works step ok works s n t → ok t e → ¬ works t e →
      step t e = some u → Works step ok works s n u
  /-- One more working step. -/
  | work {n : ℕ} {t u : σ} (e : ε) : Works step ok works s n t → ok t e → works t e →
      step t e = some u → Works step ok works s (n + 1) u

variable {step : σ → ε → Option σ} {ok works : σ → ε → Prop}

/-- The working steps are steps of a run. -/
theorem Works.reaches {s t : σ} {n : ℕ} (h : Works step ok works s n t) : Reaches step ok s t := by
  induction h with
  | refl => exact .refl
  | idle e _ hok _ he ih => exact ih.next e hok he
  | work e _ hok _ he ih => exact ih.next e hok he

theorem Works.trans {s t u : σ} {m n : ℕ} (h : Works step ok works s m t)
    (h' : Works step ok works t n u) : Works step ok works s (m + n) u := by
  induction h' with
  | refl => exact h
  | idle e _ hok hidle he ih => exact ih.idle e hok hidle he
  | work e _ hok hwork he ih => exact ih.work e hok hwork he

section Measure

variable {P : σ → Prop} {measure : σ → ℕ}
  (hkeep : ∀ t e u, P t → ok t e → step t e = some u → P u)
  (hlt : ∀ t e u, P t → ok t e → works t e → step t e = some u → measure u < measure t)

include hkeep hlt

/-- **Work is bounded**: what the measure has left and the work done do not exceed what there
was at the start. -/
theorem Works.measure_le
    (hle : ∀ t e u, P t → ok t e → step t e = some u → measure u ≤ measure t)
    {s t : σ} {n : ℕ} (hs : P s) (h : Works step ok works s n t) : measure t + n ≤ measure s := by
  have hmain : P t ∧ measure t + n ≤ measure s := by
    induction h with
    | refl => exact ⟨hs, Nat.le_refl _⟩
    | idle e _ hok _ he ih =>
      obtain ⟨ht, hbound⟩ := ih
      have := hle _ e _ ht hok he
      exact ⟨hkeep _ e _ ht hok he, by omega⟩
    | work e _ hok hwork he ih =>
      obtain ⟨ht, hbound⟩ := ih
      have := hlt _ e _ ht hok hwork he
      exact ⟨hkeep _ e _ ht hok he, by omega⟩
  exact hmain.2

/-- **Work gets done**: where a state that is not done has a working step, some run of working
steps leads to one that is. -/
theorem Works.exists_done {done : σ → Prop} {s : σ} (hs : P s)
    (hprogress : ∀ t, P t → ¬ done t → ∃ e u, ok t e ∧ works t e ∧ step t e = some u) :
    ∃ n t, Works step ok works s n t ∧ P t ∧ done t := by
  induction hmeasure : measure s using Nat.strongRecOn generalizing s with
  | ind bound ih =>
    by_cases hdone : done s
    · exact ⟨0, s, .refl, hs, hdone⟩
    · obtain ⟨e, u, hok, hwork, he⟩ := hprogress s hs hdone
      have hless := hlt s e u hs hok hwork he
      obtain ⟨n, t, hrun, ht, htdone⟩ := ih _ (by omega) (hkeep s e u hs hok he) rfl
      exact ⟨1 + n, t, (Works.refl.work e hok hwork he).trans hrun, ht, htdone⟩

end Measure

end BulkTraffic.Lib
