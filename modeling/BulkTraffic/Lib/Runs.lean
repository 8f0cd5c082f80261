import Mathlib.Data.List.Basic

/-!
# Runs of an event-driven system

A system is a state type `σ`, an event type `ε` and a partial step function: `step s e`
is `none` where the event `e` cannot happen in `s`.

* `runEvents step ok s es` runs a list of events, as long as each is taken where `ok` holds.
* `Reaches step ok s t` says that some run leads from `s` to `t` all of whose steps are
  taken where `ok` holds of the state before the step and of the event. A run of the
  system without any condition is `Reachable step s t`.
* `Reaches.invariant` is the induction rule: what holds at the start and is kept by every
  step that meets `ok` holds wherever the run gets.
-/

namespace BulkTraffic.Lib

variable {σ ε : Type*}

/-- Some run leads from `s` to the given state, each of its steps taken where `ok` holds. -/
inductive Reaches (step : σ → ε → Option σ) (ok : σ → ε → Prop) (s : σ) : σ → Prop where
  /-- The run of no steps. -/
  | refl : Reaches step ok s s
  /-- One more step. -/
  | next {t u : σ} (e : ε) : Reaches step ok s t → ok t e → step t e = some u →
      Reaches step ok s u

/-- Some run leads from `s` to the given state. -/
abbrev Reachable (step : σ → ε → Option σ) (s : σ) : σ → Prop := Reaches step (fun _ _ => True) s

/-- Run a list of events, each taken where `ok` holds. -/
def runEvents (step : σ → ε → Option σ) (ok : σ → ε → Prop) [∀ s e, Decidable (ok s e)] :
    σ → List ε → Option σ
  | s, [] => some s
  | s, e :: es => if ok s e then (step s e).bind fun t => runEvents step ok t es else none

variable {step : σ → ε → Option σ} {ok : σ → ε → Prop}

/-- **The invariant rule**: what holds at the start and is kept by every step that meets
the condition holds wherever such a run gets. -/
theorem Reaches.invariant {P : σ → Prop} {s t : σ} (h : Reaches step ok s t) (hs : P s)
    (hstep : ∀ t e u, P t → ok t e → step t e = some u → P u) : P t := by
  induction h with
  | refl => exact hs
  | next e _ hok he ih => exact hstep _ e _ ih hok he

theorem Reaches.trans {s t u : σ} (h : Reaches step ok s t) (h' : Reaches step ok t u) :
    Reaches step ok s u := by
  induction h' with
  | refl => exact h
  | next e _ hok he ih => exact ih.next e hok he

theorem Reaches.single {s t : σ} {e : ε} (hok : ok s e) (h : step s e = some t) :
    Reaches step ok s t :=
  Reaches.refl.next e hok h

/-- A list of events that runs is a run. -/
theorem reaches_of_runEvents [∀ s e, Decidable (ok s e)] {s t : σ} {es : List ε}
    (h : runEvents step ok s es = some t) : Reaches step ok s t := by
  induction es generalizing s with
  | nil =>
    simp only [runEvents, Option.some.injEq] at h
    exact h ▸ .refl
  | cons e es ih =>
    simp only [runEvents] at h
    split at h
    · rename_i hok
      obtain ⟨u, hu, h⟩ := Option.bind_eq_some_iff.mp h
      exact (Reaches.single hok hu).trans (ih h)
    · cases h

/-- A list of events that runs, and what is seen of the state it ends in. -/
theorem exists_reaches_of_runEvents {γ : Type*} (step : σ → ε → Option σ) (ok : σ → ε → Prop)
    [∀ s e, Decidable (ok s e)] (view : σ → γ) {s : σ} (es : List ε) (seen : γ)
    (h : (runEvents step ok s es).map view = some seen) :
    ∃ t, Reaches step ok s t ∧ view t = seen := by
  obtain ⟨t, ht, hview⟩ := Option.map_eq_some_iff.mp h
  exact ⟨t, reaches_of_runEvents ht, hview⟩

end BulkTraffic.Lib
