import Mathlib.Logic.Function.Iterate
import Mathlib.Tactic.Common

/-!
# Computations in lockstep

A computation turns a state into an answer and a state.  Two of them are tied when they answer the
same and leave related states behind.  Tied computations compose, so that two systems are in
lockstep as soon as their smallest parts are, and what is related stays related over any number of
steps.
-/

set_option autoImplicit false

namespace Lockstep

variable {α β σ τ : Type} {R : σ → τ → Prop}

/-- The same answer, and related states. -/
structure Tied (R : σ → τ → Prop) (r : α × σ) (r' : α × τ) : Prop where
  answer : r'.1 = r.1
  states : R r.2 r'.2

namespace Tied

variable {r : α × σ} {r' : α × τ}

theorem ite {p : Prop} [Decidable p] {s : α × σ} {s' : α × τ} (h : Tied R r r')
    (h' : Tied R s s') : Tied R (if p then r else s) (if p then r' else s') := by
  split
  · exact h
  · exact h'

theorem map (h : Tied R r r') (f : α → β) : Tied R (f r.1, r.2) (f r'.1, r'.2) :=
  ⟨congrArg f h.answer, h.states⟩

theorem mono {S : σ → τ → Prop} (h : Tied R r r') (hRS : R r.2 r'.2 → S r.2 r'.2) :
    Tied S r r' :=
  ⟨h.answer, hRS h.states⟩

end Tied

/-- Steps that are tied from related states keep related states related. -/
theorem iterate {step : σ → α × σ} {step' : τ → α × τ}
    (hstep : ∀ s s', R s s' → Tied R (step s) (step' s')) {s : σ} {s' : τ} (h : R s s') (n : ℕ) :
    R ((fun s ↦ (step s).2)^[n] s) ((fun s ↦ (step' s).2)^[n] s') := by
  induction n generalizing s s' with
  | zero => exact h
  | succ n ih => exact ih (hstep s s' h).states

end Lockstep
