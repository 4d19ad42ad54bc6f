import Mathlib.Tactic.Common

/-!
# Runs of a deterministic system

A system is a function `step : σ → ε → σ` from a state and an event to the next state, and a run is
a list of events.  `Along` says that every event of a run meets a condition on the state it happens
in; it is how assumptions on the environment are stated.

The rules below turn what one event preserves into what a run preserves, and what one event keeps
alike in two systems into what their runs do.
-/

set_option autoImplicit false

namespace Runs

variable {σ τ ε β : Type} (step : σ → ε → σ)

/-- The state after the events. -/
def run (s : σ) (events : List ε) : σ := events.foldl step s

/-- Every event happens in a state that `R` relates it to. -/
def Along (R : σ → ε → Prop) : σ → List ε → Prop
  | _, [] => True
  | s, e :: events => R s e ∧ Along R (step s e) events

instance decidableAlong (R : σ → ε → Prop) [∀ s e, Decidable (R s e)] :
    (events : List ε) → (s : σ) → Decidable (Along step R s events)
  | [], _ => inferInstanceAs (Decidable True)
  | e :: events, s =>
    have := decidableAlong R events (step s e)
    inferInstanceAs (Decidable (_ ∧ _))

/-- What is seen of the events. -/
def outputs (out : σ → ε → β) : σ → List ε → List β
  | _, [] => []
  | s, e :: events => out s e :: outputs out (step s e) events

@[simp] theorem run_nil (s : σ) : run step s [] = s := (rfl)

@[simp] theorem run_cons (s : σ) (e : ε) (events : List ε) :
    run step s (e :: events) = run step (step s e) events := (rfl)

@[simp] theorem run_append (s : σ) (first later : List ε) :
    run step s (first ++ later) = run step (run step s first) later :=
  List.foldl_append

variable {step}

theorem along_append {R : σ → ε → Prop} {s : σ} {first later : List ε} :
    Along step R s (first ++ later) ↔ Along step R s first ∧
    Along step R (run step s first) later := by
  induction first generalizing s with
  | nil => exact (and_iff_right trivial).symm
  | cons e first ih => exact (and_congr_right fun _ ↦ ih).trans and_assoc.symm

theorem along_of_forall {R : σ → ε → Prop} {events : List ε}
    (h : ∀ e ∈ events, ∀ s, R s e) (s : σ) :
    Along step R s events := by
  induction events generalizing s with
  | nil => trivial
  | cons e events ih =>
    exact ⟨h e List.mem_cons_self s, ih (fun e he ↦ h e (List.mem_cons_of_mem _ he)) _⟩

theorem Along.and {R R' : σ → ε → Prop} {s : σ} {events : List ε} (h : Along step R s events)
    (h' : Along step R' s events) : Along step (fun s e ↦ R s e ∧ R' s e) s events := by
  induction events generalizing s with
  | nil => trivial
  | cons e events ih => exact ⟨⟨h.1, h'.1⟩, ih h.2 h'.2⟩

theorem Along.mono {R R' : σ → ε → Prop} (h : ∀ s e, R s e → R' s e) {s : σ} {events : List ε}
    (halong : Along step R s events) : Along step R' s events := by
  induction events generalizing s with
  | nil => trivial
  | cons e events ih => exact ⟨h s e halong.1, ih halong.2⟩

/-- What holds after a run and did not before became true with one of the events. -/
theorem exists_turn {P : σ → Prop} {s : σ} {events : List ε} (hbefore : ¬ P s)
    (hafter : P (run step s events)) : ∃ first e rest, events = first ++ e :: rest ∧
      ¬ P (run step s first) ∧ P (run step s (first ++ [e])) := by
  induction events generalizing s with
  | nil => exact absurd hafter hbefore
  | cons e events ih =>
    by_cases hnow : P (step s e)
    · exact ⟨[], e, events, rfl, hbefore, hnow⟩
    · obtain ⟨first, e', rest, rfl, hnot, hturn⟩ := ih hnow hafter
      exact ⟨e :: first, e', rest, rfl, hnot, hturn⟩

/-- What the allowed events preserve holds after every allowed run. -/
theorem run_invariant {I : σ → Prop} {R : σ → ε → Prop}
    (hstep : ∀ s e, I s → R s e → I (step s e)) {s : σ} {events : List ε} (h : I s)
    (halong : Along step R s events) : I (run step s events) := by
  induction events generalizing s with
  | nil => exact h
  | cons e events ih => exact ih (hstep s e h halong.1) halong.2

/-- What every event preserves holds after every run. -/
theorem run_induction {I : σ → Prop} (hstep : ∀ s e, I s → I (step s e)) {s : σ} (h : I s)
    (events : List ε) : I (run step s events) := by
  induction events generalizing s with
  | nil => exact h
  | cons e events ih => exact ih (hstep s e h)

/-- What every event of a kind preserves holds after every run of such events. -/
theorem run_induction_on {I : σ → Prop} {p : ε → Prop}
    (hstep : ∀ s e, p e → I s → I (step s e)) {s : σ}
    (h : I s) {events : List ε} (hp : ∀ e ∈ events, p e) : I (run step s events) := by
  induction events generalizing s with
  | nil => exact h
  | cons e events ih =>
    refine ih (hstep s e (hp e List.mem_cons_self) h) fun e' he' ↦ hp e' ?_
    exact List.mem_cons_of_mem _ he'

/-- Conditions that agree where an invariant holds are met by the same runs. -/
theorem along_congr {I : σ → Prop} {R R' : σ → ε → Prop}
    (hstep : ∀ s e, I s → I (step s e)) (hcongr : ∀ s e, I s → (R s e ↔ R' s e)) {s : σ} (h : I s)
    {events : List ε} : Along step R s events ↔ Along step R' s events := by
  induction events generalizing s with
  | nil => exact Iff.rfl
  | cons e events ih => exact and_congr (hcongr s e h) (ih (hstep s e h))

/-- What no allowed event changes is the same after every allowed run. -/
theorem run_unchanged {f : σ → β} {I : σ → Prop} {R : σ → ε → Prop}
    (hstep : ∀ s e, I s → I (step s e))
    (hsame : ∀ s e, I s → R s e → f (step s e) = f s) {s : σ} {events : List ε} (h : I s)
    (halong : Along step R s events) : f (run step s events) = f s := by
  induction events generalizing s with
  | nil => rfl
  | cons e events ih => exact (ih (hstep s e h) halong.2).trans (hsame s e h halong.1)

/-- In two systems whose allowed events keep related states related and look the same, runs look the
same. -/
theorem run_simulation {step' : τ → ε → τ} {out : σ → ε → β} {out' : τ → ε → β} {I : σ → τ → Prop}
    {R : σ → ε → Prop}
    (hstep : ∀ s t e, I s t → R s e → out' t e = out s e ∧ I (step s e) (step' t e)) {s : σ} {t : τ}
    {events : List ε} (h : I s t) (halong : Along step R s events) :
    outputs step' out' t events = outputs step out s events ∧
      I (run step s events) (run step' t events) := by
  induction events generalizing s t with
  | nil => exact ⟨rfl, h⟩
  | cons e events ih =>
    obtain ⟨hout, hnext⟩ := hstep s t e h halong.1
    obtain ⟨houts, hend⟩ := ih hnext halong.2
    rw [outputs, outputs, hout, houts]
    exact ⟨rfl, hend⟩

end Runs
