import Mathlib.Tactic.Common

/-!
# Dialogues with an environment

`Dialogue ι ρ α` is a computation that makes requests in `ι`, is answered by replies in `ρ`, and
ends with a value in `α`.  An environment is a function `σ → ι → ρ × σ` on its own states; `run` is
what the program computes in it, and `calls` is the list of the requests it makes there.

What is proved about a program without looking inside it rests on invariants of the environment
(`run_invariant`), which only speak of the requests that are really made.  `Related` compares two
programs: they make the same requests and differ in the values they carry along.
-/

set_option autoImplicit false

inductive Dialogue (ι ρ α : Type)
  | pure (value : α)
  | call (request : ι) (next : ρ → Dialogue ι ρ α)

namespace Dialogue

variable {ι ρ α β σ τ : Type}

protected def bind (p : Dialogue ι ρ α) (f : α → Dialogue ι ρ β) : Dialogue ι ρ β :=
  match p with
  | pure value => f value
  | call request next => call request fun reply ↦ (next reply).bind f

instance : Monad (Dialogue ι ρ) where
  pure := Dialogue.pure
  bind := Dialogue.bind

/-- One request, answered by its reply. -/
def ask (request : ι) : Dialogue ι ρ ρ := call request .pure

/-- The value the program ends with, and the environment afterwards. -/
def run (step : σ → ι → ρ × σ) : Dialogue ι ρ α → σ → α × σ
  | pure value, s => (value, s)
  | call request next, s => (next (step s request).1).run step (step s request).2

/-- The requests the program makes, in order. -/
def calls (step : σ → ι → ρ × σ) : Dialogue ι ρ α → σ → List ι
  | pure _, _ => []
  | call request next, s =>
    request :: (next (step s request).1).calls step (step s request).2

section Equations

variable (step : σ → ι → ρ × σ) (s : σ)

@[simp] theorem run_pure (value : α) :
    (Pure.pure value : Dialogue ι ρ α).run step s = (value, s) := (rfl)

@[simp] theorem calls_pure (value : α) :
    (Pure.pure value : Dialogue ι ρ α).calls step s = [] := (rfl)

@[simp] theorem run_ask (request : ι) :
    (ask request : Dialogue ι ρ ρ).run step s = step s request := (rfl)

@[simp] theorem calls_ask (request : ι) :
    (ask request : Dialogue ι ρ ρ).calls step s = [request] := (rfl)

@[simp] theorem run_bind (p : Dialogue ι ρ α) (f : α → Dialogue ι ρ β) :
    (p >>= f).run step s = (f (p.run step s).1).run step (p.run step s).2 := by
  show (p.bind f).run step s = _
  induction p generalizing s with
  | pure value => rfl
  | call request next ih => exact ih _ _

@[simp] theorem calls_bind (p : Dialogue ι ρ α) (f : α → Dialogue ι ρ β) :
    (p >>= f).calls step s =
      p.calls step s ++ (f (p.run step s).1).calls step (p.run step s).2 := by
  show (p.bind f).calls step s = _
  induction p generalizing s with
  | pure value => rfl
  | call request next ih => exact congrArg (request :: ·) (ih _ _)

theorem run_ite (c : Prop) [Decidable c] (p q : Dialogue ι ρ α) :
    (if c then p else q).run step s = if c then p.run step s else q.run step s := by
  split <;> rfl

theorem calls_ite (c : Prop) [Decidable c] (p q : Dialogue ι ρ α) :
    (if c then p else q).calls step s = if c then p.calls step s else q.calls step s := by
  split <;> rfl

end Equations

section Rules

variable {step : σ → ι → ρ × σ} {P : ι → Prop}

/-- What every request of the kind made preserves holds when the dialogue ends. -/
theorem run_invariant {I : σ → Prop} (hstep : ∀ s i, I s → P i → I (step s i).2)
    (p : Dialogue ι ρ α) {s : σ} (hs : I s) (hp : ∀ i ∈ p.calls step s, P i) :
    I (p.run step s).2 := by
  induction p generalizing s with
  | pure value => exact hs
  | call request next ih =>
    rw [calls, List.forall_mem_cons] at hp
    exact ih _ (hstep s request hs hp.1) hp.2

end Rules

/-! ### Related programs -/

/-- The programs make the same requests, and given the same replies they end with related values. -/
inductive Related (R : α → β → Prop) : Dialogue ι ρ α → Dialogue ι ρ β → Prop
  | pure {a : α} {b : β} (h : R a b) : Related R (.pure a) (.pure b)
  | call (request : ι) {p : ρ → Dialogue ι ρ α} {q : ρ → Dialogue ι ρ β}
      (h : ∀ reply, Related R (p reply) (q reply)) : Related R (.call request p) (.call request q)

namespace Related

variable {α' β' : Type} {R : α → β → Prop} {S : α' → β' → Prop}

theorem refl {R : α → α → Prop} (h : ∀ a, R a a) (p : Dialogue ι ρ α) : Related R p p := by
  induction p with
  | pure value => exact .pure (h value)
  | call request next ih => exact .call request ih

theorem mono {R' : α → β → Prop} {p : Dialogue ι ρ α} {q : Dialogue ι ρ β} (h : Related R p q)
    (hR : ∀ {a b}, R a b → R' a b) : Related R' p q := by
  induction h with
  | pure h => exact .pure (hR h)
  | call request _ ih => exact .call request ih

theorem value {a : α} {b : β} (h : R a b) :
    Related R (Pure.pure a : Dialogue ι ρ α) (Pure.pure b) := .pure h

theorem bind {p : Dialogue ι ρ α} {q : Dialogue ι ρ β} {f : α → Dialogue ι ρ α'}
    {g : β → Dialogue ι ρ β'} (h : Related R p q) (hnext : ∀ a b, R a b → Related S (f a) (g b)) :
    Related S (p >>= f) (q >>= g) := by
  induction h with
  | pure h => exact hnext _ _ h
  | call request _ ih => exact .call request ih

/-- After the same program. -/
theorem after (p : Dialogue ι ρ α) {f : α → Dialogue ι ρ α'} {g : α → Dialogue ι ρ β'}
    (hnext : ∀ a, Related S (f a) (g a)) : Related S (p >>= f) (p >>= g) :=
  (refl (R := Eq) (fun _ ↦ rfl) p).bind fun a _ h ↦ h ▸ hnext a

theorem ite {c : Prop} [Decidable c] {p p' : Dialogue ι ρ α} {q q' : Dialogue ι ρ β}
    (h : c → Related R p q) (h' : ¬ c → Related R p' q') :
    Related R (if c then p else p') (if c then q else q') := by
  split
  · next hc => exact h hc
  · next hc => exact h' hc

/-- Related programs do the same to every environment. -/
theorem run {p : Dialogue ι ρ α} {q : Dialogue ι ρ β} (h : Related R p q) (step : σ → ι → ρ × σ)
    (s : σ) : R (p.run step s).1 (q.run step s).1 ∧ (q.run step s).2 = (p.run step s).2 ∧
      q.calls step s = p.calls step s := by
  induction h generalizing s with
  | pure h => exact ⟨h, rfl, rfl⟩
  | call request _ ih =>
    obtain ⟨hvalue, hstate, hcalls⟩ := ih (step s request).1 (step s request).2
    exact ⟨hvalue, hstate, congrArg (request :: ·) hcalls⟩

end Related

end Dialogue
