import Rvemu.Lib.Dialogue

/-!
# What a dialogue ensures

`p.Ensures step s Q` says how a dialogue that starts in the environment `s` ends: with a value and
an environment in `Q`.  The rules follow the construction of the program, so that a program is gone
through from its first request to its last, with what is known of the environment at each of them.
-/

set_option autoImplicit false

namespace Dialogue

variable {ι ρ α β σ : Type} {step : σ → ι → ρ × σ}

/-- The dialogue ends with a value and an environment in `Q`. -/
def Ensures (step : σ → ι → ρ × σ) (p : Dialogue ι ρ α) (s : σ) (Q : α → σ → Prop) : Prop :=
  Q (p.run step s).1 (p.run step s).2

namespace Ensures

variable {s : σ} {Q : α → σ → Prop}

theorem pure {value : α} (h : Q value s) :
    Ensures step (Pure.pure value : Dialogue ι ρ α) s Q := h

theorem ask {request : ι} {Q : ρ → σ → Prop} (h : Q (step s request).1 (step s request).2) :
    Ensures step (ask request) s Q := h

/-- One after the other. -/
theorem bind {p : Dialogue ι ρ α} {f : α → Dialogue ι ρ β} {Q' : β → σ → Prop}
    (h : Ensures step p s Q) (hnext : ∀ value t, Q value t → Ensures step (f value) t Q') :
    Ensures step (p >>= f) s Q' := by
  rw [Ensures, run_bind]
  exact hnext _ _ h

end Ensures

end Dialogue
