import Mathlib.Data.List.Infix
import Mathlib.Logic.Function.Basic

/-!
# Sequences of writes

A memory is a function, a write replaces one of its values, and of several writes to one address the
last one stands.  A sequence of writes that is broken off and then made again from the beginning is
as if it had not been broken off (`apply_of_isPrefix`).
-/

set_option autoImplicit false

namespace Writes

variable {α β : Type} [DecidableEq α]

/-- The memory after a sequence of writes. -/
def apply (m : α → β) (l : List (α × β)) : α → β :=
  l.foldl (fun m w ↦ Function.update m w.1 w.2) m

theorem apply_append (m : α → β) (l l' : List (α × β)) :
    apply m (l ++ l') = apply (apply m l) l' :=
  List.foldl_append

/-- The writes to other addresses do not matter. -/
theorem apply_of_notMem {x : α} {l : List (α × β)} (h : x ∉ l.map Prod.fst) (m : α → β) :
    apply m l x = m x := by
  induction l generalizing m with
  | nil => rfl
  | cons w l ih =>
    rw [List.map_cons, List.mem_cons, not_or] at h
    calc apply m (w :: l) x = Function.update m w.1 w.2 x := ih h.2 _
      _ = m x := Function.update_of_ne h.1 _ _

/-- The value at an address that is written does not depend on the memory. -/
theorem apply_of_mem {x : α} {l : List (α × β)} (h : x ∈ l.map Prod.fst) (m m' : α → β) :
    apply m l x = apply m' l x := by
  induction l generalizing m m' with
  | nil => cases h
  | cons w l ih =>
    by_cases hx : x ∈ l.map Prod.fst
    · exact ih hx _ _
    · rw [List.map_cons, List.mem_cons] at h
      obtain rfl : x = w.1 := h.resolve_right hx
      calc apply m (w :: l) w.1 = Function.update m w.1 w.2 w.1 := apply_of_notMem hx _
        _ = Function.update m' w.1 w.2 w.1 := by rw [Function.update_self, Function.update_self]
        _ = apply m' (w :: l) w.1 := (apply_of_notMem hx _).symm

/-- Where two memories agree they agree after the same writes. -/
theorem apply_congr {x : α} {m m' : α → β} (h : m x = m' x) (l : List (α × β)) :
    apply m l x = apply m' l x := by
  by_cases hx : x ∈ l.map Prod.fst
  · exact apply_of_mem hx m m'
  · rw [apply_of_notMem hx, apply_of_notMem hx, h]

/-- **Starting over**: writes that were made already may be made again, if everything that follows
them is made again as well. -/
theorem apply_of_isPrefix {l l' : List (α × β)} (h : l <+: l') (m : α → β) :
    apply (apply m l) l' = apply m l' := by
  funext x
  by_cases hx : x ∈ l'.map Prod.fst
  · exact apply_of_mem hx _ m
  · have hl : x ∉ l.map Prod.fst := fun hin ↦ hx ((h.map Prod.fst).subset hin)
    rw [apply_of_notMem hx, apply_of_notMem hx, apply_of_notMem hl]

end Writes
