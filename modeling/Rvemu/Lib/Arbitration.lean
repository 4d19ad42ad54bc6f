import Mathlib.Data.List.Induction
import Mathlib.Order.Basic
import Mathlib.Tactic.Common
import Mathlib.Order.Lattice

/-!
# Arbitration by a scan

A scan over the requesters in ascending order keeps the best one seen so far and replaces it only by
a strictly better one.  What it ends with is the winner: a requester of maximal rank, and the
smallest of those.  `idle` is the value that stands for no requester; it is not one itself.
-/

set_option autoImplicit false

namespace Arbitration

variable {α κ : Type} [LinearOrder α] [LinearOrder κ]

/-- One step of the scan. -/
def better (idle : α) (requests : α → Bool) (rank : α → κ) (selected a : α) : α :=
  if !requests a then selected
  else if selected = idle ∨ rank selected < rank a then a
  else selected

def arbitrate (idle : α) (requests : α → Bool) (rank : α → κ) (l : List α) : α :=
  l.foldl (better idle requests rank) idle

/-- `a` requests, and comes before every other requester: by rank first, then by its place. -/
structure Winner (requests : α → Bool) (rank : α → κ) (l : List α) (a : α) : Prop where
  mem : a ∈ l
  wants : requests a = true
  first : ∀ b ∈ l, requests b = true → rank b < rank a ∨ rank b = rank a ∧ a ≤ b

variable {idle : α} {requests : α → Bool} {rank : α → κ} {l : List α}

/-- The requesters seen so far, or the lack of any, is what the scan knows. -/
theorem arbitrate_cases (hidle : idle ∉ l) (hsorted : l.Pairwise (· < ·)) :
    (arbitrate idle requests rank l = idle ∧ ∀ a ∈ l, requests a = false) ∨
      Winner requests rank l (arbitrate idle requests rank l) := by
  induction l using List.reverseRecOn with
  | nil => exact Or.inl ⟨rfl, nofun⟩
  | append_singleton seen a ih =>
    rw [List.pairwise_append] at hsorted
    obtain ⟨hseen, -, hlast⟩ := hsorted
    have hbefore (b : α) (hb : b ∈ seen) : b < a := hlast b hb a (List.mem_singleton_self a)
    have hne : idle ∉ seen := fun h ↦ hidle (List.mem_append_left _ h)
    rw [arbitrate, List.foldl_append, List.foldl_cons, List.foldl_nil, ← arbitrate, better]
    cases ha : requests a with
    | false =>
      refine (ih hne hseen).imp (fun h ↦ ⟨h.1, fun b hb ↦ ?_⟩) fun h ↦
        ⟨List.mem_append_left _ h.mem, h.wants, fun b hb hreq ↦ ?_⟩
      · rcases List.mem_append.1 hb with hb | hb
        · exact h.2 b hb
        · rwa [List.mem_singleton.1 hb]
      · rcases List.mem_append.1 hb with hb | hb
        · exact h.first b hb hreq
        · rw [List.mem_singleton.1 hb, ha] at hreq
          cases hreq
    | true =>
      have hself : a ∈ seen ++ [a] := List.mem_append_right _ (List.mem_singleton_self a)
      refine Or.inr ?_
      rw [Bool.not_true, if_neg Bool.false_ne_true]
      rcases ih hne hseen with ⟨hnone, hno⟩ | hwinner
      · rw [if_pos (Or.inl hnone)]
        refine ⟨hself, ha, fun b hb hreq ↦ ?_⟩
        rcases List.mem_append.1 hb with hb | hb
        · rw [hno b hb] at hreq
          cases hreq
        · rw [List.mem_singleton.1 hb]
          exact Or.inr ⟨rfl, le_rfl⟩
      · split
        · next hreplace =>
          have hlt := hreplace.resolve_left fun h ↦ hne (h ▸ hwinner.mem)
          refine ⟨hself, ha, fun b hb hreq ↦ ?_⟩
          rcases List.mem_append.1 hb with hb | hb
          · refine Or.inl ?_
            rcases hwinner.first b hb hreq with h | ⟨h, -⟩
            · exact h.trans hlt
            · rwa [h]
          · rw [List.mem_singleton.1 hb]
            exact Or.inr ⟨rfl, le_rfl⟩
        · next hkeep =>
          refine ⟨List.mem_append_left _ hwinner.mem, hwinner.wants, fun b hb hreq ↦ ?_⟩
          rcases List.mem_append.1 hb with hb | hb
          · exact hwinner.first b hb hreq
          · obtain rfl := List.mem_singleton.1 hb
            rcases lt_trichotomy (rank b) (rank (arbitrate idle requests rank seen)) with h | h | h
            · exact Or.inl h
            -- a tie goes to the one that was there first
            · exact Or.inr ⟨h, (hbefore _ hwinner.mem).le⟩
            · exact absurd (Or.inr h) hkeep

theorem arbitrate_eq_idle_iff (hidle : idle ∉ l) (hsorted : l.Pairwise (· < ·)) :
    arbitrate idle requests rank l = idle ↔ ∀ a ∈ l, requests a = false := by
  obtain ⟨h, hno⟩ | h : _ ∨ Winner requests rank l _ := arbitrate_cases hidle hsorted
  · exact iff_of_true h hno
  · refine iff_of_false (fun he ↦ hidle (he ▸ h.mem)) fun hno ↦ ?_
    have hwants := h.wants
    rw [hno _ h.mem] at hwants
    cases hwants

theorem arbitrate_winner (hidle : idle ∉ l) (hsorted : l.Pairwise (· < ·))
    (h : arbitrate idle requests rank l ≠ idle) :
    Winner requests rank l (arbitrate idle requests rank l) :=
  (arbitrate_cases hidle hsorted).resolve_left fun hno ↦ h hno.1

end Arbitration
