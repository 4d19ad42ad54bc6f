import Mathlib.Data.List.Induction
import Mathlib.Tactic.Common

/-!
# Reservation monitors

A reservation is made at a place, is used up by the attempt to use it, and is lost to a write that
touches it.  What is still reserved after a history of such notes can be said in two ways: `held`
goes through the history with the reservation in hand, and `Reserved` looks back for the note that
made it.  They agree (`held_eq_some_iff`).

Places and writes are of any type; `touches` says which writes a reservation does not survive.
-/

set_option autoImplicit false

namespace Monitor

variable {α ω : Type}

/-- What a monitor takes note of. -/
inductive Note (α ω : Type)
  | reserved (place : α)
  | attempted
  | written (write : ω)

variable (touches : ω → α → Bool)

/-- The reservation after one more note. -/
def observe (held : Option α) : Note α ω → Option α
  | .reserved place => some place
  | .attempted => none
  | .written write => held.filter fun place ↦ !touches write place

/-- What is reserved after a history. -/
def held (notes : List (Note α ω)) : Option α := notes.foldl (observe touches) none

/-- A note that a reservation of this place survives. -/
def Spares (place : α) (note : Note α ω) : Prop := ∃ write,
    note = .written write ∧ touches write place = false

/-- The place was reserved last, and everything noted since spared it. -/
def Reserved (notes : List (Note α ω)) (place : α) : Prop :=
  ∃ before since, notes = before ++ .reserved place :: since ∧ ∀ note ∈ since,
    Spares touches place note

variable {touches}

@[simp] theorem held_append (first later : List (Note α ω)) :
    held touches (first ++ later) = later.foldl (observe touches) (held touches first) :=
  List.foldl_append

theorem observe_eq_some_iff {held : Option α} {note : Note α ω} {place : α} :
    observe touches held note = some place ↔
      note = .reserved place ∨ held = some place ∧ Spares touches place note := by
  cases note with
  | reserved place' => simp [observe, Spares]
  | attempted => simp [observe, Spares]
  | written write => simp [observe, Spares, Option.filter_eq_some_iff]

theorem reserved_concat_iff {notes : List (Note α ω)} {note : Note α ω} {place : α} :
    Reserved touches (notes ++ [note]) place ↔
      note = .reserved place ∨ Reserved touches notes place ∧ Spares touches place note := by
  constructor
  · rintro ⟨before, since, heq, hsince⟩
    rcases List.eq_nil_or_concat since with rfl | ⟨since', last, rfl⟩
    · exact Or.inl (List.concat_inj.1 (by simpa using heq)).2
    · rw [List.concat_eq_append, ← List.cons_append, ← List.append_assoc] at heq
      obtain ⟨rfl, hlast⟩ := List.append_inj' heq rfl
      obtain rfl := List.singleton_inj.1 hlast
      refine Or.inr ⟨⟨before, since', rfl, fun n hn ↦ ?_⟩, ?_⟩
      · exact hsince n (by simp [hn])
      · exact hsince note (by simp)
  · rintro (rfl | ⟨⟨before, since, rfl, hsince⟩, hspares⟩)
    · exact ⟨notes, [], rfl, by simp⟩
    · refine ⟨before, since ++ [note], by simp, fun n hn ↦ ?_⟩
      rcases List.mem_append.1 hn with hold | hlast
      · exact hsince n hold
      · rwa [List.mem_singleton.1 hlast]

/-- Going through the history and looking back into it say the same. -/
theorem held_eq_some_iff {notes : List (Note α ω)} {place : α} :
    held touches notes = some place ↔ Reserved touches notes place := by
  induction notes using List.reverseRecOn with
  | nil =>
    refine iff_of_false nofun ?_
    rintro ⟨before, since, heq, -⟩
    simp at heq
  | append_singleton notes note ih =>
    rw [held_append, reserved_concat_iff, ← ih]
    exact observe_eq_some_iff

/-- A reservation that was attempted is gone until another is made. -/
theorem not_reserved_of_attempted {first later : List (Note α ω)}
    (hlater : ∀ place, Note.reserved place ∉ later) (place : α) :
    ¬ Reserved touches (first ++ .attempted :: later) place := by
  induction later using List.reverseRecOn with
  | nil =>
    rw [reserved_concat_iff]
    rintro (h | ⟨-, write, h, -⟩) <;> cases h
  | append_singleton later note ih =>
    rw [← List.cons_append, ← List.append_assoc, reserved_concat_iff]
    rintro (rfl | ⟨h, -⟩)
    · exact hlater place (by simp)
    · exact ih (fun place hmem ↦ hlater place (by simp [hmem])) h

end Monitor
