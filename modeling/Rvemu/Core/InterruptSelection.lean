import Rvemu.Core.CsrLemmas

/-!
# Interrupt selection

What selection is for is stated first: among the interrupts that can be taken now, those for machine
mode come before those for supervisor mode, and within one target the fixed order of causes decides.
`selectPendingInterrupt` makes a single pass in the order of causes, whatever the targets.  The two
agree exactly when no delegated interrupt is met before the first one for machine mode.
-/

set_option autoImplicit false

namespace Rvemu

/-! ## What is to be selected -/

namespace CsrFile

/-- MEI, MSI, MTI, SEI, SSI, STI. -/
def causeOrder : InterruptCause → ℕ
  | .machineExternal => 0
  | .machineSoftware => 1
  | .machineTimer => 2
  | .supervisorExternal => 3
  | .supervisorSoftware => 4
  | .supervisorTimer => 5

def delegated (c : CsrFile) (cause : InterruptCause) : Bool := c.mideleg.getLsbD cause.code

/-- The mode a cause is delegated to. -/
def delegationTarget (c : CsrFile) (cause : InterruptCause) : PrivilegeMode :=
  if c.delegated cause then .supervisor else .machine

/-- Pending, locally enabled, and not held back by the global enable of its target. -/
def takeable (c : CsrFile) (current : PrivilegeMode) (cause : InterruptCause) : Bool :=
  c.mip.getLsbD cause.code && c.mie.getLsbD cause.code &&
    (if c.delegated cause then
      current == .user || (current == .supervisor && c.mstatus.getLsbD 1)
    else current != .machine || c.mstatus.getLsbD 3)

/-- Does an interrupt for this target and cause come before another one? -/
def Precedes (c : CsrFile) (cause other : InterruptCause) : Prop :=
  (c.delegated cause = false ∧ c.delegated other = true) ∨
  (c.delegated cause = c.delegated other ∧ causeOrder cause ≤ causeOrder other)

/-- Nothing is selected exactly when nothing can be taken; what is selected precedes everything else
that can be, and goes to the mode it is delegated to. -/
def SelectionCorrect (c : CsrFile) (current : PrivilegeMode) : Option PendingInterrupt → Prop
  | none => ∀ cause, c.takeable current cause = false
  | some selected =>
    c.takeable current selected.cause = true ∧
      selected.target = c.delegationTarget selected.cause ∧
        ∀ cause, c.takeable current cause = true → c.Precedes selected.cause cause

/-- When something can be taken by machine mode, every delegated interrupt that could be taken comes
after some such interrupt in the order of causes. -/
def MachineFirst (c : CsrFile) (current : PrivilegeMode) : Prop :=
  ∀ cause other, c.takeable current cause = true → c.delegated cause = false →
    c.takeable current other = true → c.delegated other = true →
      ∃ first, c.takeable current first = true ∧ c.delegated first = false ∧
        causeOrder first < causeOrder other

/-! ## What is selected -/

variable {c : CsrFile} {current : PrivilegeMode}

theorem receivable_eq (cause : InterruptCause) :
    c.receivable current cause =
      if c.takeable current cause then some { cause, target := c.delegationTarget cause }
      else none := by
  have hcode : cause.code < 64 := by cases cause <;> decide
  have himplemented : implementedInterruptMask.getLsbD cause.code = true := by
    cases cause <;> decide
  have hcandidate : ((c.mip &&& c.mie &&& implementedInterruptMask) &&& bit cause.code = 0#64) ↔
      ¬ (c.mip.getLsbD cause.code && c.mie.getLsbD cause.code) = true := by
    rw [← not_iff_not, not_not, ← ne_eq, ← bne_iff_ne, and_bit_ne_zero _ hcode,
      BitVec.getLsbD_and, BitVec.getLsbD_and, himplemented, Bool.and_true]
  rw [receivable, takeable, delegationTarget, delegated]
  rw [and_bit_ne_zero _ hcode, and_bit_ne_zero _ (by decide), and_bit_ne_zero _ (by decide)]
  by_cases hc : (c.mip.getLsbD cause.code && c.mie.getLsbD cause.code) = true
  · rw [if_neg (hcandidate.not.2 (not_not.2 hc)), hc, Bool.true_and]
    cases c.mideleg.getLsbD cause.code with
    | true => cases current <;> simp
    | false => cases current <;> simp
  · rw [if_pos (hcandidate.2 hc), Bool.eq_false_iff.2 hc, Bool.false_and]
    rfl

theorem interruptPriority_sorted :
    interruptPriority.Pairwise fun a b ↦ causeOrder a < causeOrder b := by
  decide

theorem mem_interruptPriority (cause : InterruptCause) : cause ∈ interruptPriority := by
  cases cause <;> decide

/-- The pass ends at the first cause, in their order, that can be taken. -/
theorem selectPendingInterrupt_eq_some {selected : PendingInterrupt}
    (h : c.selectPendingInterrupt current = some selected) :
    c.takeable current selected.cause = true ∧
      selected.target = c.delegationTarget selected.cause ∧
        ∀ cause, c.takeable current cause = true →
        causeOrder selected.cause ≤ causeOrder cause := by
  obtain ⟨before, cause, after, hlist, hcause, hnone⟩ := List.findSome?_eq_some_iff.1 h
  rw [receivable_eq] at hcause
  split at hcause
  · next htake =>
    obtain rfl := Option.some.inj hcause
    refine ⟨htake, rfl, fun other hother ↦ ?_⟩
    have hsorted := interruptPriority_sorted
    have hmem := mem_interruptPriority other
    rw [hlist] at hsorted hmem
    rcases List.mem_append.1 hmem with hbefore | hafter
    · have := hnone other hbefore
      rw [receivable_eq, if_pos hother] at this
      cases this
    · rcases List.mem_cons.1 hafter with rfl | hafter
      · exact Nat.le_refl _
      · exact Nat.le_of_lt
          (List.rel_of_pairwise_cons (List.pairwise_append.1 hsorted).2.1 hafter)
  · cases hcause

theorem selectPendingInterrupt_eq_none (h : c.selectPendingInterrupt current = none)
    (cause : InterruptCause) : c.takeable current cause = false := by
  have hnone := List.findSome?_eq_none_iff.1 h cause (mem_interruptPriority cause)
  rw [receivable_eq] at hnone
  by_contra htake
  rw [Bool.not_eq_false] at htake
  rw [if_pos htake] at hnone
  cases hnone

/-- **Selection is correct exactly when no delegated interrupt is met first.** -/
theorem selection_correct_iff (c : CsrFile) (current : PrivilegeMode) :
    c.SelectionCorrect current (c.selectPendingInterrupt current) ↔ c.MachineFirst current := by
  cases hsel : c.selectPendingInterrupt current with
  | none =>
    have hnone := selectPendingInterrupt_eq_none hsel
    refine ⟨fun _ cause other htake ↦ ?_, fun _ ↦ hnone⟩
    rw [hnone cause] at htake
    cases htake
  | some selected =>
    obtain ⟨htake, htarget, hfirst⟩ := selectPendingInterrupt_eq_some hsel
    constructor
    · rintro ⟨-, -, hprecedes⟩ cause other hcause hmachine hother hdelegated
      -- the selected interrupt must itself be for machine mode
      have hselected : c.delegated selected.cause = false := by
        rcases hprecedes cause hcause with ⟨h, -⟩ | ⟨h, -⟩
        · exact h
        · exact h.trans hmachine
      refine ⟨selected.cause, htake, hselected, Nat.lt_of_le_of_ne (hfirst other hother) ?_⟩
      intro hsame
      have hinj : ∀ a b, causeOrder a = causeOrder b → a = b := by
        intro a b
        cases a <;> cases b <;> decide
      rw [hinj _ _ hsame, hdelegated] at hselected
      cases hselected
    · intro hmf
      refine ⟨htake, htarget, fun cause hcause ↦ ?_⟩
      cases hd : c.delegated selected.cause with
      | false =>
        cases hd' : c.delegated cause with
        | false => exact Or.inr ⟨hd.trans hd'.symm, hfirst cause hcause⟩
        | true => exact Or.inl ⟨hd, hd'⟩
      | true =>
        cases hd' : c.delegated cause with
        | true => exact Or.inr ⟨hd.trans hd'.symm, hfirst cause hcause⟩
        | false =>
          -- then the pass would have ended before the selected one
          obtain ⟨first, hft, -, hlt⟩ := hmf cause selected.cause hcause hd' htake hd
          exact absurd (hfirst first hft) (Nat.not_le.2 hlt)

/-- SEI delegated, STI not, both pending and enabled, in user mode. -/
def mixedDelegation : CsrFile where
  mip := bit 9 ||| bit 5
  mie := bit 9 ||| bit 5
  mideleg := bit 9

/-- The delegated SEI is selected although STI is for machine mode. -/
theorem selection_not_machine_first :
    ¬ mixedDelegation.SelectionCorrect .user (mixedDelegation.selectPendingInterrupt .user) := by
  have hsel : mixedDelegation.selectPendingInterrupt .user =
      some { cause := .supervisorExternal, target := .supervisor } := by decide
  rw [hsel]
  rintro ⟨-, -, hprecedes⟩
  rcases hprecedes .supervisorTimer (by decide) with ⟨h, -⟩ | ⟨h, -⟩
  · exact absurd h (by decide)
  · exact absurd h (by decide)

end CsrFile

end Rvemu
