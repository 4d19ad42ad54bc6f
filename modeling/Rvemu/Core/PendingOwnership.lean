import Rvemu.Core.CsrViews
import Rvemu.Core.InterruptSelection

/-!
# Who owns the pending bits

Software and the devices share one `mip` word.  A `PendingLedger` notes next to the CSR file what
software last wrote to the two software bits, SSIP and STIP, and what the CLINT and the PLIC last
drove.

STIP is where the code and the law part: it is meant to be machine software's, but no write to `mip`
reaches it.  The ledger and the file agree exactly as long as nobody tries.
-/

set_option autoImplicit false

namespace Rvemu

attribute [local instance] Plic.neZero_contexts

structure PendingLedger where
  csrs : CsrFile := {}
  ssip : Bool := false
  stip : Bool := false
  msip : Bool := false
  mtip : Bool := false
  seip : Bool := false
  meip : Bool := false

/-! ## Who writes `mip` -/

namespace CsrFile

variable (c : CsrFile)

theorem mip_writeValue {address : CsrAddress} (hmip : address ≠ .mip) (hsip : address ≠ .sip)
    (value : BitVec 64) : (c.writeValue address value).mip = c.mip := by
  cases address with
  | mip => exact absurd rfl hmip
  | sip => exact absurd rfl hsip
  | fflags | frm | fcsr =>
    rw [writeValue, markFloatingStateDirty_eq]
  | vstart | vxsat | vxrm | vcsr =>
    rw [writeValue, markVectorStateDirty_eq]
  | satp =>
    rw [writeValue]
    split <;> rfl
  | _ => rfl

theorem getLsbD_mip_setInterruptPending (cause : InterruptCause) (pending : Bool) (i : ℕ) :
    (c.setInterruptPending cause pending).mip.getLsbD i =
      if i = cause.code then pending else c.mip.getLsbD i := by
  have hcode : cause.code < 64 := by cases cause <;> decide
  have hmask : bit cause.code &&& implementedInterruptMask = bit cause.code := by
    cases cause <;> decide
  rw [← getLsbD_assign _ hcode]
  rw [setInterruptPending, hmask]
  rfl

/-- Machine software reaches SSIP only. -/
theorem getLsbD_mip_write_mip (value : BitVec 64) (i : ℕ) :
    (c.writeValue .mip value).mip.getLsbD i = if i = 1 then value.getLsbD 1
    else c.mip.getLsbD i := by
  have hmask : softwareWritablePendingMask = bit 1 := rfl
  rw [writeValue, hmask, BitVec.getLsbD_or, getLsbD_and_not_bit _ (by decide), BitVec.getLsbD_and,
    getLsbD_bit (by decide)]
  by_cases h : i = 1
  · rw [if_pos h, if_pos h, decide_eq_true h, Bool.and_true, Bool.false_or, h]
  · rw [if_neg h, if_neg h, decide_eq_false h, Bool.and_false, Bool.or_false]

/-- So does supervisor software, if SSIP is delegated. -/
theorem getLsbD_mip_write_sip (value : BitVec 64) (i : ℕ) :
    (c.writeValue .sip value).mip.getLsbD i =
      if i = 1 ∧ c.mideleg.getLsbD 1 = true then value.getLsbD 1 else c.mip.getLsbD i := by
  have hmask : (c.mideleg &&& softwareWritablePendingMask).getLsbD i =
      (c.mideleg.getLsbD i && decide (i = 1)) := by
    rw [BitVec.getLsbD_and, show softwareWritablePendingMask = bit 1 from rfl,
      getLsbD_bit (by decide)]
  rw [writeValue]
  by_cases h : i = 1 ∧ c.mideleg.getLsbD 1 = true
  · obtain ⟨rfl, hdelegated⟩ := h
    rw [if_pos ⟨rfl, hdelegated⟩, BitVec.getLsbD_or, BitVec.getLsbD_and, BitVec.getLsbD_and,
      BitVec.getLsbD_not, hmask, hdelegated]
    simp
  · rw [if_neg h]
    refine SupervisorChange.getLsbD_maskedWrite _ _ _ ?_
    rw [hmask]
    by_contra hno
    rw [Bool.not_eq_false, Bool.and_eq_true, decide_eq_true_iff] at hno
    exact h ⟨hno.2, hno.2 ▸ hno.1⟩

/-- The rest of the machine leaves `mip` alone. -/
theorem mip_event {e : CsrEvent} (haccess : ∀ request, e ≠ .access request)
    (hclint : ∀ clint, e ≠ .clint clint) (hplic : ∀ plic, e ≠ .plic plic) :
    (c.event e).mip = c.mip := by
  cases e with
  | access request => exact absurd rfl (haccess request)
  | clint clint => exact absurd rfl (hclint clint)
  | plic plic => exact absurd rfl (hplic plic)
  | accrueFloatingExceptionFlags flags =>
    rw [event, accrueFloatingExceptionFlags]
    split
    · rfl
    · rw [markFloatingStateDirty_eq]
  | markFloatingStateDirty => rw [event, markFloatingStateDirty_eq]
  | markVectorStateDirty => rw [event, markVectorStateDirty_eq]
  | setVectorStartForTrap element => rw [event, setVectorStartForTrap, markVectorStateDirty_eq]
  | clearVectorStartAfterInstruction =>
    rw [event, clearVectorStartAfterInstruction, markVectorStateDirty_eq]
  | accrueVectorSaturation saturated =>
    rw [event, accrueVectorSaturation]
    split
    · rfl
    · rw [markVectorStateDirty_eq]
  | commitVectorConfiguration vtype vl =>
    rw [event, commitVectorConfiguration, markVectorStateDirty_eq]
  | incrementCycle =>
    rw [event, incrementCycle]
    split <;> rfl
  | incrementInstret =>
    rw [event, incrementInstret]
    split <;> rfl
  | enterMachineTrap | enterSupervisorTrap | returnFromMachine | returnFromSupervisor => rfl

end CsrFile

theorem Clint.getLsbD_mip_synchronize (clint : Clint) (csrs : CsrFile) (i : ℕ) :
    ((clint.synchronize csrs).readValue .mip).getLsbD i =
      if i = 7 then decide (clint.mtimecmp ≤ clint.mtime)
      else if i = 3 then clint.msip else (csrs.readValue .mip).getLsbD i := by
  rw [synchronize, CsrFile.readValue, CsrFile.getLsbD_mip_setInterruptPending,
    CsrFile.getLsbD_mip_setInterruptPending]
  rfl

theorem Plic.getLsbD_mip_synchronize (plic : Plic) (csrs : CsrFile) (i : ℕ) :
    ((plic.synchronize csrs).readValue .mip).getLsbD i =
      if i = 9 then plic.contextPending 1
      else if i = 11 then plic.contextPending 0 else (csrs.readValue .mip).getLsbD i := by
  rw [synchronize, CsrFile.readValue, CsrFile.getLsbD_mip_setInterruptPending,
    CsrFile.getLsbD_mip_setInterruptPending]
  rfl

/-! ## The ledger -/

namespace PendingLedger

/-- Note a write of software. -/
def noteWrite (r : PendingLedger) : Option (CsrAddress × BitVec 64) → PendingLedger
  | some (.mip, value) => { r with ssip := value.getLsbD 1, stip := value.getLsbD 5 }
  | some (.sip, value) => if r.csrs.mideleg.getLsbD 1 then { r with ssip := value.getLsbD 1 } else r
  | _ => r

def step (r : PendingLedger) : CsrEvent → PendingLedger
  | .access request => { r.noteWrite (r.csrs.written request) with
      csrs := r.csrs.event (.access request) }
  | .clint clint =>
    { r with
      csrs := r.csrs.event (.clint clint), msip := clint.msip, mtip :=
      clint.mtimecmp ≤ clint.mtime }
  | .plic plic =>
    { r with
      csrs := r.csrs.event (.plic plic), meip := plic.contextPending 0, seip :=
      plic.contextPending 1 }
  | e => { r with csrs := r.csrs.event e }

/-- Every bit of `mip` reads as its owner left it. -/
structure Owned (r : PendingLedger) : Prop where
  ssip : (r.csrs.readValue .mip).getLsbD 1 = r.ssip
  stip : (r.csrs.readValue .mip).getLsbD 5 = r.stip
  msip : (r.csrs.readValue .mip).getLsbD 3 = r.msip
  mtip : (r.csrs.readValue .mip).getLsbD 7 = r.mtip
  seip : (r.csrs.readValue .mip).getLsbD 9 = r.seip
  meip : (r.csrs.readValue .mip).getLsbD 11 = r.meip

/-- A write to `mip` puts into STIP what is there already. -/
def keepsStip (r : PendingLedger) : CsrEvent → Bool
  | .access request => (r.csrs.written request).all fun w ↦
    w.1 != .mip || w.2.getLsbD 5 == (r.csrs.readValue .mip).getLsbD 5
  | _ => true

variable {r : PendingLedger}

/-- What an owner notes, without the file. -/
def notes (r : PendingLedger) : Bool × Bool × Bool × Bool × Bool × Bool :=
  (r.ssip, r.stip, r.msip, r.mtip, r.seip, r.meip)

theorem Owned.congr (h : Owned r) {r' : PendingLedger} (hmip : r'.csrs.mip = r.csrs.mip)
    (hnotes : r'.notes = r.notes) : Owned r' := by
  simp only [notes, Prod.mk.injEq] at hnotes
  obtain ⟨h₁, h₂, h₃, h₄, h₅, h₆⟩ := hnotes
  have hread : r'.csrs.readValue .mip = r.csrs.readValue .mip := hmip
  constructor <;> rw [hread]
  exacts [h.ssip.trans h₁.symm, h.stip.trans h₂.symm, h.msip.trans h₃.symm, h.mtip.trans h₄.symm,
    h.seip.trans h₅.symm, h.meip.trans h₆.symm]

/-- Only the two software bits are in question when software writes. -/
theorem Owned.access (h : Owned r) {request : CsrAccessRequest}
    (hkeeps : r.keepsStip (.access request) = true) :
    Owned (r.step (.access request)) := by
  have hmip : (r.csrs.event (.access request)) =
      (r.csrs.written request).elim r.csrs fun w ↦ r.csrs.writeValue w.1 w.2 :=
    r.csrs.access_of_written request
  rw [step, hmip]
  rw [keepsStip] at hkeeps
  cases hwritten : r.csrs.written request with
  | none => exact ⟨h.ssip, h.stip, h.msip, h.mtip, h.seip, h.meip⟩
  | some w =>
    obtain ⟨address, value⟩ := w
    by_cases haddress : address = .mip
    · subst haddress
      have hbit := r.csrs.getLsbD_mip_write_mip value
      refine ⟨hbit 1, ?_, (hbit 3).trans h.msip, (hbit 7).trans h.mtip, (hbit 9).trans h.seip,
        (hbit 11).trans h.meip⟩
      rw [hwritten] at hkeeps
      have hstip : value.getLsbD 5 = (r.csrs.readValue .mip).getLsbD 5 := by simpa using hkeeps
      exact (hbit 5).trans hstip.symm
    · by_cases hsip : address = .sip
      · subst hsip
        have hbit := r.csrs.getLsbD_mip_write_sip value
        have hother (i : ℕ) (hi : i ≠ 1) :
            (r.csrs.writeValue .sip value).mip.getLsbD i = r.csrs.mip.getLsbD i :=
          (hbit i).trans (if_neg fun hone ↦ hi hone.1)
        cases hdelegated : r.csrs.mideleg.getLsbD 1 with
        | true =>
          rw [noteWrite, hdelegated, if_pos rfl]
          refine ⟨(hbit 1).trans (if_pos ⟨rfl, hdelegated⟩), (hother 5 (by decide)).trans h.stip,
            (hother 3 (by decide)).trans h.msip, (hother 7 (by decide)).trans h.mtip,
            (hother 9 (by decide)).trans h.seip, (hother 11 (by decide)).trans h.meip⟩
        | false =>
          rw [noteWrite, hdelegated, if_neg Bool.false_ne_true]
          have hone : (r.csrs.writeValue .sip value).mip.getLsbD 1 = r.csrs.mip.getLsbD 1 := by
            rw [hbit, if_neg]
            rintro ⟨-, h⟩
            rw [hdelegated] at h
            cases h
          exact ⟨hone.trans h.ssip, (hother 5 (by decide)).trans h.stip,
            (hother 3 (by decide)).trans h.msip, (hother 7 (by decide)).trans h.mtip,
            (hother 9 (by decide)).trans h.seip, (hother 11 (by decide)).trans h.meip⟩
      · have hsame := r.csrs.mip_writeValue haddress hsip value
        have hnote : r.noteWrite (some (address, value)) = r := by
          rw [noteWrite]
          · exact fun v hv ↦ haddress (congrArg Prod.fst (Option.some.inj hv))
          · exact fun v hv ↦ hsip (congrArg Prod.fst (Option.some.inj hv))
        rw [hnote]
        exact h.congr hsame rfl

theorem Owned.clint (h : Owned r) (clint : Clint) : Owned (r.step (.clint clint)) := by
  have hbit := clint.getLsbD_mip_synchronize r.csrs
  exact ⟨(hbit 1).trans h.ssip, (hbit 5).trans h.stip, hbit 3, hbit 7, (hbit 9).trans h.seip,
    (hbit 11).trans h.meip⟩

theorem Owned.plic (h : Owned r) (plic : Plic) : Owned (r.step (.plic plic)) := by
  have hbit := plic.getLsbD_mip_synchronize r.csrs
  exact ⟨(hbit 1).trans h.ssip, (hbit 5).trans h.stip, (hbit 3).trans h.msip, (hbit 7).trans h.mtip,
    hbit 9, hbit 11⟩

theorem Owned.step (h : Owned r) {e : CsrEvent} (hkeeps : r.keepsStip e = true) :
    Owned (r.step e) := by
  cases e with
  | access request => exact h.access hkeeps
  | clint clint => exact h.clint clint
  | plic plic => exact h.plic plic
  | _ => exact h.congr (r.csrs.mip_event nofun nofun nofun) rfl

theorem owned_start : Owned {} := ⟨rfl, rfl, rfl, rfl, rfl, rfl⟩

end PendingLedger

/-! ## Delivery -/

/-- STIP is pending, delegated and enabled, supervisor interrupts can be taken, and no other
interrupt can. -/
structure SupervisorTimerDue (s : CpuState) : Prop where
  pending : (s.csrs.readValue .mip).getLsbD 5 = true
  delegated : (s.csrs.readValue .mideleg).getLsbD 5 = true
  enabled : (s.csrs.readValue .mie).getLsbD 5 = true
  mode : s.privilege = .user ∨ s.privilege = .supervisor ∧
    (s.csrs.readValue .sstatus).getLsbD 1 = true
  first : ∀ cause, cause ≠ .supervisorTimer → s.csrs.takeable s.privilege cause = false

/-- The interrupt is taken: supervisor mode goes on at its vector, with the cause and the place
noted. -/
theorem SupervisorTimerDue.delivered {c : Cpu} (h : SupervisorTimerDue c.state) :
    ∃ d, c.takePendingInterrupt.1 = some d ∧ d.interrupt = true ∧ d.cause = 5#64 ∧
      d.target = .supervisor ∧ c.takePendingInterrupt.2.state.privilege = .supervisor ∧
      c.takePendingInterrupt.2.state.programCounter =
        c.state.csrs.trapVector .supervisor true 5#64 ∧
      c.takePendingInterrupt.2.state.csrs.scause = interruptFlag ||| 5#64 ∧
      c.takePendingInterrupt.2.state.csrs.sepc = c.state.programCounter &&& epcAlignmentMask := by
  have hsie : c.state.privilege = .supervisor → c.state.csrs.mstatus.getLsbD 1 = true := by
    intro hp
    rcases h.mode with hu | ⟨-, hsie⟩
    · rw [hp] at hu
      cases hu
    · rwa [CsrFile.readValue, BitVec.getLsbD_and,
        CsrFile.getLsbD_mstatusView _ (by decide) (by decide),
        show sstatusReadMask.getLsbD 1 = true by decide, Bool.and_true] at hsie
  have hdelegated : c.state.csrs.delegated .supervisorTimer = true := h.delegated
  have htake : c.state.csrs.takeable c.state.privilege .supervisorTimer = true := by
    have hmode : (c.state.privilege == .user ||
        (c.state.privilege == .supervisor && c.state.csrs.mstatus.getLsbD 1)) = true := by
      rcases h.mode with hu | ⟨hs, -⟩
      · rw [hu]
        rfl
      · rw [hsie hs, hs]
        rfl
    have hpending : c.state.csrs.mip.getLsbD InterruptCause.supervisorTimer.code = true := h.pending
    have henabled : c.state.csrs.mie.getLsbD InterruptCause.supervisorTimer.code = true := h.enabled
    rw [CsrFile.takeable, hdelegated, if_pos rfl, hmode, hpending, henabled]
    rfl
  have hselect : c.state.csrs.selectPendingInterrupt c.state.privilege =
      some { cause := .supervisorTimer, target := .supervisor } := by
    cases hselected : c.state.csrs.selectPendingInterrupt c.state.privilege with
    | none =>
      rw [CsrFile.selectPendingInterrupt_eq_none hselected] at htake
      cases htake
    | some selected =>
      obtain ⟨hselectedTake, htarget, -⟩ := CsrFile.selectPendingInterrupt_eq_some hselected
      have hcause : selected.cause = .supervisorTimer := by
        by_contra hne
        rw [h.first _ hne] at hselectedTake
        cases hselectedTake
      rw [hcause, CsrFile.delegationTarget, hdelegated, if_pos rfl] at htarget
      rw [← hcause, ← htarget]
  rw [Cpu.takePendingInterrupt, hselect]
  exact ⟨_, rfl, rfl, rfl, rfl, rfl, rfl, rfl, rfl⟩

namespace PendingLedger

/-- **Ownership of the pending bits.**  In every run from reset in which no write to `mip` tries to
change STIP, each pending bit reads as its owner left it.  A supervisor timer interrupt that is due,
in whatever state, is delivered. -/
theorem pending_owned {events : List CsrEvent}
    (h : Runs.Along step (fun r e ↦ r.keepsStip e = true) {} events) :
    Owned (Runs.run step {} events) ∧
      ∀ c : Cpu, SupervisorTimerDue c.state →
        ∃ d, c.takePendingInterrupt.1 = some d ∧ d.interrupt = true ∧ d.cause = 5#64 ∧
          d.target = .supervisor ∧ c.takePendingInterrupt.2.state.privilege = .supervisor ∧
          c.takePendingInterrupt.2.state.programCounter =
            c.state.csrs.trapVector .supervisor true 5#64 ∧
          c.takePendingInterrupt.2.state.csrs.scause = interruptFlag ||| 5#64 ∧
          c.takePendingInterrupt.2.state.csrs.sepc = c.state.programCounter &&& epcAlignmentMask :=
  ⟨Runs.run_invariant (fun _ _ howned hkeeps ↦ howned.step hkeeps) owned_start h,
    fun _ hdue ↦ hdue.delivered⟩

/-- A machine-mode `csrrw` of `mip`. -/
def writeMip (value : BitVec 64) : CsrEvent :=
  .access
    { address := CsrAddress.mip.raw, privilege := .machine, read := true, write := true,
      operation := .replace, operand := value }

/-- SSIP is set by software while the CLINT raises its timer. -/
theorem pending_owned_ssip : Owned (Runs.run step {}
    [writeMip 2#64, .clint { mtime := 5#64, mtimecmp := 3#64 }]) :=
  (pending_owned (by decide)).1

/-- Setting STIP the same way has no effect. -/
theorem stip_not_written :
    (Runs.run step {} [writeMip 0x20#64]).stip = true ∧
      ¬ Owned (Runs.run step {} [writeMip 0x20#64]) := by
  refine ⟨by decide, fun h ↦ ?_⟩
  have hstip := h.stip
  exact absurd hstip (by decide)

end PendingLedger

end Rvemu
