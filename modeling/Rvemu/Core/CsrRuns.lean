import Rvemu.Core.WellFormed
import Rvemu.Devices.Plic
import Rvemu.Lib.Runs

/-!
# Runs of the CSR file

Everything that can happen to the CSR file: guest accesses, the entry points of the executors, trap
entry and return, the counters, and the two devices that project their levels onto `mip`.  A
property of all runs from reset holds in every state the machine can bring the file into.
-/

set_option autoImplicit false

namespace Rvemu

attribute [local instance] Plic.neZero_contexts

/-- The timer and the two levels of the CLINT, projected onto the CSR file. -/
def Clint.synchronize (clint : Clint) (csrs : CsrFile) : CsrFile :=
  (({ csrs with time := clint.mtime } : CsrFile).setInterruptPending .machineSoftware
    clint.msip).setInterruptPending .machineTimer (clint.mtimecmp ≤ clint.mtime)

/-- The two levels of the PLIC, projected onto the CSR file. -/
def Plic.synchronize (plic : Plic) (csrs : CsrFile) : CsrFile :=
  (csrs.setInterruptPending .machineExternal (plic.contextPending 0)).setInterruptPending
    .supervisorExternal (plic.contextPending 1)

/-- `vxsat` is sticky: only a real saturation sets it. -/
def CsrFile.accrueVectorSaturation (c : CsrFile) (saturated : Bool) : CsrFile :=
  if !saturated then c else ({ c with vxsat := 1#8 } : CsrFile).markVectorStateDirty

inductive CsrEvent
  | access (request : CsrAccessRequest)
  | clint (clint : Clint)
  | plic (plic : Plic)
  | accrueFloatingExceptionFlags (flags : BitVec 8)
  | markFloatingStateDirty
  | markVectorStateDirty
  | setVectorStartForTrap (elementIndex : BitVec 64)
  | clearVectorStartAfterInstruction
  | accrueVectorSaturation (saturated : Bool)
  | commitVectorConfiguration (vtype vl : BitVec 64)
  | incrementCycle
  | incrementInstret
  | enterMachineTrap (previousPrivilege : PrivilegeMode)
      (programCounter cause trapValue : BitVec 64)
  | enterSupervisorTrap (previousPrivilege : PrivilegeMode)
      (programCounter cause trapValue : BitVec 64)
  | returnFromMachine
  | returnFromSupervisor

namespace CsrFile

def event (c : CsrFile) : CsrEvent → CsrFile
  | .access request => (c.access request).2
  | .clint clint => clint.synchronize c
  | .plic plic => plic.synchronize c
  | .accrueFloatingExceptionFlags flags => c.accrueFloatingExceptionFlags flags
  | .markFloatingStateDirty => c.markFloatingStateDirty
  | .markVectorStateDirty => c.markVectorStateDirty
  | .setVectorStartForTrap elementIndex => c.setVectorStartForTrap elementIndex
  | .clearVectorStartAfterInstruction => c.clearVectorStartAfterInstruction
  | .accrueVectorSaturation saturated => c.accrueVectorSaturation saturated
  | .commitVectorConfiguration vtype vl => c.commitVectorConfiguration vtype vl
  | .incrementCycle => c.incrementCycle
  | .incrementInstret => c.incrementInstret
  | .enterMachineTrap previous pc cause value => c.enterMachineTrap previous pc cause value
  | .enterSupervisorTrap previous pc cause value => c.enterSupervisorTrap previous pc cause value
  | .returnFromMachine => c.returnFromMachine.2
  | .returnFromSupervisor => c.returnFromSupervisor.2

/-- The register that an access writes, and the value it writes to it. -/
def written (c : CsrFile) (request : CsrAccessRequest) : Option (CsrAddress × BitVec 64) :=
  match CsrAddress.ofRaw request.address with
  | none => none
  | some address =>
    if request.write && c.accessAllowed address request.privilege true then
      some (address, modifiedValue request.operation
        (if request.read || request.operation != .replace then c.readValue address else 0#64)
        request.operand)
    else none

theorem access_of_written (c : CsrFile) (request : CsrAccessRequest) :
    (c.access request).2 = (c.written request).elim c fun w ↦ c.writeValue w.1 w.2 := by
  rw [written, access]
  cases CsrAddress.ofRaw request.address with
  | none => rfl
  | some address =>
    dsimp only
    cases hwrite : request.write with
    | false =>
      split <;> rfl
    | true =>
      rw [Bool.true_and]
      cases c.accessAllowed address request.privilege true with
      | false => rfl
      | true => simp

/-! ## Legal values -/

/-- Every field holds a value that its own write would store unchanged. -/
structure Legal (c : CsrFile) : Prop where
  mstatus : StatusLegal c.mstatus
  mepc : c.mepc.getLsbD 0 = false
  sepc : c.sepc.getLsbD 0 = false
  mtvec : c.mtvec.getLsbD 1 = false
  stvec : c.stvec.getLsbD 1 = false
  medeleg : Within delegatableExceptionMask c.medeleg
  mideleg : Within supervisorInterruptMask c.mideleg
  mie : Within implementedInterruptMask c.mie
  mcounteren : Within (implementedCounterenMask ||| implementedHpmCounterMask) c.mcounteren
  scounteren : Within 7#64 c.scounteren
  mcountinhibit : Within implementedMcountinhibitMask c.mcountinhibit
  vstart : Within 0xFF#64 c.vstart
  vxsat : c.vxsat &&& 1#8 = c.vxsat
  vxrm : c.vxrm &&& 3#8 = c.vxrm

theorem legal_reset : Legal {} where
  mstatus := ⟨by decide, by decide, by decide⟩
  mepc := by decide
  sepc := by decide
  mtvec := by decide
  stvec := by decide
  medeleg := by decide
  mideleg := by decide
  mie := by decide
  mcounteren := by decide
  scounteren := by decide
  mcountinhibit := by decide
  vstart := by decide
  vxsat := by decide
  vxrm := by decide

section Legal

variable {c : CsrFile}

theorem Legal.markFloatingStateDirty (h : c.Legal) : c.markFloatingStateDirty.Legal := by
  have hstatus : StatusLegal c.markFloatingStateDirty.mstatus := by
    refine h.mstatus.of_bits fun i hi ↦ ?_
    rcases Nat.lt_or_ge i 64 with hlt | hge
    · have hne : (decide (i = 13) || decide (i = 14)) = false := by
        rw [Bool.or_eq_false_iff, decide_eq_false_iff_not, decide_eq_false_iff_not]
        omega
      rw [c.getLsbD_mstatus_markFloatingStateDirty hlt, hne, Bool.and_false, Bool.or_false]
    · rw [BitVec.getLsbD_of_ge _ _ hge, BitVec.getLsbD_of_ge _ _ hge]
  rw [c.markFloatingStateDirty_eq]
  exact { h with mstatus := hstatus }

theorem Legal.markVectorStateDirty (h : c.Legal) : c.markVectorStateDirty.Legal := by
  have hstatus : StatusLegal c.markVectorStateDirty.mstatus := by
    refine h.mstatus.of_bits fun i hi ↦ ?_
    rcases Nat.lt_or_ge i 64 with hlt | hge
    · have hne : (decide (i = 9) || decide (i = 10)) = false := by
        rw [Bool.or_eq_false_iff, decide_eq_false_iff_not, decide_eq_false_iff_not]
        omega
      rw [c.getLsbD_mstatus_markVectorStateDirty hlt, hne, Bool.and_false, Bool.or_false]
    · rw [BitVec.getLsbD_of_ge _ _ hge, BitVec.getLsbD_of_ge _ _ hge]
  rw [c.markVectorStateDirty_eq]
  exact { h with mstatus := hstatus }

theorem legalizeTvec_bit_one (value : BitVec 64) : (legalizeTvec value).getLsbD 1 = false := by
  have hbit : (legalizeTvec value &&& 3#64).getLsbD 1 = (legalizeTvec value).getLsbD 1 := by
    rw [BitVec.getLsbD_and, show (3#64).getLsbD 1 = true by decide, Bool.and_true]
  rw [← hbit]
  rcases legalizeTvec_mode value with h | h <;> rw [h] <;> decide

theorem Legal.writeValue (h : c.Legal) (address : CsrAddress) (value : BitVec 64) :
    (c.writeValue address value).Legal := by
  have hpart (mask : BitVec 64) (hmask : Within implementedInterruptMask mask) :
      Within implementedInterruptMask (c.mideleg &&& mask) := by
    rw [BitVec.and_comm]
    exact hmask.and _
  cases address with
  | fflags | frm | fcsr => exact Legal.markFloatingStateDirty { h with }
  | vstart => exact Legal.markVectorStateDirty { h with vstart := within_and _ value }
  | vxsat =>
    refine Legal.markVectorStateDirty { h with vxsat := ?_ }
    rw [BitVec.and_assoc, BitVec.and_self]
  | vxrm =>
    refine Legal.markVectorStateDirty { h with vxrm := ?_ }
    rw [BitVec.and_assoc, BitVec.and_self]
  | vcsr =>
    refine Legal.markVectorStateDirty { h with vxsat := ?_, vxrm := ?_ }
    · rw [BitVec.and_assoc, BitVec.and_self]
    · rw [BitVec.and_assoc, BitVec.and_self]
  | sstatus => exact { h with mstatus := h.mstatus.sstatus value }
  | mstatus => exact { h with mstatus := h.mstatus.legalize value }
  | sie => exact { h with mie := h.mie.maskedWrite (hpart _ (by decide)) value }
  | mie => exact { h with mie := within_and _ value }
  | medeleg => exact { h with medeleg := within_and _ value }
  | mideleg => exact { h with mideleg := within_and _ value }
  | mcounteren => exact { h with mcounteren := within_and _ value }
  | scounteren => exact { h with scounteren := within_and _ value }
  | mcountinhibit => exact { h with mcountinhibit := within_and _ value }
  | mtvec => exact { h with mtvec := legalizeTvec_bit_one value }
  | stvec => exact { h with stvec := legalizeTvec_bit_one value }
  | mepc => exact { h with mepc := epc_even value }
  | sepc => exact { h with sepc := epc_even value }
  | satp =>
    rw [CsrFile.writeValue]
    split
    · exact { h with }
    · exact h
  | _ => exact { h with }

theorem Legal.event (h : c.Legal) (e : CsrEvent) : (c.event e).Legal := by
  cases e with
  | access request =>
    rw [CsrFile.event, access_of_written]
    cases c.written request with
    | none => exact h
    | some w => exact h.writeValue w.1 w.2
  | clint clint => exact { h with }
  | plic plic => exact { h with }
  | accrueFloatingExceptionFlags flags =>
    rw [CsrFile.event, CsrFile.accrueFloatingExceptionFlags]
    split
    · exact h
    · exact Legal.markFloatingStateDirty { h with }
  | markFloatingStateDirty => exact h.markFloatingStateDirty
  | markVectorStateDirty => exact h.markVectorStateDirty
  | setVectorStartForTrap elementIndex =>
    exact Legal.markVectorStateDirty { h with vstart := within_and _ elementIndex }
  | clearVectorStartAfterInstruction =>
    exact Legal.markVectorStateDirty { h with vstart := within_zero _ }
  | accrueVectorSaturation saturated =>
    rw [CsrFile.event, CsrFile.accrueVectorSaturation]
    split
    · exact h
    · exact Legal.markVectorStateDirty { h with vxsat := BitVec.and_self }
  | commitVectorConfiguration vtype vl =>
    exact Legal.markVectorStateDirty { h with vstart := within_zero _ }
  | incrementCycle =>
    rw [CsrFile.event, CsrFile.incrementCycle]
    split
    · exact { h with }
    · exact h
  | incrementInstret =>
    rw [CsrFile.event, CsrFile.incrementInstret]
    split
    · exact { h with }
    · exact h
  | enterMachineTrap previous pc cause value =>
    exact { h with
      mstatus := h.mstatus.enterMachineTrap previous pc cause value, mepc := epc_even pc }
  | enterSupervisorTrap previous pc cause value =>
    exact { h with
      mstatus := h.mstatus.enterSupervisorTrap previous pc cause value, sepc := epc_even pc }
  | returnFromMachine => exact { h with mstatus := h.mstatus.returnFromMachine }
  | returnFromSupervisor => exact { h with mstatus := h.mstatus.returnFromSupervisor }

end Legal

end CsrFile

end Rvemu
