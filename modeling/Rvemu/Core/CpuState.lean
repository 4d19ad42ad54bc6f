import Rvemu.Bus.Access
import Rvemu.Core.Csr
import Rvemu.Vector.RegisterGroup

/-!
# The state of the hart
-/

set_option autoImplicit false

namespace Rvemu

/-- The architectural state of the single hart, with the reservation token it holds for the bus. -/
structure CpuState where
  integerRegisters : BitVec 5 → BitVec 64 := fun _ ↦ 0#64
  floatingRegisters : BitVec 5 → BitVec 64 := fun _ ↦ 0#64
  vectorState : VectorState := {}
  csrs : CsrFile := {}
  programCounter : BitVec 64 := 0#64
  privilege : PrivilegeMode := .machine
  waitingForInterrupt : Bool := false
  reservationToken : ReservationToken := {}

namespace CpuState

def reset (resetPc : BitVec 64 := 0#64) : CpuState := { programCounter := resetPc }

/-- x0 reads as zero whatever is stored. -/
def integer (s : CpuState) (index : BitVec 5) : BitVec 64 :=
  if index = 0#5 then 0#64 else s.integerRegisters index

def setInteger (s : CpuState) (index : BitVec 5) (value : BitVec 64) : CpuState :=
  if index = 0#5 then s
  else { s with integerRegisters := Function.update s.integerRegisters index value }

def floating (s : CpuState) (index : BitVec 5) : BitVec 64 := s.floatingRegisters index

def setFloating (s : CpuState) (index : BitVec 5) (value : BitVec 64) : CpuState :=
  { s with
    floatingRegisters := Function.update s.floatingRegisters index value
    csrs := s.csrs.markFloatingStateDirty }

def floatingSingle (s : CpuState) (index : BitVec 5) : BitVec 32 :=
  unboxSinglePrecision (s.floating index)

def setFloatingSingle (s : CpuState) (index : BitVec 5) (value : BitVec 32) : CpuState :=
  s.setFloating index (boxSinglePrecision value)

def vectorElement (s : CpuState) (group : VectorRegisterGroup) (elementIndex : ℕ) :
    Option (BitVec 64) :=
  group.readElement s.vectorState elementIndex

/-- `none` when the element cannot be located; nothing is written then. -/
def setVectorElement (s : CpuState) (group : VectorRegisterGroup) (elementIndex : ℕ)
    (value : BitVec 64) : Option CpuState :=
  (group.writeElement s.vectorState elementIndex value).map fun vectorState ↦
    { s with vectorState, csrs := s.csrs.markVectorStateDirty }

def vectorMaskBit (s : CpuState) (elementIndex : ℕ) : Option Bool :=
  VectorRegisterGroup.maskBit s.vectorState elementIndex

def setProgramCounter (s : CpuState) (value : BitVec 64) : CpuState :=
  { s with programCounter := value }

def setPrivilege (s : CpuState) (value : PrivilegeMode) : CpuState := { s with privilege := value }

def setWaitingForInterrupt (s : CpuState) (value : Bool) : CpuState :=
  { s with waitingForInterrupt := value }

def setReservationToken (s : CpuState) (token : ReservationToken) : CpuState :=
  { s with reservationToken := token }

/-- Update the CSR file. -/
def modifyCsrs (s : CpuState) (f : CsrFile → CsrFile) : CpuState := { s with csrs := f s.csrs }

/-- Go where a trap return says. -/
def resumeAt (s : CpuState) (returned : TrapReturnState × CsrFile) : CpuState :=
  ((({ s with csrs := returned.2 } : CpuState).setPrivilege returned.1.privilege).setProgramCounter
    returned.1.programCounter).setWaitingForInterrupt false

end CpuState

end Rvemu
