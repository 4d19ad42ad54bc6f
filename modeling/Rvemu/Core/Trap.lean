import Mathlib.Tactic.Common
import Mathlib.Algebra.Group.Nat.Defs

/-!
# Privilege modes, causes and traps

The architectural encodings are kept as functions (`rank`, `code`) rather than as the constructors
themselves, so that a value outside the encoding cannot be written down.
-/

set_option autoImplicit false

namespace Rvemu

inductive PrivilegeMode
  | user | supervisor | machine
  deriving DecidableEq, Repr

/-- The two-bit architectural encoding of a mode. -/
def PrivilegeMode.rank : PrivilegeMode → ℕ
  | .user => 0
  | .supervisor => 1
  | .machine => 3

inductive ExceptionCause
  | instructionAddressMisaligned | instructionAccessFault | illegalInstruction | breakpoint
  | loadAddressMisaligned | loadAccessFault | storeAddressMisaligned | storeAccessFault
  | environmentCallFromUser | environmentCallFromSupervisor | environmentCallFromMachine
  | instructionPageFault | loadPageFault | storePageFault
  deriving DecidableEq, Repr

def ExceptionCause.code : ExceptionCause → ℕ
  | .instructionAddressMisaligned => 0
  | .instructionAccessFault => 1
  | .illegalInstruction => 2
  | .breakpoint => 3
  | .loadAddressMisaligned => 4
  | .loadAccessFault => 5
  | .storeAddressMisaligned => 6
  | .storeAccessFault => 7
  | .environmentCallFromUser => 8
  | .environmentCallFromSupervisor => 9
  | .environmentCallFromMachine => 11
  | .instructionPageFault => 12
  | .loadPageFault => 13
  | .storePageFault => 15

inductive InterruptCause
  | supervisorSoftware | machineSoftware | supervisorTimer | machineTimer | supervisorExternal
  | machineExternal
  deriving DecidableEq, Repr

def InterruptCause.code : InterruptCause → ℕ
  | .supervisorSoftware => 1
  | .machineSoftware => 3
  | .supervisorTimer => 5
  | .machineTimer => 7
  | .supervisorExternal => 9
  | .machineExternal => 11

/-- A synchronous trap bound to the program counter and encoding of the instruction that raised
it. -/
structure Trap where
  cause : ExceptionCause := .illegalInstruction
  value : BitVec 64 := 0#64
  programCounter : BitVec 64 := 0#64
  instruction : BitVec 32 := 0#32
  deriving DecidableEq, Repr

end Rvemu
