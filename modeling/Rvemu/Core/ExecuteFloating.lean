import Rvemu.Core.GuestAccess
import Rvemu.Float.SoftFloat

/-!
# The floating instructions

FS gates everything.  The loads and stores pass the hart along; the computational instructions only
change the hart's registers and flags, and are functions to the state they commit (`none` is a
reserved encoding).
-/

set_option autoImplicit false

namespace Rvemu

def decodeFormat (encoded : BitVec 2) : Option FloatingFormat :=
  if encoded = 0#2 then some .single else if encoded = 1#2 then some .double else none

namespace CpuState

def readComputationalOperand (s : CpuState) (format : FloatingFormat) (index : BitVec 5) :
    BitVec 64 :=
  match format with
  | .single => (s.floatingSingle index).setWidth 64
  | .double => s.floating index

/-- Write a bit pattern at the register width of its format. -/
def setFloatingBits (s : CpuState) (format : FloatingFormat) (index : BitVec 5) (bits : BitVec 64) :
    CpuState :=
  match format with
  | .single => s.setFloatingSingle index (bits.setWidth 32)
  | .double => s.setFloating index bits

def accrueFlags (s : CpuState) (flags : BitVec 8) : CpuState :=
  s.modifyCsrs (·.accrueFloatingExceptionFlags flags)

def writeFloatingResult (s : CpuState) (format : FloatingFormat) (destination : BitVec 5)
    (result : FloatingResult) : CpuState :=
  (s.setFloatingBits format destination result.bits).accrueFlags result.flags

/-- An integer result with its flags. -/
def writeIntegerResult (s : CpuState) (destination : BitVec 5) (value : BitVec 64)
    (flags : BitVec 8) : CpuState :=
  (s.setInteger destination value).accrueFlags flags

def resolveRounding (s : CpuState) (instruction : DecodedInstruction) :
    Option FloatingRoundingMode :=
  resolveFloatingRoundingMode instruction.function3 s.csrs.floatingRoundingMode

/-! ## Computation -/

/-- FMADD, FMSUB, FNMSUB and FNMADD. -/
def fusedCommit (s : CpuState) (instruction : DecodedInstruction) : Option CpuState :=
  match decodeFormat (instruction.bits.extractLsb' 25 2), s.resolveRounding instruction with
  | some format, some rounding =>
    let source3 := instruction.bits.extractLsb' 27 5
    let negateProduct := instruction.opcode == 0x4B#7 || instruction.opcode == 0x4F#7
    let negateAddend := instruction.opcode == 0x47#7 || instruction.opcode == 0x4F#7
    some (s.writeFloatingResult format instruction.destination
      (floatingFusedMultiplyAdd format
        (s.readComputationalOperand format instruction.source1)
        (s.readComputationalOperand format instruction.source2)
        (s.readComputationalOperand format source3) negateProduct negateAddend rounding))
  | _, _ => none

def arithmeticCommit (s : CpuState) (instruction : DecodedInstruction) (format : FloatingFormat)
    (function5 : BitVec 5) : Option CpuState :=
  (s.resolveRounding instruction).map fun rounding ↦
    let lhs := s.readComputationalOperand format instruction.source1
    let rhs := s.readComputationalOperand format instruction.source2
    let result :=
      if function5 = 0#5 then floatingAdd format lhs rhs rounding
      else if function5 = 1#5 then floatingSubtract format lhs rhs rounding
      else if function5 = 2#5 then floatingMultiply format lhs rhs rounding
      else floatingDivide format lhs rhs rounding
    s.writeFloatingResult format instruction.destination result

def squareRootCommit (s : CpuState) (instruction : DecodedInstruction) (format : FloatingFormat) :
    Option CpuState :=
  if instruction.source2 ≠ 0#5 then none
  else
    (s.resolveRounding instruction).map fun rounding ↦
      s.writeFloatingResult format instruction.destination
        (floatingSquareRoot format (s.readComputationalOperand format instruction.source1) rounding)

def signInjectCommit (s : CpuState) (instruction : DecodedInstruction) (format : FloatingFormat) :
    Option CpuState :=
  if instruction.function3 > 2#3 then none
  else
    let result := floatingSignInject format
      (s.readComputationalOperand format instruction.source1)
      (s.readComputationalOperand format instruction.source2) instruction.function3
    some (s.writeFloatingResult format instruction.destination { bits := result })

def minimumMaximumCommit (s : CpuState) (instruction : DecodedInstruction)
    (format : FloatingFormat) : Option CpuState :=
  if instruction.function3 > 1#3 then none
  else
    some (s.writeFloatingResult format instruction.destination
      (floatingMinimumMaximum format
        (s.readComputationalOperand format instruction.source1)
        (s.readComputationalOperand format instruction.source2) (instruction.function3 == 1#3)))

def decodeComparison (function3 : BitVec 3) : Option FloatingComparison :=
  if function3 = 0#3 then some .lessThanOrEqual
  else if function3 = 1#3 then some .lessThan
  else if function3 = 2#3 then some .equal
  else none

def compareCommit (s : CpuState) (instruction : DecodedInstruction) (format : FloatingFormat) :
    Option CpuState :=
  (decodeComparison instruction.function3).map fun comparison ↦
    let result := floatingCompare format
      (s.readComputationalOperand format instruction.source1)
      (s.readComputationalOperand format instruction.source2) comparison
    s.writeIntegerResult instruction.destination (if result.value then 1#64 else 0#64) result.flags

/-- The integer width and signedness the second source field selects. -/
def integerFormat (source2 : BitVec 5) : Option (IntegerWidth × Bool) :=
  if source2 > 3#5 then none
  else some (if source2 < 2#5 then .word else .doubleWord, (source2 &&& 1#5) != 0#5)

def toIntegerCommit (s : CpuState) (instruction : DecodedInstruction) (format : FloatingFormat) :
    Option CpuState :=
  match integerFormat instruction.source2, s.resolveRounding instruction with
  | some (integerWidth, unsignedInteger), some rounding =>
    let result := floatingToInteger format
      (s.readComputationalOperand format instruction.source1) unsignedInteger integerWidth rounding
    let value :=
      if integerWidth = .word then signExtend (result.value &&& 0xFFFFFFFF#64) 32 else result.value
    some (s.writeIntegerResult instruction.destination value result.flags)
  | _, _ => none

def fromIntegerCommit (s : CpuState) (instruction : DecodedInstruction) (format : FloatingFormat) :
    Option CpuState :=
  match integerFormat instruction.source2, s.resolveRounding instruction with
  | some (integerWidth, unsignedInteger), some rounding =>
    some (s.writeFloatingResult format instruction.destination
      (floatingFromInteger format (s.integer instruction.source1) unsignedInteger integerWidth
        rounding))
  | _, _ => none

/-- FCLASS and the moves to an integer register. -/
def moveToIntegerCommit (s : CpuState) (instruction : DecodedInstruction)
    (format : FloatingFormat) : Option CpuState :=
  if instruction.function3 = 1#3 then
    some (s.setInteger instruction.destination
      ((floatingClassify format
        (s.readComputationalOperand format instruction.source1)).setWidth 64))
  else if instruction.function3 = 0#3 then
    let raw := s.floating instruction.source1
    some (s.setInteger instruction.destination
      (match format with
        | .single => signExtend (raw &&& 0xFFFFFFFF#64) 32
        | .double => raw))
  else none

/-- FCVT.S.D and FCVT.D.S: the second source field names the source format. -/
def convertFormatCommit (s : CpuState) (instruction : DecodedInstruction) : Option CpuState :=
  if (instruction.function7 = 0x20#7 ∧ instruction.source2 = 1#5)
      ∨ (instruction.function7 = 0x21#7 ∧ instruction.source2 = 0#5) then
    (s.resolveRounding instruction).map fun rounding ↦
      let destination : FloatingFormat := if instruction.function7 = 0x20#7 then .single
        else .double
      let source : FloatingFormat := if destination = .single then .double else .single
      s.writeFloatingResult destination instruction.destination
        (floatingConvertFormat destination source
          (s.readComputationalOperand source instruction.source1) rounding)
  else none

/-- OP-FP. -/
def opFpCommit (s : CpuState) (instruction : DecodedInstruction) : Option CpuState :=
  let function5 := instruction.function7.extractLsb' 2 5
  match decodeFormat (instruction.function7.extractLsb' 0 2) with
  | none => s.convertFormatCommit instruction
  | some format =>
    if function5 ≤ 0x03#5 then s.arithmeticCommit instruction format function5
    else if function5 = 0x0B#5 then s.squareRootCommit instruction format
    else if function5 = 0x04#5 then s.signInjectCommit instruction format
    else if function5 = 0x05#5 then s.minimumMaximumCommit instruction format
    else if function5 = 0x14#5 then s.compareCommit instruction format
    else if function5 = 0x18#5 then s.toIntegerCommit instruction format
    else if function5 = 0x1A#5 then s.fromIntegerCommit instruction format
    else if function5 = 0x1C#5 ∧ instruction.source2 = 0#5 then
      s.moveToIntegerCommit instruction format
    else if function5 = 0x1E#5 ∧ instruction.source2 = 0#5 ∧ instruction.function3 = 0#3 then
      some (s.setFloatingBits format instruction.destination (s.integer instruction.source1))
    else s.convertFormatCommit instruction

end CpuState

namespace Cpu

/-- Retire with the state an instruction commits. -/
def commit (c : Cpu) (packet : InstructionPacket) (sequentialPc : BitVec 64) :
    Option CpuState → StepResult × Cpu
  | none => c.illegal packet
  | some state => ({ c with state } : Cpu).retire packet sequentialPc

/-- Width and format of the floating loads and stores. -/
def floatingAccess (function3 : BitVec 3) : Option (AccessWidth × FloatingFormat) :=
  if function3 = 2#3 then some (.word, .single)
  else if function3 = 3#3 then some (.doubleWord, .double)
  else none

def executeFloatingLoad (c : Cpu) (packet : InstructionPacket) (instruction : DecodedInstruction)
    (sequentialPc : BitVec 64) : StepResult × Cpu :=
  match floatingAccess instruction.function3 with
  | none => c.illegal packet
  | some (width, format) =>
    let address := c.state.integer instruction.source1 + immediateI packet.bits
    afterAccess packet (c.guestRead packet address width .load .load) fun loaded c ↦
      (c.modifyState (·.setFloatingBits format instruction.destination loaded.access.value)).retire
        packet sequentialPc

/-- FSW stores the low bits whether or not the register holds a boxed value. -/
def executeFloatingStore (c : Cpu) (packet : InstructionPacket) (instruction : DecodedInstruction)
    (sequentialPc : BitVec 64) : StepResult × Cpu :=
  match floatingAccess instruction.function3 with
  | none => c.illegal packet
  | some (width, _) =>
    let address := c.state.integer instruction.source1 + immediateS packet.bits
    afterAccess packet
      (c.guestWrite packet address width (c.state.floating instruction.source2) .store) fun _ c ↦
        c.retire packet sequentialPc

def executeFloating (c : Cpu) (packet : InstructionPacket) (instruction : DecodedInstruction)
    (sequentialPc : BitVec 64) : StepResult × Cpu :=
  if !c.state.csrs.floatingStateEnabled then c.illegal packet
  else if instruction.opcode = 0x07#7 then
    c.executeFloatingLoad packet instruction sequentialPc
  else if instruction.opcode = 0x27#7 then
    c.executeFloatingStore packet instruction sequentialPc
  else if instruction.opcode = 0x43#7 ∨ instruction.opcode = 0x47#7 ∨ instruction.opcode = 0x4B#7
      ∨ instruction.opcode = 0x4F#7 then
    c.commit packet sequentialPc (c.state.fusedCommit instruction)
  else if instruction.opcode ≠ 0x53#7 then c.illegal packet
  else c.commit packet sequentialPc (c.state.opFpCommit instruction)

end Cpu

end Rvemu
