import Rvemu.Bus.Access

/-!
# RV64I as the manual defines it

The base integer instructions, stated without reference to any implementation: what an encoding
stands for (`Isa.decode`), and what the instruction computes from the registers and the program
counter.  Immediates are concatenations of fields, sign-extended; arithmetic is that of 64-bit
words, and the `W` forms are 32-bit operations whose result is sign-extended.
-/

set_option autoImplicit false

namespace Rvemu.Isa

/-! ## Operations -/

inductive Operation
  | add | sub | sll | slt | sltu | xor | srl | sra | or | and
  deriving DecidableEq, Repr

/-- Shifts use the low six bits of the second operand. -/
def Operation.result (a b : BitVec 64) : Operation → BitVec 64
  | add => a + b
  | sub => a - b
  | sll => a <<< (b.toNat % 64)
  | slt => if a.toInt < b.toInt then 1#64 else 0#64
  | sltu => if a.toNat < b.toNat then 1#64 else 0#64
  | xor => a ^^^ b
  | srl => a >>> (b.toNat % 64)
  | sra => a.sshiftRight (b.toNat % 64)
  | or => a ||| b
  | and => a &&& b

inductive WordOperation
  | add | sub | sll | srl | sra
  deriving DecidableEq, Repr

/-- Shifts use the low five bits of the second operand. -/
def WordOperation.word (a b : BitVec 32) : WordOperation → BitVec 32
  | add => a + b
  | sub => a - b
  | sll => a <<< (b.toNat % 32)
  | srl => a >>> (b.toNat % 32)
  | sra => a.sshiftRight (b.toNat % 32)

def WordOperation.result (a b : BitVec 64) (o : WordOperation) : BitVec 64 :=
  (o.word (a.setWidth 32) (b.setWidth 32)).signExtend 64

inductive Condition
  | eq | ne | lt | ge | ltu | geu
  deriving DecidableEq, Repr

def Condition.holds (a b : BitVec 64) : Condition → Bool
  | eq => a = b
  | ne => a ≠ b
  | lt => a.toInt < b.toInt
  | ge => b.toInt ≤ a.toInt
  | ltu => a.toNat < b.toNat
  | geu => b.toNat ≤ a.toNat

/-- The value of a load from the bytes it read, `value` being composed of them. -/
def extend (width : AccessWidth) (signed : Bool) (value : BitVec 64) : BitVec 64 :=
  let bytes := value.setWidth (8 * widthInBytes width)
  if signed then bytes.signExtend 64 else bytes.setWidth 64

/-! ## Instructions -/

inductive Operand
  | register (index : BitVec 5)
  | immediate (value : BitVec 64)
  deriving DecidableEq, Repr

inductive Instruction
  | lui (rd : BitVec 5) (immediate : BitVec 64)
  | auipc (rd : BitVec 5) (immediate : BitVec 64)
  | jal (rd : BitVec 5) (offset : BitVec 64)
  | jalr (rd rs1 : BitVec 5) (offset : BitVec 64)
  | branch (condition : Condition) (rs1 rs2 : BitVec 5) (offset : BitVec 64)
  | load (width : AccessWidth) (signed : Bool) (rd rs1 : BitVec 5) (offset : BitVec 64)
  | store (width : AccessWidth) (rs1 rs2 : BitVec 5) (offset : BitVec 64)
  | compute (operation : Operation) (rd rs1 : BitVec 5) (operand : Operand)
  | computeWord (operation : WordOperation) (rd rs1 : BitVec 5) (operand : Operand)
  deriving DecidableEq, Repr

section Semantics

variable (x : BitVec 5 → BitVec 64) (pc length : BitVec 64)

def Operand.value : Operand → BitVec 64
  | register index => x index
  | immediate value => value

namespace Instruction

/-- The register an instruction writes that does not load, with its value; `pc + length` is the
address of the next instruction. -/
def written : Instruction → Option (BitVec 5 × BitVec 64)
  | lui rd immediate => some (rd, immediate)
  | auipc rd immediate => some (rd, pc + immediate)
  | jal rd _ => some (rd, pc + length)
  | jalr rd _ _ => some (rd, pc + length)
  | compute operation rd rs1 operand => some (rd, operation.result (x rs1) (operand.value x))
  | computeWord operation rd rs1 operand => some (rd, operation.result (x rs1) (operand.value x))
  | branch .. | load .. | store .. => none

/-- Where control is transferred to, if it is. -/
def target : Instruction → Option (BitVec 64)
  | jal _ offset => some (pc + offset)
  | jalr _ rs1 offset => some ((x rs1 + offset) &&& ~~~1#64)
  | branch condition rs1 rs2 offset =>
    if condition.holds (x rs1) (x rs2) then some (pc + offset) else none
  | _ => none

/-- Where execution continues. -/
def next (i : Instruction) : BitVec 64 := (i.target x pc).getD (pc + length)

/-- The address and width of a load or store. -/
def accessed : Instruction → Option (BitVec 64 × AccessWidth)
  | load width _ _ rs1 offset => some (x rs1 + offset, width)
  | store width rs1 _ offset => some (x rs1 + offset, width)
  | _ => none

end Instruction

end Semantics

/-! ## Immediates -/

section Encoding

variable (bits : BitVec 32)

def immediateI : BitVec 64 := (bits.extractLsb' 20 12).signExtend 64

def immediateS : BitVec 64 := (bits.extractLsb' 25 7 ++ bits.extractLsb' 7 5).signExtend 64

def immediateB : BitVec 64 :=
  (bits.extractLsb' 31 1 ++ bits.extractLsb' 7 1 ++ bits.extractLsb' 25 6 ++ bits.extractLsb' 8 4
    ++ 0#1).signExtend 64

def immediateU : BitVec 64 := (bits.extractLsb' 12 20 ++ 0#12).signExtend 64

def immediateJ : BitVec 64 :=
  (bits.extractLsb' 31 1 ++ bits.extractLsb' 12 8 ++ bits.extractLsb' 20 1 ++ bits.extractLsb' 21 10
    ++ 0#1).signExtend 64

/-! ## Encodings -/

def condition (function3 : BitVec 3) : Option Condition :=
  if function3 = 0#3 then some .eq
  else if function3 = 1#3 then some .ne
  else if function3 = 4#3 then some .lt
  else if function3 = 5#3 then some .ge
  else if function3 = 6#3 then some .ltu
  else if function3 = 7#3 then some .geu
  else none

/-- The low two bits are the width, the high one marks the unsigned loads. -/
def width (size : BitVec 2) : AccessWidth :=
  if size = 0#2 then .byte
  else if size = 1#2 then .halfWord
  else if size = 2#2 then .word
  else .doubleWord

/-- OP-IMM without the shifts. -/
def immediateOperation (function3 : BitVec 3) : Option Operation :=
  if function3 = 0#3 then some .add
  else if function3 = 2#3 then some .slt
  else if function3 = 3#3 then some .sltu
  else if function3 = 4#3 then some .xor
  else if function3 = 6#3 then some .or
  else if function3 = 7#3 then some .and
  else none

/-- SLLI, SRLI and SRAI, with a shift amount of six bits below `funct6`. -/
def shiftOperation (function3 : BitVec 3) (function6 : BitVec 6) : Option Operation :=
  if function3 = 1#3 ∧ function6 = 0x00#6 then some .sll
  else if function3 = 5#3 ∧ function6 = 0x00#6 then some .srl
  else if function3 = 5#3 ∧ function6 = 0x10#6 then some .sra
  else none

/-- SLLIW, SRLIW and SRAIW, and their forms with a register. -/
def wordShiftOperation (function3 : BitVec 3) (function7 : BitVec 7) : Option WordOperation :=
  if function3 = 1#3 ∧ function7 = 0x00#7 then some .sll
  else if function3 = 5#3 ∧ function7 = 0x00#7 then some .srl
  else if function3 = 5#3 ∧ function7 = 0x20#7 then some .sra
  else none

/-- OP. -/
def registerOperation (function3 : BitVec 3) (function7 : BitVec 7) : Option Operation :=
  if function7 = 0x00#7 then
    if function3 = 0#3 then some .add
    else if function3 = 1#3 then some .sll
    else if function3 = 2#3 then some .slt
    else if function3 = 3#3 then some .sltu
    else if function3 = 4#3 then some .xor
    else if function3 = 5#3 then some .srl
    else if function3 = 6#3 then some .or
    else some .and
  else if function7 = 0x20#7 then
    if function3 = 0#3 then some .sub else if function3 = 5#3 then some .sra else none
  else none

/-- OP-32. -/
def registerWordOperation (function3 : BitVec 3) (function7 : BitVec 7) : Option WordOperation :=
  if function3 = 0#3 ∧ function7 = 0x00#7 then some .add
  else if function3 = 0#3 ∧ function7 = 0x20#7 then some .sub
  else wordShiftOperation function3 function7

/-- The integer, branch, jump, load and store instructions. -/
def decode : Option Instruction :=
  let opcode := bits.extractLsb' 0 7
  let rd := bits.extractLsb' 7 5
  let function3 := bits.extractLsb' 12 3
  let rs1 := bits.extractLsb' 15 5
  let rs2 := bits.extractLsb' 20 5
  let function7 := bits.extractLsb' 25 7
  let shiftAmount := bits.extractLsb' 20 6
  if opcode = 0x37#7 then some (.lui rd (immediateU bits))
  else if opcode = 0x17#7 then some (.auipc rd (immediateU bits))
  else if opcode = 0x6F#7 then some (.jal rd (immediateJ bits))
  else if opcode = 0x67#7 then
    if function3 = 0#3 then some (.jalr rd rs1 (immediateI bits)) else none
  else if opcode = 0x63#7 then
    (condition function3).map fun condition ↦ .branch condition rs1 rs2 (immediateB bits)
  else if opcode = 0x03#7 then
    if function3 = 7#3 then none
    else
      some (.load (width (function3.setWidth 2)) (!function3.getLsbD 2) rd rs1 (immediateI bits))
  else if opcode = 0x23#7 then
    if function3.getLsbD 2 then none
    else some (.store (width (function3.setWidth 2)) rs1 rs2 (immediateS bits))
  else if opcode = 0x13#7 then
    match immediateOperation function3 with
    | some operation => some (.compute operation rd rs1 (.immediate (immediateI bits)))
    | none =>
      (shiftOperation function3 (bits.extractLsb' 26 6)).map fun operation ↦
        .compute operation rd rs1 (.immediate (shiftAmount.setWidth 64))
  else if opcode = 0x1B#7 then
    if function3 = 0#3 then some (.computeWord .add rd rs1 (.immediate (immediateI bits)))
    else
      (wordShiftOperation function3 function7).map fun operation ↦
        .computeWord operation rd rs1 (.immediate (rs2.setWidth 64))
  else if opcode = 0x33#7 then
    (registerOperation function3 function7).map fun operation ↦
      .compute operation rd rs1 (.register rs2)
  else if opcode = 0x3B#7 then
    (registerWordOperation function3 function7).map fun operation ↦
      .computeWord operation rd rs1 (.register rs2)
  else none

end Encoding

end Rvemu.Isa
