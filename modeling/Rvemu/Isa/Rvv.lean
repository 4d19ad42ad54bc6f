import Rvemu.Vector.Instructions

/-!
# The vector subset as RVV 1.0 defines it

What the integer operations compute on elements of SEW bits, and the encodings of the OP-V
instructions of the subset: the operation is given by `funct6` together with the operand category in
`funct3`, and one value of `funct6` names different instructions in different categories.
-/

set_option autoImplicit false

namespace Rvemu.Rvv

/-! ## Elements -/

/-- Division by zero gives all ones and leaves the dividend as the remainder. -/
def result {sew : ℕ} (operation : VectorIntegerOperation) (a b : BitVec sew) : BitVec sew :=
  match operation with
  | .add => a + b
  | .subtract => a - b
  | .multiply => a * b
  | .divideUnsigned => if b = 0 then BitVec.allOnes sew else a / b
  | .divideSigned => if b = 0 then BitVec.allOnes sew else a.sdiv b
  | .remainderUnsigned => if b = 0 then a else a % b
  | .remainderSigned => if b = 0 then a else a.srem b

/-! ## Encodings -/

/-- The operand categories. -/
inductive Category
  | opivv | opfvv | opmvv | opivi | opivx | opfvf | opmvx | opcfg
  deriving DecidableEq, Repr

def category (funct3 : BitVec 3) : Category :=
  match funct3.toFin with
  | 0 => .opivv
  | 1 => .opfvv
  | 2 => .opmvv
  | 3 => .opivi
  | 4 => .opivx
  | 5 => .opfvf
  | 6 => .opmvx
  | 7 => .opcfg

def integerOperation (category : Category) (funct6 : BitVec 6) :
    Option (VectorIntegerOperation × VectorIntegerOperandForm) :=
  match category with
  | .opivv =>
    if funct6 = 0b000000#6 then some (.add, .vectorVector)
    else if funct6 = 0b000010#6 then some (.subtract, .vectorVector)
    else none
  | .opivx =>
    if funct6 = 0b000000#6 then some (.add, .vectorScalar)
    else if funct6 = 0b000010#6 then some (.subtract, .vectorScalar)
    else none
  | .opivi => if funct6 = 0b000000#6 then some (.add, .vectorImmediate) else none
  | .opmvv => (multiplicative funct6).map (·, .vectorVector)
  | .opmvx => (multiplicative funct6).map (·, .vectorScalar)
  | .opfvv | .opfvf | .opcfg => none
where
  /-- The multiplications and divisions of the categories OPMVV and OPMVX. -/
  multiplicative (funct6 : BitVec 6) : Option VectorIntegerOperation :=
    if funct6 = 0b100101#6 then some .multiply
    else if funct6 = 0b100000#6 then some .divideUnsigned
    else if funct6 = 0b100001#6 then some .divideSigned
    else if funct6 = 0b100010#6 then some .remainderUnsigned
    else if funct6 = 0b100011#6 then some .remainderSigned
    else none

def floatingOperation (category : Category) (funct6 : BitVec 6) :
    Option (VectorFloatingOperation × VectorFloatingOperandForm) :=
  match category with
  | .opfvv => (arithmetic funct6).map (·, .vectorVector)
  | .opfvf => (arithmetic funct6).map (·, .vectorScalarFloating)
  | .opivv | .opivx | .opivi | .opmvv | .opmvx | .opcfg => none
where
  arithmetic (funct6 : BitVec 6) : Option VectorFloatingOperation :=
    if funct6 = 0b000000#6 then some .add
    else if funct6 = 0b000010#6 then some .subtract
    else if funct6 = 0b100100#6 then some .multiply
    else if funct6 = 0b100000#6 then some .divide
    else none

/-- Where the configuration instructions take the new `vtype` from. -/
inductive Configuration
  | vsetvli (zimm : BitVec 11)
  | vsetivli (uimm : BitVec 5) (zimm : BitVec 10)
  | vsetvl (source2 : BitVec 5)
  deriving DecidableEq, Repr

inductive Instruction
  | integer (instruction : VectorIntegerInstruction)
  | floating (instruction : VectorFloatingInstruction)
  | configuration (kind : Configuration)
  deriving DecidableEq, Repr

def configuration (word : BitVec 32) : Option Configuration :=
  if word.getLsbD 31 = false then some (.vsetvli (word.extractLsb' 20 11))
  else if word.getLsbD 30 = true then
    some (.vsetivli (word.extractLsb' 15 5) (word.extractLsb' 20 10))
  else if word.extractLsb' 25 7 = 0b1000000#7 then some (.vsetvl (word.extractLsb' 20 5))
  else none

/-- The instruction of the subset that an OP-V word encodes. -/
def decode (word : BitVec 32) : Option Instruction :=
  let funct3 := category (word.extractLsb' 12 3)
  let funct6 := word.extractLsb' 26 6
  let masked := !word.getLsbD 25
  let vd := word.extractLsb' 7 5
  let vs2 := word.extractLsb' 20 5
  let vs1 := word.extractLsb' 15 5
  match funct3 with
  | .opcfg => (configuration word).map .configuration
  | .opfvv | .opfvf =>
    (floatingOperation funct3 funct6).map fun (operation, form) ↦
      .floating { operation, form, masked, destination := vd, source2 := vs2, source1 := vs1 }
  | .opivv | .opivx | .opivi | .opmvv | .opmvx =>
    (integerOperation funct3 funct6).map fun (operation, form) ↦
      .integer { operation, form, masked, destination := vd, source2 := vs2, source1 := vs1 }

end Rvemu.Rvv
