import Rvemu.Float.SoftFloat
import Rvemu.Vector.Configuration

/-!
# Vector instructions

The decoding of the integer, floating and memory instructions of the vector subset, and what the
arithmetic ones compute on one element.
-/

set_option autoImplicit false

namespace Rvemu

/-! ## Integer -/

/-- The integer operations of the subset. -/
inductive VectorIntegerOperation
  | add | subtract | multiply | divideUnsigned | divideSigned | remainderUnsigned | remainderSigned
  deriving DecidableEq, Repr

/-- Where the first source comes from. -/
inductive VectorIntegerOperandForm
  | vectorVector | vectorScalar | vectorImmediate
  deriving DecidableEq, Repr

/-- An instruction that was decoded. -/
structure VectorIntegerInstruction where
  operation : VectorIntegerOperation
  form : VectorIntegerOperandForm
  masked : Bool
  destination : BitVec 5
  source2 : BitVec 5
  source1 : BitVec 5
  deriving DecidableEq, Repr

/-- The form is selected by `funct3`. -/
def decodeVectorIntegerForm (funct3 : BitVec 3) : Option VectorIntegerOperandForm :=
  if funct3 = 0#3 then some .vectorVector
  else if funct3 = 4#3 then some .vectorScalar
  else if funct3 = 3#3 then some .vectorImmediate
  else none

/-- The operation is selected by `funct6`, whatever the form. -/
def decodeVectorIntegerOperation (funct6 : BitVec 6) : Option VectorIntegerOperation :=
  if funct6 = 0x00#6 then some .add
  else if funct6 = 0x02#6 then some .subtract
  else if funct6 = 0x25#6 then some .multiply
  else if funct6 = 0x20#6 then some .divideUnsigned
  else if funct6 = 0x21#6 then some .divideSigned
  else if funct6 = 0x22#6 then some .remainderUnsigned
  else if funct6 = 0x23#6 then some .remainderSigned
  else none

/-- Only the addition has an immediate form. -/
def decodeVectorIntegerInstruction (instruction : BitVec 32) : Option VectorIntegerInstruction := do
  let form ← decodeVectorIntegerForm (instruction.extractLsb' 12 3)
  let operation ← decodeVectorIntegerOperation (instruction.extractLsb' 26 6)
  if form = .vectorImmediate ∧ operation ≠ .add then none
  else
    some
      { operation, form
        masked := (instruction &&& (1#32 <<< 25)) == 0#32
        destination := instruction.extractLsb' 7 5
        source2 := instruction.extractLsb' 20 5
        source1 := instruction.extractLsb' 15 5 }

/-- The low bits of an element. -/
def maskFor (width : ℕ) : BitVec 64 :=
  if width = 64 then BitVec.allOnes 64 else (1#64 <<< width) - 1#64

/-- The sign bit of an element. -/
def negativeAt (value : BitVec 64) (width : ℕ) : Bool := (value &&& (1#64 <<< (width - 1))) != 0#64

def negateMasked (value mask : BitVec 64) : BitVec 64 := (-value) &&& mask

/-- Division of magnitudes; by zero it is all ones, and the one overflow returns the dividend. -/
def signedDivide (lhs rhs : BitVec 64) (width : ℕ) : BitVec 64 :=
  let mask := maskFor width
  let lhs := lhs &&& mask
  let rhs := rhs &&& mask
  if rhs = 0#64 then mask
  else
    let minimum := 1#64 <<< (width - 1)
    if lhs = minimum ∧ rhs = mask then lhs
    else
      let lhsNegative := negativeAt lhs width
      let rhsNegative := negativeAt rhs width
      let quotient :=
        (if lhsNegative then negateMasked lhs mask else lhs)
          / (if rhsNegative then negateMasked rhs mask else rhs)
      if lhsNegative ≠ rhsNegative then negateMasked quotient mask else quotient

/-- One element: operands and result are cut to SEW. -/
def executeVectorIntegerOperation (operation : VectorIntegerOperation) (lhs rhs : BitVec 64)
    (sewBits : ℕ) : BitVec 64 :=
  let mask := maskFor sewBits
  let lhs := lhs &&& mask
  let rhs := rhs &&& mask
  match operation with
  | .add => (lhs + rhs) &&& mask
  | .subtract => (lhs - rhs) &&& mask
  | .multiply => (lhs * rhs) &&& mask
  | .divideUnsigned => if rhs = 0#64 then mask else lhs / rhs
  | .remainderUnsigned => if rhs = 0#64 then lhs else lhs % rhs
  | .divideSigned => signedDivide lhs rhs sewBits
  | .remainderSigned =>
    if rhs = 0#64 then lhs
    else if lhs = 1#64 <<< (sewBits - 1) ∧ rhs = mask then 0#64
    else (lhs - signedDivide lhs rhs sewBits * rhs) &&& mask

/-- The five-bit immediate, extended to eight bits only and then cut to SEW. -/
def signExtendVectorImmediate (immediate : BitVec 5) (sewBits : ℕ) : BitVec 64 :=
  let wide := immediate.setWidth 8
  let signedValue := if (wide &&& 0x10#8) != 0#8 then wide ||| 0xE0#8 else wide
  signedValue.setWidth 64 &&& maskFor sewBits

/-! ## Floating -/

inductive VectorFloatingOperandForm
  | vectorVector | vectorScalarFloating
  deriving DecidableEq, Repr

/-- The floating-point operations of the subset. -/
inductive VectorFloatingOperation
  | add | subtract | multiply | divide
  deriving DecidableEq, Repr

/-- An instruction that was decoded. -/
structure VectorFloatingInstruction where
  operation : VectorFloatingOperation
  form : VectorFloatingOperandForm
  masked : Bool
  destination : BitVec 5
  source2 : BitVec 5
  source1 : BitVec 5
  deriving DecidableEq, Repr

def decodeVectorFloatingForm (funct3 : BitVec 3) : Option VectorFloatingOperandForm :=
  if funct3 = 1#3 then some .vectorVector
  else if funct3 = 5#3 then some .vectorScalarFloating
  else none

def decodeVectorFloatingOperation (funct6 : BitVec 6) : Option VectorFloatingOperation :=
  if funct6 = 0x00#6 then some .add
  else if funct6 = 0x02#6 then some .subtract
  else if funct6 = 0x20#6 then some .divide
  else if funct6 = 0x24#6 then some .multiply
  else none

/-- Form and operation are decoded independently. -/
def decodeVectorFloatingInstruction (instruction : BitVec 32) :
    Option VectorFloatingInstruction := do
  let form ← decodeVectorFloatingForm (instruction.extractLsb' 12 3)
  let operation ← decodeVectorFloatingOperation (instruction.extractLsb' 26 6)
  some
    { operation, form
      masked := (instruction &&& (1#32 <<< 25)) == 0#32
      destination := instruction.extractLsb' 7 5
      source2 := instruction.extractLsb' 20 5
      source1 := instruction.extractLsb' 15 5 }

/-- One element: the scalar operation. -/
def executeVectorFloatingOperation (operation : VectorFloatingOperation) (format : FloatingFormat)
    (lhs rhs : BitVec 64) (rounding : FloatingRoundingMode) : FloatingResult :=
  match operation with
  | .add => floatingAdd format lhs rhs rounding
  | .subtract => floatingSubtract format lhs rhs rounding
  | .multiply => floatingMultiply format lhs rhs rounding
  | .divide => floatingDivide format lhs rhs rounding

/-! ## Memory -/

inductive VectorMemoryAddressingMode
  | unitStride | strided
  deriving DecidableEq, Repr

/-- A vector load or store that was decoded. -/
structure VectorMemoryOperation where
  load : Bool
  masked : Bool
  elementWidthBits : ℕ
  addressingMode : VectorMemoryAddressingMode
  vectorRegister : BitVec 5
  baseRegister : BitVec 5
  strideRegister : BitVec 5
  deriving DecidableEq, Repr

/-- The other encodings belong to scalar loads and stores. -/
def decodeElementWidth (encoding : BitVec 3) : Option ℕ :=
  if encoding = 0#3 then some 8
  else if encoding = 5#3 then some 16
  else if encoding = 6#3 then some 32
  else if encoding = 7#3 then some 64
  else none

/-- Unit stride has a zero second field; indexed forms are not implemented. -/
def decodeAddressingMode (mop : BitVec 2) (fields : BitVec 5) : Option VectorMemoryAddressingMode :=
  if mop = 0#2 then (if fields ≠ 0#5 then none else some .unitStride)
  else if mop = 2#2 then some .strided
  else none

/-- Segments and wide elements are not implemented. -/
def decodeVectorMemoryOperation (instruction : BitVec 32) (load : Bool) :
    Option VectorMemoryOperation := do
  let nf := instruction.extractLsb' 29 3
  let mew := (instruction &&& (1#32 <<< 28)) != 0#32
  let fields := instruction.extractLsb' 20 5
  let width ← decodeElementWidth (instruction.extractLsb' 12 3)
  if nf ≠ 0#3 ∨ mew then none
  else
    let mode ← decodeAddressingMode (instruction.extractLsb' 26 2) fields
    some
      { load
        masked := (instruction &&& (1#32 <<< 25)) == 0#32
        elementWidthBits := width
        addressingMode := mode
        vectorRegister := instruction.extractLsb' 7 5
        baseRegister := instruction.extractLsb' 15 5
        strideRegister := fields }

end Rvemu
