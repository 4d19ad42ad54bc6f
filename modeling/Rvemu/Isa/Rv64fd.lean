import Rvemu.Float.SoftFloat
import Rvemu.Isa.Rv64i

/-!
# The F and D instructions as the manual defines them

What an encoding stands for, where the instruction takes its operands from, and what becomes of its
result.  The arithmetic itself is that of the soft-float core; what is stated here is everything
around it: boxing, rounding modes, and which register and which flags an instruction writes.
-/

set_option autoImplicit false

namespace Rvemu.Isa

/-! ## Registers and rounding modes -/

/-- The value of a computational source.  A single is held in a register whose upper half is all
ones; any other register stands for the canonical NaN. -/
def operand (register : BitVec 64) : FloatingFormat → BitVec 64
  | .single =>
    if register.extractLsb' 32 32 = BitVec.allOnes 32 then (register.extractLsb' 0 32).setWidth 64
    else 0x7FC00000#64
  | .double => register

/-- What a register holds after a result was written to it. -/
def boxed (value : BitVec 64) : FloatingFormat → BitVec 64
  | .single => BitVec.allOnes 32 ++ value.extractLsb' 0 32
  | .double => value

/-- The rounding mode of an instruction, or none if it is reserved; 7 is that of `frm`. -/
def rounding (rm frm : BitVec 3) : Option FloatingRoundingMode :=
  let mode := if rm = 7#3 then frm else rm
  [.nearestTiesToEven, .towardZero, .down, .up, .nearestTiesToMaximumMagnitude][mode.toNat]?

/-! ## Instructions -/

inductive FloatingOperation
  | add | subtract | multiply | divide
  deriving DecidableEq, Repr

/-- The instructions that do not access memory. -/
inductive Computation
  | fused (format : FloatingFormat) (negateProduct negateAddend : Bool) (rd rs1 rs2 rs3 : BitVec 5)
    (rm : BitVec 3)
  | arithmetic (operation : FloatingOperation) (format : FloatingFormat) (rd rs1 rs2 : BitVec 5)
    (rm : BitVec 3)
  | squareRoot (format : FloatingFormat) (rd rs1 : BitVec 5) (rm : BitVec 3)
  | signInject (format : FloatingFormat) (variant : BitVec 3) (rd rs1 rs2 : BitVec 5)
  | minimumMaximum (format : FloatingFormat) (maximum : Bool) (rd rs1 rs2 : BitVec 5)
  | compare (comparison : FloatingComparison) (format : FloatingFormat) (rd rs1 rs2 : BitVec 5)
  | toInteger (format : FloatingFormat) (width : IntegerWidth) (unsigned : Bool) (rd rs1 : BitVec 5)
    (rm : BitVec 3)
  | fromInteger (format : FloatingFormat) (width : IntegerWidth) (unsigned : Bool)
    (rd rs1 : BitVec 5) (rm : BitVec 3)
  | classify (format : FloatingFormat) (rd rs1 : BitVec 5)
  | moveToInteger (format : FloatingFormat) (rd rs1 : BitVec 5)
  | moveFromInteger (format : FloatingFormat) (rd rs1 : BitVec 5)
  | convert (destination source : FloatingFormat) (rd rs1 : BitVec 5) (rm : BitVec 3)
  deriving DecidableEq, Repr

inductive FloatingInstruction
  | load (format : FloatingFormat) (rd rs1 : BitVec 5) (offset : BitVec 64)
  | store (format : FloatingFormat) (rs1 rs2 : BitVec 5) (offset : BitVec 64)
  | compute (computation : Computation)
  deriving DecidableEq, Repr

/-- A register and the value written to it. -/
inductive Written
  | floating (rd : BitVec 5) (value : BitVec 64)
  | integer (rd : BitVec 5) (value : BitVec 64)
  deriving DecidableEq, Repr

structure Outcome where
  written : Written
  flags : BitVec 8 := 0#8
  deriving DecidableEq, Repr

section Semantics

variable (x f : BitVec 5 → BitVec 64) (frm : BitVec 3)

def FloatingOperation.result (format : FloatingFormat) (a b : BitVec 64)
    (mode : FloatingRoundingMode) : FloatingOperation → FloatingResult
  | add => floatingAdd format a b mode
  | subtract => floatingSubtract format a b mode
  | multiply => floatingMultiply format a b mode
  | divide => floatingDivide format a b mode

/-- A result in a floating-point register. -/
def Outcome.ofResult (format : FloatingFormat) (rd : BitVec 5) (result : FloatingResult) :
    Outcome :=
  { written := .floating rd (boxed result.bits format), flags := result.flags }

/-- What a computation writes; none if its rounding mode is reserved.  The moves transfer the bits
of the register as they are. -/
def Computation.outcome : Computation → Option Outcome
  | fused format negateProduct negateAddend rd rs1 rs2 rs3 rm =>
    (rounding rm frm).map fun mode ↦ .ofResult format rd
      (floatingFusedMultiplyAdd format (operand (f rs1) format) (operand (f rs2) format)
        (operand (f rs3) format) negateProduct negateAddend mode)
  | arithmetic operation format rd rs1 rs2 rm =>
    (rounding rm frm).map fun mode ↦ .ofResult format rd
      (operation.result format (operand (f rs1) format) (operand (f rs2) format) mode)
  | squareRoot format rd rs1 rm =>
    (rounding rm frm).map fun mode ↦ .ofResult format rd
      (floatingSquareRoot format (operand (f rs1) format) mode)
  | signInject format variant rd rs1 rs2 =>
    some (.ofResult format rd
      { bits := floatingSignInject format (operand (f rs1) format)
          (operand (f rs2) format) variant })
  | minimumMaximum format maximum rd rs1 rs2 =>
    some (.ofResult format rd
      (floatingMinimumMaximum format (operand (f rs1) format) (operand (f rs2) format) maximum))
  | compare comparison format rd rs1 rs2 =>
    let result :=
      floatingCompare format (operand (f rs1) format) (operand (f rs2) format) comparison
    some
      { written := .integer rd (if result.value then 1#64 else 0#64), flags := result.flags }
  | toInteger format width unsigned rd rs1 rm =>
    (rounding rm frm).map fun mode ↦
      let result := floatingToInteger format (operand (f rs1) format) unsigned width mode
      let value := if width = .word then (result.value.setWidth 32).signExtend 64 else result.value
      { written := .integer rd value, flags := result.flags }
  | fromInteger format width unsigned rd rs1 rm =>
    (rounding rm frm).map fun mode ↦ .ofResult format rd
      (floatingFromInteger format (x rs1) unsigned width mode)
  | classify format rd rs1 =>
    some { written := .integer rd ((floatingClassify format (operand (f rs1) format)).setWidth 64) }
  | moveToInteger format rd rs1 =>
    let value :=
      match format with
      | .single => ((f rs1).setWidth 32).signExtend 64
      | .double => f rs1
    some { written := .integer rd value }
  | moveFromInteger format rd rs1 => some (.ofResult format rd { bits := x rs1 })
  | convert destination source rd rs1 rm =>
    (rounding rm frm).map fun mode ↦ .ofResult destination rd
      (floatingConvertFormat destination source (operand (f rs1) source) mode)

end Semantics

/-! ## Encodings -/

section Encoding

variable (bits : BitVec 32)

def format (fmt : BitVec 2) : Option FloatingFormat :=
  if fmt = 0#2 then some .single else if fmt = 1#2 then some .double else none

/-- FLW and FLD, FSW and FSD. -/
def accessFormat (function3 : BitVec 3) : Option FloatingFormat :=
  if function3 = 2#3 then some .single else if function3 = 3#3 then some .double else none

def comparison (function3 : BitVec 3) : Option FloatingComparison :=
  if function3 = 0#3 then some .lessThanOrEqual
  else if function3 = 1#3 then some .lessThan
  else if function3 = 2#3 then some .equal
  else none

/-- W, WU, L and LU. -/
def integerFormat (rs2 : BitVec 5) : Option (IntegerWidth × Bool) :=
  if rs2 = 0#5 then some (.word, false)
  else if rs2 = 1#5 then some (.word, true)
  else if rs2 = 2#5 then some (.doubleWord, false)
  else if rs2 = 3#5 then some (.doubleWord, true)
  else none

/-- OP-FP. -/
def Computation.decode (format : FloatingFormat) : Option Computation :=
  let rd := bits.extractLsb' 7 5
  let rm := bits.extractLsb' 12 3
  let rs1 := bits.extractLsb' 15 5
  let rs2 := bits.extractLsb' 20 5
  let function5 := bits.extractLsb' 27 5
  if function5 = 0x00#5 then some (.arithmetic .add format rd rs1 rs2 rm)
  else if function5 = 0x01#5 then some (.arithmetic .subtract format rd rs1 rs2 rm)
  else if function5 = 0x02#5 then some (.arithmetic .multiply format rd rs1 rs2 rm)
  else if function5 = 0x03#5 then some (.arithmetic .divide format rd rs1 rs2 rm)
  else if function5 = 0x0B#5 then if rs2 = 0#5 then some (.squareRoot format rd rs1 rm) else none
  else if function5 = 0x04#5 then
    if rm = 0#3 ∨ rm = 1#3 ∨ rm = 2#3 then some (.signInject format rm rd rs1 rs2) else none
  else if function5 = 0x05#5 then
    if rm = 0#3 then some (.minimumMaximum format false rd rs1 rs2)
    else if rm = 1#3 then some (.minimumMaximum format true rd rs1 rs2)
    else none
  else if function5 = 0x14#5 then
    (comparison rm).map fun comparison ↦ .compare comparison format rd rs1 rs2
  else if function5 = 0x18#5 then
    (integerFormat rs2).map fun integer ↦ .toInteger format integer.1 integer.2 rd rs1 rm
  else if function5 = 0x1A#5 then
    (integerFormat rs2).map fun integer ↦ .fromInteger format integer.1 integer.2 rd rs1 rm
  else if function5 = 0x1C#5 then
    if rs2 ≠ 0#5 then none
    else if rm = 0#3 then some (.moveToInteger format rd rs1)
    else if rm = 1#3 then some (.classify format rd rs1)
    else none
  else if function5 = 0x1E#5 then
    if rs2 = 0#5 ∧ rm = 0#3 then some (.moveFromInteger format rd rs1) else none
  else if function5 = 0x08#5 then  -- FCVT.S.D and FCVT.D.S
    match format with
    | .single => if rs2 = 1#5 then some (.convert .single .double rd rs1 rm) else none
    | .double => if rs2 = 0#5 then some (.convert .double .single rd rs1 rm) else none
  else none

def FloatingInstruction.decode : Option FloatingInstruction :=
  let opcode := bits.extractLsb' 0 7
  let rd := bits.extractLsb' 7 5
  let function3 := bits.extractLsb' 12 3
  let rs1 := bits.extractLsb' 15 5
  let rs2 := bits.extractLsb' 20 5
  let rs3 := bits.extractLsb' 27 5
  let fused negateProduct negateAddend :=
    (format (bits.extractLsb' 25 2)).map fun format ↦
      .compute (.fused format negateProduct negateAddend rd rs1 rs2 rs3 function3)
  if opcode = 0x07#7 then
    (accessFormat function3).map fun format ↦ .load format rd rs1 (immediateI bits)
  else if opcode = 0x27#7 then
    (accessFormat function3).map fun format ↦ .store format rs1 rs2 (immediateS bits)
  else if opcode = 0x43#7 then fused false false  -- FMADD
  else if opcode = 0x47#7 then fused false true  -- FMSUB
  else if opcode = 0x4B#7 then fused true false  -- FNMSUB
  else if opcode = 0x4F#7 then fused true true  -- FNMADD
  else if opcode = 0x53#7 then
    (format (bits.extractLsb' 25 2)).bind fun format ↦
      (Computation.decode bits format).map .compute
  else none

end Encoding

end Rvemu.Isa
