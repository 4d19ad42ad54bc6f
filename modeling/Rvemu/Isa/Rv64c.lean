import Rvemu.Isa.Rv64i

/-!
# RV64C as the manual defines it

What each 16-bit encoding stands for: an instruction of the base set, a double-precision load or
store, EBREAK, or a hint, which does nothing.  Encodings that are reserved stand for nothing.
Immediates are concatenations of fields, extended to 64 bits.
-/

set_option autoImplicit false

namespace Rvemu.Isa

inductive Compressed
  | base (i : Instruction)
  | loadDouble (rd rs1 : BitVec 5) (offset : BitVec 64)
  | storeDouble (rs1 rs2 : BitVec 5) (offset : BitVec 64)
  | breakpoint
  | hint
  deriving DecidableEq, Repr

namespace Compressed

section Fields

variable (bits : BitVec 16)

/-- The three-bit fields name x8 to x15. -/
def shortRegister (start : ℕ) : BitVec 5 := 1#2 ++ bits.extractLsb' start 3

/-- The six-bit field of the CI format. -/
def sixBits : BitVec 6 := bits.extractLsb' 12 1 ++ bits.extractLsb' 2 5

def immediate : BitVec 64 := (sixBits bits).signExtend 64

def shiftAmount : BitVec 64 := (sixBits bits).setWidth 64

/-- Offsets of words and double words from a register, and from the stack pointer. -/
def wordOffset : BitVec 64 :=
  (bits.extractLsb' 5 1 ++ bits.extractLsb' 10 3 ++ bits.extractLsb' 6 1 ++ 0#2).setWidth 64

def doubleOffset : BitVec 64 :=
  (bits.extractLsb' 5 2 ++ bits.extractLsb' 10 3 ++ 0#3).setWidth 64

def stackWordOffset : BitVec 64 :=
  (bits.extractLsb' 2 2 ++ bits.extractLsb' 12 1 ++ bits.extractLsb' 4 3 ++ 0#2).setWidth 64

def stackDoubleOffset : BitVec 64 :=
  (bits.extractLsb' 2 3 ++ bits.extractLsb' 12 1 ++ bits.extractLsb' 5 2 ++ 0#3).setWidth 64

def stackWordStoreOffset : BitVec 64 :=
  (bits.extractLsb' 7 2 ++ bits.extractLsb' 9 4 ++ 0#2).setWidth 64

def stackDoubleStoreOffset : BitVec 64 :=
  (bits.extractLsb' 7 3 ++ bits.extractLsb' 10 3 ++ 0#3).setWidth 64

/-- The immediates of C.ADDI4SPN, C.ADDI16SP and C.LUI. -/
def addi4spnImmediate : BitVec 64 :=
  (bits.extractLsb' 7 4 ++ bits.extractLsb' 11 2 ++ bits.extractLsb' 5 1 ++ bits.extractLsb' 6 1
    ++ 0#2).setWidth 64

def addi16spImmediate : BitVec 64 :=
  (bits.extractLsb' 12 1 ++ bits.extractLsb' 3 2 ++ bits.extractLsb' 5 1 ++ bits.extractLsb' 2 1
    ++ bits.extractLsb' 6 1 ++ 0#4).signExtend 64

def luiImmediate : BitVec 64 := (sixBits bits ++ 0#12).signExtend 64

def jumpOffset : BitVec 64 :=
  (bits.extractLsb' 12 1 ++ bits.extractLsb' 8 1 ++ bits.extractLsb' 9 2 ++ bits.extractLsb' 6 1
    ++ bits.extractLsb' 7 1 ++ bits.extractLsb' 2 1 ++ bits.extractLsb' 11 1 ++ bits.extractLsb' 3 3
    ++ 0#1).signExtend 64

def branchOffset : BitVec 64 :=
  (bits.extractLsb' 12 1 ++ bits.extractLsb' 5 2 ++ bits.extractLsb' 2 1 ++ bits.extractLsb' 10 2
    ++ bits.extractLsb' 3 2 ++ 0#1).signExtend 64

/-! ## The three quadrants -/

def quadrant0 (function3 : BitVec 3) : Option Compressed :=
  let low := shortRegister bits 2
  let high := shortRegister bits 7
  if function3 = 0#3 then  -- C.ADDI4SPN
    if addi4spnImmediate bits = 0#64 then none
    else some (.base (.compute .add low 2#5 (.immediate (addi4spnImmediate bits))))
  else if function3 = 1#3 then some (.loadDouble low high (doubleOffset bits))  -- C.FLD
  else if function3 = 2#3 then some (.base (.load .word true low high (wordOffset bits)))  -- C.LW
  else if function3 = 3#3 then  -- C.LD
    some (.base (.load .doubleWord true low high (doubleOffset bits)))
  else if function3 = 5#3 then some (.storeDouble high low (doubleOffset bits))  -- C.FSD
  else if function3 = 6#3 then some (.base (.store .word high low (wordOffset bits)))  -- C.SW
  else if function3 = 7#3 then  -- C.SD
    some (.base (.store .doubleWord high low (doubleOffset bits)))
  else none

/-- C.SUB, C.XOR, C.OR, C.AND, C.SUBW and C.ADDW. -/
def registerArithmetic (rd rs2 : BitVec 5) (word : BitVec 1) (function2 : BitVec 2) :
    Option Compressed :=
  if word = 0#1 then
    let operation : Operation :=
      if function2 = 0#2 then .sub else if function2 = 1#2 then .xor
      else if function2 = 2#2 then .or else .and
    some (.base (.compute operation rd rd (.register rs2)))
  else if function2 = 0#2 then some (.base (.computeWord .sub rd rd (.register rs2)))
  else if function2 = 1#2 then some (.base (.computeWord .add rd rd (.register rs2)))
  else none

def arithmetic (selector : BitVec 2) : Option Compressed :=
  let rd := shortRegister bits 7
  if selector = 0#2 then  -- C.SRLI
    if shiftAmount bits = 0#64 then some .hint
    else some (.base (.compute .srl rd rd (.immediate (shiftAmount bits))))
  else if selector = 1#2 then  -- C.SRAI
    if shiftAmount bits = 0#64 then some .hint
    else some (.base (.compute .sra rd rd (.immediate (shiftAmount bits))))
  else if selector = 2#2 then  -- C.ANDI
    some (.base (.compute .and rd rd (.immediate (immediate bits))))
  else
    registerArithmetic rd (shortRegister bits 2) (bits.extractLsb' 12 1) (bits.extractLsb' 5 2)

def quadrant1 (function3 : BitVec 3) : Option Compressed :=
  let rd := bits.extractLsb' 7 5
  if function3 = 0#3 then  -- C.NOP and C.ADDI
    if rd = 0#5 ∨ immediate bits = 0#64 then some .hint
    else some (.base (.compute .add rd rd (.immediate (immediate bits))))
  else if function3 = 1#3 then  -- C.ADDIW
    if rd = 0#5 then none
    else some (.base (.computeWord .add rd rd (.immediate (immediate bits))))
  else if function3 = 2#3 then  -- C.LI
    if rd = 0#5 then some .hint
    else some (.base (.compute .add rd 0#5 (.immediate (immediate bits))))
  else if function3 = 3#3 then
    if rd = 2#5 then  -- C.ADDI16SP
      if addi16spImmediate bits = 0#64 then none
      else some (.base (.compute .add 2#5 2#5 (.immediate (addi16spImmediate bits))))
    else if luiImmediate bits = 0#64 then none  -- C.LUI
    else if rd = 0#5 then some .hint
    else some (.base (.lui rd (luiImmediate bits)))
  else if function3 = 4#3 then arithmetic bits (bits.extractLsb' 10 2)
  else if function3 = 5#3 then some (.base (.jal 0#5 (jumpOffset bits)))  -- C.J
  else if function3 = 6#3 then  -- C.BEQZ
    some (.base (.branch .eq (shortRegister bits 7) 0#5 (branchOffset bits)))
  else  -- C.BNEZ
    some (.base (.branch .ne (shortRegister bits 7) 0#5 (branchOffset bits)))

/-- C.JR, C.MV, C.EBREAK, C.JALR and C.ADD. -/
def registerFormat : Option Compressed :=
  let rd := bits.extractLsb' 7 5
  let rs2 := bits.extractLsb' 2 5
  if bits.extractLsb' 12 1 = 0#1 then
    if rs2 = 0#5 then if rd = 0#5 then none else some (.base (.jalr 0#5 rd 0#64))
    else if rd = 0#5 then some .hint
    else some (.base (.compute .add rd 0#5 (.register rs2)))
  else if rs2 = 0#5 then
    if rd = 0#5 then some .breakpoint else some (.base (.jalr 1#5 rd 0#64))
  else if rd = 0#5 then some .hint
  else some (.base (.compute .add rd rd (.register rs2)))

def quadrant2 (function3 : BitVec 3) : Option Compressed :=
  let rd := bits.extractLsb' 7 5
  let rs2 := bits.extractLsb' 2 5
  if function3 = 0#3 then  -- C.SLLI
    if rd = 0#5 ∨ shiftAmount bits = 0#64 then some .hint
    else some (.base (.compute .sll rd rd (.immediate (shiftAmount bits))))
  else if function3 = 1#3 then some (.loadDouble rd 2#5 (stackDoubleOffset bits))  -- C.FLDSP
  else if function3 = 2#3 then  -- C.LWSP
    if rd = 0#5 then none else some (.base (.load .word true rd 2#5 (stackWordOffset bits)))
  else if function3 = 3#3 then  -- C.LDSP
    if rd = 0#5 then none
    else some (.base (.load .doubleWord true rd 2#5 (stackDoubleOffset bits)))
  else if function3 = 4#3 then registerFormat bits
  else if function3 = 5#3 then some (.storeDouble 2#5 rs2 (stackDoubleStoreOffset bits))  -- C.FSDSP
  else if function3 = 6#3 then  -- C.SWSP
    some (.base (.store .word 2#5 rs2 (stackWordStoreOffset bits)))
  else some (.base (.store .doubleWord 2#5 rs2 (stackDoubleStoreOffset bits)))  -- C.SDSP

/-- What an encoding stands for; those with both low bits set are not compressed. -/
def decode : Option Compressed :=
  let quadrant := bits.extractLsb' 0 2
  let function3 := bits.extractLsb' 13 3
  if quadrant = 0#2 then quadrant0 bits function3
  else if quadrant = 1#2 then quadrant1 bits function3
  else if quadrant = 2#2 then quadrant2 bits function3
  else none

end Fields

end Compressed

end Rvemu.Isa
