import Rvemu.Core.Decoder

/-!
# The integer arithmetic of I, M and A

Pure functions on 64-bit patterns: the shifts and comparisons of the base set, multiplication and
division, and the read-modify-write operations of the atomics.
-/

set_option autoImplicit false

namespace Rvemu

/-! ## Base set -/

/-- Flipping the sign bits turns the signed order into the unsigned one. -/
def signedLess {w : ℕ} (lhs rhs : BitVec w) : Bool :=
  let signBit := 1#w <<< (w - 1)
  decide (lhs ^^^ signBit < rhs ^^^ signBit)

/-- A shift of zero would shift the fill by the whole width. -/
def arithmeticShiftRight64 (value : BitVec 64) (amount : ℕ) : BitVec 64 :=
  if amount = 0 then value
  else
    let result := value >>> amount
    if (value &&& (1#64 <<< 63)) != 0#64 then result ||| (BitVec.allOnes 64 <<< (64 - amount))
    else result

def arithmeticShiftRight32 (value : BitVec 32) (amount : ℕ) : BitVec 32 :=
  if amount = 0 then value
  else
    let result := value >>> amount
    if (value &&& (1#32 <<< 31)) != 0#32 then result ||| (BitVec.allOnes 32 <<< (32 - amount))
    else result

/-- The low word, with its sign in the upper half. -/
def signExtendWord (value : BitVec 64) : BitVec 64 := signExtend (value &&& 0xFFFFFFFF#64) 32

/-! ## Multiplication and division -/

/-- Both halves of a product. -/
structure UnsignedProduct128 where
  low : BitVec 64
  high : BitVec 64
  deriving DecidableEq, Repr

/-- Schoolbook multiplication of halves: the middle sum carries into the upper word. -/
def multiplyUnsigned64 (lhs rhs : BitVec 64) : UnsignedProduct128 :=
  let limbMask := 0xFFFFFFFF#64
  let lhsLow := lhs &&& limbMask
  let lhsHigh := lhs >>> 32
  let rhsLow := rhs &&& limbMask
  let rhsHigh := rhs >>> 32
  let lowLow := lhsLow * rhsLow
  let lowHigh := lhsLow * rhsHigh
  let highLow := lhsHigh * rhsLow
  let highHigh := lhsHigh * rhsHigh
  let middle := (lowLow >>> 32) + (lowHigh &&& limbMask) + (highLow &&& limbMask)
  { low := (lowLow &&& limbMask) ||| (middle <<< 32)
    high := highHigh + (lowHigh >>> 32) + (highLow >>> 32) + (middle >>> 32) }

/-- The negative of a number modulo its width. -/
def twosComplementNegate {w : ℕ} (value : BitVec w) : BitVec w := ~~~value + 1#w

/-- What a signed division leaves. -/
structure SignedDivisionResult (w : ℕ) where
  quotient : BitVec w
  remainder : BitVec w
  deriving DecidableEq, Repr

/-- Division of magnitudes; the remainder has the sign of the dividend. -/
def divideSigned {w : ℕ} (dividend divisor : BitVec w) : SignedDivisionResult w :=
  let signBit := 1#w <<< (w - 1)
  if divisor = 0#w then { quotient := BitVec.allOnes w, remainder := dividend }
  else
    let dividendNegative := (dividend &&& signBit) != 0#w
    let divisorNegative := (divisor &&& signBit) != 0#w
    let dividendMagnitude := if dividendNegative then twosComplementNegate dividend else dividend
    let divisorMagnitude := if divisorNegative then twosComplementNegate divisor else divisor
    let quotient := dividendMagnitude / divisorMagnitude
    let remainder := dividendMagnitude % divisorMagnitude
    { quotient := if dividendNegative != divisorNegative then twosComplementNegate quotient
        else quotient
      remainder := if dividendNegative then twosComplementNegate remainder else remainder }

/-- A word result is sign-extended, whether the operation is signed or not. -/
def extendWord (value : BitVec 32) : BitVec 64 := signExtend (value.setWidth 64) 32

/-- The high products of signed operands correct the unsigned one. -/
def executeDoubleword (function3 : BitVec 3) (lhs rhs : BitVec 64) : Option (BitVec 64) :=
  if function3 = 0#3 then some (multiplyUnsigned64 lhs rhs).low  -- MUL
  else if function3 = 1#3 then  -- MULH
    let high := (multiplyUnsigned64 lhs rhs).high
    let high := if lhs >>> 63 ≠ 0#64 then high - rhs else high
    some (if rhs >>> 63 ≠ 0#64 then high - lhs else high)
  else if function3 = 2#3 then  -- MULHSU
    let high := (multiplyUnsigned64 lhs rhs).high
    some (if lhs >>> 63 ≠ 0#64 then high - rhs else high)
  else if function3 = 3#3 then some (multiplyUnsigned64 lhs rhs).high  -- MULHU
  else if function3 = 4#3 then some (divideSigned lhs rhs).quotient  -- DIV
  else if function3 = 5#3 then some (if rhs = 0#64 then BitVec.allOnes 64 else lhs / rhs)  -- DIVU
  else if function3 = 6#3 then some (divideSigned lhs rhs).remainder  -- REM
  else some (if rhs = 0#64 then lhs else lhs % rhs)  -- REMU

/-- The word forms; the high products have none. -/
def executeWord (function3 : BitVec 3) (lhs rhs : BitVec 64) : Option (BitVec 64) :=
  let lhsWord := lhs.setWidth 32
  let rhsWord := rhs.setWidth 32
  if function3 = 0#3 then some (extendWord (lhsWord * rhsWord))  -- MULW
  else if function3 = 4#3 then some (extendWord (divideSigned lhsWord rhsWord).quotient)  -- DIVW
  else if function3 = 5#3 then  -- DIVUW
    some (extendWord (if rhsWord = 0#32 then BitVec.allOnes 32 else lhsWord / rhsWord))
  else if function3 = 6#3 then some (extendWord (divideSigned lhsWord rhsWord).remainder)  -- REMW
  else if function3 = 7#3 then  -- REMUW
    some (extendWord (if rhsWord = 0#32 then lhsWord else lhsWord % rhsWord))
  else none

/-- The operations of the M extension. -/
def executeIntegerM (function3 : BitVec 3) (lhs rhs : BitVec 64) (wordOperation : Bool) :
    Option (BitVec 64) :=
  if wordOperation then executeWord function3 lhs rhs else executeDoubleword function3 lhs rhs

/-! ## Atomics -/

/-- The operations of an AMO. -/
inductive AtomicOperation
  | swap | add | xor | and | or | minimumSigned | maximumSigned | minimumUnsigned | maximumUnsigned
  deriving DecidableEq, Repr

/-- What an AMO stores. -/
def calculate {w : ℕ} (operation : AtomicOperation) (observed operand : BitVec w) : BitVec w :=
  match operation with
  | .swap => operand
  | .add => observed + operand
  | .xor => observed ^^^ operand
  | .and => observed &&& operand
  | .or => observed ||| operand
  | .minimumSigned => if signedLess observed operand then observed else operand
  | .maximumSigned => if signedLess observed operand then operand else observed
  | .minimumUnsigned => if observed < operand then observed else operand
  | .maximumUnsigned => if observed < operand then operand else observed

/-- `function5` of an AMO. -/
def decodeAtomicOperation (function5 : BitVec 5) : Option AtomicOperation :=
  if function5 = 0x01#5 then some .swap
  else if function5 = 0x00#5 then some .add
  else if function5 = 0x04#5 then some .xor
  else if function5 = 0x0C#5 then some .and
  else if function5 = 0x08#5 then some .or
  else if function5 = 0x10#5 then some .minimumSigned
  else if function5 = 0x14#5 then some .maximumSigned
  else if function5 = 0x18#5 then some .minimumUnsigned
  else if function5 = 0x1C#5 then some .maximumUnsigned
  else none

/-- A word operation works on the low halves. -/
def executeAtomicOperation (operation : AtomicOperation) (observed operand : BitVec 64)
    (wordOperation : Bool) : BitVec 64 :=
  if wordOperation then
    (calculate operation (observed.setWidth 32) (operand.setWidth 32)).setWidth 64
  else calculate operation observed operand

end Rvemu
