import Rvemu.Core.FloatingState
import Rvemu.Float.Wide
import Mathlib.Data.Int.Notation

/-!
# The soft-float core

IEEE 754 binary32 and binary64 arithmetic over bit patterns.  Operands are unpacked into a sign, a
category and `significand * 2 ^ exponent`; results are formed exactly in a `WideUnsigned` and
rounded once, by `roundAndPack`.
-/

set_option autoImplicit false

namespace Rvemu

inductive FloatingFormat
  | single | double
  deriving DecidableEq, Repr

inductive FloatingComparison
  | equal | lessThan | lessThanOrEqual
  deriving DecidableEq, Repr

structure FloatingResult where
  bits : BitVec 64 := 0#64
  flags : BitVec 8 := 0#8
  deriving DecidableEq, Repr

structure FloatingIntegerResult where
  value : BitVec 64 := 0#64
  flags : BitVec 8 := 0#8
  deriving DecidableEq, Repr

structure FloatingComparisonResult where
  value : Bool := false
  flags : BitVec 8 := 0#8
  deriving DecidableEq, Repr

namespace SoftFloat

structure Format where
  exponentBits : ℕ
  fractionBits : ℕ
  bias : ℤ
  minimumExponent : ℤ
  maximumExponent : ℤ
  signMask : BitVec 64
  exponentMask : BitVec 64
  fractionMask : BitVec 64
  canonicalNan : BitVec 64
  deriving DecidableEq, Repr

def singleFormat : Format where
  exponentBits := 8
  fractionBits := 23
  bias := 127
  minimumExponent := -126
  maximumExponent := 127
  signMask := 0x80000000#64
  exponentMask := 0x7F800000#64
  fractionMask := 0x007FFFFF#64
  canonicalNan := canonicalSingleNan.setWidth 64

def doubleFormat : Format where
  exponentBits := 11
  fractionBits := 52
  bias := 1023
  minimumExponent := -1022
  maximumExponent := 1023
  signMask := 0x8000000000000000#64
  exponentMask := 0x7FF0000000000000#64
  fractionMask := 0x000FFFFFFFFFFFFF#64
  canonicalNan := canonicalDoubleNan

def formatOf : FloatingFormat → Format
  | .single => singleFormat
  | .double => doubleFormat

inductive Category
  | zero | finite | infinity | quietNan | signalingNan
  deriving DecidableEq, Repr

structure Unpacked where
  sign : Bool := false
  category : Category := .zero
  significand : BitVec 64 := 0#64
  exponent : ℤ := 0
  deriving DecidableEq, Repr

def exponentAllOnes (format : Format) : BitVec 64 := (1#64 <<< format.exponentBits) - 1#64

def unpack (floatingFormat : FloatingFormat) (bits : BitVec 64) : Unpacked :=
  let format := formatOf floatingFormat
  let sign := (bits &&& format.signMask) != 0#64
  let exponentField := (bits &&& format.exponentMask) >>> format.fractionBits
  let fraction := bits &&& format.fractionMask
  if exponentField = exponentAllOnes format then
    if fraction = 0#64 then { sign, category := .infinity }
    else
      let quietBit := 1#64 <<< (format.fractionBits - 1)
      { sign, category := if (fraction &&& quietBit) != 0#64 then .quietNan else .signalingNan }
  else if exponentField = 0#64 then
    if fraction = 0#64 then { sign, category := .zero }
    else
      { sign, category := .finite, significand := fraction,
        exponent := format.minimumExponent - format.fractionBits }
  else
    { sign, category := .finite, significand := (1#64 <<< format.fractionBits) ||| fraction,
      exponent := (exponentField.toNat : ℤ) - format.bias - format.fractionBits }

def isNan (category : Category) : Bool := category == .quietNan || category == .signalingNan

def invalidFlag : BitVec 8 := FloatingExceptionFlag.invalidOperation

def signedZero (format : Format) (sign : Bool) : BitVec 64 := if sign then format.signMask else 0#64

def infinity (format : Format) (sign : Bool) : BitVec 64 :=
  (if sign then format.signMask else 0#64) ||| format.exponentMask

/-! ## Rounding -/

def shouldIncrement (rounding : FloatingRoundingMode)
    (sign halfwayBit lowerBits retainedOdd : Bool) :
    Bool :=
  let discarded := halfwayBit || lowerBits
  match rounding with
  | .nearestTiesToEven => halfwayBit && (lowerBits || retainedOdd)
  | .towardZero => false
  | .down => sign && discarded
  | .up => !sign && discarded
  | .nearestTiesToMaximumMagnitude => halfwayBit

/-- Shift right by `shift`, rounding what is dropped; `inexact` is passed through when there is
nothing to drop. -/
def roundedRightShift (value : WideUnsigned) (shift : ℕ) (sign : Bool)
    (rounding : FloatingRoundingMode) (inexact : Bool) : WideUnsigned × Bool :=
  if shift = 0 then (value, inexact)
  else
    let halfway := value.bit (shift - 1)
    let lower := value.anyLowBits (shift - 1)
    let shifted := value.shiftRight shift
    (if shouldIncrement rounding sign halfway lower (shifted.bit 0) then
      shifted.add (.ofUInt64 1#64) else shifted, halfway || lower)

def overflowToInfinity (rounding : FloatingRoundingMode) (sign : Bool) : Bool :=
  rounding == .nearestTiesToEven || rounding == .nearestTiesToMaximumMagnitude
    || (rounding == .up && !sign) || (rounding == .down && sign)

/-- Bring a magnitude to exactly `precision` bits, rounding when it has more. -/
def normalizeTo (magnitude : WideUnsigned) (bitLength precision : ℕ) (sign : Bool)
    (rounding : FloatingRoundingMode) : WideUnsigned × Bool :=
  if bitLength > precision then
    roundedRightShift magnitude (bitLength - precision) sign rounding false
  else if bitLength < precision then (magnitude.shiftLeft (precision - bitLength), false)
  else (magnitude, false)

/-- Would the result be below the normal range if the exponent range were unbounded? -/
def tinyAfterUnboundedRounding (format : Format) (sign : Bool) (magnitude : WideUnsigned)
    (exponent : ℤ) (rounding : FloatingRoundingMode) : Bool :=
  if magnitude.zero then false
  else
    let precision := format.fractionBits + 1
    let bitLength := magnitude.bitLength
    let roundedExponent := exponent + (bitLength : ℤ) - 1
    let normalized := (normalizeTo magnitude bitLength precision sign rounding).1
    let roundedExponent :=
      if normalized.bitLength > precision then roundedExponent + 1 else roundedExponent
    decide (roundedExponent < format.minimumExponent)

/-- The bits of a sign, to be or-ed into a result. -/
def signBits (format : Format) (sign : Bool) : BitVec 64 := if sign then format.signMask else 0#64

/-- The part of `roundAndPack` for results in the normal range before rounding. -/
def packNormal (format : Format) (sign : Bool) (magnitude : WideUnsigned) (bitLength : ℕ)
    (resultExponent : ℤ) (tinyAfterRounding : Bool) (rounding : FloatingRoundingMode) :
    FloatingResult :=
  let precision := format.fractionBits + 1
  let normalized := normalizeTo magnitude bitLength precision sign rounding
  let carried := decide (normalized.1.bitLength > precision)
  let magnitude := if carried then normalized.1.shiftRight 1 else normalized.1
  let resultExponent := if carried then resultExponent + 1 else resultExponent
  if resultExponent > format.maximumExponent then
    let flags := FloatingExceptionFlag.overflow ||| FloatingExceptionFlag.inexact
    if overflowToInfinity rounding sign then { bits := infinity format sign, flags }
    else
      let maximumFinite :=
        ((exponentAllOnes format - 1#64) <<< format.fractionBits) ||| format.fractionMask
      { bits := signBits format sign ||| maximumFinite, flags }
  else
    let exponentField := BitVec.ofNat 64 (resultExponent + format.bias).toNat
    let fraction := magnitude.low64 &&& format.fractionMask
    let flags := if normalized.2 then FloatingExceptionFlag.inexact else 0#8
    let flags :=
      if normalized.2 && tinyAfterRounding then flags ||| FloatingExceptionFlag.underflow else flags
    { bits := signBits format sign ||| (exponentField <<< format.fractionBits) ||| fraction, flags }

/-- The part of `roundAndPack` for results below the normal range before rounding: the quantum is
fixed, and a result that rounds up to the boundary becomes the least normal number. -/
def packSubnormal (format : Format) (sign : Bool) (magnitude : WideUnsigned) (exponent : ℤ)
    (tinyAfterRounding : Bool) (rounding : FloatingRoundingMode) : FloatingResult :=
  let unitExponent := format.minimumExponent - format.fractionBits
  let quantized :=
    if exponent < unitExponent then
      roundedRightShift magnitude (unitExponent - exponent).toNat sign rounding false
    else if exponent > unitExponent then
      (magnitude.shiftLeft (exponent - unitExponent).toNat, false)
    else (magnitude, false)
  let minimumNormal := 1#64 <<< format.fractionBits
  let encodedMagnitude := quantized.1.low64
  let bits :=
    signBits format sign |||
      (if encodedMagnitude ≥ minimumNormal then 1#64 <<< format.fractionBits else encodedMagnitude)
  let flags :=
    if quantized.2 then
      FloatingExceptionFlag.inexact |||
        (if tinyAfterRounding then FloatingExceptionFlag.underflow else 0#8)
    else 0#8
  { bits, flags }

/-- Round `magnitude * 2 ^ exponent` to the format and encode it; the only place where results are
rounded. -/
def roundAndPack (format : Format) (sign : Bool) (magnitude : WideUnsigned) (exponent : ℤ)
    (rounding : FloatingRoundingMode) : FloatingResult :=
  if magnitude.zero then { bits := signedZero format sign }
  else
    let bitLength := magnitude.bitLength
    let resultExponent := exponent + (bitLength : ℤ) - 1
    let tinyAfterRounding := tinyAfterUnboundedRounding format sign magnitude exponent rounding
    if resultExponent ≥ format.minimumExponent then
      packNormal format sign magnitude bitLength resultExponent tinyAfterRounding rounding
    else packSubnormal format sign magnitude exponent tinyAfterRounding rounding

def roundToIntegerMagnitude (magnitude : WideUnsigned) (exponent : ℤ) (sign : Bool)
    (rounding : FloatingRoundingMode) : WideUnsigned × Bool :=
  if exponent ≥ 0 then (magnitude.shiftLeft exponent.toNat, false)
  else roundedRightShift magnitude (-exponent).toNat sign rounding false

/-! ## Significands -/

/-- The shift-and-add loop; it ends when `rhs` is exhausted, after at most 64 rounds. -/
def multiplyLoop (result shifted : WideUnsigned) (rhs : BitVec 64) : ℕ → WideUnsigned
  | 0 => result
  | rounds + 1 =>
    if rhs = 0#64 then result
    else
      multiplyLoop (if (rhs &&& 1#64) != 0#64 then result.add shifted else result)
        (shifted.shiftLeft 1) (rhs >>> 1) rounds

def multiplySignificands (lhs rhs : BitVec 64) : WideUnsigned :=
  multiplyLoop (.ofUInt64 0#64) (.ofUInt64 lhs) rhs 64

/-- The restoring division loop over the bits of the dividend, from `index - 1` down. -/
def divideLoop (dividend : WideUnsigned) (denominator : BitVec 64) :
    ℕ → WideUnsigned × BitVec 64 → WideUnsigned × BitVec 64
  | 0, s => s
  | index + 1, s =>
    let remainder := (s.2 <<< 1) ||| (if dividend.bit index then 1#64 else 0#64)
    divideLoop dividend denominator index
      (if remainder ≥ denominator then (s.1.setBit index, remainder - denominator)
        else (s.1, remainder))

def divideSignificands (numerator denominator : BitVec 64) (precision : ℕ) : WideUnsigned × Bool :=
  let dividend := (WideUnsigned.ofUInt64 numerator).shiftLeft precision
  let divided := divideLoop dividend denominator dividend.bitLength (.ofUInt64 0#64, 0#64)
  (divided.1, divided.2 != 0#64)

/-- The digit-by-digit square root loop over pairs of bits, from pair `pair - 1` down; the state is
the root and the remainder. -/
def squareRootLoop (radicand : WideUnsigned) :
    ℕ → WideUnsigned × WideUnsigned → WideUnsigned × WideUnsigned
  | 0, s => s
  | pair + 1, s =>
    let lowBit := pair * 2
    let remainder := s.2.shiftLeft 2
    let remainder := if radicand.bit lowBit then remainder.setBit 0 else remainder
    let remainder := if radicand.bit (lowBit + 1) then remainder.setBit 1 else remainder
    let root := s.1.shiftLeft 1
    let trial := (root.shiftLeft 1).add (.ofUInt64 1#64)
    squareRootLoop radicand pair
      (if remainder.compare trial ≠ .lt then
        (root.add (.ofUInt64 1#64), remainder.subtract trial) else (root, remainder))

def squareRootSignificand (significand : BitVec 64) (shiftPairs : ℕ) : WideUnsigned × Bool :=
  let radicand := (WideUnsigned.ofUInt64 significand).shiftLeft (shiftPairs * 2)
  let pairs := (radicand.bitLength + 1) / 2
  let rooted := squareRootLoop radicand pairs (.ofUInt64 0#64, .ofUInt64 0#64)
  (rooted.1, !rooted.2.zero)

/-! ## Addition -/

def invalidResult (format : Format) : FloatingResult :=
  { bits := format.canonicalNan, flags := invalidFlag }

/-- The result for NaN operands: the canonical NaN, invalid when one of them signals. -/
def nanResult (format : Format) (signaling : Bool) : FloatingResult :=
  { bits := format.canonicalNan, flags := if signaling then invalidFlag else 0#8 }

/-- Add two signed magnitudes on a common exponent and round. -/
def addMagnitudes (format : Format) (lhsSign : Bool) (left : WideUnsigned) (rhsSign : Bool)
    (right : WideUnsigned) (commonExponent : ℤ) (rounding : FloatingRoundingMode) :
    FloatingResult :=
  if lhsSign = rhsSign then
    roundAndPack format lhsSign (left.add right) commonExponent rounding
  else
    match left.compare right with
    | .eq => { bits := signedZero format (rounding == .down) }
    | .gt => roundAndPack format lhsSign (left.subtract right) commonExponent rounding
    | .lt => roundAndPack format rhsSign (right.subtract left) commonExponent rounding

def addUnpacked (format : Format) (lhs rhs : Unpacked) (rounding : FloatingRoundingMode) :
    FloatingResult :=
  if isNan lhs.category || isNan rhs.category then
    nanResult format (lhs.category == .signalingNan || rhs.category == .signalingNan)
  else if lhs.category = .infinity ∨ rhs.category = .infinity then
    if lhs.category = .infinity ∧ rhs.category = .infinity ∧ lhs.sign ≠ rhs.sign then
      invalidResult format
    else
      { bits := infinity format (if lhs.category = .infinity then lhs.sign else rhs.sign) }
  else if lhs.category = .zero ∧ rhs.category = .zero then
    let sign := if lhs.sign = rhs.sign then lhs.sign else rounding == .down
    { bits := signedZero format sign }
  else if lhs.category = .zero then
    roundAndPack format rhs.sign (.ofUInt64 rhs.significand) rhs.exponent rounding
  else if rhs.category = .zero then
    roundAndPack format lhs.sign (.ofUInt64 lhs.significand) lhs.exponent rounding
  else
    let commonExponent := min lhs.exponent rhs.exponent
    let left := (WideUnsigned.ofUInt64 lhs.significand).shiftLeft
      (lhs.exponent - commonExponent).toNat
    let right := (WideUnsigned.ofUInt64 rhs.significand).shiftLeft
      (rhs.exponent - commonExponent).toNat
    addMagnitudes format lhs.sign left rhs.sign right commonExponent rounding

def numericLess (format : Format) (lhsBits rhsBits : BitVec 64) : Bool :=
  let lhsMagnitude := lhsBits &&& ~~~format.signMask
  let rhsMagnitude := rhsBits &&& ~~~format.signMask
  if lhsMagnitude = 0#64 ∧ rhsMagnitude = 0#64 then false
  else
    let lhsSign := (lhsBits &&& format.signMask) != 0#64
    let rhsSign := (rhsBits &&& format.signMask) != 0#64
    if lhsSign ≠ rhsSign then lhsSign
    else if lhsSign then decide (lhsMagnitude > rhsMagnitude)
    else decide (lhsMagnitude < rhsMagnitude)

end SoftFloat

open SoftFloat

/-! ## The operations -/

def floatingAdd (format : FloatingFormat) (lhs rhs : BitVec 64) (rounding : FloatingRoundingMode) :
    FloatingResult :=
  addUnpacked (formatOf format) (unpack format lhs) (unpack format rhs) rounding

def floatingSubtract (format : FloatingFormat) (lhs rhs : BitVec 64)
    (rounding : FloatingRoundingMode) : FloatingResult :=
  floatingAdd format lhs (rhs ^^^ (formatOf format).signMask) rounding

def floatingMultiply (formatName : FloatingFormat) (lhsBits rhsBits : BitVec 64)
    (rounding : FloatingRoundingMode) : FloatingResult :=
  let format := formatOf formatName
  let lhs := unpack formatName lhsBits
  let rhs := unpack formatName rhsBits
  if isNan lhs.category || isNan rhs.category then
    nanResult format (lhs.category == .signalingNan || rhs.category == .signalingNan)
  else
    let sign := lhs.sign != rhs.sign
    let zero := lhs.category == .zero || rhs.category == .zero
    let infinite := lhs.category == .infinity || rhs.category == .infinity
    if zero && infinite then invalidResult format
    else if infinite then { bits := infinity format sign }
    else if zero then { bits := signedZero format sign }
    else
      roundAndPack format sign (multiplySignificands lhs.significand rhs.significand)
        (lhs.exponent + rhs.exponent) rounding

def floatingDivide (formatName : FloatingFormat) (lhsBits rhsBits : BitVec 64)
    (rounding : FloatingRoundingMode) : FloatingResult :=
  let format := formatOf formatName
  let lhs := unpack formatName lhsBits
  let rhs := unpack formatName rhsBits
  if isNan lhs.category || isNan rhs.category then
    nanResult format (lhs.category == .signalingNan || rhs.category == .signalingNan)
  else
    let sign := lhs.sign != rhs.sign
    if (lhs.category = .zero ∧ rhs.category = .zero)
        ∨ (lhs.category = .infinity ∧ rhs.category = .infinity) then invalidResult format
    else if lhs.category = .infinity then { bits := infinity format sign }
    else if rhs.category = .infinity then { bits := signedZero format sign }
    else if rhs.category = .zero then
      { bits := infinity format sign, flags := FloatingExceptionFlag.divideByZero }
    else if lhs.category = .zero then { bits := signedZero format sign }
    else
      let precision := format.fractionBits + 128
      let divided := divideSignificands lhs.significand rhs.significand precision
      let quotient := divided.1.shiftLeft 1
      let quotient := if divided.2 then quotient.setBit 0 else quotient
      roundAndPack format sign quotient (lhs.exponent - rhs.exponent - precision - 1) rounding

/-- An odd exponent is made even first, so that halving it is exact. -/
def floatingSquareRoot (formatName : FloatingFormat) (operandBits : BitVec 64)
    (rounding : FloatingRoundingMode) : FloatingResult :=
  let format := formatOf formatName
  let operand := unpack formatName operandBits
  if isNan operand.category then nanResult format (operand.category == .signalingNan)
  else if operand.category = .zero then { bits := signedZero format operand.sign }
  else if operand.sign then invalidResult format
  else if operand.category = .infinity then { bits := infinity format false }
  else
    let odd := decide (operand.exponent % 2 ≠ 0)
    let significand := if odd then operand.significand <<< 1 else operand.significand
    let exponent := if odd then operand.exponent - 1 else operand.exponent
    let precision := format.fractionBits + 5
    let sourceBits := (WideUnsigned.ofUInt64 significand).bitLength
    let sourceRootBits := (sourceBits + 1) / 2
    let shiftPairs := if precision > sourceRootBits then precision - sourceRootBits else 0
    let rooted := squareRootSignificand significand shiftPairs
    let root := rooted.1.shiftLeft 1
    let root := if rooted.2 then root.setBit 0 else root
    roundAndPack format false root (exponent.tdiv 2 - shiftPairs - 1) rounding

def floatingFusedMultiplyAdd (formatName : FloatingFormat)
    (multiplicandBits multiplierBits addendBits : BitVec 64) (negateProduct negateAddend : Bool)
    (rounding : FloatingRoundingMode) : FloatingResult :=
  let format := formatOf formatName
  let lhs := unpack formatName multiplicandBits
  let rhs := unpack formatName multiplierBits
  let addend := unpack formatName addendBits
  if (lhs.category = .infinity ∧ rhs.category = .zero)
      ∨ (rhs.category = .infinity ∧ lhs.category = .zero) then invalidResult format
  else if isNan lhs.category || isNan rhs.category || isNan addend.category then
    nanResult format (lhs.category == .signalingNan || rhs.category == .signalingNan
      || addend.category == .signalingNan)
  else
    let productSign := (lhs.sign != rhs.sign) != negateProduct
    let addendSign := addend.sign != negateAddend
    if lhs.category = .infinity ∨ rhs.category = .infinity then
      if addend.category = .infinity ∧ productSign ≠ addendSign then invalidResult format
      else { bits := infinity format productSign }
    else if addend.category = .infinity then { bits := infinity format addendSign }
    else if (lhs.category = .zero ∨ rhs.category = .zero) ∧ addend.category = .zero then
      let sign := if productSign = addendSign then productSign else rounding == .down
      { bits := signedZero format sign }
    else if lhs.category = .zero ∨ rhs.category = .zero then
      roundAndPack format addendSign (.ofUInt64 addend.significand) addend.exponent rounding
    else
      let product := multiplySignificands lhs.significand rhs.significand
      let exponent := lhs.exponent + rhs.exponent
      if addend.category = .zero then roundAndPack format productSign product exponent rounding
      else
        let commonExponent := min exponent addend.exponent
        let product := product.shiftLeft (exponent - commonExponent).toNat
        let addendMagnitude := (WideUnsigned.ofUInt64 addend.significand).shiftLeft
          (addend.exponent - commonExponent).toNat
        addMagnitudes format productSign product addendSign addendMagnitude commonExponent rounding

def floatingSignInject (formatName : FloatingFormat) (magnitude signSource : BitVec 64)
    (operation : BitVec 3) : BitVec 64 :=
  let signMask := (formatOf formatName).signMask
  let firstSign := magnitude &&& signMask
  let secondSign := signSource &&& signMask
  let resultSign :=
    if operation = 1#3 then secondSign ^^^ signMask
    else if operation = 2#3 then firstSign ^^^ secondSign
    else secondSign
  (magnitude &&& ~~~signMask) ||| resultSign

def floatingMinimumMaximum (formatName : FloatingFormat) (lhsBits rhsBits : BitVec 64)
    (maximum : Bool) : FloatingResult :=
  let format := formatOf formatName
  let lhs := unpack formatName lhsBits
  let rhs := unpack formatName rhsBits
  let signaling := lhs.category == .signalingNan || rhs.category == .signalingNan
  let flags := if signaling then invalidFlag else 0#8
  if isNan lhs.category && isNan rhs.category then { bits := format.canonicalNan, flags }
  else if isNan lhs.category then { bits := rhsBits, flags }
  else if isNan rhs.category then { bits := lhsBits, flags }
  else
    let less := numericLess format lhsBits rhsBits
    let equal := !less && !numericLess format rhsBits lhsBits
    if equal then
      if lhsBits &&& ~~~format.signMask = 0#64 ∧ rhsBits &&& ~~~format.signMask = 0#64 then
        { bits := if maximum then lhsBits &&& rhsBits else lhsBits ||| rhsBits }
      else { bits := lhsBits }
    else
      { bits := if maximum then (if less then rhsBits else lhsBits)
          else (if less then lhsBits else rhsBits) }

def floatingCompare (formatName : FloatingFormat) (lhsBits rhsBits : BitVec 64)
    (comparison : FloatingComparison) : FloatingComparisonResult :=
  let format := formatOf formatName
  let lhs := unpack formatName lhsBits
  let rhs := unpack formatName rhsBits
  if isNan lhs.category || isNan rhs.category then
    let signalingComparison := comparison != .equal
    let signalingNan := lhs.category == .signalingNan || rhs.category == .signalingNan
    { value := false, flags := if signalingComparison || signalingNan then invalidFlag else 0#8 }
  else
    let less := numericLess format lhsBits rhsBits
    let equal := !less && !numericLess format rhsBits lhsBits
    match comparison with
    | .equal => { value := equal }
    | .lessThan => { value := less }
    | .lessThanOrEqual => { value := less || equal }

def floatingClassify (formatName : FloatingFormat) (operandBits : BitVec 64) : BitVec 16 :=
  let operand := unpack formatName operandBits
  match operand.category with
  | .infinity => 1#16 <<< (if operand.sign then 0 else 7)
  | .zero => 1#16 <<< (if operand.sign then 3 else 4)
  | .signalingNan => 1#16 <<< 8
  | .quietNan => 1#16 <<< 9
  | .finite =>
    let format := formatOf formatName
    let exponentField := (operandBits &&& format.exponentMask) >>> format.fractionBits
    let subnormal := exponentField == 0#64
    if operand.sign then 1#16 <<< (if subnormal then 2 else 1)
    else 1#16 <<< (if subnormal then 5 else 6)

/-! ## Conversions -/

/-- The integer widths of the conversion instructions. -/
inductive IntegerWidth
  | word | doubleWord
  deriving DecidableEq, Repr

def widthMask : IntegerWidth → BitVec 64
  | .word => 0xFFFFFFFF#64
  | .doubleWord => BitVec.allOnes 64

def signedMaximum : IntegerWidth → BitVec 64
  | .word => 0x7FFFFFFF#64
  | .doubleWord => 0x7FFFFFFFFFFFFFFF#64

def signedMinimumBits : IntegerWidth → BitVec 64
  | .word => 0x80000000#64
  | .doubleWord => 0x8000000000000000#64

def invalidIntegerResult (sign unsignedInteger : Bool) (width : IntegerWidth) :
    FloatingIntegerResult :=
  { value :=
      if unsignedInteger then (if sign then 0#64 else widthMask width)
      else (if sign then signedMinimumBits width else signedMaximum width)
    flags := FloatingExceptionFlag.invalidOperation }

def floatingConvertFormat (destination source : FloatingFormat) (operandBits : BitVec 64)
    (rounding : FloatingRoundingMode) : FloatingResult :=
  let target := formatOf destination
  let operand := unpack source operandBits
  if isNan operand.category then nanResult target (operand.category == .signalingNan)
  else if operand.category = .infinity then { bits := infinity target operand.sign }
  else if operand.category = .zero then { bits := signedZero target operand.sign }
  else
    roundAndPack target operand.sign (.ofUInt64 operand.significand) operand.exponent rounding

def floatingFromInteger (destination : FloatingFormat) (operand : BitVec 64)
    (unsignedInteger : Bool) (integerWidth : IntegerWidth) (rounding : FloatingRoundingMode) :
    FloatingResult :=
  let mask := widthMask integerWidth
  let operand := operand &&& mask
  let sign := !unsignedInteger && (operand &&& signedMinimumBits integerWidth) != 0#64
  let magnitude := if sign then (~~~operand + 1#64) &&& mask else operand
  roundAndPack (formatOf destination) sign (.ofUInt64 magnitude) 0 rounding

def floatingToInteger (source : FloatingFormat) (operandBits : BitVec 64) (unsignedInteger : Bool)
    (integerWidth : IntegerWidth) (rounding : FloatingRoundingMode) : FloatingIntegerResult :=
  let operand := unpack source operandBits
  if isNan operand.category then invalidIntegerResult false unsignedInteger integerWidth
  else if operand.category = .infinity then
    invalidIntegerResult operand.sign unsignedInteger integerWidth
  else if operand.category = .zero then {}
  else
    let rounded := roundToIntegerMagnitude (.ofUInt64 operand.significand) operand.exponent
      operand.sign rounding
    let flags := if rounded.2 then FloatingExceptionFlag.inexact else 0#8
    let value := rounded.1.low64
    if rounded.1.bitLength > 64 then
      invalidIntegerResult operand.sign unsignedInteger integerWidth
    else if unsignedInteger then
      if (operand.sign && value != 0#64) || value > widthMask integerWidth then
        invalidIntegerResult operand.sign true integerWidth
      else { value, flags }
    else if (operand.sign && value > signedMinimumBits integerWidth)
        || (!operand.sign && value > signedMaximum integerWidth) then
      invalidIntegerResult operand.sign false integerWidth
    else
      { value := if operand.sign then (~~~value + 1#64) &&& widthMask integerWidth else value
        flags }

end Rvemu
