import Mathlib.Tactic.Common
import Mathlib.Algebra.Group.Nat.Defs

/-!
# Rounding modes, exception flags and NaN boxing
-/

set_option autoImplicit false

namespace Rvemu

/-- The five rounding modes of the manual. -/
inductive FloatingRoundingMode
  | nearestTiesToEven | towardZero | down | up | nearestTiesToMaximumMagnitude
  deriving DecidableEq, Repr

namespace FloatingExceptionFlag

def inexact : BitVec 8 := 1#8 <<< 0
def underflow : BitVec 8 := 1#8 <<< 1
def overflow : BitVec 8 := 1#8 <<< 2
def divideByZero : BitVec 8 := 1#8 <<< 3
def invalidOperation : BitVec 8 := 1#8 <<< 4

end FloatingExceptionFlag

/-- The flags that exist. -/
def floatingExceptionMask : BitVec 8 := 0x1F#8

/-- What every operation returns for NaN. -/
def canonicalSingleNan : BitVec 32 := 0x7FC00000#32

def canonicalDoubleNan : BitVec 64 := 0x7FF8000000000000#64

/-- The encodings from 5 on are not modes. -/
def decodeRoundingMode (encoded : BitVec 3) : Option FloatingRoundingMode :=
  if encoded = 0#3 then some .nearestTiesToEven
  else if encoded = 1#3 then some .towardZero
  else if encoded = 2#3 then some .down
  else if encoded = 3#3 then some .up
  else if encoded = 4#3 then some .nearestTiesToMaximumMagnitude
  else none

/-- The encoding 7 in an instruction selects the dynamic mode. -/
def resolveFloatingRoundingMode (instructionRoundingMode dynamicRoundingMode : BitVec 3) :
    Option FloatingRoundingMode :=
  if instructionRoundingMode = 7#3 then decodeRoundingMode dynamicRoundingMode
  else decodeRoundingMode instructionRoundingMode

/-- Only the flags that exist are kept. -/
def normalizeFloatingExceptionFlags (flags : BitVec 8) : BitVec 8 := flags &&& floatingExceptionMask

/-- A single in a register of 64 bits has ones above it. -/
def boxSinglePrecision (bits : BitVec 32) : BitVec 64 :=
  0xFFFFFFFF00000000#64 ||| bits.setWidth 64

/-- What is not boxed reads as NaN. -/
def unboxSinglePrecision (bits : BitVec 64) : BitVec 32 :=
  if bits >>> 32 = 0xFFFFFFFF#64 then bits.setWidth 32 else canonicalSingleNan

end Rvemu
