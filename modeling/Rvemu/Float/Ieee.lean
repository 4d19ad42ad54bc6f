import Rvemu.Float.SoftFloat
import Rvemu.Lib.Rounding
import Mathlib.Data.Rat.Cast.Order

/-!
# binary32 and binary64 as IEEE 754 defines them

The parameters of the two formats, what their encodings stand for, and what an operation delivers
whose exact result is known: the result rounded as if there were no largest exponent, or what the
mode prescribes when that is too large, with the flags.
-/

set_option autoImplicit false

namespace Rvemu

open Rounding

def FloatingRoundingMode.mode : FloatingRoundingMode → Mode
  | nearestTiesToEven => .nearestEven
  | towardZero => .towardZero
  | down => .down
  | up => .up
  | nearestTiesToMaximumMagnitude => .nearestAway

namespace Ieee

section Format

variable (format : FloatingFormat)

def exponentBits : ℕ :=
  match format with
  | .single => 8
  | .double => 11

def fractionBits : ℕ :=
  match format with
  | .single => 23
  | .double => 52

def precision : ℕ := fractionBits format + 1

def bias : ℕ := 2 ^ (exponentBits format - 1) - 1

def maximumExponent : ℤ := bias format

def minimumExponent : ℤ := 1 - bias format

/-- The exponent of the last digit of the subnormal numbers. -/
def leastExponent : ℤ := minimumExponent format - fractionBits format

def minimumNormal : ℚ := 2 ^ minimumExponent format

def maximumFinite : ℚ :=
  (2 ^ precision format - 1 : ℕ) * 2 ^ (maximumExponent format - fractionBits format)

end Format

/-- The number of bits of an encoding. -/
def width (format : FloatingFormat) : ℕ := fractionBits format + exponentBits format + 1

/-- What an encoding stands for. -/
inductive Datum
  | finite (negative : Bool) (magnitude : ℚ)
  | infinite (negative : Bool)
  | nan
  deriving DecidableEq, Repr

def decode (format : FloatingFormat) (bits : BitVec 64) : Datum :=
  let fraction := (bits.extractLsb' 0 (fractionBits format)).toNat
  let exponent := (bits.extractLsb' (fractionBits format) (exponentBits format)).toNat
  let negative := bits.getLsbD (fractionBits format + exponentBits format)
  if exponent = 2 ^ exponentBits format - 1 then
    if fraction = 0 then .infinite negative else .nan
  else if exponent = 0 then .finite negative (fraction * 2 ^ leastExponent format)
  else
    .finite negative ((2 ^ fractionBits format + fraction : ℕ) *
      2 ^ ((exponent : ℤ) - bias format - fractionBits format))

/-- The result of a number that is too large. -/
def overflowed (format : FloatingFormat) (mode : Mode) (negative : Bool) : Datum :=
  match mode with
  | .nearestEven | .nearestAway => .infinite negative
  | .towardZero => .finite negative (maximumFinite format)
  | .down => if negative then .infinite true else .finite false (maximumFinite format)
  | .up => if negative then .finite true (maximumFinite format) else .infinite false

/-- What is delivered for the exact result `±magnitude`.  It rounds to `±rounded` if the exponent
has no upper bound, and to `±unbounded` if it has none at all: the first decides about overflow, the
second about underflow. -/
structure Delivered (format : FloatingFormat) (mode : Mode) (negative : Bool)
    (magnitude rounded unbounded : ℚ) (result : FloatingResult) : Prop where
  width : result.bits.toNat < 2 ^ width format
  rounds : IsRounding (Grid (precision format) (leastExponent format))
    (EvenIn (precision format) (leastExponent format)) (signed negative magnitude)
    (signed negative rounded) mode
  roundsUnbounded : IsRounding (Grid (precision format) ⊥) (EvenIn (precision format) ⊥)
    (signed negative magnitude) (signed negative unbounded) mode
  nonneg : 0 ≤ rounded ∧ 0 ≤ unbounded
  value : decode format result.bits =
    if maximumFinite format < rounded then overflowed format mode negative
    else .finite negative rounded
  inexact : result.flags.getLsbD 0 = true ↔
    decode format result.bits ≠ .finite negative magnitude
  underflow : result.flags.getLsbD 1 = true ↔
    decode format result.bits ≠ .finite negative magnitude ∧ unbounded < minimumNormal format
  overflow : result.flags.getLsbD 2 = true ↔ maximumFinite format < rounded
  overflowInexact : maximumFinite format < rounded → result.flags.getLsbD 0 = true
  others : ∀ i, 3 ≤ i → result.flags.getLsbD i = false

/-- What is delivered for an exact result that need not be rational. -/
structure Rounded {K : Type*} [Field K] [LinearOrder K] (format : FloatingFormat) (mode : Mode)
    (negative : Bool) (magnitude : K) (rounded unbounded : ℚ) (result : FloatingResult) : Prop where
  width : result.bits.toNat < 2 ^ width format
  rounds : IsRounding (Grid (precision format) (leastExponent format))
    (EvenIn (precision format) (leastExponent format)) (signed negative magnitude)
    (signed negative (rounded : K)) mode
  roundsUnbounded : IsRounding (Grid (precision format) ⊥) (EvenIn (precision format) ⊥)
    (signed negative magnitude) (signed negative (unbounded : K)) mode
  nonneg : 0 ≤ rounded ∧ 0 ≤ unbounded
  value : decode format result.bits =
    if maximumFinite format < rounded then overflowed format mode negative
    else .finite negative rounded
  inexact : result.flags.getLsbD 0 = true ↔
    ∀ v, decode format result.bits = .finite negative v → (v : K) ≠ magnitude
  underflow : result.flags.getLsbD 1 = true ↔
    result.flags.getLsbD 0 = true ∧ unbounded < minimumNormal format
  overflow : result.flags.getLsbD 2 = true ↔ maximumFinite format < rounded
  overflowInexact : maximumFinite format < rounded → result.flags.getLsbD 0 = true
  others : ∀ i, 3 ≤ i → result.flags.getLsbD i = false

theorem Rounded.delivered {format : FloatingFormat} {mode : Mode} {negative : Bool}
    {magnitude rounded unbounded : ℚ} {result : FloatingResult}
    (h : Rounded format mode negative magnitude rounded unbounded result) :
    Delivered format mode negative magnitude rounded unbounded result := by
  have hinexact : result.flags.getLsbD 0 = true ↔
      decode format result.bits ≠ .finite negative magnitude := by
    rw [h.inexact]
    constructor
    · intro hall heq
      exact hall magnitude heq (Rat.cast_id magnitude)
    · rintro hne v hv rfl
      exact hne (by rw [hv, Rat.cast_id])
  have hrounds := h.rounds
  have hunbounded := h.roundsUnbounded
  rw [Rat.cast_id] at hrounds hunbounded
  refine ⟨h.width, hrounds, hunbounded, h.nonneg, h.value, hinexact, ?_, h.overflow,
    h.overflowInexact, h.others⟩
  rw [h.underflow, hinexact]

end Ieee

end Rvemu
