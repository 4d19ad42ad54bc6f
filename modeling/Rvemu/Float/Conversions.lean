import Rvemu.Float.Arithmetic
import Rvemu.Core.Arithmetic
import Rvemu.Core.ExecuteFloating

/-!
# Conversions

Numbers to integers, with the bounds of the integer type in place of what does not fit; integers to
numbers; and numbers of one format to the other.
-/

set_option autoImplicit false

namespace Rvemu

open Rounding SoftFloat

namespace Ieee

/-! ## Integer types -/

def integerBits : IntegerWidth → ℕ
  | .word => 32
  | .doubleWord => 64

section Integer

variable (unsignedInteger : Bool) (width : IntegerWidth)

def integerMinimum : ℤ := if unsignedInteger then 0 else -2 ^ (integerBits width - 1)

def integerMaximum : ℤ :=
  if unsignedInteger then 2 ^ integerBits width - 1 else 2 ^ (integerBits width - 1) - 1

/-- The low bits of an integer, the others zero. -/
def integerEncoding (n : ℤ) : BitVec 64 := (BitVec.ofInt (integerBits width) n).setWidth 64

/-- A bound of the type instead of the integer. -/
def Saturates (low : Bool) (result : FloatingIntegerResult) : Prop :=
  result =
    { value := integerEncoding width
        (if low then integerMinimum unsignedInteger width else integerMaximum unsignedInteger width)
      flags := FloatingExceptionFlag.invalidOperation }

/-- Conversion to an integer: the number is rounded first, and then has to fit. -/
def ConvertsToInteger (mode : Mode) (result : FloatingIntegerResult) : Datum → Prop
  | .nan => Saturates unsignedInteger width false result
  | .infinite negative => Saturates unsignedInteger width negative result
  | .finite negative magnitude =>
    ∃ n : ℤ, IsRounding (Integers ℚ) EvenInteger (signed negative magnitude) n mode ∧
      if n < integerMinimum unsignedInteger width then Saturates unsignedInteger width true result
      else if integerMaximum unsignedInteger width < n then
        Saturates unsignedInteger width false result
      else
        result =
          { value := integerEncoding width n
            flags := if (n : ℚ) = signed negative magnitude then 0#8
              else FloatingExceptionFlag.inexact }

theorem saturates_invalidIntegerResult (negative : Bool) :
    Saturates unsignedInteger width negative
      (invalidIntegerResult negative unsignedInteger width) := by
  rw [Saturates]
  cases unsignedInteger <;> cases width <;> cases negative <;> decide

end Integer

end Ieee

open Ieee

/-! ## To integers -/

theorem roundToIntegerMagnitude_spec {m : WideUnsigned} {e : ℤ} (sign : Bool)
    (rounding : FloatingRoundingMode)
    (hroom : m.toNat * 2 ^ e.toNat < 2 ^ WideUnsigned.width) :
    IsRounding (Integers ℚ) EvenInteger (m.toNat * 2 ^ e)
        ((roundToIntegerMagnitude m e sign rounding).1.toNat : ℚ) (rounding.mode.magnitude sign) ∧
      ((roundToIntegerMagnitude m e sign rounding).2 = true ↔
        ((roundToIntegerMagnitude m e sign rounding).1.toNat : ℚ) ≠ m.toNat * 2 ^ e) := by
  rw [roundToIntegerMagnitude]
  split
  · next hnonneg =>
    obtain ⟨s, rfl⟩ := Int.eq_ofNat_of_zero_le hnonneg
    rw [Int.toNat_natCast] at hroom ⊢
    have hvalue : ((m.shiftLeft s).toNat : ℚ) = m.toNat * 2 ^ (s : ℤ) := by
      rw [WideUnsigned.toNat_shiftLeft hroom, zpow_natCast]
      push_cast
      rfl
    have hmem : ((m.shiftLeft s).toNat : ℚ) ∈ Integers ℚ :=
      ⟨(m.shiftLeft s).toNat, Int.cast_natCast _⟩
    rw [hvalue] at hmem ⊢
    exact ⟨isRounding_self hmem _, by simp⟩
  · next hneg =>
    obtain ⟨s, hs⟩ := Int.eq_ofNat_of_zero_le (show 0 ≤ -e by omega)
    obtain rfl : e = -s := by omega
    rw [neg_neg, Int.toNat_natCast]
    have hflag := roundedRightShift_inexact (K := ℚ) (s := s) (m := m) (e := -s) (Or.inl rfl)
      (Or.inl rfl) sign rounding
    rw [neg_add_cancel, zpow_zero, mul_one] at hflag
    refine ⟨?_, hflag⟩
    rw [(roundedRightShift_eq m s sign rounding).1]
    exact Integers.isRounding_shift m.toNat s _

/-- Integers from their sign and magnitude. -/
theorem integerEncoding_natCast (width : IntegerWidth) {n : ℕ} (h : n < 2 ^ integerBits width) :
    integerEncoding width n = BitVec.ofNat 64 n := by
  have hle : 2 ^ integerBits width ≤ 2 ^ 64 :=
    Nat.pow_le_pow_right (by decide) (by cases width <;> decide)
  refine BitVec.eq_of_toNat_eq ?_
  rw [integerEncoding, BitVec.ofInt_natCast, BitVec.toNat_setWidth, BitVec.toNat_ofNat,
    BitVec.toNat_ofNat, Nat.mod_eq_of_lt h]

theorem integerBits_le (width : IntegerWidth) : integerBits width ≤ 64 := by
  cases width <;> decide

/-- The mask keeps the bits of the type. -/
theorem and_widthMask (width : IntegerWidth) (x : BitVec 64) :
    x &&& widthMask width = (x.setWidth (integerBits width)).setWidth 64 := by
  have htoNat : (widthMask width).toNat = 2 ^ integerBits width - 1 := by
    cases width <;> rfl
  refine BitVec.eq_of_toNat_eq ?_
  rw [BitVec.toNat_and, htoNat, Nat.and_two_pow_sub_one_eq_mod, BitVec.toNat_setWidth,
    BitVec.toNat_setWidth, Nat.mod_eq_of_lt (a := x.toNat % _)]
  exact lt_of_le_of_lt (Nat.mod_le _ _) x.isLt

theorem integerEncoding_neg (width : IntegerWidth) (n : ℕ) :
    integerEncoding width (-n) = (~~~BitVec.ofNat 64 n + 1#64) &&& widthMask width := by
  have hle := integerBits_le width
  rw [and_widthMask, ← BitVec.neg_eq_not_add, BitVec.setWidth_neg_of_le hle,
    BitVec.setWidth_ofNat_of_le hle,
    integerEncoding, BitVec.ofInt_neg, BitVec.ofInt_natCast]

/-- The magnitude of an integer fits, or its bound is taken; in both cases the code compares
magnitudes. -/
theorem toInteger_of_magnitude {unsignedInteger : Bool} {width : IntegerWidth} {mode : Mode}
    {sign inexact : Bool} {x : ℚ} {n : WideUnsigned}
    (hround : IsRounding (Integers ℚ) EvenInteger x (n.toNat : ℚ) (mode.magnitude sign))
    (hinexact : inexact = true ↔ (n.toNat : ℚ) ≠ x) :
    ConvertsToInteger unsignedInteger width mode
      (if n.bitLength > 64 then invalidIntegerResult sign unsignedInteger width
       else if unsignedInteger then
        if (sign && n.low64 != 0#64) || n.low64 > widthMask width then
          invalidIntegerResult sign true width
        else
          { value := n.low64, flags := if inexact then FloatingExceptionFlag.inexact else 0#8 }
       else if (sign && n.low64 > signedMinimumBits width)
          || (!sign && n.low64 > signedMaximum width) then
        invalidIntegerResult sign false width
       else
        { value := if sign then (~~~n.low64 + 1#64) &&& widthMask width else n.low64
          flags := if inexact then FloatingExceptionFlag.inexact else 0#8 })
      (.finite sign x) := by
  have hcast : signed sign (n.toNat : ℚ) = ((if sign then -(n.toNat : ℤ)
      else n.toNat : ℤ) : ℚ) := by
    cases sign <;> simp [signed]
  have hflags : (((if sign then -(n.toNat : ℤ) else n.toNat : ℤ) : ℚ) = signed sign x) ↔
      inexact = false := by
    rw [← hcast, ← Bool.not_eq_true, hinexact, not_not]
    cases sign <;> simp [signed]
  have hsaturates := saturates_invalidIntegerResult unsignedInteger width sign
  refine ⟨if sign then -(n.toNat : ℤ) else n.toNat, hcast ▸ Integers.signed hround, ?_⟩
  have hlong : n.bitLength > 64 ↔ 2 ^ 64 ≤ n.toNat := by
    rw [WideUnsigned.bitLength_eq, gt_iff_lt, Nat.lt_size]
  have hmin : -2 ^ 63 ≤ integerMinimum unsignedInteger width ∧
      integerMinimum unsignedInteger width ≤ 0 := by
    cases unsignedInteger <;> cases width <;> decide
  have hmax : integerMaximum unsignedInteger width < 2 ^ 64 := by
    cases unsignedInteger <;> cases width <;> decide
  by_cases hbig : 2 ^ 64 ≤ n.toNat
  · rw [if_pos (hlong.2 hbig)]
    cases sign with
    | false =>
      simp only [Bool.false_eq_true, if_false]
      rw [if_neg (by omega), if_pos (by omega)]
      exact hsaturates
    | true =>
      simp only [if_true]
      rw [if_pos (by omega)]
      exact hsaturates
  · rw [if_neg (hlong.not.2 hbig)]
    have htoNat : n.low64.toNat = n.toNat := by
      rw [n.toNat_low64, Nat.mod_eq_of_lt (not_le.1 hbig)]
    have hlow : n.low64 = BitVec.ofNat 64 n.toNat := by
      rw [← htoNat, BitVec.ofNat_toNat, BitVec.setWidth_eq]
    -- the core's bounds, as integers
    have hmask : (widthMask width).toNat = 2 ^ integerBits width - 1 := by cases width <;> rfl
    have hlowest : (signedMinimumBits width).toNat = 2 ^ (integerBits width - 1) := by
      cases width <;> rfl
    have hhighest : (signedMaximum width).toNat = 2 ^ (integerBits width - 1) - 1 := by
      cases width <;> rfl
    have hhalf : 2 ^ (integerBits width - 1) * 2 = 2 ^ integerBits width :=
      Nat.two_pow_pred_mul_two (by cases width <;> decide)
    have hpos := Nat.two_pow_pos (integerBits width - 1)
    have hnonneg : ∀ z : ℤ, z = n.toNat → n.toNat < 2 ^ integerBits width →
        n.low64 = integerEncoding width z := by
      rintro z rfl hlt
      rw [integerEncoding_natCast width hlt, hlow]
    have hpow : (2 : ℤ) ^ integerBits width = (2 ^ integerBits width : ℕ) := by push_cast; rfl
    have hpow' : (2 : ℤ) ^ (integerBits width - 1) = (2 ^ (integerBits width - 1) : ℕ) := by
      push_cast
      rfl
    have hflag : (if inexact then FloatingExceptionFlag.inexact else 0#8) =
        if ((if sign then -(n.toNat : ℤ) else n.toNat : ℤ) : ℚ) = signed sign x then 0#8
          else FloatingExceptionFlag.inexact := by
      cases inexact with
      | true => rw [if_pos rfl, if_neg (hflags.not.2 (by decide))]
      | false => rw [if_neg (by decide), if_pos (hflags.2 rfl)]
    rw [hflag]
    cases unsignedInteger with
    | true =>
      rw [if_pos rfl, show integerMinimum true width = 0 from rfl,
        show integerMaximum true width = 2 ^ integerBits width - 1 from rfl, hpow]
      cases sign with
      | false =>
        have hcode : ((false && n.low64 != 0#64) || decide (n.low64 > widthMask width)) = true ↔
            2 ^ integerBits width ≤ n.toNat := by
          rw [Bool.false_and, Bool.false_or, decide_eq_true_eq, gt_iff_lt, BitVec.lt_def,
            htoNat, hmask]
          omega
        simp only [Bool.false_eq_true, if_false] at hflag ⊢
        by_cases hfit : 2 ^ integerBits width ≤ n.toNat
        · rw [if_pos (hcode.2 hfit), if_neg (by omega), if_pos (by omega)]
          exact hsaturates
        · rw [if_neg (hcode.not.2 hfit), if_neg (by omega), if_neg (by omega),
            hnonneg _ rfl (not_le.1 hfit)]
      | true =>
        have hcode : ((true && n.low64 != 0#64) || decide (n.low64 > widthMask width)) = true ↔
            n.toNat ≠ 0 := by
          rw [Bool.true_and, Bool.or_eq_true, decide_eq_true_eq, bne_iff_ne, gt_iff_lt,
            BitVec.lt_def, htoNat, hmask, ne_eq, ← BitVec.toNat_inj, htoNat, BitVec.toNat_zero]
          omega
        simp only [if_true] at hflag ⊢
        by_cases hzero : n.toNat = 0
        · rw [if_neg (hcode.not.2 (not_not.2 hzero)), if_neg (by omega), if_neg (by omega),
            hnonneg (-n.toNat) (by omega) (by omega)]
        · rw [if_pos (hcode.2 hzero), if_pos (by omega)]
          exact hsaturates
    | false =>
      rw [if_neg Bool.false_ne_true,
        show integerMinimum false width = -2 ^ (integerBits width - 1) from rfl,
        show integerMaximum false width = 2 ^ (integerBits width - 1) - 1 from rfl, hpow']
      cases sign with
      | false =>
        have hcode : ((false && decide (n.low64 > signedMinimumBits width)) ||
            (!false && decide (n.low64 > signedMaximum width))) = true ↔
            2 ^ (integerBits width - 1) ≤ n.toNat := by
          rw [Bool.false_and, Bool.false_or, Bool.not_false, Bool.true_and, decide_eq_true_eq,
            gt_iff_lt, BitVec.lt_def, htoNat, hhighest]
          omega
        simp only [Bool.false_eq_true, if_false] at hflag ⊢
        by_cases hfit : 2 ^ (integerBits width - 1) ≤ n.toNat
        · rw [if_pos (hcode.2 hfit), if_neg (by omega), if_pos (by omega)]
          exact hsaturates
        · rw [if_neg (hcode.not.2 hfit), if_neg (by omega), if_neg (by omega),
            hnonneg _ rfl (by omega)]
      | true =>
        have hcode : ((true && decide (n.low64 > signedMinimumBits width)) ||
            (!true && decide (n.low64 > signedMaximum width))) = true ↔
            2 ^ (integerBits width - 1) < n.toNat := by
          rw [Bool.true_and, Bool.not_true, Bool.false_and, Bool.or_false, decide_eq_true_eq,
            gt_iff_lt, BitVec.lt_def, htoNat, hlowest]
        simp only [if_true] at hflag ⊢
        by_cases hfit : 2 ^ (integerBits width - 1) < n.toNat
        · rw [if_pos (hcode.2 hfit), if_pos (by omega)]
          exact hsaturates
        · rw [if_neg (hcode.not.2 hfit), if_neg (by omega), if_neg (by omega), hlow,
            integerEncoding_neg]

theorem toInteger_room (format : FloatingFormat) : precision format +
    (maximumExponent format - fractionBits format).toNat ≤ WideUnsigned.width := by
  cases format <;> decide

theorem floatingToInteger_converts (source : FloatingFormat) (operand : BitVec 64)
    (unsignedInteger : Bool) (width : IntegerWidth) (rounding : FloatingRoundingMode) :
    ConvertsToInteger unsignedInteger width rounding.mode
      (floatingToInteger source operand unsignedInteger width rounding)
      (Ieee.decode source operand) := by
  have hoperand := unpack_operand source operand
  rw [floatingToInteger]
  dsimp only
  generalize unpack source operand = u at hoperand ⊢
  by_cases hnan : Ieee.decode source operand = .nan
  · rw [if_pos (hoperand.isNan_iff.2 hnan), hnan]
    exact saturates_invalidIntegerResult unsignedInteger width false
  rw [if_neg (hoperand.isNan_iff.not.2 hnan)]
  cases hoperand with
  | nan _ _ hdecode => exact absurd hdecode hnan
  | infinite a hdecode =>
    rw [hdecode, if_pos rfl]
    exact saturates_invalidIntegerResult unsignedInteger width a
  | zero a hdecode =>
    have hzero : signed a (0 : ℚ) = 0 := (signed_eq_zero_iff a 0).2 rfl
    have hrange : ¬0 < integerMinimum unsignedInteger width ∧
        ¬integerMaximum unsignedInteger width < 0 := by
      cases unsignedInteger <;> cases width <;> decide
    rw [hdecode, if_neg Category.noConfusion, if_pos rfl]
    refine ⟨0, ?_, ?_⟩
    · have hmem : (0 : ℚ) ∈ Integers ℚ := ⟨0, Int.cast_zero⟩
      rw [hzero, Int.cast_zero]
      exact isRounding_self hmem _
    · rw [if_neg hrange.1, if_neg hrange.2, hzero, Int.cast_zero, if_pos rfl]
      cases width <;> rfl
  | finite a significand exponent hdecode hpos hlt hleast hmost =>
    have hroom : (WideUnsigned.ofUInt64 significand).toNat * 2 ^ exponent.toNat <
        2 ^ WideUnsigned.width := by
      rw [WideUnsigned.toNat_ofUInt64]
      calc significand.toNat * 2 ^ exponent.toNat < 2 ^ precision source * 2 ^ exponent.toNat :=
            Nat.mul_lt_mul_of_pos_right hlt (Nat.two_pow_pos _)
        _ = 2 ^ (precision source + exponent.toNat) := (Nat.pow_add ..).symm
        _ ≤ 2 ^ WideUnsigned.width :=
            Nat.pow_le_pow_right (by decide) (le_trans (by omega) (toInteger_room source))
    obtain ⟨hround, hinexact⟩ := roundToIntegerMagnitude_spec a rounding hroom
    rw [WideUnsigned.toNat_ofUInt64] at hround hinexact
    rw [hdecode, if_neg Category.noConfusion, if_neg Category.noConfusion]
    exact toInteger_of_magnitude hround hinexact

/-- **Conversion to an integer**, by the soft-float core and by the instructions, which extend the
sign of a word. -/
theorem convert_to_integer :
    (∀ (source : FloatingFormat) (operand : BitVec 64) (unsignedInteger : Bool)
      (width : IntegerWidth) (rounding : FloatingRoundingMode),
      ConvertsToInteger unsignedInteger width rounding.mode
        (floatingToInteger source operand unsignedInteger width rounding)
        (Ieee.decode source operand)) ∧
    (∀ (s : CpuState) (instruction : DecodedInstruction) (format : FloatingFormat)
      (unsignedInteger : Bool) (width : IntegerWidth) (rounding : FloatingRoundingMode),
      CpuState.integerFormat instruction.source2 = some (width, unsignedInteger) →
      s.resolveRounding instruction = some rounding →
      ∃ result,
        ConvertsToInteger unsignedInteger width rounding.mode result
          (Ieee.decode format (s.readComputationalOperand format instruction.source1)) ∧
        s.toIntegerCommit instruction format =
          some (s.writeIntegerResult instruction.destination
            (match width with
              | .word => (result.value.setWidth 32).signExtend 64
              | .doubleWord => result.value) result.flags)) := by
  refine ⟨floatingToInteger_converts, ?_⟩
  intro s instruction format unsignedInteger width rounding hformat hrounding
  refine ⟨_, floatingToInteger_converts format _ unsignedInteger width rounding, ?_⟩
  rw [CpuState.toIntegerCommit, hformat, hrounding]
  cases width with
  | word =>
    have hextend : ∀ x : BitVec 64, signExtend (x &&& 0xFFFFFFFF#64) 32 =
        (x.setWidth 32).signExtend 64 := by
      intro x
      rw [signExtend_eq _ (by decide) (by decide)]
      congr 1
      refine BitVec.eq_of_toNat_eq ?_
      rw [BitVec.toNat_setWidth, BitVec.toNat_setWidth, BitVec.toNat_and,
        show (0xFFFFFFFF#64).toNat = 2 ^ 32 - 1 from rfl, Nat.and_two_pow_sub_one_eq_mod,
            Nat.mod_mod]
    simp only [hextend, if_true]
  | doubleWord => simp

/-- `fcvt.w.s x1, f2` in the static mode towards zero. -/
theorem convert_to_integer_word :
    ∃ result, ConvertsToInteger false .word .towardZero result
        (Ieee.decode .single (({} : CpuState).readComputationalOperand .single 2#5)) ∧
      ({} : CpuState).toIntegerCommit (decode 0xC00110D3#32) .single =
        some (({} : CpuState).writeIntegerResult 1#5 ((result.value.setWidth 32).signExtend 64)
          result.flags) :=
  convert_to_integer.2 {} (decode 0xC00110D3#32) .single false .word .towardZero (by decide)
    (by decide)

end Rvemu
