import Rvemu.Float.RoundAndPack

/-!
# Operands

`unpack` reads the fields of an encoding.  `Operand` lists what it can find, together with the datum
the encoding stands for, so that an operation is checked against its IEEE definition by going
through the kinds of its operands.
-/

set_option autoImplicit false

namespace Rvemu

open Rounding SoftFloat

namespace Ieee

variable (format : FloatingFormat) (bits : BitVec 64)

/-- A NaN with a leading zero in its fraction. -/
def signaling : Bool := decide (decode format bits = .nan) &&
    !bits.getLsbD (fractionBits format - 1)

/-- The NaN that every operation delivers. -/
def canonicalNan : BitVec 64 :=
  encode format false (2 ^ exponentBits format - 1) (2 ^ (fractionBits format - 1))

theorem canonicalNan_formatOf : (formatOf format).canonicalNan = canonicalNan format := by
  cases format <;> decide

/-! ## Fields -/

theorem toNat_and_fractionMask : (bits &&& (formatOf format).fractionMask).toNat =
    (bits.extractLsb' 0 (fractionBits format)).toNat := by
  rw [BitVec.toNat_and, fractionMask_formatOf, Nat.and_two_pow_sub_one_eq_mod,
    BitVec.extractLsb'_toNat, Nat.shiftRight_zero]

theorem toNat_exponentMask : ((formatOf format).exponentMask >>> fractionBits format).toNat =
    2 ^ exponentBits format - 1 := by
  cases format <;> decide

theorem toNat_exponentField :
    ((bits &&& (formatOf format).exponentMask) >>> (formatOf format).fractionBits).toNat =
      (bits.extractLsb' (fractionBits format) (exponentBits format)).toNat := by
  rw [fractionBits_formatOf, BitVec.ushiftRight_and_distrib, BitVec.toNat_and, toNat_exponentMask,
    Nat.and_two_pow_sub_one_eq_mod, BitVec.toNat_ushiftRight, BitVec.extractLsb'_toNat]

theorem toNat_exponentAllOnes :
    (exponentAllOnes (formatOf format)).toNat = 2 ^ exponentBits format - 1 := by
  cases format <;> decide

theorem signMask_formatOf : (formatOf format).signMask =
    BitVec.twoPow 64 (fractionBits format + exponentBits format) := by
  cases format <;> decide

theorem and_signMask_bne_zero : (bits &&& (formatOf format).signMask != 0#64) =
    bits.getLsbD (fractionBits format + exponentBits format) := by
  rw [signMask_formatOf, BitVec.and_twoPow]
  cases bits.getLsbD (fractionBits format + exponentBits format) with
  | false => rfl
  | true => cases format <;> decide

theorem quietBit_bne_zero : ((bits &&& (formatOf format).fractionMask) &&&
    (1#64 <<< ((formatOf format).fractionBits - 1)) != 0#64) =
      bits.getLsbD (fractionBits format - 1) := by
  have hmask : (formatOf format).fractionMask &&& (1#64 <<< ((formatOf format).fractionBits - 1)) =
      BitVec.twoPow 64 (fractionBits format - 1) := by
    cases format <;> decide
  rw [BitVec.and_assoc, hmask, BitVec.and_twoPow]
  cases bits.getLsbD (fractionBits format - 1) with
  | false => rfl
  | true => cases format <;> decide

end Ieee

/-! ## What `unpack` finds -/

open Ieee

inductive Operand (format : FloatingFormat) (bits : BitVec 64) : Unpacked → Prop
  | nan (sign quiet : Bool) (hdecode : Ieee.decode format bits = .nan)
      (hquiet : signaling format bits = !quiet) :
      Operand format bits { sign, category := if quiet then .quietNan else .signalingNan }
  | infinite (sign : Bool) (hdecode : Ieee.decode format bits = .infinite sign) :
      Operand format bits { sign, category := .infinity }
  | zero (sign : Bool) (hdecode : Ieee.decode format bits = .finite sign 0) :
      Operand format bits { sign, category := .zero }
  | finite (sign : Bool) (significand : BitVec 64) (exponent : ℤ)
      (hdecode : Ieee.decode format bits = .finite sign (significand.toNat * 2 ^ exponent))
      (hpos : 0 < significand.toNat) (hlt : significand.toNat < 2 ^ precision format)
      (hleast : leastExponent format ≤ exponent)
      (hmost : exponent ≤ maximumExponent format - fractionBits format) :
      Operand format bits { sign, category := .finite, significand, exponent }

namespace Operand

variable {format : FloatingFormat} {bits : BitVec 64} {u : Unpacked}

theorem isNan_iff (h : Operand format bits u) :
    isNan u.category = true ↔ Ieee.decode format bits = .nan := by
  cases h with
  | nan sign quiet hdecode _ =>
    refine iff_of_true ?_ hdecode
    cases quiet <;> rfl
  | infinite sign hdecode =>
    exact iff_of_false Bool.false_ne_true (by rw [hdecode]; exact Datum.noConfusion)
  | zero sign hdecode =>
    exact iff_of_false Bool.false_ne_true (by rw [hdecode]; exact Datum.noConfusion)
  | finite sign _ _ hdecode =>
    exact iff_of_false Bool.false_ne_true (by rw [hdecode]; exact Datum.noConfusion)

theorem signaling_eq (h : Operand format bits u) :
    (u.category == .signalingNan) = Ieee.signaling format bits := by
  have hnumber : Ieee.decode format bits ≠ .nan → Ieee.signaling format bits = false := by
    intro hne
    rw [Ieee.signaling, decide_eq_false hne, Bool.false_and]
  cases h with
  | nan sign quiet _ hquiet =>
    rw [hquiet]
    cases quiet <;> rfl
  | infinite sign hdecode => rw [hnumber (by rw [hdecode]; exact Datum.noConfusion)]; rfl
  | zero sign hdecode => rw [hnumber (by rw [hdecode]; exact Datum.noConfusion)]; rfl
  | finite sign _ _ hdecode => rw [hnumber (by rw [hdecode]; exact Datum.noConfusion)]; rfl

end Operand

theorem unpack_operand (format : FloatingFormat) (bits : BitVec 64) :
    Operand format bits (unpack format bits) := by
  have hfraction := toNat_and_fractionMask format bits
  have hexponent := toNat_exponentField format bits
  have hallOnes := toNat_exponentAllOnes format
  have hbias := two_mul_bias format
  have hpos := bias_pos format
  have hflt := (bits.extractLsb' 0 (fractionBits format)).isLt
  have helt := (bits.extractLsb' (fractionBits format) (exponentBits format)).isLt
  have hdecode := Ieee.decode.eq_1 format bits
  rw [unpack]
  dsimp only
  rw [and_signMask_bne_zero, quietBit_bne_zero, hexponent, bias_formatOf, minimumExponent_formatOf]
  simp only [← BitVec.toNat_inj, hexponent, hallOnes, hfraction, BitVec.toNat_zero]
  generalize bits.getLsbD (fractionBits format + exponentBits format) = sign at hdecode ⊢
  generalize (bits.extractLsb' 0 (fractionBits format)).toNat = fraction at *
  generalize (bits.extractLsb' (fractionBits format) (exponentBits format)).toNat = exponent at *
  split
  · next hspecial =>
    rw [if_pos hspecial] at hdecode
    split
    · next hzero =>
      rw [if_pos hzero] at hdecode
      exact .infinite sign hdecode
    · next hzero =>
      rw [if_neg hzero] at hdecode
      refine .nan sign _ hdecode ?_
      rw [signaling, hdecode]
      rfl
  · next hspecial =>
    rw [if_neg hspecial] at hdecode
    split
    · next hsubnormal =>
      rw [if_pos hsubnormal] at hdecode
      split
      · next hzero =>
        rw [hzero, Nat.cast_zero, zero_mul] at hdecode
        exact .zero sign hdecode
      · next hzero =>
        rw [fractionBits_formatOf]
        have hmost : leastExponent format ≤ maximumExponent format - fractionBits format := by
          cases format <;> decide
        refine .finite sign _ _ ?_ ?_ ?_ le_rfl hmost
        · rw [hfraction]
          exact hdecode
        · rw [hfraction]
          omega
        · rw [hfraction, precision, Nat.pow_succ]
          omega
    · next hsubnormal =>
      rw [if_neg hsubnormal] at hdecode
      have hdigits : ((1#64 <<< fractionBits format) |||
          (bits &&& (formatOf format).fractionMask)).toNat =
          2 ^ fractionBits format + fraction := by
        have hone : (1#64 <<< fractionBits format).toNat = 1 <<< fractionBits format := by
          cases format <;> rfl
        rw [BitVec.toNat_or, hone, hfraction, ← Nat.shiftLeft_add_eq_or_of_lt hflt,
          Nat.one_shiftLeft]
      rw [fractionBits_formatOf]
      refine .finite sign _ _ ?_ ?_ ?_ ?_ ?_
      · rw [hdigits]
        exact hdecode
      · rw [hdigits]
        positivity
      · rw [hdigits, precision, Nat.pow_succ]
        omega
      · rw [leastExponent, minimumExponent]
        omega
      · rw [maximumExponent]
        omega

namespace Ieee

/-- The numbers of a format are on its grid. -/
theorem mem_grid_of_decode {K : Type*} [Field K] [LinearOrder K] [IsStrictOrderedRing K]
    {format : FloatingFormat} {bits : BitVec 64} {negative : Bool} {v : ℚ}
    (h : decode format bits = .finite negative v) :
    (v : K) ∈ Grid (precision format) (leastExponent format) := by
  have hoperand := unpack_operand format bits
  generalize unpack format bits = u at hoperand
  cases hoperand with
  | nan _ _ hdecode => cases hdecode.symm.trans h
  | infinite _ hdecode => cases hdecode.symm.trans h
  | zero _ hdecode =>
    cases hdecode.symm.trans h
    rw [Rat.cast_zero]
    exact Grid.zero_mem _ _
  | finite _ significand exponent hdecode _ hlt hleast =>
    cases hdecode.symm.trans h
    have hmem := Grid.mem (K := K) hlt (WithBot.coe_le_coe.2 hleast)
    push_cast
    exact hmem

theorem le_maximumFinite_of_decode {format : FloatingFormat} {bits : BitVec 64} {negative : Bool}
    {v : ℚ} (h : decode format bits = .finite negative v) : 0 ≤ v ∧ v ≤ maximumFinite format := by
  have hoperand := unpack_operand format bits
  generalize unpack format bits = u at hoperand
  have hmaximum : (0 : ℚ) ≤ maximumFinite format := by
    rw [maximumFinite]
    positivity
  cases hoperand with
  | nan _ _ hdecode => cases hdecode.symm.trans h
  | infinite _ hdecode => cases hdecode.symm.trans h
  | zero _ hdecode =>
    cases hdecode.symm.trans h
    exact ⟨le_rfl, hmaximum⟩
  | finite _ significand exponent hdecode _ hlt _ hmost =>
    cases hdecode.symm.trans h
    refine ⟨by positivity, ?_⟩
    rw [maximumFinite]
    gcongr
    · exact Nat.le_sub_one_of_lt hlt
    · norm_num

end Ieee

end Rvemu
