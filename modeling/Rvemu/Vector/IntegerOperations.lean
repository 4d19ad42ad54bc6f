import Rvemu.Isa.Rvv

/-!
# The integer operations on elements

The core computes on 64-bit values that it cuts to SEW before and after.  Each step of it is the
operation on words of SEW bits, so the results are those of the manual.
-/

set_option autoImplicit false

namespace Rvemu

section Truncated

variable {sew : ℕ} (hle : sew ≤ 64)

include hle

/-- Masking cuts to SEW bits. -/
theorem and_maskFor (x : BitVec 64) : x &&& maskFor sew = (x.setWidth sew).setWidth 64 := by
  have hmask : (maskFor sew).toNat = 2 ^ sew - 1 := by
    rw [maskFor]
    split
    · next h => rw [h]; rfl
    · have hlt : 2 ^ sew < 2 ^ 64 := Nat.pow_lt_pow_right (by decide) (by omega)
      have hpos := Nat.two_pow_pos sew
      rw [BitVec.toNat_sub, BitVec.toNat_shiftLeft, BitVec.toNat_one (by decide), Nat.one_shiftLeft,
        Nat.mod_eq_of_lt hlt]
      omega
  refine BitVec.eq_of_toNat_eq ?_
  rw [BitVec.toNat_and, hmask, Nat.and_two_pow_sub_one_eq_mod, BitVec.toNat_setWidth,
    BitVec.toNat_setWidth, Nat.mod_eq_of_lt (a := x.toNat % 2 ^ sew)]
  exact Nat.lt_of_le_of_lt (Nat.mod_le _ _) x.isLt

theorem setWidth_setWidth_sew (a : BitVec sew) : (a.setWidth 64).setWidth sew = a := by
  rw [BitVec.setWidth_setWidth_of_le _ hle, BitVec.setWidth_eq]

/-- The mask is the word of ones. -/
theorem maskFor_eq : maskFor sew = (BitVec.allOnes sew).setWidth 64 := by
  have h := and_maskFor hle (BitVec.allOnes 64)
  rw [BitVec.allOnes_and] at h
  rw [h]
  congr 1
  refine BitVec.eq_of_getLsbD_eq fun i hi ↦ ?_
  rw [BitVec.getLsbD_setWidth, BitVec.getLsbD_allOnes, BitVec.getLsbD_allOnes]
  simp only [hi, decide_true, Bool.true_and, decide_eq_true_eq]
  omega

theorem setWidth_inj {a b : BitVec sew} : a.setWidth 64 = b.setWidth 64 ↔ a = b := by
  constructor
  · intro h
    rw [← setWidth_setWidth_sew hle a, h, setWidth_setWidth_sew hle]
  · exact congrArg _

/-- A word is the mask when all its bits are set. -/
theorem extend_eq_maskFor_iff {a : BitVec sew} :
    a.setWidth 64 = maskFor sew ↔ a = BitVec.allOnes sew := by
  rw [maskFor_eq hle, setWidth_inj hle]

theorem setWidth_eq_zero_iff {a : BitVec sew} : a.setWidth 64 = 0#64 ↔ a = 0 := by
  rw [← setWidth_inj hle, show (0 : BitVec sew).setWidth 64 = 0#64 from BitVec.setWidth_zero 64 sew]

theorem toNat_extend (a : BitVec sew) : (a.setWidth 64).toNat = a.toNat := by
  rw [BitVec.toNat_setWidth, Nat.mod_eq_of_lt]
  exact Nat.lt_of_lt_of_le a.isLt (Nat.pow_le_pow_right (by decide) hle)

/-- Division does not see the extension. -/
theorem extend_udiv (a b : BitVec sew) : a.setWidth 64 / b.setWidth 64 = (a / b).setWidth 64 := by
  refine BitVec.eq_of_toNat_eq ?_
  rw [toNat_extend hle, BitVec.toNat_udiv, BitVec.toNat_udiv, toNat_extend hle, toNat_extend hle]

theorem extend_umod (a b : BitVec sew) : a.setWidth 64 % b.setWidth 64 = (a % b).setWidth 64 := by
  refine BitVec.eq_of_toNat_eq ?_
  rw [toNat_extend hle, BitVec.toNat_umod, BitVec.toNat_umod, toNat_extend hle, toNat_extend hle]

/-- Negation is that of the word. -/
theorem negateMasked_extend (a : BitVec sew) :
    negateMasked (a.setWidth 64) (maskFor sew) = (-a).setWidth 64 := by
  rw [negateMasked, and_maskFor hle, BitVec.setWidth_neg_of_le hle, setWidth_setWidth_sew hle]

variable (hpos : 0 < sew)

include hpos

/-- The sign bit is that of the word. -/
theorem negativeAt_extend (a : BitVec sew) : negativeAt (a.setWidth 64) sew = a.msb := by
  have htwo : 1#64 <<< (sew - 1) = BitVec.twoPow 64 (sew - 1) :=
    (BitVec.twoPow_eq 64 (sew - 1)).symm
  have hbit : (a.setWidth 64).getLsbD (sew - 1) = a.msb := by
    rw [BitVec.getLsbD_setWidth, BitVec.msb_eq_getLsbD_last, decide_eq_true (by omega),
      Bool.true_and]
  rw [negativeAt, htwo, BitVec.and_twoPow, hbit]
  cases a.msb with
  | false => rfl
  | true =>
    have hne : BitVec.twoPow 64 (sew - 1) ≠ 0#64 := by
      intro h
      have hget := congrArg (·.getLsbD (sew - 1)) h
      simp [BitVec.getLsbD_twoPow] at hget
      omega
    rw [if_pos rfl, bne_iff_ne.2 hne]

end Truncated

/-- The remainder from the quotient. -/
theorem srem_eq_sub {sew : ℕ} (a b : BitVec sew) : a.srem b = a - a.sdiv b * b := by
  refine BitVec.eq_of_toInt_eq ?_
  have hexact : a.toInt - a.toInt.tdiv b.toInt * b.toInt = (a.srem b).toInt := by
    rw [BitVec.toInt_srem, Int.tmod_def, Int.mul_comm]
  rw [BitVec.toInt_sub, BitVec.toInt_mul, BitVec.toInt_sdiv, Int.bmod_mul_bmod, Int.sub_bmod_bmod,
    hexact, BitVec.toInt_bmod_cancel]

/-- The one quotient that does not fit: it wraps around to the dividend, without a remainder. -/
theorem intMin_sdiv_allOnes (sew : ℕ) :
    (BitVec.intMin sew).sdiv (BitVec.allOnes sew) = BitVec.intMin sew := by
  rw [← BitVec.neg_one_eq_allOnes, BitVec.intMin_sdiv_neg_one]

section Operations

variable {sew : ℕ} (hle : sew ≤ 64) (hpos : 0 < sew)

include hle hpos

/-- The value that has no negative. -/
theorem intMin_extend : 1#64 <<< (sew - 1) = (BitVec.intMin sew).setWidth 64 := by
  have hlt : 2 ^ (sew - 1) < 2 ^ 64 := Nat.pow_lt_pow_right (by decide) (by omega)
  refine BitVec.eq_of_toNat_eq ?_
  rw [toNat_extend hle, BitVec.toNat_shiftLeft, BitVec.toNat_one (by decide), Nat.one_shiftLeft,
    Nat.mod_eq_of_lt hlt, BitVec.toNat_intMin, Nat.mod_eq_of_lt]
  exact Nat.pow_lt_pow_right (by decide) (by omega)

/-- The division of the core is that of words, with all ones for a zero divisor. -/
theorem signedDivide_extend (a b : BitVec sew) :
    signedDivide (a.setWidth 64) (b.setWidth 64) sew =
      (if b = 0 then BitVec.allOnes sew else a.sdiv b).setWidth 64 := by
  rw [signedDivide]
  dsimp only
  rw [and_maskFor hle, and_maskFor hle, setWidth_setWidth_sew hle, setWidth_setWidth_sew hle,
    negativeAt_extend hle hpos, negativeAt_extend hle hpos, negateMasked_extend hle,
    negateMasked_extend hle, intMin_extend hle hpos]
  simp only [setWidth_eq_zero_iff hle, setWidth_inj hle, extend_eq_maskFor_iff hle]
  split
  · exact maskFor_eq hle
  · split
    · next hmin => rw [hmin.1, hmin.2, intMin_sdiv_allOnes]
    · rw [BitVec.sdiv_eq]
      cases a.msb <;> cases b.msb <;>
        simp [extend_udiv hle, negateMasked_extend hle]

/-- **Every operation on an element is that of the manual** on words of SEW bits. -/
theorem executeVectorIntegerOperation_eq (operation : VectorIntegerOperation)
    (lhs rhs : BitVec 64) :
    executeVectorIntegerOperation operation lhs rhs sew =
      (Rvv.result operation (lhs.setWidth sew) (rhs.setWidth sew)).setWidth 64 := by
  rw [executeVectorIntegerOperation.eq_def]
  dsimp only
  rw [and_maskFor hle lhs, and_maskFor hle rhs]
  generalize lhs.setWidth sew = a
  generalize rhs.setWidth sew = b
  have hquotient := signedDivide_extend hle hpos a b
  cases operation with
  | add =>
    dsimp only
    rw [and_maskFor hle, BitVec.setWidth_add _ _ hle, setWidth_setWidth_sew hle,
      setWidth_setWidth_sew hle]
    rfl
  | subtract =>
    dsimp only
    rw [and_maskFor hle, BitVec.sub_eq_add_neg, BitVec.setWidth_add _ _ hle,
      BitVec.setWidth_neg_of_le hle, setWidth_setWidth_sew hle, setWidth_setWidth_sew hle,
      ← BitVec.sub_eq_add_neg]
    rfl
  | multiply =>
    dsimp only
    rw [and_maskFor hle, BitVec.setWidth_mul _ _ hle, setWidth_setWidth_sew hle,
      setWidth_setWidth_sew hle]
    rfl
  | divideUnsigned =>
    dsimp only
    rw [extend_udiv hle, maskFor_eq hle, ← apply_ite (BitVec.setWidth 64)]
    simp only [setWidth_eq_zero_iff hle]
    rfl
  | remainderUnsigned =>
    dsimp only
    rw [extend_umod hle, ← apply_ite (BitVec.setWidth 64)]
    simp only [setWidth_eq_zero_iff hle]
    rfl
  | divideSigned => exact hquotient
  | remainderSigned =>
    dsimp only
    rw [hquotient, intMin_extend hle hpos]
    simp only [setWidth_eq_zero_iff hle, setWidth_inj hle, extend_eq_maskFor_iff hle]
    rw [Rvv.result]
    split
    · rfl
    · next hne =>
      rw [srem_eq_sub]
      split
      · next hmin =>
        rw [hmin.1, hmin.2, intMin_sdiv_allOnes, ← BitVec.neg_one_eq_allOnes, BitVec.mul_neg,
          BitVec.mul_one, BitVec.neg_intMin, BitVec.sub_self, BitVec.setWidth_zero]
      · rw [and_maskFor hle, BitVec.sub_eq_add_neg, BitVec.setWidth_add _ _ hle,
          BitVec.setWidth_neg_of_le hle, BitVec.setWidth_mul _ _ hle, setWidth_setWidth_sew hle,
          setWidth_setWidth_sew hle, setWidth_setWidth_sew hle, ← BitVec.sub_eq_add_neg]

end Operations

end Rvemu
