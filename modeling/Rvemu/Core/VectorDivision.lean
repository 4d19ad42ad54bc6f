import Rvemu.Core.MultiplyDivide
import Rvemu.Vector.IntegerOperations

/-!
# Vector and scalar division

The scalar core divides magnitudes and takes quotient and remainder from one division; the vector
unit cuts its operands to SEW, treats the two special cases first and computes the remainder from
the quotient, modulo 2 to the SEW.  Both are the division of the manual, hence they agree.
-/

set_option autoImplicit false

namespace Rvemu

/-- Integer division towards zero: the remainder is smaller than the divisor and has the sign of the
dividend. -/
structure DividesTowardsZero (dividend divisor quotient remainder : Int) : Prop where
  exact : quotient * divisor + remainder = dividend
  small : |remainder| < |divisor|
  sign : remainder = 0 ∨ remainder.sign = dividend.sign

theorem dividesTowardsZero_tdiv (a : Int) {b : Int} (hb : b ≠ 0) :
    DividesTowardsZero a b (a.tdiv b) (a.tmod b) where
  exact := Int.tdiv_mul_add_tmod a b
  small := by
    rw [Int.abs_eq_natAbs, Int.abs_eq_natAbs, Int.natAbs_tmod]
    exact_mod_cast Nat.mod_lt _ (Int.natAbs_pos.2 hb)
  sign := by
    by_cases hrem : a.tmod b = 0
    · exact Or.inl hrem
    · refine Or.inr ?_
      rcases lt_trichotomy a 0 with ha | rfl | ha
      · have hle := Int.tmod_nonneg b (show 0 ≤ -a by omega)
        rw [Int.neg_tmod] at hle
        rw [Int.sign_eq_neg_one_of_neg ha, Int.sign_eq_neg_one_of_neg (by omega)]
      · exact absurd (Int.zero_tmod b) hrem
      · have hle := Int.tmod_nonneg b ha.le
        rw [Int.sign_eq_one_of_pos ha, Int.sign_eq_one_of_pos (by omega)]

/-- The division of elements next to the `funct3` of the scalar one. -/
def divisionFunction3 : VectorIntegerOperation → Option (BitVec 3)
  | .divideSigned => some 4#3
  | .divideUnsigned => some 5#3
  | .remainderSigned => some 6#3
  | .remainderUnsigned => some 7#3
  | .add | .subtract | .multiply => none

theorem result_of_divisionFunction3 {operation : VectorIntegerOperation} {function3 : BitVec 3}
    (h : divisionFunction3 operation = some function3) {w : ℕ} (hw : 0 < w) (a b : BitVec w) :
    (Isa.Multiplicative.ofFunction3 function3).result a b = Rvv.result operation a b := by
  cases operation <;> cases h
  · exact Isa.Multiplicative.result_divu a b
  · exact Isa.Multiplicative.result_div a b hw
  · exact Isa.Multiplicative.result_remu a b
  · exact Isa.Multiplicative.result_rem a b hw

theorem wordOfFunction3_of_divisionFunction3 {operation : VectorIntegerOperation}
    {function3 : BitVec 3} (h : divisionFunction3 operation = some function3) :
    Isa.Multiplicative.wordOfFunction3 function3 =
      some (Isa.Multiplicative.ofFunction3 function3) := by
  cases operation <;> cases h <;> rfl

section Elements

variable {sew : ℕ} (hle : sew ≤ 64) (hpos : 0 < sew) (lhs rhs : BitVec 64)

include hle hpos

theorem executeVectorIntegerOperation_setWidth (operation : VectorIntegerOperation) :
    (executeVectorIntegerOperation operation lhs rhs sew).setWidth sew =
      Rvv.result operation (lhs.setWidth sew) (rhs.setWidth sew) := by
  rw [executeVectorIntegerOperation_eq hle hpos, setWidth_setWidth_sew hle]

end Elements

/-- The signed quotient and remainder of elements, where the quotient fits. -/
theorem vectorDivision_signed {sew : ℕ} (hle : sew ≤ 64) (hpos : 0 < sew) {lhs rhs : BitVec 64}
    (hzero : rhs.setWidth sew ≠ 0)
    (hfits : ¬ Isa.Multiplicative.Overflows (lhs.setWidth sew) (rhs.setWidth sew)) :
    DividesTowardsZero (lhs.setWidth sew).toInt (rhs.setWidth sew).toInt
      ((executeVectorIntegerOperation .divideSigned lhs rhs sew).setWidth sew).toInt
      ((executeVectorIntegerOperation .remainderSigned lhs rhs sew).setWidth sew).toInt := by
  rw [executeVectorIntegerOperation_setWidth hle hpos,
    executeVectorIntegerOperation_setWidth hle hpos]
  generalize lhs.setWidth sew = a at *
  generalize rhs.setWidth sew = b at *
  have hquotient : (Rvv.result .divideSigned a b).toInt = a.toInt.tdiv b.toInt := by
    rw [Rvv.result, if_neg hzero, BitVec.toInt_sdiv_of_ne_or_ne]
    rw [BitVec.neg_one_eq_allOnes]
    rw [Isa.Multiplicative.overflows_iff a b hpos] at hfits
    exact not_and_or.1 hfits
  have hremainder : (Rvv.result .remainderSigned a b).toInt = a.toInt.tmod b.toInt := by
    rw [Rvv.result, if_neg hzero, BitVec.toInt_srem]
  rw [hquotient, hremainder]
  exact dividesTowardsZero_tdiv _ fun h ↦ hzero ((Isa.Multiplicative.toInt_eq_zero_iff b).1 h)

/-- Unsigned elements are divided as natural numbers. -/
theorem vectorDivision_unsigned {sew : ℕ} (hle : sew ≤ 64) (hpos : 0 < sew) {lhs rhs : BitVec 64}
    (hzero : rhs.setWidth sew ≠ 0) :
    DividesTowardsZero (lhs.setWidth sew).toNat (rhs.setWidth sew).toNat
      ((executeVectorIntegerOperation .divideUnsigned lhs rhs sew).setWidth sew).toNat
      ((executeVectorIntegerOperation .remainderUnsigned lhs rhs sew).setWidth sew).toNat := by
  rw [executeVectorIntegerOperation_setWidth hle hpos,
    executeVectorIntegerOperation_setWidth hle hpos]
  generalize lhs.setWidth sew = a
  generalize rhs.setWidth sew = b at *
  have hne : (b.toNat : Int) ≠ 0 := fun h ↦ hzero (BitVec.eq_of_toNat_eq (by simpa using h))
  rw [Rvv.result, Rvv.result, if_neg hzero, if_neg hzero, BitVec.toNat_udiv, BitVec.toNat_umod,
    Int.natCast_ediv, Int.natCast_emod, ← Int.tdiv_eq_ediv_of_nonneg (Int.natCast_nonneg _),
    ← Int.tmod_eq_emod_of_nonneg (Int.natCast_nonneg _)]
  exact dividesTowardsZero_tdiv _ hne

/-- **Vector and scalar division agree.**  At SEW 64 an element is divided as DIV, DIVU, REM and
REMU divide, at SEW 32 as their W forms do, with all special cases; and at every SEW quotient and
remainder of operands whose quotient is defined and fits are those of the division towards zero. -/
theorem vector_division_agrees {operation : VectorIntegerOperation} {function3 : BitVec 3}
    (h : divisionFunction3 operation = some function3) (lhs rhs : BitVec 64) :
    executeIntegerM function3 lhs rhs false =
        some (executeVectorIntegerOperation operation lhs rhs 64) ∧
      executeIntegerM function3 lhs rhs true =
        some (((executeVectorIntegerOperation operation lhs rhs 32).setWidth 32).signExtend 64) ∧
      ∀ sew, 0 < sew → sew ≤ 64 → rhs.setWidth sew ≠ 0 →
        (¬ Isa.Multiplicative.Overflows (lhs.setWidth sew) (rhs.setWidth sew) →
          DividesTowardsZero (lhs.setWidth sew).toInt (rhs.setWidth sew).toInt
            ((executeVectorIntegerOperation .divideSigned lhs rhs sew).setWidth sew).toInt
            ((executeVectorIntegerOperation .remainderSigned lhs rhs sew).setWidth sew).toInt) ∧
        DividesTowardsZero (lhs.setWidth sew).toNat (rhs.setWidth sew).toNat
          (executeVectorIntegerOperation .divideUnsigned lhs rhs sew).toNat
          (executeVectorIntegerOperation .remainderUnsigned lhs rhs sew).toNat := by
  refine ⟨?_, ?_, fun sew hpos hle hzero ↦ ⟨vectorDivision_signed hle hpos hzero, ?_⟩⟩
  · have hscalar := executeDoubleword_eq function3 lhs rhs
    rw [result_of_divisionFunction3 h (by decide)] at hscalar
    rw [executeVectorIntegerOperation_eq (by decide) (by decide), BitVec.setWidth_eq,
      BitVec.setWidth_eq, BitVec.setWidth_eq]
    exact hscalar
  · have hscalar := executeWord_eq function3 lhs rhs
    rw [wordOfFunction3_of_divisionFunction3 h, Option.map_some,
      result_of_divisionFunction3 h (by decide)] at hscalar
    rw [executeVectorIntegerOperation_setWidth (by decide) (by decide)]
    exact hscalar
  · have hunsigned := @vectorDivision_unsigned sew hle hpos lhs rhs hzero
    have hwhole : ∀ o, ((executeVectorIntegerOperation o lhs rhs sew).setWidth sew).toNat =
        (executeVectorIntegerOperation o lhs rhs sew).toNat := fun o ↦ by
      rw [executeVectorIntegerOperation_setWidth hle hpos,
        executeVectorIntegerOperation_eq hle hpos,
        toNat_extend hle]
    rwa [hwhole, hwhole] at hunsigned

/-- The least number by minus one, and by zero. -/
theorem vector_division_agrees_least :
    executeVectorIntegerOperation .divideSigned (BitVec.intMin 64) (BitVec.allOnes 64) 64 =
        BitVec.intMin 64 ∧
      executeIntegerM 4#3 (BitVec.intMin 64) (BitVec.allOnes 64) false = some (BitVec.intMin 64) ∧
      executeIntegerM 6#3 7#64 0#64 true =
        some (((executeVectorIntegerOperation .remainderSigned 7#64 0#64 32).setWidth
          32).signExtend 64) :=
  have h := (@vector_division_agrees .divideSigned _ rfl (BitVec.intMin 64)
    (BitVec.allOnes 64)).1
  ⟨by decide, h.trans (by decide), (vector_division_agrees rfl 7#64 0#64).2.1⟩

end Rvemu
