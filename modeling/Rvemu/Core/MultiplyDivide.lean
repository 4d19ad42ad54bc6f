import Rvemu.Core.Arithmetic
import Rvemu.Isa.Rv64m
import Mathlib.Tactic.Ring

/-!
# Multiplication and division

The product of two words is built from four products of halves with their carries, the high halves
of signed products from the unsigned one, and signed division from the division of magnitudes.  Each
is the operation on integers that the manual defines.

**`integer_m_exact`** is the result for all of OP and OP-32.
-/

set_option autoImplicit false

namespace Rvemu

/-! ## Products -/

theorem toNat_and_limbMask (x : BitVec 64) : (x &&& 0xFFFFFFFF#64).toNat = x.toNat % 2 ^ 32 :=
  Bits.toNat_and_mask x (show 32 < 64 by decide)

theorem toNat_shiftRight_limb (x : BitVec 64) : (x >>> 32).toNat = x.toNat / 2 ^ 32 := by
  rw [BitVec.toNat_ushiftRight, Nat.shiftRight_eq_div_pow]

/-- The product of two halves fits a word. -/
theorem toNat_mul_limbs {x y : BitVec 64} (hx : x.toNat < 2 ^ 32) (hy : y.toNat < 2 ^ 32) :
    (x * y).toNat = x.toNat * y.toNat := by
  have hlt : x.toNat * y.toNat < 2 ^ 32 * 2 ^ 32 := Nat.mul_lt_mul'' hx hy
  rw [BitVec.toNat_mul, Nat.mod_eq_of_lt (Nat.lt_of_lt_of_eq hlt (by decide))]

/-- A low half below a shifted word. -/
theorem toNat_low_or_shiftLeft (x y : BitVec 64) :
    ((x &&& 0xFFFFFFFF#64) ||| (y <<< 32)).toNat =
    x.toNat % 2 ^ 32 + y.toNat % 2 ^ 32 * 2 ^ 32 := by
  have hlow : x.toNat % 2 ^ 32 < 2 ^ 32 := Nat.mod_lt _ (by decide)
  have hshift : (y <<< 32).toNat = 2 ^ 32 * (y.toNat % 2 ^ 32) := by
    rw [BitVec.toNat_shiftLeft, Nat.shiftLeft_eq]
    omega
  rw [BitVec.toNat_or, toNat_and_limbMask, hshift, Nat.or_comm, ← Nat.two_pow_add_eq_or_of_lt hlow]
  omega

/-- **The carry chain.**  The two words together are the product. -/
theorem multiplyUnsigned64_exact (lhs rhs : BitVec 64) :
    (multiplyUnsigned64 lhs rhs).low.toNat + 2 ^ 64 * (multiplyUnsigned64 lhs rhs).high.toNat =
      lhs.toNat * rhs.toNat := by
  have hl0 : (lhs &&& 0xFFFFFFFF#64).toNat < 2 ^ 32 := by rw [toNat_and_limbMask]; omega
  have hr0 : (rhs &&& 0xFFFFFFFF#64).toNat < 2 ^ 32 := by rw [toNat_and_limbMask]; omega
  have hl1 : (lhs >>> 32).toNat < 2 ^ 32 := by rw [toNat_shiftRight_limb]; omega
  have hr1 : (rhs >>> 32).toNat < 2 ^ 32 := by rw [toNat_shiftRight_limb]; omega
  have hlhs : lhs.toNat = (lhs &&& 0xFFFFFFFF#64).toNat + 2 ^ 32 * (lhs >>> 32).toNat := by
    rw [toNat_and_limbMask, toNat_shiftRight_limb]; omega
  have hrhs : rhs.toNat = (rhs &&& 0xFFFFFFFF#64).toNat + 2 ^ 32 * (rhs >>> 32).toNat := by
    rw [toNat_and_limbMask, toNat_shiftRight_limb]; omega
  rw [multiplyUnsigned64]
  dsimp only
  generalize lhs &&& 0xFFFFFFFF#64 = l0 at *
  generalize rhs &&& 0xFFFFFFFF#64 = r0 at *
  generalize lhs >>> 32 = l1 at *
  generalize rhs >>> 32 = r1 at *
  have hprod : lhs.toNat * rhs.toNat = l0.toNat * r0.toNat +
      2 ^ 32 * (l0.toNat * r1.toNat + l1.toNat * r0.toNat) + 2 ^ 64 * (l1.toNat * r1.toNat) := by
    rw [hlhs, hrhs]
    ring
  have hfits : lhs.toNat * rhs.toNat < 2 ^ 64 * 2 ^ 64 := Nat.mul_lt_mul'' lhs.isLt rhs.isLt
  rw [toNat_low_or_shiftLeft]
  simp only [BitVec.toNat_add, toNat_shiftRight_limb, toNat_and_limbMask, toNat_mul_limbs hl0 hr0,
    toNat_mul_limbs hl0 hr1, toNat_mul_limbs hl1 hr0, toNat_mul_limbs hl1 hr1]
  have hll : l0.toNat * r0.toNat < 2 ^ 32 * 2 ^ 32 := Nat.mul_lt_mul'' hl0 hr0
  generalize l0.toNat * r0.toNat = ll at *
  generalize l0.toNat * r1.toNat = lh at *
  generalize l1.toNat * r0.toNat = hl at *
  generalize l1.toNat * r1.toNat = hh at *
  rw [hprod] at hfits ⊢
  omega

theorem multiplyUnsigned64_low (lhs rhs : BitVec 64) :
    (multiplyUnsigned64 lhs rhs).low = lhs * rhs := by
  have h := multiplyUnsigned64_exact lhs rhs
  have hlt := (multiplyUnsigned64 lhs rhs).low.isLt
  refine BitVec.eq_of_toNat_eq ?_
  rw [BitVec.toNat_mul]
  omega

theorem multiplyUnsigned64_high (lhs rhs : BitVec 64) :
    (multiplyUnsigned64 lhs rhs).high = BitVec.ofInt 64 (lhs.toNat * rhs.toNat / 2 ^ 64) := by
  have h := multiplyUnsigned64_exact lhs rhs
  have hlt := (multiplyUnsigned64 lhs rhs).low.isLt
  have hhigh : (multiplyUnsigned64 lhs rhs).high.toNat = lhs.toNat * rhs.toNat / 2 ^ 64 := by omega
  have hcast : (lhs.toNat * rhs.toNat : Int) / 2 ^ 64 = (lhs.toNat * rhs.toNat / 2 ^ 64 : ℕ) := by
    push_cast
    rfl
  rw [hcast, BitVec.ofInt_natCast, ← hhigh, BitVec.ofNat_toNat, BitVec.setWidth_eq]

theorem shiftRight_sign (x : BitVec 64) : x >>> 63 ≠ 0#64 ↔ x.msb = true := by
  rw [BitVec.msb_eq_decide, decide_eq_true_iff, ne_eq, ← BitVec.toNat_inj, BitVec.toNat_ushiftRight,
    Nat.shiftRight_eq_div_pow, BitVec.toNat_zero]
  omega

/-- A signed number is the unsigned one, less the weight of a bit above it. -/
theorem toInt_of_msb {x : BitVec 64} (h : x.msb = true) : x.toInt = x.toNat - 2 ^ 64 := by
  rw [BitVec.toInt_eq_msb_cond, if_pos h]
  rfl

theorem toInt_of_not_msb {x : BitVec 64} (h : ¬ x.msb = true) : x.toInt = x.toNat := by
  rw [BitVec.toInt_eq_msb_cond, if_neg h]

/-- The correction of the high half: one factor is taken off it. -/
theorem ofInt_high_sub {x : BitVec 64} {k : Int} (h : BitVec.ofInt 64 k = x) (n : Int) :
    BitVec.ofInt 64 (n / 2 ^ 64) - x = BitVec.ofInt 64 ((n - 2 ^ 64 * k) / 2 ^ 64) := by
  rw [Int.sub_mul_ediv_left _ _ (by decide), Int.sub_eq_add_neg, BitVec.ofInt_add, BitVec.ofInt_neg,
    h, BitVec.sub_eq_add_neg]

theorem ofInt_toNat (x : BitVec 64) : BitVec.ofInt 64 x.toNat = x := by
  rw [BitVec.ofInt_natCast, BitVec.ofNat_toNat, BitVec.setWidth_eq]

/-- One operand is read as a signed number. -/
theorem multiplyUnsigned64_signed_left (lhs rhs : BitVec 64) :
    (if lhs >>> 63 ≠ 0#64 then (multiplyUnsigned64 lhs rhs).high - rhs
      else (multiplyUnsigned64 lhs rhs).high) =
      BitVec.ofInt 64 (lhs.toInt * rhs.toNat / 2 ^ 64) := by
  rw [multiplyUnsigned64_high]
  simp only [shiftRight_sign]
  split
  · next h => rw [ofInt_high_sub (ofInt_toNat rhs), toInt_of_msb h, sub_mul]
  · next h => rw [toInt_of_not_msb h]

/-- And then the other one. -/
theorem ofInt_high_signed_right (lhs rhs : BitVec 64) :
    (if rhs >>> 63 ≠ 0#64 then BitVec.ofInt 64 (lhs.toInt * rhs.toNat / 2 ^ 64) - lhs
      else BitVec.ofInt 64 (lhs.toInt * rhs.toNat / 2 ^ 64)) =
      BitVec.ofInt 64 (lhs.toInt * rhs.toInt / 2 ^ 64) := by
  simp only [shiftRight_sign]
  split
  · next h =>
    rw [ofInt_high_sub (k := lhs.toInt) BitVec.ofInt_toInt, toInt_of_msb h, mul_sub,
      mul_comm (2 ^ 64) lhs.toInt]
  · next h => rw [toInt_of_not_msb h]

/-! ## Quotients -/

theorem twosComplementNegate_eq {w : ℕ} (x : BitVec w) : twosComplementNegate x = -x := by
  rw [twosComplementNegate, BitVec.neg_eq_not_add]

section Division

variable {w : ℕ} (a b : BitVec (w + 1))

/-- **Division of magnitudes.**  Each of the four sign combinations is a clause of the division
towards zero. -/
theorem divideSigned_eq :
    divideSigned a b =
      { quotient := Isa.Multiplicative.div.result a b
        remainder := Isa.Multiplicative.rem.result a b } := by
  rw [Isa.Multiplicative.result_div a b (Nat.succ_pos w),
    Isa.Multiplicative.result_rem a b (Nat.succ_pos w), divideSigned, Nat.add_sub_cancel]
  dsimp only
  simp only [signBit_and, twosComplementNegate_eq]
  by_cases hb : b = 0
  · have hb' : b = 0#(w + 1) := hb
    rw [if_pos hb, if_pos hb, if_pos hb']
  · have hb' : ¬ b = 0#(w + 1) := hb
    rw [if_neg hb, if_neg hb, if_neg hb', BitVec.sdiv_eq, BitVec.srem_eq]
    cases a.msb <;> cases b.msb <;> rfl

end Division

/-! ## The instructions -/

theorem executeDoubleword_eq (function3 : BitVec 3) (lhs rhs : BitVec 64) :
    executeDoubleword function3 lhs rhs =
      some ((Isa.Multiplicative.ofFunction3 function3).result lhs rhs) := by
  rw [executeDoubleword]
  dsimp only
  rw [multiplyUnsigned64_signed_left, ofInt_high_signed_right, multiplyUnsigned64_low,
    multiplyUnsigned64_high, divideSigned_eq]
  rcases function3_cases function3 with rfl | rfl | rfl | rfl | rfl | rfl | rfl | rfl
  · exact congrArg some (Isa.Multiplicative.result_mul lhs rhs).symm
  · rfl
  · rfl
  · rfl
  · rfl
  · exact congrArg some (Isa.Multiplicative.result_divu lhs rhs).symm
  · rfl
  · exact congrArg some (Isa.Multiplicative.result_remu lhs rhs).symm

theorem extendWord_eq (value : BitVec 32) : extendWord value = value.signExtend 64 := by
  rw [extendWord, setWidth_signExtend _ (by decide) (by decide)]

theorem executeWord_eq (function3 : BitVec 3) (lhs rhs : BitVec 64) :
    executeWord function3 lhs rhs =
      (Isa.Multiplicative.wordOfFunction3 function3).map fun operation ↦
        (operation.result (lhs.setWidth 32) (rhs.setWidth 32)).signExtend 64 := by
  rw [executeWord]
  simp only [extendWord_eq, divideSigned_eq]
  generalize lhs.setWidth 32 = a
  generalize rhs.setWidth 32 = b
  have hmul := Isa.Multiplicative.result_mul a b
  have hdivu := Isa.Multiplicative.result_divu a b
  have hremu := Isa.Multiplicative.result_remu a b
  rcases function3_cases function3 with rfl | rfl | rfl | rfl | rfl | rfl | rfl | rfl
  · exact congrArg (fun x ↦ some (x.signExtend 64)) hmul.symm
  · rfl
  · rfl
  · rfl
  · rfl
  · exact congrArg (fun x ↦ some (x.signExtend 64)) hdivu.symm
  · rfl
  · exact congrArg (fun x ↦ some (x.signExtend 64)) hremu.symm

/-- **RV64M over the integers.**  The doubleword forms give, for every `funct3`, the word of the
operation on the integers their operands stand for; the W forms do so on the low halves and extend
the sign, and three of their encodings are reserved.  The word holds the integer exactly, read as
the operation defines it, but for the product of which MUL keeps the low half. -/
theorem integer_m_exact (function3 : BitVec 3) (lhs rhs : BitVec 64) :
    executeIntegerM function3 lhs rhs false =
        some ((Isa.Multiplicative.ofFunction3 function3).result lhs rhs) ∧
      executeIntegerM function3 lhs rhs true =
        (Isa.Multiplicative.wordOfFunction3 function3).map (fun operation ↦
          (operation.result (lhs.setWidth 32) (rhs.setWidth 32)).signExtend 64) ∧
      ∀ w, 0 < w → ∀ (operation : Isa.Multiplicative) (a b : BitVec w),
        (operation = .mul → ((operation.result a b).toNat : Int) = operation.value a b % 2 ^ w) ∧
        (operation.Signed → (operation.result a b).toInt = operation.value a b) ∧
        (operation.Unsigned → ((operation.result a b).toNat : Int) = operation.value a b) := by
  refine ⟨executeDoubleword_eq function3 lhs rhs, executeWord_eq function3 lhs rhs,
    fun w hw operation a b ↦ ⟨?_, Isa.Multiplicative.toInt_result a b hw,
      Isa.Multiplicative.toNat_result a b⟩⟩
  rintro -
  have hpos : (0 : Int) < 2 ^ w := by positivity
  rw [Isa.Multiplicative.result, BitVec.toNat_ofInt]
  push_cast
  exact Int.toNat_of_nonneg (Int.emod_nonneg _ hpos.ne')

/-- MULH of the least number with itself, and the quotient of the least word by minus one. -/
theorem integer_m_exact_least :
    executeIntegerM 1#3 (BitVec.intMin 64) (BitVec.intMin 64) false = some 0x4000000000000000#64 ∧
      executeIntegerM 4#3 0x80000000#64 0xFFFFFFFF#64 true = some 0xFFFFFFFF80000000#64 ∧
      (Isa.Multiplicative.mulh.result (BitVec.intMin 64) (BitVec.intMin 64)).toInt = 2 ^ 62 :=
  have h := integer_m_exact 1#3 (BitVec.intMin 64) (BitVec.intMin 64)
  ⟨h.1.trans (by decide), (integer_m_exact 4#3 0x80000000#64 0xFFFFFFFF#64).2.1.trans (by decide),
    ((h.2.2 64 (by decide) .mulh _ _).2.1 (Or.inl rfl)).trans (by decide)⟩

end Rvemu
