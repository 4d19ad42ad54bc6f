import Mathlib.Algebra.Order.Ring.Int
import Mathlib.Algebra.Group.Nat.Defs
import Mathlib.Tactic.Linarith

/-!
# RV64M as the manual defines it

The multiplications and divisions as operations on integers.  An instruction reads its operands as
signed or unsigned numbers, computes an exact product, or a quotient rounded towards zero with its
remainder, and keeps as many bits as the register has.  `Multiplicative.value` is the integer and
`Multiplicative.result` the word; the two differ for MUL only, which keeps the low half of a
product.
-/

set_option autoImplicit false

namespace Rvemu.Isa

inductive Multiplicative
  | mul | mulh | mulhsu | mulhu | div | divu | rem | remu
  deriving DecidableEq, Repr

namespace Multiplicative

section Definitions

variable {w : ℕ} (a b : BitVec w)

/-- The one quotient of signed numbers that is too large for a signed number. -/
def Overflows : Prop := a.toInt = -2 ^ (w - 1) ∧ b.toInt = -1

instance : Decidable (Overflows a b) := inferInstanceAs (Decidable (_ ∧ _))

/-- Division by zero is defined: the quotient has all bits set, the remainder is the dividend. -/
def value : Multiplicative → Int
  | mul => a.toInt * b.toInt
  | mulh => a.toInt * b.toInt / 2 ^ w
  | mulhsu => a.toInt * b.toNat / 2 ^ w
  | mulhu => a.toNat * b.toNat / 2 ^ w
  | div =>
    if b.toInt = 0 then -1
    else if Overflows a b then -2 ^ (w - 1)
    else a.toInt.tdiv b.toInt
  | divu => if b.toNat = 0 then 2 ^ w - 1 else a.toNat / b.toNat
  | rem =>
    if b.toInt = 0 then a.toInt
    else if Overflows a b then 0
    else a.toInt.tmod b.toInt
  | remu => if b.toNat = 0 then a.toNat else a.toNat % b.toNat

def result (operation : Multiplicative) : BitVec w := BitVec.ofInt w (operation.value a b)

/-- The operations whose result is a signed number. -/
def Signed (operation : Multiplicative) : Prop :=
  operation = mulh ∨ operation = mulhsu ∨ operation = div ∨ operation = rem

/-- The operations whose result is an unsigned number. -/
def Unsigned (operation : Multiplicative) : Prop :=
  operation = mulhu ∨ operation = divu ∨ operation = remu

end Definitions

/-! ## Encodings -/

/-- All eight values of `funct3` are defined in OP. -/
def ofFunction3 (function3 : BitVec 3) : Multiplicative :=
  if function3 = 0#3 then mul
  else if function3 = 1#3 then mulh
  else if function3 = 2#3 then mulhsu
  else if function3 = 3#3 then mulhu
  else if function3 = 4#3 then div
  else if function3 = 5#3 then divu
  else if function3 = 6#3 then rem
  else remu

/-- OP-32 has no high halves of products. -/
def wordOfFunction3 (function3 : BitVec 3) : Option Multiplicative :=
  if function3 = 1#3 ∨ function3 = 2#3 ∨ function3 = 3#3 then none
  else some (ofFunction3 function3)

/-! ## The results as operations on words -/

section Words

variable {w : ℕ} (a b : BitVec w)

theorem result_mul : mul.result a b = a * b := by
  rw [result, value, BitVec.ofInt_mul, BitVec.ofInt_toInt, BitVec.ofInt_toInt]

theorem result_divu : divu.result a b = if b = 0 then BitVec.allOnes w else a / b := by
  rw [result, value]
  by_cases h : b = 0
  · subst h
    refine BitVec.eq_of_toNat_eq ?_
    have hpos : (0 : Int) < 2 ^ w := by positivity
    rw [if_pos (by simp), if_pos rfl, BitVec.toNat_ofInt, BitVec.toNat_allOnes]
    push_cast
    rw [Int.emod_eq_of_lt (by omega) (by omega)]
    have := Nat.two_pow_pos w
    zify [this]
    omega
  · have hne : b.toNat ≠ 0 := fun hzero ↦ h (BitVec.eq_of_toNat_eq (by simpa using hzero))
    rw [if_neg hne, if_neg h, ← Int.natCast_ediv, BitVec.ofInt_natCast, ← BitVec.toNat_udiv,
      BitVec.ofNat_toNat, BitVec.setWidth_eq]

theorem result_remu : remu.result a b = if b = 0 then a else a % b := by
  rw [result, value]
  by_cases h : b = 0
  · subst h
    rw [if_pos (by simp), if_pos rfl, BitVec.ofInt_natCast, BitVec.ofNat_toNat, BitVec.setWidth_eq]
  · have hne : b.toNat ≠ 0 := fun hzero ↦ h (BitVec.eq_of_toNat_eq (by simpa using hzero))
    rw [if_neg hne, if_neg h, ← Int.natCast_emod, BitVec.ofInt_natCast, ← BitVec.toNat_umod,
      BitVec.ofNat_toNat, BitVec.setWidth_eq]

theorem toInt_eq_zero_iff : b.toInt = 0 ↔ b = 0 :=
  ⟨fun h ↦ BitVec.eq_of_toInt_eq (by simpa using h), fun h ↦ by subst h; exact BitVec.toInt_zero⟩

theorem overflows_iff (hw : 0 < w) :
    Overflows a b ↔ a = BitVec.intMin w ∧ b = BitVec.allOnes w := by
  rw [Overflows, ← BitVec.toInt_inj, ← BitVec.toInt_inj, BitVec.toInt_allOnes, if_pos hw,
    BitVec.toInt_intMin_of_pos hw]

theorem result_div (hw : 0 < w) :
    div.result a b = if b = 0 then BitVec.allOnes w else a.sdiv b := by
  rw [result, value]
  simp only [toInt_eq_zero_iff, overflows_iff _ _ hw]
  by_cases h : b = 0
  · rw [if_pos h, if_pos h]
    rw [BitVec.ofInt_neg, ← BitVec.neg_one_eq_allOnes]
    rfl
  · rw [if_neg h, if_neg h]
    split
    · next hover =>
      rw [hover.1, hover.2, ← BitVec.neg_one_eq_allOnes, BitVec.intMin_sdiv_neg_one,
        ← BitVec.toInt_intMin_of_pos hw, BitVec.ofInt_toInt]
    · refine BitVec.eq_of_toInt_eq ?_
      rw [BitVec.toInt_ofInt, BitVec.toInt_sdiv]

theorem result_rem (hw : 0 < w) : rem.result a b = if b = 0 then a else a.srem b := by
  rw [result, value]
  simp only [toInt_eq_zero_iff, overflows_iff _ _ hw]
  by_cases h : b = 0
  · rw [if_pos h, if_pos h, BitVec.ofInt_toInt]
  · rw [if_neg h, if_neg h]
    have hrem := BitVec.toInt_srem a b
    split
    · next hover =>
      refine BitVec.eq_of_toInt_eq ?_
      rw [hrem, hover.1, hover.2, BitVec.toInt_allOnes, if_pos hw, Int.tmod_neg, Int.tmod_one,
        BitVec.toInt_ofInt, Int.zero_bmod]
    · rw [← hrem, BitVec.ofInt_toInt]

end Words

/-! ## The values as numbers of the width -/

section Exact

variable {w : ℕ} (a b : BitVec w) (hw : 0 < w)

include hw

theorem two_mul_two_pow : (2 : Int) * 2 ^ (w - 1) = 2 ^ w := by
  rw [← Int.pow_succ', Nat.sub_add_cancel hw]

/-- The high half of a product is a signed number when the product has twice the width. -/
theorem toInt_ofInt_high {n : Int} (h : -2 ^ (w - 1) * 2 ^ w ≤ n) (h' : n < 2 ^ (w - 1) * 2 ^ w) :
    (BitVec.ofInt w (n / 2 ^ w)).toInt = n / 2 ^ w := by
  have hpos : (0 : Int) < 2 ^ w := by positivity
  exact BitVec.toInt_ofInt_eq_self hw ((Int.le_ediv_iff_mul_le hpos).2 h)
    ((Int.ediv_lt_iff_lt_mul hpos).2 h')

/-- **Signed results are exact.** -/
theorem toInt_result {operation : Multiplicative} (h : operation.Signed) :
    (operation.result a b).toInt = operation.value a b := by
  have htwo := two_mul_two_pow hw
  have hhalf : (0 : Int) < 2 ^ (w - 1) := by positivity
  have hlow := BitVec.le_toInt a
  have hhigh := BitVec.toInt_lt (x := a)
  rcases h with rfl | rfl | rfl | rfl
  · have hlow' := BitVec.le_toInt b
    have hhigh' := BitVec.toInt_lt (x := b)
    refine toInt_ofInt_high hw ?_ ?_ <;> nlinarith
  · have hlt : (b.toNat : Int) < 2 ^ w := by exact_mod_cast b.isLt
    have hnonneg : (0 : Int) ≤ b.toNat := Int.natCast_nonneg _
    refine toInt_ofInt_high hw ?_ ?_ <;> nlinarith
  · rw [result_div a b hw, value]
    simp only [toInt_eq_zero_iff, overflows_iff _ _ hw]
    by_cases hb : b = 0
    · rw [if_pos hb, if_pos hb, BitVec.toInt_allOnes, if_pos hw]
    · rw [if_neg hb, if_neg hb]
      split
      · next hover =>
        rw [hover.1, hover.2, ← BitVec.neg_one_eq_allOnes, BitVec.intMin_sdiv_neg_one,
          BitVec.toInt_intMin_of_pos hw]
      · next hfits =>
        refine BitVec.toInt_sdiv_of_ne_or_ne a b ?_
        rw [BitVec.neg_one_eq_allOnes]
        exact not_and_or.1 hfits
  · rw [result_rem a b hw, value]
    simp only [toInt_eq_zero_iff, overflows_iff _ _ hw]
    by_cases hb : b = 0
    · rw [if_pos hb, if_pos hb]
    · rw [if_neg hb, if_neg hb, BitVec.toInt_srem]
      split
      · next hover =>
        rw [hover.1, hover.2, BitVec.toInt_allOnes, if_pos hw, Int.tmod_neg, Int.tmod_one]
      · rfl

omit hw in
/-- **Unsigned results are exact.** -/
theorem toNat_result {operation : Multiplicative} (h : operation.Unsigned) :
    ((operation.result a b).toNat : Int) = operation.value a b := by
  have hpos : (0 : Int) < 2 ^ w := by positivity
  have ha : (a.toNat : Int) < 2 ^ w := by exact_mod_cast a.isLt
  have hb : (b.toNat : Int) < 2 ^ w := by exact_mod_cast b.isLt
  have ha' : (0 : Int) ≤ a.toNat := Int.natCast_nonneg _
  have hb' : (0 : Int) ≤ b.toNat := Int.natCast_nonneg _
  have hexact : 0 ≤ operation.value a b ∧ operation.value a b < 2 ^ w := by
    rcases h with rfl | rfl | rfl
    · refine ⟨Int.ediv_nonneg (mul_nonneg ha' hb') hpos.le, (Int.ediv_lt_iff_lt_mul hpos).2 ?_⟩
      nlinarith
    · rw [value]
      split
      · omega
      · exact ⟨Int.ediv_nonneg ha' hb', lt_of_le_of_lt (Int.ediv_le_self _ ha') ha⟩
    · rw [value]
      split
      · exact ⟨ha', ha⟩
      · next hne =>
        have hne' : (b.toNat : Int) ≠ 0 := by exact_mod_cast hne
        exact ⟨Int.emod_nonneg _ hne', lt_trans (Int.emod_lt_of_pos _ (by omega)) hb⟩
  rw [result, BitVec.toNat_ofInt]
  push_cast
  rw [Int.emod_eq_of_lt hexact.1 hexact.2, Int.toNat_of_nonneg hexact.1]

end Exact

end Multiplicative

end Rvemu.Isa
