import Mathlib.Tactic.Common
import Mathlib.Algebra.Group.Nat.Defs

/-!
# Fields of words

Encodings are concatenations of fields.  A field is cut out by a shift and a mask, or named by
`extractLsb'`; what is put into one is truncated, and extended again when it is taken out.
-/

set_option autoImplicit false

namespace Fields

variable {n m v w : ℕ}

/-- A masked field, whatever width it is then given. -/
theorem setWidth_and_mask (w : ℕ) (x : BitVec v) (s : ℕ) {mask : BitVec v}
    (hmask : mask.toNat = 2 ^ n - 1) :
    ((x >>> s) &&& mask).setWidth w = (x.extractLsb' s n).setWidth w := by
  refine BitVec.eq_of_toNat_eq ?_
  rw [BitVec.toNat_setWidth, BitVec.toNat_setWidth, BitVec.extractLsb'_toNat, BitVec.toNat_and,
    hmask, Nat.and_two_pow_sub_one_eq_mod, BitVec.toNat_ushiftRight]

/-- The fields of a word of which only the low bits are kept. -/
theorem extractLsb'_and_mask {x : BitVec v} {mask : BitVec v} (hmask : mask.toNat = 2 ^ n - 1)
    {s : ℕ} (hs : s + m ≤ n) (hw : s + m ≤ w) :
    ((x &&& mask).setWidth w).extractLsb' s m = x.extractLsb' s m := by
  rw [show (x &&& mask).setWidth w = (x.extractLsb' 0 n).setWidth w from
    setWidth_and_mask w x 0 hmask, BitVec.extractLsb'_setWidth_of_le hw,
    BitVec.extractLsb'_extractLsb'_of_le hs]

theorem setWidth_and_mask_shiftRight (x : BitVec v) {s : ℕ} {mask : BitVec v}
    (hmask : mask.toNat = 2 ^ (s + m) - 1) (hw : s + m ≤ w) :
    (x &&& mask).setWidth w >>> s = (x.extractLsb' s m).setWidth w := by
  have hle : 2 ^ (s + m) ≤ 2 ^ w := Nat.pow_le_pow_right (by decide) hw
  have hlow : x.toNat % 2 ^ (s + m) < 2 ^ (s + m) := Nat.mod_lt _ (Nat.two_pow_pos _)
  have hfield : x.toNat / 2 ^ s % 2 ^ m < 2 ^ w :=
    Nat.lt_of_lt_of_le (Nat.mod_lt _ (Nat.two_pow_pos m))
      (Nat.pow_le_pow_right (by decide) (by omega))
  refine BitVec.eq_of_toNat_eq ?_
  rw [BitVec.toNat_ushiftRight, BitVec.toNat_setWidth, BitVec.toNat_setWidth,
    BitVec.extractLsb'_toNat, BitVec.toNat_and, hmask, Nat.and_two_pow_sub_one_eq_mod,
    Nat.mod_eq_of_lt (Nat.lt_of_lt_of_le hlow hle), Nat.shiftRight_eq_div_pow,
    Nat.shiftRight_eq_div_pow, Nat.pow_add, Nat.mod_mul_right_div_self, Nat.mod_eq_of_lt hfield]

theorem field_and_mask {x mask : BitVec v} (hmask : mask.toNat = 2 ^ n - 1) {s : ℕ}
    {mask' : BitVec w} (hmask' : mask'.toNat = 2 ^ m - 1) (hs : s + m ≤ n) (hw : s + m ≤ w) :
    ((x &&& mask).setWidth w >>> s) &&& mask' = (x.extractLsb' s m).setWidth w := by
  rw [← BitVec.setWidth_eq (_ &&& mask'), setWidth_and_mask w _ s hmask',
    extractLsb'_and_mask hmask hs hw]

/-- A field of a field. -/
theorem extractLsb'_extractLsb' (x : BitVec w) (t : ℕ) {s : ℕ} (h : s + m ≤ n) :
    (x.extractLsb' t n).extractLsb' s m = x.extractLsb' (t + s) m := by
  refine BitVec.eq_of_getLsbD_eq fun i hi ↦ ?_
  simp [hi, show s + i < n by omega, Nat.add_assoc]

/-- Fields that lie next to each other. -/
theorem extractLsb'_append (x : BitVec w) {s s' : ℕ} (h : s' = s + n) :
    x.extractLsb' s' m ++ x.extractLsb' s n = x.extractLsb' s (m + n) := by
  subst h
  refine BitVec.eq_of_getLsbD_eq fun i hi ↦ ?_
  rw [BitVec.getLsbD_append, BitVec.getLsbD_extractLsb', BitVec.getLsbD_extractLsb',
    BitVec.getLsbD_extractLsb']
  by_cases hlt : i < n
  · simp [hlt, hi]
  · simp [hlt, hi, show i - n < m by omega, show s + n + (i - n) = s + i by omega]

/-- Even numbers end in a zero. -/
theorem extractLsb'_append_zero {x : BitVec w} (h : x.getLsbD 0 = false) :
    x.extractLsb' 1 n ++ 0#1 = x.setWidth (n + 1) := by
  have hlow : x.extractLsb' 0 1 = 0#1 := by
    refine BitVec.eq_of_getLsbD_eq fun i hi ↦ ?_
    obtain rfl : i = 0 := by omega
    simpa using h
  rw [← hlow, extractLsb'_append x (show 1 = 0 + 1 from rfl)]
  refine BitVec.eq_of_getLsbD_eq fun i hi ↦ ?_
  simp [hi]

/-! ## Extension -/

theorem setWidth_setWidth_of_ge (x : BitVec n) (h : n ≤ m) :
    (x.setWidth m).setWidth v = x.setWidth v := by
  refine BitVec.eq_of_toNat_eq ?_
  rw [BitVec.toNat_setWidth, BitVec.toNat_setWidth, BitVec.toNat_setWidth,
    Nat.mod_eq_of_lt (Nat.lt_of_lt_of_le x.isLt (Nat.pow_le_pow_right (by decide) h))]

theorem setWidth_signExtend_of_le (x : BitVec n) (h : m ≤ v) :
    (x.signExtend v).setWidth m = x.signExtend m := by
  refine BitVec.eq_of_getLsbD_eq fun i hi ↦ ?_
  rw [BitVec.getLsbD_setWidth, BitVec.getLsbD_signExtend, BitVec.getLsbD_signExtend]
  simp [hi, show i < v by omega]

theorem signExtend_signExtend_of_le (x : BitVec n) (h : n ≤ m) (hv : m ≤ v) :
    (x.signExtend m).signExtend v = x.signExtend v := by
  refine BitVec.eq_of_toInt_eq ?_
  rw [BitVec.toInt_signExtend_of_le hv, BitVec.toInt_signExtend_of_le h,
    BitVec.toInt_signExtend_of_le (Nat.le_trans h hv)]

/-- A signed number that fits survives being cut to size. -/
theorem signExtend_setWidth_signExtend (x : BitVec n) (h : n ≤ m) (hv : m ≤ v) :
    ((x.signExtend v).setWidth m).signExtend v = x.signExtend v := by
  rw [setWidth_signExtend_of_le x hv, signExtend_signExtend_of_le x h hv]

/-- So does an unsigned one that leaves the sign bit free. -/
theorem signExtend_setWidth_setWidth (x : BitVec n) (h : n < m) (hv : m ≤ v) :
    ((x.setWidth v).setWidth m).signExtend v = x.setWidth v := by
  have hmsb : (x.setWidth m).msb = false := by
    rw [BitVec.msb_setWidth]
    simp [BitVec.getLsbD_of_ge x (m - 1) (by omega)]
  rw [BitVec.setWidth_setWidth_of_le _ hv, BitVec.signExtend_eq_setWidth_of_msb_false hmsb,
    setWidth_setWidth_of_ge x (Nat.le_of_lt h)]

end Fields
