import Rvemu.Float.Operands
import Rvemu.Float.Significands
import Mathlib.Data.Nat.Cast.Order.Field
import Mathlib.Tactic.FieldSimp

/-!
# Sums, products, fused products and quotients

What IEEE 754 prescribes for each operation is said on data: the datum of the exact result, when
there is one, and otherwise that the operation is invalid.  An exact result that is finite is
rounded once.  The operations of the soft-float core form the exact result in a wide integer, or a
wide integer that stands for it with enough digits.
-/

set_option autoImplicit false

namespace Rvemu

open Rounding SoftFloat

namespace Ieee

/-! ## What is prescribed -/

/-- The operation has no meaningful result. -/
def Invalid (format : FloatingFormat) (result : FloatingResult) : Prop :=
  result = { bits := canonicalNan format, flags := FloatingExceptionFlag.invalidOperation }

/-- There is a NaN among the operands. -/
def Propagates (format : FloatingFormat) (signaling : Bool) (result : FloatingResult) : Prop :=
  result = { bits := canonicalNan format
             flags := if signaling then FloatingExceptionFlag.invalidOperation else 0#8 }

/-- The exact result is delivered, rounded once if it is finite. -/
def Delivers (format : FloatingFormat) (mode : Mode) (result : FloatingResult) : Datum → Prop
  | .nan => False
  | .infinite negative => decode format result.bits = .infinite negative ∧ result.flags = 0#8
  | .finite negative magnitude =>
    ∃ rounded unbounded, Delivered format mode negative magnitude rounded unbounded result

namespace Datum

def flip (negate : Bool) : Datum → Datum
  | finite negative magnitude => .finite (negative != negate) magnitude
  | infinite negative => .infinite (negative != negate)
  | nan => .nan

/-- The exact sum; a sum that is zero is positive unless the operands agree or the mode is down. -/
def plus (mode : Mode) : Datum → Datum → Datum
  | finite a x, finite b y =>
    let sum := signed a x + signed b y
    .finite (if sum = 0 then (if a = b then a else mode == .down) else decide (sum < 0)) |sum|
  | infinite a, infinite b => if a = b then .infinite a else .nan
  | infinite a, finite _ _ => .infinite a
  | finite _ _, infinite b => .infinite b
  | _, _ => .nan

def times : Datum → Datum → Datum
  | finite a x, finite b y => .finite (a != b) (x * y)
  | infinite a, infinite b => .infinite (a != b)
  | infinite a, finite b y => if y = 0 then .nan else .infinite (a != b)
  | finite a x, infinite b => if x = 0 then .nan else .infinite (a != b)
  | _, _ => .nan

/-- The exact quotient, where the divisor is not zero. -/
def dividedBy : Datum → Datum → Datum
  | finite a x, finite b y => .finite (a != b) (x / y)
  | infinite a, finite b _ => .infinite (a != b)
  | finite a _, infinite b => .finite (a != b) 0
  | _, _ => .nan

end Datum

open Datum

variable (format : FloatingFormat) (mode : Mode) (lhs rhs addend : Datum) (signaling : Bool)
  (result : FloatingResult)

/-- Addition, with the data of the operands and whether one of them is a signaling NaN. -/
def Adds : Prop :=
  if lhs = .nan ∨ rhs = .nan then Propagates format signaling result
  else if plus mode lhs rhs = .nan then Invalid format result
  else Delivers format mode result (plus mode lhs rhs)

def Multiplies : Prop :=
  if lhs = .nan ∨ rhs = .nan then Propagates format signaling result
  else if times lhs rhs = .nan then Invalid format result
  else Delivers format mode result (times lhs rhs)

/-- The fused operations.  An invalid product is invalid whatever the addend is. -/
def Fuses (negateProduct negateAddend : Bool) : Prop :=
  if lhs ≠ .nan ∧ rhs ≠ .nan ∧ times lhs rhs = .nan then Invalid format result
  else
    Adds format mode ((times lhs rhs).flip negateProduct)
      (addend.flip negateAddend) signaling result

/-- Division; a finite number over zero is an exact infinity. -/
def Divides : Prop :=
  if lhs = .nan ∨ rhs = .nan then Propagates format signaling result
  else
    match lhs, rhs with
    | .infinite _, .infinite _ => Invalid format result
    | .finite a x, .finite b y =>
      if y = 0 then
        if x = 0 then Invalid format result
        else
          decode format result.bits = .infinite (a != b) ∧
            result.flags = FloatingExceptionFlag.divideByZero
      else Delivers format mode result (dividedBy lhs rhs)
    | _, _ => Delivers format mode result (dividedBy lhs rhs)

end Ieee

open Ieee

/-! ## Results -/

section Results

variable (format : FloatingFormat) (rounding : FloatingRoundingMode) (sign : Bool)

theorem invalid_invalidResult : Invalid format (invalidResult (formatOf format)) := by
  rw [Invalid, invalidResult, canonicalNan_formatOf]
  rfl

theorem propagates_nanResult (signaling : Bool) :
    Propagates format signaling (nanResult (formatOf format) signaling) := by
  rw [Propagates, nanResult, canonicalNan_formatOf]
  rfl

theorem delivers_infinity :
    Delivers format rounding.mode { bits := infinity (formatOf format) sign } (.infinite sign) :=
  ⟨decode_infinity format sign, rfl⟩

theorem decode_signedZero :
    Ieee.decode format (signedZero (formatOf format) sign) = .finite sign 0 := by
  have hzero : signedZero (formatOf format) sign = encode format sign 0 0 := by
    cases format <;> cases sign <;> decide
  rw [hzero, decode_subnormal format sign (Nat.two_pow_pos _), Nat.cast_zero, zero_mul]

/-- A zero is exact. -/
theorem delivers_signedZero :
    Delivers format rounding.mode { bits := signedZero (formatOf format) sign }
    (.finite sign 0) := by
  have hmax : (0 : ℚ) ≤ maximumFinite format := by
    rw [maximumFinite]
    positivity
  have hround : Rounded format rounding.mode sign (0 : ℚ) 0 0
      { bits := signedZero (formatOf format) sign } := by
    refine rounded_finite ?_ ?_ ⟨le_rfl, le_rfl⟩ (toNat_signBits_lt format sign)
      (decode_signedZero format sign) hmax (show _ = finiteFlags false true from rfl) ?_ ?_
    · rw [Rat.cast_zero]
      exact isRounding_self (Grid.zero_mem _ _) _
    · rw [Rat.cast_zero]
      exact isRounding_self (Grid.zero_mem _ _) _
    · simp
    · rw [minimumNormal]
      exact iff_of_true rfl (zpow_pos (by norm_num) _)
  exact ⟨0, 0, hround.delivered⟩

theorem delivers_roundAndPack {m : WideUnsigned} (hm : 0 < m.toNat) (e : ℤ) :
    Delivers format rounding.mode (roundAndPack (formatOf format) sign m e rounding)
      (.finite sign (m.toNat * 2 ^ e)) := by
  obtain ⟨rounded, unbounded, h⟩ := roundAndPack_rounded (K := ℚ)
      (e := e) format sign rounding hm.ne'
    (by positivity) (Or.inl rfl) (Or.inl rfl)
  exact ⟨rounded, unbounded, h.delivered⟩

theorem delivers_ofUInt64 {significand : BitVec 64} (h : 0 < significand.toNat) (e : ℤ) :
    Delivers format rounding.mode
      (roundAndPack (formatOf format) sign (.ofUInt64 significand) e rounding)
      (.finite sign (significand.toNat * 2 ^ e)) := by
  have hm : 0 < (WideUnsigned.ofUInt64 significand).toNat := by rwa [WideUnsigned.toNat_ofUInt64]
  have hdelivers := delivers_roundAndPack format rounding sign hm e
  rwa [WideUnsigned.toNat_ofUInt64] at hdelivers

end Results

/-! ## Sums -/

theorem signed_eq_zero_iff (sign : Bool) (x : ℚ) : signed sign x = 0 ↔ x = 0 := by
  cases sign <;> simp [signed]

/-- A number from its sign and its magnitude. -/
theorem sign_abs_signed (sign : Bool) {x : ℚ} (hx : 0 < x) :
    signed sign x ≠ 0 ∧ decide (signed sign x < 0) = sign ∧ |signed sign x| = x := by
  cases sign with
  | false => exact ⟨hx.ne', decide_eq_false hx.not_gt, abs_of_pos hx⟩
  | true =>
    refine ⟨(neg_lt_zero.2 hx).ne, decide_eq_true (neg_lt_zero.2 hx), ?_⟩
    show |-x| = x
    rw [abs_neg, abs_of_pos hx]

theorem plus_finite_of_eq (mode : Mode) {a b : Bool} {x y : ℚ} (sign : Bool) (z : ℚ) (hz : 0 < z)
    (h : signed a x + signed b y = signed sign z) :
    Datum.plus mode (.finite a x) (.finite b y) = .finite sign z := by
  obtain ⟨hne, hsign, habs⟩ := sign_abs_signed sign hz
  simp only [Datum.plus, h, hne, if_false, hsign, habs]

theorem plus_zero_left (mode : Mode) (a b : Bool) {y : ℚ} (hy : 0 < y) :
    Datum.plus mode (.finite a 0) (.finite b y) = .finite b y :=
  plus_finite_of_eq mode b y hy (by rw [(signed_eq_zero_iff a 0).2 rfl, zero_add])

theorem plus_zero_right (mode : Mode) (a b : Bool) {x : ℚ} (hx : 0 < x) :
    Datum.plus mode (.finite a x) (.finite b 0) = .finite a x :=
  plus_finite_of_eq mode a x hx (by rw [(signed_eq_zero_iff b 0).2 rfl, add_zero])

theorem plus_cancel (mode : Mode) {a b : Bool} {x : ℚ} (h : a ≠ b) :
    Datum.plus mode (.finite a x) (.finite b x) = .finite (mode == .down) 0 := by
  have hsum : signed a x + signed b x = 0 := by
    cases a <;> cases b <;> simp [signed] at h ⊢
  simp only [Datum.plus, hsum, if_true, if_neg h, abs_zero]

theorem plus_zeros (mode : Mode) (a b : Bool) :
    Datum.plus mode (.finite a 0) (.finite b 0) =
      .finite (if a = b then a else mode == .down) 0 := by
  have hzero : ∀ sign, signed sign (0 : ℚ) = 0 := fun sign ↦ (signed_eq_zero_iff sign 0).2 rfl
  simp only [Datum.plus, hzero, add_zero, if_true, abs_zero]

section Sums

variable (format : FloatingFormat) (rounding : FloatingRoundingMode)

theorem mode_beq_down : (rounding.mode == .down) = (rounding == .down) := by
  cases rounding <;> rfl

theorem delivers_addMagnitudes (ls rs : Bool) {left right : WideUnsigned} (e : ℤ)
    (hleft : 0 < left.toNat) (hright : 0 < right.toNat)
    (hroom : left.toNat + right.toNat < 2 ^ WideUnsigned.width) :
    Delivers format rounding.mode (addMagnitudes (formatOf format) ls left rs right e rounding)
      (Datum.plus rounding.mode (.finite ls (left.toNat * 2 ^ e))
        (.finite rs (right.toNat * 2 ^ e))) := by
  have hsum := WideUnsigned.toNat_add hroom
  clear hroom
  rw [addMagnitudes]
  split
  · next hsame =>
    subst hsame
    rw [plus_finite_of_eq _ ls ((left.add right).toNat * 2 ^ e)]
    · exact delivers_roundAndPack format rounding ls (by omega) e
    · rw [hsum]
      positivity
    · rw [hsum]
      push_cast
      cases ls <;> simp only [signed, if_true, if_false, Bool.false_eq_true] <;> ring
  · next hdiffer =>
    rw [WideUnsigned.compare_eq]
    have hflip : ∀ z : ℚ, signed rs z = -signed ls z := by
      intro z
      cases ls <;> cases rs <;> simp [signed] at hdiffer ⊢
    split
    · next heq =>
      rw [Nat.compare_eq_eq.1 heq, plus_cancel _ hdiffer, mode_beq_down]
      exact delivers_signedZero format rounding _
    · next hgt =>
      rw [Nat.compare_eq_gt] at hgt
      have hsub := WideUnsigned.toNat_subtract hgt.le
      have hcast : ((left.subtract right).toNat : ℚ) = left.toNat - right.toNat := by
        rw [hsub, Nat.cast_sub hgt.le]
      rw [plus_finite_of_eq _ ls ((left.subtract right).toNat * 2 ^ e)]
      · exact delivers_roundAndPack format rounding ls (by omega) e
      · have : 0 < (left.subtract right).toNat := by omega
        positivity
      · rw [hflip, hcast]
        cases ls <;> simp only [signed, if_true, if_false, Bool.false_eq_true] <;> ring
    · next hlt =>
      rw [Nat.compare_eq_lt] at hlt
      have hsub := WideUnsigned.toNat_subtract hlt.le
      have hcast : ((right.subtract left).toNat : ℚ) = right.toNat - left.toNat := by
        rw [hsub, Nat.cast_sub hlt.le]
      rw [plus_finite_of_eq _ rs ((right.subtract left).toNat * 2 ^ e)]
      · exact delivers_roundAndPack format rounding rs (by omega) e
      · have : 0 < (right.subtract left).toNat := by omega
        positivity
      · rw [hflip, hflip, hcast]
        cases ls <;> simp only [signed, if_true, if_false, Bool.false_eq_true] <;> ring

/-- The wide integers of a sum on the smaller exponent have all the digits. -/
structure AlignedExactly (left right : WideUnsigned) (le re : ℤ) : Prop where
  left_eq : (left.shiftLeft (le - min le re).toNat).toNat =
    left.toNat * 2 ^ (le - min le re).toNat
  right_eq : (right.shiftLeft (re - min le re).toNat).toNat =
    right.toNat * 2 ^ (re - min le re).toNat
  sum_lt : left.toNat * 2 ^ (le - min le re).toNat + right.toNat * 2 ^ (re - min le re).toNat <
    2 ^ WideUnsigned.width

theorem alignedExactly {left right : WideUnsigned} {p d : ℕ} {le re : ℤ} (hllt : left.toNat < 2 ^ p)
    (hrlt : right.toNat < 2 ^ p) (hld : le - re ≤ d) (hrd : re - le ≤ d)
    (hwidth : p + d < WideUnsigned.width) : AlignedExactly left right le re := by
  have hshift : ∀ {v s : ℕ}, v < 2 ^ p → s ≤ d → v * 2 ^ s < 2 ^ (WideUnsigned.width - 1) := by
    intro v s hv hs
    calc v * 2 ^ s < 2 ^ p * 2 ^ s := Nat.mul_lt_mul_of_pos_right hv (Nat.two_pow_pos s)
      _ = 2 ^ (p + s) := (Nat.pow_add ..).symm
      _ ≤ 2 ^ (WideUnsigned.width - 1) := Nat.pow_le_pow_right (by decide) (by omega)
  have hpred : ∀ w : ℕ, 0 < w → 2 ^ (w - 1) * 2 = 2 ^ w := fun _ hw ↦ Nat.two_pow_pred_mul_two hw
  have hdouble := hpred WideUnsigned.width (by decide)
  have hl := hshift (s := (le - min le re).toNat) hllt (by omega)
  have hr := hshift (s := (re - min le re).toNat) hrlt (by omega)
  exact ⟨WideUnsigned.toNat_shiftLeft (by omega), WideUnsigned.toNat_shiftLeft (by omega), by omega⟩

/-- Aligning and adding. -/
theorem AlignedExactly.delivers {left right : WideUnsigned} {le re : ℤ}
    (h : AlignedExactly left right le re) (ls rs : Bool) (hleft : 0 < left.toNat)
    (hright : 0 < right.toNat) :
    Delivers format rounding.mode
      (addMagnitudes (formatOf format) ls (left.shiftLeft (le - min le re).toNat) rs
        (right.shiftLeft (re - min le re).toNat) (min le re) rounding)
      (Datum.plus rounding.mode (.finite ls (left.toNat * 2 ^ le))
        (.finite rs (right.toNat * 2 ^ re))) := by
  have hscale : ∀ (v : ℕ) (e : ℤ), min le re ≤ e →
      ((v * 2 ^ (e - min le re).toNat : ℕ) : ℚ) * 2 ^ min le re = v * 2 ^ e := by
    intro v e he
    rw [← cast_mul_zpow_add, Int.toNat_of_nonneg (by omega), add_sub_cancel]
  have hpos : ∀ {v : ℕ} (s : ℕ), 0 < v → 0 < v * 2 ^ s := fun s hv ↦
    Nat.mul_pos hv (Nat.two_pow_pos s)
  have hsum := delivers_addMagnitudes format rounding ls rs (min le re)
    (h.left_eq ▸ hpos _ hleft) (h.right_eq ▸ hpos _ hright)
    (by rw [h.left_eq, h.right_eq]; exact h.sum_lt)
  rwa [h.left_eq, h.right_eq, hscale _ _ (min_le_left ..), hscale _ _ (min_le_right ..)] at hsum

theorem exponent_spread : precision format + (maximumExponent format - fractionBits format -
    leastExponent format).toNat < WideUnsigned.width := by
  cases format <;> decide

variable {format} {lhs rhs : BitVec 64} {l r : Unpacked}

theorem alignedExactly_operands {sl sr : BitVec 64} {el er : ℤ}
    (hl : sl.toNat < 2 ^ precision format) (hlleast : leastExponent format ≤ el)
    (hlmost : el ≤ maximumExponent format - fractionBits format)
    (hr : sr.toNat < 2 ^ precision format) (hrleast : leastExponent format ≤ er)
    (hrmost : er ≤ maximumExponent format - fractionBits format) :
    AlignedExactly (.ofUInt64 sl) (.ofUInt64 sr) el er :=
  alignedExactly (by rwa [WideUnsigned.toNat_ofUInt64]) (by rwa [WideUnsigned.toNat_ofUInt64])
    (by omega) (by omega) (exponent_spread format)

/-- Adding what was unpacked. -/
theorem addUnpacked_adds (hl : Operand format lhs l) (hr : Operand format rhs r) :
    Adds format rounding.mode (Ieee.decode format lhs) (Ieee.decode format rhs)
      (signaling format lhs || signaling format rhs)
      (addUnpacked (formatOf format) l r rounding) := by
  have hcode : (isNan l.category || isNan r.category) = true ↔
      Ieee.decode format lhs = .nan ∨ Ieee.decode format rhs = .nan := by
    rw [Bool.or_eq_true, hl.isNan_iff, hr.isNan_iff]
  rw [addUnpacked, Adds]
  by_cases hnan : Ieee.decode format lhs = .nan ∨ Ieee.decode format rhs = .nan
  · rw [if_pos hnan, if_pos (hcode.2 hnan), hl.signaling_eq, hr.signaling_eq]
    exact propagates_nanResult format _
  rw [if_neg hnan, if_neg (hcode.not.2 hnan)]
  rw [not_or] at hnan
  cases hl with
  | nan _ _ hdecode => exact absurd hdecode hnan.1
  | infinite a hl =>
    cases hr with
    | nan _ _ hdecode => exact absurd hdecode hnan.2
    | infinite b hr =>
      rw [hl, hr]
      by_cases hab : a = b
      · subst hab
        simpa [Datum.plus] using delivers_infinity format rounding a
      · simpa [Datum.plus, hab] using invalid_invalidResult format
    | zero b hr =>
      rw [hl, hr]
      simpa [Datum.plus] using delivers_infinity format rounding a
    | finite b sr er hr =>
      rw [hl, hr]
      simpa [Datum.plus] using delivers_infinity format rounding a
  | zero a hl =>
    cases hr with
    | nan _ _ hdecode => exact absurd hdecode hnan.2
    | infinite b hr =>
      rw [hl, hr]
      simpa [Datum.plus] using delivers_infinity format rounding b
    | zero b hr =>
      rw [hl, hr, plus_zeros, mode_beq_down]
      simpa using delivers_signedZero format rounding (if a = b then a else rounding == .down)
    | finite b sr er hr hrpos =>
      rw [hl, hr, plus_zero_left _ _ _ (by positivity)]
      simpa using delivers_ofUInt64 format rounding b hrpos er
  | finite a sl el hl hlpos hllt hlleast hlmost =>
    cases hr with
    | nan _ _ hdecode => exact absurd hdecode hnan.2
    | infinite b hr =>
      rw [hl, hr]
      simpa [Datum.plus] using delivers_infinity format rounding b
    | zero b hr =>
      rw [hl, hr, plus_zero_right _ _ _ (by positivity)]
      simpa using delivers_ofUInt64 format rounding a hlpos el
    | finite b sr er hr hrpos hrlt hrleast hrmost =>
      have hsum := (alignedExactly_operands hllt hlleast hlmost hrlt hrleast hrmost).delivers format
        rounding a b (by simpa using hlpos) (by simpa using hrpos)
      rw [WideUnsigned.toNat_ofUInt64, WideUnsigned.toNat_ofUInt64] at hsum
      rw [hl, hr]
      simpa [Datum.plus] using hsum

end Sums

/-! ## Subtraction -/

theorem decode_xor_signMask (format : FloatingFormat) (bits : BitVec 64) :
    Ieee.decode format (bits ^^^ (formatOf format).signMask) =
    (Ieee.decode format bits).flip true := by
  have hfraction : (bits ^^^ (formatOf format).signMask).extractLsb' 0 (fractionBits format) =
      bits.extractLsb' 0 (fractionBits format) := by
    have hmask : (formatOf format).signMask.extractLsb' 0 (fractionBits format) = 0 := by
      cases format <;> decide
    rw [BitVec.extractLsb'_xor, hmask]
    exact BitVec.xor_zero
  have hexponent : (bits ^^^ (formatOf format).signMask).extractLsb' (fractionBits format)
      (exponentBits format) = bits.extractLsb' (fractionBits format) (exponentBits format) := by
    have hmask : (formatOf format).signMask.extractLsb' (fractionBits format)
        (exponentBits format) = 0 := by
      cases format <;> decide
    rw [BitVec.extractLsb'_xor, hmask]
    exact BitVec.xor_zero
  have hsign : (bits ^^^ (formatOf format).signMask).getLsbD (fractionBits format +
      exponentBits format) =
      (bits.getLsbD (fractionBits format + exponentBits format) != true) := by
    have hmask : (formatOf format).signMask.getLsbD (fractionBits format + exponentBits format) =
        true := by
      cases format <;> decide
    rw [BitVec.getLsbD_xor, hmask]
  rw [Ieee.decode, Ieee.decode, hfraction, hexponent, hsign]
  split
  · split <;> rfl
  · split <;> rfl

theorem signaling_xor_signMask (format : FloatingFormat) (bits : BitVec 64) :
    signaling format (bits ^^^ (formatOf format).signMask) = signaling format bits := by
  have hnan : (Ieee.decode format bits).flip true = .nan ↔ Ieee.decode format bits = .nan := by
    cases Ieee.decode format bits <;> simp [Datum.flip]
  have hbit : (formatOf format).signMask.getLsbD (fractionBits format - 1) = false := by
    cases format <;> decide
  rw [signaling, signaling, decode_xor_signMask, BitVec.getLsbD_xor, hbit, Bool.xor_false]
  congr 1
  rw [decide_eq_decide, hnan]

/-! ## Products -/

section Products

variable {format : FloatingFormat} (rounding : FloatingRoundingMode)

theorem delivers_product (sign : Bool) {sl sr : BitVec 64} (hl : 0 < sl.toNat) (hr : 0 < sr.toNat)
    (el er : ℤ) :
    Delivers format rounding.mode
      (roundAndPack (formatOf format) sign (multiplySignificands sl sr) (el + er) rounding)
      (.finite sign (sl.toNat * 2 ^ el * (sr.toNat * 2 ^ er))) := by
  have hproduct := toNat_multiplySignificands sl sr
  have hpos : 0 < (multiplySignificands sl sr).toNat := by
    rw [hproduct]
    exact Nat.mul_pos hl hr
  have hdelivers := delivers_roundAndPack format rounding sign hpos (el + er)
  rw [hproduct, Nat.cast_mul, zpow_add₀ (by norm_num)] at hdelivers
  rwa [mul_mul_mul_comm]

theorem floatingMultiply_multiplies (format : FloatingFormat) (lhs rhs : BitVec 64) :
    Multiplies format rounding.mode (Ieee.decode format lhs) (Ieee.decode format rhs)
      (signaling format lhs || signaling format rhs)
      (floatingMultiply format lhs rhs rounding) := by
  have hl := unpack_operand format lhs
  have hr := unpack_operand format rhs
  rw [floatingMultiply, Multiplies]
  dsimp only
  generalize unpack format lhs = l at hl ⊢
  generalize unpack format rhs = r at hr ⊢
  have hcode : (isNan l.category || isNan r.category) = true ↔
      Ieee.decode format lhs = .nan ∨ Ieee.decode format rhs = .nan := by
    rw [Bool.or_eq_true, hl.isNan_iff, hr.isNan_iff]
  by_cases hnan : Ieee.decode format lhs = .nan ∨ Ieee.decode format rhs = .nan
  · rw [if_pos hnan, if_pos (hcode.2 hnan), hl.signaling_eq, hr.signaling_eq]
    exact propagates_nanResult format _
  rw [if_neg hnan, if_neg (hcode.not.2 hnan)]
  rw [not_or] at hnan
  cases hl with
  | nan _ _ hdecode => exact absurd hdecode hnan.1
  | infinite a hl =>
    cases hr with
    | nan _ _ hdecode => exact absurd hdecode hnan.2
    | infinite b hr =>
      rw [hl, hr]
      simpa [Datum.times] using delivers_infinity format rounding (a != b)
    | zero b hr =>
      rw [hl, hr]
      simpa [Datum.times] using invalid_invalidResult format
    | finite b sr er hr hrpos =>
      have hne : (sr.toNat : ℚ) * 2 ^ er ≠ 0 := by positivity
      rw [hl, hr]
      simpa [Datum.times, hne] using delivers_infinity format rounding (a != b)
  | zero a hl =>
    cases hr with
    | nan _ _ hdecode => exact absurd hdecode hnan.2
    | infinite b hr =>
      rw [hl, hr]
      simpa [Datum.times] using invalid_invalidResult format
    | zero b hr =>
      rw [hl, hr]
      simpa [Datum.times] using delivers_signedZero format rounding (a != b)
    | finite b sr er hr hrpos =>
      rw [hl, hr]
      simpa [Datum.times] using delivers_signedZero format rounding (a != b)
  | finite a sl el hl hlpos =>
    cases hr with
    | nan _ _ hdecode => exact absurd hdecode hnan.2
    | infinite b hr =>
      have hne : (sl.toNat : ℚ) * 2 ^ el ≠ 0 := by positivity
      rw [hl, hr]
      simpa [Datum.times, hne] using delivers_infinity format rounding (a != b)
    | zero b hr =>
      rw [hl, hr]
      simpa [Datum.times] using delivers_signedZero format rounding (a != b)
    | finite b sr er hr hrpos =>
      rw [hl, hr]
      simpa [Datum.times] using delivers_product rounding (a != b) hlpos hrpos el er

end Products

/-! ## Fused operations

The product is one of three: infinite, zero, or a number that is not rounded before the addend comes
to it. -/

section Fused

variable {format : FloatingFormat} (rounding : FloatingRoundingMode) {bits : BitVec 64}
    {u : Unpacked}
  (h : Operand format bits u) (hnan : Ieee.decode format bits ≠ .nan)
    (product negate signaling : Bool)

include h hnan

theorem adds_infinite :
    Adds format rounding.mode (.infinite product) ((Ieee.decode format bits).flip negate) signaling
      (if u.category = .infinity ∧ product ≠ (u.sign != negate) then invalidResult (formatOf format)
        else { bits := infinity (formatOf format) product }) := by
  have hdelivers := delivers_infinity format rounding product
  cases h with
  | nan _ _ hdecode => exact absurd hdecode hnan
  | infinite b hdecode =>
    rw [hdecode, Adds]
    by_cases hsame : product = (b != negate)
    · subst hsame
      simpa [Datum.flip, Datum.plus] using hdelivers
    · simpa [Datum.flip, Datum.plus, hsame] using invalid_invalidResult format
  | zero b hdecode =>
    rw [hdecode, Adds]
    simpa [Datum.flip, Datum.plus] using hdelivers
  | finite b _ _ hdecode =>
    rw [hdecode, Adds]
    simpa [Datum.flip, Datum.plus] using hdelivers

theorem adds_zero :
    Adds format rounding.mode (.finite product 0) ((Ieee.decode format bits).flip negate) signaling
      (if u.category = .infinity then { bits := infinity (formatOf format) (u.sign != negate) }
        else if u.category = .zero then
          { bits := signedZero (formatOf format)
              (if product = (u.sign != negate) then product else rounding == .down) }
        else roundAndPack (formatOf format) (u.sign != negate) (.ofUInt64 u.significand) u.exponent
          rounding) := by
  cases h with
  | nan _ _ hdecode => exact absurd hdecode hnan
  | infinite b hdecode =>
    rw [hdecode, Adds]
    simpa [Datum.flip, Datum.plus] using delivers_infinity format rounding (b != negate)
  | zero b hdecode =>
    have hzero := delivers_signedZero format rounding
      (if product = (b != negate) then product else rounding == .down)
    rw [← mode_beq_down, ← plus_zeros] at hzero
    rw [hdecode, Adds]
    simpa [Datum.flip, Datum.plus, mode_beq_down] using hzero
  | finite b s e hdecode hpos =>
    have hsum := delivers_ofUInt64 format rounding (b != negate) hpos e
    rw [← plus_zero_left rounding.mode product _ (by positivity)] at hsum
    rw [hdecode, Adds]
    simpa [Datum.flip, Datum.plus] using hsum

/-- The product of two numbers, not yet rounded. -/
theorem adds_product {m : WideUnsigned} {exponent : ℤ} (hm : 0 < m.toNat)
    (haligned : u.category = .finite →
      AlignedExactly m (.ofUInt64 u.significand) exponent u.exponent) :
    Adds format rounding.mode (.finite product (m.toNat * 2 ^ exponent))
      ((Ieee.decode format bits).flip negate) signaling
      (if u.category = .infinity then { bits := infinity (formatOf format) (u.sign != negate) }
        else if u.category = .zero then roundAndPack (formatOf format) product m exponent rounding
        else addMagnitudes (formatOf format) product
          (m.shiftLeft (exponent - min exponent u.exponent).toNat) (u.sign != negate)
          ((WideUnsigned.ofUInt64 u.significand).shiftLeft
            (u.exponent - min exponent u.exponent).toNat) (min exponent u.exponent) rounding) := by
  cases h with
  | nan _ _ hdecode => exact absurd hdecode hnan
  | infinite b hdecode =>
    rw [hdecode, Adds]
    simpa [Datum.flip, Datum.plus] using delivers_infinity format rounding (b != negate)
  | zero b hdecode =>
    have hsum := delivers_roundAndPack format rounding product hm exponent
    rw [← plus_zero_right rounding.mode product (b != negate) (by positivity)] at hsum
    rw [hdecode, Adds]
    simpa [Datum.flip, Datum.plus] using hsum
  | finite b s e hdecode hpos =>
    have hsum := (haligned rfl).delivers format rounding product (b != negate) hm
      (by rwa [WideUnsigned.toNat_ofUInt64])
    rw [WideUnsigned.toNat_ofUInt64] at hsum
    rw [hdecode, Adds]
    simpa [Datum.flip, Datum.plus] using hsum

end Fused

theorem fused_spread (format : FloatingFormat) :
    2 * precision format + (2 * (maximumExponent format - fractionBits format) -
      2 * leastExponent format).toNat < WideUnsigned.width ∧
      leastExponent format ≤ 0 ∧ 0 ≤ maximumExponent format - fractionBits format := by
  cases format <;> decide

theorem alignedExactly_fused {format : FloatingFormat} {sl sr sa : BitVec 64} {el er ea : ℤ}
    (hl : sl.toNat < 2 ^ precision format) (hlleast : leastExponent format ≤ el)
    (hlmost : el ≤ maximumExponent format - fractionBits format)
    (hr : sr.toNat < 2 ^ precision format) (hrleast : leastExponent format ≤ er)
    (hrmost : er ≤ maximumExponent format - fractionBits format)
    (ha : sa.toNat < 2 ^ precision format) (haleast : leastExponent format ≤ ea)
    (hamost : ea ≤ maximumExponent format - fractionBits format) :
    AlignedExactly (multiplySignificands sl sr) (.ofUInt64 sa) (el + er) ea := by
  obtain ⟨hspread, hneg, hpos⟩ := fused_spread format
  refine alignedExactly ?_ ?_ ?_ ?_ hspread
  · rw [toNat_multiplySignificands, Nat.two_mul, Nat.pow_add]
    exact Nat.mul_lt_mul'' hl hr
  · rw [WideUnsigned.toNat_ofUInt64]
    exact ha.trans_le (Nat.pow_le_pow_right (by decide) (by omega))
  · omega
  · omega

/-- The wide integers formed from three operands have all the digits: the product of two numbers,
two numbers aligned, and a product aligned with a number. -/
structure FormedExactly (l r u : Unpacked) : Prop where
  product : (multiplySignificands l.significand r.significand).toNat =
    l.significand.toNat * r.significand.toNat
  sum : l.category = .finite → r.category = .finite →
    AlignedExactly (.ofUInt64 l.significand) (.ofUInt64 r.significand) l.exponent r.exponent
  fused : l.category = .finite → r.category = .finite → u.category = .finite →
    AlignedExactly (multiplySignificands l.significand r.significand) (.ofUInt64 u.significand)
      (l.exponent + r.exponent) u.exponent

theorem Operand.of_finite {format : FloatingFormat} {bits : BitVec 64} {u : Unpacked}
    (h : Operand format bits u) (hu : u.category = .finite) :
    u.significand.toNat < 2 ^ precision format ∧ leastExponent format ≤ u.exponent ∧
      u.exponent ≤ maximumExponent format - fractionBits format := by
  cases h with
  | nan _ quiet => cases quiet <;> cases hu
  | infinite => cases hu
  | zero => cases hu
  | finite sign _ _ _ _ hlt hleast hmost => exact ⟨hlt, hleast, hmost⟩

theorem formedExactly {format : FloatingFormat} {lhs rhs addend : BitVec 64} {l r u : Unpacked}
    (hl : Operand format lhs l) (hr : Operand format rhs r) (hu : Operand format addend u) :
    FormedExactly l r u := by
  refine ⟨toNat_multiplySignificands _ _, fun hlf hrf ↦ ?_, fun hlf hrf huf ↦ ?_⟩
  · obtain ⟨hllt, hlleast, hlmost⟩ := hl.of_finite hlf
    obtain ⟨hrlt, hrleast, hrmost⟩ := hr.of_finite hrf
    exact alignedExactly_operands hllt hlleast hlmost hrlt hrleast hrmost
  · obtain ⟨hllt, hlleast, hlmost⟩ := hl.of_finite hlf
    obtain ⟨hrlt, hrleast, hrmost⟩ := hr.of_finite hrf
    obtain ⟨hult, huleast, humost⟩ := hu.of_finite huf
    exact alignedExactly_fused hllt hlleast hlmost hrlt hrleast hrmost hult huleast humost

/-- Infinity times zero. -/
theorem invalid_product_iff {format : FloatingFormat} {lhs rhs : BitVec 64} {l r : Unpacked}
    (hl : Operand format lhs l) (hr : Operand format rhs r) :
    ((l.category = .infinity ∧ r.category = .zero) ∨
      (r.category = .infinity ∧ l.category = .zero)) ↔ (Ieee.decode format lhs ≠ .nan ∧
        Ieee.decode format rhs ≠ .nan ∧ (Ieee.decode format lhs).times (Ieee.decode format rhs) =
        .nan) := by
  cases hl with
  | nan _ quiet hl =>
    rw [hl]
    cases quiet <;> simp
  | infinite a hl =>
    rw [hl]
    cases hr with
    | nan _ quiet hr =>
      rw [hr]
      cases quiet <;> simp
    | infinite b hr => simp [hr, Datum.times]
    | zero b hr => simp [hr, Datum.times]
    | finite b sr er hr hpos => simp [hr, Datum.times, hpos.ne', zpow_ne_zero]
  | zero a hl =>
    rw [hl]
    cases hr with
    | nan _ quiet hr =>
      rw [hr]
      cases quiet <;> simp
    | infinite b hr => simp [hr, Datum.times]
    | zero b hr => simp [hr, Datum.times]
    | finite b sr er hr hpos => simp [hr, Datum.times]
  | finite a sl el hl hlpos =>
    rw [hl]
    cases hr with
    | nan _ quiet hr =>
      rw [hr]
      cases quiet <;> simp
    | infinite b hr => simp [hr, Datum.times, hlpos.ne', zpow_ne_zero]
    | zero b hr => simp [hr, Datum.times]
    | finite b sr er hr hpos => simp [hr, Datum.times]

theorem floatingFusedMultiplyAdd_fuses (format : FloatingFormat) (rounding : FloatingRoundingMode)
    (lhs rhs addend : BitVec 64) (negateProduct negateAddend : Bool) :
    Fuses format rounding.mode (Ieee.decode format lhs) (Ieee.decode format rhs)
      (Ieee.decode format addend)
      (signaling format lhs || signaling format rhs || signaling format addend)
      (floatingFusedMultiplyAdd format lhs rhs addend negateProduct negateAddend rounding)
      negateProduct negateAddend := by
  have hl := unpack_operand format lhs
  have hr := unpack_operand format rhs
  have ha := unpack_operand format addend
  rw [floatingFusedMultiplyAdd, Fuses]
  dsimp only
  generalize unpack format lhs = l at hl ⊢
  generalize unpack format rhs = r at hr ⊢
  generalize unpack format addend = u at ha ⊢
  have hcode : (isNan l.category || isNan r.category || isNan u.category) = true ↔
      (Ieee.decode format lhs = .nan ∨ Ieee.decode format rhs = .nan) ∨
      Ieee.decode format addend = .nan := by
    rw [Bool.or_eq_true, Bool.or_eq_true, hl.isNan_iff, hr.isNan_iff, ha.isNan_iff]
  have hinvalid := invalid_product_iff hl hr
  by_cases hbad : (l.category = .infinity ∧ r.category = .zero) ∨
      (r.category = .infinity ∧ l.category = .zero)
  · rw [if_pos hbad, if_pos (hinvalid.1 hbad)]
    exact invalid_invalidResult format
  rw [if_neg hbad, if_neg (hinvalid.not.1 hbad)]
  by_cases hnan : (Ieee.decode format lhs = .nan ∨ Ieee.decode format rhs = .nan) ∨
    Ieee.decode format addend = .nan
  · have hflip : ((Ieee.decode format lhs).times
        (Ieee.decode format rhs)).flip negateProduct = .nan ∨
        (Ieee.decode format addend).flip negateAddend = .nan := by
      rcases hnan with (h | h) | h
      · exact Or.inl (by rw [h]; rfl)
      · exact Or.inl (by rw [h]; cases Ieee.decode format lhs <;> rfl)
      · exact Or.inr (by rw [h]; rfl)
    rw [if_pos (hcode.2 hnan), Adds, if_pos hflip, hl.signaling_eq, hr.signaling_eq,
      ha.signaling_eq]
    exact propagates_nanResult format _
  rw [if_neg (hcode.not.2 hnan)]
  rw [not_or, not_or] at hnan
  obtain ⟨⟨hlnan, hrnan⟩, hanan⟩ := hnan
  cases hl with
  | nan _ _ hdecode => exact absurd hdecode hlnan
  | infinite a hl =>
    cases hr with
    | nan _ _ hdecode => exact absurd hdecode hrnan
    | infinite b hr =>
      have hsum := adds_infinite rounding ha hanan ((a != b) != negateProduct) negateAddend
        (signaling format lhs || signaling format rhs || signaling format addend)
      rw [hl, hr]
      simpa [Datum.times, Datum.flip] using hsum
    | zero b hr => exact absurd (Or.inl ⟨rfl, rfl⟩) hbad
    | finite b sr er hr hrpos =>
      have hsum := adds_infinite rounding ha hanan ((a != b) != negateProduct) negateAddend
        (signaling format lhs || signaling format rhs || signaling format addend)
      have hne : (sr.toNat : ℚ) * 2 ^ er ≠ 0 := by positivity
      rw [hl, hr, Datum.times, if_neg hne]
      simpa [Datum.flip] using hsum
  | zero a hl =>
    cases hr with
    | nan _ _ hdecode => exact absurd hdecode hrnan
    | infinite b hr => exact absurd (Or.inr ⟨rfl, rfl⟩) hbad
    | zero b hr =>
      have hsum := adds_zero rounding ha hanan ((a != b) != negateProduct) negateAddend
        (signaling format lhs || signaling format rhs || signaling format addend)
      rw [hl, hr]
      simpa [Datum.times, Datum.flip] using hsum
    | finite b sr er hr =>
      have hsum := adds_zero rounding ha hanan ((a != b) != negateProduct) negateAddend
        (signaling format lhs || signaling format rhs || signaling format addend)
      rw [hl, hr]
      simpa [Datum.times, Datum.flip] using hsum
  | finite a sl el hl hlpos hllt hlleast hlmost =>
    cases hr with
    | nan _ _ hdecode => exact absurd hdecode hrnan
    | infinite b hr =>
      have hsum := adds_infinite rounding ha hanan ((a != b) != negateProduct) negateAddend
        (signaling format lhs || signaling format rhs || signaling format addend)
      have hne : (sl.toNat : ℚ) * 2 ^ el ≠ 0 := by positivity
      rw [hl, hr, Datum.times, if_neg hne]
      simpa [Datum.flip] using hsum
    | zero b hr =>
      have hsum := adds_zero rounding ha hanan ((a != b) != negateProduct) negateAddend
        (signaling format lhs || signaling format rhs || signaling format addend)
      rw [hl, hr]
      simpa [Datum.times, Datum.flip] using hsum
    | finite b sr er hr hrpos hrlt hrleast hrmost =>
      have hproduct := toNat_multiplySignificands sl sr
      have haligned : u.category = .finite → AlignedExactly (multiplySignificands sl sr)
          (.ofUInt64 u.significand) (el + er) u.exponent := by
        intro hu
        obtain ⟨hult, huleast, humost⟩ := ha.of_finite hu
        exact alignedExactly_fused hllt hlleast hlmost hrlt hrleast hrmost hult huleast humost
      have hsum := adds_product rounding ha hanan ((a != b) != negateProduct) negateAddend
        (signaling format lhs || signaling format rhs || signaling format addend)
        (by rw [hproduct]; exact Nat.mul_pos hlpos hrpos) haligned
      rw [hproduct, Nat.cast_mul, zpow_add₀ (by norm_num), mul_mul_mul_comm] at hsum
      rw [hl, hr]
      simpa [Datum.times, Datum.flip] using hsum

/-- **Sums, differences, products and fused products are correctly rounded**, and the wide integers
they are formed in lose nothing. -/
theorem arithmetic_correctly_rounded (format : FloatingFormat) (rounding : FloatingRoundingMode)
    (lhs rhs addend : BitVec 64) (negateProduct negateAddend : Bool) :
    Adds format rounding.mode (Ieee.decode format lhs) (Ieee.decode format rhs)
        (signaling format lhs || signaling format rhs) (floatingAdd format lhs rhs rounding) ∧
      Adds format rounding.mode (Ieee.decode format lhs) ((Ieee.decode format rhs).flip true)
        (signaling format lhs || signaling format rhs) (floatingSubtract format lhs rhs rounding) ∧
      Multiplies format rounding.mode (Ieee.decode format lhs) (Ieee.decode format rhs)
        (signaling format lhs || signaling format rhs) (floatingMultiply format lhs rhs rounding) ∧
      Fuses format rounding.mode (Ieee.decode format lhs) (Ieee.decode format rhs)
        (Ieee.decode format addend)
        (signaling format lhs || signaling format rhs || signaling format addend)
        (floatingFusedMultiplyAdd format lhs rhs addend negateProduct negateAddend rounding)
        negateProduct negateAddend ∧
      FormedExactly (unpack format lhs) (unpack format rhs) (unpack format addend) := by
  refine ⟨addUnpacked_adds rounding (unpack_operand format lhs) (unpack_operand format rhs), ?_,
    floatingMultiply_multiplies rounding format lhs rhs,
    floatingFusedMultiplyAdd_fuses format rounding lhs rhs addend negateProduct negateAddend,
    formedExactly (unpack_operand format lhs) (unpack_operand format rhs)
      (unpack_operand format addend)⟩
  have hsum := addUnpacked_adds rounding (unpack_operand format lhs)
    (unpack_operand format (rhs ^^^ (formatOf format).signMask))
  rwa [decode_xor_signMask, signaling_xor_signMask] at hsum

/-! ## Quotients -/

/-- One more digit, for what has been cut off. -/
theorem toNat_appendSticky {v : WideUnsigned} (hroom : v.toNat * 2 < 2 ^ WideUnsigned.width)
    (rest : Bool) : (if rest then (v.shiftLeft 1).setBit 0 else v.shiftLeft 1).toNat =
      2 * v.toNat + rest.toNat := by
  have hshift : (v.shiftLeft 1).toNat = v.toNat * 2 ^ (0 + 1) := WideUnsigned.toNat_shiftLeft hroom
  cases rest with
  | false =>
    rw [if_neg (by decide), hshift]
    show _ = _ + 0
    omega
  | true =>
    rw [if_pos rfl, WideUnsigned.toNat_setBit_of_mul (by decide) hshift]
    show _ = _ + 1
    omega

/-- The digits of a quotient of naturals. -/
theorem div_bounds (a : ℕ) {b : ℕ} (hb : 0 < b) :
    ((a / b : ℕ) : ℚ) ≤ a / b ∧ (a / b : ℚ) < ((a / b + 1 : ℕ) : ℚ) ∧
      (a % b ≠ 0 ↔ (a / b : ℚ) ≠ ((a / b : ℕ) : ℚ)) := by
  have hpos : (0 : ℚ) < b := by exact_mod_cast hb
  refine ⟨Nat.cast_div_le, ?_, ?_⟩
  · rw [div_lt_iff₀ hpos]
    exact_mod_cast Nat.lt_mul_of_div_lt (Nat.lt_succ_self (a / b)) hb
  · rw [ne_eq, ne_eq, not_iff_not, div_eq_iff hpos.ne']
    have hmod := Nat.div_add_mod' a b
    constructor
    · intro hzero
      exact_mod_cast (show a = a / b * b by omega)
    · intro heq
      have : a = a / b * b := by exact_mod_cast heq
      omega

section Quotients

variable {format : FloatingFormat} (rounding : FloatingRoundingMode)

theorem quotient_room (format : FloatingFormat) :
    precision format + (fractionBits format + 128) + 1 <
    WideUnsigned.width ∧ precision format < 63 ∧
      precision format + 1 + precision format ≤ fractionBits format + 128 := by
  cases format <;> decide

/-- The quotient of two numbers, with enough digits for every rounding. -/
theorem delivers_quotient (sign : Bool) {sl sr : BitVec 64} (hl : 0 < sl.toNat) (hr : 0 < sr.toNat)
    (hllt : sl.toNat < 2 ^ precision format) (hrlt : sr.toNat < 2 ^ precision format) (el er : ℤ) :
    Delivers format rounding.mode
      (roundAndPack (formatOf format) sign
        (if (divideSignificands sl sr (fractionBits format + 128)).2 then
          ((divideSignificands sl sr (fractionBits format + 128)).1.shiftLeft 1).setBit 0
        else (divideSignificands sl sr (fractionBits format + 128)).1.shiftLeft 1)
        (el - er - (fractionBits format + 128 : ℕ) - 1) rounding)
      (.finite sign (sl.toNat * 2 ^ el / (sr.toNat * 2 ^ er))) := by
  obtain ⟨hwidth, hword, hdigits⟩ := quotient_room format
  generalize fractionBits format + 128 = p at hwidth hdigits ⊢
  have hdividend : sl.toNat * 2 ^ p < 2 ^ (precision format + p) := by
    rw [Nat.pow_add]
    exact Nat.mul_lt_mul_of_pos_right hllt (Nat.two_pow_pos p)
  have hdouble : 2 ^ (precision format + p) * 2 ≤ 2 ^ WideUnsigned.width := by
    rw [← Nat.pow_succ]
    exact Nat.pow_le_pow_right (by decide) hwidth.le
  have hdenominator : sr.toNat < 2 ^ 63 :=
    hrlt.trans (Nat.pow_lt_pow_right (by decide) hword)
  obtain ⟨hquotient, hrest⟩ := divideSignificands_spec hr hdenominator
    (lt_of_lt_of_le hdividend (by omega))
  have hdiv : sl.toNat * 2 ^ p / sr.toNat ≤ sl.toNat * 2 ^ p := Nat.div_le_self _ _
  have hm := toNat_appendSticky (v := (divideSignificands sl sr p).1)
    (by rw [hquotient]; omega) (divideSignificands sl sr p).2
  rw [hquotient] at hm
  -- the quotient has many more digits than the format
  have hlarge : 2 ^ (precision format + 1) ≤ sl.toNat * 2 ^ p / sr.toNat := by
    rw [Nat.le_div_iff_mul_le hr]
    calc 2 ^ (precision format + 1) * sr.toNat ≤
      2 ^ (precision format + 1) * 2 ^ precision format :=
          Nat.mul_le_mul_left _ hrlt.le
      _ = 2 ^ (precision format + 1 + precision format) := (Nat.pow_add ..).symm
      _ ≤ 2 ^ p := Nat.pow_le_pow_right (by decide) hdigits
      _ ≤ sl.toNat * 2 ^ p := Nat.le_mul_of_pos_left _ hl
  clear hdividend hdouble
  obtain ⟨hle, hlt, hexact⟩ := div_bounds (sl.toNat * 2 ^ p) hr
  have htwo : (0 : ℚ) < 2 ^ (el - er - p - 1 + 1) := zpow_pos (by norm_num) _
  have hx : (sl.toNat * 2 ^ el / (sr.toNat * 2 ^ er) : ℚ) =
      ((sl.toNat * 2 ^ p : ℕ) : ℚ) / sr.toNat * 2 ^ (el - er - p - 1 + 1) := by
    have hr' : (sr.toNat : ℚ) ≠ 0 := by exact_mod_cast hr.ne'
    rw [show el - er - p - 1 + 1 = el - er - p by ring, zpow_sub₀ (by norm_num),
      zpow_sub₀ (by norm_num), zpow_natCast]
    push_cast
    field_simp
  have hsticky : Sticky (sl.toNat * 2 ^ el / (sr.toNat * 2 ^ er) : ℚ)
      (2 * (sl.toNat * 2 ^ p / sr.toNat) + (divideSignificands sl sr p).2.toNat)
      (el - er - p - 1) := by
    rw [hx]
    refine Sticky.of_truncated (mul_le_mul_of_nonneg_right hle htwo.le)
      (mul_lt_mul_of_pos_right hlt htwo) ?_
    rw [hrest, hexact, ne_eq, ne_eq, not_iff_not, mul_left_inj' htwo.ne']
  rw [← hm] at hsticky
  have hnonneg : (0 : ℚ) ≤ sl.toNat * 2 ^ el / (sr.toNat * 2 ^ er) := by positivity
  obtain ⟨rounded, unbounded, hround⟩ := roundAndPack_rounded format sign rounding (by omega)
    hnonneg hsticky (Or.inr (Nat.lt_size.2 (by omega)))
  exact ⟨rounded, unbounded, hround.delivered⟩

/-- **Quotients are correctly rounded.** -/
theorem floatingDivide_correctly_rounded (format : FloatingFormat) (rounding : FloatingRoundingMode)
    (lhs rhs : BitVec 64) :
    Divides format rounding.mode (Ieee.decode format lhs) (Ieee.decode format rhs)
      (signaling format lhs || signaling format rhs) (floatingDivide format lhs rhs rounding) := by
  have hl := unpack_operand format lhs
  have hr := unpack_operand format rhs
  rw [floatingDivide, Divides.eq_def]
  dsimp only
  generalize unpack format lhs = l at hl ⊢
  generalize unpack format rhs = r at hr ⊢
  have hcode : (isNan l.category || isNan r.category) = true ↔
      Ieee.decode format lhs = .nan ∨ Ieee.decode format rhs = .nan := by
    rw [Bool.or_eq_true, hl.isNan_iff, hr.isNan_iff]
  by_cases hnan : Ieee.decode format lhs = .nan ∨ Ieee.decode format rhs = .nan
  · rw [if_pos hnan, if_pos (hcode.2 hnan), hl.signaling_eq, hr.signaling_eq]
    exact propagates_nanResult format _
  rw [if_neg hnan, if_neg (hcode.not.2 hnan), fractionBits_formatOf]
  rw [not_or] at hnan
  cases hl with
  | nan _ _ hdecode => exact absurd hdecode hnan.1
  | infinite a hl =>
    cases hr with
    | nan _ _ hdecode => exact absurd hdecode hnan.2
    | infinite b hr =>
      rw [hl, hr]
      simpa using invalid_invalidResult format
    | zero b hr =>
      rw [hl, hr]
      simpa [Datum.dividedBy] using delivers_infinity format rounding (a != b)
    | finite b sr er hr hrpos =>
      rw [hl, hr]
      simpa [Datum.dividedBy] using delivers_infinity format rounding (a != b)
  | zero a hl =>
    cases hr with
    | nan _ _ hdecode => exact absurd hdecode hnan.2
    | infinite b hr =>
      rw [hl, hr]
      simpa [Datum.dividedBy] using delivers_signedZero format rounding (a != b)
    | zero b hr =>
      rw [hl, hr]
      simpa using invalid_invalidResult format
    | finite b sr er hr hrpos =>
      have hne : (sr.toNat : ℚ) * 2 ^ er ≠ 0 := by positivity
      rw [hl, hr]
      simpa [Datum.dividedBy, hne] using delivers_signedZero format rounding (a != b)
  | finite a sl el hl hlpos hllt =>
    have hne : (sl.toNat : ℚ) * 2 ^ el ≠ 0 := by positivity
    cases hr with
    | nan _ _ hdecode => exact absurd hdecode hnan.2
    | infinite b hr =>
      rw [hl, hr]
      simpa [Datum.dividedBy] using delivers_signedZero format rounding (a != b)
    | zero b hr =>
      rw [hl, hr]
      simpa [hne] using decode_infinity format (a != b)
    | finite b sr er hr hrpos hrlt =>
      have hne' : (sr.toNat : ℚ) * 2 ^ er ≠ 0 := by positivity
      rw [hl, hr]
      simpa [Datum.dividedBy, hne'] using
        delivers_quotient rounding (a != b) hlpos hrpos hllt hrlt el er

end Quotients

end Rvemu
