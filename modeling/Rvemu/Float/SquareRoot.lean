import Rvemu.Float.Arithmetic
import Mathlib.Analysis.Real.Sqrt

/-!
# Square roots

The root of a number is irrational most of the time, so what is rounded is a real number.  The core
finds the integer root of the significand, shifted by enough pairs of digits, and a digit that says
whether there is more to come.
-/

set_option autoImplicit false

namespace Rvemu

open Rounding SoftFloat

namespace Ieee

/-- The square root.  It neither overflows nor underflows, and is inexact if the format does not
have it. -/
def Roots (format : FloatingFormat) (mode : Mode) (signaling : Bool) (result : FloatingResult) :
    Datum → Prop
  | .nan => Propagates format signaling result
  | .infinite negative =>
    if negative then Invalid format result
    else decode format result.bits = .infinite false ∧ result.flags = 0#8
  | .finite negative magnitude =>
    if magnitude = 0 then decode format result.bits = .finite negative 0 ∧ result.flags = 0#8
    else if negative then Invalid format result
    else
      (∃ rounded unbounded,
        Rounded format mode false (Real.sqrt magnitude) rounded unbounded result) ∧
      (result.flags.getLsbD 0 = true ↔
        ¬∃ bits v, decode format bits = .finite false v ∧ (v : ℝ) = Real.sqrt magnitude) ∧
      result.flags.getLsbD 1 = false ∧ result.flags.getLsbD 2 = false

section Grid

variable {K : Type*} [Field K] [LinearOrder K] [IsStrictOrderedRing K] {format : FloatingFormat}

/-- A number of the format is its own rounding. -/
theorem Rounded.eq_of_mem {mode : Mode} {x : K} {rounded unbounded : ℚ} {result : FloatingResult}
    (h : Rounded format mode false x rounded unbounded result)
    (hmem : x ∈ Grid (precision format) (leastExponent format)) : (rounded : K) = x :=
  h.rounds.eq_of_mem hmem

theorem minimumNormal_mem : (minimumNormal format : K) ∈ Grid (precision format) ⊥ := by
  have hone : 1 < 2 ^ precision format := Nat.one_lt_two_pow (Nat.succ_ne_zero _)
  have hmem := Grid.mem (K := K) (k := minimumExponent format) hone bot_le
  rw [minimumNormal]
  push_cast
  rwa [Nat.cast_one, one_mul] at hmem

end Grid

end Ieee

open Ieee

/-! ## The root of a number -/

theorem sqrt_bounds (n : ℕ) : (n.sqrt : ℝ) ≤ Real.sqrt n ∧ Real.sqrt n < ((n.sqrt + 1 : ℕ) : ℝ) ∧
    (n.sqrt ^ 2 ≠ n ↔ Real.sqrt n ≠ (n.sqrt : ℝ)) := by
  refine ⟨Real.nat_sqrt_le_real_sqrt, ?_, ?_⟩
  · push_cast
    exact Real.real_sqrt_lt_nat_sqrt_succ
  · rw [ne_eq, ne_eq, not_iff_not]
    generalize n.sqrt = r
    constructor
    · rintro rfl
      push_cast
      exact Real.sqrt_sq (Nat.cast_nonneg r)
    · intro h
      have hsquare := Real.sq_sqrt (Nat.cast_nonneg (α := ℝ) n)
      rw [h] at hsquare
      exact_mod_cast hsquare

/-- The root of a number with an even exponent, in terms of the integer that is rooted. -/
theorem sqrt_mul_zpow (s shiftPairs : ℕ) (h : ℤ) :
    Real.sqrt ((s : ℝ) * 2 ^ (2 * h)) =
      Real.sqrt ((s * 2 ^ (shiftPairs * 2) : ℕ) : ℝ) * 2 ^ (h - shiftPairs) := by
  have hpow : ((2 : ℝ) ^ h) ^ 2 = 2 ^ (2 * h) := by
    rw [← zpow_natCast, ← zpow_mul, mul_comm]
    rfl
  have hpairs : ((2 : ℝ) ^ shiftPairs) ^ 2 = 2 ^ (shiftPairs * 2) := (pow_mul ..).symm
  rw [← hpow, Real.sqrt_mul (Nat.cast_nonneg s), Real.sqrt_sq (by positivity)]
  push_cast
  rw [← hpairs, Real.sqrt_mul (Nat.cast_nonneg s), Real.sqrt_sq (by positivity),
    zpow_sub₀ (by norm_num), zpow_natCast]
  field_simp

section Root

variable {format : FloatingFormat} (rounding : FloatingRoundingMode)

theorem root_room (format : FloatingFormat) : precision format + 1 + 2 * (fractionBits format + 5) <
    WideUnsigned.width - 1 ∧ (precision format + 2) / 2 < fractionBits format + 5 := by
  cases format <;> decide

/-- The root of a significand with an even exponent. -/
theorem rounded_root {significand : BitVec 64} (hpos : 0 < significand.toNat)
    (hlt : significand.toNat < 2 ^ (precision format + 1)) (h : ℤ) {shiftPairs : ℕ}
    (hpairs : shiftPairs + (significand.toNat.size + 1) / 2 = fractionBits format + 5) :
    ∃ rounded unbounded, Rounded format rounding.mode false
      (Real.sqrt ((significand.toNat : ℝ) * 2 ^ (2 * h))) rounded unbounded
      (roundAndPack (formatOf format) false
        (if (squareRootSignificand significand shiftPairs).2 then
          ((squareRootSignificand significand shiftPairs).1.shiftLeft 1).setBit 0
        else (squareRootSignificand significand shiftPairs).1.shiftLeft 1)
        (h - shiftPairs - 1) rounding) := by
  obtain ⟨hwidth, -⟩ := root_room format
  have hlow := two_pow_size_sub_one hpos.ne'
  have hsize := Nat.size_pos.2 hpos
  have hradicand : significand.toNat * 2 ^ (shiftPairs * 2) < 2 ^ (WideUnsigned.width - 1) := by
    calc significand.toNat * 2 ^ (shiftPairs * 2) <
          2 ^ (precision format + 1) * 2 ^ (shiftPairs * 2) :=
          Nat.mul_lt_mul_of_pos_right hlt (Nat.two_pow_pos _)
      _ = 2 ^ (precision format + 1 + shiftPairs * 2) := (Nat.pow_add ..).symm
      _ ≤ 2 ^ (WideUnsigned.width - 1) := Nat.pow_le_pow_right (by decide) (by omega)
  -- the root has more digits than the format
  have hlarge : 2 ^ (fractionBits format + 4) ≤
      (significand.toNat * 2 ^ (shiftPairs * 2)).sqrt := by
    rw [Nat.le_sqrt', ← Nat.pow_mul]
    calc 2 ^ ((fractionBits format + 4) * 2) ≤
          2 ^ (significand.toNat.size - 1 + shiftPairs * 2) :=
          Nat.pow_le_pow_right (by decide) (by omega)
      _ = 2 ^ (significand.toNat.size - 1) * 2 ^ (shiftPairs * 2) := Nat.pow_add ..
      _ ≤ significand.toNat * 2 ^ (shiftPairs * 2) := Nat.mul_le_mul_right _ hlow
  obtain ⟨hroot, hrest⟩ := squareRootSignificand_spec
    (hradicand.trans_le (Nat.pow_le_pow_right (by decide) (by decide)))
  rw [hroot] at hrest
  have hself := Nat.sqrt_le_self (significand.toNat * 2 ^ (shiftPairs * 2))
  have hpred : ∀ w : ℕ, 0 < w → 2 ^ (w - 1) * 2 = 2 ^ w := fun _ hw ↦ Nat.two_pow_pred_mul_two hw
  have hdouble := hpred WideUnsigned.width (by decide)
  have hm := toNat_appendSticky (v := (squareRootSignificand significand shiftPairs).1)
    (by rw [hroot]; omega) (squareRootSignificand significand shiftPairs).2
  rw [hroot] at hm
  clear hradicand hdouble
  obtain ⟨hle, hgt, hexact⟩ := sqrt_bounds (significand.toNat * 2 ^ (shiftPairs * 2))
  have htwo : (0 : ℝ) < 2 ^ (h - shiftPairs - 1 + 1) := zpow_pos (by norm_num) _
  have hx := sqrt_mul_zpow significand.toNat shiftPairs h
  rw [← sub_add_cancel (h - shiftPairs) 1] at hx
  have hsticky : Sticky (Real.sqrt ((significand.toNat : ℝ) * 2 ^ (2 * h)))
      (2 * (significand.toNat * 2 ^ (shiftPairs * 2)).sqrt +
        (squareRootSignificand significand shiftPairs).2.toNat) (h - shiftPairs - 1) := by
    rw [hx]
    refine Sticky.of_truncated (mul_le_mul_of_nonneg_right hle htwo.le)
      (mul_lt_mul_of_pos_right hgt htwo) ?_
    rw [hrest, hexact, ne_eq, ne_eq, not_iff_not, mul_left_inj' htwo.ne']
  rw [← hm] at hsticky
  have hprecision : 2 ^ (precision format + 1) ≤ 2 ^ (fractionBits format + 4) :=
    Nat.pow_le_pow_right (by decide) (by rw [precision]; omega)
  have hone := Nat.two_pow_pos (fractionBits format + 4)
  exact roundAndPack_rounded format false rounding (by omega) (Real.sqrt_nonneg _) hsticky
    (Or.inr (Nat.lt_size.2 (by omega)))

/-- The significand is doubled if the exponent is odd. -/
theorem exists_even_exponent {significand : BitVec 64} (hpos : 0 < significand.toNat)
    (hlt : significand.toNat < 2 ^ precision format) (exponent : ℤ) :
    ∃ (even : BitVec 64) (h : ℤ),
      (if decide (exponent % 2 ≠ 0) then significand <<< 1 else significand) = even ∧
      (if decide (exponent % 2 ≠ 0) then exponent - 1 else exponent) = 2 * h ∧
      0 < even.toNat ∧ even.toNat < 2 ^ (precision format + 1) ∧
      (even.toNat : ℝ) * 2 ^ (2 * h) = significand.toNat * 2 ^ exponent := by
  rw [Nat.pow_succ]
  rcases Int.emod_two_eq_zero_or_one exponent with hzero | hone
  · obtain ⟨h, rfl⟩ : ∃ h, exponent = 2 * h := ⟨exponent / 2, by omega⟩
    refine ⟨significand, h, ?_, ?_, hpos, by omega, rfl⟩
    · rw [if_neg (by simp)]
    · rw [if_neg (by simp)]
  · obtain ⟨h, rfl⟩ : ∃ h, exponent = 1 + 2 * h := ⟨exponent / 2, by omega⟩
    have hword : 2 ^ precision format * 2 < 2 ^ 64 := by
      cases format <;> decide
    have hdouble : (significand <<< 1).toNat = significand.toNat * 2 := by
      rw [BitVec.toNat_shiftLeft, Nat.shiftLeft_eq, Nat.mod_eq_of_lt (by omega)]
    refine ⟨significand <<< 1, h, ?_, ?_, by omega, by omega, ?_⟩
    · rw [if_pos (by simp)]
    · rw [if_pos (by simp)]
      omega
    · rw [hdouble, zpow_add₀ (by norm_num), zpow_one]
      push_cast
      ring

/-- The number of pairs of digits the core appends. -/
def shiftPairs (format : FloatingFormat) (significand : BitVec 64) : ℕ :=
  if fractionBits format + 5 > ((WideUnsigned.ofUInt64 significand).bitLength + 1) / 2 then
    fractionBits format + 5 - ((WideUnsigned.ofUInt64 significand).bitLength + 1) / 2
  else 0

theorem shiftPairs_add {significand : BitVec 64}
    (hlt : significand.toNat < 2 ^ (precision format + 1)) :
    shiftPairs format significand + (significand.toNat.size + 1) / 2 = fractionBits format + 5 := by
  obtain ⟨-, hdigits⟩ := root_room format
  have hsize : significand.toNat.size ≤ precision format + 1 := Nat.size_le.2 hlt
  rw [shiftPairs, WideUnsigned.bitLength_eq, WideUnsigned.toNat_ofUInt64, if_pos (by omega)]
  omega

/-- The root of a number of the format is well inside its range. -/
theorem Ieee.Rounded.root_in_range {mode : Mode} {v rounded unbounded : ℚ} {result : FloatingResult}
    (h : Rounded format mode false (Real.sqrt v) rounded unbounded result)
    (hmin : 2 ^ leastExponent format ≤ v) (hmax : v ≤ maximumFinite format) :
    rounded ≤ maximumFinite format ∧ minimumNormal format ≤ unbounded := by
  have hv : (0 : ℝ) ≤ v := by
    have : (0 : ℚ) ≤ v := (zpow_pos (by norm_num) _).le.trans hmin
    exact_mod_cast this
  have hone : (1 : ℚ) ≤ maximumFinite format := by
    have hexponent : 0 ≤ maximumExponent format - fractionBits format := by
      cases format <;> decide
    have hdigits : 1 ≤ 2 ^ precision format - 1 := by
      cases format <;> decide
    rw [maximumFinite]
    exact one_le_mul_of_one_le_of_one_le (by exact_mod_cast hdigits)
      (one_le_zpow₀ (by norm_num) hexponent)
  have hhigh : Real.sqrt v ≤ maximumFinite format := by
    have hsquare : v ≤ maximumFinite format ^ 2 :=
      hmax.trans (le_self_pow₀ hone (by decide))
    rw [Real.sqrt_le_left (by exact_mod_cast zero_le_one.trans hone)]
    exact_mod_cast hsquare
  have hlow : (minimumNormal format : ℝ) ≤ Real.sqrt v := by
    have hsquare : minimumNormal format ^ 2 ≤ v := by
      have hexponent : 2 * minimumExponent format ≤ leastExponent format := by
        cases format <;> decide
      refine le_trans ?_ hmin
      rw [minimumNormal, ← zpow_natCast, ← zpow_mul, mul_comm]
      exact zpow_le_zpow_right₀ (by norm_num) hexponent
    refine Real.le_sqrt_of_sq_le ?_
    exact_mod_cast hsquare
  have hnonneg : (0 : ℝ) ≤ minimumNormal format := by
    have : (0 : ℚ) ≤ minimumNormal format := (zpow_pos (by norm_num) _).le
    exact_mod_cast this
  refine ⟨?_, ?_⟩
  · exact Rat.cast_le.1 (h.rounds.le_of_le (Real.sqrt_nonneg _) (maximumFinite_mem format) hhigh)
  · exact Rat.cast_le.1 (h.roundsUnbounded.ge_of_ge minimumNormal_mem hnonneg hlow)

theorem roots_finite {v rounded unbounded : ℚ} {result : FloatingResult} {signaling : Bool}
    (h : Rounded format rounding.mode false (Real.sqrt v) rounded unbounded result)
    (hmin : 2 ^ leastExponent format ≤ v) (hmax : v ≤ maximumFinite format) :
    Roots format rounding.mode signaling result (.finite false v) := by
  obtain ⟨hover, hunder⟩ := h.root_in_range hmin hmax
  have hv : v ≠ 0 := ((zpow_pos (by norm_num) _).trans_le hmin).ne'
  have hvalue := h.value
  rw [if_neg hover.not_gt] at hvalue
  rw [Roots, if_neg hv, if_neg (by decide)]
  refine ⟨⟨rounded, unbounded, h⟩, ?_, ?_, ?_⟩
  · rw [h.inexact]
    constructor
    · rintro hall ⟨bits, w, hdecode, hw⟩
      have hmem := mem_grid_of_decode (K := ℝ) hdecode
      rw [hw] at hmem
      exact hall rounded hvalue (h.eq_of_mem hmem)
    · intro hnone w hw hroot
      exact hnone ⟨_, w, hw, hroot⟩
  · rw [Bool.eq_false_iff, ne_eq, h.underflow]
    exact fun hflags ↦ hunder.not_gt hflags.2
  · rw [Bool.eq_false_iff, ne_eq, h.overflow]
    exact hover.not_gt

/-- **Square roots are correctly rounded.** -/
theorem floatingSquareRoot_correctly_rounded (format : FloatingFormat)
    (rounding : FloatingRoundingMode) (operand : BitVec 64) :
    Roots format rounding.mode (signaling format operand)
      (floatingSquareRoot format operand rounding) (Ieee.decode format operand) := by
  have hoperand := unpack_operand format operand
  rw [floatingSquareRoot]
  dsimp only
  generalize unpack format operand = u at hoperand ⊢
  by_cases hnan : Ieee.decode format operand = .nan
  · rw [if_pos (hoperand.isNan_iff.2 hnan), hnan, hoperand.signaling_eq]
    exact propagates_nanResult format _
  rw [if_neg (hoperand.isNan_iff.not.2 hnan), fractionBits_formatOf]
  cases hoperand with
  | nan _ _ hdecode => exact absurd hdecode hnan
  | infinite a hdecode =>
    rw [hdecode]
    cases a with
    | true => exact invalid_invalidResult format
    | false => exact ⟨decode_infinity format false, rfl⟩
  | zero a hdecode =>
    rw [hdecode]
    simpa [Roots] using decode_signedZero format a
  | finite a significand exponent hdecode hpos hlt hleast hmost =>
    rw [hdecode]
    cases a with
    | true =>
      have hne : (significand.toNat : ℚ) * 2 ^ exponent ≠ 0 := by positivity
      simpa [Roots, hpos.ne', zpow_ne_zero] using invalid_invalidResult format
    | false =>
      have hmin : (2 : ℚ) ^ leastExponent format ≤ significand.toNat * 2 ^ exponent := by
        have hone : (1 : ℚ) ≤ significand.toNat := by exact_mod_cast hpos
        calc (2 : ℚ) ^ leastExponent format ≤ 2 ^ exponent :=
              zpow_le_zpow_right₀ (by norm_num) hleast
          _ ≤ significand.toNat * 2 ^ exponent :=
              le_mul_of_one_le_left (zpow_pos (by norm_num) _).le hone
      have hmax : (significand.toNat : ℚ) * 2 ^ exponent ≤ maximumFinite format :=
        mul_le_mul (by exact_mod_cast Nat.le_sub_one_of_lt hlt)
          (zpow_le_zpow_right₀ (by norm_num) hmost) (zpow_pos (by norm_num) _).le (by positivity)
      obtain ⟨even, h, heven, hhalf, hpos', hlt', hvalue⟩ := exists_even_exponent hpos hlt exponent
      obtain ⟨rounded, unbounded, hround⟩ := rounded_root rounding hpos' hlt' h
          (shiftPairs_add hlt')
      have hcast : ((significand.toNat * 2 ^ exponent : ℚ) : ℝ) = even.toNat * 2 ^ (2 * h) := by
        rw [hvalue]
        push_cast
        rfl
      rw [← hcast] at hround
      rw [if_neg Category.noConfusion, if_neg Bool.noConfusion, if_neg Category.noConfusion,
        heven, hhalf,
        Int.mul_tdiv_cancel_left h (by decide)]
      exact roots_finite rounding hround hmin hmax

end Root

end Rvemu
