import Rvemu.Float.Operands
import Mathlib.Algebra.Order.SuccPred
import Mathlib.Order.Monotone.Odd
import Mathlib.Order.SuccPred.Archimedean

/-!
# The order of the encodings

Without its sign an encoding is the index of a number on a ladder that rises with it: the subnormal
numbers, the normal ones binade by binade, and infinity on top.  With the sign the index is an
integer, and comparing numbers is comparing indices.
-/

set_option autoImplicit false

namespace Rvemu

open Rounding SoftFloat

namespace Ieee

/-- The numbers and infinities in their order. -/
def Datum.extended : Datum → Option (WithBot (WithTop ℚ))
  | .finite negative magnitude => some (signed negative magnitude : ℚ)
  | .infinite true => some ⊥
  | .infinite false => some ⊤
  | .nan => none

section Ladder

variable (format : FloatingFormat)

/-- The nonnegative numbers of the format, if there were no largest exponent. -/
def rung (m : ℕ) : ℚ :=
  if m / 2 ^ fractionBits format = 0 then
    (m % 2 ^ fractionBits format : ℕ) * 2 ^ leastExponent format
  else
    (2 ^ fractionBits format + m % 2 ^ fractionBits format : ℕ) *
      2 ^ ((m / 2 ^ fractionBits format : ℕ) - bias format - fractionBits format : ℤ)

theorem rung_zero : rung format 0 = 0 := by
  rw [rung, Nat.zero_div, if_pos rfl, Nat.zero_mod, Nat.cast_zero, zero_mul]

/-- The quantum of a binade. -/
theorem leastExponent_add (e : ℕ) :
    leastExponent format + e = ((e + 1 : ℕ) : ℤ) - bias format - fractionBits format := by
  rw [leastExponent, minimumExponent]
  push_cast
  ring

/-- A number from its fields. -/
theorem rung_fields (e : ℕ) {f : ℕ} (hf : f < 2 ^ fractionBits format) :
    rung format (e * 2 ^ fractionBits format + f) =
      if e = 0 then (f : ℚ) * 2 ^ leastExponent format
      else (2 ^ fractionBits format + f : ℕ) * 2 ^
        ((e : ℤ) - bias format - fractionBits format) := by
  have hdiv : (e * 2 ^ fractionBits format + f) / 2 ^ fractionBits format = e := by
    rw [Nat.add_comm, Nat.add_mul_div_right _ _ (Nat.two_pow_pos _), Nat.div_eq_of_lt hf,
      Nat.zero_add]
  rw [rung, hdiv, Nat.mul_add_mod_of_lt hf]

theorem rung_lt_succ (m : ℕ) : rung format m < rung format (m + 1) := by
  have hpos := Nat.two_pow_pos (fractionBits format)
  obtain ⟨e, f, hf, rfl⟩ : ∃ e f, f < 2 ^ fractionBits format ∧
      m = e * 2 ^ fractionBits format + f :=
    ⟨_, _, Nat.mod_lt m hpos, (Nat.div_add_mod' m _).symm⟩
  have hmul : ∀ {i j : ℕ} (k : ℤ), i < j → (i : ℚ) * 2 ^ k < j * 2 ^ k := fun k hij ↦
    mul_lt_mul_of_pos_right (by exact_mod_cast hij) (zpow_pos (by norm_num) k)
  rw [rung_fields format e hf]
  rcases Nat.lt_or_ge (f + 1) (2 ^ fractionBits format) with hlt | hge
  · rw [Nat.add_assoc, rung_fields format e hlt]
    split
    · exact hmul _ (Nat.lt_succ_self f)
    · exact hmul _ (by omega)
  · -- the next binade begins
    have hnext : e * 2 ^ fractionBits format + f + 1 = (e + 1) * 2 ^ fractionBits format + 0 := by
      rw [Nat.succ_mul]
      omega
    rw [hnext, rung_fields format (e + 1) hpos, if_neg (Nat.succ_ne_zero e), Nat.add_zero,
      ← leastExponent_add]
    cases e with
    | zero =>
      rw [if_pos rfl, Nat.cast_zero, add_zero]
      exact hmul _ hf
    | succ e =>
      have hdouble : ((2 ^ fractionBits format : ℕ) : ℚ) * 2 ^
          (leastExponent format + (e + 1 : ℕ)) =
          ((2 ^ fractionBits format * 2 : ℕ) : ℚ) * 2 ^ (leastExponent format + e) := by
        rw [Nat.cast_add, ← add_assoc]
        exact cast_mul_zpow_add _ 1 _
      rw [if_neg (Nat.succ_ne_zero e), ← leastExponent_add, hdouble]
      exact hmul _ (by omega)

theorem rung_strictMono : StrictMono (rung format) :=
  strictMono_nat_of_lt_succ (rung_lt_succ format)

theorem rung_minimumNormal : rung format (2 ^ fractionBits format) = minimumNormal format := by
  have h := rung_fields format 1 (Nat.two_pow_pos _)
  rw [Nat.one_mul, Nat.add_zero, if_neg Nat.one_ne_zero] at h
  rw [h, minimumNormal, minimumExponent, Nat.cast_pow, Nat.cast_ofNat, ← zpow_natCast,
    ← zpow_add₀ two_ne_zero]
  congr 1
  push_cast
  ring

/-- The ladder continued below zero. -/
def rungs (i : ℤ) : ℚ := i.sign * rung format i.natAbs

theorem rungs_natCast (m : ℕ) : rungs format m = rung format m := by
  rw [rungs, Int.natAbs_natCast]
  cases m with
  | zero => rw [rung_zero, mul_zero]
  | succ m => rw [Int.sign_natCast_of_ne_zero (Nat.succ_ne_zero m), Int.cast_one, one_mul]

theorem rungs_neg (i : ℤ) : rungs format (-i) = -rungs format i := by
  rw [rungs, Int.sign_neg, Int.natAbs_neg, Int.cast_neg, neg_mul, rungs]

theorem rungs_signed (negative : Bool) (m : ℕ) :
    rungs format (signed negative (m : ℤ)) = signed negative (rung format m) := by
  cases negative with
  | false => exact rungs_natCast format m
  | true => exact (rungs_neg format m).trans (congrArg Neg.neg (rungs_natCast format m))

theorem rungs_strictMono : StrictMono (rungs format) := by
  refine strictMono_of_odd_strictMonoOn_nonneg (rungs_neg format) ?_
  intro i hi j hj hlt
  obtain ⟨m, rfl⟩ := Int.eq_ofNat_of_zero_le hi
  obtain ⟨n, rfl⟩ := Int.eq_ofNat_of_zero_le hj
  rw [rungs_natCast, rungs_natCast]
  exact rung_strictMono format (by exact_mod_cast hlt)

end Ladder

/-! ## Positions on the ladder -/

section Ordinal

variable (format : FloatingFormat) (bits : BitVec 64)

def negative : Bool := bits.getLsbD (fractionBits format + exponentBits format)

/-- The encoding without its sign. -/
def ordinal : ℕ := bits.toNat % 2 ^ (fractionBits format + exponentBits format)

/-- The position of infinity; the NaNs are above. -/
def top : ℕ := (2 ^ exponentBits format - 1) * 2 ^ fractionBits format

theorem ordinal_mod : ordinal format bits % 2 ^ fractionBits format =
    (bits.extractLsb' 0 (fractionBits format)).toNat := by
  rw [ordinal, Nat.pow_add, Nat.mod_mul_right_mod, BitVec.extractLsb'_toNat, Nat.shiftRight_zero]

theorem ordinal_div : ordinal format bits / 2 ^ fractionBits format =
    (bits.extractLsb' (fractionBits format) (exponentBits format)).toNat := by
  rw [ordinal, Nat.pow_add, Nat.mod_mul_right_div_self, BitVec.extractLsb'_toNat,
    Nat.shiftRight_eq_div_pow]

/-- What an encoding stands for, by its position. -/
theorem decode_ordinal : decode format bits =
    if ordinal format bits < top format then
      .finite (negative format bits) (rung format (ordinal format bits))
    else if ordinal format bits = top format then .infinite (negative format bits) else .nan := by
  have hdiv := Nat.div_add_mod' (ordinal format bits) (2 ^ fractionBits format)
  have hlt : ordinal format bits / 2 ^ fractionBits format < 2 ^ exponentBits format := by
    rw [ordinal_div]
    exact BitVec.isLt _
  have hmod := Nat.mod_lt (ordinal format bits) (Nat.two_pow_pos (fractionBits format))
  rw [decode, ← ordinal_mod, ← ordinal_div, top, rung]
  generalize ordinal format bits / 2 ^ fractionBits format = exponent at hdiv hlt ⊢
  generalize ordinal format bits % 2 ^ fractionBits format = fraction at hdiv hmod ⊢
  split
  · next hspecial =>
    rw [← hdiv, hspecial]
    split
    · next hzero => rw [hzero, Nat.add_zero, if_neg (lt_irrefl _), if_pos rfl, negative]
    · next hzero => rw [if_neg (by omega), if_neg (by omega)]
  · next hspecial =>
    have hbelow : exponent * 2 ^ fractionBits format + fraction <
        (2 ^ exponentBits format - 1) * 2 ^ fractionBits format := by
      have hle : (exponent + 1) * 2 ^ fractionBits format ≤
          (2 ^ exponentBits format - 1) * 2 ^ fractionBits format :=
        Nat.mul_le_mul_right _ (by omega)
      rw [Nat.succ_mul] at hle
      omega
    rw [← hdiv, if_pos hbelow, negative]
    split <;> rfl

theorem ordinal_le_top_iff : ordinal format bits ≤ top format ↔ decode format bits ≠ .nan := by
  rw [decode_ordinal]
  rcases Nat.lt_trichotomy (ordinal format bits) (top format) with hlt | heq | hgt
  · rw [if_pos hlt]
    exact iff_of_true hlt.le Datum.noConfusion
  · rw [if_neg heq.not_lt, if_pos heq]
    exact iff_of_true heq.le Datum.noConfusion
  · rw [if_neg (by omega), if_neg (by omega)]
    exact iff_of_false (by omega) (fun h ↦ h rfl)

/-- The position with its sign. -/
def index : ℤ := signed (negative format bits) (ordinal format bits : ℤ)

theorem top_pos : 0 < top format := by
  cases format <;> decide

/-- The ladder with the infinities at its ends. -/
def height (i : ℤ) : WithBot (WithTop ℚ) :=
  if i = -top format then ⊥ else if i = top format then ⊤ else (rungs format i : ℚ)

theorem height_strictMonoOn :
    StrictMonoOn (height format) (Set.Icc (-top format : ℤ) (top format)) := by
  intro i hi j hj hlt
  have hj' : j ≠ -top format := (hi.1.trans_lt hlt).ne'
  have hi' : i ≠ top format := (hlt.trans_le hj.2).ne
  rw [height, height, if_neg hj', if_neg hi']
  split
  · split
    · exact WithBot.bot_lt_coe _
    · exact WithBot.bot_lt_coe _
  · split
    · exact WithBot.coe_lt_coe.2 (WithTop.coe_lt_top _)
    · exact WithBot.coe_lt_coe.2 (WithTop.coe_lt_coe.2 (rungs_strictMono format hlt))

variable {format bits}

theorem index_mem (h : decode format bits ≠ .nan) :
    index format bits ∈ Set.Icc (-top format : ℤ) (top format) := by
  have hle := (ordinal_le_top_iff format bits).2 h
  rw [index, signed, Set.mem_Icc]
  split <;> omega

theorem extended_eq_height (h : decode format bits ≠ .nan) :
    (decode format bits).extended = some (height format (index format bits)) := by
  have hle := (ordinal_le_top_iff format bits).2 h
  have hpos := top_pos format
  rw [decode_ordinal, height, index]
  split
  · next hlt =>
    have hbottom : signed (negative format bits) (ordinal format bits : ℤ) ≠ -top format := by
      rw [signed]
      split <;> omega
    have htop : signed (negative format bits) (ordinal format bits : ℤ) ≠ top format := by
      rw [signed]
      split <;> omega
    rw [if_neg hbottom, if_neg htop, rungs_signed]
    rfl
  · next hge =>
    rw [if_pos (by omega), show ordinal format bits = top format by omega]
    cases negative format bits with
    | false =>
      have hbottom : signed false (top format : ℤ) ≠ -top format := by
        rw [signed, if_neg Bool.false_ne_true]
        omega
      have htop : signed false (top format : ℤ) = top format := rfl
      rw [if_neg hbottom, if_pos htop]
      rfl
    | true =>
      have hbottom : signed true (top format : ℤ) = -top format := rfl
      rw [if_pos hbottom]
      rfl

theorem extended_eq_none : (decode format bits).extended = none ↔ decode format bits = .nan := by
  cases decode format bits with
  | nan => exact iff_of_true rfl rfl
  | finite => exact iff_of_false (Option.some_ne_none _) Datum.noConfusion
  | infinite negative =>
    cases negative <;> exact iff_of_false (Option.some_ne_none _) Datum.noConfusion

/-- The order of two numbers is that of their indices. -/
theorem height_lt_iff {bits' : BitVec 64} (h : decode format bits ≠ .nan)
    (h' : decode format bits' ≠ .nan) :
    height format (index format bits) < height format (index format bits') ↔
      index format bits < index format bits' :=
  (height_strictMonoOn format).lt_iff_lt (index_mem h) (index_mem h')

theorem height_eq_iff {bits' : BitVec 64} (h : decode format bits ≠ .nan)
    (h' : decode format bits' ≠ .nan) :
    height format (index format bits) = height format (index format bits') ↔
      index format bits = index format bits' :=
  (height_strictMonoOn format).injOn.eq_iff (index_mem h) (index_mem h')

/-! ## Encodings of the width of the format -/

/-- An encoding is its sign and its position. -/
theorem encoding_ext {x y : BitVec (width format)}
    (hsign : negative format (x.setWidth 64) = negative format (y.setWidth 64))
    (hordinal : ordinal format (x.setWidth 64) = ordinal format (y.setWidth 64)) : x = y := by
  have hx := x.isLt
  have hy := y.isLt
  have hwidth := width_le format
  have hle : 2 ^ width format ≤ 2 ^ 64 := Nat.pow_le_pow_right (by decide) hwidth
  rw [negative, negative, BitVec.getLsbD, BitVec.getLsbD, BitVec.toNat_setWidth,
    BitVec.toNat_setWidth, Nat.mod_eq_of_lt (hx.trans_le hle), Nat.mod_eq_of_lt (hy.trans_le hle),
    Nat.testBit_eq_decide_div_mod_eq, Nat.testBit_eq_decide_div_mod_eq] at hsign
  rw [ordinal, ordinal, BitVec.toNat_setWidth, BitVec.toNat_setWidth,
    Nat.mod_eq_of_lt (hx.trans_le hle), Nat.mod_eq_of_lt (hy.trans_le hle)] at hordinal
  refine BitVec.eq_of_toNat_eq ?_
  have hdiv : x.toNat / 2 ^ (fractionBits format + exponentBits format) =
      y.toNat / 2 ^ (fractionBits format + exponentBits format) := by
    have hbound : ∀ z : BitVec (width format),
        z.toNat / 2 ^ (fractionBits format + exponentBits format) < 2 := fun z ↦
      Nat.div_lt_of_lt_mul (by rw [← Nat.pow_succ]; exact z.isLt)
    have hx' := hbound x
    have hy' := hbound y
    rw [decide_eq_decide] at hsign
    generalize x.toNat / 2 ^ (fractionBits format + exponentBits format) = a at hsign hx' ⊢
    generalize y.toNat / 2 ^ (fractionBits format + exponentBits format) = b at hsign hy' ⊢
    clear hx hy hle hordinal
    omega
  rw [← Nat.div_add_mod x.toNat, ← Nat.div_add_mod y.toNat, hdiv, hordinal]

end Ordinal

end Ieee

end Rvemu
