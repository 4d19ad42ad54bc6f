import Rvemu.Float.Order
import Mathlib.Data.Prod.Lex

/-!
# Comparison, minimum and maximum, classification

The core compares encodings as sign and magnitude; on encodings of the width of the format that is
the comparison of their indices, hence of the numbers they stand for.
-/

set_option autoImplicit false

namespace Rvemu

open Rounding SoftFloat

namespace Ieee

def Datum.negative : Datum → Bool
  | .finite negative _ => negative
  | .infinite negative => negative
  | .nan => false

/-- The order in which the negative zero is below the positive one. -/
def Datum.rank (d : Datum) : Option (WithBot (WithTop ℚ) ×ₗ Bool) :=
  d.extended.map fun value ↦ toLex (value, !d.negative)

/-! ## What the operations are for -/

section Specification

variable (format : FloatingFormat)

/-- The relation a comparison decides. -/
def Holds (comparison : FloatingComparison) (a b : WithBot (WithTop ℚ)) : Prop :=
  match comparison with
  | .equal => a = b
  | .lessThan => a < b
  | .lessThanOrEqual => a ≤ b

/-- A NaN is unordered with everything; the order relations signal it, equality only a signaling
one. -/
def Compares (comparison : FloatingComparison) (x y : BitVec 64)
    (result : FloatingComparisonResult) : Prop :=
  match (decode format x).extended, (decode format y).extended with
  | some a, some b => (result.value = true ↔ Holds comparison a b) ∧ result.flags = 0#8
  | _, _ =>
    result.value = false ∧
      result.flags =
        if comparison ≠ .equal ∨ signaling format x = true ∨ signaling format y = true then
          FloatingExceptionFlag.invalidOperation
        else 0#8

/-- The lesser or the greater operand, or the one that is a number. -/
def Selects (maximum : Bool) (x y : BitVec 64) (result : FloatingResult) : Prop :=
  (match (decode format x).rank, (decode format y).rank with
    | some a, some b =>
      (result.bits = x ∨ result.bits = y) ∧
        (decode format result.bits).rank = some (if maximum then max a b else min a b)
    | some _, none => result.bits = x
    | none, some _ => result.bits = y
    | none, none => result.bits = canonicalNan format) ∧
  result.flags =
    if signaling format x = true ∨ signaling format y = true then
      FloatingExceptionFlag.invalidOperation
    else 0#8

/-- The bit of the class of an operand. -/
def classBit (bits : BitVec 64) : ℕ :=
  match decode format bits with
  | .infinite negative => if negative then 0 else 7
  | .finite negative magnitude =>
    if magnitude = 0 then (if negative then 3 else 4)
    else if magnitude < minimumNormal format then (if negative then 2 else 5)
    else (if negative then 1 else 6)
  | .nan => if signaling format bits then 8 else 9

end Specification

variable {format : FloatingFormat} (x y : BitVec (width format))

/-! ## Sign and magnitude -/

theorem toNat_and_not_signMask :
    (x.setWidth 64 &&& ~~~(formatOf format).signMask).toNat = ordinal format (x.setWidth 64) := by
  have hwidth := width_le format
  have hmask : x.setWidth 64 &&& ~~~(formatOf format).signMask =
      (x.setWidth (fractionBits format + exponentBits format)).setWidth 64 := by
    rw [signMask_formatOf]
    refine BitVec.eq_of_getLsbD_eq fun i hi ↦ ?_
    rw [BitVec.getLsbD_and, BitVec.getLsbD_not, BitVec.getLsbD_twoPow, BitVec.getLsbD_setWidth,
      BitVec.getLsbD_setWidth, BitVec.getLsbD_setWidth]
    rcases Nat.lt_trichotomy i (fractionBits format + exponentBits format) with hlt | heq | hgt
    · simp [hi, hlt, hlt.ne']
    · simp [heq]
    · have hout : x.getLsbD i = false := BitVec.getLsbD_of_ge x i hgt
      simp [hout]
  have hle : 2 ^ (fractionBits format + exponentBits format) ≤ 2 ^ 64 :=
    Nat.pow_le_pow_right (by decide) hwidth.le
  have hle' : 2 ^ width format ≤ 2 ^ 64 := Nat.pow_le_pow_right (by decide) hwidth
  rw [hmask, ordinal, BitVec.toNat_setWidth, BitVec.toNat_setWidth, BitVec.toNat_setWidth,
    Nat.mod_eq_of_lt (x.isLt.trans_le hle'),
    Nat.mod_eq_of_lt ((Nat.mod_lt _ (Nat.two_pow_pos _)).trans_le hle)]

theorem numericLess_eq : numericLess (formatOf format) (x.setWidth 64) (y.setWidth 64) =
    decide (index format (x.setWidth 64) < index format (y.setWidth 64)) := by
  rw [numericLess]
  dsimp only
  rw [and_signMask_bne_zero, and_signMask_bne_zero]
  simp only [← BitVec.toNat_inj, gt_iff_lt, BitVec.lt_def, toNat_and_not_signMask,
    BitVec.toNat_zero]
  rw [index, index, ← negative, ← negative]
  generalize ordinal format (x.setWidth 64) = m
  generalize ordinal format (y.setWidth 64) = n
  cases negative format (x.setWidth 64) <;> cases negative format (y.setWidth 64) <;>
    simp only [signed] <;> grind

theorem numericEqual_eq :
    (!numericLess (formatOf format) (x.setWidth 64) (y.setWidth 64) &&
      !numericLess (formatOf format) (y.setWidth 64) (x.setWidth 64)) =
      decide (index format (x.setWidth 64) = index format (y.setWidth 64)) := by
  rw [numericLess_eq, numericLess_eq, ← decide_not, ← decide_not, ← Bool.decide_and,
    decide_eq_decide]
  omega

/-! ## Ranks -/

section Rank

variable {x y}

/-- The rank of a number, from its index. -/
def rankOf (x : BitVec (width format)) : WithBot (WithTop ℚ) ×ₗ Bool :=
  toLex (height format (index format (x.setWidth 64)), !negative format (x.setWidth 64))

theorem decode_negative {bits : BitVec 64} (h : decode format bits ≠ .nan) :
    (decode format bits).negative = negative format bits := by
  have hle := (ordinal_le_top_iff format bits).2 h
  rw [decode_ordinal]
  split
  · rfl
  · rw [if_pos (by omega)]
    rfl

theorem rank_eq (h : decode format (x.setWidth 64) ≠ .nan) :
    (decode format (x.setWidth 64)).rank = some (rankOf x) := by
  rw [Datum.rank, extended_eq_height h, decode_negative h]
  rfl

theorem rank_nan {bits : BitVec 64} (h : decode format bits = .nan) :
    (decode format bits).rank = none := by
  rw [h]
  rfl

theorem rankOf_lt_of_lt (hx : decode format (x.setWidth 64) ≠ .nan)
    (hy : decode format (y.setWidth 64) ≠ .nan)
    (h : index format (x.setWidth 64) < index format (y.setWidth 64)) : rankOf x < rankOf y :=
  Prod.Lex.toLex_lt_toLex.2 (Or.inl ((height_lt_iff hx hy).2 h))

theorem rankOf_le_of_eq (h : index format (x.setWidth 64) = index format (y.setWidth 64))
    (hsign : negative format (y.setWidth 64) = true → negative format (x.setWidth 64) = true) :
    rankOf x ≤ rankOf y := by
  refine Prod.Lex.toLex_le_toLex.2 (Or.inr ⟨congrArg (height format) h, ?_⟩)
  change (!negative format (x.setWidth 64)) ≤ !negative format (y.setWidth 64)
  generalize negative format (x.setWidth 64) = a at hsign ⊢
  generalize negative format (y.setWidth 64) = b at hsign ⊢
  revert a b
  decide

/-- The order tells encodings apart. -/
theorem rankOf_injective (hx : decode format (x.setWidth 64) ≠ .nan)
    (hy : decode format (y.setWidth 64) ≠ .nan) (h : rankOf x = rankOf y) : x = y := by
  obtain ⟨hheight, hsign⟩ := Prod.ext_iff.1 (congrArg ofLex h)
  have hsign' : negative format (x.setWidth 64) = negative format (y.setWidth 64) :=
    Bool.not_inj hsign
  have hindex := (height_eq_iff hx hy).1 hheight
  refine encoding_ext hsign' ?_
  rw [index, index, hsign', signed, signed] at hindex
  split at hindex <;> omega

end Rank

end Ieee

open Ieee

section Operations

variable {format : FloatingFormat} (x y : BitVec (width format))

/-! ## Comparison -/

theorem floatingCompare_compares (comparison : FloatingComparison) :
    Compares format comparison (x.setWidth 64) (y.setWidth 64)
      (floatingCompare format (x.setWidth 64) (y.setWidth 64) comparison) := by
  have hx := unpack_operand format (x.setWidth 64)
  have hy := unpack_operand format (y.setWidth 64)
  have hunordered : Ieee.decode format (x.setWidth 64) = .nan ∨
      Ieee.decode format (y.setWidth 64) = .nan →
      floatingCompare format (x.setWidth 64) (y.setWidth 64) comparison =
        { value := false
          flags := if comparison ≠ .equal ∨ signaling format (x.setWidth 64) = true ∨
              signaling format (y.setWidth 64) = true then
            FloatingExceptionFlag.invalidOperation
          else 0#8 } := by
    intro h
    rw [← hx.isNan_iff, ← hy.isNan_iff, ← Bool.or_eq_true] at h
    rw [floatingCompare]
    dsimp only
    rw [if_pos h, hx.signaling_eq, hy.signaling_eq]
    simp only [Bool.or_eq_true, bne_iff_ne, invalidFlag]
  rw [Compares]
  by_cases hxnan : Ieee.decode format (x.setWidth 64) = .nan
  · rw [extended_eq_none.2 hxnan, hunordered (Or.inl hxnan)]
    exact ⟨rfl, rfl⟩
  by_cases hynan : Ieee.decode format (y.setWidth 64) = .nan
  · rw [extended_eq_none.2 hynan, hunordered (Or.inr hynan)]
    split
    · next heq => exact absurd heq.symm (Option.some_ne_none _)
    · exact ⟨rfl, rfl⟩
  rw [extended_eq_height hxnan, extended_eq_height hynan]
  dsimp only
  have hordered : ¬ (isNan (unpack format (x.setWidth 64)).category ||
      isNan (unpack format (y.setWidth 64)).category) = true := by
    rw [Bool.or_eq_true, hx.isNan_iff, hy.isNan_iff]
    tauto
  rw [floatingCompare]
  dsimp only
  rw [if_neg hordered, numericEqual_eq, numericLess_eq]
  cases comparison with
  | equal =>
    refine ⟨?_, rfl⟩
    rw [decide_eq_true_iff, Holds, height_eq_iff hxnan hynan]
  | lessThan =>
    refine ⟨?_, rfl⟩
    rw [decide_eq_true_iff, Holds, height_lt_iff hxnan hynan]
  | lessThanOrEqual =>
    refine ⟨?_, rfl⟩
    rw [Bool.or_eq_true, decide_eq_true_iff, decide_eq_true_iff, Holds, le_iff_lt_or_eq,
      height_lt_iff hxnan hynan, height_eq_iff hxnan hynan]

/-! ## Minimum and maximum -/

variable {x y}

theorem encoding_zero (hordinal : ordinal format (x.setWidth 64) = 0)
    (hsign : negative format (x.setWidth 64) = false) : x = 0#(width format) := by
  refine encoding_ext ?_ ?_
  · rw [hsign, negative, BitVec.setWidth_zero, BitVec.getLsbD_zero]
  · rw [hordinal, ordinal, BitVec.setWidth_zero, BitVec.toNat_zero, Nat.zero_mod]

/-- Which operand is taken: the zeros are told apart by their signs, and otherwise equal numbers
have one encoding. -/
theorem floatingMinimumMaximum_numbers (hx : Ieee.decode format (x.setWidth 64) ≠ .nan)
    (hy : Ieee.decode format (y.setWidth 64) ≠ .nan) (maximum : Bool) :
    let result := floatingMinimumMaximum format (x.setWidth 64) (y.setWidth 64) maximum
    result.flags = 0#8 ∧
      (rankOf x ≤ rankOf y ∧ result.bits = (if maximum then y else x).setWidth 64 ∨
        rankOf y ≤ rankOf x ∧ result.bits = (if maximum then x else y).setWidth 64) := by
  have hxnan := (unpack_operand format (x.setWidth 64)).isNan_iff.not.2 hx
  have hynan := (unpack_operand format (y.setWidth 64)).isNan_iff.not.2 hy
  rw [Bool.not_eq_true] at hxnan hynan
  dsimp only
  rw [floatingMinimumMaximum]
  dsimp only
  rw [hxnan, hynan, numericEqual_eq, numericLess_eq]
  simp only [← BitVec.toNat_inj, toNat_and_not_signMask, BitVec.toNat_zero, Bool.and_false,
    Bool.false_eq_true, ite_false, decide_eq_true_eq]
  split
  · next hequal =>
    split
    · next hzero =>
      refine ⟨rfl, ?_⟩
      cases hxs : negative format (x.setWidth 64) with
      | true =>
        refine Or.inl ⟨rankOf_le_of_eq hequal fun _ ↦ hxs, ?_⟩
        cases hys : negative format (y.setWidth 64) with
        | true =>
          obtain rfl : x = y := encoding_ext (hxs.trans hys.symm) (hzero.1.trans hzero.2.symm)
          cases maximum <;> simp
        | false =>
          obtain rfl := encoding_zero hzero.2 hys
          cases maximum <;> simp
      | false =>
        refine Or.inr ⟨rankOf_le_of_eq hequal.symm fun h ↦
          absurd (h.symm.trans hxs) (by decide), ?_⟩
        obtain rfl := encoding_zero hzero.1 hxs
        cases maximum <;> simp
    · next hzero =>
      have heq : x = y := by
        rw [index, index, signed, signed] at hequal
        refine encoding_ext ?_ ?_
        · cases hxs : negative format (x.setWidth 64) <;>
            cases hys : negative format (y.setWidth 64) <;>
            simp only [hxs, hys, Bool.false_eq_true, ite_true, ite_false] at hequal ⊢ <;> omega
        · split at hequal <;> split at hequal <;> omega
      obtain rfl := heq
      exact ⟨rfl, Or.inl ⟨le_rfl, by rw [ite_self]⟩⟩
  · next hequal =>
    refine ⟨rfl, ?_⟩
    by_cases hless : index format (x.setWidth 64) < index format (y.setWidth 64)
    · refine Or.inl ⟨(rankOf_lt_of_lt hx hy hless).le, ?_⟩
      rw [if_pos hless, if_pos hless]
      cases maximum <;> rfl
    · refine Or.inr ⟨(rankOf_lt_of_lt hy hx (by omega)).le, ?_⟩
      rw [if_neg hless, if_neg hless]
      cases maximum <;> rfl

theorem floatingMinimumMaximum_nan {a b : BitVec 64}
    (h : Ieee.decode format a = .nan ∨ Ieee.decode format b = .nan) (maximum : Bool) :
    floatingMinimumMaximum format a b maximum =
      { bits := if Ieee.decode format a = .nan then
            if Ieee.decode format b = .nan then canonicalNan format else b
          else a
        flags := if signaling format a = true ∨ signaling format b = true then
            FloatingExceptionFlag.invalidOperation
          else 0#8 } := by
  have ha := unpack_operand format a
  have hb := unpack_operand format b
  rw [floatingMinimumMaximum]
  dsimp only
  simp only [ha.signaling_eq, hb.signaling_eq, Bool.and_eq_true, Bool.or_eq_true, ha.isNan_iff,
    hb.isNan_iff, invalidFlag, canonicalNan_formatOf]
  by_cases hanan : Ieee.decode format a = .nan
  · by_cases hbnan : Ieee.decode format b = .nan
    · rw [if_pos ⟨hanan, hbnan⟩, if_pos hanan, if_pos hbnan]
    · rw [if_neg (fun h ↦ hbnan h.2), if_pos hanan, if_pos hanan, if_neg hbnan]
  · rw [if_neg (fun h ↦ hanan h.1), if_neg hanan, if_pos (h.resolve_left hanan), if_neg hanan]

theorem signaling_number {bits : BitVec 64} (h : Ieee.decode format bits ≠ .nan) :
    signaling format bits = false := by
  rw [signaling, decide_eq_false h, Bool.false_and]

theorem floatingMinimumMaximum_selects (maximum : Bool) :
    Selects format maximum (x.setWidth 64) (y.setWidth 64)
      (floatingMinimumMaximum format (x.setWidth 64) (y.setWidth 64) maximum) := by
  by_cases hnan : Ieee.decode format (x.setWidth 64) = .nan ∨
    Ieee.decode format (y.setWidth 64) = .nan
  · rw [floatingMinimumMaximum_nan hnan, Selects]
    refine ⟨?_, rfl⟩
    by_cases hx : Ieee.decode format (x.setWidth 64) = .nan
    · rw [rank_nan hx, if_pos hx]
      by_cases hy : Ieee.decode format (y.setWidth 64) = .nan
      · rw [rank_nan hy, if_pos hy]
      · rw [rank_eq hy, if_neg hy]
    · rw [rank_eq hx, if_neg hx, rank_nan (hnan.resolve_left hx)]
  · obtain ⟨hx, hy⟩ := not_or.1 hnan
    obtain ⟨hflags, hbits⟩ := floatingMinimumMaximum_numbers hx hy maximum
    rw [Selects, rank_eq hx, rank_eq hy, signaling_number hx, signaling_number hy]
    refine ⟨?_, by rw [hflags, if_neg (by decide)]⟩
    dsimp only
    obtain ⟨hle, hbits⟩ | ⟨hle, hbits⟩ := hbits
    · cases maximum with
      | true =>
        exact ⟨Or.inr hbits, by rw [hbits, if_pos rfl, rank_eq hy, if_pos rfl, max_eq_right hle]⟩
      | false =>
        refine ⟨Or.inl hbits, ?_⟩
        rw [hbits, if_neg Bool.false_ne_true, rank_eq hx, if_neg Bool.false_ne_true,
          min_eq_left hle]
    · cases maximum with
      | true =>
        exact ⟨Or.inl hbits, by rw [hbits, if_pos rfl, rank_eq hx, if_pos rfl, max_eq_left hle]⟩
      | false =>
        refine ⟨Or.inr hbits, ?_⟩
        rw [hbits, if_neg Bool.false_ne_true, rank_eq hy, if_neg Bool.false_ne_true,
          min_eq_right hle]

theorem floatingMinimumMaximum_comm (hx : Ieee.decode format (x.setWidth 64) ≠ .nan)
    (hy : Ieee.decode format (y.setWidth 64) ≠ .nan) (maximum : Bool) :
    floatingMinimumMaximum format (x.setWidth 64) (y.setWidth 64) maximum =
      floatingMinimumMaximum format (y.setWidth 64) (x.setWidth 64) maximum := by
  have hsame : rankOf x = rankOf y → x = y := rankOf_injective hx hy
  obtain ⟨hflags, hbits⟩ := floatingMinimumMaximum_numbers hx hy maximum
  obtain ⟨hflags', hbits'⟩ := floatingMinimumMaximum_numbers hy hx maximum
  have hbits : (floatingMinimumMaximum format (x.setWidth 64) (y.setWidth 64) maximum).bits =
      (floatingMinimumMaximum format (y.setWidth 64) (x.setWidth 64) maximum).bits := by
    obtain ⟨hle, h⟩ | ⟨hle, h⟩ := hbits <;> obtain ⟨hle', h'⟩ | ⟨hle', h'⟩ := hbits'
    · rw [h, h', hsame (le_antisymm hle hle')]
    · rw [h, h']
    · rw [h, h']
    · rw [h, h', hsame (le_antisymm hle' hle)]
  have hext : ∀ a b : FloatingResult, a.bits = b.bits → a.flags = b.flags → a = b := by
    rintro ⟨_, _⟩ ⟨_, _⟩ rfl rfl
    rfl
  exact hext _ _ hbits (hflags.trans hflags'.symm)

/-! ## Minimum and maximum in terms of comparison -/

theorem floatingCompare_less_iff (hx : Ieee.decode format (x.setWidth 64) ≠ .nan)
    (hy : Ieee.decode format (y.setWidth 64) ≠ .nan) :
    (floatingCompare format (x.setWidth 64) (y.setWidth 64) .lessThan).value = true ↔
      index format (x.setWidth 64) < index format (y.setWidth 64) := by
  have h := floatingCompare_compares x y .lessThan
  rw [Compares, extended_eq_height hx, extended_eq_height hy] at h
  exact h.1.trans (height_lt_iff hx hy)

theorem floatingCompare_of_rankOf_le (hx : Ieee.decode format (x.setWidth 64) ≠ .nan)
    (hy : Ieee.decode format (y.setWidth 64) ≠ .nan) (hle : rankOf x ≤ rankOf y) :
    (floatingCompare format (x.setWidth 64) (y.setWidth 64) .lessThanOrEqual).value = true := by
  have h := floatingCompare_compares x y .lessThanOrEqual
  rw [Compares, extended_eq_height hx, extended_eq_height hy] at h
  refine h.1.2 ?_
  obtain hlt | ⟨heq, -⟩ := Prod.Lex.toLex_le_toLex.1 hle
  · exact hlt.le
  · exact heq.le

theorem floatingMinimumMaximum_of_less (hx : Ieee.decode format (x.setWidth 64) ≠ .nan)
    (hy : Ieee.decode format (y.setWidth 64) ≠ .nan)
    (h : (floatingCompare format (x.setWidth 64) (y.setWidth 64) .lessThan).value = true)
    (maximum : Bool) :
    (floatingMinimumMaximum format (x.setWidth 64) (y.setWidth 64) maximum).bits =
      (if maximum then y else x).setWidth 64 := by
  have hlt := rankOf_lt_of_lt hx hy ((floatingCompare_less_iff hx hy).1 h)
  obtain ⟨-, ⟨-, hbits⟩ | ⟨hle, -⟩⟩ := floatingMinimumMaximum_numbers hx hy maximum
  · exact hbits
  · exact absurd hle (not_le_of_gt hlt)

theorem floatingMinimumMaximum_bound (hx : Ieee.decode format (x.setWidth 64) ≠ .nan)
    (hy : Ieee.decode format (y.setWidth 64) ≠ .nan) {z : BitVec (width format)}
    (hz : z = x ∨ z = y) :
    (floatingCompare format (floatingMinimumMaximum format (x.setWidth 64)
      (y.setWidth 64) false).bits
        (z.setWidth 64) .lessThanOrEqual).value = true ∧
      (floatingCompare format (z.setWidth 64)
        (floatingMinimumMaximum format (x.setWidth 64) (y.setWidth 64) true).bits
        .lessThanOrEqual).value = true := by
  constructor
  · obtain ⟨-, ⟨hle, hbits⟩ | ⟨hle, hbits⟩⟩ := floatingMinimumMaximum_numbers hx hy false
    · rw [hbits, if_neg Bool.false_ne_true]
      rcases hz with rfl | rfl
      · exact floatingCompare_of_rankOf_le hx hx le_rfl
      · exact floatingCompare_of_rankOf_le hx hy hle
    · rw [hbits, if_neg Bool.false_ne_true]
      rcases hz with rfl | rfl
      · exact floatingCompare_of_rankOf_le hy hx hle
      · exact floatingCompare_of_rankOf_le hy hy le_rfl
  · obtain ⟨-, ⟨hle, hbits⟩ | ⟨hle, hbits⟩⟩ := floatingMinimumMaximum_numbers hx hy true
    · rw [hbits, if_pos rfl]
      rcases hz with rfl | rfl
      · exact floatingCompare_of_rankOf_le hx hy hle
      · exact floatingCompare_of_rankOf_le hy hy le_rfl
    · rw [hbits, if_pos rfl]
      rcases hz with rfl | rfl
      · exact floatingCompare_of_rankOf_le hx hx le_rfl
      · exact floatingCompare_of_rankOf_le hy hx hle

end Operations

/-! ## Classification -/

/-- The exponent field is zero below the least normal number. -/
theorem exponentField_eq_zero_iff (format : FloatingFormat) {bits : BitVec 64} {negative : Bool}
    {magnitude : ℚ} (h : Ieee.decode format bits = .finite negative magnitude) :
    (bits &&& (formatOf format).exponentMask) >>> (formatOf format).fractionBits = 0#64 ↔
      magnitude < minimumNormal format := by
  have hrung : magnitude = rung format (ordinal format bits) := by
    rw [decode_ordinal] at h
    split at h
    · exact (Datum.finite.inj h).2.symm
    · split at h <;> exact Datum.noConfusion h
  rw [← BitVec.toNat_inj, toNat_exponentField, ← ordinal_div, BitVec.toNat_zero, hrung,
    ← rung_minimumNormal, (rung_strictMono format).lt_iff_lt,
    Nat.div_eq_zero_iff_lt (Nat.two_pow_pos _)]

theorem floatingClassify_eq (format : FloatingFormat) (bits : BitVec 64) :
    floatingClassify format bits = 1#16 <<< classBit format bits := by
  have h := unpack_operand format bits
  rw [floatingClassify, classBit]
  dsimp only
  generalize unpack format bits = u at h ⊢
  cases h with
  | nan sign quiet hdecode hquiet =>
    rw [hdecode, hquiet]
    cases quiet <;> rfl
  | infinite sign hdecode => rw [hdecode]
  | zero sign hdecode => rw [hdecode]; rfl
  | finite sign significand exponent hdecode hpos =>
    have hne : (significand.toNat * 2 ^ exponent : ℚ) ≠ 0 := by positivity
    rw [hdecode]
    dsimp only
    rw [if_neg hne]
    simp only [beq_iff_eq, exponentField_eq_zero_iff format hdecode]
    cases sign <;> split <;> rfl

theorem classBit_lt (format : FloatingFormat) (bits : BitVec 64) : classBit format bits < 10 := by
  rw [classBit]
  split <;> (repeat' split) <;> decide

/-- Comparison, minimum and maximum and classification on every pair of encodings. -/
theorem floating_numeric_order (format : FloatingFormat) (x y : BitVec (width format)) :
    (∀ comparison, Compares format comparison (x.setWidth 64) (y.setWidth 64)
      (floatingCompare format (x.setWidth 64) (y.setWidth 64) comparison)) ∧
    (∀ maximum, Selects format maximum (x.setWidth 64) (y.setWidth 64)
      (floatingMinimumMaximum format (x.setWidth 64) (y.setWidth 64) maximum)) ∧
    (classBit format (x.setWidth 64) < 10 ∧
      ∀ i, (floatingClassify format (x.setWidth 64)).getLsbD i = true ↔
        i = classBit format (x.setWidth 64)) ∧
    (Ieee.decode format (x.setWidth 64) ≠ .nan → Ieee.decode format (y.setWidth 64) ≠ .nan →
      (∀ maximum, floatingMinimumMaximum format (x.setWidth 64) (y.setWidth 64) maximum =
        floatingMinimumMaximum format (y.setWidth 64) (x.setWidth 64) maximum) ∧
      ((floatingCompare format (x.setWidth 64) (y.setWidth 64) .lessThan).value = true →
        ∀ maximum, (floatingMinimumMaximum format (x.setWidth 64) (y.setWidth 64) maximum).bits =
          (if maximum then y else x).setWidth 64) ∧
      ∀ z, z = x ∨ z = y →
        (floatingCompare format
          (floatingMinimumMaximum format (x.setWidth 64) (y.setWidth 64) false).bits
          (z.setWidth 64) .lessThanOrEqual).value = true ∧
        (floatingCompare format (z.setWidth 64)
          (floatingMinimumMaximum format (x.setWidth 64) (y.setWidth 64) true).bits
          .lessThanOrEqual).value = true) := by
  have hclass := classBit_lt format (x.setWidth 64)
  refine ⟨floatingCompare_compares x y, floatingMinimumMaximum_selects, ⟨hclass, ?_⟩, ?_⟩
  · intro i
    rw [floatingClassify_eq]
    generalize classBit format (x.setWidth 64) = k at hclass ⊢
    rw [BitVec.getLsbD_shiftLeft, BitVec.getLsbD_one]
    simp only [Bool.and_eq_true, decide_eq_true_eq, Bool.not_eq_true']
    grind
  · intro hx hy
    exact ⟨floatingMinimumMaximum_comm hx hy,
      fun h maximum ↦ floatingMinimumMaximum_of_less hx hy h maximum,
      fun z hz ↦ floatingMinimumMaximum_bound hx hy hz⟩

end Rvemu
