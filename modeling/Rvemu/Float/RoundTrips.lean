import Rvemu.Float.Comparison
import Rvemu.Float.Conversions

/-!
# Conversions into floating point

From integers and from the other format.  What the format has is converted exactly, so going to a
wider type and back is the identity; and since rounding keeps the order, so do the conversions.
-/

set_option autoImplicit false

namespace Rvemu

open Rounding SoftFloat

namespace Ieee

/-- The integer in the low bits of an operand. -/
def integerValue (unsignedInteger : Bool) (width : IntegerWidth) (operand : BitVec 64) : ℤ :=
  if unsignedInteger then (operand.setWidth (integerBits width)).toNat
  else (operand.setWidth (integerBits width)).toInt

/-- An integer as an exact result; zero is positive. -/
def ofInteger (n : ℤ) : Datum := .finite (decide (n < 0)) (|n| : ℤ)

theorem signed_abs (n : ℤ) : signed (decide (n < 0)) ((|n| : ℤ) : ℚ) = n := by
  rcases lt_or_ge n 0 with hneg | hnonneg
  · rw [decide_eq_true hneg, abs_of_neg hneg, signed, if_pos rfl, Int.cast_neg, neg_neg]
  · rw [decide_eq_false (not_lt.2 hnonneg), abs_of_nonneg hnonneg, signed,
      if_neg Bool.false_ne_true]

/-- Conversion to another format. -/
def ConvertsFormat (destination : FloatingFormat) (mode : Mode) (signaling : Bool)
    (result : FloatingResult) : Datum → Prop
  | .nan => Propagates destination signaling result
  | .infinite negative => Delivers destination mode result (.infinite negative)
  | .finite negative magnitude => Delivers destination mode result (.finite negative magnitude)

section Delivers

variable {format : FloatingFormat} {mode : Mode} {result : FloatingResult} {negative : Bool} {v : ℚ}

theorem signed_mem {S : Set ℚ} (hS : ∀ z ∈ S, -z ∈ S) (negative : Bool) (h : v ∈ S) :
    signed negative v ∈ S := by
  cases negative with
  | false => exact h
  | true => exact hS v h

theorem signed_injective (negative : Bool) : Function.Injective (signed negative : ℚ → ℚ) := by
  cases negative with
  | false => exact fun _ _ h ↦ h
  | true => exact neg_injective

/-- What the format has is delivered without flags. -/
theorem Delivers.exact (h : Delivers format mode result (.finite negative v))
    (hmem : v ∈ Grid (precision format) (leastExponent format)) (hle : v ≤ maximumFinite format) :
    decode format result.bits = .finite negative v ∧ result.flags = 0#8 := by
  obtain ⟨rounded, unbounded, h⟩ := h
  obtain rfl : rounded = v :=
    signed_injective negative (h.rounds.eq_of_mem (signed_mem (fun _ ↦ Grid.neg) negative hmem))
  have hvalue : decode format result.bits = .finite negative rounded := by
    rw [h.value, if_neg hle.not_gt]
  refine ⟨hvalue, ?_⟩
  have hinexact : result.flags.getLsbD 0 = false := by
    rw [Bool.eq_false_iff, ne_eq, h.inexact]
    exact not_not.2 hvalue
  have hunderflow : result.flags.getLsbD 1 = false := by
    rw [Bool.eq_false_iff, ne_eq, h.underflow]
    exact fun hne ↦ hne.1 hvalue
  have hoverflow : result.flags.getLsbD 2 = false := by
    rw [Bool.eq_false_iff, ne_eq, h.overflow]
    exact hle.not_gt
  refine BitVec.eq_of_getLsbD_eq fun i _ ↦ ?_
  rw [BitVec.getLsbD_zero]
  match i with
  | 0 => exact hinexact
  | 1 => exact hunderflow
  | 2 => exact hoverflow
  | i + 3 => exact h.others _ (Nat.le_add_left 3 i)

/-! ### Order -/

/-- Two numbers in their order. -/
def NumericLe (d d' : Datum) : Prop :=
  ∃ a b, d.extended = some a ∧ d'.extended = some b ∧ a ≤ b

/-- What is delivered above the largest number. -/
def highest (format : FloatingFormat) : Mode → WithBot (WithTop ℚ)
  | .nearestEven | .nearestAway | .up => ⊤
  | .towardZero | .down => (maximumFinite format : ℚ)

/-- What is delivered below the least number. -/
def lowest (format : FloatingFormat) : Mode → WithBot (WithTop ℚ)
  | .nearestEven | .nearestAway | .down => ⊥
  | .towardZero | .up => (-maximumFinite format : ℚ)

/-- What is delivered for a rounded result. -/
def bounded (format : FloatingFormat) (mode : Mode) (v : ℚ) : WithBot (WithTop ℚ) :=
  if maximumFinite format < v then highest format mode
  else if v < -maximumFinite format then lowest format mode
  else (v : ℚ)

theorem maximumFinite_pos (format : FloatingFormat) : 0 < maximumFinite format := by
  have hdigits : 0 < 2 ^ precision format - 1 :=
    Nat.sub_pos_of_lt (Nat.one_lt_two_pow (Nat.succ_ne_zero _))
  rw [maximumFinite]
  positivity

theorem bounded_mono (format : FloatingFormat) (mode : Mode) : Monotone (bounded format mode) := by
  have hpos := maximumFinite_pos format
  have hcast : ∀ {a b : ℚ}, a ≤ b → ((a : ℚ) : WithBot (WithTop ℚ)) ≤ (b : ℚ) := fun h ↦
    WithBot.coe_le_coe.2 (WithTop.coe_le_coe.2 h)
  have hhighest : ∀ {a : ℚ}, a ≤ maximumFinite format → (a : ℚ) ≤ highest format mode := by
    intro a ha
    cases mode <;> first | exact le_top | exact hcast ha
  have hlowest : ∀ {a : ℚ}, -maximumFinite format ≤ a → lowest format mode ≤ (a : ℚ) := by
    intro a ha
    cases mode <;> first | exact bot_le | exact hcast ha
  intro v w hle
  rw [bounded, bounded]
  split
  · rw [if_pos (by linarith)]
  · next hv =>
    split
    · next hlow =>
      split
      · exact (hlowest (by linarith)).trans (hhighest hpos.le)
      · split
        · exact le_rfl
        · next hw => exact hlowest (by linarith)
    · next hlow =>
      split
      · exact hhighest (by linarith)
      · rw [if_neg (by linarith)]
        exact hcast hle

theorem Delivered.extended {rounded unbounded : ℚ}
    (h : Delivered format mode negative v rounded unbounded result) :
    (decode format result.bits).extended =
      some (bounded format mode (signed negative rounded)) := by
  have hpos := maximumFinite_pos format
  have hnonneg := h.nonneg.1
  rw [h.value, bounded]
  split
  · next hover =>
    cases negative with
    | false =>
      rw [if_pos (show maximumFinite format < signed false rounded from hover)]
      cases mode <;> rfl
    | true =>
      have hvalue : signed true rounded = -rounded := rfl
      rw [hvalue, if_neg (by linarith), if_pos (by linarith)]
      cases mode <;> rfl
  · next hover =>
    have hhigh : ¬maximumFinite format < signed negative rounded := by
      cases negative <;> simp only [signed] <;> simp <;> linarith
    have hlow : ¬signed negative rounded < -maximumFinite format := by
      cases negative <;> simp only [signed] <;> simp <;> linarith
    rw [if_neg hhigh, if_neg hlow]
    rfl

/-- A result that is delivered is a number, and infinite for an infinite one. -/
theorem Delivers.exists_extended {d : Datum} (h : Delivers format mode result d) :
    ∃ c, (decode format result.bits).extended = some c ∧ (d = .infinite true → c = ⊥) ∧
      (d = .infinite false → c = ⊤) := by
  cases d with
  | nan => exact h.elim
  | infinite sign =>
    rw [h.1]
    cases sign with
    | false => exact ⟨⊤, rfl, nofun, fun _ ↦ rfl⟩
    | true => exact ⟨⊥, rfl, fun _ ↦ rfl, nofun⟩
  | finite sign magnitude =>
    obtain ⟨rounded, unbounded, h⟩ := h
    exact ⟨_, h.extended, nofun, nofun⟩

theorem Delivers.refl {d : Datum} (h : Delivers format mode result d) :
    NumericLe (decode format result.bits) (decode format result.bits) := by
  obtain ⟨c, hc, -⟩ := h.exists_extended
  exact ⟨c, c, hc, hc, le_rfl⟩

/-- Conversion keeps the order of two different numbers. -/
theorem Delivers.mono {result' : FloatingResult} {d d' : Datum} {a b : WithBot (WithTop ℚ)}
    (h : Delivers format mode result d) (h' : Delivers format mode result' d')
    (ha : d.extended = some a) (hb : d'.extended = some b) (hlt : a < b) :
    NumericLe (decode format result.bits) (decode format result'.bits) := by
  obtain ⟨c, hc, hbottom, htop⟩ := h.exists_extended
  obtain ⟨c', hc', hbottom', htop'⟩ := h'.exists_extended
  refine ⟨c, c', hc, hc', ?_⟩
  cases d with
  | nan => exact h.elim
  | infinite sign =>
    cases sign with
    | true =>
      rw [hbottom rfl]
      exact bot_le
    | false =>
      cases ha
      exact absurd hlt not_top_lt
  | finite sign magnitude =>
    cases d' with
    | nan => exact h'.elim
    | infinite sign' =>
      cases sign' with
      | true =>
        cases hb
        exact absurd hlt not_lt_bot
      | false =>
        rw [htop' rfl]
        exact le_top
    | finite sign' magnitude' =>
      obtain ⟨rounded, unbounded, h⟩ := h
      obtain ⟨rounded', unbounded', h'⟩ := h'
      cases hc.symm.trans h.extended
      cases hc'.symm.trans h'.extended
      cases ha
      cases hb
      have hlt' : signed sign magnitude < signed sign' magnitude' :=
        WithTop.coe_lt_coe.1 (WithBot.coe_lt_coe.1 hlt)
      exact bounded_mono format mode (h.rounds.mono (Grid.zero_mem _ _) h'.rounds hlt')

end Delivers

end Ieee

open Ieee

/-! ## From integers -/

theorem signedMinimumBits_eq (width : IntegerWidth) :
    signedMinimumBits width = BitVec.twoPow 64 (integerBits width - 1) := by
  cases width <;> decide

/-- The sign and magnitude that the core takes from an operand are those of the integer. -/
theorem floatingFromInteger_operand (unsignedInteger : Bool) (width : IntegerWidth)
    (operand : BitVec 64) :
    let masked := operand &&& widthMask width
    let sign := !unsignedInteger && (masked &&& signedMinimumBits width) != 0#64
    sign = decide (integerValue unsignedInteger width operand < 0) ∧
      ((if sign then (~~~masked + 1#64) &&& widthMask width else masked).toNat : ℤ) =
        |integerValue unsignedInteger width operand| := by
  have hle := integerBits_le width
  have hpos : 0 < integerBits width := by cases width <;> decide
  dsimp only
  rw [and_widthMask, and_widthMask, ← BitVec.neg_eq_not_add, BitVec.setWidth_neg_of_le hle,
    BitVec.setWidth_setWidth_of_le _ hle, signedMinimumBits_eq, BitVec.and_twoPow, integerValue]
  generalize operand.setWidth (integerBits width) = w
  have hmsb : (w.setWidth 64).getLsbD (integerBits width - 1) = w.msb := by
    rw [BitVec.getLsbD_setWidth, BitVec.msb_eq_getLsbD_last, decide_eq_true (by omega),
      Bool.true_and]
  have hbit : ((if (w.setWidth 64).getLsbD (integerBits width - 1) = true then
      BitVec.twoPow 64 (integerBits width - 1) else 0#64) != 0#64) = w.msb := by
    rw [hmsb]
    cases w.msb with
    | false => rfl
    | true => cases width <;> decide
  have hlt := w.isLt
  have hpow : 2 ^ integerBits width ≤ 2 ^ 64 := Nat.pow_le_pow_right (by decide) hle
  have hhalf : 2 ^ (integerBits width - 1) * 2 = 2 ^ integerBits width :=
    Nat.two_pow_pred_mul_two hpos
  have hplain : ((w.setWidth 64).toNat : ℤ) = w.toNat := by
    rw [BitVec.toNat_setWidth, Nat.mod_eq_of_lt (hlt.trans_le hpow)]
  rw [hbit, BitVec.toInt_eq_msb_cond]
  cases unsignedInteger with
  | true =>
    simp only [Bool.not_true, Bool.false_and, Bool.false_eq_true, if_true, if_false]
    exact ⟨(decide_eq_false (by omega)).symm, by rw [hplain, abs_of_nonneg (by omega)]⟩
  | false =>
    simp only [Bool.not_false, Bool.true_and, Bool.false_eq_true, if_false]
    cases hsign : w.msb with
    | false =>
      simp only [Bool.false_eq_true, if_false]
      exact ⟨(decide_eq_false (by omega)).symm, by rw [hplain, abs_of_nonneg (by omega)]⟩
    | true =>
      rw [BitVec.msb_eq_decide, decide_eq_true_eq] at hsign
      have hneg : (((-w).setWidth 64).toNat : ℤ) = 2 ^ integerBits width - w.toNat := by
        rw [BitVec.toNat_setWidth, BitVec.toNat_neg, Nat.mod_eq_of_lt (a := 2 ^ _ - _) (by omega),
          Nat.mod_eq_of_lt (by omega), Nat.cast_sub hlt.le, Nat.cast_pow, Nat.cast_ofNat]
      have hcast : ((2 ^ integerBits width : ℕ) : ℤ) = 2 ^ integerBits width := by push_cast; rfl
      simp only [if_true]
      refine ⟨(decide_eq_true (by omega)).symm, ?_⟩
      rw [BitVec.setWidth_eq, hneg, abs_of_neg (by omega)]
      omega

theorem floatingFromInteger_delivers (destination : FloatingFormat) (operand : BitVec 64)
    (unsignedInteger : Bool) (width : IntegerWidth) (rounding : FloatingRoundingMode) :
    Delivers destination rounding.mode
      (floatingFromInteger destination operand unsignedInteger width rounding)
      (ofInteger (integerValue unsignedInteger width operand)) := by
  obtain ⟨magnitude, hmagnitude, heq⟩ : ∃ magnitude : BitVec 64,
      (magnitude.toNat : ℤ) = |integerValue unsignedInteger width operand| ∧
      floatingFromInteger destination operand unsignedInteger width rounding =
        roundAndPack (formatOf destination) (decide
          (integerValue unsignedInteger width operand < 0))
          (.ofUInt64 magnitude) 0 rounding := by
    obtain ⟨hsign, hmagnitude⟩ := floatingFromInteger_operand unsignedInteger width operand
    exact ⟨_, hmagnitude, by rw [floatingFromInteger, ← hsign]⟩
  rw [heq, ofInteger, ← hmagnitude, Int.cast_natCast]
  generalize decide (integerValue unsignedInteger width operand < 0) = sign
  rcases Nat.eq_zero_or_pos magnitude.toNat with hzero | hpos
  · have hmag : magnitude = 0#64 := BitVec.eq_of_toNat_eq hzero
    rw [hmag, roundAndPack, if_pos (by decide), BitVec.toNat_zero, Nat.cast_zero]
    exact delivers_signedZero destination rounding sign
  · have h := delivers_ofUInt64 destination rounding sign hpos 0
    rwa [zpow_zero, mul_one] at h

/-! ## From the other format -/

theorem floatingConvertFormat_converts (destination source : FloatingFormat) (operand : BitVec 64)
    (rounding : FloatingRoundingMode) :
    ConvertsFormat destination rounding.mode (signaling source operand)
      (floatingConvertFormat destination source operand rounding) (Ieee.decode source operand) := by
  have hoperand := unpack_operand source operand
  rw [floatingConvertFormat]
  generalize unpack source operand = u at hoperand ⊢
  by_cases hnan : Ieee.decode source operand = .nan
  · rw [if_pos (hoperand.isNan_iff.2 hnan), hnan, hoperand.signaling_eq]
    exact propagates_nanResult destination _
  rw [if_neg (hoperand.isNan_iff.not.2 hnan)]
  cases hoperand with
  | nan _ _ hdecode => exact absurd hdecode hnan
  | infinite sign hdecode =>
    rw [hdecode, if_pos rfl]
    exact delivers_infinity destination rounding sign
  | zero sign hdecode =>
    rw [hdecode, if_neg Category.noConfusion, if_pos rfl]
    exact delivers_signedZero destination rounding sign
  | finite sign significand exponent hdecode hpos =>
    rw [hdecode, if_neg Category.noConfusion, if_neg Category.noConfusion]
    exact delivers_ofUInt64 destination rounding sign hpos exponent

/-! ## Results have the width of the format -/

section Width

variable (format : FloatingFormat)

theorem roundAndPack_bits_lt (sign : Bool) (m : WideUnsigned) (e : ℤ)
    (rounding : FloatingRoundingMode) :
    (roundAndPack (formatOf format) sign m e rounding).bits.toNat < 2 ^ width format := by
  rw [roundAndPack]
  split
  · exact toNat_signBits_lt format sign
  · dsimp only
    split
    · exact packNormal_bits_lt format sign m _ _ _ rounding
    · exact packSubnormal_bits_lt format sign m e _ rounding

theorem floatingConvertFormat_bits_lt (source : FloatingFormat) (operand : BitVec 64)
    (rounding : FloatingRoundingMode) :
    (floatingConvertFormat format source operand rounding).bits.toNat < 2 ^ width format := by
  rw [floatingConvertFormat]
  split
  · change (formatOf format).canonicalNan.toNat < 2 ^ width format
    cases format <;> decide
  · split
    · cases format <;> cases (unpack source operand).sign <;> decide
    · split
      · exact toNat_signBits_lt format _
      · exact roundAndPack_bits_lt format _ _ _ rounding

/-- A number has one encoding. -/
theorem encoding_unique {format : FloatingFormat} {bits : BitVec 64} {x : BitVec (width format)}
    (hlt : bits.toNat < 2 ^ width format)
    (h : Ieee.decode format bits = Ieee.decode format (x.setWidth 64))
    (hx : Ieee.decode format (x.setWidth 64) ≠ .nan) : bits = x.setWidth 64 := by
  have hself : bits = (bits.setWidth (width format)).setWidth 64 := by
    refine BitVec.eq_of_toNat_eq ?_
    rw [BitVec.toNat_setWidth, BitVec.toNat_setWidth, Nat.mod_eq_of_lt hlt,
      Nat.mod_eq_of_lt bits.isLt]
  rw [hself] at h ⊢
  have hrank := congrArg Datum.rank h
  rw [rank_eq hx, rank_eq (by rwa [h])] at hrank
  rw [rankOf_injective (by rwa [h]) hx (Option.some.inj hrank)]

end Width

/-! ## There and back -/

/-- The wider format has every number of the narrower. -/
theorem single_mem_double {bits : BitVec 64} {negative : Bool} {v : ℚ}
    (h : Ieee.decode .single bits = .finite negative v) :
    v ∈ Grid (K := ℚ) (precision .double) (leastExponent .double) ∧ v ≤ maximumFinite .double := by
  have hmem := mem_grid_of_decode (K := ℚ) h
  rw [Rat.cast_id] at hmem
  have hq : (leastExponent .double : WithBot ℤ) ≤ leastExponent .single :=
    WithBot.coe_le_coe.2 (by decide)
  refine ⟨Grid.mono (by decide) hq hmem, (le_maximumFinite_of_decode h).2.trans ?_⟩
  exact mul_le_mul (by exact_mod_cast (by decide :
    2 ^ precision .single - 1 ≤ 2 ^ precision .double - 1))
    (zpow_le_zpow_right₀ (by norm_num) (by decide)) (by positivity) (by positivity)

/-- Conversion of what the destination has. -/
theorem floatingConvertFormat_exact {destination source : FloatingFormat} {operand : BitVec 64}
    (rounding : FloatingRoundingMode) (hnan : Ieee.decode source operand ≠ .nan)
    (h : ∀ negative v, Ieee.decode source operand = .finite negative v →
      v ∈ Grid (K := ℚ) (precision destination) (leastExponent destination) ∧
        v ≤ maximumFinite destination) :
    Ieee.decode destination (floatingConvertFormat destination source operand rounding).bits =
        Ieee.decode source operand ∧
      (floatingConvertFormat destination source operand rounding).flags = 0#8 := by
  have hconverts := floatingConvertFormat_converts destination source operand rounding
  cases hdecode : Ieee.decode source operand with
  | nan => exact absurd hdecode hnan
  | infinite negative =>
    rw [hdecode] at hconverts
    exact hconverts
  | finite negative v =>
    rw [hdecode] at hconverts
    obtain ⟨hmem, hle⟩ := h negative v hdecode
    exact Delivers.exact hconverts hmem hle

theorem single_double_single (x : BitVec (width .single)) (r r' : FloatingRoundingMode)
    (hnan : Ieee.decode .single (x.setWidth 64) ≠ .nan) :
    (floatingConvertFormat .double .single (x.setWidth 64) r).flags = 0#8 ∧
      floatingConvertFormat .single .double
          (floatingConvertFormat .double .single (x.setWidth 64) r).bits r' =
        { bits := x.setWidth 64 } := by
  obtain ⟨hwide, hflags⟩ := floatingConvertFormat_exact r hnan fun _ _ h ↦ single_mem_double h
  refine ⟨hflags, ?_⟩
  generalize (floatingConvertFormat .double .single (x.setWidth 64) r).bits = wide at hwide ⊢
  have hback := floatingConvertFormat_exact r' (hwide ▸ hnan) fun negative v hv ↦ by
    rw [hwide] at hv
    have hmem := mem_grid_of_decode (K := ℚ) hv
    rw [Rat.cast_id] at hmem
    exact ⟨hmem, (le_maximumFinite_of_decode hv).2⟩
  have hbits := encoding_unique (floatingConvertFormat_bits_lt .single .double wide r')
    (hback.1.trans hwide) hnan
  generalize floatingConvertFormat .single .double wide r' = result at hback hbits ⊢
  obtain ⟨bits, flags⟩ := result
  cases hbits
  cases hback.2
  rfl

theorem integerValue_bounds (unsignedInteger : Bool) (width : IntegerWidth) (operand : BitVec 64) :
    integerMinimum unsignedInteger width ≤ integerValue unsignedInteger width operand ∧
      integerValue unsignedInteger width operand ≤ integerMaximum unsignedInteger width := by
  rw [integerMinimum, integerMaximum, integerValue]
  have hlt := (operand.setWidth (integerBits width)).isLt
  cases unsignedInteger with
  | true =>
    simp only [if_true]
    have hcast : ((2 ^ integerBits width : ℕ) : ℤ) = 2 ^ integerBits width := by push_cast; rfl
    omega
  | false =>
    simp only [Bool.false_eq_true, if_false]
    exact ⟨BitVec.le_toInt _, Int.le_sub_one_of_lt BitVec.toInt_lt⟩

theorem integerEncoding_integerValue (unsignedInteger : Bool) (width : IntegerWidth)
    (operand : BitVec 64) :
    integerEncoding width (integerValue unsignedInteger width operand) =
      (operand.setWidth (integerBits width)).setWidth 64 := by
  rw [integerEncoding, integerValue]
  cases unsignedInteger with
  | true => rw [if_pos rfl, BitVec.ofInt_natCast, BitVec.ofNat_toNat, BitVec.setWidth_eq]
  | false => rw [if_neg Bool.false_ne_true, BitVec.ofInt_toInt]

theorem word_double_word (operand : BitVec 64) (unsignedInteger : Bool)
    (r r' : FloatingRoundingMode) :
    (floatingFromInteger .double operand unsignedInteger .word r).flags = 0#8 ∧
      floatingToInteger .double (floatingFromInteger .double operand unsignedInteger .word r).bits
          unsignedInteger .word r' =
        { value := (operand.setWidth 32).setWidth 64 } := by
  have hdelivers := floatingFromInteger_delivers .double operand unsignedInteger .word r
  obtain ⟨hmin, hmax⟩ := integerValue_bounds unsignedInteger .word operand
  have hencoding := integerEncoding_integerValue unsignedInteger .word operand
  generalize integerValue unsignedInteger .word operand = z at *
  have habs : z.natAbs < 2 ^ 33 := by
    have hrange : -2 ^ 31 ≤ integerMinimum unsignedInteger .word ∧
        integerMaximum unsignedInteger .word < 2 ^ 32 := by
      cases unsignedInteger <;> decide
    omega
  have hvalue : (((|z| : ℤ)) : ℚ) = (z.natAbs : ℕ) := by
    rw [Int.abs_eq_natAbs, Int.cast_natCast]
  have hmem : ((|z| : ℤ) : ℚ) ∈ Grid (K := ℚ) (precision .double) (leastExponent .double) := by
    have h := Grid.mem (K := ℚ) (q := leastExponent .double) (k := 0)
      (habs.trans (show 2 ^ 33 < 2 ^ precision .double by decide))
      (WithBot.coe_le_coe.2 (by decide))
    rwa [zpow_zero, mul_one, ← hvalue] at h
  have hle : ((|z| : ℤ) : ℚ) ≤ maximumFinite .double := by
    have hdigits : z.natAbs ≤ 2 ^ precision .double - 1 :=
      Nat.le_sub_one_of_lt (habs.trans (by decide))
    calc ((|z| : ℤ) : ℚ) = (z.natAbs : ℕ) * 2 ^ (0 : ℤ) := by rw [hvalue, zpow_zero, mul_one]
      _ ≤ maximumFinite .double :=
        mul_le_mul (by exact_mod_cast hdigits) (zpow_le_zpow_right₀ (by norm_num) (by decide))
          (by positivity) (by positivity)
  obtain ⟨hdecode, hflags⟩ := hdelivers.exact hmem hle
  refine ⟨hflags, ?_⟩
  have hconverts := floatingToInteger_converts .double
    (floatingFromInteger .double operand unsignedInteger .word r).bits unsignedInteger .word r'
  rw [hdecode] at hconverts
  obtain ⟨n, hround, hresult⟩ := hconverts
  rw [signed_abs] at hround hresult
  have hn : n = z := by
    exact_mod_cast hround.eq_of_mem ⟨z, rfl⟩
  subst hn
  rw [if_neg (by omega), if_neg (by omega), if_pos rfl, hencoding] at hresult
  exact hresult

/-! ## Order -/

theorem floatingFromInteger_mono (destination : FloatingFormat) {operand operand' : BitVec 64}
    {unsignedInteger : Bool} {width : IntegerWidth} (rounding : FloatingRoundingMode)
    (h : integerValue unsignedInteger width operand ≤ integerValue unsignedInteger width operand') :
    NumericLe
      (Ieee.decode destination
        (floatingFromInteger destination operand unsignedInteger width rounding).bits)
      (Ieee.decode destination
        (floatingFromInteger destination operand' unsignedInteger width rounding).bits) := by
  have hdelivers := floatingFromInteger_delivers destination operand unsignedInteger width rounding
  have hdelivers' := floatingFromInteger_delivers destination operand' unsignedInteger
      width rounding
  rcases h.lt_or_eq with hlt | heq
  · refine hdelivers.mono hdelivers' rfl rfl ?_
    rw [signed_abs, signed_abs]
    exact WithBot.coe_lt_coe.2 (WithTop.coe_lt_coe.2 (by exact_mod_cast hlt))
  · have hmasked : operand &&& widthMask width = operand' &&& widthMask width := by
      rw [and_widthMask, and_widthMask, ← integerEncoding_integerValue unsignedInteger, heq,
        integerEncoding_integerValue]
    have hsame : floatingFromInteger destination operand unsignedInteger width rounding =
        floatingFromInteger destination operand' unsignedInteger width rounding := by
      rw [floatingFromInteger, floatingFromInteger, hmasked]
    rw [hsame]
    exact hdelivers'.refl

theorem ConvertsFormat.delivers {destination : FloatingFormat} {mode : Mode} {signaling : Bool}
    {result : FloatingResult} {d : Datum}
    (h : ConvertsFormat destination mode signaling result d) (hnan : d ≠ .nan) :
    Delivers destination mode result d := by
  cases d with
  | nan => exact absurd rfl hnan
  | infinite => exact h
  | finite => exact h

/-- Equal numbers have one encoding, but for the two zeros. -/
theorem eq_or_zero {source : FloatingFormat} {x y : BitVec (width source)}
    (h : index source (x.setWidth 64) = index source (y.setWidth 64)) :
    x = y ∨ (∃ s, Ieee.decode source (x.setWidth 64) = .finite s 0) ∧
      ∃ s, Ieee.decode source (y.setWidth 64) = .finite s 0 := by
  by_cases hsign : negative source (x.setWidth 64) = negative source (y.setWidth 64)
  · left
    refine encoding_ext hsign ?_
    rw [index, index, hsign, signed, signed] at h
    split at h <;> omega
  · right
    have hzero : ordinal source (x.setWidth 64) = 0 ∧ ordinal source (y.setWidth 64) = 0 := by
      rw [index, index] at h
      revert h hsign
      cases negative source (x.setWidth 64) <;> cases negative source (y.setWidth 64) <;>
        simp only [signed] <;> grind
    have hdecode : ∀ z : BitVec (width source), ordinal source (z.setWidth 64) = 0 →
        ∃ s, Ieee.decode source (z.setWidth 64) = .finite s 0 := by
      intro z hz
      rw [decode_ordinal, hz, if_pos (top_pos source), rung_zero]
      exact ⟨_, rfl⟩
    exact ⟨hdecode x hzero.1, hdecode y hzero.2⟩

theorem floatingConvertFormat_mono (destination source : FloatingFormat)
    {x y : BitVec (width source)} (rounding : FloatingRoundingMode)
    (h : NumericLe (Ieee.decode source (x.setWidth 64)) (Ieee.decode source (y.setWidth 64))) :
    NumericLe
      (Ieee.decode destination
        (floatingConvertFormat destination source (x.setWidth 64) rounding).bits)
      (Ieee.decode destination
        (floatingConvertFormat destination source (y.setWidth 64) rounding).bits) := by
  obtain ⟨a, b, ha, hb, hle⟩ := h
  have hx : Ieee.decode source (x.setWidth 64) ≠ .nan := fun hnan ↦
    absurd (ha.symm.trans (extended_eq_none.2 hnan)) (Option.some_ne_none a)
  have hy : Ieee.decode source (y.setWidth 64) ≠ .nan := fun hnan ↦
    absurd (hb.symm.trans (extended_eq_none.2 hnan)) (Option.some_ne_none b)
  have hdelivers := ConvertsFormat.delivers
    (floatingConvertFormat_converts destination source (x.setWidth 64) rounding) hx
  have hdelivers' := ConvertsFormat.delivers
    (floatingConvertFormat_converts destination source (y.setWidth 64) rounding) hy
  rcases hle.lt_or_eq with hlt | heq
  · exact hdelivers.mono hdelivers' ha hb hlt
  · rw [extended_eq_height hx] at ha
    rw [extended_eq_height hy] at hb
    cases ha
    cases hb
    rcases eq_or_zero ((height_eq_iff hx hy).1 heq) with rfl | ⟨⟨s, hs⟩, s', hs'⟩
    · exact hdelivers.refl
    · -- the two zeros
      rw [hs] at hdelivers
      rw [hs'] at hdelivers'
      have hzero := (hdelivers.exact (Grid.zero_mem _ _) (maximumFinite_pos destination).le).1
      have hzero' := (hdelivers'.exact (Grid.zero_mem _ _) (maximumFinite_pos destination).le).1
      rw [hzero, hzero']
      refine ⟨_, _, rfl, rfl, ?_⟩
      rw [(signed_eq_zero_iff s 0).2 rfl, (signed_eq_zero_iff s' 0).2 rfl]

/-- **Conversions into floating point** round once, are undone by the conversion back where the
destination is wider, and keep the order. -/
theorem conversions_into_floating :
    (∀ (destination : FloatingFormat) (operand : BitVec 64) (unsignedInteger : Bool)
      (width : IntegerWidth) (rounding : FloatingRoundingMode),
      Delivers destination rounding.mode
        (floatingFromInteger destination operand unsignedInteger width rounding)
        (ofInteger (integerValue unsignedInteger width operand))) ∧
    (∀ (destination source : FloatingFormat) (operand : BitVec 64)
      (rounding : FloatingRoundingMode),
      ConvertsFormat destination rounding.mode (signaling source operand)
        (floatingConvertFormat destination source operand rounding) (Ieee.decode source operand)) ∧
    (∀ (x : BitVec 32) (r r' : FloatingRoundingMode), Ieee.decode .single (x.setWidth 64) ≠ .nan →
      (floatingConvertFormat .double .single (x.setWidth 64) r).flags = 0#8 ∧
      floatingConvertFormat .single .double
          (floatingConvertFormat .double .single (x.setWidth 64) r).bits r' =
        { bits := x.setWidth 64 }) ∧
    (∀ (operand : BitVec 64) (unsignedInteger : Bool) (r r' : FloatingRoundingMode),
      (floatingFromInteger .double operand unsignedInteger .word r).flags = 0#8 ∧
      floatingToInteger .double (floatingFromInteger .double operand unsignedInteger .word r).bits
          unsignedInteger .word r' =
        { value := (operand.setWidth 32).setWidth 64 }) ∧
    (∀ (destination : FloatingFormat) (operand operand' : BitVec 64) (unsignedInteger : Bool)
      (width : IntegerWidth) (rounding : FloatingRoundingMode),
      integerValue unsignedInteger width operand ≤ integerValue unsignedInteger width operand' →
      NumericLe
        (Ieee.decode destination
          (floatingFromInteger destination operand unsignedInteger width rounding).bits)
        (Ieee.decode destination
          (floatingFromInteger destination operand' unsignedInteger width rounding).bits)) ∧
    (∀ (destination source : FloatingFormat) (x y : BitVec (width source))
      (rounding : FloatingRoundingMode),
      NumericLe (Ieee.decode source (x.setWidth 64)) (Ieee.decode source (y.setWidth 64)) →
      NumericLe
        (Ieee.decode destination
          (floatingConvertFormat destination source (x.setWidth 64) rounding).bits)
        (Ieee.decode destination
          (floatingConvertFormat destination source (y.setWidth 64) rounding).bits)) :=
  ⟨floatingFromInteger_delivers, floatingConvertFormat_converts, single_double_single,
    word_double_word,
    fun destination _ _ _ _ rounding h ↦ floatingFromInteger_mono destination rounding h,
    fun destination source _ _ rounding h ↦ floatingConvertFormat_mono destination source
      rounding h⟩

end Rvemu
