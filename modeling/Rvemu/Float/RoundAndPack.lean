import Rvemu.Float.Encoding

/-!
# `roundAndPack` is IEEE rounding

Dropping the low digits of a magnitude rounds it (`roundedRightShift_eq`), bringing it to the
precision of a format rounds it on the grid of that precision (`normalizeTo_spec`), and below the
normal numbers the grid is that of the least exponent.  The encoded result and the flags follow.
-/

set_option autoImplicit false

namespace Rvemu

open Rounding SoftFloat

/-! ## Dropping digits -/

theorem mod_two_pow_succ (m t : ℕ) :
    m % 2 ^ (t + 1) = m % 2 ^ t + 2 ^ t * (m.testBit t).toNat := by
  rw [Nat.mod_pow_succ, Nat.testBit_eq_decide_div_mod_eq]
  rcases Nat.mod_two_eq_zero_or_one (m / 2 ^ t) with h | h <;> simp [h]

theorem position_succ (m t : ℕ) : position m (t + 1) =
    if m.testBit t then (if m % 2 ^ t = 0 then .half else .above)
    else (if m % 2 ^ t = 0 then .exact else .below) := by
  have hlt : m % 2 ^ t < 2 ^ t := Nat.mod_lt _ (Nat.two_pow_pos t)
  rw [position, mod_two_pow_succ, Nat.pow_succ]
  cases m.testBit t with
  | false =>
    simp only [Bool.toNat_false, Nat.mul_zero, Nat.add_zero, Bool.false_eq_true, if_false]
    split
    · rfl
    · rw [if_pos (by omega)]
  | true =>
    simp only [Bool.toNat_true, Nat.mul_one, if_true]
    rw [if_neg (by omega), if_neg (by omega)]
    split
    · next hhalf => rw [if_pos (by omega)]
    · next hhalf => rw [if_neg (by omega)]

theorem shouldIncrement_eq (rounding : FloatingRoundingMode) (sign odd : Bool) (m t : ℕ) :
    shouldIncrement rounding sign (m.testBit t) (decide (m % 2 ^ t ≠ 0)) odd =
      (rounding.mode.magnitude sign).increments (position m (t + 1)) odd := by
  rw [position_succ]
  by_cases hzero : m % 2 ^ t = 0
  · simp only [hzero, ne_eq, not_true_eq_false, decide_false, if_true]
    cases m.testBit t <;> cases rounding <;> cases sign <;> cases odd <;> rfl
  · simp only [hzero, ne_eq, not_false_eq_true, decide_true, if_false]
    cases m.testBit t <;> cases rounding <;> cases sign <;> cases odd <;> rfl

theorem roundedRightShift_eq (m : WideUnsigned) (s : ℕ) (sign : Bool)
    (rounding : FloatingRoundingMode) :
    (roundedRightShift m s sign rounding false).1.toNat =
        (rounding.mode.magnitude sign).shift m.toNat s ∧
      (roundedRightShift m s sign rounding false).2 = decide (m.toNat % 2 ^ s ≠ 0) := by
  cases s with
  | zero =>
    refine ⟨?_, ?_⟩
    · have hexact := ((rounding.mode.magnitude sign).shift_mul_eq_iff m.toNat 0).2
        (by rw [Nat.pow_zero, Nat.mod_one])
      rw [Nat.pow_zero, Nat.mul_one] at hexact
      exact hexact.symm
    · rw [Nat.pow_zero, Nat.mod_one]
      rfl
  | succ t =>
    have hroom : m.toNat / 2 ^ (t + 1) + 1 < 2 ^ WideUnsigned.width := by
      have hlt := m.toNat_lt
      have hle : m.toNat / 2 ^ (t + 1) ≤ m.toNat / 2 :=
        Nat.div_le_div_left (Nat.le_self_pow (by omega) 2) (by decide)
      have hwidth : 2 ^ 2 ≤ 2 ^ WideUnsigned.width := Nat.pow_le_pow_right (by decide) (by decide)
      omega
    have hodd : (m.shiftRight (t + 1)).bit 0 = decide (m.toNat / 2 ^ (t + 1) % 2 = 1) := by
      rw [WideUnsigned.bit_eq, WideUnsigned.toNat_shiftRight, Nat.testBit_zero]
    have hflag : (m.toNat.testBit t || decide (m.toNat % 2 ^ t ≠ 0)) =
        decide (m.toNat % 2 ^ (t + 1) ≠ 0) := by
      have hpos := Nat.two_pow_pos t
      rw [mod_two_pow_succ]
      cases m.toNat.testBit t with
      | false => simp
      | true => simp
    rw [roundedRightShift, if_neg (Nat.succ_ne_zero t), Nat.add_sub_cancel, WideUnsigned.bit_eq,
      WideUnsigned.anyLowBits_eq]
    refine ⟨?_, hflag⟩
    dsimp only
    rw [hodd, shouldIncrement_eq, Mode.shift]
    split
    · rw [WideUnsigned.toNat_add (by simpa using hroom), WideUnsigned.toNat_shiftRight,
        WideUnsigned.toNat_ofUInt64]
      rfl
    · exact WideUnsigned.toNat_shiftRight m (t + 1)

section Exact

variable {K : Type*} [Field K] [LinearOrder K] [IsStrictOrderedRing K] {x : K} {m : WideUnsigned}
  {e : ℤ}

/-- The flag of a shift says whether the value has changed. -/
theorem roundedRightShift_inexact {s : ℕ} (h : Sticky x m.toNat e)
    (hs : x = m.toNat * 2 ^ e ∨ 2 ≤ s) (sign : Bool) (rounding : FloatingRoundingMode) :
    (roundedRightShift m s sign rounding false).2 = true ↔
      ((roundedRightShift m s sign rounding false).1.toNat : K) * 2 ^ (e + s) ≠ x := by
  obtain ⟨hvalue, hflag⟩ := roundedRightShift_eq m s sign rounding
  rw [hvalue, hflag, decide_eq_true_eq, ne_eq, ne_eq, not_iff_not, h.shift_eq_iff hs]

/-! ## Bringing a magnitude to a precision -/

/-- `x` in `p` digits, the last one of exponent `k`; the power of two after them is allowed. -/
structure Normalized (x : K) (p : ℕ) (k : ℤ) (mode : Mode) (r : WideUnsigned × Bool) : Prop where
  le : 2 ^ (p - 1) ≤ r.1.toNat
  ge : r.1.toNat ≤ 2 ^ p
  rounds : ∀ q : WithBot ℤ, q ≤ (k : WithBot ℤ) →
    IsRounding (Grid p q) (EvenIn p q) x (r.1.toNat * 2 ^ k) mode
  inexact : r.2 = true ↔ (r.1.toNat : K) * 2 ^ k ≠ x

theorem normalized_exact {p : ℕ} {k : ℤ} (mode : Mode) {n : WideUnsigned}
    (hle : 2 ^ (p - 1) ≤ n.toNat) (hlt : n.toNat < 2 ^ p) (hx : (n.toNat : K) * 2 ^ k = x) :
    Normalized x p k mode (n, false) := by
  refine ⟨hle, hlt.le, fun q hq ↦ ?_, ?_⟩
  · rw [← hx]
    exact isRounding_self (Grid.mem hlt hq) mode
  · rw [hx]
    simp

theorem two_pow_size_sub_one {m : ℕ} (hm : m ≠ 0) : 2 ^ (m.size - 1) ≤ m :=
  Nat.lt_size.1 (Nat.sub_lt (Nat.size_pos.2 (Nat.pos_of_ne_zero hm)) (by decide))

theorem atLeastTwo_base : Nat.AtLeastTwo 2 := ⟨Nat.le_refl 2⟩

attribute [local instance] atLeastTwo_base in
/-- The digits of the magnitude are enough for a precision of `p`. -/
def Enough (x : K) (m : ℕ) (e : ℤ) (p : ℕ) : Prop := x = m * 2 ^ e ∨ p + 2 ≤ m.size

theorem normalizeTo_spec (hm : m.toNat ≠ 0) (h : Sticky x m.toNat e) {p : ℕ} (hp : 2 ≤ p)
    (hwidth : p ≤ WideUnsigned.width) (henough : Enough x m.toNat e p) (sign : Bool)
    (rounding : FloatingRoundingMode) :
    Normalized x p (e + m.toNat.size - p) (rounding.mode.magnitude sign)
      (normalizeTo m m.toNat.size p sign rounding) := by
  rw [Enough] at henough
  have hlow := two_pow_size_sub_one hm
  have hhigh := Nat.lt_size_self m.toNat
  have hpos := Nat.size_pos.2 (Nat.pos_of_ne_zero hm)
  generalize m.toNat.size = bitLength at hlow hhigh hpos henough ⊢
  rw [normalizeTo]
  split
  · next hlong =>
    obtain ⟨s, rfl⟩ := Nat.exists_eq_add_of_le hlong.le
    have hexponent : e + (p + s : ℕ) - p = e + s := by
      push_cast
      ring
    rw [hexponent, Nat.add_sub_cancel_left]
    have hlarge : 2 ^ (p - 1) ≤ m.toNat / 2 ^ s := by
      rw [Nat.le_div_iff_mul_le (Nat.two_pow_pos s), ← Nat.pow_add]
      rwa [show p - 1 + s = p + s - 1 by omega]
    have hsmall : m.toNat / 2 ^ s < 2 ^ p := by
      rwa [Nat.div_lt_iff_lt_mul (Nat.two_pow_pos s), ← Nat.pow_add]
    obtain ⟨hvalue, -⟩ := roundedRightShift_eq m s sign rounding
    have hbounds := (rounding.mode.magnitude sign).shift_bounds m.toNat s
    have hs : x = m.toNat * 2 ^ e ∨ 2 ≤ s := henough.imp_right fun hle ↦ by omega
    refine ⟨?_, ?_, fun q hq ↦ ?_, roundedRightShift_inexact h hs sign rounding⟩
    · rw [hvalue]
      omega
    · rw [hvalue]
      omega
    · rw [hvalue]
      exact Grid.isRounding_shift hp h hs hsmall hq (Or.inr hlarge) _
  · next hshort =>
    obtain ⟨s, rfl⟩ := Nat.exists_eq_add_of_le (Nat.le_of_not_lt hshort)
    have hprecision : 2 ^ (bitLength + s) ≤ 2 ^ WideUnsigned.width :=
      Nat.pow_le_pow_right (by decide) hwidth
    have hlarge : 2 ^ (bitLength + s - 1) ≤ m.toNat * 2 ^ s := by
      rw [show bitLength + s - 1 = bitLength - 1 + s by omega, Nat.pow_add]
      exact Nat.mul_le_mul_right _ hlow
    have hsmall : m.toNat * 2 ^ s < 2 ^ (bitLength + s) := by
      rw [Nat.pow_add]
      exact Nat.mul_lt_mul_of_pos_right hhigh (Nat.two_pow_pos s)
    have hshifted := WideUnsigned.toNat_shiftLeft (hsmall.trans_le hprecision)
    have hvalue : ((m.toNat * 2 ^ s : ℕ) : K) * 2 ^ (e + bitLength - (bitLength + s : ℕ)) = x := by
      rw [henough.resolve_right (by omega), ← cast_mul_zpow_add]
      congr 2
      push_cast
      ring
    split
    · rw [Nat.add_sub_cancel_left]
      refine normalized_exact _ ?_ ?_ ?_
      · rwa [hshifted]
      · rwa [hshifted]
      · rw [hshifted, hvalue]
    · next hnone =>
      obtain rfl : s = 0 := by omega
      rw [Nat.pow_zero, Nat.mul_one] at hlarge hsmall hvalue
      exact normalized_exact _ hlarge hsmall hvalue

/-! ## The carry -/

/-- The power of two after the numbers of `p` digits, written in `p` digits itself. -/
theorem Normalized.carried {p : ℕ} {k : ℤ} {mode : Mode} {r : WideUnsigned × Bool}
    (h : Normalized x p k mode r) (hp : 1 ≤ p) {n : WideUnsigned} {k' : ℤ}
    (hn : n = if r.1.bitLength > p then r.1.shiftRight 1 else r.1)
    (hk : k' = if r.1.bitLength > p then k + 1 else k) :
    2 ^ (p - 1) ≤ n.toNat ∧ n.toNat < 2 ^ p ∧ (n.toNat : K) * 2 ^ k' = r.1.toNat * 2 ^ k := by
  have hle := h.le
  have hge := h.ge
  have hcarry : r.1.bitLength > p ↔ 2 ^ p ≤ r.1.toNat := by
    rw [WideUnsigned.bitLength_eq, gt_iff_lt, Nat.lt_size]
  have hpow : 2 ^ (p - 1) * 2 = 2 ^ p := Nat.two_pow_pred_mul_two hp
  have hpos := Nat.two_pow_pos (p - 1)
  split at hn
  · next hlarge =>
    rw [if_pos hlarge] at hk
    rw [hcarry] at hlarge
    have hvalue : n.toNat = 2 ^ (p - 1) := by
      rw [hn, WideUnsigned.toNat_shiftRight]
      omega
    refine ⟨by omega, by omega, ?_⟩
    rw [hk, hvalue, show r.1.toNat = 2 ^ (p - 1) * 2 ^ 1 by omega]
    exact cast_mul_zpow_add _ 1 k
  · next hsmall =>
    rw [if_neg hsmall] at hk
    rw [hcarry] at hsmall
    rw [hn, hk]
    exact ⟨hle, by omega, rfl⟩

end Exact

/-! ## The formats -/

section Formats

variable (format : FloatingFormat)

theorem fractionBits_formatOf : (formatOf format).fractionBits = Ieee.fractionBits format := by
  cases format <;> rfl

theorem minimumExponent_formatOf :
    (formatOf format).minimumExponent = Ieee.minimumExponent format := by
  cases format <;> rfl

theorem maximumExponent_formatOf :
    (formatOf format).maximumExponent = Ieee.maximumExponent format := by
  cases format <;> rfl

theorem bias_formatOf : (formatOf format).bias = Ieee.bias format := by
  cases format <;> rfl

theorem fractionMask_formatOf :
    (formatOf format).fractionMask.toNat = 2 ^ Ieee.fractionBits format - 1 := by
  cases format <;> rfl

theorem two_le_precision : 2 ≤ Ieee.precision format := by
  cases format <;> decide

/-! ### Results have the width of the format -/

theorem toNat_signBits_lt (sign : Bool) :
    (signBits (formatOf format) sign).toNat < 2 ^ Ieee.width format := by
  cases format <;> cases sign <;> decide

theorem toNat_or_lt {n : ℕ} {a b : BitVec 64} (ha : a.toNat < 2 ^ n) (hb : b.toNat < 2 ^ n) :
    (a ||| b).toNat < 2 ^ n := by
  rw [BitVec.toNat_or]
  exact Nat.or_lt_two_pow ha hb

theorem packNormal_bits_lt (sign : Bool) (m : WideUnsigned) (bitLength : ℕ) (k : ℤ) (tiny : Bool)
    (rounding : FloatingRoundingMode) :
    (packNormal (formatOf format) sign m bitLength k tiny rounding).bits.toNat <
      2 ^ Ieee.width format := by
  have hsign := toNat_signBits_lt format sign
  have hfraction : (formatOf format).fractionMask.toNat < 2 ^ Ieee.width format := by
    cases format <;> decide
  rw [packNormal]
  dsimp only
  generalize decide ((normalizeTo m bitLength ((formatOf format).fractionBits + 1) sign
    rounding).1.bitLength > (formatOf format).fractionBits + 1) = carried
  generalize (if carried = true then k + 1 else k) = k'
  split
  · split <;> cases format <;> cases sign <;> decide
  · next hmost =>
    refine toNat_or_lt (toNat_or_lt hsign ?_) ?_
    · rw [maximumExponent_formatOf, Ieee.maximumExponent, not_lt] at hmost
      have hfield : ∀ n : ℕ, n < 2 ^ Ieee.exponentBits format →
          (BitVec.ofNat 64 n <<< (formatOf format).fractionBits).toNat < 2 ^ Ieee.width format := by
        intro n hn
        rw [fractionBits_formatOf, BitVec.toNat_shiftLeft, BitVec.toNat_ofNat, Nat.shiftLeft_eq]
        refine lt_of_le_of_lt (Nat.mod_le _ _) ?_
        calc n % 2 ^ 64 * 2 ^ Ieee.fractionBits format ≤ n * 2 ^ Ieee.fractionBits format :=
              Nat.mul_le_mul_right _ (Nat.mod_le _ _)
          _ < 2 ^ Ieee.exponentBits format * 2 ^ Ieee.fractionBits format :=
              Nat.mul_lt_mul_of_pos_right hn (Nat.two_pow_pos _)
          _ ≤ 2 ^ Ieee.width format := by
              rw [← Nat.pow_add]
              exact Nat.pow_le_pow_right (by decide) (by rw [Ieee.width]; omega)
      refine hfield _ ?_
      have hbias := Ieee.two_mul_bias format
      have hpos := Ieee.bias_pos format
      rw [bias_formatOf]
      omega
    · rw [BitVec.toNat_and]
      exact lt_of_le_of_lt Nat.and_le_right hfraction

theorem packSubnormal_bits_lt (sign : Bool) (m : WideUnsigned) (e : ℤ) (tiny : Bool)
    (rounding : FloatingRoundingMode) :
    (packSubnormal (formatOf format) sign m e tiny rounding).bits.toNat <
      2 ^ Ieee.width format := by
  have hnormal : (1#64 <<< (formatOf format).fractionBits).toNat < 2 ^ Ieee.width format := by
    cases format <;> decide
  have hclamp : ∀ n : BitVec 64, (if n ≥ 1#64 <<< (formatOf format).fractionBits then
      1#64 <<< (formatOf format).fractionBits else n).toNat < 2 ^ Ieee.width format := by
    intro n
    split
    · exact hnormal
    · next hlt => exact (BitVec.lt_def.1 (BitVec.not_le.1 hlt)).trans hnormal
  exact toNat_or_lt (toNat_signBits_lt format sign) (hclamp _)

end Formats

section Pack

variable (format : FloatingFormat) (sign : Bool) (m : WideUnsigned) (e : ℤ)
  (rounding : FloatingRoundingMode)

/-- The digits of the magnitude and the exponent of the last one. -/
def normalized : WideUnsigned × Bool :=
  normalizeTo m m.toNat.size (Ieee.precision format) sign rounding

def lastExponent : ℤ := e + m.toNat.size - Ieee.precision format

/-- What the magnitude rounds to if the exponent has no bounds. -/
def unboundedRounding : ℚ :=
  (normalized format sign m rounding).1.toNat * 2 ^ lastExponent format m e

variable {m e} {K : Type*} [Field K] [LinearOrder K] [IsStrictOrderedRing K] {x : K}

theorem normalized_spec (hm : m.toNat ≠ 0) (h : Sticky x m.toNat e)
    (henough : Enough x m.toNat e (Ieee.precision format)) :
    Normalized x (Ieee.precision format) (lastExponent format m e)
      (rounding.mode.magnitude sign) (normalized format sign m rounding) := by
  refine normalizeTo_spec hm h (two_le_precision format) ?_ henough sign rounding
  cases format <;> decide

/-- The digits stand for a rational number. -/
theorem normalized_rat (hm : m.toNat ≠ 0) :
    Normalized ((m.toNat : ℚ) * 2 ^ e) (Ieee.precision format) (lastExponent format m e)
      (rounding.mode.magnitude sign) (normalized format sign m rounding) :=
  normalized_spec format sign rounding hm (Or.inl rfl) (Or.inl rfl)

/-- The core's test for underflow compares exponents. -/
theorem tinyAfterUnboundedRounding_iff (hm : m.toNat ≠ 0) :
    tinyAfterUnboundedRounding (formatOf format) sign m e rounding = true ↔
      unboundedRounding format sign m e rounding < Ieee.minimumNormal format := by
  have hspec := normalized_rat (e := e) format sign rounding hm
  have hnonzero : m.zero = false := by
    rw [Bool.eq_false_iff, ne_eq, WideUnsigned.zero_iff]
    exact hm
  obtain ⟨hle, hlt, hvalue⟩ := hspec.carried (Nat.le_add_left 1 _) rfl rfl
  rw [tinyAfterUnboundedRounding, hnonzero, if_neg (by decide), unboundedRounding, ← hvalue,
    Ieee.minimumNormal, binade_lt_iff hle hlt, decide_eq_true_eq, fractionBits_formatOf,
    minimumExponent_formatOf, WideUnsigned.bitLength_eq m]
  show (if (normalized format sign m rounding).1.bitLength > Ieee.precision format then _
      else _) < _
    ↔ _
  rw [lastExponent]
  split <;> omega

/-! ## Results -/

theorem decode_overflow :
    Ieee.decode format (if overflowToInfinity rounding sign then infinity (formatOf format) sign
      else signBits (formatOf format) sign |||
        (((exponentAllOnes (formatOf format) - 1#64) <<< (formatOf format).fractionBits) |||
          (formatOf format).fractionMask)) =
      Ieee.overflowed format rounding.mode sign := by
  have hinfinity := Ieee.decode_infinity format sign
  have hmaximum := Ieee.decode_maximumFinite format sign
  cases rounding <;> cases sign <;> first | exact hinfinity | exact hmaximum

theorem overflowed_ne {magnitude : ℚ} (h : Ieee.maximumFinite format < magnitude) :
    Ieee.overflowed format rounding.mode sign ≠ .finite sign magnitude := by
  have hfinite : ∀ negative, Ieee.Datum.finite negative (Ieee.maximumFinite format) ≠
      .finite sign magnitude := by
    intro negative heq
    exact h.ne (Ieee.Datum.finite.inj heq).2
  cases rounding <;> cases sign <;> first | exact hfinite _ | exact Ieee.Datum.noConfusion

theorem maximumFinite_mem :
    (Ieee.maximumFinite format : K) ∈
      Grid (Ieee.precision format) (Ieee.leastExponent format) := by
  have hcast : (Ieee.maximumFinite format : K) = ((2 ^ Ieee.precision format - 1 : ℕ) : K) *
      2 ^ (Ieee.maximumExponent format - Ieee.fractionBits format) := by
    rw [Ieee.maximumFinite]
    push_cast
    rfl
  rw [hcast]
  refine Grid.mem (Nat.sub_lt (Nat.two_pow_pos _) (by decide)) (WithBot.coe_le_coe.2 ?_)
  cases format <;> decide

/-- The flags of a result that has not overflowed. -/
def finiteFlags (inexact tiny : Bool) : BitVec 8 :=
  if inexact then
    FloatingExceptionFlag.inexact ||| (if tiny then FloatingExceptionFlag.underflow else 0#8)
  else 0#8

theorem getLsbD_finiteFlags (inexact tiny : Bool) :
    (finiteFlags inexact tiny).getLsbD 0 = inexact ∧
      (finiteFlags inexact tiny).getLsbD 1 = (inexact && tiny) ∧
      ∀ i, 2 ≤ i → (finiteFlags inexact tiny).getLsbD i = false := by
  have hlt : (finiteFlags inexact tiny).toNat < 2 ^ 2 := by
    cases inexact <;> cases tiny <;> decide
  refine ⟨?_, ?_, fun i hi ↦ ?_⟩
  · cases inexact <;> cases tiny <;> rfl
  · cases inexact <;> cases tiny <;> rfl
  · exact Nat.testBit_lt_two_pow (hlt.trans_le (Nat.pow_le_pow_right (by decide) hi))

variable {format sign rounding}

section Delivered

variable {rounded unbounded : ℚ} {result : FloatingResult}
  (hrounds : IsRounding (Grid (Ieee.precision format) (Ieee.leastExponent format))
    (EvenIn (Ieee.precision format) (Ieee.leastExponent format)) x (rounded : K)
    (rounding.mode.magnitude sign))
  (hunbounded : IsRounding (Grid (Ieee.precision format) ⊥) (EvenIn (Ieee.precision format) ⊥)
    x (unbounded : K) (rounding.mode.magnitude sign))
  (hnonneg : 0 ≤ rounded ∧ 0 ≤ unbounded)
  (hwidth : result.bits.toNat < 2 ^ Ieee.width format)

include hrounds hunbounded hnonneg hwidth

theorem rounded_finite {inexact tiny : Bool}
    (hvalue : Ieee.decode format result.bits = .finite sign rounded)
    (hle : rounded ≤ Ieee.maximumFinite format)
    (hflags : result.flags = finiteFlags inexact tiny)
      (hinexact : inexact = true ↔ (rounded : K) ≠ x)
    (htiny : tiny = true ↔ unbounded < Ieee.minimumNormal format) :
    Ieee.Rounded format rounding.mode sign x rounded unbounded result := by
  obtain ⟨hzero, hone, hhigh⟩ := getLsbD_finiteFlags inexact tiny
  have hdiffers : (∀ v, Ieee.decode format result.bits = .finite sign v → (v : K) ≠ x) ↔
      inexact = true := by
    rw [hinexact, hvalue]
    constructor
    · exact fun hall ↦ hall rounded rfl
    · intro hne v hv
      rw [← (Ieee.Datum.finite.inj hv).2]
      exact hne
  refine ⟨hwidth, hrounds.signed, hunbounded.signed, hnonneg, ?_, ?_, ?_, ?_, fun hlt ↦ ?_,
    fun i hi ↦ ?_⟩
  · rw [hvalue, if_neg hle.not_gt]
  · rw [hflags, hzero, hdiffers]
  · rw [hflags, hone, hzero, Bool.and_eq_true, htiny]
  · rw [hflags, hhigh 2 le_rfl]
    simpa using hle
  · exact absurd hlt hle.not_gt
  · rw [hflags, hhigh i (by omega)]

theorem rounded_overflow (hx : 0 ≤ x)
    (hvalue : Ieee.decode format result.bits = Ieee.overflowed format rounding.mode sign)
    (hlt : Ieee.maximumFinite format < rounded)
    (hnormal : ¬unbounded < Ieee.minimumNormal format)
    (hflags : result.flags = FloatingExceptionFlag.overflow ||| FloatingExceptionFlag.inexact) :
    Ieee.Rounded format rounding.mode sign x rounded unbounded result := by
  have hlarge : (Ieee.maximumFinite format : K) < x := by
    by_contra hle
    have hmax := hrounds.le_of_le hx (maximumFinite_mem format) (not_lt.1 hle)
    exact hlt.not_ge (Rat.cast_le.1 hmax)
  have hdiffers : ∀ v, Ieee.decode format result.bits = .finite sign v → (v : K) ≠ x := by
    rintro v hv rfl
    rw [hvalue] at hv
    exact overflowed_ne format sign rounding (Rat.cast_lt.1 hlarge) hv
  have hbound : result.flags.toNat < 2 ^ 3 := by
    rw [hflags]
    decide
  have hinexact : result.flags.getLsbD 0 = true := by
    rw [hflags]
    rfl
  refine ⟨hwidth, hrounds.signed, hunbounded.signed, hnonneg, ?_, iff_of_true hinexact hdiffers,
    ?_, ?_, fun _ ↦ hinexact, fun i hi ↦ ?_⟩
  · rw [hvalue, if_pos hlt]
  · exact iff_of_false (by rw [hflags]; decide) fun h ↦ hnormal h.2
  · exact iff_of_true (by rw [hflags]; rfl) hlt
  · exact Nat.testBit_lt_two_pow (hbound.trans_le (Nat.pow_le_pow_right (by decide) hi))

end Delivered

/-- The digits of a normal number without the first one. -/
theorem low64_and_fractionMask {n : WideUnsigned} (hle : 2 ^ Ieee.fractionBits format ≤ n.toNat)
    (hlt : n.toNat < 2 ^ Ieee.precision format) :
    n.low64 &&& (formatOf format).fractionMask =
      BitVec.ofNat 64 (n.toNat - 2 ^ Ieee.fractionBits format) := by
  have hwidth := Ieee.width_le format
  have hprecision : 2 ^ Ieee.precision format ≤ 2 ^ 64 :=
    Nat.pow_le_pow_right (by decide) (by rw [Ieee.precision]; omega)
  have hpow : 2 ^ Ieee.precision format = 2 ^ Ieee.fractionBits format * 2 := Nat.pow_succ ..
  refine BitVec.eq_of_toNat_eq ?_
  rw [BitVec.toNat_and, WideUnsigned.toNat_low64, fractionMask_formatOf,
    Nat.and_two_pow_sub_one_eq_mod,
    BitVec.toNat_ofNat, Nat.mod_eq_of_lt (by omega : n.toNat < 2 ^ 64),
      Nat.mod_eq_of_lt (b := 2 ^ 64) (by omega),
    Nat.mod_eq_sub_mod hle, Nat.mod_eq_of_lt (by omega)]

theorem lastExponent_add (format : FloatingFormat) (m : WideUnsigned) (e : ℤ) :
    lastExponent format m e + Ieee.fractionBits format = e + m.bitLength - 1 := by
  rw [lastExponent, Ieee.precision, WideUnsigned.bitLength_eq]
  push_cast
  ring

/-- `packNormal` in the terms of the format. -/
theorem packNormal_eq {e : ℤ} (tiny : Bool) {n : WideUnsigned} {k : ℤ}
    (hn : n = if (normalized format sign m rounding).1.bitLength > Ieee.precision format then
      (normalized format sign m rounding).1.shiftRight 1 else (normalized format sign m rounding).1)
    (hk : k = if (normalized format sign m rounding).1.bitLength > Ieee.precision format then
      lastExponent format m e + 1 else lastExponent format m e) :
    packNormal (formatOf format) sign m m.bitLength (e + m.bitLength - 1) tiny rounding =
      if Ieee.maximumExponent format - Ieee.fractionBits format < k then
        { bits := if overflowToInfinity rounding sign then infinity (formatOf format) sign
            else signBits (formatOf format) sign |||
              (((exponentAllOnes (formatOf format) - 1#64) <<< (formatOf format).fractionBits) |||
                (formatOf format).fractionMask),
          flags := FloatingExceptionFlag.overflow ||| FloatingExceptionFlag.inexact }
      else
        { bits := signBits (formatOf format) sign |||
            (BitVec.ofNat 64 (k + Ieee.fractionBits format + Ieee.bias format).toNat <<<
              Ieee.fractionBits format) ||| (n.low64 &&& (formatOf format).fractionMask),
          flags := finiteFlags (normalized format sign m rounding).2 tiny } := by
  have hnormalize : normalizeTo m m.bitLength ((formatOf format).fractionBits + 1) sign rounding =
      normalized format sign m rounding := by
    rw [WideUnsigned.bitLength_eq, fractionBits_formatOf]
    rfl
  have hexponent : (if (normalized format sign m rounding).1.bitLength > Ieee.precision format then
      e + (m.bitLength : ℤ) - 1 + 1 else e + m.bitLength - 1) =
      k + Ieee.fractionBits format := by
    rw [← lastExponent_add format, hk]
    split <;> omega
  have hflags : ∀ inexact : Bool, (if (inexact && tiny) = true then
      (if inexact then FloatingExceptionFlag.inexact else 0#8) ||| FloatingExceptionFlag.underflow
      else if inexact then FloatingExceptionFlag.inexact else 0#8) = finiteFlags inexact tiny := by
    intro inexact
    cases inexact <;> cases tiny <;> rfl
  have hprecision : (formatOf format).fractionBits + 1 = Ieee.precision format :=
    congrArg (· + 1) (fractionBits_formatOf format)
  rw [packNormal, hnormalize, hprecision]
  dsimp only
  simp only [decide_eq_true_eq]
  rw [hexponent, hflags, ← hn, maximumExponent_formatOf, bias_formatOf]
  by_cases hlarge : Ieee.maximumExponent format - Ieee.fractionBits format < k
  · rw [if_pos hlarge, if_pos (by omega)]
    split <;> rfl
  · rw [if_neg hlarge, if_neg (by omega), fractionBits_formatOf]

theorem cast_unboundedRounding : (unboundedRounding format sign m e rounding : K) =
    (normalized format sign m rounding).1.toNat * 2 ^ lastExponent format m e := by
  rw [unboundedRounding]
  push_cast
  rfl

theorem unboundedRounding_nonneg (format : FloatingFormat) (sign : Bool) (m : WideUnsigned) (e : ℤ)
    (rounding : FloatingRoundingMode) : 0 ≤ unboundedRounding format sign m e rounding := by
  rw [unboundedRounding]
  positivity

theorem packNormal_rounded (hm : m.toNat ≠ 0) (hx : 0 ≤ x) (h : Sticky x m.toNat e)
    (henough : Enough x m.toNat e (Ieee.precision format))
    (hmin : Ieee.minimumExponent format ≤ e + m.bitLength - 1) :
    Ieee.Rounded format rounding.mode sign x (unboundedRounding format sign m e rounding)
      (unboundedRounding format sign m e rounding)
      (packNormal (formatOf format) sign m m.bitLength (e + m.bitLength - 1)
        (tinyAfterUnboundedRounding (formatOf format) sign m e rounding) rounding) := by
  have hspec := normalized_spec format sign rounding hm h henough
  have htiny := tinyAfterUnboundedRounding_iff (e := e) format sign rounding hm
  have hlast := lastExponent_add format m e
  have hleast : Ieee.leastExponent format ≤ lastExponent format m e := by
    rw [Ieee.leastExponent]
    omega
  have hnonneg := unboundedRounding_nonneg format sign m e rounding
  have hrounds := hspec.rounds _ (WithBot.coe_le_coe.2 hleast)
  have hunbounded := hspec.rounds ⊥ bot_le
  have hinexact := hspec.inexact
  obtain ⟨n, hn⟩ : ∃ n, n = if (normalized format sign m rounding).1.bitLength >
      Ieee.precision format then (normalized format sign m rounding).1.shiftRight 1
      else (normalized format sign m rounding).1 := ⟨_, rfl⟩
  obtain ⟨k, hk⟩ : ∃ k, k = if (normalized format sign m rounding).1.bitLength >
      Ieee.precision format then lastExponent format m e + 1
      else lastExponent format m e := ⟨_, rfl⟩
  obtain ⟨hle, hlt, hvalue⟩ := (normalized_rat format sign rounding hm).carried
    (Nat.le_add_left 1 _) hn hk
  have hlarger : lastExponent format m e ≤ k := by
    rw [hk]
    split <;> omega
  have hoverflow := largest_lt_iff (K := ℚ) (k := k) hle hlt
    (Ieee.maximumExponent format - Ieee.fractionBits format)
  have hunderflow := binade_lt_iff (K := ℚ) (k := k) hle hlt (Ieee.minimumExponent format)
  rw [← unboundedRounding] at hvalue
  rw [← cast_unboundedRounding] at hrounds hunbounded hinexact
  rw [hvalue] at hoverflow hunderflow
  have hwidth := packNormal_bits_lt format sign m m.bitLength (e + m.bitLength - 1)
    (tinyAfterUnboundedRounding (formatOf format) sign m e rounding) rounding
  rw [packNormal_eq _ hn hk] at hwidth ⊢
  split
  · next hlarge =>
    rw [if_pos hlarge] at hwidth
    refine rounded_overflow hrounds hunbounded ⟨hnonneg, hnonneg⟩ hwidth hx
      (decode_overflow format sign rounding) (hoverflow.2 hlarge) ?_ rfl
    rw [Ieee.minimumNormal, hunderflow, Ieee.precision]
    push_cast
    omega
  · next hsmall =>
    rw [if_neg hsmall] at hwidth
    refine rounded_finite hrounds hunbounded ⟨hnonneg, hnonneg⟩ hwidth ?_
      (not_lt.1 (hoverflow.not.2 hsmall)) rfl hinexact htiny
    have hdecode := Ieee.decode_normal format sign (k := k + Ieee.fractionBits format) hle hlt
      (by omega) (by omega)
    rw [Int.add_sub_cancel, hvalue] at hdecode
    rw [low64_and_fractionMask hle hlt]
    exact hdecode

/-! ## Subnormal numbers -/

/-- The magnitude in units of the least exponent. -/
def quantized (format : FloatingFormat) (sign : Bool) (m : WideUnsigned) (e : ℤ)
    (rounding : FloatingRoundingMode) : WideUnsigned × Bool :=
  if e < Ieee.leastExponent format then
    roundedRightShift m (Ieee.leastExponent format - e).toNat sign rounding false
  else if e > Ieee.leastExponent format then
    (m.shiftLeft (e - Ieee.leastExponent format).toNat, false)
  else (m, false)

theorem quantized_spec (sign : Bool) (rounding : FloatingRoundingMode) (h : Sticky x m.toNat e)
    (henough : Enough x m.toNat e (Ieee.precision format))
    (hmin : e + m.bitLength - 1 < Ieee.minimumExponent format) :
    (quantized format sign m e rounding).1.toNat ≤ 2 ^ Ieee.fractionBits format ∧
      IsRounding (Grid (Ieee.precision format) (Ieee.leastExponent format))
        (EvenIn (Ieee.precision format) (Ieee.leastExponent format)) x
        ((quantized format sign m e rounding).1.toNat * 2 ^ Ieee.leastExponent format)
        (rounding.mode.magnitude sign) ∧
      ((quantized format sign m e rounding).2 = true ↔
        ((quantized format sign m e rounding).1.toNat : K) * 2 ^ Ieee.leastExponent format ≠
          x) := by
  have hprecision : 2 ^ Ieee.precision format = 2 ^ Ieee.fractionBits format * 2 := Nat.pow_succ ..
  have hpos := Nat.two_pow_pos (Ieee.fractionBits format)
  have hhigh := Nat.lt_size_self m.toNat
  rw [WideUnsigned.bitLength_eq] at hmin
  have hunit : Ieee.minimumExponent format = Ieee.leastExponent format + Ieee.fractionBits format :=
    (Int.sub_add_cancel ..).symm
  rw [hunit] at hmin
  -- nothing is lost if the exponent is not too small
  have hexact : ∀ {n : WideUnsigned}, n.toNat < 2 ^ Ieee.fractionBits format →
      (n.toNat : K) * 2 ^ Ieee.leastExponent format = x →
      n.toNat ≤ 2 ^ Ieee.fractionBits format ∧
        IsRounding (Grid (Ieee.precision format) (Ieee.leastExponent format))
          (EvenIn (Ieee.precision format) (Ieee.leastExponent format)) x
          (n.toNat * 2 ^ Ieee.leastExponent format) (rounding.mode.magnitude sign) ∧
        (false = true ↔ (n.toNat : K) * 2 ^ Ieee.leastExponent format ≠ x) := by
    intro n hn hvalue
    rw [hvalue]
    refine ⟨hn.le, ?_, by simp⟩
    rw [← hvalue]
    exact isRounding_self (Grid.mem (by omega) le_rfl) _
  rw [quantized]
  split
  · next hlow =>
    obtain ⟨s, hs⟩ := Int.eq_ofNat_of_zero_le (Int.sub_nonneg.2 hlow.le)
    have hleast : Ieee.leastExponent format = e + s := by omega
    obtain ⟨hvalue, -⟩ := roundedRightShift_eq m s sign rounding
    have hbounds := (rounding.mode.magnitude sign).shift_bounds m.toNat s
    have hsmall : m.toNat / 2 ^ s < 2 ^ Ieee.fractionBits format := by
      rw [Nat.div_lt_iff_lt_mul (Nat.two_pow_pos s), ← Nat.pow_add]
      exact hhigh.trans_le (Nat.pow_le_pow_right (by decide) (by omega))
    have hs' : x = m.toNat * 2 ^ e ∨ 2 ≤ s := by
      refine henough.imp_right fun hle ↦ ?_
      rw [Ieee.precision] at hle
      omega
    rw [hs, Int.toNat_natCast]
    refine ⟨?_, ?_, ?_⟩
    · rw [hvalue]
      omega
    · rw [hvalue, hleast]
      exact Grid.isRounding_shift (two_le_precision format) h hs' (by omega) le_rfl (Or.inl rfl) _
    · rw [hleast]
      exact roundedRightShift_inexact h hs' sign rounding
  · next hlow =>
    obtain ⟨s, hs⟩ := Int.eq_ofNat_of_zero_le (Int.sub_nonneg.2 (not_lt.1 hlow))
    obtain rfl : e = Ieee.leastExponent format + s := by omega
    have hx : x = m.toNat * 2 ^ (Ieee.leastExponent format + s) := by
      refine henough.resolve_right fun hle ↦ ?_
      rw [Ieee.precision] at hle
      omega
    have hsmall : m.toNat * 2 ^ s < 2 ^ Ieee.fractionBits format := by
      calc m.toNat * 2 ^ s < 2 ^ m.toNat.size * 2 ^ s :=
            Nat.mul_lt_mul_of_pos_right hhigh (Nat.two_pow_pos s)
        _ = 2 ^ (m.toNat.size + s) := (Nat.pow_add ..).symm
        _ ≤ 2 ^ Ieee.fractionBits format := Nat.pow_le_pow_right (by decide) (by omega)
    have hroom : 2 ^ Ieee.fractionBits format ≤ 2 ^ WideUnsigned.width :=
      Nat.pow_le_pow_right (by decide) (by cases format <;> decide)
    have hshifted := WideUnsigned.toNat_shiftLeft (hsmall.trans_le hroom)
    rw [hs, Int.toNat_natCast]
    split
    · refine hexact ?_ ?_
      · rwa [hshifted]
      · rw [hshifted, hx, cast_mul_zpow_add]
    · next hhigh' =>
      obtain rfl : s = 0 := by omega
      rw [Nat.pow_zero, Nat.mul_one] at hsmall
      refine hexact hsmall ?_
      rw [hx, Nat.cast_zero, add_zero]

/-- A subnormal number that has rounded up to the end of its binade is the least normal one. -/
theorem decode_quantized {n : WideUnsigned} (hn : n.toNat ≤ 2 ^ Ieee.fractionBits format) :
    Ieee.decode format (signBits (formatOf format) sign |||
        (if n.low64 ≥ 1#64 <<< (formatOf format).fractionBits then
          1#64 <<< (formatOf format).fractionBits else n.low64)) =
      .finite sign (n.toNat * 2 ^ Ieee.leastExponent format) := by
  have hlt : n.toNat < 2 ^ 64 := hn.trans_lt
    (Nat.pow_lt_pow_right (by decide) (by cases format <;> decide))
  have hlow : n.low64.toNat = n.toNat := by
    rw [WideUnsigned.toNat_low64, Nat.mod_eq_of_lt hlt]
  have hone : (1#64 <<< (formatOf format).fractionBits).toNat = 2 ^ Ieee.fractionBits format := by
    cases format <;> rfl
  have hcarry : n.low64 ≥ 1#64 <<< (formatOf format).fractionBits ↔
      2 ^ Ieee.fractionBits format ≤ n.toNat := by
    rw [ge_iff_le, BitVec.le_def, hone, hlow]
  by_cases hlarge : 2 ^ Ieee.fractionBits format ≤ n.toNat
  · rw [if_pos (hcarry.2 hlarge), fractionBits_formatOf, le_antisymm hn hlarge,
      ← Ieee.decode_minimumNormal, Ieee.encode, BitVec.or_zero]
  · rw [if_neg (hcarry.not.2 hlarge), ← Ieee.decode_subnormal format sign (not_le.1 hlarge),
      Ieee.encode, BitVec.zero_shiftLeft, BitVec.or_zero, ← hlow, BitVec.ofNat_toNat,
      BitVec.setWidth_eq]

theorem packSubnormal_rounded (hm : m.toNat ≠ 0) (h : Sticky x m.toNat e)
    (henough : Enough x m.toNat e (Ieee.precision format))
    (hmin : e + m.bitLength - 1 < Ieee.minimumExponent format) :
    Ieee.Rounded format rounding.mode sign x
      ((quantized format sign m e rounding).1.toNat * 2 ^ Ieee.leastExponent format)
      (unboundedRounding format sign m e rounding)
      (packSubnormal (formatOf format) sign m e
        (tinyAfterUnboundedRounding (formatOf format) sign m e rounding) rounding) := by
  have hspec := normalized_spec format sign rounding hm h henough
  have hunbounded := hspec.rounds ⊥ bot_le
  rw [← cast_unboundedRounding] at hunbounded
  have htiny := tinyAfterUnboundedRounding_iff (e := e) format sign rounding hm
  obtain ⟨hle, hrounds, hinexact⟩ := quantized_spec sign rounding h henough hmin
  have hquantized : packSubnormal (formatOf format) sign m e
      (tinyAfterUnboundedRounding (formatOf format) sign m e rounding) rounding =
      { bits := signBits (formatOf format) sign |||
          (if (quantized format sign m e rounding).1.low64 ≥ 1#64 <<< (formatOf format).fractionBits
            then 1#64 <<< (formatOf format).fractionBits
            else (quantized format sign m e rounding).1.low64),
        flags := finiteFlags (quantized format sign m e rounding).2
          (tinyAfterUnboundedRounding (formatOf format) sign m e rounding) } := by
    rw [quantized, Ieee.leastExponent, ← minimumExponent_formatOf, ← fractionBits_formatOf]
    rfl
  have hcast : (((quantized format sign m e rounding).1.toNat * 2 ^ Ieee.leastExponent format : ℚ) :
      K) = (quantized format sign m e rounding).1.toNat * 2 ^ Ieee.leastExponent format := by
    push_cast
    rfl
  rw [← hcast] at hrounds hinexact
  have hwidth := packSubnormal_bits_lt format sign m e
    (tinyAfterUnboundedRounding (formatOf format) sign m e rounding) rounding
  rw [hquantized] at hwidth ⊢
  refine rounded_finite hrounds hunbounded ⟨by positivity, unboundedRounding_nonneg ..⟩ hwidth
    (decode_quantized hle) ?_ rfl hinexact htiny
  have hdigits : 2 ^ Ieee.fractionBits format ≤ 2 ^ Ieee.precision format - 1 := by
    cases format <;> decide
  have hexponent : Ieee.leastExponent format ≤
      Ieee.maximumExponent format - Ieee.fractionBits format := by
    cases format <;> decide
  exact mul_le_mul (by exact_mod_cast hle.trans hdigits)
    (zpow_le_zpow_right₀ (by norm_num) hexponent) (by positivity) (by positivity)

/-! ## `roundAndPack` -/

/-- A magnitude that stands for `x` with enough digits is rounded as `x` has to be. -/
theorem roundAndPack_rounded (format : FloatingFormat) (sign : Bool)
    (rounding : FloatingRoundingMode) (hm : m.toNat ≠ 0) (hx : 0 ≤ x) (h : Sticky x m.toNat e)
    (henough : Enough x m.toNat e (Ieee.precision format)) :
    ∃ rounded unbounded : ℚ, Ieee.Rounded format rounding.mode sign x rounded unbounded
      (roundAndPack (formatOf format) sign m e rounding) := by
  have hzero : m.zero = false := by
    rw [Bool.eq_false_iff, ne_eq, WideUnsigned.zero_iff]
    exact hm
  rw [roundAndPack, hzero, if_neg (by decide), minimumExponent_formatOf]
  dsimp only
  by_cases hnormal : e + m.bitLength - 1 ≥ Ieee.minimumExponent format
  · rw [if_pos hnormal]
    exact ⟨_, _, packNormal_rounded hm hx h henough hnormal⟩
  · rw [if_neg hnormal]
    exact ⟨_, _, packSubnormal_rounded hm h henough (not_le.1 hnormal)⟩

end Pack

/-- **Rounding.**  A magnitude that is not zero is rounded as IEEE 754 asks, whatever its exponent:
in the normal range, among the subnormal numbers, across their upper end, and past the largest
finite number, with the flags. -/
theorem roundAndPack_delivered (format : FloatingFormat) (sign : Bool) (magnitude : WideUnsigned)
    (exponent : ℤ) (rounding : FloatingRoundingMode) (hnonzero : magnitude.toNat ≠ 0) :
    ∃ rounded unbounded : ℚ,
      Ieee.Delivered format rounding.mode sign (magnitude.toNat * 2 ^ exponent) rounded unbounded
        (roundAndPack (formatOf format) sign magnitude exponent rounding) := by
  obtain ⟨rounded, unbounded, h⟩ := roundAndPack_rounded (K := ℚ) (e := exponent) format sign
    rounding hnonzero (by positivity) (Or.inl rfl) (Or.inl rfl)
  exact ⟨rounded, unbounded, h.delivered⟩

/-- One and a half units of the last place of binary32, half of which is lost. -/
theorem roundAndPack_delivered_tie :
    (WideUnsigned.ofUInt64 3#64).toNat ≠ 0 ∧ ∃ rounded unbounded : ℚ,
      Ieee.Delivered .single .nearestEven true ((WideUnsigned.ofUInt64 3#64).toNat * 2 ^ (-150 : ℤ))
        rounded unbounded
        (roundAndPack singleFormat true (.ofUInt64 3#64) (-150) .nearestTiesToEven) :=
  have h : (WideUnsigned.ofUInt64 3#64).toNat ≠ 0 := by
    rw [WideUnsigned.toNat_ofUInt64]
    decide
  ⟨h, roundAndPack_delivered .single true (.ofUInt64 3#64) (-150) .nearestTiesToEven h⟩

end Rvemu
