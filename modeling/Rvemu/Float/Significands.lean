import Rvemu.Float.SoftFloat
import Mathlib.Algebra.Group.Even
import Mathlib.Data.Nat.Sqrt
import Mathlib.Tactic.Linarith
import Mathlib.Tactic.Ring

/-!
# Products, quotients and roots of significands

The three loops of the soft-float core, each with the invariant that carries it: shift-and-add keeps
`result + shifted * rhs`, restoring division keeps `quotient * denominator + remainder` equal to the
digits of the dividend read so far, and the digit-by-digit root keeps `root ^ 2 + remainder` equal
to the pairs of digits of the radicand read so far.
-/

set_option autoImplicit false

namespace Rvemu

namespace WideUnsigned

/-- Setting a bit below the last one that is set. -/
theorem toNat_setBit_of_mul {v : WideUnsigned} {i n : ℕ} (hi : i < width)
    (hv : v.toNat = n * 2 ^ (i + 1)) : (v.setBit i).toNat = (2 * n + 1) * 2 ^ i := by
  have hlt : 2 ^ i < 2 ^ (i + 1) := Nat.pow_lt_pow_right (by decide) (Nat.lt_succ_self i)
  rw [toNat_setBit hi, hv, ← Nat.shiftLeft_eq, ← Nat.shiftLeft_add_eq_or_of_lt hlt,
    Nat.shiftLeft_eq,
    Nat.pow_succ]
  ring

end WideUnsigned

namespace SoftFloat

open WideUnsigned

/-! ## Products -/

theorem toNat_multiplyLoop (rounds : ℕ) : ∀ (result shifted : WideUnsigned) (rhs : BitVec 64),
    rhs.toNat < 2 ^ rounds → shifted.toNat * 2 ^ rounds < 2 ^ width →
    result.toNat + shifted.toNat * rhs.toNat < 2 ^ width →
    (multiplyLoop result shifted rhs rounds).toNat = result.toNat + shifted.toNat * rhs.toNat := by
  induction rounds with
  | zero =>
    intro result shifted rhs hrhs _ _
    rw [Nat.pow_zero] at hrhs
    rw [multiplyLoop, show rhs.toNat = 0 by omega, Nat.mul_zero, Nat.add_zero]
  | succ rounds ih =>
    intro result shifted rhs hrhs hshifted hroom
    rw [multiplyLoop]
    split
    · next hzero =>
      rw [hzero, BitVec.toNat_zero, Nat.mul_zero, Nat.add_zero]
    · next hne =>
      have hpos : rhs.toNat ≠ 0 := fun h ↦ hne (BitVec.eq_of_toNat_eq h)
      have hhalf : (rhs >>> 1).toNat = rhs.toNat / 2 := by
        rw [BitVec.toNat_ushiftRight, Nat.shiftRight_eq_div_pow]
      have hbit : ((rhs &&& 1#64) != 0#64) = decide (rhs.toNat % 2 = 1) := by
        rw [Bool.eq_iff_iff, bne_iff_ne, decide_eq_true_eq, ne_eq, ← BitVec.toNat_inj,
          BitVec.toNat_and]
        simp only [BitVec.toNat_ofNat, Nat.reducePow, Nat.reduceMod, Nat.zero_mod,
          Nat.and_one_is_mod]
        omega
      rw [Nat.pow_succ] at hrhs hshifted
      have hdouble : (shifted.shiftLeft 1).toNat = shifted.toNat * 2 := by
        refine toNat_shiftLeft (lt_of_le_of_lt ?_ hshifted)
        exact Nat.mul_le_mul_left _ (by have := Nat.two_pow_pos rounds; omega)
      have hadd : (if ((rhs &&& 1#64) != 0#64) = true then result.add shifted else result).toNat =
          result.toNat + shifted.toNat * (rhs.toNat % 2) := by
        rw [hbit]
        split
        · next hodd =>
          rw [decide_eq_true_eq] at hodd
          rw [hodd, Nat.mul_one]
          refine toNat_add (lt_of_le_of_lt ?_ hroom)
          exact Nat.add_le_add_left (Nat.le_mul_of_pos_right _ (by omega)) _
        · next heven =>
          rw [decide_eq_true_eq] at heven
          rw [show rhs.toNat % 2 = 0 by omega, Nat.mul_zero, Nat.add_zero]
      have hsplit : shifted.toNat * (rhs.toNat % 2) + shifted.toNat * 2 * (rhs.toNat / 2) =
          shifted.toNat * rhs.toNat := by
        rw [Nat.mul_assoc, ← Nat.mul_add, Nat.mod_add_div]
      rw [ih _ _ _ (by rw [hhalf]; omega) ?_ ?_, hadd, hdouble, hhalf, Nat.add_assoc, hsplit]
      · rw [hdouble, Nat.mul_assoc, Nat.mul_comm 2]
        exact hshifted
      · rwa [hadd, hdouble, hhalf, Nat.add_assoc, hsplit]

theorem toNat_multiplySignificands (lhs rhs : BitVec 64) :
    (multiplySignificands lhs rhs).toNat = lhs.toNat * rhs.toNat := by
  have hlhs := lhs.isLt
  have hrhs := rhs.isLt
  have hwidth : 2 ^ 64 * 2 ^ 64 ≤ 2 ^ width := by
    rw [← Nat.pow_add]
    exact Nat.pow_le_pow_right (by decide) (by decide)
  have hbound : lhs.toNat * 2 ^ 64 < 2 ^ width :=
    lt_of_lt_of_le (Nat.mul_lt_mul_of_pos_right hlhs (Nat.two_pow_pos _)) hwidth
  rw [multiplySignificands, toNat_multiplyLoop 64 _ _ _ hrhs, toNat_ofUInt64, toNat_ofUInt64]
  · rw [BitVec.toNat_zero, Nat.zero_add]
  · rwa [toNat_ofUInt64]
  · rw [toNat_ofUInt64, toNat_ofUInt64, BitVec.toNat_zero, Nat.zero_add]
    exact lt_of_le_of_lt (Nat.mul_le_mul_left _ hrhs.le) hbound

/-! ## Quotients -/

/-- The next digit of a number, read from the top. -/
theorem div_two_pow_eq (n i : ℕ) : n / 2 ^ i = 2 * (n / 2 ^ (i + 1)) + (n.testBit i).toNat := by
  rw [Nat.pow_succ, ← Nat.div_div_eq_div_mul, Nat.testBit_eq_decide_div_mod_eq]
  rcases Nat.mod_two_eq_zero_or_one (n / 2 ^ i) with h | h
  · rw [h]
    show _ = _ + 0
    omega
  · rw [h]
    show _ = _ + 1
    omega

theorem toNat_shiftLeft_or_bit {r : BitVec 64} (hr : r.toNat < 2 ^ 63) (b : Bool) :
    ((r <<< 1) ||| (if b then 1#64 else 0#64)).toNat = 2 * r.toNat + b.toNat := by
  have hshift : (r <<< 1).toNat = r.toNat <<< 1 := by
    rw [BitVec.toNat_shiftLeft, Nat.mod_eq_of_lt]
    rw [Nat.shiftLeft_eq]
    omega
  have hbit : (if b then 1#64 else 0#64).toNat = b.toNat := by cases b <;> rfl
  rw [BitVec.toNat_or, hshift, hbit, ← Nat.shiftLeft_add_eq_or_of_lt (by cases b <;> decide),
    Nat.shiftLeft_eq, Nat.mul_comm]

/-- Restoring division: what has been read of the dividend is quotient times denominator, plus the
remainder. -/
theorem divideLoop_spec {dividend : WideUnsigned} {denominator : BitVec 64}
    (hlt : denominator.toNat < 2 ^ 63) (i : ℕ) : ∀ (s : WideUnsigned × BitVec 64) (q : ℕ),
    i ≤ width → s.1.toNat = q * 2 ^ i →
    q * denominator.toNat + s.2.toNat = dividend.toNat / 2 ^ i → s.2.toNat < denominator.toNat →
    (divideLoop dividend denominator i s).1.toNat * denominator.toNat +
        (divideLoop dividend denominator i s).2.toNat = dividend.toNat ∧
      (divideLoop dividend denominator i s).2.toNat < denominator.toNat := by
  induction i with
  | zero =>
    intro s q _ hq hdiv hr
    rw [Nat.pow_zero, Nat.mul_one] at hq
    rw [Nat.pow_zero, Nat.div_one, ← hq] at hdiv
    exact ⟨hdiv, hr⟩
  | succ i ih =>
    intro s q hi hq hdiv hr
    have hremainder := toNat_shiftLeft_or_bit (hr.trans hlt) (dividend.bit i)
    have hnext := div_two_pow_eq dividend.toNat i
    rw [← bit_eq, ← hdiv] at hnext
    rw [divideLoop]
    generalize (s.2 <<< 1) ||| (if dividend.bit i then 1#64 else 0#64) = remainder at hremainder ⊢
    split
    · next hge =>
      rw [ge_iff_le, BitVec.le_def, hremainder] at hge
      have hsub := BitVec.toNat_sub_of_le (BitVec.le_def.2 (hremainder ▸ hge))
      refine ih _ (2 * q + 1) (by omega) (toNat_setBit_of_mul (by omega) hq) ?_ ?_
      · rw [hsub, hremainder, hnext, Nat.add_mul, Nat.mul_assoc]
        omega
      · rw [hsub, hremainder]
        have : (dividend.bit i).toNat ≤ 1 := Bool.toNat_le _
        omega
    · next hge =>
      rw [ge_iff_le, BitVec.le_def, hremainder] at hge
      refine ih _ (2 * q) (by omega) ?_ ?_ ?_
      · rw [hq, Nat.pow_succ]
        ring
      · rw [hremainder, hnext, Nat.mul_assoc]
        omega
      · rw [hremainder]
        omega

theorem divideSignificands_spec {numerator denominator : BitVec 64} {precision : ℕ}
    (hpos : 0 < denominator.toNat) (hlt : denominator.toNat < 2 ^ 63)
    (hroom : numerator.toNat * 2 ^ precision < 2 ^ width) :
    (divideSignificands numerator denominator precision).1.toNat =
        numerator.toNat * 2 ^ precision / denominator.toNat ∧
      ((divideSignificands numerator denominator precision).2 = true ↔
        numerator.toNat * 2 ^ precision % denominator.toNat ≠ 0) := by
  have hdividend : ((WideUnsigned.ofUInt64 numerator).shiftLeft precision).toNat =
      numerator.toNat * 2 ^ precision := by
    rw [toNat_shiftLeft (by rwa [toNat_ofUInt64]), toNat_ofUInt64]
  rw [divideSignificands]
  dsimp only
  generalize (WideUnsigned.ofUInt64 numerator).shiftLeft precision = dividend at hdividend ⊢
  have hzero : dividend.toNat / 2 ^ dividend.bitLength = 0 := by
    rw [bitLength_eq]
    exact Nat.div_eq_of_lt (Nat.lt_size_self _)
  have hsize : dividend.bitLength ≤ width := by
    rw [bitLength_eq]
    exact Nat.size_le.2 dividend.toNat_lt
  obtain ⟨hvalue, hr⟩ := divideLoop_spec hlt dividend.bitLength
    (.ofUInt64 0#64, 0#64) 0 hsize (by rw [toNat_ofUInt64, Nat.zero_mul]; rfl)
    (by rw [hzero, Nat.zero_mul]; rfl) hpos
  rw [← hdividend, ← hvalue, Nat.mul_comm _ denominator.toNat, Nat.mul_add_div hpos,
    Nat.div_eq_of_lt hr, Nat.add_zero, Nat.mul_add_mod, Nat.mod_eq_of_lt hr, bne_iff_ne,
    ne_eq, ne_eq,
    ← BitVec.toNat_inj]
  exact ⟨rfl, Iff.rfl⟩

/-! ## Roots -/

/-- Two more digits of a number, read from the top. -/
theorem div_four_pow_eq (n i : ℕ) : n / 2 ^ (i * 2) =
    4 * (n / 2 ^ ((i + 1) * 2)) + 2 * (n.testBit (i * 2 + 1)).toNat +
    (n.testBit (i * 2)).toNat := by
  have hlow := div_two_pow_eq n (i * 2)
  have hhigh := div_two_pow_eq n (i * 2 + 1)
  rw [show (i + 1) * 2 = i * 2 + 1 + 1 by omega]
  omega

/-- Appending two digits to a number with room for them. -/
theorem toNat_appendBits {v : WideUnsigned} (hroom : v.toNat * 2 ^ 2 < 2 ^ width)
    (high low : Bool) :
    (let remainder := v.shiftLeft 2
     let remainder := if low then remainder.setBit 0 else remainder
     if high then remainder.setBit 1 else remainder).toNat =
      4 * v.toNat + 2 * high.toNat + low.toNat := by
  have hor : ∀ {n b : ℕ}, b < 2 ^ 2 → n * 2 ^ 2 ||| b = n * 2 ^ 2 + b := fun hb ↦ by
    rw [← Nat.shiftLeft_eq, Nat.shiftLeft_add_eq_or_of_lt hb]
  have hshift := toNat_shiftLeft hroom
  have hzero : 0 < width := by decide
  have hone : 1 < width := by decide
  cases high <;> cases low
  all_goals
    dsimp only
    simp only [if_true, if_false, Bool.false_eq_true, toNat_setBit hzero, toNat_setBit hone, hshift,
      Nat.or_assoc]
  · simp
    omega
  · rw [hor (by decide)]
    simp
    omega
  · rw [hor (by decide)]
    simp
    omega
  · rw [hor (by decide)]
    simp
    omega

theorem squareRootLoop_spec {radicand : WideUnsigned} (i : ℕ) : ∀ s : WideUnsigned × WideUnsigned,
    s.1.toNat ^ 2 + s.2.toNat = radicand.toNat / 2 ^ (i * 2) → s.2.toNat ≤ 2 * s.1.toNat →
    (squareRootLoop radicand i s).1.toNat ^ 2 + (squareRootLoop radicand i s).2.toNat =
        radicand.toNat ∧
      (squareRootLoop radicand i s).2.toNat ≤ 2 * (squareRootLoop radicand i s).1.toNat := by
  induction i with
  | zero =>
    intro s hs hr
    rw [Nat.zero_mul, Nat.pow_zero, Nat.div_one] at hs
    exact ⟨hs, hr⟩
  | succ i ih =>
    intro s hs hr
    -- the digits still to come leave the root two bits below the width
    have hroom := radicand.toNat_lt
    have hfour : ∀ w : ℕ, 2 ≤ w → 2 ^ (w - 2) * 2 ^ 2 = 2 ^ w := fun _ hw ↦
      Nat.pow_sub_mul_pow 2 hw
    have hwidth := hfour width (by decide)
    have hnext := div_four_pow_eq radicand.toNat i
    rw [← hs, ← bit_eq, ← bit_eq] at hnext
    have hle : radicand.toNat / 2 ^ (i * 2) ≤ radicand.toNat := Nat.div_le_self _ _
    have hself : s.1.toNat ≤ s.1.toNat ^ 2 := Nat.le_self_pow (by decide) _
    have hremainder := toNat_appendBits (v := s.2) (by omega) (radicand.bit (i * 2 + 1))
      (radicand.bit (i * 2))
    have hroot : (s.1.shiftLeft 1).toNat = s.1.toNat * 2 := toNat_shiftLeft (by omega)
    have hdouble : ((s.1.shiftLeft 1).shiftLeft 1).toNat = s.1.toNat * 4 := by
      rw [toNat_shiftLeft (by rw [hroot]; omega), hroot]
      omega
    have htrial : (((s.1.shiftLeft 1).shiftLeft 1).add (.ofUInt64 1#64)).toNat =
        s.1.toNat * 4 + 1 := by
      rw [toNat_add (by rw [hdouble, toNat_ofUInt64]; show _ + 1 < _; omega), hdouble,
        toNat_ofUInt64]
      rfl
    have hsucc : ((s.1.shiftLeft 1).add (.ofUInt64 1#64)).toNat = s.1.toNat * 2 + 1 := by
      rw [toNat_add (by rw [hroot, toNat_ofUInt64]; show _ + 1 < _; omega), hroot, toNat_ofUInt64]
      rfl
    rw [squareRootLoop]
    dsimp only at hremainder ⊢
    generalize (if radicand.bit (i * 2 + 1) = true then
      (if radicand.bit (i * 2) = true then (s.2.shiftLeft 2).setBit 0 else s.2.shiftLeft 2).setBit 1
      else if radicand.bit (i * 2) = true then (s.2.shiftLeft 2).setBit 0 else s.2.shiftLeft 2) =
      remainder at hremainder ⊢
    split
    · next hge =>
      rw [compare_eq, htrial, ne_eq, Nat.compare_eq_lt, Nat.not_lt] at hge
      have hsub := toNat_subtract (htrial ▸ hge)
      refine ih _ ?_ ?_
      · rw [hsucc, hsub, htrial, hnext]
        have hsquare : (s.1.toNat * 2 + 1) ^ 2 = 4 * s.1.toNat ^ 2 + (s.1.toNat * 4 + 1) := by ring
        omega
      · rw [hsucc, hsub, htrial]
        have := Bool.toNat_le (radicand.bit (i * 2))
        have := Bool.toNat_le (radicand.bit (i * 2 + 1))
        omega
    · next hge =>
      rw [compare_eq, htrial, ne_eq, Nat.compare_eq_lt, not_not] at hge
      refine ih _ ?_ ?_
      · rw [hroot, hnext]
        have hsquare : (s.1.toNat * 2) ^ 2 = 4 * s.1.toNat ^ 2 := by ring
        show _ + remainder.toNat = _
        omega
      · rw [hroot]
        show remainder.toNat ≤ _
        omega

theorem squareRootSignificand_spec {significand : BitVec 64} {shiftPairs : ℕ}
    (hroom : significand.toNat * 2 ^ (shiftPairs * 2) < 2 ^ width) :
    (squareRootSignificand significand shiftPairs).1.toNat =
        (significand.toNat * 2 ^ (shiftPairs * 2)).sqrt ∧
      ((squareRootSignificand significand shiftPairs).2 = true ↔
        (squareRootSignificand significand shiftPairs).1.toNat ^ 2 ≠
          significand.toNat * 2 ^ (shiftPairs * 2)) := by
  have hradicand : ((WideUnsigned.ofUInt64 significand).shiftLeft (shiftPairs * 2)).toNat =
      significand.toNat * 2 ^ (shiftPairs * 2) := by
    rw [toNat_shiftLeft (by rwa [toNat_ofUInt64]), toNat_ofUInt64]
  rw [← hradicand]
  rw [squareRootSignificand]
  dsimp only
  generalize (WideUnsigned.ofUInt64 significand).shiftLeft (shiftPairs * 2) = radicand
  have hzero : radicand.toNat / 2 ^ ((radicand.bitLength + 1) / 2 * 2) = 0 := by
    rw [bitLength_eq]
    refine Nat.div_eq_of_lt (lt_of_lt_of_le (Nat.lt_size_self _) ?_)
    exact Nat.pow_le_pow_right (by decide) (by omega)
  obtain ⟨hvalue, hr⟩ := squareRootLoop_spec ((radicand.bitLength + 1) / 2)
    (.ofUInt64 0#64, .ofUInt64 0#64) (by rw [hzero, toNat_ofUInt64]; rfl)
    (by rw [toNat_ofUInt64]; exact Nat.zero_le _)
  generalize squareRootLoop radicand ((radicand.bitLength + 1) / 2)
    (.ofUInt64 0#64, .ofUInt64 0#64) = rooted at hvalue hr ⊢
  refine ⟨?_, ?_⟩
  · rw [← hvalue, Nat.eq_sqrt]
    constructor
    · rw [← Nat.pow_two]
      exact Nat.le_add_right _ _
    · have hsquare : (rooted.1.toNat + 1) * (rooted.1.toNat + 1) =
          rooted.1.toNat ^ 2 + (2 * rooted.1.toNat + 1) := by ring
      omega
  · rw [Bool.not_eq_true', ← Bool.not_eq_true, zero_iff]
    omega

/-! ## The three loops -/

/-- Products are exact; quotients and roots are rounded down and reported inexact exactly when
something is left over, whenever the window holds the dividend and the radicand. -/
theorem significandLoops_exact :
    (∀ lhs rhs : BitVec 64, (multiplySignificands lhs rhs).toNat = lhs.toNat * rhs.toNat) ∧
    (∀ (numerator denominator : BitVec 64) (precision : ℕ), denominator ≠ 0#64 →
      denominator.toNat < 2 ^ 63 → numerator.toNat * 2 ^ precision < 2 ^ width →
      (divideSignificands numerator denominator precision).1.toNat =
          numerator.toNat * 2 ^ precision / denominator.toNat ∧
        ((divideSignificands numerator denominator precision).2 = true ↔
          ¬ denominator.toNat ∣ numerator.toNat * 2 ^ precision)) ∧
    (∀ (significand : BitVec 64) (shiftPairs : ℕ), significand.toNat * 4 ^ shiftPairs < 2 ^ width →
      (squareRootSignificand significand shiftPairs).1.toNat =
          (significand.toNat * 4 ^ shiftPairs).sqrt ∧
        ((squareRootSignificand significand shiftPairs).2 = true ↔
          ¬ IsSquare (significand.toNat * 4 ^ shiftPairs))) := by
  refine ⟨toNat_multiplySignificands, ?_, ?_⟩
  · intro numerator denominator precision hne hlt hroom
    have hpos : 0 < denominator.toNat :=
      Nat.pos_of_ne_zero fun hzero ↦ hne (BitVec.eq_of_toNat_eq hzero)
    rw [Nat.dvd_iff_mod_eq_zero]
    exact divideSignificands_spec hpos hlt hroom
  · intro significand shiftPairs hroom
    have hpairs : 4 ^ shiftPairs = 2 ^ (shiftPairs * 2) := by
      rw [Nat.mul_comm, Nat.pow_mul]
    rw [hpairs] at hroom ⊢
    obtain ⟨hroot, hinexact⟩ := squareRootSignificand_spec hroom
    -- a square is the square of its own root
    have hsquare : IsSquare (significand.toNat * 2 ^ (shiftPairs * 2)) ↔
        (significand.toNat * 2 ^ (shiftPairs * 2)).sqrt ^ 2 =
          significand.toNat * 2 ^ (shiftPairs * 2) := by
      rw [← Nat.exists_mul_self', isSquare_iff_exists_sq]
      exact exists_congr fun _ ↦ eq_comm
    rw [hinexact, hroot, hsquare]
    exact ⟨rfl, Iff.rfl⟩

theorem significandLoops_exact_seven :
    (divideSignificands 7#64 3#64 4).1.toNat = 7 * 2 ^ 4 / 3 ∧
      (squareRootSignificand 7#64 2).1.toNat = (7 * 4 ^ 2).sqrt := by
  have hroom : 7 * 2 ^ 4 < 2 ^ width :=
    lt_of_lt_of_le (b := 2 ^ 8) (by decide) (Nat.pow_le_pow_right (by decide) (by decide))
  exact ⟨(significandLoops_exact.2.1 7#64 3#64 4 (by decide) (by decide) hroom).1,
    (significandLoops_exact.2.2 7#64 2 hroom).1⟩

end SoftFloat

end Rvemu
