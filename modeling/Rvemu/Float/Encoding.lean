import Rvemu.Float.Ieee

/-!
# Encodings put together

The core builds an encoding from a sign mask, a shifted exponent and a fraction.  The three do not
overlap, so the fields of the encoding are what went in.
-/

set_option autoImplicit false

namespace Rvemu

open SoftFloat

namespace Ieee

variable (format : FloatingFormat) (negative : Bool) {exponent fraction : ℕ}

/-- An encoding from its fields. -/
def encode (exponent fraction : ℕ) : BitVec 64 :=
  signBits (formatOf format) negative ||| (BitVec.ofNat 64 exponent <<< fractionBits format)
    ||| BitVec.ofNat 64 fraction

theorem width_le : fractionBits format + exponentBits format < 64 := by
  cases format <;> decide

theorem toNat_signBits : (signBits (formatOf format) negative).toNat =
    negative.toNat <<< (fractionBits format + exponentBits format) := by
  cases format <;> cases negative <;> decide

theorem toNat_encode (he : exponent < 2 ^ exponentBits format)
    (hf : fraction < 2 ^ fractionBits format) :
    (encode format negative exponent fraction).toNat =
      (negative.toNat * 2 ^ exponentBits format + exponent) * 2 ^ fractionBits format +
        fraction := by
  have hwidth := width_le format
  have hshift : exponent <<< fractionBits format <
      2 ^ (fractionBits format + exponentBits format) := by
    rw [Nat.shiftLeft_eq, Nat.pow_add, Nat.mul_comm]
    exact Nat.mul_lt_mul_of_pos_left he (Nat.two_pow_pos _)
  have hlt : 2 ^ (fractionBits format + exponentBits format) ≤ 2 ^ 64 :=
    Nat.pow_le_pow_right (by decide) hwidth.le
  have hexponent : (BitVec.ofNat 64 exponent <<< fractionBits format).toNat =
      exponent <<< fractionBits format := by
    have hle : 2 ^ exponentBits format ≤ 2 ^ 64 := Nat.pow_le_pow_right (by decide) (by omega)
    rw [BitVec.toNat_shiftLeft, BitVec.toNat_ofNat, Nat.mod_eq_of_lt (he.trans_le hle),
      Nat.mod_eq_of_lt (hshift.trans_le hlt)]
  have hfraction : (BitVec.ofNat 64 fraction).toNat = fraction := by
    have hle : 2 ^ fractionBits format ≤ 2 ^ 64 := Nat.pow_le_pow_right (by decide) (by omega)
    rw [BitVec.toNat_ofNat, Nat.mod_eq_of_lt (hf.trans_le hle)]
  rw [encode, BitVec.toNat_or, BitVec.toNat_or, toNat_signBits, hexponent, hfraction,
    ← Nat.shiftLeft_add_eq_or_of_lt hshift]
  have hhigh : negative.toNat <<< (fractionBits format + exponentBits format) +
      exponent <<< fractionBits format =
      (negative.toNat * 2 ^ exponentBits format + exponent) <<< fractionBits format := by
    rw [Nat.shiftLeft_eq, Nat.shiftLeft_eq, Nat.shiftLeft_eq, Nat.pow_add]
    ring
  rw [hhigh, ← Nat.shiftLeft_add_eq_or_of_lt hf, Nat.shiftLeft_eq]

/-- The fields of an encoding. -/
theorem decode_encode (he : exponent < 2 ^ exponentBits format)
    (hf : fraction < 2 ^ fractionBits format) :
    decode format (encode format negative exponent fraction) =
      if exponent = 2 ^ exponentBits format - 1 then
        if fraction = 0 then .infinite negative else .nan
      else if exponent = 0 then .finite negative (fraction * 2 ^ leastExponent format)
      else
        .finite negative ((2 ^ fractionBits format + fraction : ℕ) *
          2 ^ ((exponent : ℤ) - bias format - fractionBits format)) := by
  have hn := toNat_encode format negative he hf
  generalize encode format negative exponent fraction = bits at hn ⊢
  have hfraction : (bits.extractLsb' 0 (fractionBits format)).toNat = fraction := by
    rw [BitVec.extractLsb'_toNat, Nat.shiftRight_zero, hn, Nat.mul_add_mod', Nat.mod_eq_of_lt hf]
  have hdiv : bits.toNat >>> fractionBits format =
      negative.toNat * 2 ^ exponentBits format + exponent := by
    rw [Nat.shiftRight_eq_div_pow, hn, Nat.add_comm, Nat.add_mul_div_right _ _ (Nat.two_pow_pos _),
      Nat.div_eq_of_lt hf, Nat.zero_add]
  have hexponent : (bits.extractLsb' (fractionBits format) (exponentBits format)).toNat =
      exponent := by
    rw [BitVec.extractLsb'_toNat, hdiv, Nat.mul_add_mod', Nat.mod_eq_of_lt he]
  have hsign : bits.getLsbD (fractionBits format + exponentBits format) = negative := by
    rw [BitVec.getLsbD, Nat.testBit_eq_decide_div_mod_eq, Nat.pow_add, ← Nat.div_div_eq_div_mul,
      ← Nat.shiftRight_eq_div_pow bits.toNat, hdiv, Nat.add_comm,
      Nat.add_mul_div_right _ _ (Nat.two_pow_pos _), Nat.div_eq_of_lt he, Nat.zero_add]
    cases negative <;> rfl
  rw [decode, hfraction, hexponent, hsign]

/-! ## Numbers -/

theorem two_mul_bias : 2 * bias format + 2 = 2 ^ exponentBits format := by
  cases format <;> rfl

theorem bias_pos : 0 < bias format := by
  cases format <;> decide

/-- A normal number, from its digits and the exponent of the first one. -/
theorem decode_normal {n : ℕ} {k : ℤ} (hn : 2 ^ fractionBits format ≤ n)
    (hn' : n < 2 ^ precision format) (hmin : minimumExponent format ≤ k)
    (hmax : k ≤ maximumExponent format) :
    decode format
        (encode format negative (k + bias format).toNat (n - 2 ^ fractionBits format)) =
      .finite negative (n * 2 ^ (k - fractionBits format)) := by
  have hbias := two_mul_bias format
  rw [minimumExponent] at hmin
  rw [maximumExponent] at hmax
  rw [precision, Nat.pow_succ] at hn'
  rw [decode_encode format negative (by omega) (by omega), if_neg (by omega), if_neg (by omega),
    Nat.add_sub_cancel' hn, Int.toNat_of_nonneg (by omega), Int.add_sub_cancel]

/-- A subnormal number; the next after the last is the least normal one. -/
theorem decode_subnormal {n : ℕ} (hn : n < 2 ^ fractionBits format) :
    decode format (encode format negative 0 n) =
      .finite negative (n * 2 ^ leastExponent format) := by
  have hbias := two_mul_bias format
  rw [decode_encode format negative (by omega) hn, if_neg (by omega), if_pos rfl]

theorem decode_minimumNormal :
    decode format (encode format negative 1 0) =
      .finite negative ((2 ^ fractionBits format : ℕ) * 2 ^ leastExponent format) := by
  have hbias := two_mul_bias format
  have hpos := bias_pos format
  rw [decode_encode format negative (by omega) (Nat.two_pow_pos _), if_neg (by omega),
    if_neg (by omega), Nat.add_zero]
  rfl

theorem decode_infinity :
    decode format (infinity (formatOf format) negative) = .infinite negative := by
  have hinfinity : infinity (formatOf format) negative =
      encode format negative (2 ^ exponentBits format - 1) 0 := by
    cases format <;> cases negative <;> decide
  rw [hinfinity, decode_encode format negative (Nat.sub_lt (Nat.two_pow_pos _) (by decide))
    (Nat.two_pow_pos _), if_pos rfl, if_pos rfl]

theorem decode_maximumFinite :
    decode format (signBits (formatOf format) negative |||
        (((exponentAllOnes (formatOf format) - 1#64) <<< (formatOf format).fractionBits) |||
          (formatOf format).fractionMask)) =
      .finite negative (maximumFinite format) := by
  have hmaximum : signBits (formatOf format) negative |||
      (((exponentAllOnes (formatOf format) - 1#64) <<< (formatOf format).fractionBits) |||
        (formatOf format).fractionMask) =
      encode format negative (maximumExponent format + bias format).toNat
        ((2 ^ precision format - 1) - 2 ^ fractionBits format) := by
    cases format <;> cases negative <;> decide
  have hpos := Nat.two_pow_pos (fractionBits format)
  have hprecision : 2 ^ precision format = 2 ^ fractionBits format * 2 := Nat.pow_succ ..
  have hmin : minimumExponent format ≤ maximumExponent format := by
    cases format <;> decide
  rw [hmaximum, decode_normal format negative (by omega) (by omega) hmin le_rfl]
  rfl

end Ieee

end Rvemu
