import Mathlib.Tactic.Common
import Mathlib.Algebra.Group.Nat.Defs

/-!
# Bits of words

Facts about single bits of 64-bit words under arithmetic and masking, used wherever a register keeps
some of its bits across an update.
-/

set_option autoImplicit false

namespace Bits

variable {w : ℕ}

/-! ## The lowest bit -/

theorem getLsbD_zero_eq (x : BitVec w) : x.getLsbD 0 = decide (x.toNat % 2 = 1) :=
  Nat.testBit_zero _

theorem getLsbD_zero_add (x y : BitVec 64) :
    (x + y).getLsbD 0 = (x.getLsbD 0 ^^ y.getLsbD 0) := by
  rw [getLsbD_zero_eq, getLsbD_zero_eq, getLsbD_zero_eq, BitVec.toNat_add]
  rcases Nat.mod_two_eq_zero_or_one x.toNat with hx | hx <;>
    rcases Nat.mod_two_eq_zero_or_one y.toNat with hy | hy <;>
      simp only [hx, hy] <;> simp <;> omega

theorem getLsbD_zero_sub (x y : BitVec 64) :
    (x - y).getLsbD 0 = (x.getLsbD 0 ^^ y.getLsbD 0) := by
  rw [getLsbD_zero_eq, getLsbD_zero_eq, getLsbD_zero_eq, BitVec.toNat_sub]
  have hlt := y.isLt
  rcases Nat.mod_two_eq_zero_or_one x.toNat with hx | hx <;>
    rcases Nat.mod_two_eq_zero_or_one y.toNat with hy | hy <;>
      simp only [hx, hy] <;> simp <;> omega

/-- Masking with one tests the lowest bit. -/
theorem and_one_eq_zero_iff (x : BitVec 64) : x &&& 1#64 = 0#64 ↔ x.getLsbD 0 = false := by
  constructor
  · intro h
    have := congrArg (·.getLsbD 0) h
    simpa using this
  · intro h
    apply BitVec.eq_of_getLsbD_eq
    intro i hi
    rw [BitVec.getLsbD_and, BitVec.getLsbD_one]
    by_cases hz : i = 0
    · subst hz
      rw [h, Bool.false_and, BitVec.getLsbD_zero]
    · simp [hz]

/-! ## Masks -/

/-- The bits of a constant, from its first sixty-four. -/
theorem getLsbD_const {c : BitVec 64} {p : ℕ → Bool} (h : ∀ i, i < 64 → c.getLsbD i = p i)
    (h' : ∀ i, 64 ≤ i → p i = false) (i : ℕ) : c.getLsbD i = p i := by
  rcases Nat.lt_or_ge i 64 with hi | hi
  · exact h i hi
  · rw [BitVec.getLsbD_of_ge _ _ hi, h' i hi]

/-- Masking with the low `k` ones is a remainder. -/
theorem toNat_and_mask (x : BitVec 64) {k : ℕ} (hk : k < 64) :
    (x &&& ((1#64 <<< k) - 1#64)).toNat = x.toNat % 2 ^ k := by
  have hpow : 2 ^ k < 2 ^ 64 := Nat.pow_lt_pow_right (by decide) hk
  have hpos : 0 < 2 ^ k := Nat.two_pow_pos k
  have hmask : ((1#64 <<< k) - 1#64).toNat = 2 ^ k - 1 := by
    rw [BitVec.toNat_sub, BitVec.toNat_shiftLeft, Nat.shiftLeft_eq]
    simp only [BitVec.toNat_ofNat]
    rw [show 1 % 2 ^ 64 = 1 from rfl, Nat.one_mul, Nat.mod_eq_of_lt hpow]
    omega
  rw [BitVec.toNat_and, hmask, Nat.and_two_pow_sub_one_eq_mod]

/-! ## Flipping a bit -/

theorem xor_eq_add {x y : BitVec w} (h : x &&& y = 0#w) : x ^^^ y = x + y := by
  rw [BitVec.add_eq_or_of_and_eq_zero x y h]
  ext i hi
  have hbit := congrArg (·.getLsbD i) h
  simp only [BitVec.getLsbD_and, BitVec.getLsbD_zero] at hbit
  rw [BitVec.getElem_xor, BitVec.getElem_or, ← BitVec.getLsbD_eq_getElem hi,
    ← BitVec.getLsbD_eq_getElem hi]
  cases hx : x.getLsbD i <;> cases hy : y.getLsbD i <;> simp_all

/-- Flipping a bit that is clear adds it; flipping one that is set subtracts it. -/
theorem xor_twoPow (x : BitVec w) {k : ℕ} (hk : k < w) :
    x ^^^ BitVec.twoPow w k =
      if x.getLsbD k then x - BitVec.twoPow w k else x + BitVec.twoPow w k := by
  have hclear : ∀ y : BitVec w, y.getLsbD k = false → y &&& BitVec.twoPow w k = 0#w := by
    intro y hy
    rw [BitVec.and_twoPow, hy]
    rfl
  split
  · next hx =>
    have hy : (x ^^^ BitVec.twoPow w k).getLsbD k = false := by
      rw [BitVec.getLsbD_xor, hx, BitVec.getLsbD_twoPow]
      simp [hk]
    have hadd := xor_eq_add (hclear _ hy)
    rw [BitVec.xor_assoc, BitVec.xor_self, BitVec.xor_zero] at hadd
    nth_rewrite 2 [hadd]
    exact (BitVec.add_sub_cancel _ _).symm
  · next hx => exact xor_eq_add (hclear x (by simpa using hx))

/-! ## Two-bit fields -/

theorem getLsbD_field_two (x : BitVec 64) (k i : ℕ) :
    ((x >>> k) &&& 3#64).getLsbD i = (x.getLsbD (k + i) && decide (i < 2)) := by
  have hmask : ∀ i, (3#64).getLsbD i = decide (i < 2) :=
    getLsbD_const (by decide) (by simp; omega)
  rw [BitVec.getLsbD_and, BitVec.getLsbD_ushiftRight, hmask]

/-- A two-bit field is the value with its two bits. -/
theorem field_two_eq_iff (x : BitVec 64) (k : ℕ) {v : BitVec 64}
    (hv : ∀ i, 2 ≤ i → v.getLsbD i = false) :
    (x >>> k) &&& 3#64 = v ↔ x.getLsbD k = v.getLsbD 0 ∧ x.getLsbD (k + 1) = v.getLsbD 1 := by
  constructor
  · rintro rfl
    rw [getLsbD_field_two, getLsbD_field_two]
    simp
  · rintro ⟨h0, h1⟩
    apply BitVec.eq_of_getLsbD_eq
    intro i hi
    rw [getLsbD_field_two]
    rcases Nat.lt_or_ge i 2 with h2 | h2
    · rcases (by omega : i = 0 ∨ i = 1) with rfl | rfl
      · simp [h0]
      · simp [h1]
    · rw [hv i h2, decide_eq_false (Nat.not_lt.2 h2), Bool.and_false]

/-- The small constants have no higher bits. -/
theorem getLsbD_small {v : BitVec 64} (h : v.toNat < 4) (i : ℕ) (hi : 2 ≤ i) :
    v.getLsbD i = false := by
  rw [BitVec.getLsbD, Nat.testBit_lt_two_pow]
  exact Nat.lt_of_lt_of_le h (Nat.pow_le_pow_right (by decide : 0 < 2) hi)

theorem field_two_ne_zero (x : BitVec 64) (k : ℕ) :
    (((x >>> k) &&& 3#64) != 0#64) = (x.getLsbD k || x.getLsbD (k + 1)) := by
  rw [Bool.eq_iff_iff, bne_iff_ne, ne_eq, field_two_eq_iff x k (getLsbD_small (by decide))]
  cases x.getLsbD k <;> cases x.getLsbD (k + 1) <;> decide

theorem field_two_eq_three (x : BitVec 64) (k : ℕ) :
    (((x >>> k) &&& 3#64) == 3#64) = (x.getLsbD k && x.getLsbD (k + 1)) := by
  rw [Bool.eq_iff_iff, beq_iff_eq, field_two_eq_iff x k (getLsbD_small (by decide))]
  cases x.getLsbD k <;> cases x.getLsbD (k + 1) <;> decide

theorem field_two_eq_two (x : BitVec 64) (k : ℕ) :
    (x >>> k) &&& 3#64 = 2#64 ↔ x.getLsbD k = false ∧ x.getLsbD (k + 1) = true :=
  field_two_eq_iff x k (getLsbD_small (by decide))

/-- Two-bit fields with the same bits are the same. -/
theorem field_two_congr {x y : BitVec 64} {k : ℕ} (h0 : x.getLsbD k = y.getLsbD k)
    (h1 : x.getLsbD (k + 1) = y.getLsbD (k + 1)) : (x >>> k) &&& 3#64 = (y >>> k) &&& 3#64 := by
  apply BitVec.eq_of_getLsbD_eq
  intro i hi
  rw [getLsbD_field_two, getLsbD_field_two]
  rcases Nat.lt_or_ge i 2 with h2 | h2
  · rcases (by omega : i = 0 ∨ i = 1) with rfl | rfl
    · rw [Nat.add_zero, h0]
    · rw [h1]
  · simp [Nat.not_lt.2 h2]

end Bits
