import Mathlib.Data.Int.Cast.Lemmas
import Rvemu.Lib.Limbs

/-!
# The 72-limb integer of the soft-float core

`WideUnsigned` carries its length, so its operations are the limb operations at that length.  The
lemmas say what each does to `toNat`, modulo `2 ^ 4608`; the callers, which leave room, use the
versions of `shiftLeft`, `add` and `subtract` that lose nothing.
-/

set_option autoImplicit false

namespace Rvemu

/-- The fixed size of a window. -/
def wideLimbs : ℕ := 72

/-- A number of 72 limbs of 64 bits. -/
structure WideUnsigned where
  limbs : List (BitVec 64)
  length_eq : limbs.length = wideLimbs
  deriving DecidableEq, Repr

namespace WideUnsigned

/-- The number of bits of the window. -/
def width : ℕ := 64 * wideLimbs

/-- A number that fits in the lowest limb. -/
def ofUInt64 (value : BitVec 64) : WideUnsigned where
  limbs := value :: List.replicate 71 0#64
  length_eq := rfl

/-- Is every limb zero? -/
def zero (v : WideUnsigned) : Bool := Limbs.isZero v.limbs

/-- The position above the highest bit. -/
def bitLength (v : WideUnsigned) : ℕ := Limbs.bitLength v.limbs

def bit (v : WideUnsigned) (index : ℕ) : Bool := Limbs.bit v.limbs index

def setBit (v : WideUnsigned) (index : ℕ) : WideUnsigned where
  limbs := Limbs.setBit v.limbs index
  length_eq := by rw [Limbs.length_setBit, v.length_eq]

/-- Bits that leave the window are lost. -/
def shiftLeft (v : WideUnsigned) (amount : ℕ) : WideUnsigned where
  limbs := Limbs.shiftLeft v.limbs amount
  length_eq := by rw [Limbs.length_shiftLeft, v.length_eq]

/-- Digits below the lowest are lost. -/
def shiftRight (v : WideUnsigned) (amount : ℕ) : WideUnsigned where
  limbs := Limbs.shiftRight v.limbs amount
  length_eq := by rw [Limbs.length_shiftRight, v.length_eq]

/-- Is a bit set below that position? -/
def anyLowBits (v : WideUnsigned) (count : ℕ) : Bool := Limbs.anyLowBits v.limbs count

/-- From the highest limb down. -/
def compare (v other : WideUnsigned) : Ordering := Limbs.compare v.limbs other.limbs

/-- The carry out of the window is lost. -/
def add (v other : WideUnsigned) : WideUnsigned where
  limbs := Limbs.addCarry v.limbs other.limbs 0#64
  length_eq := by rw [Limbs.length_addCarry (by rw [v.length_eq, other.length_eq]), v.length_eq]

/-- The borrow out of the window is lost. -/
def subtract (v other : WideUnsigned) : WideUnsigned where
  limbs := Limbs.subBorrow v.limbs other.limbs 0#64
  length_eq := by rw [Limbs.length_subBorrow (by rw [v.length_eq, other.length_eq]), v.length_eq]

/-- The lowest limb. -/
def low64 (v : WideUnsigned) : BitVec 64 := Limbs.limb v.limbs 0

/-! ## Values -/

/-- The number the limbs stand for. -/
def toNat (v : WideUnsigned) : ℕ := Limbs.value v.limbs

theorem width_eq (v : WideUnsigned) : 64 * v.limbs.length = width := by rw [v.length_eq, width]

/-- A window holds less than its width allows. -/
theorem toNat_lt (v : WideUnsigned) : v.toNat < 2 ^ width := by
  have := Limbs.value_lt v.limbs
  rwa [v.width_eq] at this

@[simp] theorem toNat_ofUInt64 (x : BitVec 64) : (ofUInt64 x).toNat = x.toNat := by
  rw [toNat, ofUInt64, Limbs.value, Limbs.value_replicate_zero]
  rfl

theorem zero_iff (v : WideUnsigned) : v.zero = true ↔ v.toNat = 0 := Limbs.isZero_iff v.limbs

/-- The bit length is that of the number. -/
theorem bitLength_eq (v : WideUnsigned) : v.bitLength = v.toNat.size := Limbs.bitLength_eq v.limbs

theorem bit_eq (v : WideUnsigned) (i : ℕ) : v.bit i = v.toNat.testBit i := Limbs.bit_eq v.limbs i

theorem toNat_shiftLeft_mod (v : WideUnsigned) (amount : ℕ) :
    (v.shiftLeft amount).toNat = v.toNat * 2 ^ amount % 2 ^ width := by
  rw [toNat, shiftLeft, Limbs.value_shiftLeft, v.width_eq, toNat]

/-- A shift that fits is a multiplication. -/
theorem toNat_shiftLeft {v : WideUnsigned} {amount : ℕ} (h : v.toNat * 2 ^ amount < 2 ^ width) :
    (v.shiftLeft amount).toNat = v.toNat * 2 ^ amount := by
  rw [toNat_shiftLeft_mod, Nat.mod_eq_of_lt h]

@[simp] theorem toNat_shiftRight (v : WideUnsigned) (amount : ℕ) :
    (v.shiftRight amount).toNat = v.toNat / 2 ^ amount := Limbs.value_shiftRight v.limbs amount

theorem anyLowBits_eq (v : WideUnsigned) (count : ℕ) :
    v.anyLowBits count = decide (v.toNat % 2 ^ count ≠ 0) := Limbs.anyLowBits_eq v.limbs count

theorem compare_eq (v other : WideUnsigned) :
    v.compare other = Ord.compare v.toNat other.toNat :=
  Limbs.compare_eq (by rw [v.length_eq, other.length_eq])

theorem length_eq_length (v other : WideUnsigned) : v.limbs.length = other.limbs.length := by
  rw [v.length_eq, other.length_eq]

theorem toNat_add_mod (v other : WideUnsigned) :
    (v.add other).toNat = (v.toNat + other.toNat) % 2 ^ width := by
  have h := Limbs.value_addCarry_mod (length_eq_length v other) (c := 0#64) (by decide)
  rwa [v.width_eq] at h

/-- A sum that fits is the sum. -/
theorem toNat_add {v other : WideUnsigned} (h : v.toNat + other.toNat < 2 ^ width) :
    (v.add other).toNat = v.toNat + other.toNat := by
  rw [toNat_add_mod, Nat.mod_eq_of_lt h]

theorem toNat_subtract_mod (v other : WideUnsigned) :
    (v.subtract other).toNat = (v.toNat + 2 ^ width - other.toNat) % 2 ^ width := by
  have h := Limbs.value_subBorrow_mod (length_eq_length v other) (c := 0#64) (by decide)
  rwa [v.width_eq] at h

/-- A difference is exact when there is one. -/
theorem toNat_subtract {v other : WideUnsigned} (h : other.toNat ≤ v.toNat) :
    (v.subtract other).toNat = v.toNat - other.toNat := by
  rw [toNat_subtract_mod, Nat.sub_add_comm h, Nat.add_mod_right,
    Nat.mod_eq_of_lt (Nat.lt_of_le_of_lt (Nat.sub_le _ _) v.toNat_lt)]

theorem toNat_setBit_ite (v : WideUnsigned) (i : ℕ) :
    (v.setBit i).toNat = if i < width then v.toNat ||| 2 ^ i else v.toNat := by
  have h := Limbs.value_setBit v.limbs i
  rwa [v.width_eq] at h

theorem toNat_setBit {v : WideUnsigned} {i : ℕ} (hi : i < width) :
    (v.setBit i).toNat = v.toNat ||| 2 ^ i := by
  rw [toNat_setBit_ite, if_pos hi]

/-- Every number below the width is the value of exactly one `WideUnsigned`. -/
theorem existsUnique_toNat {n : ℕ} (h : n < 2 ^ width) : ∃! v : WideUnsigned, v.toNat = n := by
  rw [width] at h
  refine ⟨⟨Limbs.ofNat wideLimbs n, Limbs.length_ofNat _ _⟩, Limbs.value_ofNat h, ?_⟩
  rintro ⟨limbs, hlimbs⟩ hv
  congr 1
  refine Limbs.value_injective (by rw [hlimbs, Limbs.length_ofNat]) ?_
  rw [Limbs.value_ofNat h]
  exact hv

/-- **The naturals modulo `2 ^ 4608`.**  The values are the residues, one each, and every operation
is the one on the numbers; comparison, the right shift and the queries lose nothing. -/
theorem naturals_modulo :
    (∀ n < 2 ^ width, ∃! v : WideUnsigned, v.toNat = n) ∧
    ∀ (v other : WideUnsigned) (n : ℕ),
      v.toNat < 2 ^ width ∧
      (v.add other).toNat = (v.toNat + other.toNat) % 2 ^ width ∧
      ((v.subtract other).toNat : ℤ) = ((v.toNat : ℤ) - other.toNat) % 2 ^ width ∧
      v.compare other = Ord.compare v.toNat other.toNat ∧
      (v.shiftLeft n).toNat = v.toNat * 2 ^ n % 2 ^ width ∧
      (v.shiftRight n).toNat = v.toNat / 2 ^ n ∧
      v.bit n = v.toNat.testBit n ∧
      (v.setBit n).toNat = (v.toNat ||| 2 ^ n) % 2 ^ width ∧
      v.bitLength = v.toNat.size ∧
      v.anyLowBits n = decide (v.toNat % 2 ^ n ≠ 0) := by
  refine ⟨fun n hn ↦ existsUnique_toNat hn, fun v other n ↦ ⟨v.toNat_lt, toNat_add_mod v other, ?_,
    compare_eq v other, toNat_shiftLeft_mod v n, toNat_shiftRight v n, bit_eq v n, ?_,
    bitLength_eq v, anyLowBits_eq v n⟩⟩
  · have hother := other.toNat_lt
    rw [toNat_subtract_mod, Int.natCast_emod, Nat.cast_sub (by omega), Nat.cast_add, Nat.cast_pow,
      Nat.cast_ofNat, add_sub_right_comm, Int.add_emod_right]
  · refine Nat.eq_of_testBit_eq fun j ↦ ?_
    have hj : width ≤ j → v.toNat.testBit j = false := fun hle ↦
      Nat.testBit_lt_two_pow (Nat.lt_of_lt_of_le v.toNat_lt (Nat.pow_le_pow_right (by decide) hle))
    rw [toNat_setBit_ite, Nat.testBit_mod_two_pow, Nat.testBit_or, Nat.testBit_two_pow]
    split
    · rw [Nat.testBit_or, Nat.testBit_two_pow]
      by_cases hlt : j < width
      · simp [hlt]
      · simp [hj (by omega), show n ≠ j by omega]
    · by_cases hlt : j < width
      · simp [hlt, show n ≠ j by omega]
      · simp [hj (by omega), hlt]

theorem toNat_low64 (v : WideUnsigned) : v.low64.toNat = v.toNat % 2 ^ 64 := by
  rw [low64, toNat]
  cases h : v.limbs with
  | nil =>
    have := v.length_eq
    simp [h, wideLimbs] at this
  | cons x l =>
    have hx := x.isLt
    rw [Limbs.value]
    show x.toNat = _
    omega

end WideUnsigned

end Rvemu
