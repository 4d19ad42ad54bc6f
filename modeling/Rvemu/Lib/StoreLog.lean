import Rvemu.Lib.Bytes
import Mathlib.Data.Nat.Digits.Defs

/-!
# The log of the stores to a byte array

What an array of bytes is for, without the array: a store writes the digits of a number to the base
256, the lowest first, and a byte is what the latest store that covers it wrote there.  The words of
`Bytes` are these numbers.
-/

set_option autoImplicit false

namespace StoreLog

/-- The low `length` bytes of a number go to `offset` on. -/
structure Store where
  offset : ℕ
  length : ℕ
  value : ℕ
  deriving DecidableEq, Repr

/-- Digit `i` of a number to the base 256. -/
def digit (value i : ℕ) : BitVec 8 := BitVec.ofNat 8 (value / 256 ^ i)

/-- The bytes after a store. -/
def Store.apply (s : Store) (f : ℕ → BitVec 8) (p : ℕ) : BitVec 8 :=
  if s.offset ≤ p ∧ p < s.offset + s.length then digit s.value (p - s.offset) else f p

/-- The bytes after the stores of a log, the latest of them first. -/
def latest (initial : ℕ → BitVec 8) (log : List Store) : ℕ → BitVec 8 :=
  log.foldr Store.apply initial

/-- The number that `length` bytes from `offset` on stand for, the lowest first. -/
def word (f : ℕ → BitVec 8) (offset length : ℕ) : ℕ :=
  Nat.ofDigits 256 ((List.range length).map fun i ↦ (f (offset + i)).toNat)

@[simp] theorem latest_nil (initial : ℕ → BitVec 8) : latest initial [] = initial := rfl

@[simp] theorem latest_cons (initial : ℕ → BitVec 8) (s : Store) (log : List Store) :
    latest initial (s :: log) = s.apply (latest initial log) := rfl

/-- The digits of a number below a power of the base. -/
theorem digit_mod (value : ℕ) {n i : ℕ} (hi : i < n) :
    digit (value % 256 ^ n) i = digit value i := by
  have hsplit : 256 ^ n = 256 ^ i * 256 ^ (n - i) := by
    rw [← Nat.pow_add, Nat.add_sub_cancel' hi.le]
  have hdvd : 2 ^ 8 ∣ 256 ^ (n - i) := dvd_pow_self 256 (by omega)
  refine BitVec.eq_of_toNat_eq ?_
  rw [digit, digit, BitVec.toNat_ofNat, BitVec.toNat_ofNat, hsplit, Nat.mod_mul_right_div_self,
    Nat.mod_mod_of_dvd _ hdvd]

/-- A store sees the digits of its number that it covers. -/
theorem Store.apply_congr {offset length value value' : ℕ}
    (h : ∀ i < length, digit value i = digit value' i) :
    Store.apply ⟨offset, length, value⟩ = Store.apply ⟨offset, length, value'⟩ := by
  funext f p
  rw [Store.apply, Store.apply]
  dsimp only
  split
  · next hp => exact h _ (by omega)
  · rfl

/-! ## Words of 64 bits -/

open Bytes

theorem splitByte_eq_digit (v : BitVec 64) (i : ℕ) : splitByte v i = digit v.toNat i := by
  refine BitVec.eq_of_toNat_eq ?_
  rw [splitByte, digit, BitVec.toNat_setWidth, BitVec.toNat_ushiftRight, Nat.shiftRight_eq_div_pow,
    BitVec.toNat_ofNat, Nat.mul_comm, Nat.pow_mul]

/-- Composing bytes is reading a number to the base 256. -/
theorem toNat_composeBytes (f : ℕ → BitVec 8) (offset : ℕ) {n : ℕ} (hn : n ≤ 8) :
    (composeBytes (fun i ↦ f (offset + i)) n).toNat = word f offset n := by
  induction n with
  | zero => rfl
  | succ n ih =>
    have hlow := composeBytes_toNat_lt (fun i ↦ f (offset + i)) n (by omega)
    have hbyte := (f (offset + n)).isLt
    have hroom : (f (offset + n)).toNat * 2 ^ (n * 8) < 2 ^ 64 := by
      calc (f (offset + n)).toNat * 2 ^ (n * 8) < 2 ^ 8 * 2 ^ (n * 8) :=
            Nat.mul_lt_mul_of_pos_right hbyte (Nat.two_pow_pos _)
        _ = 2 ^ (8 + n * 8) := (Nat.pow_add ..).symm
        _ ≤ 2 ^ 64 := Nat.pow_le_pow_right (by decide) (by omega)
    have hshift : ((f (offset + n)).setWidth 64 <<< (n * 8)).toNat =
        (f (offset + n)).toNat <<< (n * 8) := by
      rw [BitVec.toNat_shiftLeft, BitVec.toNat_setWidth_of_le (by decide), Nat.shiftLeft_eq,
        Nat.mod_eq_of_lt hroom]
    rw [composeBytes, BitVec.toNat_or, hshift, Nat.or_comm, ← Nat.shiftLeft_add_eq_or_of_lt hlow,
      ih (by omega), word, word, List.range_succ, List.map_append, Nat.ofDigits_append,
      List.length_map, List.length_range, List.map_singleton, Nat.ofDigits_singleton,
      Nat.shiftLeft_eq, Nat.add_comm, Nat.mul_comm (f (offset + n)).toNat, Nat.mul_comm n,
      Nat.pow_mul]

end StoreLog
