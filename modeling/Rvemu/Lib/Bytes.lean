import Mathlib.Tactic.Common
import Mathlib.Algebra.Group.Nat.Defs

/-!
# Little-endian bytes of a word

`composeBytes f n` is the loop `value |= f i << (8 * i)` run for `i < n`, and `splitByte v i` is the
byte the opposite loop stores at position `i`.  `storeBytes` is that opposite loop over a byte list.
Nothing here mentions a memory: the lemmas are about bits of words and entries of lists, and they
are the only facts about byte order that the memories, register files and buffers of a machine need.
-/

set_option autoImplicit false

namespace Bytes

/-! ## Composing a word -/

/-- The little-endian word made of the bytes `f 0, …, f (n - 1)`. -/
def composeBytes (f : ℕ → BitVec 8) : ℕ → BitVec 64
  | 0 => 0#64
  | n + 1 => composeBytes f n ||| ((f n).setWidth 64 <<< (n * 8))

/-- The byte at position `i` of a word. -/
def splitByte (v : BitVec 64) (i : ℕ) : BitVec 8 := (v >>> (i * 8)).setWidth 8

theorem getLsbD_splitByte (v : BitVec 64) (i j : ℕ) :
    (splitByte v i).getLsbD j = (decide (j < 8) && v.getLsbD (i * 8 + j)) := by
  simp [splitByte, BitVec.getLsbD_setWidth, BitVec.getLsbD_ushiftRight]

theorem getLsbD_composeBytes (f : ℕ → BitVec 8) (n k : ℕ) (hn : n ≤ 8) :
    (composeBytes f n).getLsbD k = (decide (k < n * 8) && (f (k / 8)).getLsbD (k % 8)) := by
  induction n with
  | zero => simp [composeBytes]
  | succ n ih =>
    rw [composeBytes, BitVec.getLsbD_or, ih (by omega), BitVec.getLsbD_shiftLeft,
      BitVec.getLsbD_setWidth]
    rcases Nat.lt_or_ge k (n * 8) with hk | hk
    · simp [hk, show k < (n + 1) * 8 by omega]
    · rcases Nat.lt_or_ge k ((n + 1) * 8) with hk' | hk'
      · have hd : k / 8 = n := by omega
        have hm : k % 8 = k - n * 8 := by omega
        simp [hd, hm, show ¬ k < n * 8 by omega, hk', show k < 64 by omega,
          show k - n * 8 < 64 by omega]
      · have hz : (f n).getLsbD (k - n * 8) = false :=
          BitVec.getLsbD_of_ge _ _ (by omega)
        simp [hz, show ¬ k < n * 8 by omega, show ¬ k < (n + 1) * 8 by omega]

/-- Two words composed of the same bytes are equal. -/
theorem composeBytes_congr {f g : ℕ → BitVec 8} {n : ℕ} (h : ∀ i, i < n → f i = g i) :
    composeBytes f n = composeBytes g n := by
  induction n with
  | zero => rfl
  | succ n ih =>
    rw [composeBytes, composeBytes, ih (fun i hi ↦ h i (by omega)), h n (by omega)]

/-- Composing the bytes of a word keeps its low `n` bytes. -/
theorem composeBytes_splitByte (v : BitVec 64) (n : ℕ) (hn : n ≤ 8) :
    composeBytes (splitByte v) n = (v.setWidth (n * 8)).setWidth 64 := by
  apply BitVec.eq_of_getLsbD_eq
  intro k hk
  rw [getLsbD_composeBytes _ _ _ hn, getLsbD_splitByte, BitVec.getLsbD_setWidth,
    BitVec.getLsbD_setWidth, show k / 8 * 8 + k % 8 = k by omega]
  simp [hk, Nat.mod_lt]

/-- All eight bytes of a word compose to the word. -/
theorem composeBytes_splitByte_eight (v : BitVec 64) : composeBytes (splitByte v) 8 = v := by
  rw [composeBytes_splitByte v 8 (Nat.le_refl 8)]
  simp

/-- A byte can be read back from the word it was composed into. -/
theorem splitByte_composeBytes (f : ℕ → BitVec 8) {n i : ℕ} (hn : n ≤ 8) (hi : i < n) :
    splitByte (composeBytes f n) i = f i := by
  apply BitVec.eq_of_getLsbD_eq
  intro j hj
  rw [getLsbD_splitByte, getLsbD_composeBytes _ _ _ hn, show (i * 8 + j) / 8 = i by omega,
    show (i * 8 + j) % 8 = j by omega]
  simp [hj, show i * 8 + j < n * 8 by omega]

theorem composeBytes_toNat_lt (f : ℕ → BitVec 8) (n : ℕ) (hn : n ≤ 8) :
    (composeBytes f n).toNat < 2 ^ (n * 8) := by
  apply Nat.lt_pow_two_of_testBit
  intro i hi
  have h := getLsbD_composeBytes f n i hn
  rw [BitVec.getLsbD] at h
  simp [h, show ¬ i < n * 8 by omega]

/-! ## Storing a word -/

/-- Store the low `n` bytes of `v` at position `off` of a byte list. -/
def storeBytes (bs : List (BitVec 8)) (off : ℕ) (v : BitVec 64) : ℕ → List (BitVec 8)
  | 0 => bs
  | n + 1 => (storeBytes bs off v n).set (off + n) (splitByte v n)

@[simp] theorem length_storeBytes (bs : List (BitVec 8)) (off : ℕ) (v : BitVec 64) (n : ℕ) :
    (storeBytes bs off v n).length = bs.length := by
  induction n with
  | zero => rfl
  | succ n ih => rw [storeBytes, List.length_set, ih]

theorem getD_storeBytes (bs : List (BitVec 8)) (off : ℕ) (v : BitVec 64) (n p : ℕ)
    (h : off + n ≤ bs.length) :
    (storeBytes bs off v n).getD p 0#8 =
      if off ≤ p ∧ p < off + n then splitByte v (p - off) else bs.getD p 0#8 := by
  induction n with
  | zero =>
    rw [storeBytes, if_neg (by omega)]
  | succ n ih =>
    rw [storeBytes, List.getD_eq_getElem?_getD, List.getElem?_set, length_storeBytes]
    by_cases hp : off + n = p
    · subst hp
      rw [if_pos rfl, if_pos (by omega), if_pos (by omega), show off + n - off = n by omega]
      rfl
    · rw [if_neg hp, ← List.getD_eq_getElem?_getD, ih (by omega)]
      by_cases hq : off ≤ p ∧ p < off + n
      · rw [if_pos hq, if_pos (by omega)]
      · rw [if_neg hq, if_neg (by omega)]

/-- Reading back the bytes just stored. -/
theorem composeBytes_storeBytes (bs : List (BitVec 8)) (off : ℕ) (v : BitVec 64) (n : ℕ)
    (h : off + n ≤ bs.length) :
    composeBytes (fun i ↦ (storeBytes bs off v n).getD (off + i) 0#8) n =
      composeBytes (splitByte v) n := by
  refine composeBytes_congr fun i hi ↦ ?_
  rw [getD_storeBytes _ _ _ _ _ h, if_pos (by omega), show off + i - off = i by omega]

/-- Reading bytes that a store did not touch. -/
theorem composeBytes_storeBytes_of_disjoint (bs : List (BitVec 8)) (off off' : ℕ) (v : BitVec 64)
    (n n' : ℕ) (h : off + n ≤ bs.length) (hd : off' + n' ≤ off ∨ off + n ≤ off') :
    composeBytes (fun i ↦ (storeBytes bs off v n).getD (off' + i) 0#8) n' =
      composeBytes (fun i ↦ bs.getD (off' + i) 0#8) n' := by
  refine composeBytes_congr fun i hi ↦ ?_
  rw [getD_storeBytes _ _ _ _ _ h, if_neg (by omega)]

end Bytes
