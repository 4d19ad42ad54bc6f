import Mathlib.Tactic.Common
import Mathlib.Algebra.Group.Nat.Defs
import Mathlib.Data.List.TakeWhile

/-!
# Words and strings in a stream of bytes

Big-endian words, strings ended by a zero, and the padding that brings a stream back to a multiple
of four bytes.  A reader takes its value from the front of the stream and returns the rest.
-/

set_option autoImplicit false

namespace Wire

/-! ## Big-endian words -/

def be32 (v : BitVec 32) : List (BitVec 8) :=
  [(v >>> 24).setWidth 8, (v >>> 16).setWidth 8, (v >>> 8).setWidth 8, v.setWidth 8]

def be64 (v : BitVec 64) : List (BitVec 8) :=
  be32 ((v >>> 32).setWidth 32) ++ be32 (v.setWidth 32)

def read32 : List (BitVec 8) → Option (BitVec 32 × List (BitVec 8))
  | a :: b :: c :: d :: rest => some (a ++ b ++ c ++ d, rest)
  | _ => none

def read64 (bytes : List (BitVec 8)) : Option (BitVec 64 × List (BitVec 8)) := do
  let (high, rest) ← read32 bytes
  let (low, rest) ← read32 rest
  some (high ++ low, rest)

@[simp] theorem length_be32 (v : BitVec 32) : (be32 v).length = 4 := rfl

@[simp] theorem length_be64 (v : BitVec 64) : (be64 v).length = 8 := rfl

@[simp] theorem read32_be32 (v : BitVec 32) (rest : List (BitVec 8)) :
    read32 (be32 v ++ rest) = some (v, rest) := by
  have hv : (v >>> 24).setWidth 8 ++ (v >>> 16).setWidth 8 ++ (v >>> 8).setWidth 8 ++
      v.setWidth 8 = v := by
    apply BitVec.eq_of_getLsbD_eq
    intro i hi
    simp only [BitVec.getLsbD_append, BitVec.getLsbD_setWidth, BitVec.getLsbD_ushiftRight]
    grind
  simp [be32, read32, hv]

@[simp] theorem read64_be64 (v : BitVec 64) (rest : List (BitVec 8)) :
    read64 (be64 v ++ rest) = some (v, rest) := by
  have hv : (v >>> 32).setWidth 32 ++ v.setWidth 32 = v := by
    apply BitVec.eq_of_getLsbD_eq
    intro i hi
    simp only [BitVec.getLsbD_append, BitVec.getLsbD_setWidth, BitVec.getLsbD_ushiftRight]
    grind
  simp [be64, read64, hv]

/-! ## Strings ended by a zero -/

/-- The string at the front of the stream, if a zero ends it. -/
def readString (bytes : List (BitVec 8)) : Option (List (BitVec 8)) :=
  if 0#8 ∈ bytes then some (bytes.takeWhile (· ≠ 0#8)) else none

theorem readString_append {s : List (BitVec 8)} (h : 0#8 ∉ s) (rest : List (BitVec 8)) :
    readString (s ++ 0#8 :: rest) = some s := by
  have hall : ∀ x ∈ s, decide (x ≠ 0#8) = true := by
    intro x hx
    exact decide_eq_true fun hz ↦ h (hz ▸ hx)
  rw [readString, if_pos (by simp), List.takeWhile_append_of_pos hall,
    List.takeWhile_cons_of_neg (by simp), List.append_nil]

/-! ## Padding -/

/-- What is missing to the next multiple of four. -/
def padding (n : ℕ) : ℕ := (4 - n % 4) % 4

theorem add_padding_mod (n : ℕ) : (n + padding n) % 4 = 0 := by
  rw [padding]
  omega

/-- Bytes and their padding are skipped together. -/
theorem drop_padded (s rest : List (BitVec 8)) :
    (s ++ List.replicate (padding s.length) 0#8 ++ rest).drop (s.length + padding s.length) =
      rest := by
  have hlen : (s ++ List.replicate (padding s.length) 0#8).length =
      s.length + padding s.length := by
    simp
  rw [← hlen, List.drop_left]

end Wire
