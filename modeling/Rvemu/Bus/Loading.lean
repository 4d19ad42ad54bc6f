import Rvemu.Bus.Dma
import Mathlib.Data.List.GetD

/-!
# Loading RAM

A loader puts bytes into RAM before the machine runs.  `Bus.Loaded b b' a bytes` says that this is
all it did: the bytes are there, every other byte of RAM and every device is as before.  Loads that
follow one another are one load (`Loaded.append`), so a loop needs only `InRam.loaded` for one
write.
-/

set_option autoImplicit false

namespace Rvemu

open Bytes

/-- A file of the host: it cannot be opened, or it has these bytes. -/
inductive HostFile
  | cannotOpen
  | contents (bytes : List (BitVec 8)) (fits : bytes.length < 2 ^ 64)

namespace Bus

/-- The bytes were put at `a`, and nothing else was touched. -/
structure Loaded (b b' : Bus) (a : ℕ) (bytes : List (BitVec 8)) : Prop where
  ramByte_eq : ∀ x, b'.ramByte x =
    if a ≤ x ∧ x < a + bytes.length then some (bytes.getD (x - a) 0#8) else b.ramByte x
  memoryMap_eq : b'.memoryMap = b.memoryMap
  devices_eq : b'.devices = b.devices

namespace Loaded

variable {b b' b'' : Bus} {a : ℕ} {xs ys : List (BitVec 8)}

theorem nil (b : Bus) (a : ℕ) : Loaded b b a [] where
  ramByte_eq x := by rw [if_neg (by rw [List.length_nil]; omega)]
  memoryMap_eq := rfl
  devices_eq := rfl

theorem append (h : Loaded b b' a xs) (h' : Loaded b' b'' (a + xs.length) ys) :
    Loaded b b'' a (xs ++ ys) where
  ramByte_eq x := by
    rw [h'.ramByte_eq, h.ramByte_eq, List.length_append]
    by_cases hx : a ≤ x ∧ x < a + xs.length
    · rw [if_neg (by omega), if_pos hx, if_pos (by omega), List.getD_append _ _ _ _ (by omega)]
    · by_cases hy : a + xs.length ≤ x ∧ x < a + xs.length + ys.length
      · rw [if_pos hy, if_pos (by omega), List.getD_append_right _ _ _ _ (by omega), Nat.sub_add_eq]
      · rw [if_neg hy, if_neg hx, if_neg (by omega)]
  memoryMap_eq := h'.memoryMap_eq.trans h.memoryMap_eq
  devices_eq := h'.devices_eq.trans h.devices_eq

theorem inRam (h : Loaded b b' a xs) {x n : ℕ} (hin : b.InRam x n) : b'.InRam x n :=
  inRam_of_memoryMap h.memoryMap_eq hin

/-- The bytes that were put there are there. -/
theorem ramByte_of_lt (h : Loaded b b' a xs) {i : ℕ} (hi : i < xs.length) :
    b'.ramByte (a + i) = some (xs.getD i 0#8) := by
  rw [h.ramByte_eq, if_pos (by omega), Nat.add_sub_cancel_left]

theorem ramByte_of_outside (h : Loaded b b' a xs) {x : ℕ} (hx : x < a ∨ a + xs.length ≤ x) :
    b'.ramByte x = b.ramByte x := by
  rw [h.ramByte_eq, if_neg (by omega)]

end Loaded

/-- A write to RAM loads the bytes of its value. -/
theorem InRam.loaded {b : Bus} {a : BitVec 64} {w : AccessWidth}
    (h : b.InRam a.toNat (widthInBytes w)) (v : BitVec 64) (t : AccessType) :
    (b.write a w v t).1.ok = true ∧
      Loaded b (b.write a w v t).2 a.toNat ((List.range (widthInBytes w)).map (splitByte v)) := by
  obtain ⟨hresult, hstored⟩ := h.write v t
  refine ⟨by rw [hresult]; rfl, fun x ↦ ?_, memoryMap_write _ _ _ _ _, hstored.devices_eq⟩
  rw [hstored.ramByte_eq, List.length_map, List.length_range]
  split
  · next hx =>
    have hlt : x - a.toNat < widthInBytes w := by omega
    rw [List.getD_eq_getElem _ _ (by simpa using hlt), List.getElem_map, List.getElem_range]
  · rfl

end Bus

end Rvemu
