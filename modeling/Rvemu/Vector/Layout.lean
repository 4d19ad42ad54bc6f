import Rvemu.Lib.Packed
import Rvemu.Vector.RegisterGroup

/-!
# The register file as one sequence of bytes

The registers of a group lie next to each other, and so do their elements: a group is an array of
elements in the sequence of all bytes of the register file, from the first byte of its base register
on.  Two groups of one configuration are the same or apart.
-/

set_option autoImplicit false

namespace Rvemu

open Bytes

namespace VectorState

/-- Byte `k` of the register file. -/
def byte (s : VectorState) (k : ℕ) : BitVec 8 :=
  if h : k < 1024 then s.registers ⟨k / 32, by omega⟩ ⟨k % 32, by omega⟩ else 0#8

theorem ext_byte {s s' : VectorState} (h : ∀ k, s.byte k = s'.byte k) : s = s' := by
  obtain ⟨registers⟩ := s
  obtain ⟨registers'⟩ := s'
  congr 1
  funext r i
  have hk := h (r * 32 + i)
  have hdiv : (r.val * 32 + i.val) / 32 = r := by omega
  have hmod : (r.val * 32 + i.val) % 32 = i := by omega
  rw [byte, byte, dif_pos (by omega), dif_pos (by omega)] at hk
  simpa only [hdiv, hmod, Fin.eta] using hk

theorem byteValue_eq (s : VectorState) (r : Fin 32) {i : ℕ} (hi : i < 32) :
    s.byteValue r i = s.byte (r * 32 + i) := by
  have hdiv : (r.val * 32 + i) / 32 = r := by omega
  have hmod : (r.val * 32 + i) % 32 = i := by omega
  rw [byteValue, dif_pos hi, byte, dif_pos (by omega)]
  simp only [hdiv, hmod, Fin.eta]

theorem byte_setByteValue (s : VectorState) (r : Fin 32) {i : ℕ} (hi : i < 32) (v : BitVec 8)
    (k : ℕ) : (s.setByteValue r i v).byte k = if k = r * 32 + i then v else s.byte k := by
  rw [setByteValue, dif_pos hi, byte, byte]
  dsimp only
  by_cases hk : k < 1024
  · rw [dif_pos hk, dif_pos hk]
    by_cases hr : (⟨k / 32, by omega⟩ : Fin 32) = r
    · have hr' : k / 32 = r := congrArg Fin.val hr
      rw [hr, Function.update_self]
      by_cases hi' : (⟨k % 32, by omega⟩ : Fin 32) = ⟨i, hi⟩
      · have hi'' : k % 32 = i := congrArg Fin.val hi'
        rw [hi', Function.update_self, if_pos (by omega)]
      · have hi'' : k % 32 ≠ i := fun h ↦ hi' (Fin.ext h)
        rw [Function.update_of_ne hi', if_neg (by omega)]
    · have hr' : k / 32 ≠ r := fun h ↦ hr (Fin.ext h)
      rw [Function.update_of_ne hr, if_neg (by omega)]
  · rw [dif_neg hk, dif_neg hk, if_neg (by omega)]

theorem byte_setBytes (s : VectorState) (r : Fin 32) {off : ℕ} (v : BitVec 64) {n : ℕ}
    (h : off + n ≤ 32) (k : ℕ) :
    (s.setBytes r off v n).byte k =
      if r * 32 + off ≤ k ∧ k < r * 32 + off + n then splitByte v (k - (r * 32 + off))
      else s.byte k := by
  induction n with
  | zero => rw [setBytes, if_neg (by omega)]
  | succ n ih =>
    rw [setBytes, byte_setByteValue _ _ (by omega), ih (by omega)]
    by_cases hk : k = r * 32 + (off + n)
    · rw [if_pos hk, if_pos (by omega), show k - (r * 32 + off) = n by omega]
    · rw [if_neg hk]
      by_cases hin : r * 32 + off ≤ k ∧ k < r * 32 + off + n
      · rw [if_pos hin, if_pos (by omega)]
      · rw [if_neg hin, if_neg (by omega)]

/-- Bit `i` of v0. -/
def maskBit (s : VectorState) (i : ℕ) : Bool := (s.byte (i / 8)).getLsbD (i % 8)

end VectorState

namespace VectorRegisterGroup

/-- The first byte of a group. -/
def offset (g : VectorRegisterGroup) : ℕ := g.baseRegister * 32

/-- The bytes of an element. -/
def widthBytes (g : VectorRegisterGroup) : ℕ := g.configuration.sewBits / 8

/-- A group whose elements below VLMAX fit into its registers. -/
structure Fits (g : VectorRegisterGroup) : Prop where
  width : g.widthBytes = 1 ∨ g.widthBytes = 2 ∨ g.widthBytes = 4 ∨ g.widthBytes = 8
  sew : g.configuration.sewBits = g.widthBytes * 8
  room : g.configuration.vlmax * g.widthBytes ≤ 32 * physicalRegisterCount g.configuration

variable {g : VectorRegisterGroup}

theorem Fits.le_eight (h : g.Fits) : g.widthBytes ≤ 8 := by
  have hw := h.width
  omega

/-- The elements of a legal configuration fill their registers, or a part of one. -/
theorem fits_of_legal (h : g.configuration.Legal) : g.Fits := by
  have hv := h.vlmax
  have hl := h.lmul
  simp only [List.mem_cons, Prod.mk.injEq, List.mem_nil_iff, or_false] at hl
  refine ⟨?_, ?_, ?_⟩
  · rw [widthBytes]
    rcases h.sew with hs | hs | hs | hs <;> rw [hs] <;> decide
  · rw [widthBytes]
    rcases h.sew with hs | hs | hs | hs <;> rw [hs]
  · rw [widthBytes, physicalRegisterCount, hv]
    rcases h.sew with hs | hs | hs | hs <;> rw [hs] <;>
      rcases hl with ⟨hn, hd⟩ | ⟨hn, hd⟩ | ⟨hn, hd⟩ | ⟨hn, hd⟩ | ⟨hn, hd⟩ | ⟨hn, hd⟩ | ⟨hn, hd⟩ <;>
        rw [hn, hd] <;> decide

theorem locate_eq (h : g.Fits) {i : ℕ} (hi : i < g.configuration.vlmax) :
    ∃ location, g.locate i = some location ∧ location.widthBytes = g.widthBytes ∧
      location.registerIndex * 32 + location.byteOffset = g.offset + i * g.widthBytes := by
  have hlast : (i + 1) * g.widthBytes ≤ 32 * physicalRegisterCount g.configuration :=
    Nat.le_trans (Nat.mul_le_mul_right _ hi) h.room
  rw [Nat.succ_mul] at hlast
  have hinside : i * g.widthBytes % 32 + g.widthBytes ≤ 32 := by
    rcases h.width with hw | hw | hw | hw <;> rw [hw] <;> omega
  have hnot : ¬(i * g.widthBytes / 32 ≥ physicalRegisterCount g.configuration ∨
      i * g.widthBytes % 32 + g.widthBytes > 32) := by
    have hpos : 0 < g.widthBytes := by
      have hw := h.width
      omega
    omega
  rw [locate, if_neg (by omega)]
  dsimp only
  rw [dif_neg (show ¬(i * (g.configuration.sewBits / 8) / 32 ≥ physicalRegisterCount
    g.configuration ∨
    i * (g.configuration.sewBits / 8) % 32 + g.configuration.sewBits / 8 > 32) from hnot)]
  refine ⟨_, rfl, rfl, ?_⟩
  have hdiv := Nat.div_add_mod (i * g.widthBytes) 32
  rw [offset]
  show (g.baseRegister + i * g.widthBytes / 32) * 32 + i * g.widthBytes % 32 = _
  omega

/-- An element of a group is one of the array. -/
theorem readElement_eq (h : g.Fits) (s : VectorState) {i : ℕ} (hi : i < g.configuration.vlmax) :
    g.readElement s i = some (Packed.element s.byte g.offset g.widthBytes i) := by
  obtain ⟨location, hlocate, hwidth, hoffset⟩ := locate_eq h hi
  have hfits := location.fits
  rw [readElement, hlocate, Option.map_some, Packed.element, hwidth]
  rw [hwidth] at hfits
  congr 1
  refine composeBytes_congr fun j hj ↦ ?_
  rw [s.byteValue_eq _ (by omega), ← hoffset, Nat.add_assoc]

theorem writeElement_eq (h : g.Fits) (s : VectorState) {i : ℕ} (hi : i < g.configuration.vlmax)
    (v : BitVec 64) :
    ∃ s', g.writeElement s i v = some s' ∧ ∀ k, s'.byte k =
      if g.offset + i * g.widthBytes ≤ k ∧ k < g.offset + i * g.widthBytes + g.widthBytes then
        splitByte v (k - (g.offset + i * g.widthBytes))
      else s.byte k := by
  obtain ⟨location, hlocate, hwidth, hoffset⟩ := locate_eq h hi
  refine ⟨_, by rw [writeElement, hlocate, Option.map_some], fun k ↦ ?_⟩
  rw [s.byte_setBytes _ _ location.fits, hoffset, hwidth]

theorem maskBit_eq (s : VectorState) {i : ℕ} (hi : i < 256) : maskBit s i = some (s.maskBit i) := by
  have hbit : ∀ (x : BitVec 8) (j : ℕ), (((x >>> j) &&& 1#8) != 0#8) = x.getLsbD j := by
    intro x j
    rw [BitVec.and_one_eq_setWidth_ofBool_getLsbD, BitVec.getLsbD_ushiftRight, Nat.add_zero]
    cases x.getLsbD j <;> rfl
  rw [maskBit, if_neg (by omega), hbit, s.byteValue_eq 0 (by omega),
    VectorState.maskBit, show (0 : Fin 32).val * 32 + i / 8 = i / 8 from Nat.zero_add _]

theorem baseRegister_create {c : VectorConfiguration} {base : BitVec 5} {g : VectorRegisterGroup}
    (h : create c base = some g) : g.baseRegister = base.toNat ∧
      base.toNat % physicalRegisterCount c = 0 := by
  rw [create] at h
  split at h
  · cases h
  · dsimp only at h
    split at h
    · cases h
    · next haligned =>
      split at h
      · cases h
      · injection h with h
        subst h
        exact ⟨rfl, not_not.1 haligned⟩

theorem create_aligned {c : VectorConfiguration} {base : BitVec 5} {g : VectorRegisterGroup}
    (h : create c base = some g) :
    g.configuration = c ∧ ∃ q, g.baseRegister = physicalRegisterCount c * q := by
  obtain ⟨hbase, haligned⟩ := baseRegister_create h
  refine ⟨(configuration_create h).1, base.toNat / physicalRegisterCount c, ?_⟩
  have hdiv := Nat.div_add_mod base.toNat (physicalRegisterCount c)
  omega

/-- Groups of one configuration are the same or apart. -/
theorem same_or_apart {c : VectorConfiguration} {base base' : BitVec 5} {g g' : VectorRegisterGroup}
    (h : create c base = some g) (h' : create c base' = some g') :
    g = g' ∨ g.offset + 32 * physicalRegisterCount c ≤ g'.offset ∨
      g'.offset + 32 * physicalRegisterCount c ≤ g.offset := by
  obtain ⟨hconf, q, hq⟩ := create_aligned h
  obtain ⟨hconf', q', hq'⟩ := create_aligned h'
  rw [offset, offset, hq, hq']
  rcases Nat.lt_trichotomy q q' with hlt | rfl | hgt
  · have hle := Nat.mul_le_mul_left (physicalRegisterCount c) (Nat.succ_le_of_lt hlt)
    rw [Nat.mul_succ] at hle
    exact Or.inr (Or.inl (by omega))
  · left
    obtain ⟨configuration, baseRegister, _⟩ := g
    obtain ⟨configuration', baseRegister', _⟩ := g'
    obtain rfl : configuration = c := hconf
    obtain rfl : configuration' = configuration := hconf'
    obtain rfl : baseRegister = baseRegister' := hq.trans hq'.symm
    rfl
  · have hle := Nat.mul_le_mul_left (physicalRegisterCount c) (Nat.succ_le_of_lt hgt)
    rw [Nat.mul_succ] at hle
    exact Or.inr (Or.inr (by omega))

end VectorRegisterGroup

end Rvemu
