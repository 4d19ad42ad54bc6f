import Rvemu.Lib.Bytes
import Rvemu.Vector.Configuration
import Mathlib.Logic.Function.Basic
import Mathlib.Algebra.GroupWithZero.Nat

/-!
# Vector registers and register groups

Thirty-two registers of thirty-two bytes.  A `VectorRegisterGroup` is a base register that the
configuration admits, with the registers it spans; `locate` maps a logical element to the bytes that
hold it.
-/

set_option autoImplicit false

namespace Rvemu

open Bytes

/-- The register file, byte by byte. -/
structure VectorState where
  registers : Fin 32 → Fin 32 → BitVec 8 := fun _ _ ↦ 0#8

namespace VectorState

theorem neZero_registers : NeZero 32 := ⟨by decide⟩

def byteValue (s : VectorState) (registerIndex : Fin 32) (byteIndex : ℕ) : BitVec 8 :=
  if h : byteIndex < 32 then s.registers registerIndex ⟨byteIndex, h⟩ else 0#8

def setByteValue (s : VectorState) (registerIndex : Fin 32) (byteIndex : ℕ) (value : BitVec 8) :
    VectorState :=
  if h : byteIndex < 32 then
    { registers := Function.update s.registers registerIndex
        (Function.update (s.registers registerIndex) ⟨byteIndex, h⟩ value) }
  else s

/-- Store the low `n` bytes of a value from a byte position on. -/
def setBytes (s : VectorState) (registerIndex : Fin 32) (byteOffset : ℕ) (value : BitVec 64) :
    ℕ → VectorState
  | 0 => s
  | n + 1 =>
    (s.setBytes registerIndex byteOffset value n).setByteValue registerIndex (byteOffset + n)
      (splitByte value n)

end VectorState

/-- Where an element lives: inside one register. -/
structure VectorElementLocation where
  registerIndex : Fin 32
  byteOffset : ℕ
  widthBytes : ℕ
  fits : byteOffset + widthBytes ≤ 32
  deriving DecidableEq, Repr

/-- Fractional LMUL still occupies one register. -/
def physicalRegisterCount (configuration : VectorConfiguration) : ℕ :=
  if configuration.lmulNumerator ≥ configuration.lmulDenominator then
    configuration.lmulNumerator / configuration.lmulDenominator
  else 1

/-- A base register together with the room for the registers it spans. -/
structure VectorRegisterGroup where
  configuration : VectorConfiguration
  baseRegister : ℕ
  span_le : baseRegister + physicalRegisterCount configuration ≤ 32

namespace VectorRegisterGroup

def create (configuration : VectorConfiguration) (baseRegister : BitVec 5) :
    Option VectorRegisterGroup :=
  if !configuration.valid then none
  else
    let registerCount := physicalRegisterCount configuration
    if baseRegister.toNat % registerCount ≠ 0 then none
    else if h : registerCount > 32 - baseRegister.toNat then none
    else
      some
        { configuration, baseRegister := baseRegister.toNat
          span_le := by
            have := baseRegister.isLt
            simp only [registerCount] at h
            omega }

def locate (g : VectorRegisterGroup) (elementIndex : ℕ) : Option VectorElementLocation :=
  if elementIndex ≥ g.configuration.vlmax then none
  else
    let widthBytes := g.configuration.sewBits / 8
    let byteIndex := elementIndex * widthBytes
    let registerOffset := byteIndex / 32
    let byteOffset := byteIndex % 32
    if h : registerOffset ≥ physicalRegisterCount g.configuration ∨
      byteOffset + widthBytes > 32 then
      none
    else
      some
        { registerIndex := ⟨g.baseRegister + registerOffset, by have := g.span_le; omega⟩
          byteOffset, widthBytes
          fits := by omega }

def readElement (g : VectorRegisterGroup) (state : VectorState) (elementIndex : ℕ) :
    Option (BitVec 64) :=
  (g.locate elementIndex).map fun location ↦
    composeBytes (fun i ↦ state.byteValue location.registerIndex (location.byteOffset + i))
      location.widthBytes

def writeElement (g : VectorRegisterGroup) (state : VectorState) (elementIndex : ℕ)
    (value : BitVec 64) : Option VectorState :=
  (g.locate elementIndex).map fun location ↦
    state.setBytes location.registerIndex location.byteOffset value location.widthBytes

attribute [local instance] VectorState.neZero_registers in
/-- Bit `elementIndex` of v0. -/
def maskBit (state : VectorState) (elementIndex : ℕ) : Option Bool :=
  if elementIndex ≥ 256 then none
  else
    some ((((state.byteValue 0 (elementIndex / 8)) >>> (elementIndex % 8)) &&& 1#8) != 0#8)

/-! ## Every element of a legal group can be located -/

theorem configuration_create {c : VectorConfiguration} {base : BitVec 5} {g : VectorRegisterGroup}
    (h : create c base = some g) : g.configuration = c ∧ c.valid = true := by
  rw [create] at h
  split at h
  · cases h
  · next hv =>
    dsimp only at h
    split at h
    · cases h
    · split at h
      · cases h
      · injection h with h
        subst h
        exact ⟨rfl, by simpa using hv⟩

/-- In a legal configuration the elements below VLMAX fill the registers of the group exactly. -/
theorem legal_layout {c : VectorConfiguration} (h : c.Legal) {i : ℕ} (hi : i < c.vlmax) :
    i * (c.sewBits / 8) / 32 < physicalRegisterCount c ∧
      i * (c.sewBits / 8) % 32 + c.sewBits / 8 ≤ 32 := by
  have hv := h.vlmax
  have hl := h.lmul
  simp only [List.mem_cons, Prod.mk.injEq, List.mem_nil_iff, or_false] at hl
  rw [physicalRegisterCount]
  rcases h.sew with hs | hs | hs | hs <;> rw [hs] at hv ⊢ <;>
    rcases hl with ⟨hn, hd⟩ | ⟨hn, hd⟩ | ⟨hn, hd⟩ | ⟨hn, hd⟩ | ⟨hn, hd⟩ | ⟨hn, hd⟩ | ⟨hn, hd⟩ <;>
      rw [hn, hd] at hv ⊢ <;> simp only [vectorLengthBits, Nat.reduceDiv, Nat.reduceMul] at hv <;>
        refine ⟨?_, by omega⟩ <;> split <;> omega

theorem locate_isSome {g : VectorRegisterGroup} (h : g.configuration.Legal) {i : ℕ}
    (hi : i < g.configuration.vlmax) : (g.locate i).isSome = true := by
  obtain ⟨h₁, h₂⟩ := legal_layout h hi
  rw [locate, if_neg (by omega)]
  dsimp only
  rw [dif_neg (by omega)]
  rfl

end VectorRegisterGroup

end Rvemu
