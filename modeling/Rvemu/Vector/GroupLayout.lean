import Rvemu.Lib.StoreLog
import Rvemu.Vector.Layout
import Mathlib.Data.Rat.Cast.Defs

/-!
# The layout of a register group

A group is an array of VLMAX elements in the bytes of its registers, whatever its LMUL is and
whether its element width is SEW or the EEW of a memory access.  `Layout` says so of one group, and
every group that can be created has it.
-/

set_option autoImplicit false

namespace Rvemu

open Bytes StoreLog

/-- The configurations there are: those `vtype` decodes to, and those derived for memory accesses.
-/
inductive Configured : VectorConfiguration → Prop
  | decoded {vtype : BitVec 64} (valid : (decodeVectorConfiguration vtype).valid = true) :
    Configured (decodeVectorConfiguration vtype)
  | derived {current effective : VectorConfiguration} {elementWidthBits : ℕ}
    (configured : Configured current)
    (derive : deriveMemoryConfiguration current elementWidthBits = some effective) :
    Configured effective

theorem Configured.legal {c : VectorConfiguration} (h : Configured c) : c.Legal := by
  induction h with
  | decoded valid => exact (legal_of_valid valid).1
  | derived _ derive ih => exact ih.derive derive

/-- EMUL, a rational number. -/
def emul (c : VectorConfiguration) (elementWidthBits : ℕ) : ℚ :=
  elementWidthBits / c.sewBits * (c.lmulNumerator / c.lmulDenominator)

/-- Halving a fraction does not change it, and what is left is supported when it is an LMUL. -/
theorem emul_effectiveLmul :
    ∀ sew ∈ [8, 16, 32, 64],
      ∀ lmul ∈ [(1, 1), (2, 1), (4, 1), (8, 1), (1, 8), (1, 4), (1, 2)],
        ∀ width ∈ [8, 16, 32, 64],
          let derived := reduceFraction (lmul.1 * width) (lmul.2 * sew) 64
          let emul : ℚ := (width : ℕ) / (sew : ℕ) * ((lmul.1 : ℕ) / (lmul.2 : ℕ))
          (derived.1 : ℚ) / derived.2 = emul ∧ (supportedLmul derived = true ↔
            emul ∈ ([1 / 8, 1 / 4, 1 / 2, 1, 2, 4, 8] : List ℚ)) := by
  decide +kernel

namespace VectorState

theorem registers_eq (s : VectorState) (r b : Fin 32) :
    s.registers r b = s.byte (r * 32 + b) := by
  rw [← s.byteValue_eq r b.isLt, byteValue, dif_pos b.isLt]

end VectorState

namespace VectorRegisterGroup

/-- The layout of the elements of a group in the bytes of the register file. -/
structure Layout (g : VectorRegisterGroup) : Prop where
  /-- An element lies in one register of the group, next to the element before it. -/
  located : ∀ i < g.configuration.vlmax, ∃ location, g.locate i = some location ∧
    location.widthBytes * 8 = g.configuration.sewBits ∧
    g.baseRegister ≤ location.registerIndex ∧
    location.registerIndex < g.baseRegister + physicalRegisterCount g.configuration ∧
    location.byteOffset + location.widthBytes ≤ 32 ∧
    location.registerIndex * 32 + location.byteOffset =
      g.baseRegister * 32 + i * location.widthBytes
  /-- Two elements have no byte in common. -/
  disjoint : ∀ i < g.configuration.vlmax, ∀ j < g.configuration.vlmax, i ≠ j →
    ∀ l ∈ g.locate i, ∀ l' ∈ g.locate j, l.registerIndex ≠ l'.registerIndex ∨
      l.byteOffset + l.widthBytes ≤ l'.byteOffset ∨ l'.byteOffset + l'.widthBytes ≤ l.byteOffset
  /-- An element is the number its bytes stand for, the lowest first. -/
  read : ∀ (s : VectorState), ∀ i < g.configuration.vlmax,
    (g.readElement s i).map BitVec.toNat =
      some (word s.byte (g.baseRegister * 32 + i * (g.configuration.sewBits / 8))
        (g.configuration.sewBits / 8))
  /-- A write is read back as far as the element holds it. -/
  written : ∀ (s : VectorState) (v : BitVec 64), ∀ i < g.configuration.vlmax,
    ∃ s', g.writeElement s i v = some s' ∧
      (g.readElement s' i).map BitVec.toNat = some (v.toNat % 2 ^ g.configuration.sewBits)
  /-- A write changes no other element and no byte outside its own. -/
  frame : ∀ (s s' : VectorState) (v : BitVec 64), ∀ i < g.configuration.vlmax,
    g.writeElement s i v = some s' →
      (∀ j < g.configuration.vlmax, j ≠ i → g.readElement s' j = g.readElement s j) ∧
      (∀ l ∈ g.locate i, ∀ r b : Fin 32,
        (r = l.registerIndex → b < l.byteOffset ∨ l.byteOffset + l.widthBytes ≤ b) →
          s'.registers r b = s.registers r b) ∧
      (∀ r b : Fin 32,
        r < g.baseRegister ∨ g.baseRegister + physicalRegisterCount g.configuration ≤ r →
          s'.registers r b = s.registers r b)

variable {g : VectorRegisterGroup}

theorem located_of_fits (h : g.Fits) {i : ℕ} (hi : i < g.configuration.vlmax) :
    ∃ location, g.locate i = some location ∧ location.widthBytes = g.widthBytes ∧
      g.baseRegister ≤ location.registerIndex ∧
      location.registerIndex < g.baseRegister + physicalRegisterCount g.configuration ∧
      location.registerIndex * 32 + location.byteOffset = g.offset + i * g.widthBytes := by
  obtain ⟨location, hlocate, hwidth, hoffset⟩ := locate_eq h hi
  have hfits := location.fits
  have hw := h.width
  have hlast : (i + 1) * g.widthBytes ≤ 32 * physicalRegisterCount g.configuration :=
    Nat.le_trans (Nat.mul_le_mul_right _ hi) h.room
  rw [Nat.succ_mul] at hlast
  rw [offset] at hoffset ⊢
  exact ⟨location, hlocate, hwidth, by omega, by omega, hoffset⟩

/-- Of two elements the earlier one ends where the later one begins, or before. -/
theorem apart_of_ne {w i j : ℕ} (h : i ≠ j) : i * w + w ≤ j * w ∨ j * w + w ≤ i * w := by
  rcases Nat.lt_or_gt_of_ne h with hlt | hgt
  · exact Or.inl (Nat.succ_mul i w ▸ Nat.mul_le_mul_right w hlt)
  · exact Or.inr (Nat.succ_mul j w ▸ Nat.mul_le_mul_right w hgt)

/-- An element that was just written holds what fits into it. -/
theorem toNat_element_of_written (h : g.Fits) {s : VectorState} {v : BitVec 64} {i : ℕ}
    (hbytes : ∀ k < g.widthBytes, s.byte (g.offset + i * g.widthBytes + k) = splitByte v k) :
    (Packed.element s.byte g.offset g.widthBytes i).toNat =
      v.toNat % 2 ^ g.configuration.sewBits := by
  have hlt : v.toNat % 2 ^ (g.widthBytes * 8) < 2 ^ 64 :=
    Nat.lt_of_le_of_lt (Nat.mod_le _ _) v.isLt
  rw [Packed.element, composeBytes_congr hbytes, composeBytes_splitByte _ _ h.le_eight,
    BitVec.toNat_setWidth, BitVec.toNat_setWidth, Nat.mod_eq_of_lt hlt, h.sew]

theorem layout_of_fits (h : g.Fits) : g.Layout where
  located i hi := by
    obtain ⟨location, hlocate, hwidth, hlow, hhigh, hoffset⟩ := located_of_fits h hi
    refine ⟨location, hlocate, ?_, hlow, hhigh, location.fits, ?_⟩
    · rw [hwidth, h.sew]
    · rw [hoffset, hwidth, offset]
  disjoint i hi j hj hne l hl l' hl' := by
    obtain ⟨location, hlocate, hwidth, -, -, hoffset⟩ := located_of_fits h hi
    obtain ⟨location', hlocate', hwidth', -, -, hoffset'⟩ := located_of_fits h hj
    obtain rfl := Option.some.inj (hlocate.symm.trans hl)
    obtain rfl := Option.some.inj (hlocate'.symm.trans hl')
    have hapart := apart_of_ne (w := g.widthBytes) hne
    omega
  read s i hi := by
    rw [readElement_eq h s hi, Option.map_some, Packed.element,
      toNat_composeBytes _ _ h.le_eight, offset, widthBytes]
  written s v i hi := by
    obtain ⟨s', hwrite, hbytes⟩ := writeElement_eq h s hi v
    refine ⟨s', hwrite, ?_⟩
    rw [readElement_eq h s' hi, Option.map_some, toNat_element_of_written h fun k hk ↦ ?_]
    rw [hbytes, if_pos (by omega), Nat.add_sub_cancel_left]
  frame s s' v i hi hwritten := by
    obtain ⟨written, hwrite, hbytes⟩ := writeElement_eq h s hi v
    obtain rfl := Option.some.inj (hwrite.symm.trans hwritten)
    obtain ⟨location, hlocate, hwidth, hlow, hhigh, hoffset⟩ := located_of_fits h hi
    have hfits := location.fits
    have houtside : ∀ r b : Fin 32, (r = location.registerIndex →
        b < location.byteOffset ∨ location.byteOffset + location.widthBytes ≤ b) →
        written.registers r b = s.registers r b := fun r b hrb ↦ by
      rw [written.registers_eq, s.registers_eq, hbytes, if_neg]
      have hr : r.val = location.registerIndex.val → r = location.registerIndex := Fin.ext
      omega
    refine ⟨fun j hj hne ↦ ?_, fun l hl r b hrb ↦ ?_, fun r b hr ↦ houtside r b fun heq ↦ ?_⟩
    · rw [readElement_eq h written hj, readElement_eq h s hj]
      congr 1
      refine Packed.element_congr _ _ _ fun k hk ↦ ?_
      have hapart := apart_of_ne (w := g.widthBytes) hne
      rw [hbytes, if_neg (by omega)]
    · obtain rfl := Option.some.inj (hlocate.symm.trans hl)
      exact houtside r b hrb
    · rw [heq] at hr
      omega

end VectorRegisterGroup

/-! ## Every group -/

theorem emul_eq {c : VectorConfiguration} (h : c.Legal) {width : ℕ}
    (hwidth : width = 8 ∨ width = 16 ∨ width = 32 ∨ width = 64) :
    ((effectiveLmul c width).1 : ℚ) / (effectiveLmul c width).2 = emul c width ∧
      (supportedLmul (effectiveLmul c width) = true ↔
        emul c width ∈ ([1 / 8, 1 / 4, 1 / 2, 1, 2, 4, 8] : List ℚ)) :=
  emul_effectiveLmul c.sewBits (by simpa using h.sew) _ h.lmul width (by simpa using hwidth)

/-- An access has an effective configuration exactly when its EMUL is an LMUL. -/
theorem isSome_derive_iff {c : VectorConfiguration} (h : c.Legal) {width : ℕ}
    (hmem : width ∈ [8, 16, 32, 64]) :
    (deriveMemoryConfiguration c width).isSome = true ↔
      emul c width ∈ ([1 / 8, 1 / 4, 1 / 2, 1, 2, 4, 8] : List ℚ) := by
  have hwidth : width = 8 ∨ width = 16 ∨ width = 32 ∨ width = 64 := by simpa using hmem
  rw [Option.isSome_iff_exists, ← (emul_eq h hwidth).2]
  constructor
  · rintro ⟨c', hderive⟩
    obtain ⟨-, -, hsupported, -⟩ := deriveMemoryConfiguration_eq_some_iff.1 hderive
    exact hsupported
  · intro hsupported
    exact ⟨_, deriveMemoryConfiguration_eq_some_iff.2 ⟨h.valid, hwidth, hsupported, rfl⟩⟩

theorem derived_fields {c c' : VectorConfiguration} (h : c.Legal) {width : ℕ}
    (hderive : deriveMemoryConfiguration c width = some c') :
    c'.sewBits = width ∧ c'.vlmax = c.vlmax ∧
      (c'.lmulNumerator : ℚ) / c'.lmulDenominator = emul c width := by
  obtain ⟨-, hwidth, -, rfl⟩ := deriveMemoryConfiguration_eq_some_iff.1 hderive
  exact ⟨rfl, rfl, (emul_eq h hwidth).1⟩

/-- Every group that can be created, of a decoded or of an effective configuration, has the layout;
and the element widths with an effective configuration are those whose EMUL is an LMUL. -/
theorem registerGroup_layout {c : VectorConfiguration} (h : Configured c) :
    (∀ (base : BitVec 5) (g : VectorRegisterGroup), VectorRegisterGroup.create c base = some g →
      g.configuration = c ∧ g.baseRegister = base.toNat ∧ g.Layout) ∧
    (∀ width ∈ [8, 16, 32, 64], (deriveMemoryConfiguration c width).isSome = true ↔
      emul c width ∈ ([1 / 8, 1 / 4, 1 / 2, 1, 2, 4, 8] : List ℚ)) ∧
    (∀ width ∉ [8, 16, 32, 64], deriveMemoryConfiguration c width = none) ∧
    ∀ width c', deriveMemoryConfiguration c width = some c' →
      c'.sewBits = width ∧ c'.vlmax = c.vlmax ∧
        (c'.lmulNumerator : ℚ) / c'.lmulDenominator = emul c width := by
  refine ⟨fun base g hcreate ↦ ?_, fun _ hmem ↦ isSome_derive_iff h.legal hmem,
    fun width hmem ↦ ?_, fun _ _ hderive ↦ derived_fields h.legal hderive⟩
  · obtain ⟨hconfiguration, -⟩ := VectorRegisterGroup.configuration_create hcreate
    have hfits : g.Fits := VectorRegisterGroup.fits_of_legal (hconfiguration ▸ h.legal)
    exact ⟨hconfiguration, (VectorRegisterGroup.baseRegister_create hcreate).1,
      VectorRegisterGroup.layout_of_fits hfits⟩
  · rw [Option.eq_none_iff_forall_not_mem]
    intro c' hderive
    obtain ⟨-, hwidth, -, -⟩ := deriveMemoryConfiguration_eq_some_iff.1 hderive
    exact hmem (by simpa using hwidth)

/-- The elements of 16 bits of an access with SEW = 8 and LMUL = 1 are in two registers. -/
theorem registerGroup_layout_e16 : ∃ c g,
    deriveMemoryConfiguration (decodeVectorConfiguration 0#64) 16 = some c ∧
      VectorRegisterGroup.create c 4#5 = some g ∧ g.Layout := by
  have hdecoded : (decodeVectorConfiguration 0#64).valid = true := by decide
  have hderive : ∃ c, deriveMemoryConfiguration (decodeVectorConfiguration 0#64) 16 = some c ∧
      (VectorRegisterGroup.create c 4#5).isSome = true := ⟨_, rfl, rfl⟩
  obtain ⟨c, hc, hcreate⟩ := hderive
  obtain ⟨g, hg⟩ := Option.isSome_iff_exists.1 hcreate
  exact ⟨c, g, hc, hg, ((registerGroup_layout (.derived (.decoded hdecoded) hc)).1 4#5 g hg).2.2⟩

end Rvemu
