import Rvemu.Memory.Translate

/-!
# Addresses in one page

A translation depends on the page of an address; inside the page, physical addresses follow virtual
ones.  So an access that stays in a page may be translated by its first byte.
-/

set_option autoImplicit false

namespace Rvemu

open Mmu

/-- `va'` lies `i` bytes after `va`, in the same page. -/
structure SamePage (va va' : BitVec 64) (i : ℕ) : Prop where
  eq : va' = va + BitVec.ofNat 64 i
  fits : va.toNat % 2 ^ 12 + i < 2 ^ 12

namespace SamePage

variable {va va' : BitVec 64} {i : ℕ} (h : SamePage va va' i)

include h

theorem toNat_eq : va'.toNat = va.toNat + i := by
  have hva := va.isLt
  have hfits := h.fits
  rw [h.eq, BitVec.toNat_add, BitVec.toNat_ofNat]
  omega

theorem div_eq {k : ℕ} (hk : 12 ≤ k) : va'.toNat / 2 ^ k = va.toNat / 2 ^ k := by
  obtain ⟨l, rfl⟩ := Nat.exists_eq_add_of_le hk
  have hpage : va'.toNat / 2 ^ 12 = va.toNat / 2 ^ 12 := by
    have hfits := h.fits
    rw [h.toNat_eq]
    omega
  rw [Nat.pow_add, ← Nat.div_div_eq_div_mul, ← Nat.div_div_eq_div_mul, hpage]

theorem ushiftRight_eq {k : ℕ} (hk : 12 ≤ k) : va' >>> k = va >>> k := by
  refine BitVec.eq_of_toNat_eq ?_
  rw [BitVec.toNat_ushiftRight, BitVec.toNat_ushiftRight, Nat.shiftRight_eq_div_pow,
    Nat.shiftRight_eq_div_pow, h.div_eq hk]

theorem vpn_eq (level : ℕ) : vpn va' level = vpn va level := by
  rw [vpn, vpn, h.ushiftRight_eq (by omega)]

theorem canonicalSv39_eq : canonicalSv39 va' = canonicalSv39 va := by
  rw [canonicalSv39, canonicalSv39, h.ushiftRight_eq (by decide), h.ushiftRight_eq (by decide)]

theorem virtualPageForLevel_eq (level : ℕ) :
    virtualPageForLevel va' level = virtualPageForLevel va level := by
  refine BitVec.eq_of_toNat_eq ?_
  rw [virtualPageForLevel, virtualPageForLevel, BitVec.toNat_udiv, BitVec.toNat_udiv,
    pageSizeForLevel, BitVec.toNat_shiftLeft, Nat.shiftLeft_eq,
    show (4096#64).toNat = 2 ^ 12 from rfl, ← Nat.pow_add]
  rcases Nat.lt_or_ge (12 + 9 * level) 64 with hlt | hge
  · rw [Nat.mod_eq_of_lt (Nat.pow_lt_pow_right (by decide) hlt), h.div_eq (by omega)]
  · rw [Nat.mod_eq_zero_of_dvd (Nat.pow_dvd_pow 2 hge), Nat.div_zero, Nat.div_zero]

theorem composePhysicalAddress_eq (ppn : BitVec 64) (level : ℕ) :
    composePhysicalAddress va' ppn level =
      composePhysicalAddress va ppn level + BitVec.ofNat 64 i := by
  -- the offset takes the low bits, which the page numbers leave free
  have hbelow : ∀ page offset : BitVec 64, offset.toNat < 2 ^ 12 →
      (page <<< 12) ||| offset = (page <<< 12) + offset := by
    intro page offset hoffset
    refine (BitVec.add_eq_or_of_and_eq_zero _ _ ?_).symm
    refine BitVec.eq_of_getLsbD_eq fun k hk ↦ ?_
    rw [BitVec.getLsbD_and, BitVec.getLsbD_shiftLeft, BitVec.getLsbD_zero]
    by_cases hlow : k < 12
    · simp [hlow]
    · have hzero : offset.getLsbD k = false := by
        rw [BitVec.getLsbD]
        exact Nat.testBit_lt_two_pow (Nat.lt_of_lt_of_le hoffset
          (Nat.pow_le_pow_right (by decide) (Nat.not_lt.1 hlow)))
      rw [hzero, Bool.and_false]
  have hoffset : ∀ x : BitVec 64, (x &&& 0xFFF#64).toNat = x.toNat % 2 ^ 12 := fun x ↦
    Bits.toNat_and_mask x (show 12 < 64 by decide)
  have hsplit : ∀ ppn2 ppn1 ppn0 : BitVec 64, (ppn2 <<< 30) ||| (ppn1 <<< 21) ||| (ppn0 <<< 12) =
      ((ppn2 <<< 18) ||| (ppn1 <<< 9) ||| ppn0) <<< 12 := by
    intro ppn2 ppn1 ppn0
    rw [BitVec.shiftLeft_or_distrib, BitVec.shiftLeft_or_distrib, ← BitVec.shiftLeft_add,
      ← BitVec.shiftLeft_add]
  have hnext : va' &&& 0xFFF#64 = (va &&& 0xFFF#64) + BitVec.ofNat 64 i := by
    have hfits := h.fits
    refine BitVec.eq_of_toNat_eq ?_
    rw [hoffset, BitVec.toNat_add, hoffset, h.toNat_eq, BitVec.toNat_ofNat]
    omega
  rw [composePhysicalAddress, composePhysicalAddress, h.vpn_eq, h.vpn_eq, hsplit,
    hbelow _ _ (by rw [hoffset]; exact Nat.mod_lt _ (by decide)),
    hbelow _ _ (by rw [hoffset]; exact Nat.mod_lt _ (by decide)), hnext, BitVec.add_assoc]

theorem covers_eq (e : TlbEntry) (asid : BitVec 16) : e.covers va' asid = e.covers va asid := by
  rw [TlbEntry.covers, TlbEntry.covers, h.virtualPageForLevel_eq]

/-- The TLB answers for all addresses of a page or for none. -/
theorem lookupTlb_eq (m : Mmu) (kind : MmuAccessKind) (context : MmuContext) :
    m.lookupTlb va' kind context =
      (m.lookupTlb va kind context).map fun hit ↦ (hit.1 + BitVec.ofNat 64 i, hit.2) := by
  rw [lookupTlb, lookupTlb, funext fun e ↦ h.covers_eq e (satpAsid context.satp)]
  split
  · rfl
  · dsimp only
    split
    · rfl
    · split
      · rfl
      · rw [h.composePhysicalAddress_eq]
        rfl

theorem findLeaf_eq {b : Bus} {t : BitVec 64} {level : ℕ} {leaf : Leaf}
    (hf : (findLeaf b va t level).1 = some leaf) : (findLeaf b va' t level).1 = some leaf :=
  findLeaf_of_same_page hf (Nat.zero_le _) fun l _ ↦ (h.vpn_eq l).symm

theorem walkPageTable_eq {m : Mmu} {b : Bus} {kind : MmuAccessKind} {context : MmuContext}
    {pa : BitVec 64} (hw : (m.walkPageTable b va kind context).1 = .translated pa) :
    (m.walkPageTable b va' kind context).1 = .translated (pa + BitVec.ofNat 64 i) := by
  cases hf : (findLeaf b va (satpRootPpn context.satp) 2).1 with
  | none =>
    simp only [walkPageTable, hf] at hw
    cases hw
  | some leaf =>
    simp only [walkPageTable, findLeaf_bus, hf] at hw
    simp only [walkPageTable, findLeaf_bus, h.findLeaf_eq hf, h.composePhysicalAddress_eq]
    split at hw
    · cases hw
    · next hallowed =>
      rw [if_neg hallowed]
      split at hw
      · next hdone =>
        cases hw
        rw [if_pos hdone]
      · next hdone =>
        rw [if_neg hdone]
        split at hw
        · cases hw
        · next hok =>
          rw [if_neg hok]
          split at hw
          · cases hw
          · next hex =>
            cases hw
            rw [if_neg hex]

end SamePage

/-- **Inside a page, physical addresses follow virtual ones.** -/
theorem translate_samePage {m m' : Mmu} {b b' : Bus} {va va' pa : BitVec 64} {w : AccessWidth}
    {kind : MmuAccessKind} {context : MmuContext} {i : ℕ}
    (ht : m.translate b va w kind context = (.ok pa, m', b')) (h : SamePage va va' i)
    (w' : AccessWidth) :
    (m.translate b va' w' kind context).1 = .ok (pa + BitVec.ofNat 64 i) := by
  rcases translate_cases m b va w kind context with
    hc | ⟨hbare, hc⟩ | ⟨hit, hpaged, hhit, hc⟩ | ⟨leaf, b', hpaged, hmiss, -, -, -, -, hc⟩ <;>
    rw [ht, Prod.mk.injEq] at hc
  · cases hc.1
  · cases hc.1
    rw [Mmu.translate, if_pos hbare, h.eq]
  · cases hc.1
    have hpaged' : Paged va' context := by
      rw [Paged, h.canonicalSv39_eq]
      exact hpaged
    rw [translate_hit hpaged' (by rw [h.lookupTlb_eq, hhit, Option.map_some]) b w']
  · have hpaged' : Paged va' context := by
      rw [Paged, h.canonicalSv39_eq]
      exact hpaged
    have hw : (m.walkPageTable b va kind context).1 = .translated pa := by
      rw [translate_miss hpaged hmiss, Prod.mk.injEq] at ht
      cases hr : (m.walkPageTable b va kind context).1 with
      | translated pa' =>
        rw [hr] at ht
        exact congrArg _ (Except.ok.inj ht.1)
      | fault fault =>
        rw [hr] at ht
        cases ht.1
      | retry =>
        rw [hr] at ht
        cases ht.1
    rw [translate_miss hpaged' (by rw [h.lookupTlb_eq, hmiss, Option.map_none]),
      h.walkPageTable_eq hw]
    rfl

/-- The offset in the page is not translated. -/
theorem toNat_composePhysicalAddress_mod (va ppn : BitVec 64) (level : ℕ) :
    (composePhysicalAddress va ppn level).toNat % 2 ^ 12 = va.toNat % 2 ^ 12 := by
  have hlow : ∀ (page : BitVec 64) (k : ℕ), 12 ≤ k → (page <<< k).toNat % 2 ^ 12 = 0 := by
    intro page k hk
    rw [BitVec.toNat_shiftLeft, Nat.shiftLeft_eq,
      Nat.mod_mod_of_dvd _ (Nat.pow_dvd_pow 2 (by decide))]
    exact Nat.mod_eq_zero_of_dvd (Nat.dvd_mul_left_of_dvd (Nat.pow_dvd_pow 2 hk) _)
  have hoffset : (va &&& 0xFFF#64).toNat = va.toNat % 2 ^ 12 :=
    Bits.toNat_and_mask va (show 12 < 64 by decide)
  rw [composePhysicalAddress, BitVec.toNat_or, BitVec.toNat_or, BitVec.toNat_or,
    Nat.or_mod_two_pow, Nat.or_mod_two_pow, Nat.or_mod_two_pow, hlow _ 30 (by decide),
    hlow _ 21 (by decide), hlow _ 12 (by decide), hoffset, Nat.mod_mod, Nat.or_self, Nat.zero_or,
    Nat.zero_or]

theorem toNat_translate_mod {m m' : Mmu} {b b' : Bus} {va pa : BitVec 64} {w : AccessWidth}
    {kind : MmuAccessKind} {context : MmuContext}
    (ht : m.translate b va w kind context = (.ok pa, m', b')) :
    pa.toNat % 2 ^ 12 = va.toNat % 2 ^ 12 := by
  rcases translate_cases m b va w kind context with
    hc | ⟨-, hc⟩ | ⟨hit, -, hhit, hc⟩ | ⟨leaf, b₁, -, -, -, -, -, -, hc⟩ <;>
    rw [ht, Prod.mk.injEq] at hc
  · cases hc.1
  · cases hc.1
    rfl
  · cases hc.1
    obtain ⟨i, e, -, -, -, -, hpa, -⟩ := lookupTlb_eq_some hhit
    rw [hpa, toNat_composePhysicalAddress_mod]
  · cases hc.1
    rw [toNat_composePhysicalAddress_mod]

end Rvemu
