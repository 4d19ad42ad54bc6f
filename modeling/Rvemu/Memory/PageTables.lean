import Rvemu.Memory.TlbTransparency
import Rvemu.Memory.Translate

/-!
# Data beside the page tables

A set `tables` of physical addresses holds the page tables if every walk stays inside it.  Stores
outside the set do not change what a walk finds, nor what the TLB has of it, and the MMU itself
changes A and D bits only: translations stay what they are while the data next to the tables change.
-/

set_option autoImplicit false

namespace Rvemu

open Mmu

/-! ## RAM stays where it is -/

namespace Bus

theorem InRam.of_stored {b b' : Bus} {a : BitVec 64} {w : AccessWidth} {v : BitVec 64} {x n : ℕ}
    (h : b.InRam x n) (hs : Stored b b' a w v) : b'.InRam x n := by
  obtain ⟨m, hm, hbase, hend⟩ := h
  obtain ⟨i, o, m', -, hi, hregions⟩ := hs
  obtain ⟨l, hl⟩ := List.mem_iff_getElem?.1 hm
  by_cases hli : i = l
  · subst hli
    rw [hi, Option.some.injEq, AddressRegion.ram.injEq] at hl
    subst hl
    have hlt := (List.getElem?_eq_some_iff.1 hi).1
    refine ⟨m'.writeUnlocked o w v, ?_, hbase, hend⟩
    rw [hregions]
    exact List.mem_of_getElem? (List.getElem?_set_self hlt)
  · refine ⟨m, ?_, hbase, hend⟩
    rw [hregions]
    exact List.mem_of_getElem? ((List.getElem?_set_ne hli).trans hl)

/-- Reading RAM leaves the bus alone. -/
theorem InRam.read_bus {b : Bus} {a : BitVec 64} {w : AccessWidth}
    (h : b.InRam a.toNat (widthInBytes w)) (t : AccessType) : (b.read a w t).2 = b := by
  obtain ⟨i, o, m, hl, hm, -, -⟩ := h.locate
  rcases onRegion_cases b a w (readOp w) with ⟨e, -, he⟩ | ⟨i', o', r, hl', hr, -, h₂, h₃, h₄⟩
  · exact congrArg Prod.snd he
  · rw [hl, Except.ok.injEq, Prod.mk.injEq] at hl'
    obtain ⟨rfl, rfl⟩ := hl'
    rw [hm, Option.some.injEq] at hr
    subst hr
    refine ext_fields (h₂.trans ?_) h₃ h₄
    exact set_of_getElem? hm

end Bus

/-! ## Walks and the data beside them -/

/-- Every entry that a walk from `root` reads lies in `tables`. -/
def TablesIn (tables : ℕ → Prop) (b : Bus) (root : BitVec 64) : Prop :=
  ∀ va, ∀ a ∈ walkEntries b va root 2, ∀ i < 8, tables (a.toNat + i)

/-- In `tables`, `b'` is `b` up to additional A and D bits, and what was RAM still is. -/
structure BesideTables (tables : ℕ → Prop) (b b' : Bus) : Prop where
  entries : ∀ a : BitVec 64, a.toNat % 8 = 0 → (∀ i < 8, tables (a.toNat + i)) → EntryLe b b' a
  ram : ∀ x n, b.InRam x n → b'.InRam x n

namespace BesideTables

variable {tables : ℕ → Prop} {root : BitVec 64} {b b' b'' : Bus}

theorem refl (tables : ℕ → Prop) (b : Bus) : BesideTables tables b b :=
  ⟨fun _ _ _ ↦ ⟨rfl, AdLe.refl _⟩, fun _ _ h ↦ h⟩

theorem trans (h : BesideTables tables b b') (h' : BesideTables tables b' b'') :
    BesideTables tables b b'' where
  entries a ha htables := by
    obtain ⟨hok, had⟩ := h.entries a ha htables
    obtain ⟨hok', had'⟩ := h'.entries a ha htables
    exact ⟨hok'.trans hok, had.trans had'⟩
  ram x n hx := h'.ram x n (h.ram x n hx)

/-- A byte stored outside the tables. -/
theorem of_stored {pa v : BitVec 64} (hs : Bus.Stored b b' pa .byte v)
    (hout : ¬tables pa.toNat) : BesideTables tables b b' where
  entries a _ htables := by
    have hread : tableRead b' a = tableRead b a := by
      refine hs.read_of_disjoint ?_ .load
      by_contra hoverlap
      rw [not_or, Nat.not_le, Nat.not_le, show widthInBytes .doubleWord = 8 from rfl,
        show widthInBytes .byte = 1 from rfl] at hoverlap
      refine hout ?_
      have hin := htables (pa.toNat - a.toNat) (by omega)
      rwa [Nat.add_sub_cancel' (by omega)] at hin
    rw [EntryLe, hread]
    exact ⟨rfl, AdLe.refl _⟩
  ram _ _ h := h.of_stored hs

theorem of_leafUpdated {leaf : Leaf} {kind : MmuAccessKind} (h : LeafUpdated b b' leaf kind)
    (hat : LeafAt b leaf) : BesideTables tables b b' where
  entries a ha _ := h.tablesLe hat a ha
  ram x n hx := by
    rcases h with ⟨-, rfl⟩ | ⟨-, -, hs⟩
    · exact hx
    · exact hx.of_stored hs

theorem of_translate (tables : ℕ → Prop) (m : Mmu) (b : Bus) (va : BitVec 64) (w : AccessWidth)
    (kind : MmuAccessKind) (context : MmuContext) :
    BesideTables tables b (m.translate b va w kind context).2.2 := by
  rcases translate_cases m b va w kind context with
    h | ⟨-, h⟩ | ⟨hit, -, -, h⟩ | ⟨leaf, b', -, -, hf, -, -, hu, h⟩ <;> rw [h]
  · exact refl _ _
  · exact refl _ _
  · exact refl _ _
  · exact of_leafUpdated hu (findLeaf_leafAt hf)

section Walks

variable (h : BesideTables tables b b') (hin : TablesIn tables b root)

include h hin

theorem entryLe {va a : BitVec 64} (ha : a ∈ walkEntries b va root 2) : EntryLe b b' a :=
  h.entries a (walkEntries_aligned ha) (hin va a ha)

theorem findLeaf {va : BitVec 64} {leaf : Leaf} (hf : (findLeaf b va root 2).1 = some leaf) :
    ∃ pte, AdLe leaf.pte pte ∧ (Mmu.findLeaf b' va root 2).1 = some { leaf with pte } :=
  findLeaf_of_entryLe (fun _ ha ↦ h.entryLe hin ha) hf

theorem tablesIn : TablesIn tables b' root := by
  intro va a ha
  rw [walkEntries_of_entryLe fun a ha ↦ h.entryLe hin ha] at ha
  exact hin va a ha

end Walks

end BesideTables

/-! ## Translations beside the tables -/

theorem desiredPte_of_adLe {p q : BitVec 64} {kind : MmuAccessKind} (h : AdLe p q)
    (hp : desiredPte p kind = p) : desiredPte q kind = q := by
  refine BitVec.eq_of_getLsbD_eq fun i hi ↦ ?_
  have hbit : (desiredPte p kind).getLsbD i = p.getLsbD i := by rw [hp]
  rw [getLsbD_desiredPte] at hbit ⊢
  cases hq : q.getLsbD i with
  | true => rfl
  | false =>
    have hpi : p.getLsbD i = false := by
      by_contra hne
      rw [h.mono i (by simpa using hne)] at hq
      cases hq
    rw [hpi] at hbit
    exact hbit

/-- **A translation stays what it is** while data outside the tables change. -/
theorem translateUncached_beside {tables : ℕ → Prop} {b b' : Bus} {va pa : BitVec 64}
    {kind : MmuAccessKind} {context : MmuContext} (hb : BesideTables tables b b')
    (hin : TablesIn tables b (satpRootPpn context.satp))
    (h : (translateUncached b va kind context).1 = .ok pa) :
    (translateUncached b' va kind context).1 = .ok pa := by
  rw [translateUncached] at h ⊢
  split at h
  · next hbare =>
    rw [if_pos hbare]
    exact h
  · next hbare =>
    rw [if_neg hbare]
    split at h
    · cases h
    · next hcanon =>
      rw [if_neg hcanon]
      dsimp only at h ⊢
      rcases walkPageTable_cases {} b va kind context with
        hw | ⟨leaf, b₁, hf, halign, hperm, hupdated, hw⟩
      · rw [hw] at h
        cases h
      · rw [hw] at h
        obtain ⟨pte, had, hf'⟩ := hb.findLeaf hin hf
        have hat := findLeaf_leafAt hf'
        have hsame : composePhysicalAddress va (ptePpn pte) leaf.level = pa := by
          rw [had.ptePpn_eq]
          exact Except.ok.inj h
        simp only [walkPageTable, findLeaf_bus, hf', had.ptePpn_eq, had.permissionAllows_eq, halign,
          hperm, Bool.not_true, Bool.or_false]
        rw [if_neg Bool.false_ne_true]
        split
        · rw [had.ptePpn_eq] at hsame
          exact congrArg Except.ok hsame
        · next hmissing =>
          -- the entry still lacks a bit, so it lacked it before and was in RAM then
          have hram : b.InRam leaf.pteAddress.toNat (widthInBytes .doubleWord) := by
            rcases hupdated with ⟨hdone, -⟩ | ⟨-, -, hs⟩
            · exact absurd (desiredPte_of_adLe had hdone) hmissing
            · exact hs.inRam
          have hok := (hb.ram _ _ hram).compareExchange pte (desiredPte pte kind) .atomic
          have hcx := Bus.compareExchange_of_read hat.ok (desiredPte pte kind) .atomic
          rw [show (b'.read leaf.pteAddress .doubleWord .load).1.value = pte from hat.value] at hcx
          rcases hcx with ⟨hno, -⟩ | ⟨-, hexchanged, -⟩
          · exact absurd (hok.symm.trans hno) (by decide)
          · rw [hok, hexchanged, if_neg (by decide), if_neg (by decide)]
            rw [had.ptePpn_eq] at hsame
            exact congrArg Except.ok hsame

/-! ## The TLB beside the tables -/

/-- The flags of a TLB entry and of the entry it was filled from, up to D bits set since. -/
structure FlagsAgree (flags : BitVec 16) (pte : BitVec 64) : Prop where
  accessed : hasFlag (pteFlags pte) Pte.accessed = true
  dirty : hasFlag flags Pte.dirty = true → hasFlag (pteFlags pte) Pte.dirty = true
  permission : ∀ kind context,
    permissionAllows flags kind context = permissionAllows (pteFlags pte) kind context

theorem FlagsAgree.of_adLe {flags : BitVec 16} {pte pte' : BitVec 64} (h : FlagsAgree flags pte)
    (hle : AdLe pte pte') : FlagsAgree flags pte' where
  accessed := hle.flag_mono (by decide) h.accessed
  dirty hd := hle.flag_mono (by decide) (h.dirty hd)
  permission kind context := (h.permission kind context).trans
    (hle.permissionAllows_eq kind context).symm

/-- An entry of the TLB is the leaf that a walk finds. -/
structure EntryAgrees (e : TlbEntry) (leaf : Leaf) : Prop where
  aligned : superpageAligned e.physicalPageNumber e.level = true
  level : leaf.level = e.level
  page : ptePpn leaf.pte = e.physicalPageNumber
  flags : FlagsAgree e.flags leaf.pte

/-- Every address that the TLB covers in the address space `satp` is mapped as the TLB says. -/
def TlbAgrees (satp : BitVec 64) (m : Mmu) (b : Bus) : Prop :=
  ∀ e ∈ m.tlb, ∀ va, e.covers va (satpAsid satp) = true →
    ∃ leaf, (findLeaf b va (satpRootPpn satp) 2).1 = some leaf ∧ EntryAgrees e leaf

namespace TlbAgrees

variable {tables : ℕ → Prop} {satp : BitVec 64} {m : Mmu} {b b' : Bus}

theorem of_findLeaf (h : TlbAgrees satp m b)
    (hf : ∀ va leaf, (findLeaf b va (satpRootPpn satp) 2).1 = some leaf →
      ∃ pte, AdLe leaf.pte pte ∧
        (findLeaf b' va (satpRootPpn satp) 2).1 = some { leaf with pte }) :
    TlbAgrees satp m b' := by
  intro e he va hcovers
  obtain ⟨leaf, hleaf, hagrees⟩ := h e he va hcovers
  obtain ⟨pte, had, hleaf'⟩ := hf va leaf hleaf
  exact ⟨_, hleaf', hagrees.aligned, hagrees.level, had.ptePpn_eq.trans hagrees.page,
    hagrees.flags.of_adLe had⟩

theorem beside (h : TlbAgrees satp m b) (hb : BesideTables tables b b')
    (hin : TablesIn tables b (satpRootPpn satp)) : TlbAgrees satp m b' :=
  h.of_findLeaf fun _ _ hf ↦ hb.findLeaf hin hf

/-- A TLB that an SFENCE.VMA has emptied. -/
theorem of_empty (h : ∀ e ∈ m.tlb, e.valid = false) : TlbAgrees satp m b := by
  intro e he va hcovers
  rw [TlbEntry.covers, h e he] at hcovers
  cases hcovers

theorem set (h : TlbAgrees satp m b) {m' : Mmu} {i : ℕ} {e : TlbEntry}
    (htlb : m'.tlb = m.tlb.set i e)
    (he : ∀ va, e.covers va (satpAsid satp) = true →
      ∃ leaf, (findLeaf b va (satpRootPpn satp) 2).1 = some leaf ∧ EntryAgrees e leaf) :
    TlbAgrees satp m' b := by
  intro e' he'
  rw [htlb] at he'
  rcases mem_set_cases he' with hold | rfl
  · exact h e' hold
  · exact he

/-- A hit is what the walk would have said. -/
theorem lookupTlb (h : TlbAgrees satp m b) {va : BitVec 64} {kind : MmuAccessKind}
    {context : MmuContext} (hsatp : context.satp = satp) {hit : BitVec 64 × Mmu}
    (hhit : m.lookupTlb va kind context = some hit) :
    (({} : Mmu).walkPageTable b va kind context).1 = .translated hit.1 ∧
      TlbAgrees satp hit.2 b := by
  subst hsatp
  obtain ⟨i, e, hi, he, hperm, hdirty, hpa, htlb⟩ := lookupTlb_eq_some hhit
  obtain ⟨hlt, hcovers, -⟩ := List.findIdx?_eq_some_iff_getElem.1 hi
  rw [List.getElem?_eq_getElem hlt, Option.some.injEq] at he
  have hmem : e ∈ m.tlb := he ▸ List.getElem_mem hlt
  rw [he] at hcovers
  obtain ⟨leaf, hf, hagrees⟩ := h e hmem va hcovers
  have hdone : desiredPte leaf.pte kind = leaf.pte := by
    refine desiredPte_eq_self hagrees.flags.accessed fun hn ↦ hagrees.flags.dirty ?_
    rw [hn, Bool.true_and, Bool.not_eq_false'] at hdirty
    exact hdirty
  have hallow : permissionAllows (pteFlags leaf.pte) kind context = true := by
    rw [← hagrees.flags.permission]
    exact hperm
  have halign := hagrees.aligned
  rw [← hagrees.page, ← hagrees.level] at halign
  refine ⟨?_, h.set htlb fun va' hva' ↦ ?_⟩
  · rw [(walkPageTable_of_leaf {} hf halign hallow hdone).1, hagrees.page, hagrees.level, hpa]
  · obtain ⟨leaf', hf', hagrees'⟩ := h e hmem va' hva'
    exact ⟨leaf', hf', hagrees'.aligned, hagrees'.level, hagrees'.page, hagrees'.flags⟩

/-- The entry that is filled in after a walk. -/
theorem fillTlb {va : BitVec 64} {kind : MmuAccessKind} {context : MmuContext} {leaf : Leaf}
    (h : TlbAgrees context.satp m b) (hf : (findLeaf b va (satpRootPpn context.satp) 2).1 =
      some leaf)
    (halign : superpageAligned (ptePpn leaf.pte) leaf.level = true)
    (hupdated : LeafUpdated b b' leaf kind) :
    TlbAgrees context.satp
      (m.fillTlb va leaf.level (ptePpn leaf.pte) (pteFlags (desiredPte leaf.pte kind))
        (satpAsid context.satp)) b' := by
  have hat := findLeaf_leafAt hf
  have hle := hupdated.tablesLe hat
  have hold : TlbAgrees context.satp m b' := h.of_findLeaf fun _ _ hf ↦ findLeaf_of_tablesLe hle hf
  refine hold.set rfl fun va' hcovers ↦ ?_
  rw [TlbEntry.covers, Bool.and_eq_true, beq_iff_eq] at hcovers
  obtain ⟨pte, had, hf'⟩ := findLeaf_of_tablesLe hle hf
  obtain rfl : desiredPte leaf.pte kind = pte := by
    rw [← hupdated.value_eq hat]
    exact (findLeaf_leafAt hf').value
  have hsame := vpn_eq_of_virtualPage_eq (level_findLeaf hf) hcovers.2
  refine ⟨_, findLeaf_of_same_page hf' (Nat.le_refl _) hsame, halign, rfl, had.ptePpn_eq,
    accessed_desiredPte _ _, fun hd ↦ hd, fun _ _ ↦ rfl⟩

/-- **One translation**: what the walk says, and the TLB still agrees. -/
theorem translate {context : MmuContext} (h : TlbAgrees context.satp m b) (va : BitVec 64)
    (w : AccessWidth) (kind : MmuAccessKind) :
    (m.translate b va w kind context).1 = (translateUncached b va kind context).1 ∧
      TlbAgrees context.satp (m.translate b va w kind context).2.1
        (m.translate b va w kind context).2.2 := by
  by_cases hbare : context.privilege = .machine ∨ satpMode context.satp = 0#64
  · rw [Mmu.translate, translateUncached, if_pos hbare, if_pos hbare]
    exact ⟨rfl, h⟩
  by_cases hcanon : satpMode context.satp ≠ sv39Mode ∨ (!canonicalSv39 va) = true
  · rw [Mmu.translate, translateUncached, if_neg hbare, if_neg hbare, if_pos hcanon, if_pos hcanon]
    exact ⟨rfl, h⟩
  have hpaged : Paged va context := ⟨hbare, hcanon⟩
  have huncached : translateUncached b va kind context =
      ((({} : Mmu).walkPageTable b va kind context).1.toTranslation va kind,
        (({} : Mmu).walkPageTable b va kind context).2.2) := by
    rw [translateUncached, if_neg hbare, if_neg hcanon]
  cases hhit : m.lookupTlb va kind context with
  | some hit =>
    obtain ⟨hwalk, hagrees⟩ := h.lookupTlb rfl hhit
    rw [translate_hit hpaged hhit, huncached, hwalk]
    exact ⟨rfl, hagrees⟩
  | none =>
    rw [translate_miss hpaged hhit, huncached, (walkPageTable_tlb_free m {} b va kind context).1]
    refine ⟨rfl, ?_⟩
    rcases walkPageTable_cases m b va kind context with hw | ⟨leaf, b', hf, halign, -, hup, hw⟩
    · rw [hw]
      exact h
    · rw [hw]
      exact h.fillTlb hf halign hup

end TlbAgrees

end Rvemu
