import Rvemu.Memory.Walk

/-!
# What a translation leaves behind

`AdUpdated` is the relation between the bus before and after any number of translations and reads:
the page tables agree up to A and D bits, and a byte of RAM that changed is the low byte of a leaf
entry, with only those two bits changed.  The second half shows that a translation which succeeded
succeeds again, at the same address and without touching memory; this is what bounds the retry loop
of the atomics.
-/

set_option autoImplicit false

namespace Rvemu

open Mmu Bytes

/-! ## Memory up to A and D -/

/-- The low byte of an entry, up to the A and D bits. -/
def sameUpToAd (v v' : BitVec 8) : Prop := v &&& 0x3F#8 = v' &&& 0x3F#8

/-- The entry at this address is one that a page walk from `root` ends in. -/
def IsLeafEntry (b : Bus) (root : BitVec 64) (x : ℕ) : Prop :=
  ∃ va leaf, (findLeaf b va root 2).1 = some leaf ∧ x = leaf.pteAddress.toNat

/-- `b'` is `b` up to A and D bits of leaf entries, as far as RAM and the page walker can tell. -/
structure AdUpdated (root : BitVec 64) (b b' : Bus) : Prop where
  tables : TablesLe b b'
  ram : ∀ x, b'.ramByte x = b.ramByte x ∨
    IsLeafEntry b' root x ∧
      ∃ v v', b.ramByte x = some v ∧ b'.ramByte x = some v' ∧ sameUpToAd v v'

theorem IsLeafEntry.of_tablesLe {b b' : Bus} {root : BitVec 64} {x : ℕ}
    (h : IsLeafEntry b root x) (hle : TablesLe b b') : IsLeafEntry b' root x := by
  obtain ⟨va, leaf, hf, rfl⟩ := h
  obtain ⟨pte, -, hf'⟩ := findLeaf_of_tablesLe hle hf
  exact ⟨va, _, hf', rfl⟩

namespace AdUpdated

variable {root : BitVec 64} {b c d : Bus}

theorem refl (root : BitVec 64) (b : Bus) : AdUpdated root b b :=
  ⟨TablesLe.refl b, fun _ ↦ Or.inl rfl⟩

theorem trans (h : AdUpdated root b c) (h' : AdUpdated root c d) : AdUpdated root b d := by
  refine ⟨h.tables.trans h'.tables, fun x ↦ ?_⟩
  rcases h.ram x with hx | ⟨hleaf, v, v', hv, hv', hsame⟩
  · rcases h'.ram x with hy | ⟨hleaf', w, w', hw, hw', hsame'⟩
    · exact Or.inl (hy.trans hx)
    · exact Or.inr ⟨hleaf', w, w', hx ▸ hw, hw', hsame'⟩
  · rcases h'.ram x with hy | ⟨hleaf', w, w', hw, hw', hsame'⟩
    · exact Or.inr ⟨hleaf.of_tablesLe h'.tables, v, v', hv, hy.trans hv', hsame⟩
    · rw [hv', Option.some.injEq] at hw
      subst hw
      exact Or.inr ⟨hleaf', v, w', hv, hw', hsame.trans hsame'⟩

/-- Nothing the page walker or RAM can see has changed. -/
theorem of_same (htable : ∀ a, tableRead c a = tableRead b a)
    (hram : ∀ x, c.ramByte x = b.ramByte x) : AdUpdated root b c := by
  refine ⟨fun a _ ↦ ?_, fun x ↦ Or.inl (hram x)⟩
  rw [htable a]
  exact ⟨rfl, AdLe.refl _⟩

theorem of_regions (h : c.regions = b.regions) : AdUpdated root b c := by
  refine of_same (fun a ↦ ?_) fun x ↦ by rw [Bus.ramByte, Bus.ramByte, h]
  have hl : c.locate a .doubleWord = b.locate a .doubleWord := by rw [Bus.locate, Bus.locate, h]
  cases hb : b.locate a .doubleWord with
  | error e =>
    rw [tableRead, tableRead, Bus.read_of_locate_error .load (hl.trans hb),
      Bus.read_of_locate_error .load hb]
  | ok p =>
    obtain ⟨r, hr, -⟩ := Bus.locate_ok hb
    rw [tableRead, tableRead, Bus.read_eq_of_locate .load (hl.trans hb) (by rw [h]; exact hr),
      Bus.read_eq_of_locate .load hb hr]

theorem of_read (b : Bus) (a : BitVec 64) (w : AccessWidth) (t : AccessType) :
    AdUpdated root b (b.read a w t).2 :=
  of_same (fun x ↦ Bus.read_doubleWord_read b a x w t .load) fun x ↦ Bus.ramByte_read b a w t x

end AdUpdated

/-! ## The update of a leaf -/

/-- Adding A and D bits to an entry changes its first byte only, and only in those bits. -/
theorem splitByte_of_adLe {pte pte' : BitVec 64} (h : AdLe pte pte') {i : ℕ} (hi : 0 < i) :
    splitByte pte' i = splitByte pte i := by
  apply BitVec.eq_of_getLsbD_eq
  intro j hj
  rw [getLsbD_splitByte, getLsbD_splitByte, h.other _ (by omega) (by omega)]

theorem sameUpToAd_of_adLe {pte pte' : BitVec 64} (h : AdLe pte pte') :
    sameUpToAd (splitByte pte 0) (splitByte pte' 0) := by
  have hmask : ∀ j < 8, (0x3F#8).getLsbD j = decide (j < 6) := by decide
  apply BitVec.eq_of_getLsbD_eq
  intro j hj
  rw [BitVec.getLsbD_and, BitVec.getLsbD_and, hmask j hj]
  by_cases h6 : j < 6
  · rw [getLsbD_splitByte, getLsbD_splitByte, h.other _ (by omega) (by omega)]
  · simp [h6]

theorem LeafUpdated.adUpdated {b b' : Bus} {va root : BitVec 64} {leaf : Leaf}
    {kind : MmuAccessKind} (h : LeafUpdated b b' leaf kind)
    (hf : (findLeaf b va root 2).1 = some leaf) : AdUpdated root b b' := by
  have hat := findLeaf_leafAt hf
  have htables := h.tablesLe hat
  refine ⟨htables, fun x ↦ ?_⟩
  rcases h with ⟨-, rfl⟩ | ⟨-, -, hs⟩
  · exact Or.inl rfl
  · have had := adLe_desiredPte leaf.pte kind
    rw [hs.ramByte_eq x]
    split
    · next hx =>
      rw [show widthInBytes .doubleWord = 8 from rfl] at hx
      have hold := (hs.inRam.read .load).2 (x - leaf.pteAddress.toNat)
        (by rw [show widthInBytes .doubleWord = 8 from rfl]; omega)
      rw [show leaf.pteAddress.toNat + (x - leaf.pteAddress.toNat) = x by omega,
        show (b.read leaf.pteAddress .doubleWord .load).1.value = leaf.pte from hat.value] at hold
      rcases Nat.eq_zero_or_pos (x - leaf.pteAddress.toNat) with h0 | hpos
      · rw [h0] at hold ⊢
        have hentry : IsLeafEntry b root x := ⟨va, leaf, hf, by omega⟩
        exact Or.inr ⟨hentry.of_tablesLe htables, _, _, hold, rfl, sameUpToAd_of_adLe had⟩
      · rw [hold, splitByte_of_adLe had hpos]
        exact Or.inl rfl
    · exact Or.inl rfl

/-! ## One translation -/

/-- The access goes through the page tables and has a canonical address. -/
def Paged (va : BitVec 64) (context : MmuContext) : Prop :=
  ¬ (context.privilege = .machine ∨ satpMode context.satp = 0#64) ∧
    ¬ (satpMode context.satp ≠ sv39Mode ∨ (!canonicalSv39 va) = true)

theorem translate_hit {m : Mmu} {va : BitVec 64} {kind : MmuAccessKind} {context : MmuContext}
    (hpaged : Paged va context) {hit : BitVec 64 × Mmu}
    (hhit : m.lookupTlb va kind context = some hit) (b : Bus) (w : AccessWidth) :
    m.translate b va w kind context = (.ok hit.1, hit.2, b) := by
  rw [Mmu.translate, if_neg hpaged.1, if_neg hpaged.2, hhit]

theorem translate_miss {m : Mmu} {va : BitVec 64} {kind : MmuAccessKind} {context : MmuContext}
    (hpaged : Paged va context) (hmiss : m.lookupTlb va kind context = none) (b : Bus)
    (w : AccessWidth) :
    m.translate b va w kind context =
      ((m.walkPageTable b va kind context).1.toTranslation va kind,
        (m.walkPageTable b va kind context).2) := by
  rw [Mmu.translate, if_neg hpaged.1, if_neg hpaged.2, hmiss]
  dsimp only
  rw [walkAttempts, walkLoop_eq, Option.getD_some]

/-- What a translation can do: fail or succeed without touching memory, or succeed through a walk
that brings its leaf up to date. -/
theorem translate_cases (m : Mmu) (b : Bus) (va : BitVec 64) (w : AccessWidth)
    (kind : MmuAccessKind) (context : MmuContext) :
    m.translate b va w kind context = (.error (pageFault kind va), m, b) ∨
    ((context.privilege = .machine ∨ satpMode context.satp = 0#64) ∧
      m.translate b va w kind context = (.ok va, m, b)) ∨
    (∃ hit, Paged va context ∧ m.lookupTlb va kind context = some hit ∧
      m.translate b va w kind context = (.ok hit.1, hit.2, b)) ∨
    ∃ leaf b', Paged va context ∧ m.lookupTlb va kind context = none ∧
      (findLeaf b va (satpRootPpn context.satp) 2).1 = some leaf ∧
      superpageAligned (ptePpn leaf.pte) leaf.level = true ∧
      permissionAllows (pteFlags leaf.pte) kind context = true ∧ LeafUpdated b b' leaf kind ∧
      m.translate b va w kind context =
        (.ok (composePhysicalAddress va (ptePpn leaf.pte) leaf.level),
          m.fillTlb va leaf.level (ptePpn leaf.pte) (pteFlags (desiredPte leaf.pte kind))
            (satpAsid context.satp), b') := by
  by_cases hbare : context.privilege = .machine ∨ satpMode context.satp = 0#64
  · rw [Mmu.translate, if_pos hbare]
    exact Or.inr (Or.inl ⟨hbare, rfl⟩)
  by_cases hcanon : satpMode context.satp ≠ sv39Mode ∨ (!canonicalSv39 va) = true
  · rw [Mmu.translate, if_neg hbare, if_pos hcanon]
    exact Or.inl rfl
  have hpaged : Paged va context := ⟨hbare, hcanon⟩
  cases hhit : m.lookupTlb va kind context with
  | some hit => exact Or.inr (Or.inr (Or.inl ⟨hit, hpaged, rfl, translate_hit hpaged hhit b w⟩))
  | none =>
    rw [translate_miss hpaged hhit]
    rcases walkPageTable_cases m b va kind context with hw | ⟨leaf, b', hf, ha, hp, hu, hw⟩
    · rw [hw]
      exact Or.inl rfl
    · rw [hw]
      exact Or.inr (Or.inr (Or.inr ⟨leaf, b', hpaged, rfl, hf, ha, hp, hu, rfl⟩))

theorem translate_adUpdated (m : Mmu) (b : Bus) (va : BitVec 64) (w : AccessWidth)
    (kind : MmuAccessKind) (context : MmuContext) :
    AdUpdated (satpRootPpn context.satp) b (m.translate b va w kind context).2.2 := by
  rcases translate_cases m b va w kind context with
    h | ⟨-, h⟩ | ⟨hit, -, -, h⟩ | ⟨leaf, b', -, -, hf, -, -, hu, h⟩ <;> rw [h]
  · exact AdUpdated.refl _ _
  · exact AdUpdated.refl _ _
  · exact AdUpdated.refl _ _
  · exact hu.adUpdated hf

/-- The devices are out of reach of the page walker. -/
theorem LeafUpdated.devices_eq {b b' : Bus} {leaf : Leaf} {kind : MmuAccessKind}
    (h : LeafUpdated b b' leaf kind) : b'.devices = b.devices := by
  rcases h with ⟨-, rfl⟩ | ⟨-, -, i, o, m, -, hm, hregions⟩
  · rfl
  · exact Bus.devices_of_set hregions hm rfl

@[simp] theorem devices_translate (m : Mmu) (b : Bus) (va : BitVec 64) (w : AccessWidth)
    (kind : MmuAccessKind) (context : MmuContext) :
    (m.translate b va w kind context).2.2.devices = b.devices := by
  rcases translate_cases m b va w kind context with
    h | ⟨-, h⟩ | ⟨hit, -, -, h⟩ | ⟨leaf, b', -, -, -, -, -, hu, h⟩ <;> rw [h]
  exact hu.devices_eq

/-! ## Translating again -/

/-- The entry that decides a lookup and the answer it gives. -/
theorem lookupTlb_eq_some {m : Mmu} {va : BitVec 64} {kind : MmuAccessKind} {context : MmuContext}
    {hit : BitVec 64 × Mmu} (h : m.lookupTlb va kind context = some hit) :
    ∃ i e, m.tlb.findIdx? (·.covers va (satpAsid context.satp)) = some i ∧ m.tlb[i]? = some e ∧
      permissionAllows e.flags kind context = true ∧
      (needsDirty kind && !hasFlag e.flags Pte.dirty) = false ∧
      hit.1 = composePhysicalAddress va e.physicalPageNumber e.level ∧
      hit.2.tlb = m.tlb.set i { e with age := m.nextTlbAge } := by
  rw [lookupTlb] at h
  split at h
  · cases h
  · next i hi =>
    obtain ⟨hlt, -⟩ := List.findIdx?_eq_some_iff_getElem.1 hi
    have hget : m.tlb[i]? = some (m.tlb.getD i {}) := by simp [hlt]
    dsimp only at h
    split at h
    · cases h
    · next hperm =>
      split at h
      · cases h
      · next hdirty =>
        rw [Option.some.injEq] at h
        subst h
        exact ⟨i, m.tlb.getD i {}, hi, hget, by simpa using hperm, by simpa using hdirty, rfl, rfl⟩

/-- The first covering entry answers when it allows the access. -/
theorem lookupTlb_of_entry {m : Mmu} {va : BitVec 64} {kind : MmuAccessKind} {context : MmuContext}
    {i : ℕ} {e : TlbEntry} (hi : m.tlb.findIdx? (·.covers va (satpAsid context.satp)) = some i)
    (he : m.tlb[i]? = some e) :
    m.lookupTlb va kind context =
      if permissionAllows e.flags kind context = true ∧
          (needsDirty kind && !hasFlag e.flags Pte.dirty) = false then
        some (composePhysicalAddress va e.physicalPageNumber e.level,
          { m with
            tlb := m.tlb.set i { e with age := m.nextTlbAge }
            nextTlbAge := m.nextTlbAge + 1#64
            tlb_length := by rw [List.length_set, m.tlb_length] })
      else none := by
  have hget : m.tlb.getD i {} = e := by rw [List.getD_eq_getElem?_getD, he, Option.getD_some]
  simp only [lookupTlb, hi, hget]
  by_cases hp : permissionAllows e.flags kind context = true
  · by_cases hd : (needsDirty kind && !hasFlag e.flags Pte.dirty) = true
    · simp [hp, hd]
    · simp [hp, hd]
  · simp [hp]

/-- A hit is a hit again: refreshing the age changes nothing a lookup looks at. -/
theorem lookupTlb_again {m : Mmu} {va : BitVec 64} {kind : MmuAccessKind} {context : MmuContext}
    {hit : BitVec 64 × Mmu} (h : m.lookupTlb va kind context = some hit) :
    ∃ m', hit.2.lookupTlb va kind context = some (hit.1, m') := by
  obtain ⟨i, e, hi, he, hperm, hdirty, hpa, htlb⟩ := lookupTlb_eq_some h
  obtain ⟨hlt, hcov, hbefore⟩ := List.findIdx?_eq_some_iff_getElem.1 hi
  rw [List.getElem?_eq_getElem hlt, Option.some.injEq] at he
  have hi' : hit.2.tlb.findIdx? (·.covers va (satpAsid context.satp)) = some i := by
    rw [htlb, List.findIdx?_eq_some_iff_getElem]
    refine ⟨by rw [List.length_set]; exact hlt, ?_, fun j hj ↦ ?_⟩
    · rw [List.getElem_set_self, ← he]
      exact hcov
    · rw [List.getElem_set_ne (by omega)]
      exact hbefore j hj
  have he' : hit.2.tlb[i]? = some { e with age := m.nextTlbAge } := by
    rw [htlb, List.getElem?_set_self hlt]
  rw [lookupTlb_of_entry hi' he', if_pos ⟨hperm, hdirty⟩, ← hpa]
  exact ⟨_, rfl⟩

/-- After a miss, only the entry just filled in can answer for the same access. -/
theorem lookupTlb_fillTlb {m : Mmu} {va ppn : BitVec 64} {level : ℕ} {flags : BitVec 16}
    {kind : MmuAccessKind} {context : MmuContext} (hmiss : m.lookupTlb va kind context = none)
    {hit : BitVec 64 × Mmu}
    (h : (m.fillTlb va level ppn flags (satpAsid context.satp)).lookupTlb va kind context =
      some hit) : hit.1 = composePhysicalAddress va ppn level := by
  obtain ⟨i, e, hi, he, hperm, hdirty, hpa, -⟩ := lookupTlb_eq_some h
  obtain ⟨hlt, hcov, hbefore⟩ := List.findIdx?_eq_some_iff_getElem.1 hi
  set v := victimFrom m.tlb 0 0 m.tlb with hv
  set new : TlbEntry :=
    { valid := true, virtualPage := virtualPageForLevel va level, asid := satpAsid context.satp,
      level, physicalPageNumber := ppn, flags, age := m.nextTlbAge } with hnew
  have htlb : (m.fillTlb va level ppn flags (satpAsid context.satp)).tlb = m.tlb.set v new := rfl
  have hnewcov : new.covers va (satpAsid context.satp) = true := by
    simp [TlbEntry.covers, hnew]
  simp only [htlb] at hi he hlt hcov hbefore
  rw [List.length_set] at hlt
  by_cases hiv : i = v
  · subst hiv
    rw [List.getElem?_set_self hlt, Option.some.injEq] at he
    rw [hpa, ← he]
  · -- the entry that answers was there before, and was already the first to cover the address
    exfalso
    have hvi : i < v := by
      by_contra hge
      have hb := hbefore v (by omega)
      rw [List.getElem_set_self, hnewcov] at hb
      exact hb rfl
    have hi' : m.tlb.findIdx? (·.covers va (satpAsid context.satp)) = some i := by
      rw [List.findIdx?_eq_some_iff_getElem]
      refine ⟨hlt, ?_, fun j hj ↦ ?_⟩
      · rw [List.getElem_set_ne (by omega)] at hcov
        exact hcov
      · have hb := hbefore j hj
        rw [List.getElem_set_ne (by omega)] at hb
        exact hb
    rw [List.getElem?_set_ne (by omega)] at he
    rw [lookupTlb_of_entry hi' he, if_pos ⟨hperm, hdirty⟩] at hmiss
    cases hmiss

/-- **A translation that succeeded succeeds again**, at the same address and without touching
memory, on any bus that shows the page walker the same tables. -/
theorem translate_again {m m' : Mmu} {b b' c : Bus} {va pa : BitVec 64} {w : AccessWidth}
    {kind : MmuAccessKind} {context : MmuContext}
    (h : m.translate b va w kind context = (.ok pa, m', b'))
    (hc : ∀ a, tableRead c a = tableRead b' a) (w' : AccessWidth) :
    (m'.translate c va w' kind context).1 = .ok pa ∧
      (m'.translate c va w' kind context).2.2 = c := by
  have hle : TablesLe b' c := fun a _ ↦ by
    rw [hc a]
    exact ⟨rfl, AdLe.refl _⟩
  rcases translate_cases m b va w kind context with
    ht | ⟨hbare, ht⟩ | ⟨hit, hpaged, hhit, ht⟩ |
    ⟨leaf, b₁, hpaged, hmiss, hf, halign, hperm, hu, ht⟩ <;>
    have ht' := h.symm.trans ht <;> simp only [Prod.mk.injEq, Except.ok.injEq, reduceCtorEq,
      false_and] at ht'
  · obtain ⟨rfl, rfl, rfl⟩ := ht'
    rw [Mmu.translate, if_pos hbare]
    exact ⟨rfl, rfl⟩
  · obtain ⟨rfl, rfl, rfl⟩ := ht'
    obtain ⟨m₂, hagain⟩ := lookupTlb_again hhit
    rw [translate_hit hpaged hagain]
    exact ⟨rfl, rfl⟩
  · obtain ⟨rfl, rfl, rfl⟩ := ht'
    -- a second walk finds the updated leaf and has nothing left to set
    have hat := findLeaf_leafAt hf
    obtain ⟨pte, had, hf'⟩ := findLeaf_of_tablesLe ((hu.tablesLe hat).trans hle) hf
    have hpte : pte = desiredPte leaf.pte kind := by
      rw [← hu.value_eq hat, ← hc]
      exact (findLeaf_leafAt hf').value.symm
    have hdone : desiredPte pte kind = pte := by
      rw [hpte, desiredPte_desiredPte]
    set filled := m.fillTlb va leaf.level (ptePpn leaf.pte) (pteFlags (desiredPte leaf.pte kind))
      (satpAsid context.satp) with hfilled
    have hwalk := walkPageTable_of_leaf filled hf' (by rw [had.ptePpn_eq]; exact halign)
      (by rw [had.permissionAllows_eq]; exact hperm) hdone
    rw [had.ptePpn_eq] at hwalk
    cases hlook : filled.lookupTlb va kind context with
    | some hit =>
      rw [translate_hit hpaged hlook, lookupTlb_fillTlb hmiss hlook]
      exact ⟨rfl, rfl⟩
    | none =>
      rw [translate_miss hpaged hlook, hwalk.1, hwalk.2]
      exact ⟨rfl, rfl⟩

/-! ## Writable pages are readable -/

/-- The TLB holds entries of valid leaves only, so a page it has as writable is readable. -/
def Mmu.Consistent (m : Mmu) : Prop :=
  ∀ e ∈ m.tlb, e.valid = true → hasFlag e.flags Pte.write = true → hasFlag e.flags Pte.read = true

theorem consistent_of_empty {m : Mmu} (h : ∀ e ∈ m.tlb, e.valid = false) : m.Consistent := by
  intro e he hv
  rw [h e he] at hv
  cases hv

/-- A valid entry that is writable is readable. -/
theorem read_of_write {flags : BitVec 16} (hvalid : pteValid flags = true)
    (hwrite : hasFlag flags Pte.write = true) : hasFlag flags Pte.read = true := by
  rw [pteValid, hwrite] at hvalid
  simpa using (Bool.and_eq_true_iff.1 hvalid).2

theorem consistent_translate {m : Mmu} (hm : m.Consistent) (b : Bus) (va : BitVec 64)
    (w : AccessWidth) (kind : MmuAccessKind) (context : MmuContext) :
    (m.translate b va w kind context).2.1.Consistent := by
  rcases translate_cases m b va w kind context with
    h | ⟨-, h⟩ | ⟨hit, -, hhit, h⟩ | ⟨leaf, b', -, -, hf, -, -, -, h⟩ <;> rw [h]
  · exact hm
  · exact hm
  · obtain ⟨i, e, -, he, -, -, -, htlb⟩ := lookupTlb_eq_some hhit
    intro e' he' hv
    rw [htlb] at he'
    rcases List.mem_or_eq_of_mem_set he' with hmem | rfl
    · exact hm e' hmem hv
    · exact hm e (List.mem_of_getElem? he) hv
  · have had := adLe_desiredPte leaf.pte kind
    intro e he hv
    rcases List.mem_or_eq_of_mem_set he with hmem | rfl
    · exact hm e hmem hv
    · intro hwrite
      have hvalid := (findLeaf_leafAt hf).valid
      rw [← had.pteValid_eq] at hvalid
      exact read_of_write hvalid hwrite

theorem permissionAllows_store {flags : BitVec 16}
    (h : hasFlag flags Pte.write = true → hasFlag flags Pte.read = true) (context : MmuContext) :
    permissionAllows flags .store context = permissionAllows flags .atomic context := by
  have hrw : (hasFlag flags Pte.read && hasFlag flags Pte.write) = hasFlag flags Pte.write := by
    cases hw : hasFlag flags Pte.write with
    | false => rw [Bool.and_false]
    | true => rw [h hw, Bool.true_and]
  unfold permissionAllows
  dsimp only
  rw [hrw]
  rfl

theorem lookupTlb_store {m : Mmu} (hm : m.Consistent) (va : BitVec 64) (context : MmuContext) :
    m.lookupTlb va .store context = m.lookupTlb va .atomic context := by
  rw [lookupTlb, lookupTlb]
  cases hi : m.tlb.findIdx? (·.covers va (satpAsid context.satp)) with
  | none => rfl
  | some i =>
    obtain ⟨hlt, hcov, -⟩ := List.findIdx?_eq_some_iff_getElem.1 hi
    have hget : m.tlb.getD i {} = m.tlb[i] := by simp [hlt]
    have hvalid : m.tlb[i].valid = true := by
      rw [TlbEntry.covers, Bool.and_eq_true, Bool.and_eq_true] at hcov
      exact hcov.1.1
    have hperm := permissionAllows_store (hm _ (List.getElem_mem hlt) hvalid) context
    simp only [hget, hperm]
    rfl

theorem walkPageTable_store (m : Mmu) (b : Bus) (va : BitVec 64) (context : MmuContext) :
    m.walkPageTable b va .store context = m.walkPageTable b va .atomic context := by
  simp only [walkPageTable]
  cases hf : (findLeaf b va (satpRootPpn context.satp) 2).1 with
  | none => rfl
  | some leaf =>
    have hperm := permissionAllows_store (read_of_write (findLeaf_leafAt hf).valid) context
    simp only [hperm]
    rfl

/-- For a consistent TLB, a store is translated as an atomic is. -/
theorem translate_store {m : Mmu} (hm : m.Consistent) (b : Bus) (va : BitVec 64)
    (w : AccessWidth) (context : MmuContext) :
    m.translate b va w .store context = m.translate b va w .atomic context := by
  by_cases hbare : context.privilege = .machine ∨ satpMode context.satp = 0#64
  · rw [Mmu.translate, Mmu.translate, if_pos hbare, if_pos hbare]
  by_cases hcanon : satpMode context.satp ≠ sv39Mode ∨ (!canonicalSv39 va) = true
  · rw [Mmu.translate, Mmu.translate, if_neg hbare, if_pos hcanon, if_neg hbare, if_pos hcanon]
    rfl
  have hpaged : Paged va context := ⟨hbare, hcanon⟩
  have hlookup := lookupTlb_store hm va context
  cases hhit : m.lookupTlb va .atomic context with
  | some hit => rw [translate_hit hpaged (hlookup.trans hhit), translate_hit hpaged hhit]
  | none =>
    rw [translate_miss hpaged (hlookup.trans hhit), translate_miss hpaged hhit,
      walkPageTable_store]
    rcases walkPageTable_cases m b va .atomic context with h | ⟨leaf, b', -, -, -, -, h⟩ <;> rw [h]
    · rfl
    · rfl

end Rvemu
