import Rvemu.Lib.Runs
import Rvemu.Memory.Translate

/-!
# The TLB is invisible

`translateUncached` is the MMU without a TLB.  Two MMUs, with and without, run the same list of
translations and fences over the same memory; as long as the tables are only changed by the MMU's
own A/D updates, address spaces with one identifier share one root and no leaf is global, they
return the same results and leave the same bus behind after every call (`tlb_transparent`).

The simulation invariant is `EntrySound`: a valid TLB entry is the leaf that a walk of the present
tables would find for every address of its page, up to D bits set since.
-/

set_option autoImplicit false

namespace Rvemu

open Mmu

/-! ## The MMU without a TLB -/

/-- `translate` with every access sent to the page walker. -/
def translateUncached (bus : Bus) (virtualAddress : BitVec 64) (kind : MmuAccessKind)
    (context : MmuContext) : TranslationResult × Bus :=
  if context.privilege = .machine ∨ satpMode context.satp = 0#64 then (.ok virtualAddress, bus)
  else if satpMode context.satp ≠ sv39Mode ∨ !canonicalSv39 virtualAddress then
    (.error (pageFault kind virtualAddress), bus)
  else
    let walked := ({} : Mmu).walkPageTable bus virtualAddress kind context
    (walked.1.toTranslation virtualAddress kind, walked.2.2)

/-- One call of the MMU interface. -/
inductive MmuOp
  | translate (virtualAddress : BitVec 64) (width : AccessWidth) (kind : MmuAccessKind)
      (context : MmuContext)
  | sfenceVma (virtualAddress : Option (BitVec 64)) (asid : Option (BitVec 16))
  deriving DecidableEq, Repr

/-- One call with the TLB; a fence returns nothing. -/
def stepTlb (m : Mmu) (bus : Bus) : MmuOp → Option TranslationResult × Mmu × Bus
  | .translate va width kind context =>
    let translated := m.translate bus va width kind context
    (some translated.1, translated.2)
  | .sfenceVma va asid => (none, m.sfenceVma va asid, bus)

/-- One call without the TLB. -/
def stepUncached (bus : Bus) : MmuOp → Option TranslationResult × Bus
  | .translate va _ kind context =>
    let translated := translateUncached bus va kind context
    (some translated.1, translated.2)
  | .sfenceVma _ _ => (none, bus)

/-- The result of every call with the bus after it, with the TLB. -/
def traceTlb (m : Mmu) (bus : Bus) : List MmuOp → List (Option TranslationResult × Bus)
  | [] => []
  | op :: ops =>
    let next := stepTlb m bus op
    (next.1, next.2.2) :: traceTlb next.2.1 next.2.2 ops

/-- The result of every call with the bus after it, without the TLB. -/
def traceUncached (bus : Bus) : List MmuOp → List (Option TranslationResult × Bus)
  | [] => []
  | op :: ops =>
    let next := stepUncached bus op
    next :: traceUncached next.2 ops

/-! ## A reachable TLB -/

/-- The MMU after one call, over the bus that the call finds. -/
def Mmu.afterCall (m : Mmu) (call : Bus × MmuOp) : Mmu := (stepTlb m call.1 call.2).2.1

theorem consistent_afterCall {m : Mmu} (hm : m.Consistent) (call : Bus × MmuOp) :
    (m.afterCall call).Consistent := by
  obtain ⟨bus, op⟩ := call
  cases op with
  | translate va width kind context => exact consistent_translate hm bus va width kind context
  | sfenceVma va asid =>
    intro e he hvalid
    exact hm e (mem_of_mem_sfenceVma he hvalid) hvalid

/-- **Every reachable TLB is consistent**: whatever calls are made, and whatever happens to memory
between them, a page that the TLB has as writable is readable. -/
theorem consistent_run {m : Mmu} (h : ∀ e ∈ m.tlb, e.valid = false)
    (calls : List (Bus × MmuOp)) : (Runs.run Mmu.afterCall m calls).Consistent := by
  refine Runs.run_induction (I := Mmu.Consistent) ?_ (consistent_of_empty h) calls
  intro m call hm
  exact consistent_afterCall hm call

/-! ## The assumptions on a run -/

/-- The `satp` value a call uses. -/
def MmuOp.satp : MmuOp → Option (BitVec 64)
  | .translate _ _ _ context => some context.satp
  | .sfenceVma _ _ => none

/-- The `satp` values in use. -/
def usedSatps (ops : List MmuOp) : List (BitVec 64) := ops.filterMap MmuOp.satp

/-- Address spaces with the same identifier have the same root table. -/
def OneRootPerAsid (ops : List MmuOp) : Prop :=
  ∀ s ∈ usedSatps ops, ∀ s' ∈ usedSatps ops, satpAsid s = satpAsid s' →
    satpRootPpn s = satpRootPpn s'

/-- The leaf a call's page walk reaches, if it makes one. -/
def reachedLeaf (bus : Bus) : MmuOp → Option Leaf
  | .translate va _ _ context =>
    if context.privilege = .machine ∨ satpMode context.satp = 0#64 then none
    else if satpMode context.satp ≠ sv39Mode ∨ !canonicalSv39 va then none
    else (findLeaf bus va (satpRootPpn context.satp) 2).1
  | .sfenceVma _ _ => none

/-- No walk of the run reaches a leaf with the G bit. -/
def NoGlobalLeaf (bus : Bus) : List MmuOp → Prop
  | [] => True
  | op :: ops =>
    (∀ leaf ∈ reachedLeaf bus op, hasFlag (pteFlags leaf.pte) Pte.global = false) ∧
      NoGlobalLeaf (stepUncached bus op).2 ops

instance NoGlobalLeaf.decidable (bus : Bus) : (ops : List MmuOp) → Decidable (NoGlobalLeaf bus ops)
  | [] => inferInstanceAs (Decidable True)
  | op :: ops =>
    have := NoGlobalLeaf.decidable (stepUncached bus op).2 ops
    inferInstanceAs (Decidable (_ ∧ _))

/-! ## The invariant -/

/-- Pages of equal number at a level have equal table indices from that level up. -/
theorem vpn_eq_of_virtualPage_eq {va va' : BitVec 64} {level : ℕ} (hl : level ≤ 2)
    (h : virtualPageForLevel va level = virtualPageForLevel va' level) :
    ∀ l, level ≤ l → vpn va l = vpn va' l := by
  have hshift : ∀ x : BitVec 64, (virtualPageForLevel x level).toNat =
      x.toNat / 2 ^ (12 + 9 * level) := by
    intro x
    rw [virtualPageForLevel, pageSizeForLevel, BitVec.toNat_udiv, BitVec.toNat_shiftLeft,
      Nat.shiftLeft_eq]
    have hlv : level = 0 ∨ level = 1 ∨ level = 2 := by omega
    rcases hlv with rfl | rfl | rfl <;> rfl
  have hdiv : va.toNat / 2 ^ (12 + 9 * level) = va'.toNat / 2 ^ (12 + 9 * level) := by
    rw [← hshift, ← hshift, h]
  intro l hle
  have hsplit : ∀ x : BitVec 64,
      x.toNat / 2 ^ (12 + 9 * l) = x.toNat / 2 ^ (12 + 9 * level) / 2 ^ (9 * (l - level)) := by
    intro x
    rw [Nat.div_div_eq_div_mul, ← Nat.pow_add]
    congr 2
    omega
  rw [vpn, vpn]
  congr 1
  apply BitVec.eq_of_toNat_eq
  rw [BitVec.toNat_ushiftRight, BitVec.toNat_ushiftRight, Nat.shiftRight_eq_div_pow,
    Nat.shiftRight_eq_div_pow, hsplit, hsplit va', hdiv]

/-- A TLB entry and a page-table entry with the same flags up to D bits set since. -/
structure FlagsSound (flags : BitVec 16) (pte : BitVec 64) : Prop where
  accessed : hasFlag (pteFlags pte) Pte.accessed = true
  dirty : hasFlag flags Pte.dirty = true → hasFlag (pteFlags pte) Pte.dirty = true
  global : hasFlag flags Pte.global = false
  permission : ∀ kind context,
    permissionAllows flags kind context = permissionAllows (pteFlags pte) kind context

theorem FlagsSound.of_adLe {flags : BitVec 16} {pte pte' : BitVec 64} (h : FlagsSound flags pte)
    (hle : AdLe pte pte') : FlagsSound flags pte' where
  accessed := hle.flag_mono (by decide) h.accessed
  dirty hd := hle.flag_mono (by decide) (h.dirty hd)
  global := h.global
  permission kind context := (h.permission kind context).trans
    (hle.permissionAllows_eq kind context).symm

/-- A valid entry is what a walk for any address of its page, in any of the address spaces in use
with its identifier, finds now. -/
structure EntrySound (used : BitVec 64 → Prop) (b : Bus) (e : TlbEntry) : Prop where
  aligned : superpageAligned e.physicalPageNumber e.level = true
  leaf : ∀ satp, used satp → satpAsid satp = e.asid →
    ∀ va, e.virtualPage = virtualPageForLevel va e.level →
      ∃ leaf, (findLeaf b va (satpRootPpn satp) 2).1 = some leaf ∧ leaf.level = e.level ∧
        ptePpn leaf.pte = e.physicalPageNumber ∧ FlagsSound e.flags leaf.pte
  global : hasFlag e.flags Pte.global = false

/-- Every valid entry of the TLB is sound. -/
def TlbSound (used : BitVec 64 → Prop) (m : Mmu) (b : Bus) : Prop :=
  ∀ e ∈ m.tlb, e.valid = true → EntrySound used b e

variable {used : BitVec 64 → Prop} {m : Mmu} {b b' : Bus}

/-- A/D updates keep entries sound. -/
theorem EntrySound.of_tablesLe {e : TlbEntry} (h : EntrySound used b e) (hle : TablesLe b b') :
    EntrySound used b' e where
  aligned := h.aligned
  global := h.global
  leaf satp hs ha va hv := by
    obtain ⟨leaf, hf, hlevel, hppn, hfl⟩ := h.leaf satp hs ha va hv
    obtain ⟨pte, had, hf'⟩ := findLeaf_of_tablesLe hle hf
    exact ⟨_, hf', hlevel, had.ptePpn_eq.trans hppn, hfl.of_adLe had⟩

theorem TlbSound.of_tablesLe (h : TlbSound used m b) (hle : TablesLe b b') :
    TlbSound used m b' :=
  fun e he hv ↦ (h e he hv).of_tablesLe hle

/-- The entry that `fillTlb` writes after a walk is sound. -/
theorem entrySound_of_walk {va : BitVec 64} {kind : MmuAccessKind} {context : MmuContext}
    {leaf : Leaf} (hroot : ∀ s, used s → satpAsid s = satpAsid context.satp →
      satpRootPpn s = satpRootPpn context.satp)
    (hf : (findLeaf b va (satpRootPpn context.satp) 2).1 = some leaf)
    (halign : superpageAligned (ptePpn leaf.pte) leaf.level = true)
    (hglobal : hasFlag (pteFlags leaf.pte) Pte.global = false)
    (hup : LeafUpdated b b' leaf kind) (age : BitVec 64) :
    EntrySound used b'
      { valid := true, virtualPage := virtualPageForLevel va leaf.level,
        asid := satpAsid context.satp, level := leaf.level,
        physicalPageNumber := ptePpn leaf.pte, flags := pteFlags (desiredPte leaf.pte kind),
        age } := by
  have had := adLe_desiredPte leaf.pte kind
  have hg : hasFlag (pteFlags (desiredPte leaf.pte kind)) Pte.global = false := by
    rw [Pte.global, had.flag_eq (by decide) (by decide) (by decide)]
    exact hglobal
  refine ⟨halign, fun satp hs hasid va' hva' ↦ ?_, hg⟩
  have hat := findLeaf_leafAt hf
  obtain ⟨pte, hle, hf'⟩ := findLeaf_of_tablesLe (hup.tablesLe hat) hf
  -- the entry found after the update is the one the update wrote
  obtain rfl : desiredPte leaf.pte kind = pte := by
    rw [← hup.value_eq hat]
    exact (findLeaf_leafAt hf').value
  have hsame := vpn_eq_of_virtualPage_eq (level_findLeaf hf) hva'
  have hfound := findLeaf_of_same_page hf' (Nat.le_refl _) hsame
  rw [← hroot satp hs hasid] at hfound
  exact ⟨{ leaf with pte := desiredPte leaf.pte kind }, hfound, rfl, had.ptePpn_eq,
    ⟨accessed_desiredPte _ _, fun h ↦ h, hg, fun _ _ ↦ rfl⟩⟩

theorem mem_set_cases {α : Type} {l : List α} {i : ℕ} {a x : α} (h : x ∈ l.set i a) :
    x ∈ l ∨ x = a :=
  List.mem_or_eq_of_mem_set h

/-- Filling the TLB after a walk keeps it sound. -/
theorem TlbSound.fillTlb (h : TlbSound used m b') {va : BitVec 64} {level : ℕ}
    {ppn : BitVec 64} {flags asid : BitVec 16}
    (he : EntrySound used b'
      { valid := true, virtualPage := virtualPageForLevel va level, asid, level,
        physicalPageNumber := ppn, flags, age := m.nextTlbAge }) :
    TlbSound used (m.fillTlb va level ppn flags asid) b' := by
  intro e hmem hv
  rcases mem_set_cases hmem with hold | rfl
  · exact h e hold hv
  · exact he

/-- A fence only invalidates. -/
theorem TlbSound.sfenceVma (h : TlbSound used m b) (va : Option (BitVec 64))
    (asid : Option (BitVec 16)) : TlbSound used (m.sfenceVma va asid) b :=
  fun e hmem hv ↦ h e (mem_of_mem_sfenceVma hmem hv) hv

/-! ## One call -/

/-- **A hit is what the walk would have said**, and the walk would have left the bus alone. -/
theorem lookupTlb_sound (h : TlbSound used m b) {va : BitVec 64} {kind : MmuAccessKind}
    {context : MmuContext} (hused : used context.satp) {hit : BitVec 64 × Mmu}
    (hhit : m.lookupTlb va kind context = some hit) :
    TlbSound used hit.2 b ∧
      (({} : Mmu).walkPageTable b va kind context).1 = .translated hit.1 ∧
      (({} : Mmu).walkPageTable b va kind context).2.2 = b := by
  rw [lookupTlb] at hhit
  split at hhit
  · cases hhit
  · rename_i index hindex
    obtain ⟨hlt, hcov, -⟩ := List.findIdx?_eq_some_iff_getElem.1 hindex
    have hget : m.tlb.getD index {} = m.tlb[index] := by simp [hlt]
    have hmem : m.tlb[index] ∈ m.tlb := List.getElem_mem hlt
    rw [← hget] at hcov hmem
    dsimp only at hhit
    set e := m.tlb.getD index {} with he
    simp only [TlbEntry.covers, Bool.and_eq_true, Bool.or_eq_true, beq_iff_eq] at hcov
    obtain ⟨⟨hvalid, hspace⟩, hpage⟩ := hcov
    have hsound := h e hmem hvalid
    have hasid : satpAsid context.satp = e.asid := by
      rcases hspace with hg | ha
      · exact absurd hg (by rw [hsound.global]; simp)
      · exact ha.symm
    obtain ⟨leaf, hf, hlevel, hppn, hfl⟩ := hsound.leaf _ hused hasid va hpage
    split at hhit
    · cases hhit
    · rename_i hperm
      split at hhit
      · cases hhit
      · rename_i hdirty
        rw [Option.some.injEq] at hhit
        subst hhit
        have hdone : desiredPte leaf.pte kind = leaf.pte := by
          refine desiredPte_eq_self hfl.accessed fun hn ↦ hfl.dirty ?_
          rw [hn, Bool.true_and, Bool.not_eq_true, Bool.not_eq_false'] at hdirty
          exact hdirty
        have hallow : permissionAllows (pteFlags leaf.pte) kind context = true := by
          rw [Bool.not_eq_true, Bool.not_eq_false'] at hperm
          rw [← hfl.permission]
          exact hperm
        have halign := hsound.aligned
        rw [← hppn, ← hlevel] at halign
        obtain ⟨hw, hb⟩ := walkPageTable_of_leaf {} hf halign hallow hdone
        refine ⟨fun x hx hv ↦ ?_, ?_, hb⟩
        · rcases mem_set_cases hx with hold | rfl
          · exact h x hold hv
          · exact ⟨hsound.aligned, hsound.leaf, hsound.global⟩
        · rw [hw, hppn, hlevel]

/-- The result and the bus of a walk do not depend on the TLB. -/
theorem walkPageTable_tlb_free (m m' : Mmu) (b : Bus) (va : BitVec 64) (kind : MmuAccessKind)
    (context : MmuContext) :
    (m.walkPageTable b va kind context).1 = (m'.walkPageTable b va kind context).1 ∧
      (m.walkPageTable b va kind context).2.2 = (m'.walkPageTable b va kind context).2.2 := by
  simp only [walkPageTable]
  split
  · exact ⟨rfl, rfl⟩
  · split_ifs <;> exact ⟨rfl, rfl⟩

/-- **One translation**: same result, same bus, and the TLB stays sound. -/
theorem translate_sound (h : TlbSound used m b) {va : BitVec 64} (width : AccessWidth)
    {kind : MmuAccessKind} {context : MmuContext} (hused : used context.satp)
    (hroot : ∀ s, used s → satpAsid s = satpAsid context.satp →
      satpRootPpn s = satpRootPpn context.satp)
    (hglobal : ∀ leaf ∈ reachedLeaf b (.translate va width kind context),
      hasFlag (pteFlags leaf.pte) Pte.global = false) :
    (m.translate b va width kind context).1 = (translateUncached b va kind context).1 ∧
      (m.translate b va width kind context).2.2 = (translateUncached b va kind context).2 ∧
      TlbSound used (m.translate b va width kind context).2.1
        (translateUncached b va kind context).2 := by
  simp only [Mmu.translate, translateUncached, reachedLeaf] at hglobal ⊢
  by_cases hbare : context.privilege = .machine ∨ satpMode context.satp = 0#64
  · rw [if_pos hbare, if_pos hbare]
    exact ⟨rfl, rfl, h⟩
  rw [if_neg hbare] at hglobal
  rw [if_neg hbare, if_neg hbare]
  by_cases hcanon : satpMode context.satp ≠ sv39Mode ∨ (!canonicalSv39 va) = true
  · rw [if_pos hcanon, if_pos hcanon]
    exact ⟨rfl, rfl, h⟩
  rw [if_neg hcanon] at hglobal
  rw [if_neg hcanon, if_neg hcanon]
  cases hhit : m.lookupTlb va kind context with
  | some hit =>
    obtain ⟨htlb, hw, hb⟩ := lookupTlb_sound h hused hhit
    rw [hw, hb]
    exact ⟨rfl, rfl, htlb⟩
  | none =>
    obtain ⟨hres, hbus⟩ := walkPageTable_tlb_free m {} b va kind context
    dsimp only
    rw [walkAttempts, walkLoop_eq, Option.getD_some, ← hres, ← hbus]
    dsimp only
    refine ⟨rfl, rfl, ?_⟩
    rcases walkPageTable_cases m b va kind context with hw | ⟨leaf, b', hf, halign, -, hup, hw⟩
    · rw [hw]
      exact h
    · rw [hw]
      exact (h.of_tablesLe (hup.tablesLe (findLeaf_leafAt hf))).fillTlb
        (entrySound_of_walk hroot hf halign (hglobal leaf hf) hup _)

/-! ## Whole runs -/

theorem traces_eq (ops : List MmuOp) (h : TlbSound used m b)
    (hused : ∀ o ∈ ops, ∀ s, o.satp = some s → used s)
    (hroot : ∀ s s', used s → used s' → satpAsid s = satpAsid s' → satpRootPpn s = satpRootPpn s')
    (hglobal : NoGlobalLeaf b ops) : traceTlb m b ops = traceUncached b ops := by
  induction ops generalizing m b with
  | nil => rfl
  | cons op ops ih =>
    have hused' : ∀ o ∈ ops, ∀ s, o.satp = some s → used s :=
      fun o ho ↦ hused o (List.mem_cons_of_mem _ ho)
    simp only [traceTlb, traceUncached]
    cases op with
    | translate va width kind context =>
      have hs : used context.satp := hused _ List.mem_cons_self _ rfl
      obtain ⟨hres, hbus, htlb⟩ := translate_sound h width hs
        (fun s hu ha ↦ hroot s _ hu hs ha) hglobal.1
      simp only [stepTlb, stepUncached, hres, hbus]
      rw [ih htlb hused' hglobal.2]
    | sfenceVma va asid =>
      simp only [stepTlb, stepUncached]
      rw [ih (h.sfenceVma va asid) hused' hglobal.2]

/-- **TLB transparency.**  From an empty TLB, every call returns what the page walk alone would
return at that point, and leaves the bus, RAM included, as the page walk alone would. -/
theorem tlb_transparent (m : Mmu) (b : Bus) (ops : List MmuOp)
    (hempty : ∀ e ∈ m.tlb, e.valid = false) (hroot : OneRootPerAsid ops)
    (hglobal : NoGlobalLeaf b ops) : traceTlb m b ops = traceUncached b ops := by
  refine traces_eq ops ?_ (fun o ho s hs ↦ List.mem_filterMap.2 ⟨o, ho, hs⟩)
    (fun s s' hs hs' ha ↦ hroot s hs s' hs' ha) hglobal
  intro e he hv
  rw [hempty e he] at hv
  cases hv

/-- Sixteen bytes of RAM whose second double word maps the second gigabyte onto the third,
readable and writable, with neither A nor D set. -/
def gigapageBus : Bus where
  regions :=
    [.ram
      { range := { base := 0#64, size := 16#64, size_pos := AddressRange.pos_sixteen
                   fits := AddressRange.fits_sixteen }
        bytes := Bytes.storeBytes (List.replicate 16 0#8) 8 0x20000007#64 8
        size_eq := by decide }]

/-- A load that sets A, a store that misses the TLB and sets D, one that hits, a fence, a fault. -/
def gigapageOps : List MmuOp :=
  let context : MmuContext := { privilege := .supervisor, satp := 0x8000000000000000#64 }
  [.translate 0x40000010#64 .word .load context, .translate 0x40000020#64 .word .store context,
    .translate 0x40000030#64 .word .store context, .sfenceVma none none,
    .translate 0x40000030#64 .word .instructionFetch context]

theorem tlb_transparent_gigapage :
    traceTlb {} gigapageBus gigapageOps = traceUncached gigapageBus gigapageOps ∧
      (traceTlb {} gigapageBus gigapageOps).map (·.1) =
        [some (.ok 0x80000010#64), some (.ok 0x80000020#64), some (.ok 0x80000030#64), none,
          some (.error { cause := .instructionPageFault, value := 0x40000030#64 })] :=
  ⟨tlb_transparent {} gigapageBus gigapageOps (by decide)
    (by simp [OneRootPerAsid, usedSatps, gigapageOps, MmuOp.satp]) (by decide),
    by decide⟩

end Rvemu
