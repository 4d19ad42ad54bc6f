import Rvemu.Memory.Sv39

/-!
# What a fence invalidates

`SFENCE.VMA` selects entries by address and by address space.  With an ASID it should spare the
global entries, which belong to no address space; the code selects them together with those of the
ASID.  So a fence is exact if and only if it names no ASID or no global entry is in the way
(`fenceExact_iff`).
-/

set_option autoImplicit false

namespace Rvemu

open Mmu

/-! ## The entries a fence is for -/

/-- The page of an entry, whose size is given by the level, contains the address. -/
def TlbEntry.PageContains (entry : TlbEntry) (virtualAddress : BitVec 64) : Prop :=
  entry.virtualPage.toNat * 2 ^ (12 + 9 * entry.level) ≤ virtualAddress.toNat ∧
    virtualAddress.toNat < (entry.virtualPage.toNat + 1) * 2 ^ (12 + 9 * entry.level)

/-- The fence of the privileged architecture is for this entry. -/
def FenceSelects (virtualAddress : Option (BitVec 64)) (asid : Option (BitVec 16))
    (entry : TlbEntry) : Prop :=
  (∀ va, virtualAddress = some va → entry.PageContains va) ∧
    ∀ a, asid = some a → hasFlag entry.flags Pte.global = false ∧ entry.asid = a

/-- The fence invalidates the entries it is for and no others; and after one for everything every
translation goes through the tables that are in memory then. -/
structure FenceExact (m : Mmu) (virtualAddress : Option (BitVec 64)) (asid : Option (BitVec 16)) :
    Prop where
  entries : ∀ (i : ℕ) (e : TlbEntry), m.tlb[i]? = some e → ∃ e',
    (m.sfenceVma virtualAddress asid).tlb[i]? = some e' ∧
    (FenceSelects virtualAddress asid e → e' = { e with valid := false }) ∧
    (¬ FenceSelects virtualAddress asid e → e' = e)
  tables : virtualAddress = none → asid = none → ∀ bus va width kind context,
    ((m.sfenceVma virtualAddress asid).translate bus va width kind context).1 =
        (translateUncached bus va kind context).1 ∧
      ((m.sfenceVma virtualAddress asid).translate bus va width kind context).2.2 =
        (translateUncached bus va kind context).2

/-! ## Page numbers -/

theorem toNat_pageSizeForLevel {level : ℕ} (h : level ≤ 5) :
    (pageSizeForLevel level).toNat = 2 ^ (12 + 9 * level) := by
  have hlt : 2 ^ (12 + 9 * level) < 2 ^ 64 := Nat.pow_lt_pow_right (by decide) (by omega)
  have hpage : (4096#64).toNat = 2 ^ 12 := rfl
  rw [pageSizeForLevel, BitVec.toNat_shiftLeft, Nat.shiftLeft_eq, hpage, ← Nat.pow_add,
    Nat.mod_eq_of_lt hlt]

theorem pageSizeForLevel_of_large {level : ℕ} (h : 6 ≤ level) : pageSizeForLevel level = 0#64 := by
  refine BitVec.eq_of_toNat_eq ?_
  rw [pageSizeForLevel, BitVec.toNat_shiftLeft, Nat.shiftLeft_eq, BitVec.toNat_zero]
  refine Nat.mod_eq_zero_of_dvd ?_
  rw [show (4096#64).toNat = 2 ^ 12 from rfl, ← Nat.pow_add]
  exact Nat.pow_dvd_pow 2 (by omega)

/-- The comparison of page numbers tells whether the page contains the address. -/
theorem TlbEntry.pageContains_iff (entry : TlbEntry) (va : BitVec 64) :
    entry.PageContains va ↔ entry.virtualPage = virtualPageForLevel va entry.level := by
  have hva := va.isLt
  rw [PageContains, virtualPageForLevel, ← BitVec.toNat_inj, BitVec.toNat_udiv]
  rcases Nat.lt_or_ge entry.level 6 with hsmall | hlarge
  · have hpos := Nat.two_pow_pos (12 + 9 * entry.level)
    rw [toNat_pageSizeForLevel (by omega), eq_comm, Nat.div_eq_iff hpos, Nat.add_mul, Nat.one_mul]
    omega
  · have hbig : 2 ^ 64 ≤ 2 ^ (12 + 9 * entry.level) := Nat.pow_le_pow_right (by decide) (by omega)
    rw [pageSizeForLevel_of_large hlarge, BitVec.toNat_zero, Nat.div_zero]
    constructor
    · intro h
      by_contra hne
      have hone : 1 * 2 ^ (12 + 9 * entry.level) ≤
          entry.virtualPage.toNat * 2 ^ (12 + 9 * entry.level) :=
        Nat.mul_le_mul_right _ (by omega)
      omega
    · intro h
      rw [h]
      omega

/-! ## One entry -/

section Entry

variable {virtualAddress : Option (BitVec 64)} {asid : Option (BitVec 16)} {e : TlbEntry}

/-- What the code selects: the global entries are taken along. -/
theorem sfenceEntry_of_selected (hva : ∀ va, virtualAddress = some va → e.PageContains va)
    (hasid : ∀ a, asid = some a → hasFlag e.flags Pte.global = true ∨ e.asid = a) :
    sfenceEntry virtualAddress asid e = { e with valid := false } := by
  rw [sfenceEntry]
  split
  · next hinvalid =>
    rw [Bool.not_eq_true'] at hinvalid
    rw [← hinvalid]
  · rw [if_neg, if_neg]
    · cases virtualAddress with
      | none => exact Bool.false_ne_true
      | some va => simpa using (e.pageContains_iff va).1 (hva va rfl)
    · cases asid with
      | none => exact Bool.false_ne_true
      | some a =>
        rcases hasid a rfl with hglobal | heq
        · simp [hglobal]
        · simp [heq]

theorem sfenceEntry_of_otherPage {va : BitVec 64} (h : ¬ e.PageContains va) :
    sfenceEntry (some va) asid e = e := by
  have hne : (e.virtualPage != virtualPageForLevel va e.level) = true := by
    rw [e.pageContains_iff] at h
    exact bne_iff_ne.2 h
  rw [sfenceEntry]
  split
  · rfl
  · split
    · rfl
    · rw [if_pos (by simpa using hne)]

theorem sfenceEntry_of_otherSpace {a : BitVec 16} (hglobal : hasFlag e.flags Pte.global = false)
    (h : e.asid ≠ a) : sfenceEntry virtualAddress (some a) e = e := by
  rw [sfenceEntry]
  split
  · rfl
  · rw [if_pos (by simp [hglobal, h])]

/-- An entry that is not global is treated as it should be. -/
theorem sfenceEntry_exact (h : asid = none ∨ hasFlag e.flags Pte.global = false) :
    (FenceSelects virtualAddress asid e →
        sfenceEntry virtualAddress asid e = { e with valid := false }) ∧
      (¬ FenceSelects virtualAddress asid e → sfenceEntry virtualAddress asid e = e) := by
  refine ⟨fun hs ↦ sfenceEntry_of_selected hs.1 fun a ha ↦ Or.inr (hs.2 a ha).2, fun hs ↦ ?_⟩
  rcases not_and_or.1 hs with hva | hasid
  · cases virtualAddress with
    | none => exact absurd (fun _ h ↦ nomatch h) hva
    | some va => exact sfenceEntry_of_otherPage fun hpage ↦ hva fun _ h ↦ Option.some.inj h ▸ hpage
  · cases asid with
    | none => exact absurd (fun _ h ↦ nomatch h) hasid
    | some a =>
      have hglobal := h.resolve_left (by simp)
      exact sfenceEntry_of_otherSpace hglobal fun heq ↦
        hasid fun _ h ↦ ⟨hglobal, heq.trans (Option.some.inj h)⟩

end Entry

/-! ## The whole TLB -/

section Fence

variable (m : Mmu) (virtualAddress : Option (BitVec 64)) (asid : Option (BitVec 16))

theorem getElem?_sfenceVma (i : ℕ) :
    (m.sfenceVma virtualAddress asid).tlb[i]? =
      m.tlb[i]?.map (sfenceEntry virtualAddress asid) := by
  rw [sfenceVma, List.getElem?_map]

theorem sfenceVma_all : ∀ e ∈ (m.sfenceVma none none).tlb, e.valid = false := by
  intro e he
  obtain ⟨e', -, rfl⟩ := List.mem_map.1 he
  rw [sfenceEntry_of_selected (by simp) (by simp)]

/-- Without valid entries the page tables are asked. -/
theorem translate_of_empty {m : Mmu} (h : ∀ e ∈ m.tlb, e.valid = false) (bus : Bus)
    (va : BitVec 64) (width : AccessWidth) (kind : MmuAccessKind) (context : MmuContext) :
    (m.translate bus va width kind context).1 = (translateUncached bus va kind context).1 ∧
      (m.translate bus va width kind context).2.2 = (translateUncached bus va kind context).2 := by
  rw [translateUncached]
  by_cases hbare : context.privilege = .machine ∨ satpMode context.satp = 0#64
  · rw [Mmu.translate, if_pos hbare, if_pos hbare]
    exact ⟨rfl, rfl⟩
  · by_cases hcanonical : satpMode context.satp ≠ sv39Mode ∨ (!canonicalSv39 va) = true
    · rw [Mmu.translate, if_neg hbare, if_pos hcanonical, if_neg hbare, if_pos hcanonical]
      exact ⟨rfl, rfl⟩
    · obtain ⟨hresult, hbus⟩ := walkPageTable_tlb_free m {} bus va kind context
      rw [if_neg hbare, if_neg hcanonical, translate_miss ⟨hbare, hcanonical⟩
        (lookupTlb_of_empty h va kind context)]
      dsimp only
      rw [← hresult, ← hbus]
      exact ⟨rfl, rfl⟩

/-- No ASID is given, or no valid global entry maps what the fence is for. -/
def SparesGlobal : Prop :=
  asid = none ∨ ∀ e ∈ m.tlb, e.valid = true → hasFlag e.flags Pte.global = true →
    ∃ va, virtualAddress = some va ∧ ¬ e.PageContains va

theorem fenceExact_of_sparesGlobal (h : SparesGlobal m virtualAddress asid) :
    FenceExact m virtualAddress asid := by
  constructor
  · intro i e he
    refine ⟨_, by rw [getElem?_sfenceVma, he, Option.map_some], ?_⟩
    by_cases hspared : asid = none ∨ hasFlag e.flags Pte.global = false
    · exact sfenceEntry_exact hspared
    · obtain ⟨hasid, hglobal⟩ := not_or.1 hspared
      rw [Bool.not_eq_false] at hglobal
      have hno : ¬ FenceSelects virtualAddress asid e := by
        obtain ⟨a, ha⟩ := Option.ne_none_iff_exists'.1 hasid
        intro hs
        rw [(hs.2 a ha).1] at hglobal
        cases hglobal
      refine ⟨fun hs ↦ absurd hs hno, fun _ ↦ ?_⟩
      cases hvalid : e.valid with
      | false => rw [sfenceEntry, hvalid, Bool.not_false, if_pos rfl]
      | true =>
        obtain ⟨va, rfl, hpage⟩ :=
          h.resolve_left hasid e (List.mem_of_getElem? he) hvalid hglobal
        exact sfenceEntry_of_otherPage hpage
  · rintro rfl rfl
    exact translate_of_empty (sfenceVma_all m)

theorem sparesGlobal_of_fenceExact (h : FenceExact m virtualAddress asid) :
    SparesGlobal m virtualAddress asid := by
  rw [SparesGlobal, or_iff_not_imp_left]
  intro hasid e he hvalid hglobal
  by_contra hpage
  obtain ⟨i, hi⟩ := List.getElem?_of_mem he
  obtain ⟨e', he', -, hkept⟩ := h.entries i e hi
  have hno : ¬ FenceSelects virtualAddress asid e := by
    obtain ⟨a, ha⟩ := Option.ne_none_iff_exists'.1 hasid
    intro hs
    rw [(hs.2 a ha).1] at hglobal
    cases hglobal
  have hva : ∀ va, virtualAddress = some va → e.PageContains va := by
    intro va hva
    by_contra hother
    exact hpage ⟨va, hva, hother⟩
  rw [getElem?_sfenceVma, hi, Option.map_some,
    sfenceEntry_of_selected hva fun _ _ ↦ Or.inl hglobal, Option.some.injEq] at he'
  rw [hkept hno] at he'
  have hinvalid : false = e.valid := congrArg TlbEntry.valid he'
  rw [hvalid] at hinvalid
  cases hinvalid

/-- **When a fence is exact**: it names no ASID, or no valid global entry is in the way. -/
theorem fenceExact_iff :
    FenceExact m virtualAddress asid ↔ SparesGlobal m virtualAddress asid :=
  ⟨sparesGlobal_of_fenceExact m virtualAddress asid,
    fenceExact_of_sparesGlobal m virtualAddress asid⟩

end Fence

/-- One global page. -/
def globalMmu : Mmu := ({} : Mmu).fillTlb 0x4000#64 0 0x80#64 0x63#16 5#16

/-- A fence for another address space takes the global page away. -/
theorem fence_global_not_exact : ¬ FenceExact globalMmu none (some 7#16) := by
  intro h
  have hmem : globalMmu.tlb.getD 0 {} ∈ globalMmu.tlb :=
    List.mem_of_getElem? (show globalMmu.tlb[0]? = some (globalMmu.tlb.getD 0 {}) from rfl)
  obtain ⟨va, hva, -⟩ := (sparesGlobal_of_fenceExact _ _ _ h).resolve_left (by decide) _ hmem
    (by decide) (by decide)
  cases hva

end Rvemu
