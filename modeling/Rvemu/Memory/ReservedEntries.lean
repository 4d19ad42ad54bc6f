import Rvemu.Memory.Sv39

/-!
# Reserved encodings of page table entries

An entry with a bit above its page number, or a pointer to the next level with U, A or D, is
reserved and should end the walk with a page fault.  The code masks these bits away.  A walk that
meets a reserved entry is therefore the walk of the tables with the reserved bits cleared, and it
faults if and only if that one does (`reserved_faults_iff`).
-/

set_option autoImplicit false

namespace Rvemu

open Mmu

/-! ## Reserved bits -/

namespace Sv39

/-- The encodings that are kept for later use. -/
def reservedEncoding (pte : BitVec 64) : Bool :=
  pte.toNat / 2 ^ 54 != 0 ||
    (pte.getLsbD 0 && !pte.getLsbD 1 && !pte.getLsbD 2 && !pte.getLsbD 3 && pointerReserved pte)

/-- The entry with the reserved bits cleared. -/
def withoutReserved (pte : BitVec 64) : BitVec 64 :=
  pte &&& ((1#64 <<< 54) - 1#64) &&& (if isLeaf pte then BitVec.allOnes 64 else ~~~0xD0#64)

variable (pte : BitVec 64)

/-- Bits 4, 6 and 7 are U, A and D. -/
theorem getLsbD_withoutReserved {i : ℕ} (hi : i < 64) :
    (withoutReserved pte).getLsbD i =
      (pte.getLsbD i && decide (i < 54) && (isLeaf pte || !decide (i = 4 ∨ i = 6 ∨ i = 7))) := by
  have hlow : ∀ j : Fin 64, ((1#64 <<< 54) - 1#64).getLsbD j = decide (j.val < 54) := by decide
  have hpointer : ∀ j : Fin 64,
      (~~~0xD0#64).getLsbD j = !decide (j.val = 4 ∨ j.val = 6 ∨ j.val = 7) := by decide
  rw [withoutReserved, BitVec.getLsbD_and, BitVec.getLsbD_and, hlow ⟨i, hi⟩]
  cases isLeaf pte with
  | true => rw [if_pos rfl, BitVec.getLsbD_allOnes, decide_eq_true hi, Bool.true_or]
  | false => rw [if_neg Bool.false_ne_true, hpointer ⟨i, hi⟩, Bool.false_or]

theorem isLeaf_withoutReserved : isLeaf (withoutReserved pte) = isLeaf pte := by
  rw [isLeaf, getLsbD_withoutReserved pte (by decide), getLsbD_withoutReserved pte (by decide)]
  simp [isLeaf]

theorem toNat_withoutReserved_lt : (withoutReserved pte).toNat / 2 ^ 54 = 0 := by
  have hle : (withoutReserved pte).toNat ≤ (pte &&& ((1#64 <<< 54) - 1#64)).toNat := by
    rw [withoutReserved, BitVec.toNat_and]
    exact Nat.and_le_left
  rw [Bits.toNat_and_mask pte (by decide)] at hle
  omega

theorem invalid_withoutReserved :
    invalid (withoutReserved pte) = !pteValid (pteFlags pte) := by
  rw [invalid, toNat_withoutReserved_lt, pteValid_eq_bits, getLsbD_withoutReserved pte (by decide),
    getLsbD_withoutReserved pte (by decide), getLsbD_withoutReserved pte (by decide)]
  simp only [show decide (0 < 54) = true from rfl, show decide (1 < 54) = true from rfl,
    show decide (2 < 54) = true from rfl]
  cases pte.getLsbD 0 <;> cases pte.getLsbD 1 <;> cases pte.getLsbD 2 <;> simp

theorem pointerReserved_withoutReserved (h : isLeaf pte = false) :
    pointerReserved (withoutReserved pte) = false := by
  rw [pointerReserved, getLsbD_withoutReserved pte (by decide),
    getLsbD_withoutReserved pte (by decide), getLsbD_withoutReserved pte (by decide), h]
  simp

theorem ppn_withoutReserved : ppn (withoutReserved pte) = ppn pte := by
  have hfield : ∀ x : BitVec 64, ppn x = (x.extractLsb' 10 44).toNat := by
    intro x
    rw [BitVec.extractLsb'_toNat, Nat.shiftRight_eq_div_pow]
    rfl
  rw [hfield, hfield]
  congr 1
  refine BitVec.eq_of_getLsbD_eq fun i hi ↦ ?_
  rw [BitVec.getLsbD_extractLsb', BitVec.getLsbD_extractLsb',
    getLsbD_withoutReserved pte (by omega)]
  simp [hi, show 10 + i < 54 by omega, show ¬ 10 + i = 4 by omega, show ¬ 10 + i = 6 by omega,
    show ¬ 10 + i = 7 by omega]

/-- The flags of a leaf stay. -/
theorem pteFlags_withoutReserved (h : isLeaf pte = true) :
    pteFlags (withoutReserved pte) = pteFlags pte := by
  refine BitVec.eq_of_getLsbD_eq fun i hi ↦ ?_
  rw [getLsbD_pteFlags, getLsbD_pteFlags]
  by_cases h10 : i < 10
  · rw [getLsbD_withoutReserved pte (by omega), h]
    simp [show i < 54 by omega]
  · simp [h10]

end Sv39

/-! ## The walk with the reserved bits cleared -/

/-- The double word that the page walker gets at an address; what it cannot read is no entry. -/
def Bus.tableEntry (b : Bus) (x : ℕ) : BitVec 64 :=
  if (tableRead b (BitVec.ofNat 64 x)).ok then (tableRead b (BitVec.ofNat 64 x)).value else 0#64

/-- The tables with all reserved bits cleared. -/
def Bus.clearedTables (b : Bus) (x : ℕ) : BitVec 64 := Sv39.withoutReserved (b.tableEntry x)

section Walk

variable {b : Bus} {va t : BitVec 64} {level : ℕ}

theorem tableEntry_toNat (b : Bus) (a : BitVec 64) :
    b.tableEntry a.toNat = if (tableRead b a).ok then (tableRead b a).value else 0#64 := by
  rw [Bus.tableEntry, BitVec.ofNat_toNat, BitVec.setWidth_eq]

/-- One level of the code is one level of the algorithm on the cleared tables. -/
theorem walkStep_eq_cleared (ht : t.toNat < 2 ^ 44) :
    let pte := b.tableEntry (entryAddress va t level).toNat
    (walkStep b va t level).1 =
      if Sv39.invalid (Sv39.withoutReserved pte) then .fault
      else if Sv39.isLeaf pte then .leaf { pteAddress := entryAddress va t level, level, pte }
      else .pointer (ptePpn pte) := by
  intro pte
  have haddress := toNat_entryAddress va ht level
  have hover : ¬ entryAddress va t level < t <<< 12 := by
    rw [BitVec.lt_def, haddress, BitVec.toNat_shiftLeft, Nat.shiftLeft_eq,
      Nat.mod_eq_of_lt (by omega)]
    omega
  rw [walkStep_eq, Sv39.invalid_withoutReserved]
  dsimp only
  rw [if_neg hover]
  have hpte : pte = if (tableRead b (entryAddress va t level)).ok then
      (tableRead b (entryAddress va t level)).value else 0#64 := tableEntry_toNat b _
  cases hok : (tableRead b (entryAddress va t level)).ok with
  | false =>
    rw [hok, if_neg Bool.false_ne_true] at hpte
    rw [hpte]
    rfl
  | true =>
    rw [hok, if_pos rfl] at hpte
    rw [← hpte, if_neg (by decide), pteLeaf_eq_isLeaf]
    cases pteValid (pteFlags pte) <;> cases Sv39.isLeaf pte <;> rfl

/-- A leaf of the code, as the algorithm sees it in the cleared tables. -/
def clearedEntry (leaf : Leaf) : Sv39.Entry where
  address := leaf.pteAddress.toNat
  level := leaf.level
  pte := Sv39.withoutReserved leaf.pte

/-- **The code's walk is the algorithm on the cleared tables.** -/
theorem findLeaf_eq_clearedWalk (ht : t.toNat < 2 ^ 44) :
    (findLeaf b va t level).1.map clearedEntry =
      Sv39.walk b.clearedTables va.toNat (t.toNat * 2 ^ 12) level := by
  induction level generalizing t with
  | zero =>
    rw [findLeaf, Sv39.walk, ← toNat_entryAddress va ht, walkStep_eq_cleared ht,
      Bus.clearedTables, Sv39.isLeaf_withoutReserved]
    generalize b.tableEntry (entryAddress va t 0).toNat = pte
    cases Sv39.invalid (Sv39.withoutReserved pte) <;> cases Sv39.isLeaf pte <;> rfl
  | succ level ih =>
    rw [findLeaf_succ, Sv39.walk, ← toNat_entryAddress va ht, walkStep_eq_cleared ht,
      Bus.clearedTables, Sv39.isLeaf_withoutReserved, Sv39.ppn_withoutReserved]
    generalize b.tableEntry (entryAddress va t (level + 1)).toNat = pte
    cases Sv39.invalid (Sv39.withoutReserved pte) with
    | true => rfl
    | false =>
      cases hleaf : Sv39.isLeaf pte with
      | true => rfl
      | false =>
        rw [Sv39.pointerReserved_withoutReserved pte hleaf, ← toNat_ptePpn]
        refine ih ?_
        rw [toNat_ptePpn]
        exact Nat.mod_lt _ (by decide)

/-- A walk ends in a valid leaf. -/
theorem Sv39.leaf_of_walk {memory : ℕ → BitVec 64} {va table level : ℕ} {e : Sv39.Entry}
    (h : Sv39.walk memory va table level = some e) :
    Sv39.isLeaf e.pte = true ∧ Sv39.invalid e.pte = false ∧ e.level ≤ level := by
  induction level generalizing table with
  | zero =>
    rw [Sv39.walk] at h
    split at h
    · cases h
    · next hvalid =>
      split at h
      · next hleaf =>
        obtain rfl := Option.some.inj h
        exact ⟨hleaf, Bool.eq_false_iff.2 hvalid, Nat.le_refl _⟩
      · cases h
  | succ level ih =>
    rw [Sv39.walk] at h
    split at h
    · cases h
    · next hvalid =>
      split at h
      · next hleaf =>
        obtain rfl := Option.some.inj h
        exact ⟨hleaf, Bool.eq_false_iff.2 hvalid, Nat.le_refl _⟩
      · split at h
        · cases h
        · obtain ⟨hleaf, hv, hle⟩ := ih h
          exact ⟨hleaf, hv, Nat.le_succ_of_le hle⟩

end Walk

/-! ## Translation -/

section Translate

variable {m : Mmu} {b : Bus} {va : BitVec 64} {width : AccessWidth} {kind : MmuAccessKind}
  {context : MmuContext}

/-- A walk of the page tables is made, and an entry that it reads is reserved. -/
structure WalksReserved (m : Mmu) (b : Bus) (va : BitVec 64) (kind : MmuAccessKind)
    (context : MmuContext) : Prop where
  paged : Paged va context
  miss : m.lookupTlb va kind context = none
  reserved : ∃ a ∈ walkEntries b va (satpRootPpn context.satp) 2,
    (tableRead b a).ok = true ∧ Sv39.reservedEncoding (tableRead b a).value = true

/-- The translation is refused even with the reserved bits cleared: by the algorithm, or because the
leaf it reaches would have to be marked and is not in RAM. -/
def RefusedCleared (b : Bus) (va : BitVec 64) (kind : MmuAccessKind)
    (context : MmuContext) : Prop :=
  match Sv39.translate b.clearedTables context.sv39 kind va with
  | .untranslated => False
  | .fault => True
  | .through e =>
    Sv39.marked kind (b.tableEntry e.address) ≠ b.tableEntry e.address ∧ ¬ b.InRam e.address 8

theorem translate_error_iff (hpaged : Paged va context)
    (hmiss : m.lookupTlb va kind context = none) :
    m.translate b va width kind context = (.error (pageFault kind va), m, b) ↔
      RefusedCleared b va kind context := by
  have hroot : (satpRootPpn context.satp).toNat < 2 ^ 44 := by
    rw [toNat_satpRootPpn]
    exact Nat.mod_lt _ (by decide)
  have hwalk : (findLeaf b va (satpRootPpn context.satp) 2).1.map clearedEntry = _ :=
    findLeaf_eq_clearedWalk hroot
  rw [RefusedCleared, sv39Translate_of_paged hpaged, translate_miss hpaged hmiss, ← hwalk]
  cases hf : (findLeaf b va (satpRootPpn context.satp) 2).1 with
  | none =>
    refine iff_of_true ?_ trivial
    rcases walkPageTable_cases m b va kind context with hw | ⟨leaf, b', hf', -⟩
    · rw [hw]
      rfl
    · rw [hf] at hf'
      cases hf'
  | some leaf =>
    rw [hf, Option.map_some] at hwalk
    obtain ⟨hleaf, hvalid, hlevel⟩ := Sv39.leaf_of_walk hwalk.symm
    have hisLeaf : Sv39.isLeaf leaf.pte = true :=
      (Sv39.isLeaf_withoutReserved leaf.pte).symm.trans hleaf
    have hpermits : permissionAllows (pteFlags leaf.pte) kind context =
        Sv39.permits context.sv39 kind (clearedEntry leaf).pte := by
      rw [← permissionAllows_eq_permits hvalid kind context]
      exact congrArg (permissionAllows · kind context)
        (Sv39.pteFlags_withoutReserved leaf.pte hisLeaf).symm
    have haligned : superpageAligned (ptePpn leaf.pte) leaf.level =
        Sv39.aligned (clearedEntry leaf) := by
      have heq : superpageAligned (ptePpn leaf.pte) leaf.level = Sv39.aligned (leafEntry leaf) :=
        superpageAligned_eq leaf.pte hlevel
      rw [heq, Sv39.aligned, Sv39.aligned]
      exact congrArg (fun n ↦ n % 2 ^ (9 * leaf.level) == 0)
        (Sv39.ppn_withoutReserved leaf.pte).symm
    have hat := findLeaf_leafAt hf
    have hentry : b.tableEntry leaf.pteAddress.toNat = leaf.pte := by
      rw [tableEntry_toNat, if_pos hat.ok, hat.value]
    rw [Option.map_some]
    dsimp only
    by_cases hok : (Sv39.permits context.sv39 kind (clearedEntry leaf).pte &&
        Sv39.aligned (clearedEntry leaf)) = true
    · rw [if_pos hok]
      rw [Bool.and_eq_true] at hok
      have hperm := hpermits.trans hok.1
      have halign := haligned.trans hok.2
      change _ ↔ Sv39.marked kind (b.tableEntry leaf.pteAddress.toNat) ≠
        b.tableEntry leaf.pteAddress.toNat ∧ ¬ b.InRam leaf.pteAddress.toNat 8
      rw [hentry, ← desiredPte_eq_marked]
      constructor
      · intro hfault
        by_contra hno
        rw [not_and_or, not_not, not_not] at hno
        have htranslated : ∃ pa, (m.walkPageTable b va kind context).1 = .translated pa := by
          rcases hno with hdone | hram
          · exact ⟨_, (walkPageTable_of_leaf m hf halign hperm hdone).1⟩
          · obtain ⟨m', b', -, hw⟩ := walkPageTable_of_inRam m hf halign hperm hram
            exact ⟨_, by rw [hw]⟩
        obtain ⟨pa, hpa⟩ := htranslated
        rw [hpa] at hfault
        cases congrArg Prod.fst hfault
      · rintro ⟨hmark, hram⟩
        rcases walkPageTable_cases m b va kind context with hw | ⟨leaf', b', hf', -, -, hu, -⟩
        · rw [hw]
          rfl
        · obtain rfl := Option.some.inj (hf.symm.trans hf')
          rcases hu with ⟨hdone, -⟩ | ⟨-, -, hstored⟩
          · exact absurd hdone hmark
          · exact absurd hstored.inRam hram
    · rw [if_neg hok]
      refine iff_of_true ?_ trivial
      rcases walkPageTable_cases m b va kind context with hw | ⟨leaf', b', hf', ha, hp, -⟩
      · rw [hw]
        rfl
      · obtain rfl := Option.some.inj (hf.symm.trans hf')
        exact absurd (Bool.and_eq_true_iff.2 ⟨hpermits.symm.trans hp, haligned.symm.trans ha⟩) hok

/-- **When a reserved entry faults.**  The reserved bits play no part: the walk is refused, without
a trace, if and only if it is refused with these bits cleared. -/
theorem reserved_faults_iff (h : WalksReserved m b va kind context) :
    m.translate b va width kind context = (.error (pageFault kind va), m, b) ↔
      RefusedCleared b va kind context :=
  translate_error_iff h.paged h.miss

end Translate

/-! ## A reserved gigapage -/

/-- The gigapage of the tables at zero, with bit 63 of its entry set. -/
def reservedBus : Bus where
  regions :=
    [.ram
      { range := { base := 0#64, size := 16#64, size_pos := AddressRange.pos_sixteen
                   fits := AddressRange.fits_sixteen }
        bytes := Bytes.storeBytes (List.replicate 16 0#8) 8 0x8000000020000007#64 8
        size_eq := by decide }]

def pagedContext (privilege : PrivilegeMode) : MmuContext :=
  { privilege, satp := 0x8000000000000000#64 }

theorem walksReserved_reservedBus (privilege : PrivilegeMode) (h : privilege ≠ .machine) :
    WalksReserved {} reservedBus 0x40000010#64 .load (pagedContext privilege) where
  paged := by
    refine ⟨?_, by cases privilege <;> decide⟩
    rw [not_or]
    exact ⟨h, by cases privilege <;> decide⟩
  miss := lookupTlb_of_empty (by decide) _ _ _
  reserved := by
    refine ⟨8#64, ?_, by decide, by decide⟩
    cases privilege <;> decide

/-- A supervisor reads through it, a user may not. -/
theorem reserved_faults_iff_user :
    ({} : Mmu).translate reservedBus 0x40000010#64 .word .load (pagedContext .user) =
      (.error (pageFault .load 0x40000010#64), {}, reservedBus) := by
  have hspec : Sv39.translate reservedBus.clearedTables (pagedContext .user).sv39 .load
      0x40000010#64 = .fault := by decide
  refine (reserved_faults_iff (walksReserved_reservedBus .user (by decide))).2 ?_
  rw [RefusedCleared, hspec]
  trivial

theorem reserved_gigapage_translated :
    WalksReserved {} reservedBus 0x40000010#64 .load (pagedContext .supervisor) ∧
      (({} : Mmu).translate reservedBus 0x40000010#64 .word .load (pagedContext .supervisor)).1 =
        .ok 0x80000010#64 :=
  ⟨walksReserved_reservedBus .supervisor (by decide), by decide⟩

end Rvemu
