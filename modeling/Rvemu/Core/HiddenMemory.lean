import Rvemu.Bus.Agreement
import Rvemu.Core.MappedAccess
import Rvemu.Core.Twins

/-!
# Walks over buses that agree

Walks that read no hidden byte find the same leaves, so translations are the same, whatever the TLB
has of the tables (`TlbAgrees.translate_eq`).
-/

set_option autoImplicit false

namespace Rvemu

open Mmu Lockstep

/-! ## Walks -/

namespace Bus.AgreesBut

variable {hidden : ℕ → Prop} {b b' : Bus} (h : b.AgreesBut hidden b')

include h

theorem tableRead_eq {a : BitVec 64} (hclear : ∀ i < 8, ¬hidden (a.toNat + i)) :
    tableRead b' a = tableRead b a :=
  (h.read (w := .doubleWord) hclear .load).answer

theorem memoryMap_eq : b'.memoryMap = b.memoryMap := by
  have hregions := h.regions
  rw [Bus.memoryMap, Bus.memoryMap]
  generalize b.regions = l at hregions ⊢
  generalize b'.regions = l' at hregions ⊢
  induction hregions with
  | nil => rfl
  | cons hr _ ih =>
    rw [List.map_cons, List.map_cons, ih]
    cases hr with
    | ram hr => exact congrArg (· :: _) (Prod.ext rfl (Prod.ext hr.range hr.name))
    | same => rfl

/-- Tables that are not hidden are the same. -/
theorem besideTables {tables : ℕ → Prop} (hdisjoint : ∀ x, tables x → ¬hidden x) :
    BesideTables tables b b' where
  entries a _ htables := by
    rw [EntryLe, h.tableRead_eq fun i hi ↦ hdisjoint _ (htables i hi)]
    exact ⟨rfl, AdLe.refl _⟩
  ram x n hx := Bus.inRam_of_memoryMap h.memoryMap_eq hx

theorem walkStep_eq {va t : BitVec 64} {level : ℕ}
    (hclear : ∀ i < 8, ¬hidden ((entryAddress va t level).toNat + i)) :
    (walkStep b' va t level).1 = (walkStep b va t level).1 := by
  rw [Rvemu.walkStep_eq, Rvemu.walkStep_eq, h.tableRead_eq hclear]

theorem findLeaf_eq {va t : BitVec 64} {level : ℕ}
    (hclear : ∀ a ∈ walkEntries b va t level, ∀ i < 8, ¬hidden (a.toNat + i)) :
    (findLeaf b' va t level).1 = (findLeaf b va t level).1 := by
  induction level generalizing t with
  | zero =>
    rw [walkEntries, List.forall_mem_singleton] at hclear
    rw [findLeaf, findLeaf, h.walkStep_eq hclear]
    split <;> rfl
  | succ level ih =>
    rw [walkEntries, List.forall_mem_cons] at hclear
    rw [findLeaf_succ, findLeaf_succ, h.walkStep_eq hclear.1]
    split
    · rfl
    · next next hnext =>
      rw [hnext] at hclear
      exact ih hclear.2
    · rfl

/-- A walk that reads and updates no hidden byte. -/
theorem walkPageTable (m : Mmu) {va : BitVec 64} (kind : MmuAccessKind) {context : MmuContext}
    (hclear : ∀ a ∈ walkEntries b va (satpRootPpn context.satp) 2, ∀ i < 8,
      ¬hidden (a.toNat + i)) :
    Tied (fun s s' : Mmu × Bus ↦ s'.1 = s.1 ∧ s.2.AgreesBut hidden s'.2)
      (m.walkPageTable b va kind context) (m.walkPageTable b' va kind context) := by
  simp only [Mmu.walkPageTable, findLeaf_bus, h.findLeaf_eq hclear]
  cases hf : (findLeaf b va (satpRootPpn context.satp) 2).1 with
  | none => exact ⟨rfl, rfl, h⟩
  | some leaf =>
    have hupdated := h.compareExchange (w := .doubleWord)
      (hclear _ (pteAddress_mem_walkEntries hf)) leaf.pte (desiredPte leaf.pte kind) .atomic
    dsimp only
    rw [hupdated.answer]
    exact .ite ⟨rfl, rfl, h⟩ (.ite ⟨rfl, rfl, h⟩ (.ite ⟨rfl, rfl, hupdated.states⟩
      (.ite ⟨rfl, rfl, hupdated.states⟩ ⟨rfl, rfl, hupdated.states⟩)))

theorem translateUncached {va : BitVec 64} (kind : MmuAccessKind) {context : MmuContext}
    (hclear : ∀ a ∈ walkEntries b va (satpRootPpn context.satp) 2, ∀ i < 8,
      ¬hidden (a.toNat + i)) :
    Tied (Bus.AgreesBut hidden) (Rvemu.translateUncached b va kind context)
      (Rvemu.translateUncached b' va kind context) := by
  have hwalked := h.walkPageTable {} kind hclear
  rw [Rvemu.translateUncached, Rvemu.translateUncached]
  dsimp only
  rw [hwalked.answer]
  exact .ite ⟨rfl, h⟩ (.ite ⟨rfl, h⟩ ⟨rfl, hwalked.states.2⟩)

end Bus.AgreesBut

/-! ## Translations -/

/-- After a hit the walk would have found nothing to update. -/
theorem TlbAgrees.walk_bus {satp : BitVec 64} {m : Mmu} {b : Bus} (h : TlbAgrees satp m b)
    {va : BitVec 64} {kind : MmuAccessKind} {context : MmuContext} (hsatp : context.satp = satp)
    {hit : BitVec 64 × Mmu} (hhit : m.lookupTlb va kind context = some hit) :
    (({} : Mmu).walkPageTable b va kind context).2.2 = b := by
  subst hsatp
  obtain ⟨i, e, hi, he, hperm, hdirty, -, -⟩ := lookupTlb_eq_some hhit
  obtain ⟨hlt, hcovers, -⟩ := List.findIdx?_eq_some_iff_getElem.1 hi
  rw [List.getElem?_eq_getElem hlt, Option.some.injEq] at he
  rw [he] at hcovers
  obtain ⟨leaf, hf, hagrees⟩ := h e (he ▸ List.getElem_mem hlt) va hcovers
  refine (walkPageTable_of_leaf {} hf ?_ ?_ (desiredPte_eq_self hagrees.flags.accessed
    fun hn ↦ hagrees.flags.dirty ?_)).2
  · rw [hagrees.page, hagrees.level]
    exact hagrees.aligned
  · rw [← hagrees.flags.permission]
    exact hperm
  · simpa [hn] using hdirty

/-- A TLB that agrees with the tables has no say in a translation. -/
theorem TlbAgrees.translate_eq {m : Mmu} {b : Bus} {context : MmuContext}
    (h : TlbAgrees context.satp m b) (va : BitVec 64) (w : AccessWidth) (kind : MmuAccessKind) :
    ((m.translate b va w kind context).1, (m.translate b va w kind context).2.2) =
      translateUncached b va kind context := by
  refine Prod.ext (h.translate va w kind).1 ?_
  dsimp only
  by_cases hbare : context.privilege = .machine ∨ satpMode context.satp = 0#64
  · rw [Mmu.translate, translateUncached, if_pos hbare, if_pos hbare]
  by_cases hcanon : satpMode context.satp ≠ sv39Mode ∨ (!canonicalSv39 va) = true
  · rw [Mmu.translate, translateUncached, if_neg hbare, if_neg hbare, if_pos hcanon, if_pos hcanon]
  rw [translateUncached, if_neg hbare, if_neg hcanon]
  cases hhit : m.lookupTlb va kind context with
  | some hit =>
    rw [translate_hit ⟨hbare, hcanon⟩ hhit, h.walk_bus rfl hhit]
  | none =>
    rw [translate_miss ⟨hbare, hcanon⟩ hhit]
    exact (walkPageTable_tlb_free m {} b va kind context).2

/-! ## Accesses -/

namespace Cpu.GuestOperation

variable {width : AccessWidth} {op : BusOperation} (hop : GuestOperation width op)

include hop

/-- Memories that agree answer the same, unless the access touches a hidden byte. -/
theorem tied {hidden : ℕ → Prop} {b b' : Bus} (h : b.AgreesBut hidden b') {pa : BitVec 64}
    (hclear : ∀ i < widthInBytes width, ¬hidden (pa.toNat + i)) :
    Tied (Bus.AgreesBut hidden) (op b pa) (op b' pa) := by
  cases hop with
  | read type =>
    exact (h.read hclear type).map fun r ↦ (r, ({} : ReservationToken))
  | write value type =>
    exact (h.write hclear value type).map fun r ↦ (r, ({} : ReservationToken))
  | loadReserved =>
    exact (h.loadReserved hclear).map fun r ↦ (r.access, r.token)
  | storeConditional token value =>
    exact (h.storeConditional hclear token value).map fun r ↦ (r, ({} : ReservationToken))
  | compareExchange expected desired =>
    exact (h.compareExchange hclear expected desired .atomic).map
      fun r ↦ (r, ({} : ReservationToken))

theorem access (b : Bus) (pa : BitVec 64) : BusAccess b (op b pa).2 := by
  cases hop with
  | read type => exact .read pa width type
  | write value type => exact .write pa width value type
  | loadReserved => exact .loadReserved pa width
  | storeConditional token value => exact .storeConditional token pa width value
  | compareExchange expected desired => exact .compareExchange pa width expected desired

/-- No byte of RAM changes beside those that are accessed. -/
theorem ramByte (b : Bus) {pa : BitVec 64} {x : ℕ}
    (hx : ¬(pa.toNat ≤ x ∧ x < pa.toNat + widthInBytes width)) :
    (op b pa).2.ramByte x = b.ramByte x := by
  cases hop with
  | read type => exact b.ramByte_read pa width type x
  | write value type => exact b.ramByte_write value type hx
  | loadReserved =>
    have hregions := (b.loadReserved_cases pa width).2.1
    exact (congrArg (List.findSome? (Bus.regionByte x)) hregions).trans
      (b.ramByte_read pa width .load x)
  | storeConditional token value =>
    show (b.storeConditional token pa width value).2.ramByte x = b.ramByte x
    rcases b.storeConditional_cases token pa width value with
      ⟨e, -, hdone⟩ | ⟨-, hdone⟩ | ⟨-, -, hdone⟩ | ⟨-, -, hdone⟩ <;> rw [hdone]
    · rfl
    · rfl
    · rfl
    · have hwrite := b.release.ramByte_write value .store hx
      rw [Bus.write_eq, if_neg (by simp)] at hwrite
      exact hwrite
  | compareExchange expected desired =>
    show (b.compareExchange pa width expected desired).2.ramByte x = b.ramByte x
    rcases b.compareExchange_cases pa width expected desired .atomic with
      ⟨-, hsame⟩ | ⟨-, -, hs, -, -⟩
    · rw [hsame]
    · rw [hs.ramByte_eq, if_neg hx]

end Cpu.GuestOperation

end Rvemu
