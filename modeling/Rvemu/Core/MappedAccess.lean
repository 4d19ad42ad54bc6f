import Rvemu.Core.Straddle
import Rvemu.Lib.Writes
import Rvemu.Memory.PageTables
import Rvemu.Memory.Sv39

/-!
# Bytes of mapped RAM

A byte that the page tables map to RAM outside of the tables is accessed without a trap, and the
access leaves the map as it is.  Of the RAM outside of the tables it changes the byte it stores, and
nothing else: the A and D bits are in the tables.
-/

set_option autoImplicit false

namespace Rvemu

open Mmu Bytes

/-! ## Contexts -/

/-- Addresses are not translated. -/
def MmuContext.Bare (context : MmuContext) : Prop :=
  context.privilege = .machine ∨ satpMode context.satp = 0#64

theorem MmuContext.Bare.translate_eq {context : MmuContext} (h : context.Bare) (m : Mmu) (b : Bus)
    (va : BitVec 64) (w : AccessWidth) (kind : MmuAccessKind) :
    m.translate b va w kind context = (.ok va, m, b) := by
  rw [Bare] at h
  rw [Mmu.translate, if_pos h]

theorem MmuContext.Bare.translateUncached_eq {context : MmuContext} (h : context.Bare) (b : Bus)
    (va : BitVec 64) (kind : MmuAccessKind) :
    translateUncached b va kind context = (.ok va, b) := by
  rw [Bare] at h
  rw [translateUncached, if_pos h]

/-- Contexts that no translation tells apart. -/
structure MmuContext.SameAccess (context context' : MmuContext) : Prop where
  privilege : context.privilege = context'.privilege
  satp : context.satp = context'.satp
  permission : ∀ flags kind,
    permissionAllows flags kind context = permissionAllows flags kind context'

theorem MmuContext.SameAccess.bare_iff {context context' : MmuContext}
    (h : context.SameAccess context') : context.Bare ↔ context'.Bare := by
  rw [Bare, Bare, h.privilege, h.satp]

theorem translateUncached_congr {context context' : MmuContext} (h : context.SameAccess context')
    (b : Bus) (va : BitVec 64) (kind : MmuAccessKind) :
    translateUncached b va kind context = translateUncached b va kind context' := by
  have hwalk : ({} : Mmu).walkPageTable b va kind context =
      ({} : Mmu).walkPageTable b va kind context' := by
    simp only [walkPageTable, h.satp, h.permission]
  rw [translateUncached, translateUncached, hwalk, h.privilege, h.satp]

/-- SUM and MXR are all that a translation needs of `mstatus`, besides MPRV and MPP. -/
theorem sameAccess_dataContext {c d : Cpu} (hprivilege : c.state.privilege = d.state.privilege)
    (hsatp : c.state.csrs.satp = d.state.csrs.satp)
    (hmstatus : ∀ i, 11 ≤ i → i < 32 →
      c.state.csrs.mstatus.getLsbD i = d.state.csrs.mstatus.getLsbD i) :
    c.dataContext.SameAccess d.dataContext := by
  have hc : c.dataContext = _ := accessContext_eq c .load
  have hd : d.dataContext = _ := accessContext_eq d .load
  have heffective : c.state.effectivePrivilege .load = d.state.effectivePrivilege .load := by
    have hmpp : privilegeFromMpp c.state.csrs.mstatus = privilegeFromMpp d.state.csrs.mstatus := by
      have hfield := Bits.field_two_congr (hmstatus 11 (by decide) (by decide))
        (hmstatus 12 (by decide) (by decide))
      rw [privilegeFromMpp, privilegeFromMpp, hfield]
    rw [CpuState.effectivePrivilege, CpuState.effectivePrivilege, hprivilege, hmpp,
      hmstatus 17 (by decide) (by decide)]
  have hview : ∀ k, 11 ≤ k → k < 32 →
      (c.state.csrs.mstatusView &&& (1#64 <<< k) != 0#64) =
        (d.state.csrs.mstatusView &&& (1#64 <<< k) != 0#64) := by
    intro k hk hk'
    have hcbit : ((c.state.csrs.mstatusView &&& (1#64 <<< k)) != 0#64) = _ :=
      and_bit_ne_zero c.state.csrs.mstatusView (by omega)
    have hdbit : ((d.state.csrs.mstatusView &&& (1#64 <<< k)) != 0#64) = _ :=
      and_bit_ne_zero d.state.csrs.mstatusView (by omega)
    rw [hcbit, hdbit, getLsbD_mstatusView _ hk', getLsbD_mstatusView _ hk', hmstatus k hk hk']
  have hsum := congrArg Bool.not (hview 18 (by decide) (by decide))
  rw [bne, bne, Bool.not_not, Bool.not_not] at hsum
  rw [hc, hd]
  refine ⟨heffective, hsatp, fun flags kind ↦ ?_⟩
  simp only [permissionAllows, heffective, hsum, hview 19 (by decide) (by decide)]

/-! ## The RAM beside the tables -/

theorem pteAddress_mem_walkEntries {b : Bus} {va t : BitVec 64} {level : ℕ} {leaf : Leaf}
    (h : (findLeaf b va t level).1 = some leaf) : leaf.pteAddress ∈ walkEntries b va t level := by
  induction level generalizing t with
  | zero =>
    simp only [findLeaf] at h
    split at h
    · next l hl =>
      obtain rfl : l = leaf := Option.some.inj h
      rw [walkEntries, (walkStep_leaf hl).1]
      exact List.mem_singleton_self _
    · cases h
  | succ level ih =>
    rw [findLeaf_succ] at h
    rw [walkEntries]
    split at h
    · next l hl =>
      obtain rfl : l = leaf := Option.some.inj h
      rw [(walkStep_leaf hl).1]
      exact List.mem_cons_self
    · next t' ht =>
      rw [ht]
      exact List.mem_cons_of_mem _ (ih h)
    · cases h

/-- A translation changes RAM in the tables only. -/
theorem ramByte_translate {tables : ℕ → Prop} {m : Mmu} {b : Bus} {context : MmuContext}
    (hin : ¬context.Bare → TablesIn tables b (satpRootPpn context.satp)) (va : BitVec 64)
    (w : AccessWidth) (kind : MmuAccessKind) {x : ℕ} (hx : ¬tables x) :
    (m.translate b va w kind context).2.2.ramByte x = b.ramByte x := by
  by_cases hbare : context.Bare
  · rw [hbare.translate_eq]
  · rcases (translate_adUpdated m b va w kind context).ram x with hsame | ⟨⟨va', leaf, hf, rfl⟩, -⟩
    · exact hsame
    · have hin' := (BesideTables.of_translate tables m b va w kind context).tablesIn (hin hbare)
      exact absurd (hin' va' _ (pteAddress_mem_walkEntries hf) 0 (by decide)) hx

/-! ## One byte -/

namespace ScalarAccess

variable (a : ScalarAccess) (c : Cpu)

/-- What the access of a byte writes. -/
def writes (pa : BitVec 64) : List (ℕ × Option (BitVec 8)) :=
  match a.store with
  | none => []
  | some value => [(pa.toNat, some (splitByte value 0))]

/-- The access of a byte of RAM. -/
structure Reaches (packet : InstructionPacket) (pa : BitVec 64) : Prop where
  trap : (a.run c packet).1.trap = none
  state : (a.run c packet).2.state = c.state
  mmu : (a.run c packet).2.mmu = (a.translated c).2.1
  loaded : a.store = none →
    (a.run c packet).2.bus = (a.translated c).2.2 ∧
      (a.translated c).2.2.ramByte pa.toNat = some (splitByte (a.run c packet).1.access.value 0)
  stored : ∀ value, a.store = some value →
    Bus.Stored (a.translated c).2.2 (a.run c packet).2.bus pa .byte value

variable {a c} {packet : InstructionPacket} {pa : BitVec 64} {tables : ℕ → Prop}

theorem reaches_of_ram (hwidth : a.width = .byte) (hpa : (a.translated c).1 = .ok pa)
    (hram : c.bus.InRam pa.toNat 1) : a.Reaches c packet pa := by
  have hafter : (a.translated c).2.2.InRam pa.toNat (widthInBytes .byte) :=
    (BesideTables.of_translate (fun _ ↦ False) _ _ _ _ _ _).ram _ _ hram
  have hrun : a.run c packet =
      ({ c with mmu := (a.translated c).2.1, bus := (a.translated c).2.2 } : Cpu).accessTranslated
        packet a.address a.accessFault a.operation (a.translated c).1 := a.run_eq c packet
  obtain ⟨hread, hbytes⟩ := hafter.read .load
  have hbus := hafter.read_bus .load
  rcases accessTranslated_cases
      ({ c with mmu := (a.translated c).2.1, bus := (a.translated c).2.2 } : Cpu) packet a.address
      a.accessFault a.operation (a.translated c).1 with
    ⟨fault, hfault, -⟩ | ⟨pa', hpa', hcpu, haccess, hcases⟩
  · rw [hpa] at hfault
    cases hfault
  · rw [hpa, Except.ok.injEq] at hpa'
    subst hpa'
    rw [← hrun] at hcpu haccess hcases
    dsimp only at hcpu haccess hcases
    cases hstore : a.store with
    | none =>
      have hop : a.operation = readOperation .byte .load := by
        rw [operation, hstore, hwidth]
      rw [hop] at hcpu haccess hcases
      dsimp only [readOperation] at hcpu haccess hcases
      rw [hbus] at hcpu
      refine ⟨?_, by rw [hcpu], by rw [hcpu], fun _ ↦ ⟨by rw [hcpu], ?_⟩, fun v hv ↦ ?_⟩
      · rcases hcases with ⟨hno, -⟩ | ⟨-, htrap, -⟩
        · exact absurd (hread.symm.trans hno) (by decide)
        · exact htrap
      · rw [haccess]
        exact hbytes 0 (by decide)
      · rw [hstore] at hv
        cases hv
    | some value =>
      have hop : a.operation = writeOperation .byte value .store := by
        rw [operation, hstore, hwidth]
      obtain ⟨hok, hstored⟩ := hafter.write value .store
      rw [hop] at hcpu hcases
      dsimp only [writeOperation] at hcpu hcases
      refine ⟨?_, by rw [hcpu], by rw [hcpu], fun hn ↦ ?_, fun v hv ↦ ?_⟩
      · rcases hcases with ⟨hno, -⟩ | ⟨-, htrap, -⟩
        · rw [hok] at hno
          cases hno
        · exact htrap
      · rw [hstore] at hn
        cases hn
      · obtain rfl := Option.some.inj (hstore.symm.trans hv)
        rw [hcpu]
        exact hstored

namespace Reaches

variable (h : a.Reaches c packet pa)

include h

theorem besideTables (hout : ¬tables pa.toNat) :
    BesideTables tables c.bus (a.run c packet).2.bus := by
  have htranslated : BesideTables tables c.bus (a.translated c).2.2 :=
    BesideTables.of_translate tables _ _ _ _ _ _
  cases hstore : a.store with
  | none =>
    rw [(h.loaded hstore).1]
    exact htranslated
  | some value => exact htranslated.trans (BesideTables.of_stored (h.stored value hstore) hout)

/-- **Of the RAM beside the tables** an access changes what it writes. -/
theorem ramByte_eq (hin : ¬c.dataContext.Bare → TablesIn tables c.bus c.root) {x : ℕ}
    (hx : ¬tables x) :
    (a.run c packet).2.bus.ramByte x = Writes.apply c.bus.ramByte (a.writes pa) x := by
  have htranslated : (a.translated c).2.2.ramByte x = c.bus.ramByte x :=
    ramByte_translate hin _ _ _ hx
  cases hstore : a.store with
  | none =>
    rw [(h.loaded hstore).1, htranslated, writes, hstore]
    rfl
  | some value =>
    rw [(h.stored value hstore).ramByte_eq x, htranslated, writes, hstore]
    show _ = Function.update c.bus.ramByte pa.toNat (some (splitByte value 0)) x
    rw [Function.update_apply, show widthInBytes .byte = 1 from rfl]
    by_cases hxpa : x = pa.toNat
    · rw [if_pos (by omega), if_pos hxpa, hxpa, Nat.sub_self]
    · rw [if_neg (by omega), if_neg hxpa]

/-- The byte that a load reads is the one in RAM. -/
theorem loaded_eq (hload : a.store = none) (hin :
    ¬c.dataContext.Bare → TablesIn tables c.bus c.root)
    (hout : ¬tables pa.toNat) :
    c.bus.ramByte pa.toNat = some (splitByte (a.run c packet).1.access.value 0) := by
  rw [← (h.loaded hload).2]
  exact (ramByte_translate hin _ _ _ hout).symm

end Reaches

end ScalarAccess

/-! ## Maps -/

/-- The page tables of a hart map the addresses in `virtual` to RAM outside of them. -/
structure Cpu.Maps (c : Cpu) (tables : ℕ → Prop) (kind : MmuAccessKind)
    (target : BitVec 64 → BitVec 64) (virtual : BitVec 64 → Prop) : Prop where
  inside : ¬c.dataContext.Bare → TablesIn tables c.bus c.root
  tlb : ¬c.dataContext.Bare → TlbAgrees c.dataContext.satp c.mmu c.bus
  maps : ∀ va, virtual va →
    (translateUncached c.bus va kind c.dataContext).1 = .ok (target va)
  ram : ∀ va, virtual va → c.bus.InRam (target va).toNat 1
  apart : ∀ va, virtual va → ¬tables (target va).toNat

namespace Cpu.Maps

variable {c d : Cpu} {tables : ℕ → Prop} {kind : MmuAccessKind} {target : BitVec 64 → BitVec 64}
  {virtual : BitVec 64 → Prop}

theorem translate_eq (h : c.Maps tables kind target virtual) {va : BitVec 64} (hva : virtual va)
    (w : AccessWidth) :
    (c.mmu.translate c.bus va w kind c.dataContext).1 = .ok (target va) := by
  rw [← h.maps va hva]
  by_cases hbare : c.dataContext.Bare
  · rw [hbare.translate_eq, hbare.translateUncached_eq]
  · exact ((h.tlb hbare).translate va w kind).1

/-- Changes of the registers that no translation sees. -/
theorem of_sameAccess (h : c.Maps tables kind target virtual) (hmmu : d.mmu = c.mmu)
    (hbus : d.bus = c.bus) (hsame : d.dataContext.SameAccess c.dataContext) :
    d.Maps tables kind target virtual := by
  have hroot : d.root = c.root := congrArg satpRootPpn hsame.satp
  refine ⟨fun hbare ↦ ?_, fun hbare ↦ ?_, fun va hva ↦ ?_, fun va hva ↦ ?_, h.apart⟩
  · rw [hbus, hroot]
    exact h.inside (mt hsame.bare_iff.2 hbare)
  · rw [hbus, hmmu, hsame.satp]
    exact h.tlb (mt hsame.bare_iff.2 hbare)
  · rw [hbus, translateUncached_congr hsame]
    exact h.maps va hva
  · rw [hbus]
    exact h.ram va hva

/-- **The access of a byte** that is mapped, and the map after it. -/
theorem reaches (h : c.Maps tables kind target virtual) {a : ScalarAccess}
    (hwidth : a.width = .byte)
    (hkind : a.kind = kind) (hva : virtual a.address) (packet : InstructionPacket) :
    a.Reaches c packet (target a.address) ∧
      (a.run c packet).2.Maps tables kind target virtual := by
  have htranslated : (a.translated c).1 = .ok (target a.address) := by
    rw [ScalarAccess.translated, hkind]
    exact h.translate_eq hva _
  have hreaches : a.Reaches c packet (target a.address) :=
    ScalarAccess.reaches_of_ram hwidth htranslated (h.ram _ hva)
  have hout := h.apart _ hva
  have hbeside := hreaches.besideTables hout
  have hcontext : (a.run c packet).2.dataContext = c.dataContext := by
    rw [Cpu.dataContext, hreaches.state]
    rfl
  have hroot : (a.run c packet).2.root = c.root := by
    rw [Cpu.root, hreaches.state]
    rfl
  refine ⟨hreaches, ⟨fun hbare ↦ ?_, fun hbare ↦ ?_, fun va hva' ↦ ?_, fun va hva' ↦ ?_, h.apart⟩⟩
  · rw [hcontext] at hbare
    rw [hroot]
    exact hbeside.tablesIn (h.inside hbare)
  · rw [hcontext] at hbare
    rw [hcontext, hreaches.mmu]
    have htlb : TlbAgrees c.dataContext.satp (a.translated c).2.1 (a.translated c).2.2 :=
      ((h.tlb hbare).translate a.address a.width a.kind).2
    have hin : TablesIn tables (a.translated c).2.2 c.root :=
      (BesideTables.of_translate tables _ _ _ _ _ _).tablesIn (h.inside hbare)
    cases hstore : a.store with
    | none =>
      rw [(hreaches.loaded hstore).1]
      exact htlb
    | some value =>
      exact htlb.beside (BesideTables.of_stored (hreaches.stored value hstore) hout) hin
  · rw [hcontext]
    by_cases hbare : c.dataContext.Bare
    · have hmaps := h.maps va hva'
      rw [hbare.translateUncached_eq] at hmaps ⊢
      exact hmaps
    · exact translateUncached_beside hbeside (h.inside hbare) (h.maps va hva')
  · exact hbeside.ram _ _ (h.ram va hva')

end Cpu.Maps

end Rvemu
