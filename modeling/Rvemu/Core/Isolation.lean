import Rvemu.Core.HiddenMemory
import Rvemu.Core.Programs

/-!
# Isolation of user mode

A program in user mode is confined to the pages that the tables give it.  As long as neither the
tables nor a set of hidden bytes can be reached through a user page, the program does not change a
hidden byte, and it does not learn one either: two harts that differ in hidden bytes, and in what
their TLBs have cached of the tables, run the same program in the same way, step by step
(`user_isolated`).

The bus does not know of pages.  An access that starts at the end of a page goes on in the frame
behind it, so the reach of a page is seven bytes longer than the page.
-/

set_option autoImplicit false

namespace Rvemu

open Mmu Lockstep Bytes

/-! ## The reach of user pages -/

/-- No access through a user page touches a byte in `guarded`. -/
def UserPagesAvoid (guarded : ℕ → Prop) (b : Bus) (root : BitVec 64) : Prop :=
  ∀ va leaf, (findLeaf b va root 2).1 = some leaf →
    hasFlag (pteFlags leaf.pte) Pte.user = true →
    ∀ i < 8, ¬guarded ((composePhysicalAddress va (ptePpn leaf.pte) leaf.level).toNat + i)

section Beside

variable {tables : ℕ → Prop} {b b' : Bus} {root : BitVec 64}

theorem UserPagesAvoid.beside {guarded : ℕ → Prop} (h : UserPagesAvoid guarded b root)
    (hb : BesideTables tables b b') (hin : TablesIn tables b root) :
    UserPagesAvoid guarded b' root := by
  intro va leaf' hf' huser
  cases hf : (findLeaf b va root 2).1 with
  | none =>
    rw [findLeaf_none_of_entryLe (fun a ha ↦ hb.entryLe hin ha) hf] at hf'
    cases hf'
  | some leaf =>
    obtain ⟨pte, had, hfound⟩ := hb.findLeaf hin hf
    obtain rfl := Option.some.inj (hfound.symm.trans hf')
    rw [had.ptePpn_eq]
    exact h va leaf hf ((had.flag_eq (k := 4) (by decide) (by decide) (by decide)).symm.trans huser)

/-- Tables in RAM are not changed by what leaves their bytes alone. -/
theorem BesideTables.of_ramByte (hram : ∀ a : BitVec 64, a.toNat % 8 = 0 →
    (∀ i < 8, tables (a.toNat + i)) → b.InRam a.toNat 8) (hmap : b'.memoryMap = b.memoryMap)
    (hbytes : ∀ x, tables x → b'.ramByte x = b.ramByte x) : BesideTables tables b b' where
  entries a ha htables := by
    have hin : b.InRam a.toNat (widthInBytes .doubleWord) := hram a ha htables
    obtain ⟨hok, hvalue⟩ := hin.read .load
    obtain ⟨hok', hvalue'⟩ := (Bus.inRam_of_memoryMap hmap hin).read .load
    have hsame : (tableRead b' a).value = (tableRead b a).value := by
      rw [← composeBytes_splitByte_eight (tableRead b' a).value,
        ← composeBytes_splitByte_eight (tableRead b a).value]
      refine composeBytes_congr fun i hi ↦ Option.some.inj ?_
      exact (hvalue' i hi).symm.trans ((hbytes _ (htables i hi)).trans (hvalue i hi))
    rw [EntryLe, hsame]
    exact ⟨hok'.trans hok.symm, AdLe.refl _⟩
  ram x n h := Bus.inRam_of_memoryMap hmap h

end Beside

/-! ## Confined memories -/

/-- The tables of `satp` lie in RAM, the TLB agrees with them, and no user page reaches them or a
hidden byte. -/
structure Confined (tables hidden : ℕ → Prop) (satp : BitVec 64) (m : Mmu × Bus) : Prop where
  inside : TablesIn tables m.2 (satpRootPpn satp)
  ram : ∀ a : BitVec 64, a.toNat % 8 = 0 → (∀ i < 8, tables (a.toNat + i)) → m.2.InRam a.toNat 8
  tlb : TlbAgrees satp m.1 m.2
  pages : UserPagesAvoid (fun x ↦ tables x ∨ hidden x) m.2 (satpRootPpn satp)

namespace Confined

variable {tables hidden : ℕ → Prop} {satp : BitVec 64} {m : Mmu} {b : Bus}

theorem beside (h : Confined tables hidden satp (m, b)) {m' : Mmu} {b' : Bus}
    (hb : BesideTables tables b b') (htlb : TlbAgrees satp m' b') :
    Confined tables hidden satp (m', b') where
  inside := hb.tablesIn h.inside
  ram a ha htables := hb.ram _ _ (h.ram a ha htables)
  tlb := htlb
  pages := h.pages.beside hb h.inside

theorem translate {context : MmuContext} (h : Confined tables hidden context.satp (m, b))
    (va : BitVec 64) (w : AccessWidth) (kind : MmuAccessKind) :
    Confined tables hidden context.satp (m.translate b va w kind context).2 :=
  h.beside (.of_translate ..) (h.tlb.translate va w kind).2

theorem operation (h : Confined tables hidden satp (m, b)) {width : AccessWidth}
    {op : BusOperation} (hop : Cpu.GuestOperation width op) {pa : BitVec 64}
    (hclear : ∀ i < 8, ¬tables (pa.toNat + i)) :
    BesideTables tables b (op b pa).2 ∧ Confined tables hidden satp (m, (op b pa).2) := by
  have hbeside : BesideTables tables b (op b pa).2 := by
    refine .of_ramByte h.ram (hop.access b pa).memoryMap fun x hx ↦ hop.ramByte b fun hin ↦ ?_
    have hwidth := widthInBytes_le width
    refine hclear (x - pa.toNat) (by omega) ?_
    rwa [Nat.add_sub_cancel' hin.1]
  exact ⟨hbeside, h.beside hbeside (h.tlb.beside hbeside h.inside)⟩

/-- What user mode reaches. -/
theorem clear {context : MmuContext} (h : Confined tables hidden context.satp (m, b))
    (huser : context.privilege = .user) (hpaged : satpMode context.satp ≠ 0#64) {va pa : BitVec 64}
    {w : AccessWidth} {kind : MmuAccessKind} (hpa : (m.translate b va w kind context).1 = .ok pa) :
    ∀ i < 8, ¬(tables (pa.toNat + i) ∨ hidden (pa.toNat + i)) := by
  rw [(h.tlb.translate va w kind).1, translateUncached] at hpa
  rw [if_neg (by rw [huser]; simpa using hpaged)] at hpa
  split at hpa
  · cases hpa
  · rcases walkPageTable_cases {} b va kind context with
      hw | ⟨leaf, b₁, hf, -, hperm, -, hw⟩ <;> rw [hw] at hpa
    · cases hpa
    · obtain rfl := Except.ok.inj hpa
      refine h.pages va leaf hf ?_
      by_contra hno
      rw [Bool.not_eq_true] at hno
      simp [permissionAllows, huser, hno] at hperm

end Confined

/-! ## Two harts -/

/-- Memories that a program in the address space `satp` cannot tell apart, with what it has not
changed since `start` and `start'`. -/
structure Separated (tables hidden : ℕ → Prop) (satp : BitVec 64) (start start' : Bus)
    (m m' : Mmu × Bus) : Prop where
  confined : Confined tables hidden satp m
  tlb : TlbAgrees satp m'.1 m'.2
  agrees : m.2.AgreesBut hidden m'.2
  tables : BesideTables tables start m.2
  kept : ∀ x, hidden x → m.2.ramByte x = start.ramByte x
  kept' : ∀ x, hidden x → m'.2.ramByte x = start'.ramByte x

/-- A TLB with fewer entries. -/
theorem TlbAgrees.sfenceVma {satp : BitVec 64} {m : Mmu} {b : Bus} (h : TlbAgrees satp m b)
    (va : Option (BitVec 64)) (asid : Option (BitVec 16)) :
    TlbAgrees satp (m.sfenceVma va asid) b := by
  intro e he va' hcovers
  have hvalid : e.valid = true := by
    rw [TlbEntry.covers, Bool.and_eq_true, Bool.and_eq_true] at hcovers
    exact hcovers.1.1
  exact h e (mem_of_mem_sfenceVma he hvalid) va' hcovers

namespace Separated

variable {tables hidden : ℕ → Prop} {satp : BitVec 64} {start start' : Bus} {m m' : Mmu}
  {b b' : Bus} (hdisjoint : ∀ x, tables x → ¬hidden x)

include hdisjoint

theorem confined' (h : Separated tables hidden satp start start' (m, b) (m', b')) :
    Confined tables hidden satp (m', b') :=
  h.confined.beside (h.agrees.besideTables hdisjoint) h.tlb

theorem translate {context : MmuContext}
    (h : Separated tables hidden context.satp start start' (m, b) (m', b')) (va : BitVec 64)
    (w : AccessWidth) (kind : MmuAccessKind) :
    Tied (Separated tables hidden context.satp start start') (m.translate b va w kind context)
      (m'.translate b' va w kind context) := by
  have hclear (a : BitVec 64) (ha : a ∈ walkEntries b va (satpRootPpn context.satp) 2) (i : ℕ)
      (hi : i < 8) : ¬hidden (a.toNat + i) := hdisjoint _ (h.confined.inside va a ha i hi)
  have hwalked := h.agrees.translateUncached kind hclear
  have heq := h.confined.tlb.translate_eq va w kind
  have heq' := h.tlb.translate_eq va w kind
  dsimp only at heq heq' hwalked
  rw [← heq, ← heq'] at hwalked
  have hout (x : ℕ) (hx : hidden x) : ¬tables x := fun htable ↦ hdisjoint x htable hx
  exact ⟨hwalked.answer, h.confined.translate va w kind, (h.tlb.translate va w kind).2,
    hwalked.states, h.tables.trans (.of_translate ..),
    fun x hx ↦ (ramByte_translate (fun _ ↦ h.confined.inside) va w kind (hout x hx)).trans
      (h.kept x hx),
    fun x hx ↦ (ramByte_translate (fun _ ↦ (h.confined' hdisjoint).inside) va w kind
      (hout x hx)).trans (h.kept' x hx)⟩

theorem operation (h : Separated tables hidden satp start start' (m, b) (m', b'))
    {width : AccessWidth} {op : BusOperation} (hop : Cpu.GuestOperation width op) {pa : BitVec 64}
    (hclear : ∀ i < 8, ¬(tables (pa.toNat + i) ∨ hidden (pa.toNat + i))) :
    (op b' pa).1 = (op b pa).1 ∧
      Separated tables hidden satp start start' (m, (op b pa).2) (m', (op b' pa).2) := by
  have hwidth := widthInBytes_le width
  have htables (i : ℕ) (hi : i < 8) : ¬tables (pa.toNat + i) := fun ht ↦ hclear i hi (Or.inl ht)
  have hhidden (i : ℕ) (hi : i < 8) : ¬hidden (pa.toNat + i) := fun hh ↦ hclear i hi (Or.inr hh)
  have hdone := hop.tied h.agrees fun i hi ↦ hhidden i (by omega)
  have hout (x : ℕ) (hx : hidden x) : ¬(pa.toNat ≤ x ∧ x < pa.toNat + widthInBytes width) := by
    rintro ⟨hle, hlt⟩
    refine hhidden (x - pa.toNat) (by omega) ?_
    rwa [Nat.add_sub_cancel' hle]
  obtain ⟨hbeside, hconfined⟩ := h.confined.operation hop htables
  exact ⟨hdone.answer, hconfined, ((h.confined' hdisjoint).operation hop htables).2.tlb,
    hdone.states, h.tables.trans hbeside,
    fun x hx ↦ (hop.ramByte b (hout x hx)).trans (h.kept x hx),
    fun x hx ↦ (hop.ramByte b' (hout x hx)).trans (h.kept' x hx)⟩

end Separated

/-- Behind a translation only the bus operation is left. -/
theorem tied_accessTranslated {R : Mmu × Bus → Mmu × Bus → Prop} {c c' : Cpu}
    (h : Cpu.Twins R c c') (packet : InstructionPacket) (va : BitVec 64) (cause : ExceptionCause)
    {op : BusOperation} {translated : TranslationResult}
    (hop : ∀ pa, translated = .ok pa → (op c'.bus pa).1 = (op c.bus pa).1 ∧
      R (c.mmu, (op c.bus pa).2) (c'.mmu, (op c'.bus pa).2)) :
    Tied (Cpu.Twins R) (c.accessTranslated packet va cause op translated)
      (c'.accessTranslated packet va cause op translated) := by
  cases translated with
  | error fault => exact ⟨rfl, h⟩
  | ok pa =>
    obtain ⟨hanswer, hstates⟩ := hop pa rfl
    have hdone : Cpu.Twins R { c with bus := (op c.bus pa).2 }
        { c' with bus := (op c'.bus pa).2 } := by
      refine ⟨?_, hstates⟩
      rw [h.hart]
      rfl
    rw [Cpu.accessTranslated, Cpu.accessTranslated, hanswer]
    exact .ite ⟨rfl, hdone⟩ ⟨rfl, hdone⟩

/-- A program in user mode, in the address space `satp`. -/
def InSpace (satp : BitVec 64) (s : CpuState) : Prop := s.privilege = .user ∧ s.csrs.satp = satp

/-- **User mode is blind.** -/
theorem blind_separated {tables hidden : ℕ → Prop} {satp : BitVec 64} (start start' : Bus)
    (hdisjoint : ∀ x, tables x → ¬hidden x) (hpaged : satpMode satp ≠ 0#64) :
    Cpu.Blind (InSpace satp) (Separated tables hidden satp start start') where
  change hprivilege hchange hspace :=
    ⟨hprivilege.trans hspace.1, (congrArg CsrFile.satp hchange.frame).trans hspace.2⟩
  access {c c'} hspace htwins packet va width kind cause op hop := by
    obtain ⟨huser, rfl⟩ := hspace
    have hcontext : c'.accessContext kind = c.accessContext kind := by
      rw [htwins.hart]
      rfl
    have hsatp : (c.accessContext kind).satp = c.state.csrs.satp := by
      rw [accessContext_eq]
    have hprivilege : (c.accessContext kind).privilege = .user := by
      rw [accessContext_eq, CpuState.effectivePrivilege, huser]
      simp
    have hmemory := htwins.memory
    rw [← hsatp] at hpaged hmemory ⊢
    have htranslated := Separated.translate hdisjoint hmemory va width kind
    have hclear (pa : BitVec 64)
        (hpa : (c.mmu.translate c.bus va width kind (c.accessContext kind)).1 = .ok pa) :
        ∀ i < 8, ¬(tables (pa.toNat + i) ∨ hidden (pa.toNat + i)) :=
      hmemory.confined.clear hprivilege hpaged hpa
    rw [Cpu.guestAccess, Cpu.guestAccess, hcontext, htranslated.answer]
    refine tied_accessTranslated ⟨?_, htranslated.states⟩ packet va cause fun pa hpa ↦
      htranslated.states.operation hdisjoint hop (hclear pa hpa)
    rw [htwins.hart]
    rfl
  fence h va asid :=
    ⟨⟨h.confined.inside, h.confined.ram, h.confined.tlb.sfenceVma va asid, h.confined.pages⟩,
      h.tlb.sfenceVma va asid, h.agrees, h.tables, h.kept, h.kept'⟩

/-- User mode stays in its address space. -/
theorem tied_userStep {satp : BitVec 64} {R : Mmu × Bus → Mmu × Bus → Prop}
    (hblind : Cpu.Blind (InSpace satp) R) {c c' : Cpu} (h : Cpu.Level (InSpace satp) R c c') :
    Tied (Cpu.Level (InSpace satp) R) c.step c'.step := by
  obtain ⟨huser, hchange⟩ := step_userChange c h.admits.1
  refine (hblind.step h).mono fun htwins ↦ ⟨⟨huser, ?_⟩, htwins⟩
  exact (congrArg CsrFile.satp hchange.frame).trans h.admits.2

/-- **Isolation of user mode.**  A program in user mode, whose pages reach neither its tables nor a
hidden byte, runs on two machines that differ in hidden bytes, and in what their TLBs have of the
tables.  After any number of steps the two harts and all that is not hidden are still the same, and
the next step reports the same; no hidden byte has changed on either machine, the tables have
changed in A and D bits only, and the harts are still in user mode. -/
theorem user_isolated {tables hidden : ℕ → Prop} {c c' : Cpu}
    (huser : c.state.privilege = .user) (hpaged : satpMode c.state.csrs.satp ≠ 0#64)
    (hdisjoint : ∀ x, tables x → ¬hidden x)
    (hconfined : Confined tables hidden c.state.csrs.satp c.memory)
    (htlb : TlbAgrees c.state.csrs.satp c'.mmu c'.bus)
    (htwins : c.Twins (fun m m' ↦ m.2.AgreesBut hidden m'.2) c') (n : ℕ) :
    (c'.after n).step.1 = (c.after n).step.1 ∧
      (c.after n).Twins (fun m m' ↦ m.2.AgreesBut hidden m'.2) (c'.after n) ∧
      (c.after n).state.privilege = .user ∧
      BesideTables tables c.bus (c.after n).bus ∧
      ∀ x, hidden x → (c.after n).bus.ramByte x = c.bus.ramByte x ∧
        (c'.after n).bus.ramByte x = c'.bus.ramByte x := by
  have hblind := blind_separated c.bus c'.bus hdisjoint hpaged
  have hlevel : Cpu.Level (InSpace c.state.csrs.satp)
      (Separated tables hidden c.state.csrs.satp c.bus c'.bus) c c' :=
    ⟨⟨huser, rfl⟩, htwins.hart, hconfined, htlb, htwins.memory, .refl _ _, fun _ _ ↦ rfl,
      fun _ _ ↦ rfl⟩
  have hlater := iterate (fun _ _ ↦ tied_userStep hblind) hlevel n
  have hmemory := hlater.twins.memory
  exact ⟨(hblind.step hlater).answer, ⟨hlater.twins.hart, hmemory.agrees⟩, hlater.admits.1,
    hmemory.tables, fun x hx ↦ ⟨hmemory.kept x hx, hmemory.kept' x hx⟩⟩

/-! ## A loop beside a secret -/

theorem pos_tablePage : 0 < (4096#64).toNat := by decide

theorem fits_tablePage : (0#64).toNat + (4096#64).toNat < 2 ^ 64 := by decide

/-- A page of tables with one user gigapage, behind its entry 1. -/
def gigapageTable : PhysicalMemory where
  range := { base := 0#64, size := 4096#64, size_pos := pos_tablePage, fits := fits_tablePage }
  bytes := storeBytes (List.replicate 4096 0#8) 8 0x100000DF#64 8
  size_eq := (length_storeBytes ..).trans List.length_replicate

/-- A hart in user mode, in front of `addi x1, x1, 1` and a jump back to it, and a byte that its
pages do not reach. -/
def loopCpu (secret : BitVec 8) : Cpu where
  bus :=
    { regions :=
        [.ram gigapageTable,
        .ram
          { range :=
              { base := 0x2000#64, size := 1#64, size_pos := by decide, fits := by decide }
            bytes := [secret], size_eq := by simp },
        .ram
          { range :=
              { base := 0x40000000#64, size := 8#64, size_pos := AddressRange.pos_eight
                fits := by decide }
            bytes := (List.range 8).map (splitByte 0xFFDFF06F00108093#64), size_eq := by simp }]
      apart := by simp [AddressRegion.Apart, AddressRegion.range, AddressRange.overlaps,
        AddressRange.endExclusive, gigapageTable, -List.reduceReplicate] }
  state :=
    { integerRegisters := fun _ ↦ 0#64
      csrs := { satp := 0x8000000000000000#64 }
      privilege := .user
      programCounter := 0x40000000#64 }

section Loop

variable (secret : BitVec 8)

theorem gigapageTable_mem : AddressRegion.ram gigapageTable ∈ (loopCpu secret).bus.regions :=
  List.mem_cons_self

theorem inRam_gigapageTable {x n : ℕ} (h : x + n ≤ 4096) : (loopCpu secret).bus.InRam x n :=
  ⟨gigapageTable, gigapageTable_mem secret, Nat.zero_le _, show x + n ≤ 0 + 4096 by omega⟩

/-- The entries of `gigapageTable`. -/
theorem tableRead_loopCpu {e : BitVec 64} (he : e.toNat % 8 = 0) (hend : e.toNat + 8 ≤ 4096) :
    (tableRead (loopCpu secret).bus e).value = if e = 8#64 then 0x100000DF#64 else 0#64 := by
  have hin : (loopCpu secret).bus.InRam e.toNat (widthInBytes .doubleWord) :=
    inRam_gigapageTable secret hend
  obtain ⟨-, hbytes⟩ := hin.read .load
  have hfit : 8 + 8 ≤ (List.replicate 4096 0#8).length := by
    rw [List.length_replicate]
    omega
  rw [← composeBytes_splitByte_eight (tableRead _ e).value,
    ← composeBytes_splitByte_eight (if e = 8#64 then _ else _)]
  refine composeBytes_congr fun i hi ↦ Option.some.inj ((hbytes i hi).symm.trans ?_)
  rw [Bus.ramByte_of_mem (gigapageTable_mem secret) (Nat.zero_le _)
    (show e.toNat + i < 0 + 4096 by omega)]
  change some ((storeBytes _ 8 _ 8).getD (e.toNat + i) 0#8) = _
  rw [getD_storeBytes _ _ _ _ _ hfit]
  by_cases heq : e = 8#64
  · rw [if_pos heq, heq, show (8#64).toNat = 8 from rfl, if_pos (by omega),
      Nat.add_sub_cancel_left]
  · have hne : e.toNat ≠ 8 := fun h ↦ heq (BitVec.eq_of_toNat_eq h)
    rw [if_neg heq, if_neg (by omega), List.getD_eq_getElem?_getD, List.getElem?_replicate,
      if_pos (by omega)]
    simp [splitByte]

theorem entryAddress_zero_le (va : BitVec 64) : (entryAddress va 0#64 2).toNat + 8 ≤ 4096 := by
  have hvpn := toNat_vpn va 2
  have hlt : Sv39.vpn va.toNat 2 < 512 := Nat.mod_lt _ (by decide)
  rw [entryAddress, BitVec.toNat_add, BitVec.toNat_mul, hvpn, show (0#64 <<< 12).toNat = 0 from rfl,
    show (8#64).toNat = 8 from rfl]
  omega

theorem walkStep_loopCpu (va : BitVec 64) : (walkStep (loopCpu secret).bus va 0#64 2).1 =
    if entryAddress va 0#64 2 = 8#64 then .leaf ⟨8#64, 2, 0x100000DF#64⟩ else .fault := by
  have hend := entryAddress_zero_le va
  have haligned := entryAddress_aligned va 0#64 2
  have hin : (loopCpu secret).bus.InRam (entryAddress va 0#64 2).toNat
    (widthInBytes .doubleWord) := inRam_gigapageTable secret hend
  have hok : (tableRead (loopCpu secret).bus (entryAddress va 0#64 2)).ok = true :=
    (hin.read .load).1
  rw [walkStep_eq, hok, tableRead_loopCpu secret haligned hend]
  have hroot : ¬entryAddress va 0#64 2 < 0#64 <<< 12 := by simp
  rw [if_neg hroot]
  by_cases h : entryAddress va 0#64 2 = 8#64
  · rw [if_pos h, if_pos h, h]
    rfl
  · rw [if_neg h, if_neg h]
    rfl

theorem tablesIn_loopCpu : TablesIn (· < 4096) (loopCpu secret).bus 0#64 := by
  intro va a ha i hi
  have hend := entryAddress_zero_le va
  rw [walkEntries, walkStep_loopCpu] at ha
  have hentry : a = entryAddress va 0#64 2 := by
    by_cases h : entryAddress va 0#64 2 = 8#64
    · rw [if_pos h] at ha
      simpa using ha
    · rw [if_neg h] at ha
      simpa using ha
  show a.toNat + i < 4096
  rw [hentry]
  omega

theorem userPagesAvoid_loopCpu :
    UserPagesAvoid (fun x ↦ x < 4096 ∨ x = 0x2000) (loopCpu secret).bus 0#64 := by
  intro va leaf hleaf _ i _
  rw [findLeaf_succ, walkStep_loopCpu] at hleaf
  by_cases h : entryAddress va 0#64 2 = 8#64
  · rw [if_pos h] at hleaf
    obtain rfl := Option.some.inj hleaf
    have hbase : 0x40000000 ≤ (composePhysicalAddress va (ptePpn 0x100000DF#64) 2).toNat := by
      rw [composePhysicalAddress, BitVec.toNat_or, BitVec.toNat_or, BitVec.toNat_or]
      exact Nat.left_le_or.trans (Nat.left_le_or.trans Nat.left_le_or)
    dsimp only
    omega
  · rw [if_neg h] at hleaf
    cases hleaf

theorem confined_loopCpu :
    Confined (· < 4096) (· = 0x2000) 0x8000000000000000#64 (loopCpu secret).memory where
  inside := tablesIn_loopCpu secret
  ram a _ h := inRam_gigapageTable secret (h 7 (by omega))
  tlb := TlbAgrees.of_empty (show ∀ e ∈ ({} : Mmu).tlb, e.valid = false by decide)
  pages := userPagesAvoid_loopCpu secret

/-- The loop does not see the secret, and keeps it. -/
theorem user_isolated_loop : (loopCpu 1#8).step.1.retired = true ∧
    ∀ n, ((loopCpu 1#8).after n).state = ((loopCpu 2#8).after n).state ∧
      ((loopCpu 1#8).after n).bus.ramByte 0x2000 = some 1#8 := by
  refine ⟨by decide +kernel, fun n ↦ ?_⟩
  have htwins : (loopCpu 1#8).Twins (fun m m' ↦ m.2.AgreesBut (· = 0x2000) m'.2) (loopCpu 2#8) := by
    refine ⟨rfl, ⟨.cons (.same _) (.cons (.ram ⟨rfl, rfl, fun i hi ↦ ?_⟩) (.cons (.same _) .nil)),
      rfl, rfl⟩⟩
    cases i with
    | zero => exact absurd rfl hi
    | succ i => rfl
  obtain ⟨-, hlater, -, -, hkept⟩ := user_isolated rfl (by decide)
    (fun x (hx : x < 4096) hsecret ↦ absurd (hsecret ▸ hx) (by decide)) (confined_loopCpu 1#8)
    (TlbAgrees.of_empty (by decide)) htwins n
  exact ⟨hlater.state.symm, (hkept _ rfl).1⟩

end Loop

end Rvemu
