import Rvemu.Core.BusActivity
import Rvemu.Core.PartialStore
import Rvemu.Core.VectorRestart
import Rvemu.Lib.Runs

/-!
# Torn elements

Whether a vector store leaves half an element is settled by its bytes: each of them is accepted if
its address translates and the bus takes a byte there.  An element is torn if the first of its bytes
is accepted and another one is not.  In general that is judged byte after byte, since a store may
change the page tables it goes through; next to the tables it is judged once, in front of the
instruction.
-/

set_option autoImplicit false

namespace Rvemu

open Mmu

/-! ## Bytes stored one after another -/

/-- A byte to be stored: its address, and a value that holds it in the low bits. -/
abbrev StoredByte := BitVec 64 × BitVec 64

namespace Cpu

/-- The address of the byte translates, and the bus takes a byte at what it translates to. -/
def AcceptsByte (d : Cpu) (byte : StoredByte) : Prop :=
  ∃ pa, (d.mmu.translate d.bus byte.1 .byte .atomic d.dataContext).1 = .ok pa ∧
    (d.bus.write pa .byte byte.2 .store).1.ok = true

/-- Translate the address, and write the byte there. -/
def storeByte (d : Cpu) (byte : StoredByte) : Cpu :=
  let walked := d.mmu.translate d.bus byte.1 .byte .atomic d.dataContext
  match walked.1 with
  | .error _ => { d with mmu := walked.2.1, bus := walked.2.2 }
  | .ok pa => { d with mmu := walked.2.1, bus := (walked.2.2.write pa .byte byte.2 .store).2 }

variable (c : Cpu) (operation : VectorMemoryOperation) (group : VectorRegisterGroup)

/-- Byte `j` of element `i`. -/
def elementByte (i j : ℕ) : StoredByte :=
  (c.byteAddress operation i j, c.elementValue group i >>> (j * 8))

/-- The first `n` bytes of element `i`. -/
def elementBytes (i n : ℕ) : List StoredByte := (List.range n).map (c.elementByte operation group i)

/-- The bytes of the active elements of an interval. -/
def intervalBytes (first last : ℕ) : List StoredByte :=
  (elementsFrom first last).flatMap fun i ↦
    if c.state.laneActive operation.masked i then
      c.elementBytes operation group i (operation.elementWidthBits / 8)
    else []

/-- The bytes of the active elements from `vstart` on, up to the first `n` bytes of element `k`. -/
def storedBytes (k n : ℕ) : List StoredByte :=
  c.intervalBytes operation group c.state.csrs.vstart.toNat k ++ c.elementBytes operation group k n

/-- No active element in front of `vl` has its first byte accepted, after the bytes before it, and
another one refused. -/
def NoneTorn (accepted : List StoredByte → Prop) : Prop :=
  ∀ k, c.state.csrs.vstart.toNat ≤ k → k < (c.state.csrs.readValue .vl).toNat →
    c.state.laneActive operation.masked k = true →
    accepted (c.storedBytes operation group k 1) →
      accepted (c.storedBytes operation group k (operation.elementWidthBits / 8))

/-- The bytes are accepted when they are stored one after another. -/
def AcceptsInTurn : List StoredByte → Prop := Runs.Along storeByte AcceptsByte c

/-- The bytes are accepted in the state of the hart as it is. -/
def AcceptsAtOnce (bytes : List StoredByte) : Prop := ∀ byte ∈ bytes, c.AcceptsByte byte

end Cpu

/-! ## The visits of a store -/

section Visits

variable {c : Cpu} {packet : InstructionPacket} {operation : VectorMemoryOperation}
  {group : VectorRegisterGroup} {i j k n : ℕ}

theorem memoryMap_translate (m : Mmu) (b : Bus) (va : BitVec 64) (w : AccessWidth)
    (kind : MmuAccessKind) (context : MmuContext) :
    (m.translate b va w kind context).2.2.memoryMap = b.memoryMap := by
  rcases translate_cases m b va w kind context with
    h | ⟨-, h⟩ | ⟨hit, -, -, h⟩ | ⟨leaf, b', -, -, -, -, -, hu, h⟩ <;> rw [h]
  rcases hu with ⟨-, rfl⟩ | ⟨-, -, hs⟩
  · rfl
  · exact hs.memoryMap

/-- The visit of a byte of a store. -/
theorem visitByte_eq (hstore : operation.load = false) (d : Cpu) :
    (c.visitByte packet operation group i d j).2 = d.storeByte (c.elementByte operation group i j) ∧
      ((c.visitByte packet operation group i d j).1 = none ↔
        d.AcceptsByte (c.elementByte operation group i j)) := by
  have haccess : c.byteAccess operation group i j =
      { address := c.byteAddress operation i j, width := .byte
        store := some (c.elementValue group i >>> (j * 8)) } := by
    rw [Cpu.byteAccess, hstore]
    rfl
  have hok (pa : BitVec 64) (v : BitVec 64) :
      ((c.translateByte operation group d i j).2.2.write pa .byte v .store).1.ok =
        (d.bus.write pa .byte v .store).1.ok :=
    (Bus.ok_of_memoryMap (memoryMap_translate _ _ _ _ _ _) pa .byte v v .store).2
  have htranslate : c.translateByte operation group d i j =
      d.mmu.translate d.bus (c.byteAddress operation i j) .byte .atomic d.dataContext := by
    rw [Cpu.translateByte, haccess]
    rfl
  have hop : (c.byteAccess operation group i j).operation =
      writeOperation .byte (c.elementValue group i >>> (j * 8)) .store := by
    rw [haccess]
    rfl
  rw [Cpu.storeByte, Cpu.AcceptsByte, Cpu.elementByte]
  dsimp only
  rcases @visitByte_cases c packet operation group i j d with
    ⟨trap, herror, hvisit⟩ | ⟨pa, hpa, hafter, hcases⟩
  · rw [hvisit]
    rw [htranslate] at herror ⊢
    cases ht : (d.mmu.translate d.bus (c.byteAddress operation i j) .byte .atomic
        d.dataContext).1 with
    | ok pa =>
      rw [ht] at herror
      cases herror
    | error fault =>
      refine ⟨rfl, iff_of_false (by simp) ?_⟩
      rintro ⟨pa, hpa, -⟩
      cases hpa
  · rw [hop] at hafter hcases
    dsimp only [writeOperation] at hafter hcases
    rw [hok] at hcases
    rw [hafter]
    rw [htranslate] at hpa ⊢
    rw [hpa]
    refine ⟨rfl, ?_⟩
    rcases hcases with ⟨hno, hsome⟩ | ⟨hyes, hnone⟩
    · refine iff_of_false (fun hnone ↦ ?_) ?_
      · rw [hnone] at hsome
        cases hsome
      · rintro ⟨pa', hpa', hyes⟩
        obtain rfl := Except.ok.inj hpa'
        exact absurd (hyes.symm.trans hno) (by decide)
    · exact iff_of_true hnone ⟨pa, rfl, hyes⟩

theorem elementBytes_succ :
    c.elementBytes operation group i (n + 1) =
      c.elementBytes operation group i n ++ [c.elementByte operation group i n] := by
  rw [Cpu.elementBytes, List.range_succ, List.map_append]
  rfl

theorem intervalBytes_succ (hi : c.state.csrs.vstart.toNat ≤ i) :
    c.intervalBytes operation group c.state.csrs.vstart.toNat (i + 1) =
      c.intervalBytes operation group c.state.csrs.vstart.toNat i ++
        if c.state.laneActive operation.masked i then
          c.elementBytes operation group i (operation.elementWidthBits / 8)
        else [] := by
  have hone : elementsFrom i (i + 1) = [i] := by
    rw [elementsFrom, Nat.add_sub_cancel_left, List.range'_one]
  rw [Cpu.intervalBytes, elementsFrom_split hi (Nat.le_succ i), List.flatMap_append, hone,
    List.flatMap_singleton]
  rfl

/-- **The bytes of an element** are visited as they are stored one after another. -/
theorem visitBytes_eq (hstore : operation.load = false) :
    ((c.visitBytes packet operation group i n).1 = none ↔
        (c.beforeElement packet operation group i).AcceptsInTurn
          (c.elementBytes operation group i n)) ∧
      ((c.visitBytes packet operation group i n).1 = none →
        c.beforeByte packet operation group i n =
          Runs.run Cpu.storeByte (c.beforeElement packet operation group i)
            (c.elementBytes operation group i n)) := by
  induction n with
  | zero => exact ⟨iff_of_true rfl trivial, fun _ ↦ rfl⟩
  | succ n ih =>
    obtain ⟨hiff, hrun⟩ := ih
    have hprevious (h : (c.visitBytes packet operation group i (n + 1)).1 = none) :
        (c.visitBytes packet operation group i n).1 = none :=
      forElements_before (Nat.zero_le _) (Nat.le_succ n) h
    obtain ⟨hafter, haccepts⟩ :=
      @visitByte_eq c packet operation group i n hstore (c.beforeByte packet operation group i n)
    rw [elementBytes_succ, Cpu.AcceptsInTurn, Runs.along_append, Runs.run_append]
    refine ⟨?_, fun h ↦ ?_⟩
    · constructor
      · intro h
        have hn := hprevious h
        refine ⟨hiff.1 hn, ?_, trivial⟩
        rw [visitBytes_succ hn] at h
        rw [← hrun hn]
        exact haccepts.1 h
      · rintro ⟨hbefore, hbyte, -⟩
        have hn := hiff.2 hbefore
        rw [← hrun hn] at hbyte
        rw [visitBytes_succ hn]
        exact haccepts.2 hbyte
    · have hn := hprevious h
      rw [← hrun hn, Runs.run_cons, Runs.run_nil, ← hafter]
      exact congrArg Prod.snd (visitBytes_succ hn)

/-- **One element** is visited as its bytes are stored one after another. -/
theorem visitElement_eq (hg : MemoryGroup c operation group) (hstore : operation.load = false)
    (hstart : c.state.csrs.vstart.toNat ≤ i) (hi : i < (c.state.csrs.readValue .vl).toNat)
    (hnone : (c.visitElements packet operation group i).1 = none) {bytes : List StoredByte}
    (hbytes : bytes = if c.state.laneActive operation.masked i then
      c.elementBytes operation group i (operation.elementWidthBits / 8) else []) :
    ((c.visitElements packet operation group (i + 1)).1 = none ↔
        (c.beforeElement packet operation group i).AcceptsInTurn bytes) ∧
      ((c.visitElements packet operation group (i + 1)).1 = none →
        c.beforeElement packet operation group (i + 1) =
          Runs.run Cpu.storeByte (c.beforeElement packet operation group i) bytes) := by
  have halong := along_beforeElement hg hstart (Nat.le_of_lt hi) hnone
  have hstate : (c.beforeElement packet operation group i).state = c.state := halong.kept hstore
  obtain ⟨hiff, hrun⟩ :
      ((c.visitBytes packet operation group i (operation.elementWidthBits / 8)).1 = none ↔ _) ∧ _ :=
    visitBytes_eq hstore
  rw [Cpu.beforeElement.eq_def _ _ _ _ (i + 1)]
  rcases visitElements_cases halong hg hstart hi hnone with
    ⟨hoff, s, hs, hnext⟩ | ⟨hactive, ⟨hvisited, s, hs, hnext⟩ | ⟨trap, htrap, hs⟩⟩
  · obtain rfl : bytes = [] := by rw [hbytes, hoff, if_neg Bool.false_ne_true]
    rw [hs, hnext.kept hstore, ← hstate]
    exact ⟨iff_of_true rfl trivial, fun _ ↦ rfl⟩
  · obtain rfl := hbytes.trans (if_pos hactive)
    have hbyte : (c.beforeByte packet operation group i (operation.elementWidthBits / 8)).state =
        c.state :=
      visitBytes_state.trans hstate
    rw [hs, hnext.kept hstore, ← hbyte]
    exact ⟨iff_of_true rfl (hiff.1 hvisited), fun _ ↦ hrun hvisited⟩
  · obtain rfl := hbytes.trans (if_pos hactive)
    rw [hs]
    refine ⟨iff_of_false (fun h ↦ by cases h) fun h ↦ ?_, fun h ↦ by cases h⟩
    rw [hiff.2 h] at htrap
    cases htrap

/-- **The elements before `k`** are visited as their bytes are stored one after another. -/
theorem visitElements_eq (hg : MemoryGroup c operation group) (hstore : operation.load = false)
    (hstart : c.state.csrs.vstart.toNat ≤ k) (hk : k ≤ (c.state.csrs.readValue .vl).toNat) :
    ((c.visitElements packet operation group k).1 = none ↔
        c.AcceptsInTurn (c.intervalBytes operation group c.state.csrs.vstart.toNat k)) ∧
      ((c.visitElements packet operation group k).1 = none →
        c.beforeElement packet operation group k =
          Runs.run Cpu.storeByte c
            (c.intervalBytes operation group c.state.csrs.vstart.toNat k)) := by
  obtain ⟨n, rfl⟩ := Nat.exists_eq_add_of_le hstart
  clear hstart
  induction n with
  | zero =>
    rw [Nat.add_zero, Cpu.beforeElement, visitElements_start, Cpu.intervalBytes, elementsFrom,
      Nat.sub_self]
    exact ⟨iff_of_true rfl trivial, fun _ ↦ rfl⟩
  | succ n ih =>
    obtain ⟨hiff, hrun⟩ := ih (by omega)
    have hle : c.state.csrs.vstart.toNat ≤ c.state.csrs.vstart.toNat + n := Nat.le_add_right _ n
    have hprevious (h : (c.visitElements packet operation group
        (c.state.csrs.vstart.toNat + (n + 1))).1 = none) :=
      visitElements_before hle (Nat.add_le_add_left (Nat.le_succ n) _) h
    rw [← Nat.add_assoc, intervalBytes_succ hle, Cpu.AcceptsInTurn, Runs.along_append,
      Runs.run_append]
    refine ⟨⟨fun h ↦ ?_, fun h ↦ ?_⟩, fun h ↦ ?_⟩
    · have hn := hprevious h
      rw [← hrun hn]
      exact ⟨hiff.1 hn, (visitElement_eq hg hstore hle (by omega) hn rfl).1.1 h⟩
    · obtain ⟨hbefore, helement⟩ := h
      have hn := hiff.2 hbefore
      rw [← hrun hn] at helement
      exact (visitElement_eq hg hstore hle (by omega) hn rfl).1.2 helement
    · have hn := hprevious h
      rw [← hrun hn]
      exact (visitElement_eq hg hstore hle (by omega) hn rfl).2 h

/-- The first `n` bytes of element `k` are reached and moved if all bytes up to there are accepted
in turn. -/
theorem visited_iff (hg : MemoryGroup c operation group) (hstore : operation.load = false)
    (hstart : c.state.csrs.vstart.toNat ≤ k) (hk : k < (c.state.csrs.readValue .vl).toNat) :
    (c.visitElements packet operation group k).1 = none ∧
        (c.visitBytes packet operation group k n).1 = none ↔
      c.AcceptsInTurn (c.storedBytes operation group k n) := by
  obtain ⟨hiff, hrun⟩ : ((c.visitElements packet operation group k).1 = none ↔ _) ∧ _ :=
    visitElements_eq hg hstore hstart (Nat.le_of_lt hk)
  have hbytes : (c.visitBytes packet operation group k n).1 = none ↔ _ := (visitBytes_eq hstore).1
  rw [Cpu.storedBytes, Cpu.AcceptsInTurn, Runs.along_append]
  constructor
  · rintro ⟨helements, hvisited⟩
    rw [← hrun helements]
    exact ⟨hiff.1 helements, hbytes.1 hvisited⟩
  · rintro ⟨hbefore, helement⟩
    have helements := hiff.2 hbefore
    rw [← hrun helements] at helement
    exact ⟨helements, hbytes.2 helement⟩

end Visits

/-! ## Bytes beside the page tables -/

/-- Tables in RAM translate alike before and after changes of A and D bits. -/
theorem translateUncached_besideTables {tables : ℕ → Prop} {b b' : Bus} {kind : MmuAccessKind}
    {context : MmuContext} (hb : BesideTables tables b b')
    (hin : ¬ context.Bare → TablesIn tables b (satpRootPpn context.satp)) {va : BitVec 64}
    (hram : ¬ context.Bare → ∀ a ∈ walkEntries b va (satpRootPpn context.satp) 2,
      b.InRam a.toNat 8) :
    (translateUncached b' va kind context).1 = (translateUncached b va kind context).1 := by
  by_cases hbare : context.Bare
  · rw [hbare.translateUncached_eq, hbare.translateUncached_eq]
  cases hto : (translateUncached b va kind context).1 with
  | ok pa => exact translateUncached_beside hb (hin hbare) hto
  | error fault =>
    rw [MmuContext.Bare] at hbare
    rw [translateUncached, if_neg hbare] at hto ⊢
    split at hto
    · next hcanon => rw [if_pos hcanon, ← hto]
    · next hcanon =>
      rw [if_neg hcanon]
      rcases walkPageTable_cases {} b' va kind context with
        hw' | ⟨leaf', b₁, hf', halign', hperm', -, -⟩
      · rcases walkPageTable_cases {} b va kind context with hw | ⟨leaf, b₁, -, -, -, -, hw⟩
        · rw [hw] at hto
          rw [hw', ← hto]
        · rw [hw] at hto
          cases hto
      · -- the leaf in `b'` is one of `b`, and is as good there
        exfalso
        cases hf : (findLeaf b va (satpRootPpn context.satp) 2).1 with
        | none =>
          rw [findLeaf_none_of_entryLe (fun _ ha ↦ hb.entryLe (hin hbare) ha) hf] at hf'
          cases hf'
        | some leaf =>
          obtain ⟨pte, had, hsame⟩ := hb.findLeaf (hin hbare) hf
          obtain rfl := Option.some.inj (hf'.symm.trans hsame)
          dsimp only at halign' hperm'
          rw [had.ptePpn_eq] at halign'
          rw [had.permissionAllows_eq] at hperm'
          obtain ⟨m', b₁, -, hw⟩ := walkPageTable_of_inRam {} hf halign' hperm'
            (hram hbare _ (pteAddress_mem_walkEntries hf))
          rw [hw] at hto
          cases hto

/-- The page tables lie in RAM, apart from the bytes that are stored, and the TLB agrees with
them. -/
structure StoresBeside (c : Cpu) (tables : ℕ → Prop) (bytes : StoredByte → Prop) : Prop where
  inside : ¬ c.dataContext.Bare → TablesIn tables c.bus c.root
  tablesRam : ¬ c.dataContext.Bare → ∀ byte, bytes byte →
    ∀ a ∈ walkEntries c.bus byte.1 c.root 2, c.bus.InRam a.toNat 8
  tlb : ¬ c.dataContext.Bare → TlbAgrees c.dataContext.satp c.mmu c.bus
  apart : ∀ byte, bytes byte → ∀ pa,
    (c.mmu.translate c.bus byte.1 .byte .atomic c.dataContext).1 = .ok pa →
    (c.bus.write pa .byte byte.2 .store).1.ok = true →
      c.bus.InRam pa.toNat 1 ∧ ¬ tables pa.toNat

/-- `d` translates and accepts as `c` does. -/
structure AcceptsAlike (tables : ℕ → Prop) (c d : Cpu) : Prop where
  state : d.state = c.state
  memoryMap : d.bus.memoryMap = c.bus.memoryMap
  beside : BesideTables tables c.bus d.bus
  tlb : ¬ c.dataContext.Bare → TlbAgrees c.dataContext.satp d.mmu d.bus

namespace AcceptsAlike

variable {tables : ℕ → Prop} {c d : Cpu} {bytes : StoredByte → Prop}

theorem dataContext_eq (h : AcceptsAlike tables c d) : d.dataContext = c.dataContext := by
  rw [Cpu.dataContext, h.state]
  rfl

theorem translate_eq (h : AcceptsAlike tables c d) (hc : StoresBeside c tables bytes)
    {byte : StoredByte} (hbyte : bytes byte) :
    (d.mmu.translate d.bus byte.1 .byte .atomic d.dataContext).1 =
      (c.mmu.translate c.bus byte.1 .byte .atomic c.dataContext).1 := by
  rw [h.dataContext_eq]
  by_cases hbare : c.dataContext.Bare
  · rw [hbare.translate_eq, hbare.translate_eq]
  · rw [((h.tlb hbare).translate byte.1 .byte .atomic).1,
      ((hc.tlb hbare).translate byte.1 .byte .atomic).1]
    exact translateUncached_besideTables h.beside hc.inside fun hno ↦ hc.tablesRam hno byte hbyte

theorem acceptsByte_iff (h : AcceptsAlike tables c d) (hc : StoresBeside c tables bytes)
    {byte : StoredByte} (hbyte : bytes byte) : d.AcceptsByte byte ↔ c.AcceptsByte byte := by
  rw [Cpu.AcceptsByte, Cpu.AcceptsByte, h.translate_eq hc hbyte]
  refine exists_congr fun pa ↦ and_congr_right fun _ ↦ ?_
  rw [(Bus.ok_of_memoryMap h.memoryMap pa .byte byte.2 byte.2 .store).2]

/-- The store of a byte beside the tables keeps this. -/
theorem storeByte (h : AcceptsAlike tables c d) (hc : StoresBeside c tables bytes)
    {byte : StoredByte} (hbyte : bytes byte) : AcceptsAlike tables c (d.storeByte byte) := by
  have hwalked := memoryMap_translate d.mmu d.bus byte.1 .byte .atomic d.dataContext
  have hbeside := h.beside.trans
    (BesideTables.of_translate tables d.mmu d.bus byte.1 .byte .atomic d.dataContext)
  have htlb (hbare : ¬ c.dataContext.Bare) : TlbAgrees c.dataContext.satp
      (d.mmu.translate d.bus byte.1 .byte .atomic d.dataContext).2.1
      (d.mmu.translate d.bus byte.1 .byte .atomic d.dataContext).2.2 := by
    rw [h.dataContext_eq]
    exact ((h.tlb hbare).translate byte.1 .byte .atomic).2
  have htranslate := h.translate_eq hc hbyte
  rw [Cpu.storeByte]
  cases ht : (d.mmu.translate d.bus byte.1 .byte .atomic d.dataContext).1 with
  | error fault => exact ⟨h.state, hwalked.trans h.memoryMap, hbeside, htlb⟩
  | ok pa =>
    rw [ht] at htranslate
    have hmap := hwalked.trans h.memoryMap
    dsimp only
    cases hok : ((d.mmu.translate d.bus byte.1 .byte .atomic d.dataContext).2.2.write pa .byte
        byte.2 .store).1.ok with
    | false =>
      rw [Bus.write_of_not_ok hok]
      exact ⟨h.state, hmap, hbeside, htlb⟩
    | true =>
      rw [(Bus.ok_of_memoryMap hmap pa .byte byte.2 byte.2 .store).2] at hok
      obtain ⟨hram, hout⟩ := hc.apart byte hbyte pa htranslate.symm hok
      have hstored := (Bus.InRam.write (w := .byte) (hbeside.ram _ _ hram) byte.2 .store).2
      have hstill := BesideTables.of_stored hstored hout
      refine ⟨h.state, hstored.memoryMap.trans hmap, hbeside.trans hstill, fun hbare ↦ ?_⟩
      exact (htlb hbare).beside hstill (hbeside.tablesIn (hc.inside hbare))

theorem refl (hc : StoresBeside c tables bytes) : AcceptsAlike tables c c :=
  ⟨rfl, rfl, BesideTables.refl _ _, hc.tlb⟩

/-- **Beside the tables**, what is accepted in turn is what is accepted at once. -/
theorem acceptsInTurn_iff (h : AcceptsAlike tables c d) (hc : StoresBeside c tables bytes)
    {l : List StoredByte} (hl : ∀ byte ∈ l, bytes byte) :
    d.AcceptsInTurn l ↔ c.AcceptsAtOnce l := by
  induction l generalizing d with
  | nil => simp [Cpu.AcceptsInTurn, Cpu.AcceptsAtOnce, Runs.Along]
  | cons byte l ih =>
    rw [List.forall_mem_cons] at hl
    rw [Cpu.AcceptsAtOnce, List.forall_mem_cons]
    exact and_congr (h.acceptsByte_iff hc hl.1) (ih (h.storeByte hc hl.1) hl.2)

end AcceptsAlike

/-! ## The stores that leave half an element -/

/-- The bytes of the active elements of a store. -/
def Cpu.BytesStored (c : Cpu) (operation : VectorMemoryOperation) (group : VectorRegisterGroup)
    (byte : StoredByte) : Prop :=
  ∃ i j, Accesses c operation i j ∧ byte = c.elementByte operation group i j

section Stores

variable {c : Cpu} {operation : VectorMemoryOperation} {group : VectorRegisterGroup} {k n : ℕ}

theorem bytesStored_of_mem (hk : k < (c.state.csrs.readValue .vl).toNat)
    (hstart : c.state.csrs.vstart.toNat ≤ k)
    (hactive : c.state.laneActive operation.masked k = true)
    (hn : n ≤ operation.elementWidthBits / 8) {byte : StoredByte}
    (h : byte ∈ c.storedBytes operation group k n) : c.BytesStored operation group byte := by
  have helement {i m : ℕ} (hi : c.state.csrs.vstart.toNat ≤ i)
      (hi' : i < (c.state.csrs.readValue .vl).toNat)
      (hon : c.state.laneActive operation.masked i = true) (hm : m ≤ operation.elementWidthBits / 8)
      (hbyte : byte ∈ c.elementBytes operation group i m) : c.BytesStored operation group byte := by
    obtain ⟨j, hj, rfl⟩ := List.mem_map.1 hbyte
    rw [List.mem_range] at hj
    exact ⟨i, j, ⟨hi, hi', hon, by omega⟩, rfl⟩
  rcases List.mem_append.1 h with hbefore | hbyte
  · obtain ⟨i, hi, hbyte⟩ := List.mem_flatMap.1 hbefore
    obtain ⟨hfirst, hlast⟩ := List.mem_range'_1.1 hi
    split at hbyte
    · next hon => exact helement hfirst (by omega) hon (Nat.le_refl _) hbyte
    · cases hbyte
  · exact helement hstart hk hactive hn hbyte

/-- **No partial element store**: a vector store that traps leaves no byte of the element it traps
at if and only if none of its elements is torn, by the bytes that are accepted in turn; next to page
tables in RAM, by those that are accepted in front of the instruction. -/
theorem vector_store_whole_iff (c : Cpu) (packet : InstructionPacket)
    (operation : VectorMemoryOperation) (group : VectorRegisterGroup) (sequentialPc : BitVec 64)
    (hvs : c.state.csrs.vectorStateEnabled = true) (hgroup : c.memoryGroup operation = some group)
    (hstore : operation.load = false) :
    ((∀ trap, (c.executeVectorMemory packet operation sequentialPc).1.trap = some trap →
        WholeElements c packet operation group
          (c.executeVectorMemory packet operation sequentialPc).2.state.csrs.vstart.toNat
          (c.executeVectorMemory packet operation sequentialPc).2) ↔
      c.NoneTorn operation group c.AcceptsInTurn) ∧
    ∀ tables, StoresBeside c tables (c.BytesStored operation group) →
      (c.NoneTorn operation group c.AcceptsInTurn ↔
        c.NoneTorn operation group c.AcceptsAtOnce) := by
  have hg := memoryGroup_eq_some hgroup
  refine ⟨(wholeElements_iff c packet operation group sequentialPc hvs hgroup hstore).trans ?_,
    fun tables hbeside ↦ ?_⟩
  · refine forall_congr' fun k ↦ forall_congr' fun hstart ↦ forall_congr' fun hk ↦
      forall_congr' fun _ ↦ ?_
    have hvisited (n : ℕ) : _ ∧ (c.visitBytes packet operation group k n).1 = none ↔ _ :=
      visited_iff hg hstore hstart hk
    rw [← hvisited, ← hvisited]
    exact ⟨fun h hfirst ↦ ⟨hfirst.1, h hfirst.1 hfirst.2⟩, fun h hels hfirst ↦ (h ⟨hels, hfirst⟩).2⟩
  · refine forall_congr' fun k ↦ forall_congr' fun hstart ↦ forall_congr' fun hk ↦
      forall_congr' fun hactive ↦ ?_
    have hturn {n : ℕ} (hn : n ≤ operation.elementWidthBits / 8) :=
      (AcceptsAlike.refl hbeside).acceptsInTurn_iff hbeside
        fun byte hbyte ↦ bytesStored_of_mem (n := n) hk hstart hactive hn hbyte
    have hpos : 1 ≤ operation.elementWidthBits / 8 := by
      have hw := hg.fits.width
      rw [hg.width] at hw
      omega
    rw [hturn hpos, hturn (Nat.le_refl _)]

end Stores

/-- A hart that stores as supervisor, with ones in its vector registers and one element of four
bytes in force.  The address in `x1` is two bytes in front of a page that is not mapped, the one in
`x2` is in it. -/
def tornStore : Cpu :=
  { straddleCpu 0#64 with
    state :=
      { integerRegisters := fun i ↦
          if i = 1#5 then 0x7FFFFFFE#64 else if i = 2#5 then 0x80000000#64 else 0#64
        csrs :=
          { mstatus := 0x20E00#64, satp := 0x8000000000000000#64, vtype := 0x10#64, vl := 1#64 }
        vectorState := { registers := fun _ _ ↦ 0xFF#8 } } }

/-- `vse32.v v1, (rs1)` -/
def storeWord (rs1 : BitVec 5) : VectorMemoryOperation where
  load := false
  masked := false
  elementWidthBits := 32
  addressingMode := .unitStride
  vectorRegister := 1#5
  baseRegister := rs1
  strideRegister := 0#5

/-- The group of `v1`. -/
def storedGroup : VectorRegisterGroup where
  configuration := decodeVectorConfiguration 0x10#64
  baseRegister := 1
  span_le := by decide

theorem storedBytes_storeWord (rs1 : BitVec 5) :
    tornStore.storedBytes (storeWord rs1) storedGroup 0 1 =
      [tornStore.elementByte (storeWord rs1) storedGroup 0 0] := rfl

/-- The addresses that `vse32.v v1, (x1)` stores to. -/
theorem bytesStored_storeWord {byte : StoredByte}
    (h : tornStore.BytesStored (storeWord 1#5) storedGroup byte) :
    byte.1 = 0x7FFFFFFE#64 ∨ byte.1 = 0x7FFFFFFF#64 ∨ byte.1 = 0x80000000#64 ∨
      byte.1 = 0x80000001#64 := by
  obtain ⟨i, j, ⟨-, hi, -, hj⟩, rfl⟩ := h
  obtain rfl : i = 0 := Nat.lt_one_iff.1 hi
  have hall : ∀ j < 4, (tornStore.elementByte (storeWord 1#5) storedGroup 0 j).1 = 0x7FFFFFFE#64 ∨
      (tornStore.elementByte (storeWord 1#5) storedGroup 0 j).1 = 0x7FFFFFFF#64 ∨
      (tornStore.elementByte (storeWord 1#5) storedGroup 0 j).1 = 0x80000000#64 ∨
      (tornStore.elementByte (storeWord 1#5) storedGroup 0 j).1 = 0x80000001#64 := by decide
  exact hall j hj

theorem walkEntries_tornStore :
    (walkEntries tornStore.bus 0x7FFFFFFE#64 tornStore.root 2 = [8#64] ∧
      walkEntries tornStore.bus 0x7FFFFFFF#64 tornStore.root 2 = [8#64]) ∧
    walkEntries tornStore.bus 0x80000000#64 tornStore.root 2 = [16#64] ∧
      walkEntries tornStore.bus 0x80000001#64 tornStore.root 2 = [16#64] := by decide

theorem translate_tornStore {va : BitVec 64} :
    (va = 0x7FFFFFFE#64 → (tornStore.mmu.translate tornStore.bus va .byte .atomic
      tornStore.dataContext).1 = .ok 0xBFFFFFFE#64) ∧
    (va = 0x7FFFFFFF#64 → (tornStore.mmu.translate tornStore.bus va .byte .atomic
      tornStore.dataContext).1 = .ok 0xBFFFFFFF#64) ∧
    (va = 0x80000000#64 ∨ va = 0x80000001#64 → (tornStore.mmu.translate tornStore.bus va .byte
      .atomic tornStore.dataContext).1 = .error (pageFault .atomic va)) := by
  refine ⟨?_, ?_, ?_⟩
  · rintro rfl
    decide
  · rintro rfl
    decide
  · rintro (rfl | rfl)
    · decide
    · decide

/-- Its page tables lie beside them: an empty TLB, and one page of entries that are leaves or
empty. -/
theorem storesBeside_tornStore : StoresBeside tornStore (· < 4096)
    (tornStore.BytesStored (storeWord 1#5) storedGroup) where
  inside _ := tablesIn_straddleCpu (Or.inl rfl)
  tlb _ := TlbAgrees.of_empty (by decide)
  tablesRam _ byte hbyte a ha := by
    obtain ⟨⟨hfirst, hsecond⟩, hthird, hfourth⟩ := walkEntries_tornStore
    have hmem : a = 8#64 ∨ a = 16#64 := by
      rcases bytesStored_storeWord hbyte with h | h | h | h <;> rw [h] at ha
      · rw [hfirst] at ha
        exact Or.inl (List.mem_singleton.1 ha)
      · rw [hsecond] at ha
        exact Or.inl (List.mem_singleton.1 ha)
      · rw [hthird] at ha
        exact Or.inr (List.mem_singleton.1 ha)
      · rw [hfourth] at ha
        exact Or.inr (List.mem_singleton.1 ha)
    rcases hmem with rfl | rfl
    · exact ⟨_, List.mem_cons_self, by decide, by decide⟩
    · exact ⟨_, List.mem_cons_self, by decide, by decide⟩
  apart byte hbyte pa hpa _ := by
    obtain ⟨hfirst, hsecond, hfault⟩ := @translate_tornStore byte.1
    have hmapped : pa = 0xBFFFFFFE#64 ∨ pa = 0xBFFFFFFF#64 := by
      rcases bytesStored_storeWord hbyte with h | h | h | h
      · exact Or.inl (Except.ok.inj (hpa.symm.trans (hfirst h)))
      · exact Or.inr (Except.ok.inj (hpa.symm.trans (hsecond h)))
      · cases hpa.symm.trans (hfault (Or.inl h))
      · cases hpa.symm.trans (hfault (Or.inr h))
    rcases hmapped with rfl | rfl
    · exact ⟨⟨_, List.mem_cons_of_mem _ List.mem_cons_self, by decide, by decide⟩, by decide⟩
    · exact ⟨⟨_, List.mem_cons_of_mem _ List.mem_cons_self, by decide, by decide⟩, by decide⟩

/-- The first byte is refused at `x2`; at `x1` it is seen in front of the instruction what is
accepted. -/
theorem vector_store_whole_unmapped :
    (tornStore.executeVectorMemory { bits := 0x020160A7#32 }
      (storeWord 2#5) 4#64).1.retired = false ∧
      (∀ trap,
        (tornStore.executeVectorMemory { bits := 0x020160A7#32 } (storeWord 2#5) 4#64).1.trap =
            some trap →
          WholeElements tornStore { bits := 0x020160A7#32 } (storeWord 2#5) storedGroup
            (tornStore.executeVectorMemory { bits := 0x020160A7#32 } (storeWord 2#5)
              4#64).2.state.csrs.vstart.toNat
            (tornStore.executeVectorMemory { bits := 0x020160A7#32 } (storeWord 2#5) 4#64).2) ∧
      (tornStore.NoneTorn (storeWord 1#5) storedGroup tornStore.AcceptsInTurn ↔
        tornStore.NoneTorn (storeWord 1#5) storedGroup tornStore.AcceptsAtOnce) := by
  have hwhole := vector_store_whole_iff tornStore { bits := 0x020160A7#32 } (storeWord 2#5)
    storedGroup 4#64 (by decide) rfl rfl
  have hbeside := (vector_store_whole_iff tornStore { bits := 0x0200E0A7#32 } (storeWord 1#5)
    storedGroup 4#64 (by decide) rfl rfl).2 (· < 4096) storesBeside_tornStore
  refine ⟨by decide, hwhole.1.2 ?_, hbeside⟩
  intro k _ hk _ hfirst
  obtain rfl : k = 0 := Nat.lt_one_iff.1 hk
  rw [storedBytes_storeWord] at hfirst
  obtain ⟨⟨pa, hpa, -⟩, -⟩ := hfirst
  have hfault : (tornStore.mmu.translate tornStore.bus
      (tornStore.elementByte (storeWord 2#5) storedGroup 0 0).1 .byte .atomic
      tornStore.dataContext).1 = .error (pageFault .atomic 0x80000000#64) := by decide
  rw [hfault] at hpa
  cases hpa

/-- `vse32.v v1, (x1)` has stored two bytes of its only element when it traps. -/
theorem vector_store_torn :
    decodeVectorMemoryOperation 0x0200E0A7#32 false = some (storeWord 1#5) ∧
      tornStore.memoryGroup (storeWord 1#5) = some storedGroup ∧
      (tornStore.executeVectorMemory { bits := 0x0200E0A7#32 } (storeWord 1#5) 4#64).1.trap =
        some { cause := .storePageFault, value := 0x80000000#64, programCounter := 0#64,
               instruction := 0x0200E0A7#32 } ∧
      tornStore.state.csrs.vstart = 0#64 ∧
      (tornStore.executeVectorMemory { bits := 0x0200E0A7#32 } (storeWord 1#5)
        4#64).2.state.csrs.vstart = 0#64 ∧
      tornStore.bus.ramByte 0xBFFFFFFE = some 1#8 ∧
      (tornStore.executeVectorMemory { bits := 0x0200E0A7#32 } (storeWord 1#5)
        4#64).2.bus.ramByte 0xBFFFFFFE = some 0xFF#8 := by
  refine ⟨by decide, rfl, by decide, by decide, by decide, by decide, by decide⟩

end Rvemu
