import Rvemu.Core.MappedAccess
import Rvemu.Core.VectorMemory

/-!
# Vector accesses of mapped RAM

What a vector access does to the RAM beside the page tables is a sequence of writes, and what a load
brings in are the bytes that were in RAM in front of it.  Page tables that map all of its bytes let
the access retire.
-/

set_option autoImplicit false

namespace Rvemu

open Mmu Bytes Packed

/-! ## The bytes of an access -/

/-- How the bytes of a vector access are translated. -/
def VectorMemoryOperation.kind (operation : VectorMemoryOperation) : MmuAccessKind :=
  if operation.load then .load else .atomic

section Bytes

variable (c : Cpu) (operation : VectorMemoryOperation) (group : VectorRegisterGroup)
  (target : BitVec 64 → BitVec 64)

/-- The address of byte `j` of element `i`. -/
def Cpu.byteAddress (i j : ℕ) : BitVec 64 := c.elementAddress operation i + BitVec.ofNat 64 j

/-- Byte `j` of element `i` belongs to an active element in front of `vl`. -/
structure Accesses (i j : ℕ) : Prop where
  start : c.state.csrs.vstart.toNat ≤ i
  length : i < (c.state.csrs.readValue .vl).toNat
  active : c.state.laneActive operation.masked i = true
  width : j < operation.elementWidthBits / 8

/-- The virtual addresses that are accessed. -/
def Cpu.accessed (va : BitVec 64) : Prop :=
  ∃ i j, Accesses c operation i j ∧ va = c.byteAddress operation i j

/-- The writes of the first `n` bytes of element `i`. -/
def Cpu.byteWrites (i n : ℕ) : List (ℕ × Option (BitVec 8)) :=
  (List.range n).flatMap fun j ↦
    (c.byteAccess operation group i j).writes (target (c.byteAddress operation i j))

/-- The writes of the active elements of an interval. -/
def Cpu.elementWrites (first last : ℕ) : List (ℕ × Option (BitVec 8)) :=
  (elementsFrom first last).flatMap fun i ↦
    if c.state.laneActive operation.masked i then
      c.byteWrites operation group target i (operation.elementWidthBits / 8)
    else []

/-- Element `i` as it is in RAM. -/
def Cpu.ramElement (b : Bus) (i : ℕ) : BitVec 64 :=
  composeBytes (fun j ↦ (b.ramByte (target (c.byteAddress operation i j)).toNat).getD 0#8)
    (operation.elementWidthBits / 8)

end Bytes

section Writes

variable {c : Cpu} {operation : VectorMemoryOperation} {group : VectorRegisterGroup}
  {target : BitVec 64 → BitVec 64} {i j : ℕ}

theorem byteWrites_succ :
    c.byteWrites operation group target i (j + 1) =
      c.byteWrites operation group target i j ++
        (c.byteAccess operation group i j).writes (target (c.byteAddress operation i j)) := by
  rw [Cpu.byteWrites, List.range_succ, List.flatMap_append, List.flatMap_singleton]
  rfl

theorem elementWrites_append {first last : ℕ} (h : first ≤ i) (h' : i ≤ last) :
    c.elementWrites operation group target first last =
      c.elementWrites operation group target first i ++
        c.elementWrites operation group target i last := by
  rw [Cpu.elementWrites, elementsFrom_split h h', List.flatMap_append]
  rfl

theorem elementWrites_self : c.elementWrites operation group target i i = [] := by
  rw [Cpu.elementWrites, elementsFrom, Nat.sub_self]
  rfl

theorem elementWrites_one :
    c.elementWrites operation group target i (i + 1) =
      if c.state.laneActive operation.masked i then
        c.byteWrites operation group target i (operation.elementWidthBits / 8)
      else [] := by
  rw [Cpu.elementWrites, elementsFrom, Nat.add_sub_cancel_left, List.range'_one,
    List.flatMap_singleton]

theorem kind_byteAccess : (c.byteAccess operation group i j).kind = operation.kind := by
  rw [ScalarAccess.kind, Cpu.byteAccess, VectorMemoryOperation.kind]
  cases operation.load <;> rfl

/-- The bytes of the element that comes next are the first to be written. -/
theorem byteWrites_isPrefix {k last n : ℕ} (hk : k < last)
    (hactive : c.state.laneActive operation.masked k = true)
    (hn : n ≤ operation.elementWidthBits / 8) :
    c.byteWrites operation group target k n <+: c.elementWrites operation group target k last := by
  rw [elementWrites_append (Nat.le_succ k) hk, elementWrites_one, if_pos hactive]
  refine List.IsPrefix.trans ?_ (List.prefix_append _ _)
  obtain ⟨m, hm⟩ := Nat.exists_eq_add_of_le hn
  rw [Cpu.byteWrites, Cpu.byteWrites, hm, List.range_add, List.flatMap_append]
  exact List.prefix_append _ _

end Writes

/-! ## Accesses of RAM -/

/-- The bytes that are moved are bytes of RAM beside the page tables. -/
structure OnRam (tables : ℕ → Prop) (target : BitVec 64 → BitVec 64) (c : Cpu)
    (packet : InstructionPacket) (operation : VectorMemoryOperation) (group : VectorRegisterGroup) :
    Prop where
  inside : ¬c.dataContext.Bare → TablesIn tables c.bus c.root
  translated : ∀ i j, Moves c packet operation group i j →
    (c.translateByte operation group (c.beforeByte packet operation group i j) i j).1 =
      .ok (target (c.byteAddress operation i j))
  ram : ∀ i j, Moves c packet operation group i j →
    c.bus.InRam (target (c.byteAddress operation i j)).toNat 1
  apart : ∀ i j, Moves c packet operation group i j →
    ¬tables (target (c.byteAddress operation i j)).toNat

/-- The RAM beside the tables after a sequence of writes. -/
structure Wrote (tables : ℕ → Prop) (b b' : Bus) (l : List (ℕ × Option (BitVec 8))) : Prop where
  beside : BesideTables tables b b'
  ram : ∀ x, ¬tables x → b'.ramByte x = Writes.apply b.ramByte l x

namespace Wrote

variable {tables : ℕ → Prop} {b b' b'' : Bus} {l l' : List (ℕ × Option (BitVec 8))}

theorem refl (tables : ℕ → Prop) (b : Bus) : Wrote tables b b [] :=
  ⟨BesideTables.refl _ _, fun _ _ ↦ rfl⟩

theorem append (h : Wrote tables b b' l) (h' : Wrote tables b' b'' l') :
    Wrote tables b b'' (l ++ l') := by
  refine ⟨h.beside.trans h'.beside, fun x hx ↦ ?_⟩
  rw [h'.ram x hx, Writes.apply_append]
  exact Writes.apply_congr (h.ram x hx) l'

end Wrote

section Runs

variable {tables : ℕ → Prop} {target : BitVec 64 → BitVec 64} {c : Cpu} {packet : InstructionPacket}
  {operation : VectorMemoryOperation} {group : VectorRegisterGroup} {i j : ℕ} {s : CpuState}

/-- The registers along the way do not change how addresses are translated. -/
theorem Along.sameAccess (h : Along c packet operation group i s) {d : Cpu} (hd : d.state = s) :
    d.dataContext.SameAccess c.dataContext := by
  have hprivilege : s.privilege = c.state.privilege := by
    cases hload : operation.load with
    | true => rw [(h.filled hload).others]
    | false => rw [h.kept hload]
  subst hd
  rcases h.csrs with hcsrs | hcsrs
  · exact sameAccess_dataContext hprivilege (by rw [hcsrs]) fun i _ _ ↦ by rw [hcsrs]
  · refine sameAccess_dataContext hprivilege ?_ fun i hi hi' ↦ ?_
    · rw [hcsrs, CsrFile.markVectorStateDirty_eq]
    · rw [hcsrs, CsrFile.getLsbD_mstatus_markVectorStateDirty _ (by omega),
        decide_eq_false (by omega), decide_eq_false (by omega), Bool.or_self, Bool.and_false,
        Bool.or_false]

/-- The page tables stay where they are. -/
theorem inside_along (h : Along c packet operation group i s) {d : Cpu} (hd : d.state = s)
    (hin : ¬c.dataContext.Bare → TablesIn tables c.bus c.root)
    (hbeside : BesideTables tables c.bus d.bus) (hbare : ¬d.dataContext.Bare) :
    TablesIn tables d.bus d.root := by
  have hsame := h.sameAccess hd
  have hroot : d.root = c.root := congrArg satpRootPpn hsame.satp
  rw [hroot]
  exact hbeside.tablesIn (hin (mt hsame.bare_iff.2 hbare))

theorem beforeByte_succ (h : (c.visitBytes packet operation group i j).1 = none) :
    c.beforeByte packet operation group i (j + 1) =
      ((c.byteAccess operation group i j).run (c.beforeByte packet operation group i j) packet).2 :=
  congrArg Prod.snd (visitBytes_succ h)

/-- The bytes of an element that is complete were moved. -/
theorem moves_of_visitBytes {n : ℕ} (hn : n ≤ operation.elementWidthBits / 8)
    (hstart : c.state.csrs.vstart.toNat ≤ i) (hi : i < (c.state.csrs.readValue .vl).toNat)
    (hactive : c.state.laneActive operation.masked i = true)
    (helements : (c.visitElements packet operation group i).1 = none)
    (hbytes : (c.visitBytes packet operation group i n).1 = none) (hj : j < n) :
    Moves c packet operation group i j :=
  ⟨⟨hstart, hi, hactive, helements, by omega,
    forElements_before (Nat.zero_le _) (Nat.le_of_lt hj) hbytes⟩,
    forElements_before (Nat.zero_le _) hj hbytes⟩

namespace OnRam

variable (h : OnRam tables target c packet operation group)

include h

theorem reaches (hm : Moves c packet operation group i j)
    (hbeside : BesideTables tables c.bus (c.beforeByte packet operation group i j).bus) :
    (c.byteAccess operation group i j).Reaches (c.beforeByte packet operation group i j) packet
      (target (c.byteAddress operation i j)) :=
  ScalarAccess.reaches_of_ram rfl (h.translated i j hm) (hbeside.ram _ _ (h.ram i j hm))

theorem insideByte (halong : Along c packet operation group i
      (c.beforeElement packet operation group i).state)
    (hbeside : BesideTables tables c.bus (c.beforeByte packet operation group i j).bus)
    (hbare : ¬(c.beforeByte packet operation group i j).dataContext.Bare) :
    TablesIn tables (c.beforeByte packet operation group i j).bus
      (c.beforeByte packet operation group i j).root :=
  inside_along halong visitBytes_state h.inside hbeside hbare

/-- One byte. -/
theorem wrote_byte (halong : Along c packet operation group i
      (c.beforeElement packet operation group i).state)
    (hm : Moves c packet operation group i j)
    (hbeside : BesideTables tables c.bus (c.beforeByte packet operation group i j).bus) :
    Wrote tables (c.beforeByte packet operation group i j).bus
      (c.beforeByte packet operation group i (j + 1)).bus
      ((c.byteAccess operation group i j).writes (target (c.byteAddress operation i j))) := by
  have hreaches := h.reaches hm hbeside
  rw [beforeByte_succ hm.bytes]
  exact ⟨hreaches.besideTables (h.apart i j hm),
    fun x hx ↦ hreaches.ramByte_eq (h.insideByte halong hbeside) hx⟩

/-- The bytes of an element. -/
theorem wrote_bytes (halong : Along c packet operation group i
      (c.beforeElement packet operation group i).state)
    (hbeside : BesideTables tables c.bus (c.beforeElement packet operation group i).bus) {n : ℕ}
    (hmoves : ∀ j < n, Moves c packet operation group i j) :
    Wrote tables (c.beforeElement packet operation group i).bus
      (c.beforeByte packet operation group i n).bus
      (c.byteWrites operation group target i n) := by
  induction n with
  | zero => exact Wrote.refl _ _
  | succ n ih =>
    have hsofar := ih fun j hj ↦ hmoves j (Nat.lt_succ_of_lt hj)
    rw [byteWrites_succ]
    exact hsofar.append (h.wrote_byte halong (hmoves n (Nat.lt_succ_self n))
      (hbeside.trans hsofar.beside))

/-- **The elements before `i`.** -/
theorem wrote_elements (hg : MemoryGroup c operation group)
    (hstart : c.state.csrs.vstart.toNat ≤ i) (hi : i ≤ (c.state.csrs.readValue .vl).toNat)
    (hnone : (c.visitElements packet operation group i).1 = none) :
    Wrote tables c.bus (c.beforeElement packet operation group i).bus
      (c.elementWrites operation group target c.state.csrs.vstart.toNat i) := by
  obtain ⟨n, rfl⟩ := Nat.exists_eq_add_of_le hstart
  clear hstart
  induction n with
  | zero =>
    rw [Nat.add_zero, Cpu.beforeElement, visitElements_start, elementWrites_self]
    exact Wrote.refl _ _
  | succ n ih =>
    have hle : c.state.csrs.vstart.toNat ≤ c.state.csrs.vstart.toNat + n := Nat.le_add_right _ n
    have hbefore := visitElements_before hle (Nat.add_le_add_left (Nat.le_succ n) _) hnone
    have halong := along_beforeElement hg hle (by omega) hbefore
    have hsofar := ih (by omega) hbefore
    rw [← Nat.add_assoc, elementWrites_append hle (Nat.le_succ _), elementWrites_one]
    rcases visitElements_cases halong hg hle (by omega) hbefore with
      ⟨hoff, s, hs, -⟩ | ⟨hactive, ⟨hbytes, s, hs, -⟩ | ⟨trap, -, hs⟩⟩
    · rw [Cpu.beforeElement, hs, hoff, if_neg Bool.false_ne_true, List.append_nil]
      exact hsofar
    · rw [Cpu.beforeElement, hs, hactive, if_pos rfl]
      refine hsofar.append (h.wrote_bytes halong hsofar.beside fun j hj ↦ ?_)
      exact moves_of_visitBytes (Nat.le_refl _) hle (by omega) hactive hbefore hbytes hj
    · rw [← Nat.add_assoc, hs] at hnone
      cases hnone

/-- The bytes before byte `n` of element `i`. -/
theorem wrote_before (hg : MemoryGroup c operation group) {n : ℕ}
    (hv : Visits c packet operation group i n) :
    Wrote tables c.bus (c.beforeByte packet operation group i n).bus
      (c.elementWrites operation group target c.state.csrs.vstart.toNat i ++
        c.byteWrites operation group target i n) := by
  have halong := along_beforeElement hg hv.start (Nat.le_of_lt hv.length) hv.elements
  have hsofar := h.wrote_elements hg hv.start (Nat.le_of_lt hv.length) hv.elements
  refine hsofar.append (h.wrote_bytes halong hsofar.beside fun j hj ↦ ?_)
  exact moves_of_visitBytes (Nat.le_of_lt hv.width) hv.start hv.length hv.active
    hv.elements hv.bytes
    hj

end OnRam

/-! ## Loads -/

theorem writes_of_load (hload : operation.load = true) (pa : BitVec 64) :
    (c.byteAccess operation group i j).writes pa = [] := by
  rw [ScalarAccess.writes, Cpu.byteAccess, hload]
  rfl

theorem byteWrites_of_load (hload : operation.load = true) (n : ℕ) :
    c.byteWrites operation group target i n = [] := by
  rw [Cpu.byteWrites, List.flatMap_eq_nil_iff]
  exact fun j _ ↦ writes_of_load hload _

theorem elementWrites_of_load (hload : operation.load = true) (first last : ℕ) :
    c.elementWrites operation group target first last = [] := by
  rw [Cpu.elementWrites, List.flatMap_eq_nil_iff]
  intro i _
  rw [byteWrites_of_load hload, ite_self]

theorem and_mask_eq_setWidth (v : BitVec 64) : v &&& 0xFF#64 = (splitByte v 0).setWidth 64 := by
  rw [splitByte, Nat.zero_mul, BitVec.ushiftRight_zero]
  refine BitVec.eq_of_getLsbD_eq fun i hi ↦ ?_
  have hmask : ∀ i < 64, (0xFF#64).getLsbD i = decide (i < 8) := by decide
  rw [BitVec.getLsbD_and, hmask i hi, BitVec.getLsbD_setWidth, BitVec.getLsbD_setWidth,
    decide_eq_true hi, Bool.true_and, Bool.and_comm]

/-- **What a load composes** is the element as it was in RAM in front of the access. -/
theorem OnRam.loadedValue_eq (h : OnRam tables target c packet operation group)
    (hg : MemoryGroup c operation group) (hload : operation.load = true)
    (hstart : c.state.csrs.vstart.toNat ≤ i) (hi : i < (c.state.csrs.readValue .vl).toNat)
    (hactive : c.state.laneActive operation.masked i = true)
    (helements : (c.visitElements packet operation group i).1 = none)
    (hbytes : (c.visitBytes packet operation group i (operation.elementWidthBits / 8)).1 = none) :
    c.loadedValue packet operation group i = c.ramElement operation target c.bus i := by
  have halong := along_beforeElement hg hstart (Nat.le_of_lt hi) helements
  have hall : ∀ n ≤ operation.elementWidthBits / 8,
      (Cpu.loadBytes packet (c.elementAddress operation i) n
        (c.beforeElement packet operation group i)).2.1 =
      composeBytes
        (fun j ↦ (c.bus.ramByte (target (c.byteAddress operation i j)).toNat).getD 0#8) n := by
    intro n hn
    induction n with
    | zero => rfl
    | succ n ih =>
      have hm : Moves c packet operation group i n :=
        moves_of_visitBytes (Nat.le_refl _) hstart hi hactive helements hbytes hn
      have hwrote := h.wrote_before hg hm.toVisits
      rw [elementWrites_of_load hload, byteWrites_of_load hload, List.nil_append] at hwrote
      have hreaches := h.reaches hm hwrote.beside
      have hbyte := hreaches.loaded_eq (by rw [Cpu.byteAccess, hload]; rfl)
        (h.insideByte halong hwrote.beside) (h.apart i n hm)
      rw [hwrote.ram _ (h.apart i n hm)] at hbyte
      have hprevious := hm.bytes
      rw [loadBytes_eq hload] at hprevious
      have hbefore : (Cpu.loadBytes packet (c.elementAddress operation i) n
          (c.beforeElement packet operation group i)).2.2 =
          c.beforeByte packet operation group i n := by
        rw [Cpu.beforeByte, loadBytes_eq hload]
      have hsucc : Cpu.loadBytes packet (c.elementAddress operation i) (n + 1)
          (c.beforeElement packet operation group i) = _ :=
        forElements_succ (Nat.zero_le n) hprevious
      have hrun : (c.byteAccess operation group i n).run (c.beforeByte packet operation group i n)
          packet = (c.beforeByte packet operation group i n).guestRead packet
            (c.elementAddress operation i + BitVec.ofNat 64 n) .byte .load .load := by
        rw [ScalarAccess.run, Cpu.byteAccess, hload]
        rfl
      rw [hrun] at hbyte
      rw [hsucc]
      show (Cpu.loadBytes packet (c.elementAddress operation i) n
          (c.beforeElement packet operation group i)).2.1 |||
        (((Cpu.loadBytes packet (c.elementAddress operation i) n
          (c.beforeElement packet operation group i)).2.2.guestRead packet
            (c.elementAddress operation i + BitVec.ofNat 64 n) .byte .load .load).1.access.value &&&
              0xFF#64) <<< (n * 8) = _
      rw [hbefore, ih (by omega), composeBytes, and_mask_eq_setWidth]
      have hvalue : c.bus.ramByte (target (c.byteAddress operation i n)).toNat = _ := hbyte
      rw [hvalue, Option.getD_some]
  exact hall _ (Nat.le_refl _)

/-! ## Accesses that retire -/

theorem MmuContext.SameAccess.symm {context context' : MmuContext}
    (h : context.SameAccess context') :
    context'.SameAccess context :=
  ⟨h.privilege.symm, h.satp.symm, fun flags kind ↦ (h.permission flags kind).symm⟩

theorem MmuContext.SameAccess.trans {context context' context'' : MmuContext}
    (h : context.SameAccess context') (h' : context'.SameAccess context'') :
    context.SameAccess context'' :=
  ⟨h.privilege.trans h'.privilege, h.satp.trans h'.satp,
    fun flags kind ↦ (h.permission flags kind).trans (h'.permission flags kind)⟩

/-- The bytes of an element that is mapped. -/
theorem maps_beforeByte
    (h : (c.beforeElement packet operation group i).Maps tables operation.kind target
      (c.accessed operation))
    (hstart : c.state.csrs.vstart.toNat ≤ i) (hi : i < (c.state.csrs.readValue .vl).toNat)
    (hactive : c.state.laneActive operation.masked i = true) {n : ℕ}
    (hn : n ≤ operation.elementWidthBits / 8) :
    (c.visitBytes packet operation group i n).1 = none ∧
      (c.beforeByte packet operation group i n).Maps tables operation.kind target
        (c.accessed operation) := by
  induction n with
  | zero => exact ⟨rfl, h⟩
  | succ n ih =>
    obtain ⟨hbytes, hmaps⟩ := ih (by omega)
    have hva : c.accessed operation (c.byteAccess operation group i n).address :=
      ⟨i, n, ⟨hstart, hi, hactive, hn⟩, rfl⟩
    obtain ⟨hreaches, hnext⟩ := hmaps.reaches rfl kind_byteAccess hva packet
    rw [beforeByte_succ hbytes, visitBytes_succ hbytes]
    exact ⟨hreaches.trap, hnext⟩

/-- **Page tables that map all bytes** let every element pass. -/
theorem maps_beforeElement (h : c.Maps tables operation.kind target (c.accessed operation))
    (hg : MemoryGroup c operation group) (hstart : c.state.csrs.vstart.toNat ≤ i)
    (hi : i ≤ (c.state.csrs.readValue .vl).toNat) :
    (c.visitElements packet operation group i).1 = none ∧
      (c.beforeElement packet operation group i).Maps tables operation.kind target
        (c.accessed operation) := by
  obtain ⟨n, rfl⟩ := Nat.exists_eq_add_of_le hstart
  clear hstart
  induction n with
  | zero =>
    rw [Nat.add_zero, Cpu.beforeElement, visitElements_start]
    exact ⟨rfl, h⟩
  | succ n ih =>
    have hle : c.state.csrs.vstart.toNat ≤ c.state.csrs.vstart.toNat + n := Nat.le_add_right _ n
    obtain ⟨hbefore, hmaps⟩ := ih (by omega)
    have halong := along_beforeElement hg hle (by omega) hbefore
    rw [← Nat.add_assoc, Cpu.beforeElement]
    rcases visitElements_cases halong hg hle (by omega) hbefore with
      ⟨-, s, hs, hnext⟩ | ⟨hactive, hcases⟩
    · rw [hs]
      refine ⟨rfl, hmaps.of_sameAccess rfl rfl ?_⟩
      exact (hnext.sameAccess rfl).trans (halong.sameAccess rfl).symm
    · obtain ⟨hbytes, hmaps'⟩ := maps_beforeByte hmaps hle (by omega) hactive (Nat.le_refl _)
      rcases hcases with ⟨-, s, hs, hnext⟩ | ⟨trap, htrap, -⟩
      · rw [hs]
        refine ⟨rfl, hmaps'.of_sameAccess rfl rfl ?_⟩
        exact (hnext.sameAccess rfl).trans (halong.sameAccess visitBytes_state).symm
      · rw [hbytes] at htrap
        cases htrap

theorem onRam_of_maps (h : c.Maps tables operation.kind target (c.accessed operation))
    (hg : MemoryGroup c operation group) : OnRam tables target c packet operation group := by
  have haccessed : ∀ i j, Moves c packet operation group i j →
      c.accessed operation (c.byteAddress operation i j) :=
    fun i j hm ↦ ⟨i, j, ⟨hm.start, hm.length, hm.active, hm.width⟩, rfl⟩
  refine ⟨h.inside, fun i j hm ↦ ?_, fun i j hm ↦ h.ram _ (haccessed i j hm),
    fun i j hm ↦ h.apart _ (haccessed i j hm)⟩
  have hmaps : (c.beforeElement packet operation group i).Maps tables operation.kind target
      (c.accessed operation) := (maps_beforeElement h hg hm.start (Nat.le_of_lt hm.length)).2
  have hbyte := (maps_beforeByte hmaps hm.start hm.length hm.active (Nat.le_of_lt hm.width)).2
  rw [Cpu.translateByte, kind_byteAccess]
  exact hbyte.translate_eq (haccessed i j hm) .byte

/-- The end of an access, all of whose elements have passed. -/
structure Finishes (c : Cpu) (packet : InstructionPacket) (operation : VectorMemoryOperation)
    (group : VectorRegisterGroup) (r : StepResult × Cpu) : Prop where
  retired : r.1.retired = true
  trap : r.1.trap = none
  bus : r.2.bus = (c.beforeElement packet operation group (c.state.csrs.readValue .vl).toNat).bus
  filled : operation.load = true →
    r.2.state.vectorState.byte =
      fill c.state.vectorState.byte group.offset group.widthBytes
        (c.loadElementAt packet operation group) c.state.csrs.vstart.toNat
        (if tailAgnostic (c.state.csrs.readValue .vtype) then c.configuration.vlmax
          else (c.state.csrs.readValue .vl).toNat)

theorem finishes_finishVector {sequentialPc : BitVec 64} {r : Option Trap × Cpu}
    (hnone : r.1 = none)
    (hbus : r.2.bus =
      (c.beforeElement packet operation group (c.state.csrs.readValue .vl).toNat).bus)
    (hfilled : operation.load = true →
      Filled c.state group (c.loadElementAt packet operation group) c.state.csrs.vstart.toNat
        (if tailAgnostic (c.state.csrs.readValue .vtype) then c.configuration.vlmax
          else (c.state.csrs.readValue .vl).toNat) r.2.state) :
    Finishes c packet operation group (Cpu.finishVector packet sequentialPc r) := by
  obtain ⟨exit, d⟩ := r
  obtain rfl : exit = none := hnone
  exact ⟨rfl, rfl, hbus, fun hload ↦ (hfilled hload).bytes⟩

theorem finishes_of_visitElements {sequentialPc : BitVec 64}
    (hvs : c.state.csrs.vectorStateEnabled = true) (hgroup : c.memoryGroup operation = some group)
    (hlt : c.state.csrs.vstart.toNat < (c.state.csrs.readValue .vl).toNat)
    (hnone : (c.visitElements packet operation group (c.state.csrs.readValue .vl).toNat).1 = none) :
    Finishes c packet operation group (c.executeVectorMemory packet operation sequentialPc) := by
  have hg := memoryGroup_eq_some hgroup
  have halong := along_beforeElement hg (Nat.le_of_lt hlt) (Nat.le_refl _) hnone
  rw [executeVectorMemory_of_group hvs hgroup, runElements, if_pos hlt]
  dsimp only
  rw [← Cpu.visitElements, hnone]
  split
  · next hkeep =>
    rw [Option.isSome_none, Bool.false_or, Bool.not_eq_true'] at hkeep
    refine finishes_finishVector hnone rfl fun hload ↦ ?_
    rw [hload, Bool.true_and] at hkeep
    rw [hkeep, if_neg Bool.false_ne_true]
    exact halong.filled hload
  · next htail =>
    rw [Option.isSome_none, Bool.false_or, Bool.not_eq_true', Bool.not_eq_false,
      Bool.and_eq_true] at htail
    have hstep : ∀ i (d : Cpu), (c.state.csrs.readValue .vl).toNat ≤ i → i < c.configuration.vlmax →
        d.bus = (c.beforeElement packet operation group (c.state.csrs.readValue .vl).toNat).bus ∧
          Filled c.state group (c.loadElementAt packet operation group) c.state.csrs.vstart.toNat i
            d.state →
        (d.onState (d.state.putElement packet group
          (agnosticValue operation.elementWidthBits) i)).1 =
            none ∧
          (d.onState
              (d.state.putElement packet group
                (agnosticValue operation.elementWidthBits) i)).2.bus =
              (c.beforeElement packet operation group (c.state.csrs.readValue .vl).toNat).bus ∧
            Filled c.state group (c.loadElementAt packet operation group) c.state.csrs.vstart.toNat
              (i + 1)
              (d.onState (d.state.putElement packet group
                (agnosticValue operation.elementWidthBits) i)).2.state := by
      rintro i d hi hi' ⟨hbus, hfilled⟩
      have hvalue : c.loadElementAt packet operation group i =
          agnosticValue operation.elementWidthBits := by
        rw [Cpu.loadElementAt, if_pos hi]
      rw [← hvalue]
      obtain ⟨hput, hnext⟩ := hfilled.put hg.fits (by omega) (by rw [hg.vlmax]; exact hi') packet
      exact ⟨hput, hbus, hnext⟩
    obtain ⟨hend, hbus, hfilled⟩ := forElements_range hg.length hstep ⟨rfl, halong.filled htail.1⟩
    refine finishes_finishVector hend hbus fun _ ↦ ?_
    rw [htail.2, if_pos rfl]
    exact hfilled

end Runs

end Rvemu
