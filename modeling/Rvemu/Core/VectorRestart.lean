import Rvemu.Core.VectorRuns

/-!
# Vector accesses that are taken up again

A vector access that traps leaves the element it stopped at in `vstart`.  Under page tables that map
the rest of its bytes, and the bytes it has moved already where they were, it is taken up there and
ends as it would have ended without the trap.
-/

set_option autoImplicit false

namespace Rvemu

open Mmu Bytes Packed

/-! ## The operands in front of the elements -/

/-- The registers of a hart under other page tables. -/
def Remapped (c d : Cpu) : Prop :=
  d.state = { c.state with csrs := { c.state.csrs with satp := d.state.csrs.satp } }

/-- What a vector access reads in front of its elements. -/
structure SameOperands (c d : Cpu) : Prop where
  integer : ∀ register, d.state.integer register = c.state.integer register
  length : d.state.csrs.readValue .vl = c.state.csrs.readValue .vl
  vtype : d.state.csrs.readValue .vtype = c.state.csrs.readValue .vtype
  enabled : d.state.csrs.vectorStateEnabled = c.state.csrs.vectorStateEnabled

theorem Remapped.sameOperands {c d : Cpu} (h : Remapped c d) : SameOperands c d := by
  rw [Remapped] at h
  refine ⟨fun r ↦ ?_, ?_, ?_, ?_⟩ <;> rw [h] <;> rfl

namespace SameOperands

variable {c d e : Cpu} {operation : VectorMemoryOperation}

theorem trans (h : SameOperands c d) (h' : SameOperands d e) : SameOperands c e :=
  ⟨fun r ↦ (h'.integer r).trans (h.integer r), h'.length.trans h.length, h'.vtype.trans h.vtype,
    h'.enabled.trans h.enabled⟩

variable (h : SameOperands c d)

include h

theorem configuration_eq : d.configuration = c.configuration :=
  congrArg decodeVectorConfiguration h.vtype

theorem memoryGroup_eq : d.memoryGroup operation = c.memoryGroup operation := by
  rw [Cpu.memoryGroup, Cpu.memoryGroup, h.length, h.vtype]

theorem byteAddress_eq (i j : ℕ) : d.byteAddress operation i j = c.byteAddress operation i j := by
  rw [Cpu.byteAddress, Cpu.byteAddress, Cpu.elementAddress, Cpu.elementAddress, Cpu.memoryStride,
    Cpu.memoryStride, h.integer, h.integer]

end SameOperands

/-! ## The hart that has trapped -/

section Stopped

variable {c : Cpu} {packet : InstructionPacket} {operation : VectorMemoryOperation}
  {group : VectorRegisterGroup} {i j k : ℕ} {trap : Trap}

theorem TrapsAt.sameOperands (h : TrapsAt c packet operation group k j trap)
    (hg : MemoryGroup c operation group) :
    SameOperands c (Cpu.trapAtElement k trap (c.beforeByte packet operation group k
      (j + 1))).2 := by
  have halong := along_beforeElement hg h.start (Nat.le_of_lt h.length) h.elements
  rw [← visitBytes_state (j := j + 1)] at halong
  generalize c.beforeByte packet operation group k (j + 1) = d at halong
  have hinteger : ∀ r, d.state.integer r = c.state.integer r := by
    intro r
    cases hload : operation.load with
    | true => exact (halong.filled hload).integer_eq r
    | false => rw [halong.kept hload]
  have hcsrs : ∃ mstatus, d.state.csrs = { c.state.csrs with mstatus } ∧
      d.state.csrs.vectorStateEnabled = c.state.csrs.vectorStateEnabled := by
    rcases halong.csrs with hsame | hsame
    · exact ⟨c.state.csrs.mstatus, hsame, by rw [hsame]⟩
    · refine ⟨c.state.csrs.markVectorStateDirty.mstatus, ?_, ?_⟩
      · rw [hsame]
        exact CsrFile.markVectorStateDirty_eq _
      · rw [hsame, CsrFile.vectorStateEnabled_markVectorStateDirty]
  obtain ⟨mstatus, hcsrs, henabled⟩ := hcsrs
  have hafter : (Cpu.trapAtElement k trap d).2.state.csrs =
      d.state.csrs.setVectorStartForTrap (BitVec.ofNat 64 k) := rfl
  have hlength : (d.state.csrs.setVectorStartForTrap (BitVec.ofNat 64 k)).readValue .vl =
      c.state.csrs.readValue .vl := by
    rw [CsrFile.setVectorStartForTrap, CsrFile.markVectorStateDirty_eq, hcsrs]
    rfl
  have hvtype : (d.state.csrs.setVectorStartForTrap (BitVec.ofNat 64 k)).readValue .vtype =
      c.state.csrs.readValue .vtype := by
    rw [CsrFile.setVectorStartForTrap, CsrFile.markVectorStateDirty_eq, hcsrs]
    rfl
  refine ⟨hinteger, hlength, hvtype, ?_⟩
  rw [hafter, CsrFile.vectorStateEnabled_setVectorStartForTrap, henabled]

theorem TrapsAt.vectorState_eq :
    (Cpu.trapAtElement k trap (c.beforeByte packet operation group k (j + 1))).2.state.vectorState =
      (c.beforeElement packet operation group k).state.vectorState := by
  show (c.beforeByte packet operation group k (j + 1)).state.vectorState = _
  rw [visitBytes_state]

/-- The elements in front of the one that traps are complete. -/
theorem visitBytes_of_visitElements (hg : MemoryGroup c operation group)
    (hstart : c.state.csrs.vstart.toNat ≤ i) (hi : i < k)
    (hk : k ≤ (c.state.csrs.readValue .vl).toNat)
    (hactive : c.state.laneActive operation.masked i = true)
    (hnone : (c.visitElements packet operation group k).1 = none) :
    (c.visitElements packet operation group i).1 = none ∧
      (c.visitBytes packet operation group i (operation.elementWidthBits / 8)).1 = none := by
  have hbefore := visitElements_before hstart (Nat.le_of_lt hi) hnone
  have hnext := visitElements_before (Nat.le_succ_of_le hstart) hi hnone
  have halong := along_beforeElement hg hstart (by omega) hbefore
  refine ⟨hbefore, ?_⟩
  rcases visitElements_cases halong hg hstart (by omega) hbefore with
    ⟨hoff, -⟩ | ⟨-, ⟨hbytes, -⟩ | ⟨t, -, ht⟩⟩
  · rw [hactive] at hoff
    cases hoff
  · exact hbytes
  · rw [ht] at hnext
    cases hnext

/-- What a load has brought into the elements in front of the one that traps. -/
def Cpu.transferred (c : Cpu) (operation : VectorMemoryOperation) (group : VectorRegisterGroup)
    (target : BitVec 64 → BitVec 64) (i : ℕ) : BitVec 64 :=
  if c.state.laneActive operation.masked i then c.ramElement operation target c.bus i
  else if maskAgnostic (c.state.csrs.readValue .vtype) then agnosticValue operation.elementWidthBits
  else c.elementValue group i

variable {tables : ℕ → Prop} {target : BitVec 64 → BitVec 64}

/-- An element in front of `vl`, in terms of RAM. -/
theorem OnRam.loadElementAt_eq (h : OnRam tables target c packet operation group)
    (hg : MemoryGroup c operation group) (hload : operation.load = true)
    (hk : k ≤ (c.state.csrs.readValue .vl).toNat)
    (hnone : (c.visitElements packet operation group k).1 = none)
    (hstart : c.state.csrs.vstart.toNat ≤ i) (hi : i < k) :
    c.loadElementAt packet operation group i = c.transferred operation group target i := by
  rw [Cpu.loadElementAt, Cpu.transferred, if_neg (by omega)]
  cases hactive : c.state.laneActive operation.masked i with
  | false =>
    rw [if_pos (maskedOff_iff.2 hactive), if_neg Bool.false_ne_true]
  | true =>
    have hon : ¬(operation.masked && !c.state.vectorState.maskBit i) = true := by
      rw [maskedOff_iff, hactive]
      decide
    obtain ⟨helements, hbytes⟩ := visitBytes_of_visitElements hg hstart hi hk hactive hnone
    rw [if_neg hon, if_pos rfl]
    exact h.loadedValue_eq hg hload hstart (by omega) hactive helements hbytes

/-- The registers of a load that has trapped. -/
theorem OnRam.filled_of_trapsAt (h : OnRam tables target c packet operation group)
    (hg : MemoryGroup c operation group) (hload : operation.load = true)
    (hat : TrapsAt c packet operation group k j trap) :
    (Cpu.trapAtElement k trap (c.beforeByte packet operation group k
      (j + 1))).2.state.vectorState.byte =
      fill c.state.vectorState.byte group.offset group.widthBytes
        (c.transferred operation group target) c.state.csrs.vstart.toNat k := by
  have halong := along_beforeElement hg hat.start (Nat.le_of_lt hat.length) hat.elements
  rw [TrapsAt.vectorState_eq, (halong.filled hload).bytes]
  refine fill_congr _ _ _ fun i hi hi' ↦ ?_
  exact h.loadElementAt_eq hg hload (Nat.le_of_lt hat.length) hat.elements hi hi'

end Stopped

/-! ## Loads -/

section Loads

variable {tables : ℕ → Prop} {target : BitVec 64 → BitVec 64} {c d : Cpu}
  {packet : InstructionPacket} {operation : VectorMemoryOperation} {group : VectorRegisterGroup}
  {sequentialPc : BitVec 64}

/-- An element of the destination of a load: in front of `vl` what is transferred, behind it
ones. -/
def Cpu.finalElement (c : Cpu) (operation : VectorMemoryOperation) (group : VectorRegisterGroup)
    (target : BitVec 64 → BitVec 64) (i : ℕ) : BitVec 64 :=
  if (c.state.csrs.readValue .vl).toNat ≤ i then agnosticValue operation.elementWidthBits
  else c.transferred operation group target i

/-- How far the destination of a load is written. -/
def Cpu.writtenLength (c : Cpu) : ℕ :=
  if tailAgnostic (c.state.csrs.readValue .vtype) then c.configuration.vlmax
  else (c.state.csrs.readValue .vl).toNat

/-- **A load that is mapped**: it retires, and its destination is filled from RAM. -/
theorem maps_load (h : c.Maps tables operation.kind target (c.accessed operation))
    (hvs : c.state.csrs.vectorStateEnabled = true) (hgroup : c.memoryGroup operation = some group)
    (hload : operation.load = true)
    (hlt : c.state.csrs.vstart.toNat < (c.state.csrs.readValue .vl).toNat) :
    Finishes c packet operation group (c.executeVectorMemory packet operation sequentialPc) ∧
      (c.executeVectorMemory packet operation sequentialPc).2.state.vectorState.byte =
        fill c.state.vectorState.byte group.offset group.widthBytes
          (c.finalElement operation group target) c.state.csrs.vstart.toNat c.writtenLength := by
  have hg := memoryGroup_eq_some hgroup
  have hnone : (c.visitElements packet operation group
      (c.state.csrs.readValue .vl).toNat).1 = none :=
    (maps_beforeElement h hg (Nat.le_of_lt hlt) (Nat.le_refl _)).1
  have hfinishes : Finishes c packet operation group
      (c.executeVectorMemory packet operation sequentialPc) :=
    finishes_of_visitElements hvs hgroup hlt hnone
  refine ⟨hfinishes, (hfinishes.filled hload).trans (fill_congr _ _ _ fun i hi _ ↦ ?_)⟩
  rw [Cpu.finalElement]
  split
  · next hvl => rw [Cpu.loadElementAt, if_pos hvl]
  · next hvl =>
    exact (onRam_of_maps h hg).loadElementAt_eq hg hload (Nat.le_refl _) hnone hi (by omega)

/-- The mask is the same, unless the destination covers it. -/
theorem laneActive_of_fill {E : ℕ → BitVec 64} {off w first last i : ℕ} {masked : Bool}
    (h : d.state.vectorState.byte = fill c.state.vectorState.byte off w E first last)
    (hoff : masked = true → 32 ≤ off) (hi : i < 256) :
    d.state.laneActive masked i = c.state.laneActive masked i := by
  rw [CpuState.laneActive, CpuState.laneActive]
  cases masked with
  | false => rfl
  | true =>
    have hoff := hoff rfl
    rw [VectorState.maskBit, VectorState.maskBit, h, fill_eq_of_outside _ _ _ (Or.inl (by omega))]

/-- What is transferred depends on the operands, the mask, the element and its bytes in RAM. -/
theorem transferred_congr {i : ℕ} (h : SameOperands c d)
    (hactive : d.state.laneActive operation.masked i = c.state.laneActive operation.masked i)
    (hvalue : d.elementValue group i = c.elementValue group i)
    (hbytes : c.state.laneActive operation.masked i = true →
      ∀ j < operation.elementWidthBits / 8,
        d.bus.ramByte (target (c.byteAddress operation i j)).toNat =
          c.bus.ramByte (target (c.byteAddress operation i j)).toNat) :
    d.transferred operation group target i = c.transferred operation group target i := by
  rw [Cpu.transferred, Cpu.transferred, hactive, hvalue, h.vtype]
  split
  · next hon =>
    refine composeBytes_congr fun j hj ↦ ?_
    rw [h.byteAddress_eq, hbytes hon j hj]
  · rfl

/-- **A load that is taken up again.** -/
theorem restart_load {after b u : Cpu} {k : ℕ} (hg : MemoryGroup c operation group)
    (hload : operation.load = true) (hstart : c.state.csrs.vstart.toNat ≤ k)
    (hk : k < (c.state.csrs.readValue .vl).toNat)
    (hafter : after.state.vectorState.byte =
      fill c.state.vectorState.byte group.offset group.widthBytes
        (c.transferred operation group target) c.state.csrs.vstart.toNat k)
    (hb : SameOperands c b) (hbstate : b.state.vectorState = after.state.vectorState)
    (hu : SameOperands c u) (hustate : u.state.vectorState = c.state.vectorState)
    (hmoved : ∀ i j, c.state.csrs.vstart.toNat ≤ i → i < k →
      c.state.laneActive operation.masked i = true → j < operation.elementWidthBits / 8 →
        u.bus.ramByte (target (c.byteAddress operation i j)).toNat =
          c.bus.ramByte (target (c.byteAddress operation i j)).toNat)
    (hothers : ∀ i j, k ≤ i → i < (c.state.csrs.readValue .vl).toNat →
      c.state.laneActive operation.masked i = true → j < operation.elementWidthBits / 8 →
        b.bus.ramByte (target (c.byteAddress operation i j)).toNat =
          u.bus.ramByte (target (c.byteAddress operation i j)).toNat) :
    fill b.state.vectorState.byte group.offset group.widthBytes
      (b.finalElement operation group target)
        k b.writtenLength =
      fill u.state.vectorState.byte group.offset group.widthBytes
        (u.finalElement operation group target) c.state.csrs.vstart.toNat u.writtenLength := by
  have hlength := hg.length
  have hlength' := hg.length_le
  have hwritten : b.writtenLength = u.writtenLength := by
    rw [Cpu.writtenLength, Cpu.writtenLength, hb.vtype, hu.vtype, hb.configuration_eq,
      hu.configuration_eq, hb.length, hu.length]
  have hkL : k ≤ u.writtenLength := by
    rw [Cpu.writtenLength, hu.configuration_eq, hu.length]
    split <;> omega
  have hufill : u.state.vectorState.byte = fill c.state.vectorState.byte group.offset
      group.widthBytes
      (c.transferred operation group target) k k := by
    rw [hustate, fill_of_le _ _ _ (Nat.le_refl k)]
  have hbfill : b.state.vectorState.byte = fill u.state.vectorState.byte group.offset
      group.widthBytes (c.transferred operation group target) c.state.csrs.vstart.toNat k := by
    rw [hbstate, hafter, hustate]
  have hbu : SameOperands u b :=
    ⟨fun r ↦ (hb.integer r).trans (hu.integer r).symm, hb.length.trans hu.length.symm,
      hb.vtype.trans hu.vtype.symm, hb.enabled.trans hu.enabled.symm⟩
  have hfirst : ∀ i, c.state.csrs.vstart.toNat ≤ i → i < k →
      c.transferred operation group target i = u.finalElement operation group target i := by
    intro i hi hi'
    rw [Cpu.finalElement, if_neg (by rw [hu.length]; omega)]
    refine (transferred_congr hu ?_ ?_ fun hon j hj ↦ hmoved i j hi hi' hon hj).symm
    · exact laneActive_of_fill hufill (hg.offset_le hload) (by omega)
    · rw [Cpu.elementValue, Cpu.elementValue, hustate]
  have hsecond : ∀ i, k ≤ i → b.finalElement operation group target i =
      u.finalElement operation group target i := by
    intro i hi
    rw [Cpu.finalElement, Cpu.finalElement, hbu.length]
    split
    · rfl
    · next hvl =>
      rw [hu.length] at hvl
      have hactive := laneActive_of_fill (i := i) hufill (hg.offset_le hload) (by omega)
      refine transferred_congr hbu ?_ ?_ fun hon j hj ↦ ?_
      · exact laneActive_of_fill hbfill (hg.offset_le hload) (by omega)
      · rw [Cpu.elementValue, Cpu.elementValue, hbfill]
        exact element_fill_of_outside _ _ _ (Or.inr hi)
      · rw [hactive] at hon
        rw [hu.byteAddress_eq]
        exact hothers i j hi (by omega) hon hj
  calc fill b.state.vectorState.byte group.offset group.widthBytes
        (b.finalElement operation group target) k b.writtenLength
      = fill (fill u.state.vectorState.byte group.offset group.widthBytes
            (u.finalElement operation group target) c.state.csrs.vstart.toNat k)
          group.offset group.widthBytes (u.finalElement operation group target) k
            u.writtenLength := by
        rw [hwritten, fill_congr _ _ _ fun i hi _ ↦ hsecond i hi, hbfill,
          fill_congr _ _ _ hfirst]
    _ = fill u.state.vectorState.byte group.offset group.widthBytes
          (u.finalElement operation group target) c.state.csrs.vstart.toNat u.writtenLength :=
        fill_append _ _ _ hstart hkL

end Loads

/-! ## Stores -/

section Stores

variable {tables : ℕ → Prop} {target : BitVec 64 → BitVec 64} {c d : Cpu}
  {packet : InstructionPacket} {operation : VectorMemoryOperation} {group : VectorRegisterGroup}
  {sequentialPc : BitVec 64}

/-- A store writes the same with the same registers. -/
theorem elementWrites_congr (h : SameOperands c d)
    (hstate : d.state.vectorState = c.state.vectorState)
    (first last : ℕ) :
    d.elementWrites operation group target first last =
      c.elementWrites operation group target first last := by
  have haccess : ∀ i j, d.byteAccess operation group i j = c.byteAccess operation group i j := by
    intro i j
    have haddress : d.elementAddress operation i + BitVec.ofNat 64 j =
        c.elementAddress operation i + BitVec.ofNat 64 j := h.byteAddress_eq i j
    rw [Cpu.byteAccess, Cpu.byteAccess, haddress, Cpu.elementValue, Cpu.elementValue, hstate]
  have hbytes : ∀ i n, d.byteWrites operation group target i n =
      c.byteWrites operation group target i n := by
    intro i n
    rw [Cpu.byteWrites, Cpu.byteWrites]
    refine List.flatMap_congr fun j _ ↦ ?_
    rw [haccess, h.byteAddress_eq]
  rw [Cpu.elementWrites, Cpu.elementWrites]
  refine List.flatMap_congr fun i _ ↦ ?_
  rw [hbytes, CpuState.laneActive, CpuState.laneActive, hstate]

/-- The RAM after a store that has trapped. -/
theorem OnRam.ramByte_of_trapsAt {k j : ℕ} {trap : Trap}
    (h : OnRam tables target c packet operation group) (hg : MemoryGroup c operation group)
    (hstore : operation.load = false) (hat : TrapsAt c packet operation group k j trap) {x : ℕ}
    (hx : ¬tables x) :
    (c.beforeByte packet operation group k (j + 1)).bus.ramByte x =
      Writes.apply c.bus.ramByte
        (c.elementWrites operation group target c.state.csrs.vstart.toNat k ++
          c.byteWrites operation group target k j) x := by
  have halong := along_beforeElement hg hat.start (Nat.le_of_lt hat.length) hat.elements
  have hwrote := h.wrote_before hg hat.toVisits
  have htranslated : (c.translateByte operation group (c.beforeByte packet operation group k j) k
      j).2.2.ramByte x = (c.beforeByte packet operation group k j).bus.ramByte x :=
    ramByte_translate (h.insideByte halong hwrote.beside) _ _ _ hx
  have hbefore : c.beforeByte packet operation group k (j + 1) =
      (c.visitByte packet operation group k (c.beforeByte packet operation group k j) j).2 :=
    congrArg Prod.snd (visitBytes_succ hat.bytes)
  have hop : (c.byteAccess operation group k j).operation =
      writeOperation .byte (c.elementValue group k >>> (j * 8)) .store := by
    rw [ScalarAccess.operation, Cpu.byteAccess, hstore]
    rfl
  have hbyte := hat.byte
  rw [visitBytes_succ hat.bytes] at hbyte
  rw [hbefore, ← hwrote.ram x hx, ← htranslated]
  rcases visitByte_cases (c.beforeByte packet operation group k j) with
    ⟨t, -, hvisit⟩ | ⟨pa, -, hafter, ⟨hok, -⟩ | ⟨-, hnone⟩⟩
  · rw [hvisit]
  · rw [hop] at hafter hok
    rw [hafter]
    dsimp only [writeOperation] at hok ⊢
    rw [Bus.write_of_not_ok hok]
  · rw [hnone] at hbyte
    cases hbyte

/-- **A store that is mapped**: it retires, and of the RAM beside the tables it writes its
elements. -/
theorem maps_store (h : c.Maps tables operation.kind target (c.accessed operation))
    (hvs : c.state.csrs.vectorStateEnabled = true) (hgroup : c.memoryGroup operation = some group)
    (hlt : c.state.csrs.vstart.toNat < (c.state.csrs.readValue .vl).toNat) :
    Finishes c packet operation group (c.executeVectorMemory packet operation sequentialPc) ∧
      ∀ x, ¬tables x →
        (c.executeVectorMemory packet operation sequentialPc).2.bus.ramByte x =
          Writes.apply c.bus.ramByte
            (c.elementWrites operation group target c.state.csrs.vstart.toNat
              (c.state.csrs.readValue .vl).toNat) x := by
  have hg := memoryGroup_eq_some hgroup
  have hnone : (c.visitElements packet operation group
      (c.state.csrs.readValue .vl).toNat).1 = none :=
    (maps_beforeElement h hg (Nat.le_of_lt hlt) (Nat.le_refl _)).1
  have hfinishes : Finishes c packet operation group
      (c.executeVectorMemory packet operation sequentialPc) :=
    finishes_of_visitElements hvs hgroup hlt hnone
  refine ⟨hfinishes, fun x hx ↦ ?_⟩
  rw [hfinishes.bus]
  exact ((onRam_of_maps h hg).wrote_elements hg (Nat.le_of_lt hlt) (Nat.le_refl _) hnone).ram x hx

/-- **A store that is taken up again**: what was written is written once more. -/
theorem restart_store {after b u : ℕ → Option (BitVec 8)} {k n x : ℕ}
    (hstart : c.state.csrs.vstart.toNat ≤ k) (hk : k < (c.state.csrs.readValue .vl).toNat)
    (hactive : c.state.laneActive operation.masked k = true)
    (hn : n ≤ operation.elementWidthBits / 8)
    (hafter : after x = Writes.apply u
      (c.elementWrites operation group target c.state.csrs.vstart.toNat k ++
        c.byteWrites operation group target k n) x)
    (hb : b x = after x) :
    Writes.apply b (c.elementWrites operation group target k (c.state.csrs.readValue .vl).toNat) x =
      Writes.apply u (c.elementWrites operation group target c.state.csrs.vstart.toNat
        (c.state.csrs.readValue .vl).toNat) x := by
  rw [elementWrites_append hstart (Nat.le_of_lt hk), Writes.apply_append,
    Writes.apply_congr (hb.trans hafter), Writes.apply_append,
    Writes.apply_of_isPrefix (byteWrites_isPrefix hk hactive hn)]

end Stores

/-! ## The main result -/

section Restart

variable (tables : ℕ → Prop) (target : BitVec 64 → BitVec 64) (c : Cpu)
  (packet : InstructionPacket) (operation : VectorMemoryOperation) (group : VectorRegisterGroup)

/-- The memory accesses of a vector access: those of its elements, one after the other.  An element
that is masked off has none, and the bytes of an active one are at `base + i * stride`. -/
structure Traverses (after : Cpu) : Prop where
  elements : ∃ s, after =
    { (c.visitElements packet operation group (c.state.csrs.readValue .vl).toNat).2
      with state := s }
  inactive : ∀ i, c.state.csrs.vstart.toNat ≤ i → i < (c.state.csrs.readValue .vl).toNat →
    (c.visitElements packet operation group i).1 = none →
    c.state.laneActive operation.masked i = false →
      ∃ s, c.visitElements packet operation group (i + 1) =
        (none, { c.beforeElement packet operation group i with state := s })
  active : ∀ i, c.state.csrs.vstart.toNat ≤ i → i < (c.state.csrs.readValue .vl).toNat →
    (c.visitElements packet operation group i).1 = none →
    c.state.laneActive operation.masked i = true →
      ∃ s, c.visitElements packet operation group (i + 1) =
        ((c.visitBytes packet operation group i (operation.elementWidthBits / 8)).1,
          { c.beforeByte packet operation group i
            (operation.elementWidthBits / 8) with state := s })
  address : ∀ i j, (c.byteAccess operation group i j).address =
    c.state.integer operation.baseRegister + BitVec.ofNat 64 i * c.memoryStride operation +
      BitVec.ofNat 64 j

/-- A hart that has trapped at element `k`: the elements in front of it are transferred. -/
structure Stopped (k : ℕ) (after : Cpu) : Prop where
  vstart : after.state.csrs.vstart.toNat = k
  start : c.state.csrs.vstart.toNat ≤ k
  length : k < (c.state.csrs.readValue .vl).toNat
  moved : ∀ i j, c.state.csrs.vstart.toNat ≤ i → i < k →
    c.state.laneActive operation.masked i = true → j < operation.elementWidthBits / 8 →
      Moves c packet operation group i j
  loaded : operation.load = true →
    after.state.vectorState.byte =
      fill c.state.vectorState.byte group.offset group.widthBytes
        (c.transferred operation group target) c.state.csrs.vstart.toNat k
  unchanged : operation.load = true → ∀ i, k ≤ i →
    after.elementValue group i = c.elementValue group i
  stored : operation.load = false → ∃ n < operation.elementWidthBits / 8, ∀ x, ¬tables x →
    after.bus.ramByte x =
      Writes.apply c.bus.ramByte
        (c.elementWrites operation group target c.state.csrs.vstart.toNat k ++
          c.byteWrites operation group target k n) x

/-- The data that the access is taken up with: a store finds its own, and a load the bytes it has
already read. -/
structure SameData (after b u : Cpu) : Prop where
  stored : operation.load = false → ∀ x, ¬tables x →
    b.bus.ramByte x = after.bus.ramByte x ∧ u.bus.ramByte x = c.bus.ramByte x
  loaded : operation.load = true → ∀ x, ¬tables x → b.bus.ramByte x = u.bus.ramByte x
  moved : operation.load = true → ∀ i j, Moves c packet operation group i j →
    b.bus.ramByte (target (c.byteAddress operation i j)).toNat =
      c.bus.ramByte (target (c.byteAddress operation i j)).toNat

/-- Two executions with the same result. -/
structure SameResult (r r' : StepResult × Cpu) : Prop where
  retired : r.1.retired = true
  retired' : r'.1.retired = true
  registers : operation.load = true → r.2.state.vectorState = r'.2.state.vectorState
  memory : operation.load = false → ∀ x, ¬tables x → r.2.bus.ramByte x = r'.2.bus.ramByte x

variable {tables target c packet operation group} {sequentialPc : BitVec 64} {k j : ℕ} {trap : Trap}

theorem traverses_execute (hvs : c.state.csrs.vectorStateEnabled = true)
    (hgroup : c.memoryGroup operation = some group) :
    Traverses c packet operation group (c.executeVectorMemory packet operation sequentialPc).2 := by
  have hg := memoryGroup_eq_some hgroup
  refine ⟨?_, fun i hi hi' hnone hoff ↦ ?_, fun i hi hi' hnone hon ↦ ?_, fun i j ↦ rfl⟩
  · have hfinish : ∀ r : Option Trap × Cpu,
        ∃ s, (Cpu.finishVector packet sequentialPc r).2 = { r.2 with state := s } := by
      rintro ⟨_ | t, d⟩ <;> exact ⟨_, rfl⟩
    rw [executeVectorMemory_of_group hvs hgroup]
    obtain ⟨s, hs⟩ := hfinish (runElements (c.visitElement packet operation group)
      (fun (d : Cpu) i ↦
        d.onState (d.state.putElement packet group (agnosticValue operation.elementWidthBits) i))
      c.state.csrs.vstart.toNat (c.state.csrs.readValue .vl).toNat c.configuration.vlmax
      (operation.load && tailAgnostic (c.state.csrs.readValue .vtype)) c)
    rw [hs, runElements]
    split
    · dsimp only
      rw [← Cpu.visitElements]
      split
      · exact ⟨s, rfl⟩
      · refine ⟨s, ?_⟩
        have hkeeps := forElements_preserves
          (I := fun d : Cpu ↦ ({ d with state := s } : Cpu) =
            { (c.visitElements packet operation group (c.state.csrs.readValue .vl).toNat).2 with
              state := s })
          (fun (d : Cpu) i hd ↦ show ({ (d.onState (d.state.putElement packet group
            (agnosticValue operation.elementWidthBits) i)).2 with state := s } : Cpu) = _ from hd)
          (elementsFrom (c.state.csrs.readValue .vl).toNat c.configuration.vlmax) rfl
        exact hkeeps
    · next hge =>
      rw [Cpu.visitElements, elementsFrom, Nat.sub_eq_zero_of_le (Nat.le_of_not_lt hge)]
      exact ⟨s, rfl⟩
  · have halong := along_beforeElement hg hi (Nat.le_of_lt hi') hnone
    obtain ⟨s, hs, -⟩ := visitElement_inactive halong hg hi hi' hoff
    rw [visitElements_succ hi hnone]
    exact ⟨s, hs⟩
  · have halong := along_beforeElement hg hi (Nat.le_of_lt hi') hnone
    rcases visitElements_cases halong hg hi hi' hnone with
      ⟨hoff, -⟩ | ⟨-, ⟨hbytes, s, hs, -⟩ | ⟨t, hbytes, hs⟩⟩
    · rw [hon] at hoff
      cases hoff
    · rw [hs, hbytes]
      exact ⟨s, rfl⟩
    · rw [hs, hbytes]
      exact ⟨_, rfl⟩

theorem stopped_of_trapsAt (hram : OnRam tables target c packet operation group)
    (hg : MemoryGroup c operation group) (hat : TrapsAt c packet operation group k j trap) :
    Stopped tables target c packet operation group k
      (Cpu.trapAtElement k trap (c.beforeByte packet operation group k (j + 1))).2 := by
  have hlength := hg.length_le
  have hk := hat.length
  refine ⟨vstart_trapAtElement (by omega), hat.start, hk, fun i l hi hi' hon hl ↦ ?_,
    fun hload ↦ hram.filled_of_trapsAt hg hload hat, fun hload i hi ↦ ?_,
    fun hstore ↦ ⟨j, hat.width, fun x hx ↦ hram.ramByte_of_trapsAt hg hstore hat hx⟩⟩
  · obtain ⟨helements, hbytes⟩ :=
      visitBytes_of_visitElements hg hi hi' (Nat.le_of_lt hk) hon hat.elements
    exact moves_of_visitBytes (Nat.le_refl _) hi (by omega) hon helements hbytes hl
  · rw [Cpu.elementValue, Cpu.elementValue, hram.filled_of_trapsAt hg hload hat]
    exact element_fill_of_outside _ _ _ (Or.inr hi)

/-- The hart `b` goes on where `after` stopped at element `k`, and `u` starts where `c` did. -/
structure Resumed (c after b u : Cpu) (k : ℕ) : Prop where
  start : b.state.csrs.vstart.toNat = k
  start' : u.state.csrs.vstart = c.state.csrs.vstart
  vectorState : b.state.vectorState = after.state.vectorState
  vectorState' : u.state.vectorState = c.state.vectorState
  operands : SameOperands c b
  operands' : SameOperands c u

namespace Resumed

variable {after b u : Cpu}

theorem of_remapped (hstart : after.state.csrs.vstart.toNat = k) (hoperands : SameOperands c after)
    (hb : Remapped after b) (hu : Remapped c u) : Resumed c after b u k := by
  have hcb := hoperands.trans hb.sameOperands
  have hcu := hu.sameOperands
  rw [Remapped] at hb hu
  refine ⟨?_, ?_, ?_, ?_, hcb, hcu⟩
  · rw [hb]
    exact hstart
  · rw [hu]
  · rw [hb]
  · rw [hu]

variable (h : Resumed c after b u k)
  (hstopped : Stopped tables target c packet operation group k after)
  (hvs : c.state.csrs.vectorStateEnabled = true) (hgroup : c.memoryGroup operation = some group)
  (hmaps : b.Maps tables operation.kind target (b.accessed operation))
  (hmaps' : u.Maps tables operation.kind target (u.accessed operation))
  (hdata : SameData tables target c packet operation group after b u)

include h hstopped

theorem start_lt : b.state.csrs.vstart.toNat < (b.state.csrs.readValue .vl).toNat := by
  rw [h.start, h.operands.length]
  exact hstopped.length

theorem start_lt' : u.state.csrs.vstart.toNat < (u.state.csrs.readValue .vl).toNat := by
  rw [h.start', h.operands'.length]
  exact Nat.lt_of_le_of_lt hstopped.start hstopped.length

include hmaps'

omit hstopped in
/-- Every byte of the access is beside the tables. -/
theorem apart {i j : ℕ} (hi : c.state.csrs.vstart.toNat ≤ i)
    (hi' : i < (c.state.csrs.readValue .vl).toNat)
    (hactive : c.state.laneActive operation.masked i = true)
    (hj : j < operation.elementWidthBits / 8) :
    ¬tables (target (c.byteAddress operation i j)).toNat := by
  have haccesses : Accesses u operation i j := by
    refine ⟨?_, ?_, ?_, hj⟩
    · rw [h.start']
      exact hi
    · rw [h.operands'.length]
      exact hi'
    · rw [CpuState.laneActive, h.vectorState']
      exact hactive
  rw [← h.operands'.byteAddress_eq]
  exact hmaps'.apart _ ⟨i, j, haccesses, rfl⟩

include hvs hgroup hmaps hdata

/-- A load. -/
theorem sameResult_load (hload : operation.load = true) :
    SameResult tables operation (b.executeVectorMemory packet operation sequentialPc)
      (u.executeVectorMemory packet operation sequentialPc) := by
  have hg := memoryGroup_eq_some hgroup
  have hk := hstopped.length
  have hrun : Finishes b packet operation group
      (b.executeVectorMemory packet operation sequentialPc) ∧ _ :=
    maps_load hmaps (h.operands.enabled.trans hvs) (h.operands.memoryGroup_eq.trans hgroup) hload
      (h.start_lt hstopped)
  have hrun' : Finishes u packet operation group
      (u.executeVectorMemory packet operation sequentialPc) ∧ _ :=
    maps_load hmaps' (h.operands'.enabled.trans hvs) (h.operands'.memoryGroup_eq.trans hgroup) hload
      (h.start_lt' hstopped)
  refine ⟨hrun.1.retired, hrun'.1.retired, fun _ ↦ VectorState.ext_byte fun n ↦ ?_, fun hstore ↦ ?_⟩
  · rw [hrun.2, hrun'.2, h.start, h.start']
    refine congrFun (restart_load hg hload hstopped.start hk (hstopped.loaded hload) h.operands
      h.vectorState h.operands' h.vectorState' (fun i j hi hi' hon hj ↦ ?_)
      fun i j hi hi' hon hj ↦ ?_) n
    · rw [← hdata.loaded hload _ (h.apart hmaps' hi (by omega) hon hj)]
      exact hdata.moved hload i j (hstopped.moved i j hi hi' hon hj)
    · exact hdata.loaded hload _ (h.apart hmaps' (Nat.le_trans hstopped.start hi) hi' hon hj)
  · rw [hload] at hstore
    cases hstore

/-- A store. -/
theorem sameResult_store (hstore : operation.load = false)
    (hactive : c.state.laneActive operation.masked k = true)
    (hkept : after.state.vectorState = c.state.vectorState) :
    SameResult tables operation (b.executeVectorMemory packet operation sequentialPc)
      (u.executeVectorMemory packet operation sequentialPc) := by
  have hrun : Finishes b packet operation group
      (b.executeVectorMemory packet operation sequentialPc) ∧ _ :=
    maps_store hmaps (h.operands.enabled.trans hvs) (h.operands.memoryGroup_eq.trans hgroup)
      (h.start_lt hstopped)
  have hrun' : Finishes u packet operation group
      (u.executeVectorMemory packet operation sequentialPc) ∧ _ :=
    maps_store hmaps' (h.operands'.enabled.trans hvs) (h.operands'.memoryGroup_eq.trans hgroup)
      (h.start_lt' hstopped)
  refine ⟨hrun.1.retired, hrun'.1.retired, fun hload ↦ ?_, fun _ x hx ↦ ?_⟩
  · rw [hstore] at hload
    cases hload
  · obtain ⟨n, hn, hstored⟩ := hstopped.stored hstore
    obtain ⟨hbx, hux⟩ := hdata.stored hstore x hx
    rw [hrun.2 x hx, hrun'.2 x hx, h.start, h.start', h.operands.length, h.operands'.length,
      elementWrites_congr h.operands (h.vectorState.trans hkept),
      elementWrites_congr h.operands' h.vectorState',
      restart_store hstopped.start hstopped.length hactive (Nat.le_of_lt hn) (hstored x hx) hbx]
    exact Writes.apply_congr hux.symm _

end Resumed

/-- **Vector accesses may be taken up again**: one that traps leaves the element it stopped at in
`vstart` and has transferred those in front of it.  Under page tables that map the rest, and map
what was moved as before, it ends as an execution without the trap does. -/
theorem vector_memory_restarts (tables : ℕ → Prop) (target : BitVec 64 → BitVec 64) (c : Cpu)
    (packet : InstructionPacket) (operation : VectorMemoryOperation) (group : VectorRegisterGroup)
    (sequentialPc : BitVec 64) (hvs : c.state.csrs.vectorStateEnabled = true)
    (hgroup : c.memoryGroup operation = some group)
    (hram : OnRam tables target c packet operation group) :
    Traverses c packet operation group (c.executeVectorMemory packet operation sequentialPc).2 ∧
      ∀ trap, (c.executeVectorMemory packet operation sequentialPc).1.trap = some trap →
        ∃ k, Stopped tables target c packet operation group k
            (c.executeVectorMemory packet operation sequentialPc).2 ∧
          ∀ b u, Remapped (c.executeVectorMemory packet operation sequentialPc).2 b →
            Remapped c u →
            b.Maps tables operation.kind target (b.accessed operation) →
            u.Maps tables operation.kind target (u.accessed operation) →
            SameData tables target c packet operation group
              (c.executeVectorMemory packet operation sequentialPc).2 b u →
              SameResult tables operation (b.executeVectorMemory packet operation sequentialPc)
                (u.executeVectorMemory packet operation sequentialPc) := by
  refine ⟨traverses_execute hvs hgroup, fun trap htrap ↦ ?_⟩
  have hg := memoryGroup_eq_some hgroup
  obtain ⟨k, j, hat⟩ := trapsAt_of_execute hvs hgroup htrap
  have hexecute : c.executeVectorMemory packet operation sequentialPc = _ :=
    hat.execute_eq hvs hgroup
  have hstopped := stopped_of_trapsAt hram hg hat
  rw [hexecute]
  refine ⟨k, hstopped, fun b u hb hu hmaps hmaps' hdata ↦ ?_⟩
  have hresumed := Resumed.of_remapped hstopped.vstart (hat.sameOperands hg) hb hu
  cases hload : operation.load with
  | true => exact hresumed.sameResult_load hstopped hvs hgroup hmaps hmaps' hdata hload
  | false =>
    have halong := along_beforeElement hg hat.start (Nat.le_of_lt hat.length) hat.elements
    refine hresumed.sameResult_store hstopped hvs hgroup hmaps hmaps' hdata hload hat.active ?_
    rw [TrapsAt.vectorState_eq, halong.kept hload]

end Restart

/-! ## A load across two gigapages -/

/-- A hart that loads as supervisor, with two elements of two bytes in force.  The address in `x1`
is two bytes in front of a gigapage whose entry is empty. -/
def stoppedLoad : Cpu :=
  { straddleCpu 0#64 with
    state :=
      { integerRegisters := fun i ↦ if i = 1#5 then 0x7FFFFFFE#64 else 0#64
        csrs :=
          { mstatus := 0x20E00#64, satp := 0x8000000000000000#64, vtype := 0x8#64, vl := 2#64 } } }

/-- `vle16.v v1, (x1)` -/
def loadHalfWords : VectorMemoryOperation where
  load := true
  masked := false
  elementWidthBits := 16
  addressingMode := .unitStride
  vectorRegister := 1#5
  baseRegister := 1#5
  strideRegister := 0#5

/-- The group of `v1`. -/
def loadedGroup : VectorRegisterGroup where
  configuration := decodeVectorConfiguration 0x8#64
  baseRegister := 1
  span_le := by decide

theorem Bus.locate_of_read_ok {b : Bus} {a : BitVec 64} {w : AccessWidth} {t : AccessType}
    (h : (b.read a w t).1.ok = true) :
    ∃ r ∈ b.regions, r.range.base.toNat ≤ a.toNat ∧
      a.toNat + widthInBytes w ≤ r.range.base.toNat + r.range.size.toNat := by
  cases hl : b.locate a w with
  | error e =>
    rw [Bus.read_of_locate_error t hl, Bus.locate_error hl] at h
    cases h
  | ok located =>
    obtain ⟨r, hr, hbase, hend, -⟩ := Bus.locate_ok hl
    exact ⟨r, List.mem_of_getElem? hr, hbase, hend⟩

/-- The tables of `straddleCpu` are its first page: every entry is a leaf or empty. -/
theorem tablesIn_straddleCpu {second : BitVec 64}
    (hsecond : second = 0#64 ∨ second = 0x30000007#64) :
    TablesIn (· < 4096) (straddleCpu second).bus 0#64 := by
  intro va a ha i hi
  have hentry : (entryAddress va 0#64 2).toNat + 8 ≤ 4096 ∧
      (entryAddress va 0#64 2).toNat % 8 = 0 := by
    have hvpn := toNat_vpn va 2
    have hlt : Sv39.vpn va.toNat 2 < 512 := Nat.mod_lt _ (by decide)
    refine ⟨?_, entryAddress_aligned va 0#64 2⟩
    rw [entryAddress, BitVec.toNat_add, BitVec.toNat_mul, hvpn,
      show (0#64 <<< 12).toNat = 0 from rfl,
      show (8#64).toNat = 8 from rfl]
    omega
  have hvalues : ∀ e ∈ [0#64, 8#64, 16#64],
      pteValid (pteFlags (tableRead (straddleCpu second).bus e).value) = false ∨
        pteLeaf (pteFlags (tableRead (straddleCpu second).bus e).value) = true := by
    intro e he
    simp only [List.mem_cons, List.not_mem_nil, or_false] at he
    rcases hsecond with rfl | rfl
    · rcases he with rfl | rfl | rfl
      · exact Or.inl (by decide)
      · exact Or.inr (by decide)
      · exact Or.inl (by decide)
    · rcases he with rfl | rfl | rfl
      · exact Or.inl (by decide)
      · exact Or.inr (by decide)
      · exact Or.inr (by decide)
  have hleaf : ∀ next, (walkStep (straddleCpu second).bus va 0#64 2).1 ≠ .pointer next := by
    intro next hpointer
    rw [walkStep_eq] at hpointer
    generalize entryAddress va 0#64 2 = e at hentry hpointer
    dsimp only at hpointer
    split at hpointer
    · cases hpointer
    · split at hpointer
      · cases hpointer
      · next hok =>
        rw [Bool.not_eq_true, Bool.not_eq_false'] at hok
        obtain ⟨r, hr, hbase, hend⟩ := Bus.locate_of_read_ok hok
        have hmem : e ∈ [0#64, 8#64, 16#64] := by
          have hspan : e.toNat + 8 ≤ 28 := by
            rw [straddleCpu, List.mem_cons, List.mem_singleton] at hr
            rcases hr with rfl | rfl
            · exact hend
            · exact absurd (Nat.le_trans hbase (Nat.le_of_add_right_le hentry.1)) (by decide)
          have hsmall : ∀ n < 21, n % 8 = 0 → BitVec.ofNat 64 n ∈ [0#64, 8#64, 16#64] := by decide
          have he := hsmall e.toNat (by omega) hentry.2
          rwa [BitVec.ofNat_toNat, BitVec.setWidth_eq] at he
        rcases hvalues e hmem with hvalid | hleaf
        · rw [hvalid] at hpointer
          cases hpointer
        · rw [hleaf] at hpointer
          split at hpointer <;> cases hpointer
  rw [walkEntries, List.mem_cons] at ha
  rcases ha with rfl | ha
  · exact Nat.lt_of_lt_of_le (Nat.add_lt_add_left hi _) hentry.1
  · split at ha
    · next next hnext => exact absurd hnext (hleaf next)
    · cases ha

/-- Where the gigapages of `straddleCpu` lie. -/
def straddleTarget (va : BitVec 64) : BitVec 64 := va + 0x40000000#64

theorem stoppedLoad_moves {i j : ℕ}
    (h : Moves stoppedLoad { bits := 0x0200D087#32 } loadHalfWords loadedGroup i j) :
    i = 0 ∧ (j = 0 ∨ j = 1) := by
  have hi : i < 2 := h.length
  have hj : j < 2 := h.width
  rcases (by omega : i = 0 ∨ i = 1) with rfl | rfl
  · omega
  · have hfirst : (stoppedLoad.visitBytes { bits :=
                                              0x0200D087#32 } loadHalfWords loadedGroup 1 1).1 =
        none := forElements_before (Nat.zero_le _) (Nat.le_add_left _ _) h.moved
    exact absurd hfirst (by decide)

theorem stoppedLoad_onRam :
    OnRam (· < 4096) straddleTarget stoppedLoad { bits := 0x0200D087#32 } loadHalfWords
      loadedGroup := by
  refine ⟨fun _ ↦ tablesIn_straddleCpu (Or.inl rfl), fun i j hm ↦ ?_, fun i j hm ↦ ?_,
    fun i j hm ↦ ?_⟩
  · obtain ⟨rfl, rfl | rfl⟩ := stoppedLoad_moves hm <;> decide
  · have hram : ∀ j < 2, stoppedLoad.bus.InRam
        (straddleTarget (stoppedLoad.byteAddress loadHalfWords 0 j)).toNat 1 := by
      intro j hj
      refine ⟨_, List.mem_cons_of_mem _ List.mem_cons_self, ?_⟩
      revert j
      decide
    obtain ⟨rfl, hj⟩ := stoppedLoad_moves hm
    exact hram j (by omega)
  · obtain ⟨rfl, rfl | rfl⟩ := stoppedLoad_moves hm <;> decide

/-- The same registers, with the second gigapage mapped as well. -/
def secondMapped (c : Cpu) : Cpu := { c with mmu := {}, bus := (straddleCpu 0x30000007#64).bus }

theorem secondMapped_maps {c : Cpu} (hcontext : c.dataContext = stoppedLoad.dataContext)
    (hlength : (c.state.csrs.readValue .vl).toNat = 2)
    (haddress : c.elementAddress loadHalfWords 0 = 0x7FFFFFFE#64)
    (haddress' : c.elementAddress loadHalfWords 1 = 0x80000000#64) :
    (secondMapped c).Maps (· < 4096) loadHalfWords.kind straddleTarget
      ((secondMapped c).accessed loadHalfWords) := by
  have hvirtual : ∀ va, (secondMapped c).accessed loadHalfWords va →
      va = 0x7FFFFFFE#64 ∨ va = 0x7FFFFFFF#64 ∨ va = 0x80000000#64 ∨ va = 0x80000001#64 := by
    rintro va ⟨i, j, ⟨-, hi, -, hj⟩, rfl⟩
    have hi : i < 2 := hlength ▸ hi
    have hj : j < 2 := hj
    have hbyte : (secondMapped c).byteAddress loadHalfWords i j =
        c.elementAddress loadHalfWords i + BitVec.ofNat 64 j := rfl
    rw [hbyte]
    rcases (by omega : i = 0 ∨ i = 1) with rfl | rfl <;>
      rcases (by omega : j = 0 ∨ j = 1) with rfl | rfl
    · exact Or.inl (by rw [haddress]; decide)
    · exact Or.inr (Or.inl (by rw [haddress]; decide))
    · exact Or.inr (Or.inr (Or.inl (by rw [haddress']; decide)))
    · exact Or.inr (Or.inr (Or.inr (by rw [haddress']; decide)))
  have hempty : ∀ e ∈ ({} : Mmu).tlb, e.valid = false := by decide
  have hcontext' : (secondMapped c).dataContext = stoppedLoad.dataContext := hcontext
  refine ⟨fun _ ↦ ?_, fun _ ↦ TlbAgrees.of_empty hempty, fun va hva ↦ ?_, fun va hva ↦ ?_,
    fun va hva ↦ ?_⟩
  · have hroot : (secondMapped c).root = 0#64 := by
      show satpRootPpn (secondMapped c).dataContext.satp = 0#64
      rw [hcontext']
      decide
    rw [hroot]
    exact tablesIn_straddleCpu (Or.inr rfl)
  · show (translateUncached (straddleCpu 0x30000007#64).bus va _ (secondMapped c).dataContext).1 = _
    rw [hcontext']
    rcases hvirtual va hva with rfl | rfl | rfl | rfl <;> decide
  · refine ⟨_, List.mem_cons_of_mem _ List.mem_cons_self, ?_⟩
    rcases hvirtual va hva with rfl | rfl | rfl | rfl <;> decide
  · rcases hvirtual va hva with rfl | rfl | rfl | rfl <;> decide

/-- `vle16.v v1, (x1)` traps at its second element, and is taken up there. -/
theorem vector_memory_restarts_halfWords :
    (stoppedLoad.executeVectorMemory { bits := 0x0200D087#32 } loadHalfWords
      4#64).1.retired = false ∧
      SameResult (· < 4096) loadHalfWords
        ((secondMapped
          (stoppedLoad.executeVectorMemory { bits := 0x0200D087#32 } loadHalfWords
            4#64).2).executeVectorMemory { bits := 0x0200D087#32 } loadHalfWords 4#64)
        ((secondMapped stoppedLoad).executeVectorMemory { bits := 0x0200D087#32 } loadHalfWords
          4#64) := by
  obtain ⟨-, hrestarts⟩ := vector_memory_restarts (· < 4096) straddleTarget stoppedLoad
    { bits := 0x0200D087#32 } loadHalfWords loadedGroup 4#64 (by decide) rfl stoppedLoad_onRam
  obtain ⟨k, -, hresumes⟩ := hrestarts _ rfl
  refine ⟨by decide, hresumes _ _ rfl rfl ?_ ?_ ?_⟩
  · exact secondMapped_maps (by decide) (by decide) (by decide) (by decide)
  · exact secondMapped_maps (by decide) (by decide) (by decide) (by decide)
  · refine ⟨fun hstore ↦ absurd hstore (by decide), fun _ _ _ ↦ rfl, fun _ i j hm ↦ ?_⟩
    obtain ⟨rfl, rfl | rfl⟩ := stoppedLoad_moves hm <;> decide

end Rvemu
