import Rvemu.Core.Straddle
import Rvemu.Core.VectorElements

/-!
# The traversal of a vector access

A vector load or store visits its elements from `vstart` on and moves each of them byte by byte,
with a translation for every byte.  `beforeElement` and `beforeByte` are the harts along this way;
all that is said about an access that stops in the middle is said in terms of them.
-/

set_option autoImplicit false

namespace Rvemu

open Packed

/-! ## The group of a vector access -/

/-- What the checks in front of the elements establish. -/
structure MemoryGroup (c : Cpu) (operation : VectorMemoryOperation) (group : VectorRegisterGroup) :
    Prop where
  legal : c.configuration.Legal
  fits : group.Fits
  vlmax : group.configuration.vlmax = c.configuration.vlmax
  width : group.widthBytes = operation.elementWidthBits / 8
  base : group.baseRegister = operation.vectorRegister.toNat
  length : (c.state.csrs.readValue .vl).toNat ≤ c.configuration.vlmax
  mask : operation.load = true → operation.masked = true → operation.vectorRegister ≠ 0#5

theorem memoryGroup_eq_some {c : Cpu} {operation : VectorMemoryOperation}
    {group : VectorRegisterGroup} (h : c.memoryGroup operation = some group) :
    MemoryGroup c operation group := by
  rw [Cpu.memoryGroup] at h
  simp only [Option.bind_eq_bind, Option.bind_eq_some_iff] at h
  obtain ⟨configuration, hderive, created, hcreate, h⟩ := h
  split at h
  · cases h
  · next hchecks =>
    obtain rfl := Option.some.inj h
    rw [Bool.not_eq_true, Bool.or_eq_false_iff, decide_eq_false_iff_not, Nat.not_lt] at hchecks
    obtain ⟨hconfiguration, -⟩ := VectorRegisterGroup.configuration_create hcreate
    have hbase := (VectorRegisterGroup.baseRegister_create hcreate).1
    obtain ⟨hvalid, hwidth, -, hfields⟩ := deriveMemoryConfiguration_eq_some_iff.1 hderive
    have hl : c.configuration.Legal := (legal_of_valid hvalid).1
    refine ⟨hl, VectorRegisterGroup.fits_of_legal ?_, ?_, ?_, hbase, hchecks.1,
      fun hload hmasked hzero ↦ ?_⟩
    · rw [hconfiguration]
      exact hl.derive hderive
    · rw [hconfiguration, hfields]
      rfl
    · rw [VectorRegisterGroup.widthBytes, hconfiguration, hfields]
    · rw [hload, hmasked, hzero] at hchecks
      exact absurd hchecks.2 (by decide)

namespace MemoryGroup

variable {c : Cpu} {operation : VectorMemoryOperation} {group : VectorRegisterGroup}
  (h : MemoryGroup c operation group)

include h

theorem length_le : (c.state.csrs.readValue .vl).toNat ≤ 256 :=
  Nat.le_trans h.length h.legal.vlmax_le

/-- The destination of a masked load is apart from the mask. -/
theorem offset_le (hload : operation.load = true) (hmasked : operation.masked = true) :
    32 ≤ group.offset := by
  have hne := h.mask hload hmasked
  have hpos : operation.vectorRegister.toNat ≠ 0 := fun hz ↦ hne (BitVec.eq_of_toNat_eq hz)
  rw [VectorRegisterGroup.offset, h.base]
  omega

end MemoryGroup

/-! ## The way through the elements -/

namespace Cpu

variable (c : Cpu) (packet : InstructionPacket) (operation : VectorMemoryOperation)
  (group : VectorRegisterGroup)

/-- The distance of two elements. -/
def memoryStride : BitVec 64 :=
  match operation.addressingMode with
  | .strided => c.state.integer operation.strideRegister
  | .unitStride => BitVec.ofNat 64 (operation.elementWidthBits / 8)

/-- Where element `i` is, modulo the size of the address space. -/
def elementAddress (i : ℕ) : BitVec 64 :=
  c.state.integer operation.baseRegister + BitVec.ofNat 64 i * c.memoryStride operation

/-- What element `i` of the group holds. -/
def elementValue (i : ℕ) : BitVec 64 :=
  element c.state.vectorState.byte group.offset group.widthBytes i

/-- The visit of an element, with the operands that were read in front of the first. -/
def visitElement : Cpu → ℕ → Option Trap × Cpu :=
  memoryElement packet operation (c.state.csrs.readValue .vtype) group
    (c.state.integer operation.baseRegister) (c.memoryStride operation)

/-- The elements before `i`. -/
def visitElements (i : ℕ) : Option Trap × Cpu :=
  forElements (c.visitElement packet operation group) (elementsFrom c.state.csrs.vstart.toNat i) c

/-- The hart in front of element `i`, if no element before it traps. -/
def beforeElement (i : ℕ) : Cpu := (c.visitElements packet operation group i).2

/-- The access of byte `j` of element `i`. -/
def byteAccess (i j : ℕ) : ScalarAccess where
  address := c.elementAddress operation i + BitVec.ofNat 64 j
  width := .byte
  store := if operation.load then none else some (c.elementValue group i >>> (j * 8))

/-- The visit of a byte of element `i`. -/
def visitByte (i : ℕ) (d : Cpu) (j : ℕ) : Option Trap × Cpu :=
  (((c.byteAccess operation group i j).run d packet).1.trap,
    ((c.byteAccess operation group i j).run d packet).2)

/-- The translation of byte `j` of element `i` by a hart. -/
def translateByte (d : Cpu) (i j : ℕ) : TranslationResult × Mmu × Bus :=
  d.mmu.translate d.bus (c.byteAccess operation group i j).address .byte
    (c.byteAccess operation group i j).kind d.dataContext

/-- The first `j` bytes of element `i`. -/
def visitBytes (i j : ℕ) : Option Trap × Cpu :=
  forElements (c.visitByte packet operation group i) (elementsFrom 0 j)
    (c.beforeElement packet operation group i)

/-- The hart in front of byte `j` of element `i`. -/
def beforeByte (i j : ℕ) : Cpu := (c.visitBytes packet operation group i j).2

/-- What a load composes out of the bytes of element `i`. -/
def loadedValue (i : ℕ) : BitVec 64 :=
  (loadBytes packet (c.elementAddress operation i) (operation.elementWidthBits / 8)
    (c.beforeElement packet operation group i)).2.1

/-- What element `i` of the destination of a load becomes. -/
def loadElementAt (i : ℕ) : BitVec 64 :=
  if (c.state.csrs.readValue .vl).toNat ≤ i then agnosticValue operation.elementWidthBits
  else if operation.masked && !c.state.vectorState.maskBit i then
    if maskAgnostic (c.state.csrs.readValue .vtype) then agnosticValue operation.elementWidthBits
    else c.elementValue group i
  else c.loadedValue packet operation group i

end Cpu

section Visits

variable {c : Cpu} {packet : InstructionPacket} {operation : VectorMemoryOperation}
  {group : VectorRegisterGroup} {i j : ℕ}

theorem visitElements_start :
    c.visitElements packet operation group c.state.csrs.vstart.toNat = (none, c) := by
  rw [Cpu.visitElements, elementsFrom, Nat.sub_self]
  rfl

theorem visitElements_succ (hi : c.state.csrs.vstart.toNat ≤ i)
    (h : (c.visitElements packet operation group i).1 = none) :
    c.visitElements packet operation group (i + 1) =
      c.visitElement packet operation group (c.beforeElement packet operation group i) i :=
  forElements_succ hi h

theorem visitBytes_succ (h : (c.visitBytes packet operation group i j).1 = none) :
    c.visitBytes packet operation group i (j + 1) =
      c.visitByte packet operation group i (c.beforeByte packet operation group i j) j :=
  forElements_succ (Nat.zero_le j) h

/-- A loop that carries something along. -/
theorem forElements_project {σ τ ε : Type} {body : σ → ℕ → Option ε × σ}
    {body' : τ → ℕ → Option ε × τ} (f : σ → τ)
    (h : ∀ s e, body' (f s) e = ((body s e).1, f (body s e).2)) (l : List ℕ) (s : σ) :
    forElements body' l (f s) = ((forElements body l s).1, f (forElements body l s).2) := by
  induction l generalizing s with
  | nil => rfl
  | cons e l ih =>
    rw [forElements, forElements, h]
    cases (body s e).1 with
    | some exit => rfl
    | none => exact ih (body s e).2

/-- The bytes of a load. -/
theorem loadBytes_eq (hload : operation.load = true) :
    c.visitBytes packet operation group i j =
      ((Cpu.loadBytes packet (c.elementAddress operation i) j
        (c.beforeElement packet operation group i)).1,
        (Cpu.loadBytes packet (c.elementAddress operation i) j
          (c.beforeElement packet operation group i)).2.2) := by
  refine forElements_project Prod.snd (fun s e ↦ ?_) (elementsFrom 0 j)
    (0#64, c.beforeElement packet operation group i)
  rw [Cpu.visitByte, Cpu.byteAccess, hload]
  rfl

/-- The bytes of a store. -/
theorem storeBytes_eq (hstore : operation.load = false) :
    Cpu.storeBytes packet (c.elementAddress operation i) (c.elementValue group i) j
        (c.beforeElement packet operation group i) =
      c.visitBytes packet operation group i j := by
  have hbody : (fun (d : Cpu) byte ↦
      ((d.guestWrite packet (c.elementAddress operation i + BitVec.ofNat 64 byte) .byte
          (c.elementValue group i >>> (byte * 8)) .store).1.trap,
        (d.guestWrite packet (c.elementAddress operation i + BitVec.ofNat 64 byte) .byte
          (c.elementValue group i >>> (byte * 8)) .store).2)) =
      c.visitByte packet operation group i := by
    funext d byte
    rw [Cpu.visitByte, Cpu.byteAccess, hstore]
    rfl
  rw [Cpu.visitBytes, ← hbody]
  rfl

/-- **One byte**: its translation faults, the bus refuses it, or it is moved. -/
theorem visitByte_cases (d : Cpu) :
    (∃ trap, (c.translateByte operation group d i j).1.toOption = none ∧
        c.visitByte packet operation group i d j =
          (some trap,
            { d with
              mmu := (c.translateByte operation group d i j).2.1
              bus := (c.translateByte operation group d i j).2.2 })) ∨
      ∃ pa, (c.translateByte operation group d i j).1 = .ok pa ∧
        (c.visitByte packet operation group i d j).2 =
          { d with
            mmu := (c.translateByte operation group d i j).2.1
            bus := ((c.byteAccess operation group i j).operation
              (c.translateByte operation group d i j).2.2 pa).2 } ∧
        (((c.byteAccess operation group i j).operation
              (c.translateByte operation group d i j).2.2 pa).1.1.ok = false ∧
            (c.visitByte packet operation group i d j).1.isSome = true ∨
          ((c.byteAccess operation group i j).operation
              (c.translateByte operation group d i j).2.2 pa).1.1.ok = true ∧
            (c.visitByte packet operation group i d j).1 = none) := by
  have hrun : c.visitByte packet operation group i d j =
      (((c.byteAccess operation group i j).run d packet).1.trap,
        ((c.byteAccess operation group i j).run d packet).2) := rfl
  rw [ScalarAccess.run_eq, Cpu.guestAccess] at hrun
  rw [hrun]
  rcases accessTranslated_cases
      ({ d with
        mmu := (c.translateByte operation group d i j).2.1
        bus := (c.translateByte operation group d i j).2.2 } : Cpu) packet
      (c.byteAccess operation group i j).address (c.byteAccess operation group i j).accessFault
      (c.byteAccess operation group i j).operation (c.translateByte operation group d i j).1 with
    ⟨fault, hfault, hr⟩ | ⟨pa, hpa, hbus, -, ⟨hok, htrap⟩ | ⟨hok, htrap, -⟩⟩
  · exact Or.inl ⟨makeTrap packet fault.cause fault.value, by rw [hfault]; rfl,
      congrArg (fun r : GuestAccessResult × Cpu ↦ (r.1.trap, r.2)) hr⟩
  · exact Or.inr ⟨pa, hpa, hbus, Or.inl ⟨hok, congrArg Option.isSome htrap⟩⟩
  · exact Or.inr ⟨pa, hpa, hbus, Or.inr ⟨hok, htrap⟩⟩

theorem visitBytes_state :
    (c.beforeByte packet operation group i j).state =
      (c.beforeElement packet operation group i).state := by
  refine forElements_preserves
    (I := fun d : Cpu ↦ d.state = (c.beforeElement packet operation group i).state) ?_ _ rfl
  intro d e hd
  rw [← hd, Cpu.visitByte, ScalarAccess.run]
  split
  · exact (accessed_guestRead d packet _ _ .load .load).state
  · exact (accessed_guestWrite d packet _ _ _ .store).state

end Visits

/-! ## The registers along the way -/

/-- The registers in front of element `i`: a load has filled the elements before it, a store has
changed nothing. -/
structure Along (c : Cpu) (packet : InstructionPacket) (operation : VectorMemoryOperation)
    (group : VectorRegisterGroup) (i : ℕ) (s : CpuState) : Prop where
  filled : operation.load = true →
    Filled c.state group (c.loadElementAt packet operation group) c.state.csrs.vstart.toNat i s
  kept : operation.load = false → s = c.state
  csrs : s.csrs = c.state.csrs ∨ s.csrs = c.state.csrs.markVectorStateDirty

section Along

variable {c : Cpu} {packet : InstructionPacket} {operation : VectorMemoryOperation}
  {group : VectorRegisterGroup} {i : ℕ} {s : CpuState}

theorem Along.maskedOff_eq (h : Along c packet operation group i s)
    (hg : MemoryGroup c operation group) (hi : i < (c.state.csrs.readValue .vl).toNat) :
    s.maskedOff operation.masked i = (operation.masked && !c.state.vectorState.maskBit i) := by
  have hlength := hg.length_le
  cases hload : operation.load with
  | true => exact (h.filled hload).maskedOff_eq (by omega) (hg.offset_le hload)
  | false =>
    rw [h.kept hload, CpuState.maskedOff, CpuState.vectorMaskBit,
      VectorRegisterGroup.maskBit_eq _ (by omega)]
    rfl

theorem markVectorStateDirty_twice (f : CsrFile) :
    f.markVectorStateDirty.markVectorStateDirty = f.markVectorStateDirty := by
  have hmstatus : f.markVectorStateDirty.markVectorStateDirty.mstatus =
      f.markVectorStateDirty.mstatus := by
    refine BitVec.eq_of_getLsbD_eq fun i hi ↦ ?_
    rw [CsrFile.getLsbD_mstatus_markVectorStateDirty _ hi,
      CsrFile.getLsbD_mstatus_markVectorStateDirty _ hi,
      CsrFile.vectorStateEnabled_markVectorStateDirty, Bool.or_assoc, Bool.or_self]
  rw [f.markVectorStateDirty.markVectorStateDirty_eq, hmstatus]

theorem csrs_putElement {value : BitVec 64}
    (hs : s.csrs = c.state.csrs ∨ s.csrs = c.state.csrs.markVectorStateDirty) :
    (s.putElement packet group value i).2.csrs = c.state.csrs ∨
      (s.putElement packet group value i).2.csrs = c.state.csrs.markVectorStateDirty := by
  rw [CpuState.putElement, CpuState.setVectorElement]
  cases group.writeElement s.vectorState i value with
  | none => exact hs
  | some vectorState =>
    right
    show s.csrs.markVectorStateDirty = _
    rcases hs with hs | hs
    · rw [hs]
    · rw [hs, markVectorStateDirty_twice]

theorem Along.put (h : Along c packet operation group i s) (hg : MemoryGroup c operation group)
    (hload : operation.load = true) (hstart : c.state.csrs.vstart.toNat ≤ i)
    (hi : i < c.configuration.vlmax) :
    (s.putElement packet group (c.loadElementAt packet operation group i) i).1 = none ∧
      Along c packet operation group (i + 1)
        (s.putElement packet group (c.loadElementAt packet operation group i) i).2 := by
  obtain ⟨hnone, hfilled⟩ := (h.filled hload).put hg.fits hstart (by rw [hg.vlmax]; exact hi) packet
  refine ⟨hnone, fun _ ↦ hfilled, fun hstore ↦ ?_, csrs_putElement h.csrs⟩
  rw [hload] at hstore
  cases hstore

theorem Along.keep (h : Along c packet operation group i s) (hg : MemoryGroup c operation group)
    (hstart : c.state.csrs.vstart.toNat ≤ i)
    (hE : operation.load = true →
      c.loadElementAt packet operation group i = c.elementValue group i) :
    Along c packet operation group (i + 1) s :=
  ⟨fun hload ↦ (h.filled hload).keep hg.fits hstart (hE hload), h.kept, h.csrs⟩

/-- A masked-off element accesses no memory. -/
theorem visitElement_inactive
    (h : Along c packet operation group i (c.beforeElement packet operation group i).state)
    (hg : MemoryGroup c operation group) (hstart : c.state.csrs.vstart.toNat ≤ i)
    (hi : i < (c.state.csrs.readValue .vl).toNat)
    (hoff : c.state.laneActive operation.masked i = false) :
    ∃ s, c.visitElement packet operation group (c.beforeElement packet operation group i) i =
        (none, { c.beforeElement packet operation group i with state := s }) ∧
      Along c packet operation group (i + 1) s := by
  have hmasked := h.maskedOff_eq hg hi
  have hlength := hg.length
  rw [maskedOff_iff.2 hoff] at hmasked
  rw [Cpu.visitElement, Cpu.memoryElement, if_pos hmasked, CpuState.skipElement]
  split
  · next hfill =>
    rw [Bool.and_eq_true] at hfill
    have hvalue : c.loadElementAt packet operation group i =
        agnosticValue operation.elementWidthBits := by
      rw [Cpu.loadElementAt, if_neg (by omega), if_pos (maskedOff_iff.2 hoff), if_pos hfill.2]
    obtain ⟨hnone, hput⟩ := h.put hg hfill.1 hstart (by omega)
    rw [hvalue] at hnone hput
    exact ⟨_, Prod.ext hnone rfl, hput⟩
  · next hfill =>
    refine ⟨_, rfl, h.keep hg hstart fun hload ↦ ?_⟩
    rw [hload, Bool.true_and, Bool.not_eq_true] at hfill
    rw [Cpu.loadElementAt, if_neg (by omega), if_pos (maskedOff_iff.2 hoff), hfill,
      if_neg Bool.false_ne_true]

/-- An active element: its bytes, and then, for a load, the register. -/
theorem visitElement_active
    (h : Along c packet operation group i (c.beforeElement packet operation group i).state)
    (hg : MemoryGroup c operation group) (hi : i < (c.state.csrs.readValue .vl).toNat)
    (hon : c.state.laneActive operation.masked i = true) :
    c.visitElement packet operation group (c.beforeElement packet operation group i) i =
      match (c.visitBytes packet operation group i (operation.elementWidthBits / 8)).1 with
      | some trap =>
        Cpu.trapAtElement i trap
          (c.beforeByte packet operation group i (operation.elementWidthBits / 8))
      | none =>
        if operation.load then
          (c.beforeByte packet operation group i (operation.elementWidthBits / 8)).onState
            ((c.beforeByte packet operation group i
              (operation.elementWidthBits / 8)).state.putElement
              packet group (c.loadedValue packet operation group i) i)
        else (none, c.beforeByte packet operation group i (operation.elementWidthBits / 8)) := by
  have hmasked := h.maskedOff_eq hg hi
  have hlength := hg.length
  have hon' : ¬(operation.masked && !c.state.vectorState.maskBit i) = true := by
    rw [maskedOff_iff, hon]
    decide
  rw [← hmasked] at hon'
  rw [Cpu.visitElement, Cpu.memoryElement, if_neg hon', Cpu.beforeByte]
  dsimp only
  cases hload : operation.load with
  | true =>
    rw [loadBytes_eq hload, Cpu.loadedValue, Cpu.loadElement, if_pos rfl, if_pos rfl]
    rfl
  | false =>
    have hvalue : (c.beforeElement packet operation group i).state.vectorElement group i =
        some (c.elementValue group i) := by
      rw [h.kept hload, CpuState.vectorElement,
        VectorRegisterGroup.readElement_eq hg.fits _ (by rw [hg.vlmax]; omega)]
      rfl
    rw [if_neg Bool.false_ne_true, if_neg Bool.false_ne_true, ← storeBytes_eq hload,
      Cpu.storeElement,
      hvalue]
    rfl

/-- An active element whose bytes are all moved. -/
theorem visitElement_moved
    (h : Along c packet operation group i (c.beforeElement packet operation group i).state)
    (hg : MemoryGroup c operation group) (hstart : c.state.csrs.vstart.toNat ≤ i)
    (hi : i < (c.state.csrs.readValue .vl).toNat)
    (hon : c.state.laneActive operation.masked i = true)
    (hnone : (c.visitBytes packet operation group i (operation.elementWidthBits / 8)).1 = none) :
    ∃ s, c.visitElement packet operation group (c.beforeElement packet operation group i) i =
        (none,
          { c.beforeByte packet operation group i
            (operation.elementWidthBits / 8) with state := s }) ∧
      Along c packet operation group (i + 1) s := by
  have hlength := hg.length
  rw [visitElement_active h hg hi hon, hnone]
  dsimp only
  split
  · next hload =>
    have hvalue : c.loadElementAt packet operation group i =
        c.loadedValue packet operation group i := by
      rw [Cpu.loadElementAt, if_neg (by omega), if_neg (by rw [maskedOff_iff, hon]; decide)]
    rw [visitBytes_state, ← hvalue]
    obtain ⟨hput, halong⟩ := h.put hg hload hstart (by omega)
    exact ⟨_, Prod.ext hput rfl, halong⟩
  · next hstore =>
    refine ⟨(c.beforeElement packet operation group i).state, ?_,
      h.keep hg hstart fun hload ↦ absurd hload hstore⟩
    rw [← visitBytes_state (j := operation.elementWidthBits / 8)]

/-- **One element**: it is masked off, all of its bytes are moved, or one of them traps. -/
theorem visitElements_cases
    (h : Along c packet operation group i (c.beforeElement packet operation group i).state)
    (hg : MemoryGroup c operation group) (hstart : c.state.csrs.vstart.toNat ≤ i)
    (hi : i < (c.state.csrs.readValue .vl).toNat)
    (hnone : (c.visitElements packet operation group i).1 = none) :
    (c.state.laneActive operation.masked i = false ∧
        ∃ s, c.visitElements packet operation group (i + 1) =
            (none, { c.beforeElement packet operation group i with state := s }) ∧
          Along c packet operation group (i + 1) s) ∨
      c.state.laneActive operation.masked i = true ∧
        ((c.visitBytes packet operation group i (operation.elementWidthBits / 8)).1 = none ∧
          (∃ s, c.visitElements packet operation group (i + 1) =
              (none,
                { c.beforeByte packet operation group i (operation.elementWidthBits / 8) with
                  state := s }) ∧
            Along c packet operation group (i + 1) s) ∨
        ∃ trap,
          (c.visitBytes packet operation group i (operation.elementWidthBits / 8)).1 = some trap ∧
            c.visitElements packet operation group (i + 1) =
              Cpu.trapAtElement i trap
                (c.beforeByte packet operation group i (operation.elementWidthBits / 8))) := by
  rw [visitElements_succ hstart hnone]
  cases hactive : c.state.laneActive operation.masked i with
  | false => exact Or.inl ⟨rfl, visitElement_inactive h hg hstart hi hactive⟩
  | true =>
    refine Or.inr ⟨rfl, ?_⟩
    cases hbytes : (c.visitBytes packet operation group i (operation.elementWidthBits / 8)).1 with
    | none => exact Or.inl ⟨rfl, visitElement_moved h hg hstart hi hactive hbytes⟩
    | some trap =>
      refine Or.inr ⟨trap, rfl, ?_⟩
      rw [visitElement_active h hg hi hactive, hbytes]

theorem visitElements_before {k : ℕ} (hstart : c.state.csrs.vstart.toNat ≤ i) (hle : i ≤ k)
    (h : (c.visitElements packet operation group k).1 = none) :
    (c.visitElements packet operation group i).1 = none :=
  forElements_before hstart hle h

/-- **The registers in front of an element**, if no element before it traps. -/
theorem along_beforeElement (hg : MemoryGroup c operation group)
    (hstart : c.state.csrs.vstart.toNat ≤ i) (hi : i ≤ (c.state.csrs.readValue .vl).toNat)
    (hnone : (c.visitElements packet operation group i).1 = none) :
    Along c packet operation group i (c.beforeElement packet operation group i).state := by
  obtain ⟨n, rfl⟩ := Nat.exists_eq_add_of_le hstart
  clear hstart
  induction n with
  | zero =>
    rw [Nat.add_zero, Cpu.beforeElement, visitElements_start]
    exact ⟨fun _ ↦ Filled.start_self _ _ _ _, fun _ ↦ rfl, Or.inl rfl⟩
  | succ n ih =>
    have hbefore := visitElements_before (Nat.le_add_right _ n)
      (Nat.add_le_add_left (Nat.le_succ n) _) hnone
    have halong := ih (by omega) hbefore
    rcases visitElements_cases halong hg (Nat.le_add_right _ n) (by omega) hbefore with
      ⟨-, s, hs, hnext⟩ | ⟨-, ⟨-, s, hs, hnext⟩ | ⟨trap, -, hs⟩⟩
    · rw [← Nat.add_assoc, Cpu.beforeElement, hs]
      exact hnext
    · rw [← Nat.add_assoc, Cpu.beforeElement, hs]
      exact hnext
    · rw [← Nat.add_assoc, hs] at hnone
      cases hnone

end Along

/-! ## The byte that traps -/

/-- Byte `j` of element `i` is accessed: the elements before it are complete and so are the bytes
before it. -/
structure Visits (c : Cpu) (packet : InstructionPacket) (operation : VectorMemoryOperation)
    (group : VectorRegisterGroup) (i j : ℕ) : Prop where
  start : c.state.csrs.vstart.toNat ≤ i
  length : i < (c.state.csrs.readValue .vl).toNat
  active : c.state.laneActive operation.masked i = true
  elements : (c.visitElements packet operation group i).1 = none
  width : j < operation.elementWidthBits / 8
  bytes : (c.visitBytes packet operation group i j).1 = none

/-- The access of byte `j` of element `i` succeeds. -/
structure Moves (c : Cpu) (packet : InstructionPacket) (operation : VectorMemoryOperation)
    (group : VectorRegisterGroup) (i j : ℕ) : Prop extends Visits c packet operation group i j where
  moved : (c.visitBytes packet operation group i (j + 1)).1 = none

/-- The access of byte `j` of element `i` traps. -/
structure TrapsAt (c : Cpu) (packet : InstructionPacket) (operation : VectorMemoryOperation)
    (group : VectorRegisterGroup) (i j : ℕ) (trap : Trap) : Prop
    extends Visits c packet operation group i j where
  byte : (c.visitBytes packet operation group i (j + 1)).1 = some trap

section Traps

variable {c : Cpu} {packet : InstructionPacket} {operation : VectorMemoryOperation}
  {group : VectorRegisterGroup} {k j : ℕ} {trap : Trap} {sequentialPc : BitVec 64}

theorem executeVectorMemory_of_group (hvs : c.state.csrs.vectorStateEnabled = true)
    (hg : c.memoryGroup operation = some group) :
    c.executeVectorMemory packet operation sequentialPc =
      Cpu.finishVector packet sequentialPc
        (runElements (c.visitElement packet operation group)
          (fun (d : Cpu) i ↦
            d.onState (d.state.putElement packet group
              (agnosticValue operation.elementWidthBits) i))
          c.state.csrs.vstart.toNat (c.state.csrs.readValue .vl).toNat c.configuration.vlmax
          (operation.load && tailAgnostic (c.state.csrs.readValue .vtype)) c) := by
  rw [Cpu.executeVectorMemory, hvs, hg]
  rfl

theorem TrapsAt.visitBytes_eq (h : TrapsAt c packet operation group k j trap) :
    c.visitBytes packet operation group k (operation.elementWidthBits / 8) =
      c.visitBytes packet operation group k (j + 1) := by
  have hsucc := visitBytes_succ h.bytes
  rw [hsucc]
  refine forElements_of_exit (Nat.zero_le j) h.width h.bytes (x := trap) ?_
  rw [← h.byte, hsucc]
  rfl

theorem TrapsAt.visitElements_eq (h : TrapsAt c packet operation group k j trap)
    (hg : MemoryGroup c operation group) :
    c.visitElements packet operation group (c.state.csrs.readValue .vl).toNat =
      Cpu.trapAtElement k trap (c.beforeByte packet operation group k (j + 1)) := by
  have halong := along_beforeElement hg h.start (Nat.le_of_lt h.length) h.elements
  have hvisit := visitElement_active halong hg h.length h.active
  rw [Cpu.beforeByte, h.visitBytes_eq, h.byte] at hvisit
  rw [Cpu.visitElements, forElements_of_exit h.start h.length h.elements (x := trap)]
  · exact hvisit
  · show (c.visitElement packet operation group (c.beforeElement packet operation group k) k).1 = _
    rw [hvisit]
    rfl

/-- **A vector access that traps** stops at a byte of one of its elements, and `vstart` is this
element. -/
theorem TrapsAt.execute_eq (h : TrapsAt c packet operation group k j trap)
    (hvs : c.state.csrs.vectorStateEnabled = true) (hg : c.memoryGroup operation = some group) :
    c.executeVectorMemory packet operation sequentialPc =
      (.failure trap packet.length,
        (Cpu.trapAtElement k trap (c.beforeByte packet operation group k (j + 1))).2) := by
  have hvisited := h.visitElements_eq (memoryGroup_eq_some hg)
  have hlt : c.state.csrs.vstart.toNat < (c.state.csrs.readValue .vl).toNat :=
    Nat.lt_of_le_of_lt h.start h.length
  rw [Cpu.visitElements] at hvisited
  rw [executeVectorMemory_of_group hvs hg, runElements, if_pos hlt]
  dsimp only
  rw [hvisited]
  rfl

theorem trapsAt_of_visitElements (hg : MemoryGroup c operation group)
    (h : (c.visitElements packet operation group (c.state.csrs.readValue .vl).toNat).1 =
      some trap) :
    ∃ k j, TrapsAt c packet operation group k j trap := by
  obtain ⟨k, hk, hk', hnone, hat⟩ := forElements_exit_at h
  have halong := along_beforeElement hg hk (Nat.le_of_lt hk') hnone
  have hexit : (c.visitElements packet operation group (k + 1)).1 = some trap := by
    rw [visitElements_succ hk hnone]
    exact (congrArg Prod.fst hat).trans h
  rcases visitElements_cases halong hg hk hk' hnone with
    ⟨-, s, hs, -⟩ | ⟨hactive, ⟨-, s, hs, -⟩ | ⟨t, ht, hs⟩⟩
  · rw [hs] at hexit
    cases hexit
  · rw [hs] at hexit
    cases hexit
  · rw [hs] at hexit
    obtain rfl : t = trap := Option.some.inj hexit
    obtain ⟨j, -, hj, hbytes, hbyte⟩ := forElements_exit_at ht
    refine ⟨k, j, ⟨hk, hk', hactive, hnone, hj, hbytes⟩, ?_⟩
    rw [visitBytes_succ hbytes]
    exact (congrArg Prod.fst hbyte).trans ht

theorem finishVector_trap (r : Option Trap × Cpu) :
    (Cpu.finishVector packet sequentialPc r).1.trap = r.1 := by
  obtain ⟨_ | t, d⟩ := r <;> rfl

/-- Filling the tail does not trap. -/
theorem fillTail_none (hg : MemoryGroup c operation group) {value : BitVec 64} {vl : ℕ} (d : Cpu) :
    (forElements (fun (d : Cpu) i ↦ d.onState (d.state.putElement packet group value i))
      (elementsFrom vl c.configuration.vlmax) d).1 = none := by
  refine forElements_none (fun d i hi ↦ putElement_none ?_ d.state value) d
  obtain ⟨location, hlocate, -⟩ := VectorRegisterGroup.locate_eq hg.fits
    (show i < group.configuration.vlmax by rw [hg.vlmax]; exact mem_elementsFrom hi)
  rw [hlocate]
  rfl

/-- A trap is one at an element. -/
theorem trapsAt_of_execute (hvs : c.state.csrs.vectorStateEnabled = true)
    (hgroup : c.memoryGroup operation = some group)
    (h : (c.executeVectorMemory packet operation sequentialPc).1.trap = some trap) :
    ∃ k j, TrapsAt c packet operation group k j trap := by
  have hg := memoryGroup_eq_some hgroup
  rw [executeVectorMemory_of_group hvs hgroup, finishVector_trap, runElements] at h
  split at h
  · dsimp only at h
    split at h
    · exact trapsAt_of_visitElements hg h
    · rw [fillTail_none hg] at h
      cases h
  · cases h

/-- The elements after the one that traps are not accessed, nor are its other bytes. -/
theorem TrapsAt.visits_le (h : TrapsAt c packet operation group k j trap)
    (hg : MemoryGroup c operation group) {i l : ℕ} (hv : Visits c packet operation group i l) :
    i < k ∨ i = k ∧ l ≤ j := by
  rcases Nat.lt_trichotomy i k with hlt | rfl | hgt
  · exact Or.inl hlt
  · refine Or.inr ⟨rfl, Nat.le_of_not_lt fun hlt ↦ ?_⟩
    have hbefore : (c.visitBytes packet operation group i (j + 1)).1 = none :=
      forElements_before (Nat.zero_le _) hlt hv.bytes
    rw [h.byte] at hbefore
    cases hbefore
  · have hbefore := visitElements_before (Nat.le_succ_of_le h.start) hgt hv.elements
    have halong := along_beforeElement hg h.start (Nat.le_of_lt h.length) h.elements
    rw [visitElements_succ h.start h.elements, visitElement_active halong hg h.length h.active,
      h.visitBytes_eq, h.byte] at hbefore
    cases hbefore

theorem TrapsAt.not_moves (h : TrapsAt c packet operation group k j trap) :
    ¬Moves c packet operation group k j := by
  intro hm
  have hmoved := hm.moved
  rw [h.byte] at hmoved
  cases hmoved

/-- The element at which the access is to be taken up again. -/
theorem vstart_trapAtElement {d : Cpu} (hk : k < 256) :
    (Cpu.trapAtElement k trap d).2.state.csrs.vstart.toNat = k := by
  show (d.state.csrs.setVectorStartForTrap (BitVec.ofNat 64 k)).vstart.toNat = k
  rw [CsrFile.setVectorStartForTrap, CsrFile.markVectorStateDirty_eq]
  show (BitVec.ofNat 64 k &&& 0xFF#64).toNat = k
  rw [show 0xFF#64 = (1#64 <<< 8) - 1#64 by decide,
    Bits.toNat_and_mask (BitVec.ofNat 64 k) (show 8 < 64 by decide), BitVec.toNat_ofNat]
  omega

end Traps

end Rvemu
