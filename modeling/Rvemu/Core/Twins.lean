import Rvemu.Core.BusActivity
import Rvemu.Core.Confinement
import Rvemu.Lib.Lockstep
import Rvemu.Memory.Sv39

/-!
# Harts that differ in their memory

Two harts with the same registers run the same instructions until an access tells their memories
apart.  `Blind` says of a relation of memories that no access does, in the states that a program
can put the hart in; then every step of the two harts is the same and leaves them with related
memories (`Blind.step`).  What the relation is, and why accesses do not see it, is not looked at
here: the instructions are gone through once, for all of them.
-/

set_option autoImplicit false

namespace Rvemu

open Lockstep

namespace Cpu

/-! ## The memory of a hart -/

def memory (c : Cpu) : Mmu × Bus := (c.mmu, c.bus)

def withMemory (c : Cpu) (m : Mmu × Bus) : Cpu := { c with mmu := m.1, bus := m.2 }

@[simp] theorem state_withMemory (c : Cpu) (m : Mmu × Bus) : (c.withMemory m).state = c.state := rfl

@[simp] theorem memory_withMemory (c : Cpu) (m : Mmu × Bus) : (c.withMemory m).memory = m := rfl

/-- The same hart, with memories in the relation. -/
structure Twins (R : Mmu × Bus → Mmu × Bus → Prop) (c c' : Cpu) : Prop where
  hart : c' = c.withMemory c'.memory
  memory : R c.memory c'.memory

/-- An operation that hands the memory on without looking at it. -/
def Oblivious {α : Type} (f : Cpu → α × Cpu) : Prop :=
  ∀ c m, f (c.withMemory m) = ((f c).1, (f c).2.withMemory m)

/-- The accesses a hart makes, with the width they are translated for. -/
inductive GuestOperation (width : AccessWidth) : BusOperation → Prop
  | read (type : AccessType) : GuestOperation width (readOperation width type)
  | write (value : BitVec 64) (type : AccessType) :
    GuestOperation width (writeOperation width value type)
  | loadReserved : GuestOperation width (loadReservedOperation width)
  | storeConditional (token : ReservationToken) (value : BitVec 64) :
    GuestOperation width (storeConditionalOperation token width value)
  | compareExchange (expected desired : BitVec 64) :
    GuestOperation width (compareExchangeOperation width expected desired)

/-- Memories that no access from an admitted state tells apart. -/
structure Blind (Admits : CpuState → Prop) (R : Mmu × Bus → Mmu × Bus → Prop) : Prop where
  change : ∀ {s s' : CpuState}, s'.privilege = s.privilege → UserChange s.csrs s'.csrs →
    Admits s → Admits s'
  access : ∀ {c c' : Cpu}, Admits c.state → Twins R c c' → ∀ (packet : InstructionPacket)
    (va : BitVec 64) (width : AccessWidth) (kind : MmuAccessKind) (cause : ExceptionCause)
    {op : BusOperation}, GuestOperation width op →
    Tied (Twins R) (c.guestAccess packet va width kind (c.accessContext kind) cause op)
      (c'.guestAccess packet va width kind (c'.accessContext kind) cause op)
  fence : ∀ {m m' : Mmu × Bus}, R m m' → ∀ (va : Option (BitVec 64)) (asid : Option (BitVec 16)),
    R (m.1.sfenceVma va asid, m.2) (m'.1.sfenceVma va asid, m'.2)

section Twins

variable {R : Mmu × Bus → Mmu × Bus → Prop} {c c' : Cpu}

theorem Twins.state (h : Twins R c c') : c'.state = c.state := by
  rw [h.hart]
  rfl

/-- A change of the registers. -/
theorem Twins.modifyState (h : Twins R c c') (f : CpuState → CpuState) :
    Twins R (c.modifyState f) (c'.modifyState f) where
  hart := by
    rw [h.hart]
    rfl
  memory := h.memory

theorem Twins.retire (h : Twins R c c') (packet : InstructionPacket) (pc : BitVec 64) :
    Tied (Twins R) (c.retire packet pc) (c'.retire packet pc) :=
  ⟨rfl, h.modifyState (·.setProgramCounter pc)⟩

theorem Twins.writeAndRetire (h : Twins R c c') (packet : InstructionPacket) (index : BitVec 5)
    (value pc : BitVec 64) :
    Tied (Twins R) (c.writeAndRetire packet index value pc)
      (c'.writeAndRetire packet index value pc) :=
  (h.modifyState _).retire packet pc

theorem Twins.illegal (h : Twins R c c') (packet : InstructionPacket) :
    Tied (Twins R) (c.illegal packet) (c'.illegal packet) :=
  ⟨rfl, h⟩

theorem Twins.executeCsr (h : Twins R c c') (packet : InstructionPacket)
    (instruction : DecodedInstruction) (request : CsrAccessRequest) (sequentialPc : BitVec 64) :
    Tied (Twins R) (c.executeCsr packet instruction request sequentialPc)
      (c'.executeCsr packet instruction request sequentialPc) := by
  rw [Cpu.executeCsr, Cpu.executeCsr, h.state]
  refine .ite (h.illegal packet) ?_
  apply writeAndRetire
  refine ⟨?_, h.memory⟩
  rw [h.hart]
  rfl

theorem Twins.countStep (h : Twins R c c') (result : StepResult) :
    Twins R (countStep result c) (countStep result c') := by
  have hcycle : c'.suppressCycleIncrement = c.suppressCycleIncrement := by
    rw [h.hart]
    rfl
  have hcounted : Twins R (if c.suppressCycleIncrement then c else c.incrementCycle)
      (if c.suppressCycleIncrement then c' else c'.incrementCycle) := by
    split
    · exact h
    · exact h.modifyState _
  rw [Cpu.countStep, Cpu.countStep, hcycle]
  generalize (if c.suppressCycleIncrement then c else c.incrementCycle) = d at hcounted ⊢
  generalize (if c.suppressCycleIncrement then c' else c'.incrementCycle) = d' at hcounted ⊢
  have hinstret : d'.suppressInstretIncrement = d.suppressInstretIncrement := by
    rw [hcounted.hart]
    rfl
  rw [hinstret]
  split
  · exact hcounted.modifyState _
  · exact hcounted

theorem Oblivious.tied {α : Type} {f : Cpu → α × Cpu} (hf : Oblivious f) (h : Twins R c c') :
    Tied (Twins R) (f c) (f c') := by
  have hsame : (f c).2.memory = c.memory := by
    have hown := hf c c.memory
    rw [show c.withMemory c.memory = c from rfl] at hown
    rw [hown]
    rfl
  rw [h.hart, hf]
  exact ⟨rfl, rfl, by rw [hsame]; exact h.memory⟩

end Twins

/-- Twins in an admitted state. -/
structure Level (Admits : CpuState → Prop) (R : Mmu × Bus → Mmu × Bus → Prop) (c c' : Cpu) :
    Prop where
  admits : Admits c.state
  twins : Twins R c c'

theorem Level.state {Admits : CpuState → Prop} {R : Mmu × Bus → Mmu × Bus → Prop} {c c' : Cpu}
    (h : Level Admits R c c') : c'.state = c.state :=
  h.twins.state

theorem state_guestAccess (c : Cpu) (packet : InstructionPacket) (va : BitVec 64)
    (width : AccessWidth) (kind : MmuAccessKind) (context : MmuContext) (cause : ExceptionCause)
    (op : BusOperation) :
    (c.guestAccess packet va width kind context cause op).2.state = c.state := by
  rw [guestAccess]
  rcases accessTranslated_cases _ packet va cause op (c.mmu.translate c.bus va width kind context).1
    with ⟨fault, -, hr⟩ | ⟨pa, -, hbus, -⟩
  · rw [hr]
  · rw [hbus]

namespace Blind

variable {Admits : CpuState → Prop} {R : Mmu × Bus → Mmu × Bus → Prop} (hblind : Blind Admits R)
  {c c' : Cpu} (h : Level Admits R c c') {packet : InstructionPacket}

include hblind h

theorem modifyState (f : CpuState → CpuState) (hprivilege : (f c.state).privilege =
    c.state.privilege) (hchange : UserChange c.state.csrs (f c.state).csrs) :
    Level Admits R (c.modifyState f) (c'.modifyState f) :=
  ⟨hblind.change hprivilege hchange h.admits, h.twins.modifyState f⟩

/-! ## Accesses -/

theorem guestAccess (packet : InstructionPacket) (va : BitVec 64) {width : AccessWidth}
    (kind : MmuAccessKind) (cause : ExceptionCause) {op : BusOperation}
    (hop : GuestOperation width op) :
    Tied (Level Admits R) (c.guestAccess packet va width kind (c.accessContext kind) cause op)
      (c'.guestAccess packet va width kind (c'.accessContext kind) cause op) :=
  (hblind.access h.admits h.twins packet va width kind cause hop).mono fun htwins ↦
    ⟨(state_guestAccess ..).symm ▸ h.admits, htwins⟩

theorem guestRead (packet : InstructionPacket) (va : BitVec 64) (width : AccessWidth)
    (kind : MmuAccessKind) (type : AccessType) :
    Tied (Level Admits R) (c.guestRead packet va width kind type)
      (c'.guestRead packet va width kind type) :=
  guestAccess hblind h packet va kind _ (.read type)

theorem guestWrite (packet : InstructionPacket) (va : BitVec 64) (width : AccessWidth)
    (value : BitVec 64) (type : AccessType) :
    Tied (Level Admits R) (c.guestWrite packet va width value type)
      (c'.guestWrite packet va width value type) :=
  guestAccess hblind h packet va .atomic _ (.write value type)

theorem guestLoadReserved (packet : InstructionPacket) (va : BitVec 64) (width : AccessWidth) :
    Tied (Level Admits R) (c.guestLoadReserved packet va width)
      (c'.guestLoadReserved packet va width) :=
  guestAccess hblind h packet va .load _ .loadReserved

theorem guestStoreConditional (packet : InstructionPacket) (token : ReservationToken)
    (va : BitVec 64) (width : AccessWidth) (value : BitVec 64) :
    Tied (Level Admits R) (c.guestStoreConditional packet token va width value)
      (c'.guestStoreConditional packet token va width value) :=
  guestAccess hblind h packet va .store _ (.storeConditional token value)

theorem guestCompareExchange (packet : InstructionPacket) (va : BitVec 64) (width : AccessWidth)
    (expected desired : BitVec 64) :
    Tied (Level Admits R) (c.guestCompareExchange packet va width expected desired)
      (c'.guestCompareExchange packet va width expected desired) :=
  guestAccess hblind h packet va .store _ (.compareExchange expected desired)

end Blind

/-! ## Scalar instructions -/

section Oblivious

variable (packet : InstructionPacket) (instruction : DecodedInstruction)
  (sequentialPc source1 source2 : BitVec 64)

theorem oblivious_jumpTo (target : BitVec 64) (commit : CpuState → CpuState) :
    Oblivious (·.jumpTo packet target commit) := by
  intro c m
  dsimp only [jumpTo]
  split <;> rfl

theorem oblivious_executeComputed (index : BitVec 5) (result : Option (BitVec 64)) :
    Oblivious (·.executeComputed packet index sequentialPc result) := by
  intro c m
  cases result <;> rfl

theorem oblivious_executeJalr :
    Oblivious (·.executeJalr packet instruction source1 sequentialPc) := by
  intro c m
  dsimp only [executeJalr]
  split
  · rfl
  · exact oblivious_jumpTo ..

theorem oblivious_executeBranch :
    Oblivious (·.executeBranch packet instruction source1 source2 sequentialPc) := by
  intro c m
  dsimp only [executeBranch]
  split
  · rfl
  · rfl
  · exact oblivious_jumpTo ..

theorem oblivious_commit (state : Option CpuState) :
    Oblivious (·.commit packet sequentialPc state) := by
  intro c m
  cases state <;> rfl

end Oblivious

namespace Blind

variable {Admits : CpuState → Prop} {R : Mmu × Bus → Mmu × Bus → Prop} {c c' : Cpu}
  {packet : InstructionPacket}

/-- Both harts fail with the trap of the access, or both go on. -/
theorem afterAccess {accessed accessed' : GuestAccessResult × Cpu}
    (ha : Tied (Level Admits R) accessed accessed')
    {next next' : GuestAccessResult → Cpu → StepResult × Cpu}
    (hnext : ∀ r d d', Level Admits R d d' → Tied (Twins R) (next r d) (next' r d')) :
    Tied (Twins R) (Cpu.afterAccess packet accessed next)
      (Cpu.afterAccess packet accessed' next') := by
  rw [Cpu.afterAccess, Cpu.afterAccess, ha.answer]
  split
  · exact ⟨rfl, ha.states.twins⟩
  · exact hnext _ _ _ ha.states

section Scalar

variable (hblind : Blind Admits R) (h : Level Admits R c c') (packet : InstructionPacket)
  (instruction : DecodedInstruction) (source1 source2 sequentialPc : BitVec 64)

include hblind h

theorem executeLoad :
    Tied (Twins R) (c.executeLoad packet instruction source1 sequentialPc)
      (c'.executeLoad packet instruction source1 sequentialPc) := by
  rw [Cpu.executeLoad, Cpu.executeLoad]
  split
  · exact h.twins.illegal packet
  · exact afterAccess (guestRead hblind h packet _ _ .load .load) fun _ _ _ hd ↦
      hd.twins.writeAndRetire ..

theorem executeStore :
    Tied (Twins R) (c.executeStore packet instruction source1 source2 sequentialPc)
      (c'.executeStore packet instruction source1 source2 sequentialPc) := by
  rw [Cpu.executeStore, Cpu.executeStore]
  split
  · exact h.twins.illegal packet
  · exact afterAccess (guestWrite hblind h packet _ _ source2 .store) fun _ _ _ hd ↦
      hd.twins.retire ..

theorem executeLoadReserved (width : AccessWidth) (word : Bool) (address : BitVec 64) :
    Tied (Twins R) (c.executeLoadReserved packet instruction width word address sequentialPc)
      (c'.executeLoadReserved packet instruction width word address sequentialPc) := by
  rw [Cpu.executeLoadReserved, Cpu.executeLoadReserved]
  refine .ite (h.twins.illegal packet) (.ite ⟨rfl, h.twins⟩ ?_)
  exact afterAccess (guestLoadReserved hblind h packet address width) fun _ _ _ hd ↦
    (hd.twins.modifyState _).writeAndRetire ..

theorem executeStoreConditional (width : AccessWidth) (address : BitVec 64) :
    Tied (Twins R)
      (c.executeStoreConditional packet instruction width address source2 sequentialPc)
      (c'.executeStoreConditional packet instruction width address source2 sequentialPc) := by
  have hgiven : Level Admits R (c.modifyState (·.setReservationToken {}))
      (c'.modifyState (·.setReservationToken {})) :=
    modifyState hblind h (·.setReservationToken {}) rfl (.refl _)
  rw [Cpu.executeStoreConditional, Cpu.executeStoreConditional, h.state]
  refine .ite ⟨rfl, hgiven.twins⟩ ?_
  exact afterAccess (guestStoreConditional hblind hgiven packet _ address width source2)
    fun _ _ _ hd ↦ hd.twins.writeAndRetire ..

theorem exchangeLoop (operation : AtomicOperation) (address : BitVec 64) (width : AccessWidth)
    (word : Bool) (original : BitVec 64) (attempts : ℕ) :
    Option.Rel (Tied (Level Admits R))
      (c.exchangeLoop packet operation address source2 width word original attempts)
      (c'.exchangeLoop packet operation address source2 width word original attempts) := by
  induction attempts generalizing c c' original with
  | zero => exact .none
  | succ attempts ih =>
    rw [Cpu.exchangeLoop, Cpu.exchangeLoop]
    have hexchange := guestCompareExchange hblind h packet address width original
      (executeAtomicOperation operation original source2 word)
    rw [hexchange.answer]
    split
    · exact .some ⟨rfl, hexchange.states⟩
    · exact ih hexchange.states _

theorem executeAmo (operation : AtomicOperation) (width : AccessWidth) (word : Bool)
    (address : BitVec 64) :
    Tied (Twins R)
      (c.executeAmo packet instruction operation width word address source2 sequentialPc)
      (c'.executeAmo packet instruction operation width word address source2 sequentialPc) := by
  rw [Cpu.executeAmo, Cpu.executeAmo]
  refine .ite ⟨rfl, h.twins⟩ (afterAccess (guestRead hblind h packet address width .atomic .atomic)
    fun r d d' hd ↦ ?_)
  have hloop := exchangeLoop hblind hd packet source2 operation address width word r.access.value
    Cpu.exchangeAttempts
  revert hloop
  generalize d.exchangeLoop .. = looped
  generalize d'.exchangeLoop .. = looped'
  intro hloop
  cases hloop with
  | none => exact hd.twins.illegal packet
  | @some last last' hlast =>
    obtain ⟨⟨exchanged, value⟩, e⟩ := last
    obtain ⟨⟨exchanged', value'⟩, e'⟩ := last'
    obtain ⟨rfl, rfl⟩ := Prod.mk.inj hlast.answer
    have hended : Tied (Level Admits R) (exchanged', e) (exchanged', e') := ⟨rfl, hlast.states⟩
    exact afterAccess hended fun _ _ _ hd ↦ hd.twins.writeAndRetire ..

theorem executeAtomic :
    Tied (Twins R) (c.executeAtomic packet instruction source1 source2 sequentialPc)
      (c'.executeAtomic packet instruction source1 source2 sequentialPc) := by
  have hillegal := h.twins.illegal packet
  rw [Cpu.executeAtomic, Cpu.executeAtomic]
  refine .ite hillegal (.ite ?_ (.ite ?_ ?_))
  · exact executeLoadReserved hblind h ..
  · exact executeStoreConditional hblind h ..
  · split
    · exact hillegal
    · exact executeAmo hblind h ..

theorem executeSfenceVma :
    Tied (Twins R) (c.executeSfenceVma packet instruction source1 sequentialPc)
      (c'.executeSfenceVma packet instruction source1 sequentialPc) := by
  rw [Cpu.executeSfenceVma, Cpu.executeSfenceVma, h.state]
  refine .ite (h.twins.illegal packet) (Twins.retire ⟨?_, ?_⟩ packet sequentialPc)
  · rw [h.twins.hart]
    rfl
  · exact hblind.fence h.twins.memory _ _

theorem executePrivileged :
    Tied (Twins R) (c.executePrivileged packet instruction source1 sequentialPc)
      (c'.executePrivileged packet instruction source1 sequentialPc) := by
  have hillegal := h.twins.illegal packet
  rw [Cpu.executePrivileged, Cpu.executePrivileged, h.state]
  refine .ite (executeSfenceVma hblind h ..) (.ite ⟨rfl, h.twins⟩ (.ite ⟨rfl, h.twins⟩ ?_))
  refine .ite (.ite hillegal ⟨rfl, h.twins.modifyState (·.resumeAt _)⟩) ?_
  refine .ite (.ite hillegal ⟨rfl, h.twins.modifyState (·.resumeAt _)⟩) ?_
  exact .ite (.ite hillegal ((h.twins.modifyState _).retire ..)) hillegal

theorem executeSystem :
    Tied (Twins R) (c.executeSystem packet instruction source1 sequentialPc)
      (c'.executeSystem packet instruction source1 sequentialPc) := by
  rw [Cpu.executeSystem, Cpu.executeSystem]
  refine .ite (executePrivileged hblind h ..) ?_
  split
  · exact h.twins.illegal packet
  · rw [Cpu.csrRequest, Cpu.csrRequest, h.state]
    exact h.twins.executeCsr ..

theorem executeFloating :
    Tied (Twins R) (c.executeFloating packet instruction sequentialPc)
      (c'.executeFloating packet instruction sequentialPc) := by
  have hillegal := h.twins.illegal packet
  have hcommit (state : Option CpuState) :=
    (oblivious_commit packet sequentialPc state).tied h.twins
  rw [Cpu.executeFloating, Cpu.executeFloating, h.state]
  refine .ite hillegal (.ite ?_ (.ite ?_ (.ite (hcommit _) (.ite hillegal (hcommit _)))))
  · rw [Cpu.executeFloatingLoad, Cpu.executeFloatingLoad, h.state]
    split
    · exact hillegal
    · exact afterAccess (guestRead hblind h packet _ _ .load .load) fun _ _ _ hd ↦
        (hd.twins.modifyState _).retire ..
  · rw [Cpu.executeFloatingStore, Cpu.executeFloatingStore, h.state]
    split
    · exact hillegal
    · exact afterAccess (guestWrite hblind h packet _ _ _ .store) fun _ _ _ hd ↦
        hd.twins.retire ..

end Scalar

end Blind

/-! ## Vector instructions -/

section Elements

variable {σ τ ε : Type} {I : σ → τ → Prop} {body tail : σ → ℕ → Option ε × σ}
  {body' tail' : τ → ℕ → Option ε × τ} {s : σ} {s' : τ}

theorem tied_forElements (hbody : ∀ s s' e, I s s' → Tied I (body s e) (body' s' e)) (l : List ℕ)
    (h : I s s') : Tied I (forElements body l s) (forElements body' l s') := by
  induction l generalizing s s' with
  | nil => exact ⟨rfl, h⟩
  | cons e rest ih =>
    have hfirst := hbody s s' e h
    rw [forElements, forElements, hfirst.answer]
    split
    · exact ⟨rfl, hfirst.states⟩
    · exact ih hfirst.states

theorem tied_runElements (hbody : ∀ s s' e, I s s' → Tied I (body s e) (body' s' e))
    (htail : ∀ s s' e, I s s' → Tied I (tail s e) (tail' s' e)) (start vl vlmax : ℕ)
    (agnostic : Bool) (h : I s s') :
    Tied I (runElements body tail start vl vlmax agnostic s)
      (runElements body' tail' start vl vlmax agnostic s') := by
  have hvisited := tied_forElements hbody (elementsFrom start vl) h
  rw [runElements, runElements]
  dsimp only
  rw [hvisited.answer]
  exact .ite (.ite hvisited (tied_forElements htail _ hvisited.states)) ⟨rfl, h⟩

end Elements

theorem userChange_putElement (s : CpuState) (packet : InstructionPacket)
    (group : VectorRegisterGroup) (value : BitVec 64) (element : ℕ) :
    (s.putElement packet group value element).2.privilege = s.privilege ∧
      UserChange s.csrs (s.putElement packet group value element).2.csrs := by
  rw [CpuState.putElement]
  split
  · exact ⟨rfl, .refl _⟩
  · next hput =>
    obtain ⟨v, -, rfl⟩ := setVectorElement_eq_some hput
    exact ⟨rfl, .markVectorStateDirty _⟩

theorem tied_finishVector {R : Mmu × Bus → Mmu × Bus → Prop} {r r' : Option Trap × Cpu}
    (h : Tied (Twins R) r r') (packet : InstructionPacket) (sequentialPc : BitVec 64) :
    Tied (Twins R) (finishVector packet sequentialPc r) (finishVector packet sequentialPc r') := by
  obtain ⟨exit, d⟩ := r
  obtain ⟨exit', d'⟩ := r'
  obtain rfl : exit' = exit := h.answer
  cases exit' with
  | some trap => exact ⟨rfl, h.states⟩
  | none => exact (h.states.modifyState _).retire ..

namespace Blind

variable {Admits : CpuState → Prop} {R : Mmu × Bus → Mmu × Bus → Prop} {c c' : Cpu}
  (hblind : Blind Admits R) (h : Level Admits R c c') (packet : InstructionPacket)
  (sequentialPc : BitVec 64)

include hblind h

theorem loadBytes (address : BitVec 64) (n : ℕ) :
    Tied (fun s s' : BitVec 64 × Cpu ↦ s'.1 = s.1 ∧ Level Admits R s.2 s'.2)
      (Cpu.loadBytes packet address n c) (Cpu.loadBytes packet address n c') := by
  refine tied_forElements (fun s s' byte hs ↦ ?_) _ ⟨rfl, h⟩
  have hread := guestRead hblind hs.2 packet (address + BitVec.ofNat 64 byte) .byte .load .load
  dsimp only
  rw [hread.answer, hs.1]
  exact ⟨rfl, rfl, hread.states⟩

theorem storeBytes (address value : BitVec 64) (n : ℕ) :
    Tied (Level Admits R) (Cpu.storeBytes packet address value n c)
      (Cpu.storeBytes packet address value n c') := by
  refine tied_forElements (fun d d' byte hd ↦ ?_) _ h
  have hwrite := guestWrite hblind hd packet (address + BitVec.ofNat 64 byte) .byte
    (value >>> (byte * 8)) .store
  exact ⟨congrArg GuestAccessResult.trap hwrite.answer, hwrite.states⟩

theorem trapAtElement (element : ℕ) (trap : Trap) :
    Tied (Level Admits R) (Cpu.trapAtElement element trap c)
      (Cpu.trapAtElement element trap c') :=
  ⟨rfl, modifyState hblind h
    (·.modifyCsrs (·.setVectorStartForTrap (BitVec.ofNat 64 element))) rfl
    (.of_mark_vector rfl rfl)⟩

theorem onState (changed : Option Trap × CpuState)
    (hprivilege : changed.2.privilege = c.state.privilege)
    (hchange : UserChange c.state.csrs changed.2.csrs) :
    Tied (Level Admits R) (c.onState changed) (c'.onState changed) :=
  ⟨rfl, modifyState hblind h (fun _ ↦ changed.2) hprivilege hchange⟩

theorem putElement (group : VectorRegisterGroup) (value : BitVec 64) (element : ℕ) :
    Tied (Level Admits R) (c.onState (c.state.putElement packet group value element))
      (c'.onState (c'.state.putElement packet group value element)) := by
  obtain ⟨hprivilege, hchange⟩ := userChange_putElement c.state packet group value element
  rw [h.state]
  exact onState hblind h _ hprivilege hchange

theorem memoryElement (operation : VectorMemoryOperation) (vtype : BitVec 64)
    (group : VectorRegisterGroup) (base stride : BitVec 64) (element : ℕ) :
    Tied (Level Admits R)
      (Cpu.memoryElement packet operation vtype group base stride c element)
      (Cpu.memoryElement packet operation vtype group base stride c' element) := by
  rw [Cpu.memoryElement, Cpu.memoryElement, h.state]
  refine .ite ?_ (.ite ?_ ?_)
  · rw [CpuState.skipElement]
    split
    · have hput :=
        putElement hblind h packet group (agnosticValue operation.elementWidthBits) element
      rw [h.state] at hput
      exact hput
    · exact onState hblind h (none, c.state) rfl (.refl _)
  · have hloaded := loadBytes hblind h packet (base + BitVec.ofNat 64 element * stride)
      (operation.elementWidthBits / 8)
    rw [Cpu.loadElement, Cpu.loadElement, hloaded.answer, hloaded.states.1]
    split
    · exact trapAtElement hblind hloaded.states.2 element _
    · exact putElement hblind hloaded.states.2 packet group _ element
  · rw [Cpu.storeElement, Cpu.storeElement, h.state]
    split
    · exact ⟨rfl, h⟩
    · next value _ =>
      have hstored := storeBytes hblind h packet (base + BitVec.ofNat 64 element * stride) value
        (operation.elementWidthBits / 8)
      dsimp only
      rw [hstored.answer]
      split
      · exact trapAtElement hblind hstored.states element _
      · exact ⟨rfl, hstored.states⟩

theorem executeVectorMemory (operation : VectorMemoryOperation) :
    Tied (Twins R) (c.executeVectorMemory packet operation sequentialPc)
      (c'.executeVectorMemory packet operation sequentialPc) := by
  have hillegal := h.twins.illegal packet
  rw [Cpu.executeVectorMemory, Cpu.executeVectorMemory, Cpu.memoryGroup, Cpu.memoryGroup, h.state]
  refine .ite hillegal ?_
  split
  · exact hillegal
  · refine tied_finishVector (Tied.mono (R := Level Admits R) ?_ (·.twins)) packet sequentialPc
    refine tied_runElements (fun d d' element hd ↦ ?_) (fun d d' element hd ↦ ?_) _ _ _ _ h
    · exact memoryElement hblind hd packet operation _ _ _ _ element
    · exact putElement hblind hd packet _ _ element

end Blind

/-- Vector arithmetic works on registers. -/
theorem Twins.executeOpV {R : Mmu × Bus → Mmu × Bus → Prop} {c c' : Cpu} (h : Twins R c c')
    (packet : InstructionPacket) (instruction : DecodedInstruction) (sequentialPc : BitVec 64) :
    Tied (Twins R) (c.executeOpV packet instruction sequentialPc)
      (c'.executeOpV packet instruction sequentialPc) := by
  have hillegal := h.illegal packet
  have honState (changed : Option Trap × CpuState) :
      Tied (Twins R) (c.onState changed) (c'.onState changed) :=
    ⟨rfl, h.modifyState fun _ ↦ changed.2⟩
  have honFloating (changed : Option Trap × CpuState × BitVec 8) :
      Tied (Twins R) (c.onFloatingState changed) (c'.onFloatingState changed) := by
    obtain ⟨exit, s, flags⟩ := changed
    cases exit with
    | some trap => exact ⟨rfl, h.modifyState fun _ ↦ s⟩
    | none =>
      exact ⟨rfl, h.modifyState fun _ ↦ s.modifyCsrs (·.accrueFloatingExceptionFlags flags)⟩
  have hconfigure (vtype vl : BitVec 64) :
      Twins R (c.commitConfiguration vtype vl) (c'.commitConfiguration vtype vl) :=
    h.modifyState _
  rw [Cpu.executeOpV, Cpu.executeOpV]
  split
  · rw [executeVectorFloating, executeVectorFloating, h.state]
    refine .ite hillegal (.ite hillegal ?_)
    split
    · exact .ite hillegal (tied_finishVector (honFloating _) ..)
    · exact hillegal
  · split
    · rw [executeVectorInteger, executeVectorInteger, h.state]
      refine .ite hillegal ?_
      dsimp only
      split
      · exact hillegal
      · exact .ite hillegal (tied_finishVector (honState _) ..)
    · rw [executeVectorConfiguration, executeVectorConfiguration, h.state]
      refine .ite hillegal ?_
      dsimp only
      split
      · exact hillegal
      · exact .ite hillegal ((hconfigure ..).retire ..)
      · exact .ite ((hconfigure ..).writeAndRetire ..) ((hconfigure ..).writeAndRetire ..)

/-! ## A step -/

namespace Blind

variable {Admits : CpuState → Prop} {R : Mmu × Bus → Mmu × Bus → Prop} {c c' : Cpu}
  (hblind : Blind Admits R) (h : Level Admits R c c') (packet : InstructionPacket)

include hblind h

theorem executeStandard :
    Tied (Twins R) (c.executeStandard packet) (c'.executeStandard packet) := by
  have hillegal := h.twins.illegal packet
  have hcomputed (index : BitVec 5) (pc : BitVec 64) (result : Option (BitVec 64)) :=
    (oblivious_executeComputed packet pc index result).tied h.twins
  rw [Cpu.executeStandard, Cpu.executeStandard, h.state]
  refine .ite (h.twins.executeOpV ..) ?_
  refine .ite (h.twins.writeAndRetire ..) (.ite (h.twins.writeAndRetire ..) ?_)
  refine .ite ((oblivious_jumpTo packet _ _).tied h.twins) ?_
  refine .ite ((oblivious_executeJalr packet _ _ _).tied h.twins) ?_
  refine .ite ((oblivious_executeBranch packet _ _ _ _).tied h.twins) ?_
  refine .ite (executeLoad hblind h ..) (.ite (executeStore hblind h ..) ?_)
  refine .ite (hcomputed ..) (.ite (hcomputed ..) (.ite (hcomputed ..) (.ite (hcomputed ..) ?_)))
  refine .ite (executeAtomic hblind h ..) (.ite ?_ (.ite (executeFloating hblind h ..) ?_))
  · rw [Cpu.executeLoadStoreFp, Cpu.executeLoadStoreFp]
    split
    · exact executeVectorMemory hblind h ..
    · exact executeFloating hblind h ..
  · refine .ite (.ite (h.twins.retire ..) hillegal) (.ite (executeSystem hblind h ..) hillegal)

theorem execute : Tied (Twins R) (c.execute packet) (c'.execute packet) := by
  rw [Cpu.execute, Cpu.execute]
  refine .ite ?_ (executeStandard hblind h packet)
  split
  · exact h.twins.illegal packet
  · exact (executeStandard hblind h _).map (reportCompressed packet)

theorem fetchUpper (pc : BitVec 64) (lower : BitVec 16) :
    Tied (Level Admits R) (c.fetchUpper pc lower) (c'.fetchUpper pc lower) := by
  have hread := guestRead hblind h { programCounter := pc } (pc + 2#64) .halfWord
    .instructionFetch .instructionFetch
  rw [Cpu.fetchUpper, Cpu.fetchUpper]
  dsimp only
  rw [hread.answer]
  refine .ite ⟨rfl, h⟩ ?_
  split <;> exact ⟨rfl, hread.states⟩

theorem fetch : Tied (Level Admits R) c.fetch c'.fetch := by
  have hread := guestRead hblind h { programCounter := c.state.programCounter }
    c.state.programCounter .halfWord .instructionFetch .instructionFetch
  rw [Cpu.fetch, Cpu.fetch, h.state]
  dsimp only
  rw [hread.answer]
  refine .ite ⟨rfl, h⟩ ?_
  split
  · exact ⟨rfl, hread.states⟩
  · exact .ite ⟨rfl, hread.states⟩ (fetchUpper hblind hread.states _ _)

theorem stepAwake : Tied (Twins R) c.stepAwake c'.stepAwake := by
  have hfetch := fetch hblind h
  rw [Cpu.stepAwake, Cpu.stepAwake, hfetch.answer]
  split
  · exact ⟨rfl, hfetch.states.twins.modifyState (·.modifyCsrs (·.incrementCycle))⟩
  · next packet _ =>
    have hdone := execute hblind hfetch.states packet
    refine ⟨hdone.answer, ?_⟩
    dsimp only
    rw [hdone.answer]
    exact hdone.states.countStep _

/-- **No step tells twins apart.** -/
theorem step : Tied (Twins R) c.step c'.step := by
  have hreset : Level Admits R
      { c with suppressCycleIncrement := false, suppressInstretIncrement := false }
      { c' with suppressCycleIncrement := false, suppressInstretIncrement := false } := by
    refine ⟨h.admits, ?_, h.twins.memory⟩
    rw [h.twins.hart]
    rfl
  rw [h.state] at hreset
  rw [Cpu.step, Cpu.step, h.state]
  refine .ite (.ite ⟨rfl, hreset.twins.modifyState (·.modifyCsrs (·.incrementCycle))⟩ ?_)
    (stepAwake hblind hreset)
  exact stepAwake hblind (modifyState hblind hreset (·.setWaitingForInterrupt false) rfl (.refl _))

end Blind

end Cpu

end Rvemu
