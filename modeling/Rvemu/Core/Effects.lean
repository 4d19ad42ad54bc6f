import Rvemu.Core.Cpu
import Rvemu.Memory.Translate
import Mathlib.Logic.Relation

/-!
# What an instruction can do

The inversion of the executors.  Everything an instruction other than a system instruction does to
the hart is a sequence of `Update`s; `Retired` adds CSR accesses and trap returns, each of which is
an instruction of its own.  `Executed` says how an instruction ends: it retires with such a change,
or it traps and leaves the hart alone but for the reservation token, and memory alone but for A and
D bits.  Vector accesses are the exception: they may trap in the middle.

All later results about steps are proved by cases on these relations.
-/

set_option autoImplicit false

namespace Rvemu

open Relation

/-! ## Updates of the hart -/

/-- The configurations a `vset` instruction may commit: `vill`, a supported `vtype` with a `vl` that
fits, or another `vtype` of the same capacity with the old `vl`. -/
def Committable (c : CsrFile) (vtype vl : BitVec 64) : Prop :=
  (vtype = vtypeVill ∧ vl = 0#64) ∨
  ((decodeVectorConfiguration vtype).valid = true ∧
    vl.toNat ≤ (decodeVectorConfiguration vtype).vlmax) ∨
  ((decodeVectorConfiguration c.vtype).valid = true ∧
    (decodeVectorConfiguration vtype).valid = true ∧
    (decodeVectorConfiguration c.vtype).vlmax = (decodeVectorConfiguration vtype).vlmax ∧ vl = c.vl)

/-- One change of the hart by an instruction that is no system instruction. -/
inductive Update (s : CpuState) : CpuState → Prop
  | integer (index : BitVec 5) (value : BitVec 64) : Update s (s.setInteger index value)
  | floating (h : s.csrs.floatingStateEnabled = true) (index : BitVec 5) (value : BitVec 64) :
    Update s (s.setFloating index value)
  | flags (flags : BitVec 8) : Update s (s.accrueFlags flags)
  | element (h : s.csrs.vectorStateEnabled = true) {group : VectorRegisterGroup} {index : ℕ}
    {value : BitVec 64} {s' : CpuState} (hs : s.setVectorElement group index value = some s') :
    Update s s'
  | startAt (h : s.csrs.vectorStateEnabled = true) (element : BitVec 64) :
    Update s (s.modifyCsrs (·.setVectorStartForTrap element))
  | clearStart (h : s.csrs.vectorStateEnabled = true) :
    Update s (s.modifyCsrs (·.clearVectorStartAfterInstruction))
  | configuration (h : s.csrs.vectorStateEnabled = true) {vtype vl : BitVec 64}
    (hc : Committable s.csrs vtype vl) :
    Update s (s.modifyCsrs (·.commitVectorConfiguration vtype vl))
  | token (token : ReservationToken) : Update s (s.setReservationToken token)
  | waiting (value : Bool) : Update s (s.setWaitingForInterrupt value)
  | jump {target : BitVec 64} (h : target.getLsbD 0 = false) : Update s (s.setProgramCounter target)

/-- Any number of updates. -/
abbrev Updates : CpuState → CpuState → Prop := ReflTransGen Update

theorem Update.single {s s' : CpuState} (h : Update s s') : Updates s s' := ReflTransGen.single h

/-- The CSR access that the encoding asks for: CSRRW reads unless the destination is x0, the others
write unless the source is x0 or zero. -/
def CsrRequested (bits : BitVec 32) (s : CpuState) (request : CsrAccessRequest) : Prop :=
  let instruction := decode bits
  instruction.opcode = 0x73#7 ∧ ∃ operation immediate,
    csrOperation instruction.function3 = some (operation, immediate) ∧
    request =
      { address := bits.extractLsb' 20 12
        privilege := s.privilege
        read := !(operation == .replace) || instruction.destination != 0#5
        write := operation == .replace || instruction.source1 != 0#5
        operation
        operand :=
          if immediate then instruction.source1.setWidth 64
          else s.integer instruction.source1 }

theorem CsrRequested.privilege {bits : BitVec 32} {s : CpuState} {request : CsrAccessRequest}
    (h : CsrRequested bits s request) : request.privilege = s.privilege := by
  obtain ⟨-, operation, immediate, -, rfl⟩ := h
  rfl

/-- The change of the hart by the instruction `bits` when it retires. -/
inductive Retired (bits : BitVec 32) (s : CpuState) : CpuState → Prop
  | updates {s' : CpuState} (h : Updates s s') : Retired bits s s'
  | csr {request : CsrAccessRequest} (hr : CsrRequested bits s request)
    (hs : (s.csrs.access request).1.success = true) (index : BitVec 5) (value : BitVec 64)
    {target : BitVec 64} (ht : target.getLsbD 0 = false) :
    Retired bits s ((({ s with csrs := (s.csrs.access request).2 } : CpuState).setInteger index
      value).setProgramCounter target)
  | machineReturn (h : s.privilege = .machine) :
    Retired bits s (s.resumeAt s.csrs.returnFromMachine)
  | supervisorReturn (h : s.csrs.supervisorReturnAllowed s.privilege = true) :
    Retired bits s (s.resumeAt s.csrs.returnFromSupervisor)

/-! ## How an instruction ends -/

/-- The vector loads and stores. -/
def isVectorMemory (bits : BitVec 32) : Bool :=
  ((decode bits).opcode == 0x07#7 || (decode bits).opcode == 0x27#7)
    && (decodeVectorMemoryOperation bits ((decode bits).opcode == 0x07#7)).isSome

/-- A trap that belongs to this instruction; a jump target is never odd. -/
structure TrapOf (packet : InstructionPacket) (trap : Trap) : Prop where
  programCounter : trap.programCounter = packet.programCounter
  cause : trap.cause ≠ .instructionAddressMisaligned

/-- The page table the hart translates with. -/
def Cpu.root (c : Cpu) : BitVec 64 := satpRootPpn c.state.csrs.satp

/-- The outcomes of executing an instruction. -/
inductive Executed (packet : InstructionPacket) (c : Cpu) : StepResult × Cpu → Prop
  | retired {c' : Cpu} (h : Retired packet.bits c.state c'.state) :
    Executed packet c (.success packet.length, c')
  | trapped {trap : Trap} {c' : Cpu} (ht : TrapOf packet trap) {t : ReservationToken}
    (hs : c'.state = c.state.setReservationToken t) (hb : AdUpdated c.root c.bus c'.bus) :
    Executed packet c (.failure trap packet.length, c')
  | interrupted {trap : Trap} {c' : Cpu} (hv : isVectorMemory packet.bits = true)
    (ht : TrapOf packet trap) (h : Updates c.state c'.state) :
    Executed packet c (.failure trap packet.length, c')

theorem trapOf_illegalTrap (packet : InstructionPacket) : TrapOf packet (illegalTrap packet) :=
  ⟨rfl, by simp [illegalTrap, makeTrap]⟩

theorem trapOf_makeTrap (packet : InstructionPacket) {cause : ExceptionCause} (value : BitVec 64)
    (h : cause ≠ .instructionAddressMisaligned) : TrapOf packet (makeTrap packet cause value) :=
  ⟨rfl, h⟩

namespace Executed

variable {packet : InstructionPacket} {c : Cpu}

/-- A trap that changes nothing at all. -/
theorem failure {trap : Trap} (ht : TrapOf packet trap) :
    Executed packet c (.failure trap packet.length, c) :=
  trapped ht (t := c.state.reservationToken) rfl (AdUpdated.refl _ _)

theorem illegal (packet : InstructionPacket) (c : Cpu) : Executed packet c (c.illegal packet) :=
  failure (trapOf_illegalTrap packet)

theorem retire {d : Cpu} (h : Updates c.state d.state) {target : BitVec 64}
    (ht : target.getLsbD 0 = false) : Executed packet c (d.retire packet target) :=
  retired (.updates (h.tail (.jump ht)))

theorem writeAndRetire {d : Cpu} (h : Updates c.state d.state) (index : BitVec 5)
    (value : BitVec 64) {target : BitVec 64} (ht : target.getLsbD 0 = false) :
    Executed packet c (d.writeAndRetire packet index value target) :=
  retire (d := d.modifyState (·.setInteger index value)) (h.tail (.integer index value)) ht

end Executed

/-! ## Memory accesses -/

/-- A guest access leaves the hart alone; when it traps, it leaves memory alone up to A and D. -/
structure Accessed (packet : InstructionPacket) (c : Cpu) (r : GuestAccessResult × Cpu) : Prop where
  state : r.2.state = c.state
  trap : ∀ t, r.1.trap = some t → TrapOf packet t ∧ AdUpdated c.root c.bus r.2.bus

theorem pageFaultCause_ne (kind : MmuAccessKind) :
    pageFaultCause kind ≠ .instructionAddressMisaligned := by
  cases kind <;> decide

theorem accessFaultCause_ne (kind : MmuAccessKind) :
    accessFaultCause kind ≠ .instructionAddressMisaligned := by
  cases kind <;> decide

/-- The fault of a translation is one of the page faults. -/
theorem translate_error {m : Mmu} {b : Bus} {va : BitVec 64} {w : AccessWidth}
    {kind : MmuAccessKind} {context : MmuContext} {fault : MmuFault}
    (h : (m.translate b va w kind context).1 = .error fault) : fault = pageFault kind va := by
  rcases translate_cases m b va w kind context with
    hc | ⟨-, hc⟩ | ⟨hit, -, -, hc⟩ | ⟨leaf, b', -, -, -, -, -, -, hc⟩ <;> rw [hc] at h
  · exact (Except.error.inj h).symm
  · cases h
  · cases h
  · cases h

/-- A guest access whose translation succeeds is its bus operation at the translated address. -/
theorem guestAccess_of_translate {c : Cpu} {va pa : BitVec 64} {width : AccessWidth}
    {kind : MmuAccessKind} {context : MmuContext} {m : Mmu} {b : Bus}
    (h : c.mmu.translate c.bus va width kind context = (.ok pa, m, b)) (packet : InstructionPacket)
    (cause : ExceptionCause) (op : BusOperation) :
    ((op b pa).1.1.ok = false ∧
      c.guestAccess packet va width kind context cause op =
        ({ access := (op b pa).1.1, trap := some (makeTrap packet cause va) },
          { c with mmu := m, bus := (op b pa).2 })) ∨
    ((op b pa).1.1.ok = true ∧
      c.guestAccess packet va width kind context cause op =
        ({ access := (op b pa).1.1, token := (op b pa).1.2 },
          { c with mmu := m, bus := (op b pa).2 })) := by
  rw [Cpu.guestAccess, h]
  dsimp only
  rw [Cpu.accessTranslated]
  dsimp only
  cases hok : (op b pa).1.1.ok with
  | false => exact Or.inl ⟨rfl, rfl⟩
  | true => exact Or.inr ⟨rfl, rfl⟩

/-- What follows the translation: nothing after a fault, and otherwise the bus operation. -/
theorem accessTranslated_cases (c : Cpu) (packet : InstructionPacket) (va : BitVec 64)
    (cause : ExceptionCause) (op : BusOperation) (translated : TranslationResult) :
    let r := c.accessTranslated packet va cause op translated
    (∃ fault, translated = .error fault ∧
      r = ({ trap := some (makeTrap packet fault.cause fault.value) }, c)) ∨
    ∃ pa, translated = .ok pa ∧ r.2 = { c with bus := (op c.bus pa).2 } ∧
      r.1.access = (op c.bus pa).1.1 ∧
      (((op c.bus pa).1.1.ok = false ∧ r.1.trap = some (makeTrap packet cause va)) ∨
        ((op c.bus pa).1.1.ok = true ∧ r.1.trap = none ∧ r.1.token = (op c.bus pa).1.2)) := by
  intro r
  cases translated with
  | error fault => exact Or.inl ⟨fault, rfl, rfl⟩
  | ok pa =>
    refine Or.inr ⟨pa, rfl, ?_⟩
    show (c.accessTranslated packet va cause op (.ok pa)).2 = _ ∧ _
    have hr : r = c.accessTranslated packet va cause op (.ok pa) := rfl
    rw [hr, Cpu.accessTranslated]
    generalize op c.bus pa = done
    cases hok : done.1.1.ok with
    | false =>
      rw [if_pos (by rfl)]
      exact ⟨rfl, rfl, Or.inl ⟨rfl, rfl⟩⟩
    | true =>
      rw [if_neg (by simp)]
      exact ⟨rfl, rfl, Or.inr ⟨rfl, rfl, rfl⟩⟩

section GuestAccess

variable {c : Cpu} {packet : InstructionPacket} {va : BitVec 64} {width : AccessWidth}
  {kind : MmuAccessKind} {context : MmuContext} {cause : ExceptionCause} {op : BusOperation}

theorem accessed_guestAccess (hsatp : context.satp = c.state.csrs.satp)
    (hcause : cause ≠ .instructionAddressMisaligned)
    (hop : ∀ b a, (op b a).1.1.ok = false → AdUpdated c.root b (op b a).2) :
    Accessed packet c (c.guestAccess packet va width kind context cause op) := by
  have hup := translate_adUpdated c.mmu c.bus va width kind context
  rw [hsatp] at hup
  rw [Cpu.guestAccess]
  rcases accessTranslated_cases _ packet va cause op (c.mmu.translate c.bus va width kind context).1
    with ⟨fault, hf, hr⟩ | ⟨pa, -, hbus, -, ⟨hok, htrap⟩ | ⟨-, htrap, -⟩⟩
  · rw [hr]
    refine ⟨rfl, fun t hsome ↦ ?_⟩
    rw [Option.some.injEq] at hsome
    rw [← hsome, translate_error hf]
    exact ⟨trapOf_makeTrap packet _ (pageFaultCause_ne kind), hup⟩
  · refine ⟨by rw [hbus], fun t hsome ↦ ?_⟩
    rw [htrap, Option.some.injEq] at hsome
    rw [← hsome, hbus]
    exact ⟨trapOf_makeTrap packet _ hcause, hup.trans (hop _ _ hok)⟩
  · refine ⟨by rw [hbus], fun t hsome ↦ ?_⟩
    rw [htrap] at hsome
    cases hsome

/-- An access whose bus operation never changes more than A and D bits does not either. -/
theorem adUpdated_guestAccess (hsatp : context.satp = c.state.csrs.satp)
    (hop : ∀ b a, AdUpdated c.root b (op b a).2) :
    AdUpdated c.root c.bus (c.guestAccess packet va width kind context cause op).2.bus := by
  have hup := translate_adUpdated c.mmu c.bus va width kind context
  rw [hsatp] at hup
  rw [Cpu.guestAccess]
  rcases accessTranslated_cases _ packet va cause op (c.mmu.translate c.bus va width kind context).1
    with ⟨fault, -, hr⟩ | ⟨pa, -, hbus, -⟩
  · rw [hr]
    exact hup
  · rw [hbus]
    exact hup.trans (hop _ _)

end GuestAccess

/-! The bus operations of the guest accesses change nothing visible when they fail. -/

theorem adUpdated_readOperation (width : AccessWidth) (type : AccessType) (root : BitVec 64)
    (b : Bus) (a : BitVec 64) : AdUpdated root b (readOperation width type b a).2 := by
  rw [readOperation]
  exact AdUpdated.of_read b a width type

theorem adUpdated_writeOperation {width : AccessWidth} {value : BitVec 64} {type : AccessType}
    {b : Bus} {a : BitVec 64} (root : BitVec 64)
    (h : (writeOperation width value type b a).1.1.ok = false) :
    AdUpdated root b (writeOperation width value type b a).2 := by
  rw [writeOperation] at h ⊢
  dsimp only at h ⊢
  rw [Bus.write_of_not_ok h]
  exact AdUpdated.refl _ _

theorem adUpdated_loadReservedOperation (width : AccessWidth) (root : BitVec 64) (b : Bus)
    (a : BitVec 64) : AdUpdated root b (loadReservedOperation width b a).2 := by
  rw [loadReservedOperation]
  obtain ⟨-, hregions, -⟩ := b.loadReserved_cases a width
  exact (AdUpdated.of_read b a width .load).trans (AdUpdated.of_regions hregions)

theorem adUpdated_storeConditionalOperation {token : ReservationToken} {width : AccessWidth}
    {value : BitVec 64} {b : Bus} {a : BitVec 64} (root : BitVec 64)
    (h : (storeConditionalOperation token width value b a).1.1.ok = false) :
    AdUpdated root b (storeConditionalOperation token width value b a).2 := by
  rw [storeConditionalOperation] at h ⊢
  dsimp only at h ⊢
  have hrelease : AdUpdated root b b.release := AdUpdated.of_regions rfl
  rcases b.storeConditional_cases token a width value with
    ⟨e, -, hd⟩ | ⟨-, hd⟩ | ⟨-, -, hd⟩ | ⟨-, -, hd⟩
  · rw [hd]
    exact hrelease
  · rw [hd]
    exact hrelease
  · rw [hd]
    exact hrelease
  · rw [hd] at h
    cases h

theorem adUpdated_compareExchangeOperation {width : AccessWidth} {expected desired : BitVec 64}
    {b : Bus} {a : BitVec 64} (root : BitVec 64)
    (h : (compareExchangeOperation width expected desired b a).1.1.ok = false) :
    AdUpdated root b (compareExchangeOperation width expected desired b a).2 := by
  rw [compareExchangeOperation] at h ⊢
  dsimp only at h ⊢
  rcases Bus.compareExchange_cases b a width expected desired .atomic with ⟨-, hb⟩ | ⟨hok, -⟩
  · rw [hb]
    exact AdUpdated.refl _ _
  · rw [hok] at h
    cases h

section Accesses

variable (c : Cpu) (packet : InstructionPacket) (va : BitVec 64) (width : AccessWidth)

theorem accessed_guestRead (kind : MmuAccessKind) (type : AccessType) :
    Accessed packet c (c.guestRead packet va width kind type) := by
  rw [Cpu.guestRead]
  refine accessed_guestAccess ?_ (accessFaultCause_ne kind) fun b a _ ↦
    adUpdated_readOperation width type _ b a
  split <;> rfl

/-- Even a successful read changes memory in A and D bits only. -/
theorem adUpdated_guestRead (kind : MmuAccessKind) (type : AccessType) :
    AdUpdated c.root c.bus (c.guestRead packet va width kind type).2.bus := by
  rw [Cpu.guestRead]
  refine adUpdated_guestAccess ?_ fun b a ↦ adUpdated_readOperation width type _ b a
  split <;> rfl

theorem accessed_guestWrite (value : BitVec 64) (type : AccessType) :
    Accessed packet c (c.guestWrite packet va width value type) := by
  rw [Cpu.guestWrite]
  exact accessed_guestAccess rfl (by decide) fun b a h ↦ adUpdated_writeOperation _ h

theorem accessed_guestLoadReserved :
    Accessed packet c (c.guestLoadReserved packet va width) := by
  rw [Cpu.guestLoadReserved]
  exact accessed_guestAccess rfl (by decide) fun b a _ ↦ adUpdated_loadReservedOperation _ _ b a

theorem accessed_guestStoreConditional (token : ReservationToken) (value : BitVec 64) :
    Accessed packet c (c.guestStoreConditional packet token va width value) := by
  rw [Cpu.guestStoreConditional]
  exact accessed_guestAccess rfl (by decide) fun b a h ↦ adUpdated_storeConditionalOperation _ h

theorem accessed_guestCompareExchange (expected desired : BitVec 64) :
    Accessed packet c (c.guestCompareExchange packet va width expected desired) := by
  rw [Cpu.guestCompareExchange]
  exact accessed_guestAccess rfl (by decide) fun b a h ↦ adUpdated_compareExchangeOperation _ h

/-- A compare-exchange that did not exchange changes memory in A and D bits only. -/
theorem adUpdated_guestCompareExchange (expected desired : BitVec 64)
    (h : (c.guestCompareExchange packet va width expected desired).1.access.exchanged = false) :
    AdUpdated c.root c.bus (c.guestCompareExchange packet va width expected desired).2.bus := by
  have hup := translate_adUpdated c.mmu c.bus va width .store c.dataContext
  rw [Cpu.guestCompareExchange, Cpu.guestAccess] at h ⊢
  rcases accessTranslated_cases _ packet va .storeAccessFault
      (compareExchangeOperation width expected desired)
      (c.mmu.translate c.bus va width .store c.dataContext).1
    with ⟨fault, -, hr⟩ | ⟨pa, -, hbus, hacc, -⟩
  · rw [hr]
    exact hup
  · rw [hacc] at h
    rw [hbus]
    refine hup.trans ?_
    rw [compareExchangeOperation] at h ⊢
    rcases Bus.compareExchange_cases (c.mmu.translate c.bus va width .store c.dataContext).2.2 pa
      width expected desired .atomic with ⟨-, hb⟩ | ⟨-, hx, -⟩
    · rw [hb]
      exact AdUpdated.refl _ _
    · rw [hx] at h
      cases h

end Accesses

end Rvemu
