import Rvemu.Core.InterruptSelection
import Rvemu.Core.WellFormed

/-!
# Trap entry and return

The two interrupt stacks in `mstatus` are independent: entering a handler writes the registers of
its own level only, and the matching return restores what entry saved.  A handler may do anything
that leaves the saved state of its level alone, and a supervisor handler may itself be interrupted
by machine-level traps that return before it does.
-/

set_option autoImplicit false

namespace Rvemu

open Relation

/-! ## Delivery -/

/-- What comes to the hart. -/
inductive TrapEvent
  | exception (trap : Trap)
  | interrupt (cause : InterruptCause)

namespace TrapEvent

def isInterrupt : TrapEvent → Bool
  | exception _ => false
  | interrupt _ => true

def code : TrapEvent → BitVec 64
  | exception trap => BitVec.ofNat 64 trap.cause.code
  | interrupt cause => BitVec.ofNat 64 cause.code

/-- Exceptions of machine mode stay there. -/
def delegated (s : CpuState) : TrapEvent → Bool
  | exception trap => s.privilege != .machine && s.csrs.medeleg.getLsbD trap.cause.code
  | interrupt cause => s.csrs.mideleg.getLsbD cause.code

end TrapEvent

/-- `c'` is `c` after delivery of a trap or of the selected interrupt; the indices in between are
what is delivered, the interrupted program counter and the trap value. -/
inductive Delivery (c : Cpu) :
    TrapEvent → BitVec 64 → BitVec 64 → TrapDelivery → Cpu → Prop
  | trap (trap : Trap) (heven : trap.programCounter.getLsbD 0 = false) :
    Delivery c (.exception trap) trap.programCounter trap.value (c.takeTrap trap).1
      (c.takeTrap trap).2
  | interrupt {pending : PendingInterrupt}
    (h : c.state.csrs.selectPendingInterrupt c.state.privilege = some pending)
    {delivery : TrapDelivery} (hd : c.takePendingInterrupt.1 = some delivery) :
    Delivery c (.interrupt pending.cause) c.state.programCounter 0#64 delivery
      c.takePendingInterrupt.2

/-- The record of a delivery: the code of what was delivered, the level that it is delegated to, and
the vector of that level. -/
structure TrapDelivery.Records (d : TrapDelivery) (s : CpuState) (event : TrapEvent) : Prop where
  interrupt : d.interrupt = event.isInterrupt
  cause : d.cause = event.code
  source : d.source = s.privilege
  target : d.target = if event.delegated s then .supervisor else .machine
  vector : d.vector = s.csrs.trapVector d.target d.interrupt d.cause

/-- The value of the cause register. -/
def TrapDelivery.causeValue (d : TrapDelivery) : BitVec 64 :=
  if d.interrupt then interruptFlag ||| d.cause else d.cause

/-- Entry at machine level: nothing but the registers and the stack of that level is written. -/
structure MachineEntry (s s' : CpuState) (pc value : BitVec 64) (d : TrapDelivery) : Prop where
  hart : s' = { s with
    csrs := s'.csrs, programCounter := d.vector, privilege := .machine,
    waitingForInterrupt := false }
  csrs : s'.csrs = { s.csrs with
    mstatus := s'.csrs.mstatus, mepc := pc, mcause := d.causeValue, mtval := value }
  mie : s'.csrs.mstatus.getLsbD 3 = false
  mpie : s'.csrs.mstatus.getLsbD 7 = s.csrs.mstatus.getLsbD 3
  mpp : s'.csrs.mstatus.getLsbD 11 = (s.privilege != .user) ∧
    s'.csrs.mstatus.getLsbD 12 = (s.privilege == .machine)
  other : ∀ i, i ≠ 3 → i ≠ 7 → i ≠ 11 → i ≠ 12 →
    s'.csrs.mstatus.getLsbD i = s.csrs.mstatus.getLsbD i

/-- Entry at supervisor level. -/
structure SupervisorEntry (s s' : CpuState) (pc value : BitVec 64) (d : TrapDelivery) : Prop where
  hart : s' = { s with
    csrs := s'.csrs, programCounter := d.vector, privilege := .supervisor,
    waitingForInterrupt := false }
  csrs : s'.csrs = { s.csrs with
    mstatus := s'.csrs.mstatus, sepc := pc, scause := d.causeValue, stval := value }
  sie : s'.csrs.mstatus.getLsbD 1 = false
  spie : s'.csrs.mstatus.getLsbD 5 = s.csrs.mstatus.getLsbD 1
  spp : s'.csrs.mstatus.getLsbD 8 = (s.privilege == .supervisor)
  other : ∀ i, i ≠ 1 → i ≠ 5 → i ≠ 8 → s'.csrs.mstatus.getLsbD i = s.csrs.mstatus.getLsbD i

/-- Entry writes no vector register. -/
theorem trapVector_enterTrap (c : CsrFile) (target source target' : PrivilegeMode)
    (pc cause value code : BitVec 64) (interrupt : Bool) :
    (Cpu.enterTrap c target source pc cause value).trapVector target' interrupt code =
      c.trapVector target' interrupt code := by
  rw [Cpu.enterTrap]
  split <;> rfl

/-- The common form of both kinds of delivery. -/
theorem Delivery.enter {c c' : Cpu} {event : TrapEvent} {pc value : BitVec 64} {d : TrapDelivery}
    (h : Delivery c event pc value d c') :
    c' = c.enterHandler
      (Cpu.enterTrap c.state.csrs d.target c.state.privilege pc d.causeValue value) d.target
      d.vector ∧
    (d.target = .machine ∨ d.target = .supervisor ∧ c.state.privilege ≠ .machine) := by
  cases h with
  | trap trap heven =>
    refine ⟨rfl, ?_⟩
    rw [Cpu.takeTrap]
    dsimp only
    split
    · next hdel =>
      refine Or.inr ⟨rfl, fun hm ↦ ?_⟩
      rw [CsrFile.exceptionDelegated, if_pos hm] at hdel
      cases hdel
    · exact Or.inl rfl
  | interrupt hsel hd =>
    rw [Cpu.takePendingInterrupt, hsel] at hd ⊢
    obtain rfl := Option.some.inj hd
    refine ⟨rfl, ?_⟩
    obtain ⟨htake, htarget, -⟩ := CsrFile.selectPendingInterrupt_eq_some hsel
    rw [CsrFile.delegationTarget] at htarget
    split at htarget
    · next hdel =>
      refine Or.inr ⟨htarget, fun hm ↦ ?_⟩
      rw [CsrFile.takeable, hdel, hm, if_pos rfl] at htake
      simp at htake
    · exact Or.inl htarget

theorem Delivery.records {c c' : Cpu} {event : TrapEvent} {pc value : BitVec 64}
    {d : TrapDelivery} (h : Delivery c event pc value d c') : d.Records c.state event := by
  cases h with
  | trap trap heven =>
    have hcode : trap.cause.code < 64 := by cases trap.cause <;> decide
    refine ⟨rfl, rfl, rfl, ?_, ?_⟩
    · rw [Cpu.takeTrap, TrapEvent.delegated, CsrFile.exceptionDelegated, and_bit_ne_zero _ hcode]
      cases c.state.privilege <;> rfl
    · rw [Cpu.takeTrap]
      dsimp only
      rw [trapVector_enterTrap]
  | interrupt hsel hd =>
    rw [Cpu.takePendingInterrupt, hsel] at hd
    obtain rfl := Option.some.inj hd
    obtain ⟨-, htarget, -⟩ := CsrFile.selectPendingInterrupt_eq_some hsel
    exact ⟨rfl, rfl, rfl, htarget, trapVector_enterTrap ..⟩

theorem Delivery.pc_even {c c' : Cpu} {event : TrapEvent} {pc value : BitVec 64}
    {d : TrapDelivery} (h : Delivery c event pc value d c') (hwf : c.state.WellFormed) :
    pc.getLsbD 0 = false := by
  cases h with
  | trap trap heven => exact heven
  | interrupt hsel hd => exact hwf.programCounter

section Entry

variable {c c' : Cpu} {event : TrapEvent} {pc value : BitVec 64} {d : TrapDelivery}

theorem Delivery.machineEntry (h : Delivery c event pc value d c') (ht : d.target = .machine) :
    MachineEntry c.state c'.state (pc &&& epcAlignmentMask) value d := by
  have hbit := c.state.csrs.getLsbD_mstatus_enterMachineTrap c.state.privilege pc d.causeValue value
  rw [h.enter.1, ht, Cpu.enterTrap, if_neg (by decide)]
  refine ⟨rfl, rfl, hbit 3, hbit 7, ⟨hbit 11, hbit 12⟩, ?_⟩
  · intro i h3 h7 h11 h12
    refine (hbit i).trans ?_
    rw [if_neg h3, if_neg h7, if_neg h11, if_neg h12]

theorem Delivery.supervisorEntry (h : Delivery c event pc value d c')
    (ht : d.target = .supervisor) :
    SupervisorEntry c.state c'.state (pc &&& epcAlignmentMask) value d := by
  have hbit :=
    c.state.csrs.getLsbD_mstatus_enterSupervisorTrap c.state.privilege pc d.causeValue value
  have hsource : c.state.privilege ≠ .machine := by
    rcases h.enter.2 with hm | ⟨-, hs⟩
    · rw [ht] at hm
      cases hm
    · exact hs
  rw [h.enter.1, ht, Cpu.enterTrap, if_pos rfl]
  refine ⟨rfl, rfl, hbit 1, hbit 5, ?_, ?_⟩
  · refine (hbit 8).trans ?_
    revert hsource
    cases c.state.privilege <;> simp
  · intro i h1 h5 h8
    refine (hbit i).trans ?_
    rw [if_neg h1, if_neg h5, if_neg h8]

end Entry

/-! ## The return instructions -/

def mretInstruction : BitVec 32 := 0x30200073#32

def sretInstruction : BitVec 32 := 0x10200073#32

theorem executeStandard_system (c : Cpu) {packet : InstructionPacket}
    (h : (decode packet.bits).opcode = 0x73#7) :
    c.executeStandard packet =
      c.executeSystem packet (decode packet.bits) (c.state.integer (decode packet.bits).source1)
        (packet.programCounter + BitVec.ofNat 64 packet.length) := by
  have hne : ∀ {opcode : BitVec 7}, 0x73#7 ≠ opcode → (decode packet.bits).opcode ≠ opcode :=
    fun hne ↦ h ▸ hne
  rw [Cpu.executeStandard, if_neg (hne (by decide)), if_neg (hne (by decide)),
    if_neg (hne (by decide)), if_neg (hne (by decide)), if_neg (hne (by decide)),
    if_neg (hne (by decide)), if_neg (hne (by decide)), if_neg (hne (by decide)),
    if_neg (hne (by decide)), if_neg (hne (by decide)), if_neg (hne (by decide)),
    if_neg (hne (by decide)), if_neg (hne (by decide)), if_neg (by rw [h]; decide),
    if_neg (by rw [h]; decide), if_neg (hne (by decide)), if_pos h]

theorem executeStandard_mret (c : Cpu) {packet : InstructionPacket}
    (hbits : packet.bits = mretInstruction) (hp : c.state.privilege = .machine) :
    c.executeStandard packet = c.returnTo packet c.state.csrs.returnFromMachine := by
  rw [executeStandard_system c (by rw [hbits]; decide), Cpu.executeSystem,
    if_pos (by rw [hbits]; decide), Cpu.executePrivileged, hbits, if_neg (by decide),
    if_neg (by decide), if_neg (by decide), if_pos (by decide), if_neg (not_not.2 hp)]

theorem executeStandard_sret (c : Cpu) {packet : InstructionPacket}
    (hbits : packet.bits = sretInstruction)
    (hp : c.state.csrs.supervisorReturnAllowed c.state.privilege = true) :
    c.executeStandard packet = c.returnTo packet c.state.csrs.returnFromSupervisor := by
  rw [executeStandard_system c (by rw [hbits]; decide), Cpu.executeSystem,
    if_pos (by rw [hbits]; decide), Cpu.executePrivileged, hbits, if_neg (by decide),
    if_neg (by decide), if_neg (by decide), if_neg (by decide), if_pos (by decide),
    if_neg (by rw [hp]; decide)]

/-! ## Round trips -/

/-- The work of a machine-level handler: anything that leaves the saved state of both levels. -/
structure MachineWork (c c' : Cpu) : Prop where
  privilege : c'.state.privilege = c.state.privilege
  mepc : c'.state.csrs.mepc = c.state.csrs.mepc
  sepc : c'.state.csrs.sepc = c.state.csrs.sepc
  mstatus : ∀ i, i = 5 ∨ i = 7 ∨ i = 8 ∨ i = 11 ∨ i = 12 →
    c'.state.csrs.mstatus.getLsbD i = c.state.csrs.mstatus.getLsbD i

/-- The work of a supervisor-level handler. -/
structure SupervisorWork (c c' : Cpu) : Prop where
  privilege : c'.state.privilege = c.state.privilege
  sepc : c'.state.csrs.sepc = c.state.csrs.sepc
  mstatus : ∀ i, i = 5 ∨ i = 8 →
    c'.state.csrs.mstatus.getLsbD i = c.state.csrs.mstatus.getLsbD i

/-- A machine-level trap that is handled and returns. -/
def MachineRoundTrip (c c' : Cpu) : Prop :=
  ∃ event pc value d entered handled packet, Delivery c event pc value d entered ∧
    d.target = .machine ∧ MachineWork entered handled ∧ packet.bits = mretInstruction ∧
      c' = (handled.executeStandard packet).2

/-- What happens between entry to a supervisor handler and its return. -/
abbrev SupervisorHandled : Cpu → Cpu → Prop :=
  ReflTransGen fun c c' ↦ SupervisorWork c c' ∨ MachineRoundTrip c c'

/-- MRET goes to the mode in MPP. -/
theorem returnFromMachine_privilege {c : CsrFile} {p : PrivilegeMode}
    (h11 : c.mstatus.getLsbD 11 = (p != .user)) (h12 : c.mstatus.getLsbD 12 = (p == .machine)) :
    c.returnFromMachine.1.privilege = p := by
  have hzero := Bits.field_two_eq_iff c.mstatus 11 (v := 0#64) (Bits.getLsbD_small (by decide))
  have hone := Bits.field_two_eq_iff c.mstatus 11 (v := 1#64) (Bits.getLsbD_small (by decide))
  rw [h11, h12] at hzero hone
  rw [CsrFile.returnFromMachine]
  dsimp only
  cases p with
  | user => rw [if_pos (hzero.2 (by decide))]
  | supervisor => rw [if_neg (hzero.not.2 (by decide)), if_pos (hone.2 (by decide))]
  | machine => rw [if_neg (hzero.not.2 (by decide)), if_neg (hone.not.2 (by decide))]

section RoundTrip

variable {c entered handled : Cpu} {pc value : BitVec 64} {d : TrapDelivery}

/-- **MRET undoes a machine-level delivery.** -/
theorem mret_restores (hentry : MachineEntry c.state entered.state pc value d)
    (hwork : MachineWork entered handled) {packet : InstructionPacket}
    (hbits : packet.bits = mretInstruction) :
    ∃ returned, handled.executeStandard packet = (.success packet.length, returned) ∧
      returned.state.programCounter = pc ∧ returned.state.privilege = c.state.privilege ∧
      returned.state.csrs.mstatus.getLsbD 3 = c.state.csrs.mstatus.getLsbD 3 ∧
      returned.state.csrs.sepc = c.state.csrs.sepc ∧
      ∀ i, i = 5 ∨ i = 8 →
        returned.state.csrs.mstatus.getLsbD i = c.state.csrs.mstatus.getLsbD i := by
  have hp : handled.state.privilege = .machine := by rw [hwork.privilege, hentry.hart]
  have hbit := handled.state.csrs.getLsbD_mstatus_returnFromMachine
  refine ⟨_, executeStandard_mret handled hbits hp, ?_, ?_, ?_, ?_, ?_⟩
  · show handled.state.csrs.mepc = pc
    rw [hwork.mepc, hentry.csrs]
  · refine returnFromMachine_privilege ?_ ?_
    · rw [hwork.mstatus 11 (by omega), hentry.mpp.1]
    · rw [hwork.mstatus 12 (by omega), hentry.mpp.2]
  · refine (hbit 3).trans ?_
    rw [if_pos rfl, hwork.mstatus 7 (by omega), hentry.mpie]
  · show handled.state.csrs.sepc = _
    rw [hwork.sepc, hentry.csrs]
  · intro i hi
    refine (hbit i).trans ?_
    rw [if_neg (by omega), if_neg (by omega), if_neg (by omega), if_neg (by omega),
      hwork.mstatus i (by omega), hentry.other i (by omega) (by omega) (by omega) (by omega)]

end RoundTrip

/-- A machine-level round trip is invisible to the supervisor's saved state. -/
theorem MachineRoundTrip.supervisorWork {c c' : Cpu} (h : MachineRoundTrip c c') :
    SupervisorWork c c' := by
  obtain ⟨event, pc, value, d, entered, handled, packet, hd, ht, hwork, hbits, rfl⟩ := h
  obtain ⟨returned, heq, -, hp, -, hsepc, hm⟩ := mret_restores (hd.machineEntry ht) hwork hbits
  rw [heq]
  exact ⟨hp, hsepc, hm⟩

theorem SupervisorHandled.supervisorWork {c c' : Cpu} (h : SupervisorHandled c c') :
    SupervisorWork c c' := by
  induction h with
  | refl => exact ⟨rfl, rfl, fun _ _ ↦ rfl⟩
  | tail _ hstep ih =>
    have hwork := hstep.elim id MachineRoundTrip.supervisorWork
    exact ⟨hwork.privilege.trans ih.privilege, hwork.sepc.trans ih.sepc,
      fun i hi ↦ (hwork.mstatus i hi).trans (ih.mstatus i hi)⟩

/-- SRET goes to the mode in SPP. -/
theorem returnFromSupervisor_privilege_eq {c : CsrFile} {p : PrivilegeMode} (hp : p ≠ .machine)
    (h8 : c.mstatus.getLsbD 8 = (p == .supervisor)) : c.returnFromSupervisor.1.privilege = p := by
  rw [CsrFile.returnFromSupervisor]
  dsimp only
  rw [and_bit_ne_zero _ (by decide), h8]
  revert hp
  cases p <;> decide

/-- **SRET undoes a supervisor-level delivery**, whatever machine-level traps came in between. -/
theorem sret_restores {c entered handled : Cpu} {pc value : BitVec 64} {d : TrapDelivery}
    (hentry : SupervisorEntry c.state entered.state pc value d)
    (hsource : c.state.privilege ≠ .machine)
    (hwork : SupervisorHandled entered handled)
    (hallowed : handled.state.csrs.supervisorReturnAllowed .supervisor = true)
    {packet : InstructionPacket} (hbits : packet.bits = sretInstruction) :
    ∃ returned, handled.executeStandard packet = (.success packet.length, returned) ∧
      returned.state.programCounter = pc ∧ returned.state.privilege = c.state.privilege ∧
      returned.state.csrs.mstatus.getLsbD 1 = c.state.csrs.mstatus.getLsbD 1 := by
  have hwork' := hwork.supervisorWork
  have hp : handled.state.privilege = .supervisor := by rw [hwork'.privilege, hentry.hart]
  refine ⟨_, executeStandard_sret handled hbits (by rw [hp]; exact hallowed), ?_, ?_, ?_⟩
  · show handled.state.csrs.sepc = pc
    rw [hwork'.sepc, hentry.csrs]
  · refine returnFromSupervisor_privilege_eq hsource ?_
    rw [hwork'.mstatus 8 (by omega), hentry.spp]
  · refine (handled.state.csrs.getLsbD_mstatus_returnFromSupervisor 1).trans ?_
    rw [if_pos rfl, hwork'.mstatus 5 (by omega), hentry.spie]

/-- **Trap entry and return are inverse, and the levels are isolated.** -/
theorem trap_entry_return {c entered : Cpu} {event : TrapEvent} {pc value : BitVec 64}
    {d : TrapDelivery} (hwf : c.state.WellFormed) (h : Delivery c event pc value d entered) :
    d.Records c.state event ∧ (d.target = .machine ∨ d.target = .supervisor) ∧
    (c.state.privilege = .machine → d.target = .machine) ∧
    (d.target = .machine → MachineEntry c.state entered.state pc value d ∧
      ∀ handled packet, MachineWork entered handled → packet.bits = mretInstruction →
        ∃ returned, handled.executeStandard packet = (.success packet.length, returned) ∧
          returned.state.programCounter = pc ∧ returned.state.privilege = c.state.privilege ∧
          returned.state.csrs.mstatus.getLsbD 3 = c.state.csrs.mstatus.getLsbD 3) ∧
    (d.target = .supervisor → SupervisorEntry c.state entered.state pc value d ∧
      ∀ handled packet, SupervisorHandled entered handled →
        handled.state.csrs.supervisorReturnAllowed .supervisor = true →
        packet.bits = sretInstruction →
        ∃ returned, handled.executeStandard packet = (.success packet.length, returned) ∧
          returned.state.programCounter = pc ∧ returned.state.privilege = c.state.privilege ∧
          returned.state.csrs.mstatus.getLsbD 1 = c.state.csrs.mstatus.getLsbD 1) := by
  have heven := and_epcAlignmentMask (h.pc_even hwf)
  obtain ⟨-, htarget⟩ := h.enter
  refine ⟨h.records, htarget.imp_right (·.1), fun hm ↦ ?_, fun ht ↦ ?_, fun ht ↦ ?_⟩
  · rcases htarget with ht | ⟨-, hs⟩
    · exact ht
    · exact absurd hm hs
  · have hentry := h.machineEntry ht
    rw [heven] at hentry
    refine ⟨hentry, fun handled packet hwork hbits ↦ ?_⟩
    obtain ⟨returned, heq, hpc, hp, hie, -⟩ := mret_restores hentry hwork hbits
    exact ⟨returned, heq, hpc, hp, hie⟩
  · have hentry := h.supervisorEntry ht
    rw [heven] at hentry
    have hsource : c.state.privilege ≠ .machine := by
      rcases htarget with hm | ⟨-, hs⟩
      · rw [ht] at hm
        cases hm
      · exact hs
    exact ⟨hentry, fun handled packet hwork hallowed hbits ↦
      sret_restores hentry hsource hwork hallowed hbits⟩

/-- A user-mode environment call with delegation, at a well-formed hart. -/
def ecallCpu : Cpu :=
  { zeroedCpu with
    state := { zeroedCpu.state with
      privilege := .user, csrs := { medeleg := bit 8, stvec := 0x80001000#64 } } }

/-- The call goes to the supervisor and comes back with SRET. -/
theorem trap_entry_return_ecall :
    let trap : Trap := { cause := .environmentCallFromUser, programCounter := 0x80000100#64 }
    let entered := (ecallCpu.takeTrap trap).2
    let sret : InstructionPacket := { bits := sretInstruction, length := 4 }
    (entered.state.programCounter = 0x80001000#64 ∧ entered.state.privilege = .supervisor ∧
      entered.state.csrs.scause = 8#64 ∧ entered.state.csrs.mepc = ecallCpu.state.csrs.mepc) ∧
    ∃ returned, entered.executeStandard sret = (.success 4, returned) ∧
      returned.state.programCounter = 0x80000100#64 ∧ returned.state.privilege = .user ∧
      returned.state.csrs.mstatus.getLsbD 1 = ecallCpu.state.csrs.mstatus.getLsbD 1 := by
  intro trap entered sret
  have hwf : ecallCpu.state.WellFormed :=
    ⟨rfl, { CsrFile.wellFormed_reset with medeleg := by decide }⟩
  obtain ⟨hrecords, -, -, -, hs⟩ := trap_entry_return hwf (.trap trap (by decide))
  have htarget : (ecallCpu.takeTrap trap).1.target = .supervisor :=
    hrecords.target.trans (by decide)
  obtain ⟨hentry, hreturn⟩ := hs htarget
  refine ⟨⟨?_, ?_, ?_, ?_⟩, hreturn entered sret .refl (by decide) rfl⟩
  · rw [hentry.hart]
    exact hrecords.vector.trans (by decide)
  · rw [hentry.hart]
  · rw [hentry.csrs, TrapDelivery.causeValue, hrecords.interrupt, hrecords.cause]
    rfl
  · rw [hentry.csrs]

end Rvemu
