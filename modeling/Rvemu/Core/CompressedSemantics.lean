import Rvemu.Core.Expansion
import Rvemu.Core.Perform

/-!
# Compressed instructions

Executing a 16-bit encoding is carrying out what it stands for: expansion, the dispatcher and the
repair of the trap together leave no trace of the 32-bit word in between.  What carrying out does to
the hart and to memory is in `Rvemu.Core.CompressedEffects`.
-/

set_option autoImplicit false

namespace Rvemu

open Isa Compressed

namespace Cpu

/-- Carry out a compressed instruction; encodings that stand for nothing are illegal.  The
double-precision accesses need the floating-point unit to be on. -/
def performCompressed (c : Cpu) (packet : InstructionPacket) :
    Option Isa.Compressed → StepResult × Cpu
  | none => c.illegal packet
  | some .hint => c.retire packet (packet.programCounter + BitVec.ofNat 64 packet.length)
  | some .breakpoint => (.failure (makeTrap packet .breakpoint 0#64) packet.length, c)
  | some (.base i) => c.perform packet i
  | some (.loadDouble rd rs1 offset) =>
    if !c.state.csrs.floatingStateEnabled then c.illegal packet
    else
      afterAccess packet
        (c.guestRead packet (c.state.integer rs1 + offset) .doubleWord .load .load) fun loaded c ↦
          (c.modifyState (·.setFloating rd loaded.access.value)).retire packet
            (packet.programCounter + BitVec.ofNat 64 packet.length)
  | some (.storeDouble rs1 rs2 offset) =>
    if !c.state.csrs.floatingStateEnabled then c.illegal packet
    else
      afterAccess packet
        (c.guestWrite packet (c.state.integer rs1 + offset) .doubleWord (c.state.floating rs2)
          .store) fun _ c ↦
          c.retire packet (packet.programCounter + BitVec.ofNat 64 packet.length)

end Cpu

/-! ## Reporting the original encoding -/

section Report

variable (packet : InstructionPacket) (expanded : BitVec 32)

/-- The outcome of the expanded word, reported as that of the encoding. -/
def report (done : StepResult × Cpu) : StepResult × Cpu :=
  (Cpu.reportCompressed packet done.1, done.2)

theorem report_makeTrap {cause : ExceptionCause} (h : cause ≠ .illegalInstruction)
    (value : BitVec 64) (c : Cpu) :
    report packet
        (.failure (makeTrap { packet with bits := expanded } cause value) packet.length, c) =
      (.failure (makeTrap packet cause value) packet.length, c) := by
  simp [report, Cpu.reportCompressed, makeTrap, StepResult.failure, h]

theorem pageFaultCause_ne_illegal (kind : MmuAccessKind) :
    pageFaultCause kind ≠ .illegalInstruction := by
  cases kind <;> decide

/-- Memory accesses know the instruction only from its traps. -/
theorem report_afterAccess (c : Cpu) (va : BitVec 64) (width : AccessWidth) (kind : MmuAccessKind)
    (context : MmuContext) {cause : ExceptionCause} (hcause : cause ≠ .illegalInstruction)
    (op : BusOperation) {next next' : GuestAccessResult → Cpu → StepResult × Cpu}
    (hnext : ∀ accessed d, report packet (next' accessed d) = next accessed d) :
    report packet
        (Cpu.afterAccess { packet with bits := expanded }
          (c.guestAccess { packet with bits := expanded } va width kind context cause op) next') =
      Cpu.afterAccess packet (c.guestAccess packet va width kind context cause op) next := by
  obtain ⟨t, m, b, ht⟩ : ∃ t m b, c.mmu.translate c.bus va width kind context = (t, m, b) :=
    ⟨_, _, _, rfl⟩
  cases t with
  | error fault =>
    have hfault : fault = pageFault kind va := translate_error (congrArg Prod.fst ht)
    rw [Cpu.guestAccess, Cpu.guestAccess, ht, hfault]
    exact report_makeTrap packet expanded (pageFaultCause_ne_illegal kind) va _
  | ok pa =>
    rcases guestAccess_of_translate ht packet cause op with ⟨hok, hg⟩ | ⟨hok, hg⟩ <;>
      rcases guestAccess_of_translate ht { packet with bits := expanded } cause op with
        ⟨hok', hg'⟩ | ⟨hok', hg'⟩
    · rw [hg, hg']
      exact report_makeTrap packet expanded hcause va _
    · rw [hok] at hok'
      cases hok'
    · rw [hok] at hok'
      cases hok'
    · rw [hg, hg']
      exact hnext _ _

theorem report_transfer (c : Cpu) (commit : CpuState → CpuState) (target : Option (BitVec 64)) :
    report packet (c.transfer { packet with bits := expanded } commit target) =
      c.transfer packet commit target := by
  cases target with
  | none => rfl
  | some target =>
    rw [Cpu.transfer, Cpu.transfer, Cpu.jumpTo, Cpu.jumpTo]
    split
    · exact report_makeTrap packet expanded (by decide) target c
    · rfl

theorem report_perform (c : Cpu) (i : Instruction) :
    report packet (c.perform { packet with bits := expanded } i) = c.perform packet i := by
  cases i with
  | load width signed rd rs1 offset =>
    exact report_afterAccess packet expanded c _ _ _ _ (by decide) _ fun _ _ ↦ rfl
  | store width rs1 rs2 offset =>
    exact report_afterAccess packet expanded c _ _ _ _ (by decide) _ fun _ _ ↦ rfl
  | _ => exact report_transfer packet expanded c _ _

end Report

/-! ## Execution -/

section Execute

variable (c : Cpu) (packet : InstructionPacket) {expanded : BitVec 32}

/-- LOAD-FP and STORE-FP with the width of a double are not vector accesses. -/
theorem executeStandard_double (h : expanded.extractLsb' 12 3 = 3#3)
    (hop : expanded.extractLsb' 0 7 = 0x07#7 ∨ expanded.extractLsb' 0 7 = 0x27#7) :
    c.executeStandard { packet with bits := expanded } =
      c.executeFloating { packet with bits := expanded } (decode expanded)
        (packet.programCounter + BitVec.ofNat 64 packet.length) := by
  have hvector : ∀ load, decodeVectorMemoryOperation expanded load = none := by
    intro load
    rw [decodeVectorMemoryOperation, h]
    rfl
  rcases hop with hop | hop
  · rw [Cpu.executeStandard, show (decode expanded).opcode = 0x07#7 from hop]
    show c.executeLoadStoreFp _ _ _ = _
    rw [Cpu.executeLoadStoreFp, hvector]
  · rw [Cpu.executeStandard, show (decode expanded).opcode = 0x27#7 from hop]
    show c.executeLoadStoreFp _ _ _ = _
    rw [Cpu.executeLoadStoreFp, hvector]

theorem report_of_stands {i : Isa.Compressed} (h : Stands expanded i) :
    report packet (c.executeStandard { packet with bits := expanded }) =
      c.performCompressed packet (some i) := by
  cases i with
  | base i =>
    have hperform := executeStandard_eq_perform (c := c)
      (show Isa.decode ({ packet with bits := expanded } : InstructionPacket).bits = some i from h)
    rw [hperform, report_perform]
    rfl
  | hint =>
    have hnop : Isa.decode nop = some (.compute .add 0#5 0#5 (.immediate 0#64)) := rfl
    cases h
    have hperform := executeStandard_eq_perform (c := c)
      (show Isa.decode ({ packet with bits := nop } : InstructionPacket).bits = _ from hnop)
    rw [hperform, report_perform]
    rfl
  | breakpoint =>
    cases h
    have hbreak : c.executeStandard { packet with bits := ebreak } =
        (.failure (makeTrap { packet with bits := ebreak } .breakpoint 0#64) packet.length, c) := by
      rw [Cpu.executeStandard, show (decode ebreak).opcode = 0x73#7 from rfl]
      show c.executeSystem _ _ _ _ = _
      rw [Cpu.executeSystem, if_pos (show (decode ebreak).function3 = 0#3 by decide),
        Cpu.executePrivileged, if_neg (show ¬ ebreak &&& 0xFE00707F#32 = 0x12000073#32 by decide),
        if_neg (show ¬ ebreak = 0x00000073#32 by decide),
        if_pos (show ebreak = 0x00100073#32 from rfl)]
    rw [hbreak, report_makeTrap packet ebreak (by decide)]
    rfl
  | loadDouble rd rs1 offset =>
    obtain ⟨hop, hrd, h3, hrs1, himmediate⟩ := h
    rw [executeStandard_double c packet h3 (Or.inl hop), Cpu.executeFloating,
      Cpu.performCompressed]
    split
    · rfl
    · rw [if_pos (show (decode expanded).opcode = 0x07#7 from hop), Cpu.executeFloatingLoad,
        show (decode expanded).function3 = 3#3 from h3, immediateI_eq, himmediate,
        show (decode expanded).source1 = rs1 from hrs1,
        show (decode expanded).destination = rd from hrd]
      exact report_afterAccess packet expanded c _ _ _ _ (by decide) _ fun _ _ ↦ rfl
  | storeDouble rs1 rs2 offset =>
    obtain ⟨hop, h3, hrs1, hrs2, himmediate⟩ := h
    rw [executeStandard_double c packet h3 (Or.inr hop), Cpu.executeFloating,
      Cpu.performCompressed]
    split
    · rfl
    · rw [show (decode expanded).opcode = 0x27#7 from hop, if_neg (by decide), if_pos rfl,
        Cpu.executeFloatingStore, show (decode expanded).function3 = 3#3 from h3, immediateS_eq,
        himmediate, show (decode expanded).source1 = rs1 from hrs1,
        show (decode expanded).source2 = rs2 from hrs2]
      exact report_afterAccess packet expanded c _ _ _ _ (by decide) _ fun _ _ ↦ rfl

theorem execute_of_length (h : packet.length = 2) :
    c.execute packet =
      c.performCompressed packet (Isa.Compressed.decode (packet.bits.setWidth 16)) := by
  have hstands := stands_decompressRv64c (packet.bits.setWidth 16)
  rw [Cpu.execute, if_pos (show packet.compressed = true from beq_iff_eq.2 h)]
  generalize decompressRv64c (packet.bits.setWidth 16) = expanded at hstands ⊢
  generalize Isa.Compressed.decode (packet.bits.setWidth 16) = i at hstands ⊢
  cases hstands with
  | none => rfl
  | some hi => exact report_of_stands c packet hi

/-- Traps name the encoding that was fetched. -/
theorem trap_execute (h : packet.length = 2) {trap : Trap}
    (htrap : (c.execute packet).1.trap = some trap) :
    trap.instruction = packet.bits ∧
      (trap.cause = .illegalInstruction → trap.value = packet.bits.setWidth 64) := by
  rw [Cpu.execute, if_pos (show packet.compressed = true from beq_iff_eq.2 h)] at htrap
  cases hexpanded : decompressRv64c (packet.bits.setWidth 16) with
  | none =>
    rw [hexpanded] at htrap
    cases htrap
    exact ⟨rfl, fun _ ↦ rfl⟩
  | some expanded =>
    rw [hexpanded] at htrap
    obtain ⟨raised, -, rfl⟩ := Option.map_eq_some_iff.1 htrap
    exact ⟨rfl, fun hcause ↦ if_pos hcause⟩

end Execute

end Rvemu
