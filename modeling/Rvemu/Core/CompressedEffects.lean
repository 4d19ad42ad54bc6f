import Rvemu.Core.CompressedSemantics
import Rvemu.Core.IntegerSemantics

/-!
# The effect of a compressed instruction

What `Cpu::execute` does with a 16-bit encoding, register by register and byte by byte: the
registers and the program counter afterwards, the bytes of RAM that a load takes and a store
changes, and the trap that is raised in the other cases, with the encoding in it.
-/

set_option autoImplicit false

namespace Rvemu

open Isa Compressed Bytes

/-! ## The hart -/

/-- From `s` to `s'`, one integer and one floating-point register at most are written, and execution
goes on at `next`.  Writing a floating-point register makes the floating-point state dirty. -/
structure CpuState.Wrote (s s' : CpuState) (result floatingResult : Option (BitVec 5 × BitVec 64))
    (next : BitVec 64) : Prop where
  integer : ∀ r, s'.integer r =
    match result with
    | some (rd, value) => if r = rd ∧ r ≠ 0#5 then value else s.integer r
    | none => s.integer r
  floating : ∀ r, s'.floating r =
    match floatingResult with
    | some (rd, value) => if r = rd then value else s.floating r
    | none => s.floating r
  programCounter : s'.programCounter = next
  csrs : ∃ mstatus, s'.csrs = { s.csrs with mstatus } ∧ ∀ i < 64, mstatus.getLsbD i =
    (s.csrs.mstatus.getLsbD i || (floatingResult.isSome && (decide (i = 13) || decide (i = 14))))
  vector : s'.vectorState = s.vectorState
  privilege : s'.privilege = s.privilege
  reservationToken : s'.reservationToken = s.reservationToken
  waiting : s'.waitingForInterrupt = s.waitingForInterrupt

theorem wrote_integer (s : CpuState) (written : Option (BitVec 5 × BitVec 64)) (next : BitVec 64) :
    s.Wrote ((s.writeRegister written).setProgramCounter next) written none next := by
  cases written with
  | none =>
    exact ⟨fun _ ↦ rfl, fun _ ↦ rfl, rfl, ⟨s.csrs.mstatus, rfl, by simp⟩, rfl, rfl, rfl, rfl⟩
  | some w =>
    obtain ⟨rd, value⟩ := w
    refine ⟨fun r ↦ integer_setInteger s rd r value, fun r ↦ ?_, rfl,
      ⟨s.csrs.mstatus, ?_, by simp⟩, ?_, ?_, ?_, ?_⟩ <;>
      simp only [CpuState.writeRegister, CpuState.setInteger] <;> split <;> rfl

theorem wrote_floating {s : CpuState} (hon : s.csrs.floatingStateEnabled = true)
    (rd : BitVec 5) (value next : BitVec 64) :
    s.Wrote ((s.setFloating rd value).setProgramCounter next) none (some (rd, value)) next := by
  refine ⟨fun _ ↦ rfl, fun r ↦ ?_, rfl,
    ⟨_, s.csrs.markFloatingStateDirty_eq, fun i hi ↦ ?_⟩, rfl, rfl, rfl, rfl⟩
  · exact Function.update_apply s.floatingRegisters rd value r
  · rw [s.csrs.getLsbD_mstatus_markFloatingStateDirty hi, hon]
    rfl

theorem CsrFile.floatingStateEnabled_eq_false_iff (c : CsrFile) :
    c.floatingStateEnabled = false ↔ c.mstatus.extractLsb' 13 2 = 0#2 := by
  rw [floatingStateEnabled_eq, Bool.or_eq_false_iff]
  constructor
  · rintro ⟨hlow, hhigh⟩
    refine BitVec.eq_of_getLsbD_eq fun i hi ↦ ?_
    rw [BitVec.getLsbD_extractLsb', BitVec.getLsbD_zero, Bool.and_eq_false_iff]
    rcases (by omega : i = 0 ∨ i = 1) with rfl | rfl
    · exact Or.inr hlow
    · exact Or.inr hhigh
  · intro h
    have hbit (i : ℕ) : (c.mstatus.extractLsb' 13 2).getLsbD i = false := by
      rw [h, BitVec.getLsbD_zero]
    exact ⟨by simpa using hbit 0, by simpa using hbit 1⟩

section Outcomes

variable (c : Cpu) (pc : BitVec 64) (bits : BitVec 32) (out : StepResult × Cpu)

/-- The instruction is done, and these are the registers it has written. -/
structure Cpu.Retires (integer floating : Option (BitVec 5 × BitVec 64)) (next : BitVec 64) :
    Prop where
  result : out.1 = { retired := true, instructionLength := 2 }
  state : c.state.Wrote out.2.state integer floating next

/-- The instruction raises the exception and leaves the hart as it was; the trap names the place and
the encoding. -/
structure Cpu.Raises (cause : ExceptionCause) (value : BitVec 64) : Prop where
  result : out.1 =
    { instructionLength := 2
      trap := some { cause, value, programCounter := pc, instruction := bits } }
  state : out.2.state = c.state

/-! ## Memory -/

/-- The access of `width` bytes at `va` goes to `pa` and leaves `b` to the bus: the memory of `c` up
to A and D bits, with the devices as they were.  In one page this is the place of each byte. -/
structure Cpu.PlacedAt (kind : MmuAccessKind) (va : BitVec 64) (width : AccessWidth)
    (pa : BitVec 64) (b : Bus) : Prop where
  translated : ∃ m, c.mmu.translate c.bus va width kind c.dataContext = (.ok pa, m, b)
  bytes : va.toNat % 2 ^ 12 + widthInBytes width ≤ 2 ^ 12 → ∀ i < widthInBytes width,
    (c.mmu.translate c.bus (va + BitVec.ofNat 64 i) .byte kind c.dataContext).1 =
      .ok (pa + BitVec.ofNat 64 i)
  memory : AdUpdated c.root c.bus b
  devices : b.devices = c.bus.devices

/-- The address has no translation: a page fault, and no byte of RAM has changed. -/
structure Cpu.Unmapped (kind : MmuAccessKind) (va : BitVec 64) (width : AccessWidth) : Prop where
  fault : ∃ e, (c.mmu.translate c.bus va width kind c.dataContext).1 = .error e
  raises : c.Raises pc bits out (pageFaultCause kind) va
  bus : out.2.bus = c.bus

/-- How a load ends: with a page fault, with an access fault of the bus, or with a value that is the
one memory holds there and that goes into a register. -/
inductive Cpu.Loads (va : BitVec 64) (width : AccessWidth)
    (integer floating : BitVec 64 → Option (BitVec 5 × BitVec 64)) : Prop
  | unmapped (h : c.Unmapped pc bits out .load va width)
  | refused {pa : BitVec 64} {b : Bus} (h : c.PlacedAt .load va width pa b)
    (hno : (b.read pa width .load).1.ok = false) (hram : ¬ b.InRam pa.toNat (widthInBytes width))
    (hbus : ∀ x, out.2.bus.ramByte x = b.ramByte x)
    (hraises : c.Raises pc bits out .loadAccessFault va)
  | loaded {pa value : BitVec 64} {b : Bus} (h : c.PlacedAt .load va width pa b)
    (hreads : Reads b out.2.bus pa width value)
    (hretires : c.Retires out (integer value) (floating value) (pc + 2#64))

/-- How a store of `value` ends: with a page fault, with an access fault of the bus, or with the
bytes of the value in memory. -/
inductive Cpu.Stores (va : BitVec 64) (width : AccessWidth) (value : BitVec 64) : Prop
  | unmapped (h : c.Unmapped pc bits out .atomic va width)
  | refused {pa : BitVec 64} {b : Bus} (h : c.PlacedAt .atomic va width pa b)
    (hno : (b.write pa width value .store).1.ok = false)
    (hram : ¬ b.InRam pa.toNat (widthInBytes width))
    (hbus : ∀ x, out.2.bus.ramByte x = b.ramByte x)
    (hraises : c.Raises pc bits out .storeAccessFault va)
  | stored {pa : BitVec 64} {b : Bus} (h : c.PlacedAt .atomic va width pa b)
    (hwrites : Writes b out.2.bus pa width value)
    (hretires : c.Retires out none none (pc + 2#64))

/-- How an instruction ends that does not access memory: `result` is written and execution goes on
at the target, or behind the instruction without one.  An odd target is an exception. -/
def Cpu.Transfers (result : Option (BitVec 5 × BitVec 64)) : Option (BitVec 64) → Prop
  | none => c.Retires out result none (pc + 2#64)
  | some target =>
    if target.getLsbD 0 then c.Raises pc bits out .instructionAddressMisaligned target
    else c.Retires out result none target

end Outcomes

/-! ## Instructions -/

/-- What becomes of the hart and of memory when the encoding `bits` at `pc` stands for `i`: two
bytes long, so the next instruction and the return addresses are at `pc + 2`. -/
def Isa.Compressed.Outcome (c : Cpu) (pc : BitVec 64) (bits : BitVec 32) (out : StepResult × Cpu) :
    Option Isa.Compressed → Prop
  | none => c.Raises pc bits out .illegalInstruction (bits.setWidth 64) ∧ out.2.bus = c.bus
  | some .hint => c.Retires out none none (pc + 2#64) ∧ out.2.bus = c.bus
  | some .breakpoint => c.Raises pc bits out .breakpoint 0#64 ∧ out.2.bus = c.bus
  | some (.base (.load width signed rd rs1 offset)) =>
    c.Loads pc bits out (c.state.integer rs1 + offset) width
      (fun value ↦ some (rd, extend width signed value)) (fun _ ↦ none)
  | some (.base (.store width rs1 rs2 offset)) =>
    c.Stores pc bits out (c.state.integer rs1 + offset) width (c.state.integer rs2)
  | some (.base i) =>
    c.Transfers pc bits out (i.written c.state.integer pc 2#64) (i.target c.state.integer pc) ∧
      out.2.bus = c.bus
  | some (.loadDouble rd rs1 offset) =>
    if c.state.csrs.mstatus.extractLsb' 13 2 = 0#2 then
      c.Raises pc bits out .illegalInstruction (bits.setWidth 64) ∧ out.2.bus = c.bus
    else
      c.Loads pc bits out (c.state.integer rs1 + offset) .doubleWord (fun _ ↦ none)
        (fun value ↦ some (rd, value))
  | some (.storeDouble rs1 rs2 offset) =>
    if c.state.csrs.mstatus.extractLsb' 13 2 = 0#2 then
      c.Raises pc bits out .illegalInstruction (bits.setWidth 64) ∧ out.2.bus = c.bus
    else
      c.Stores pc bits out (c.state.integer rs1 + offset) .doubleWord (c.state.floating rs2)

section Execute

variable (c : Cpu) (packet : InstructionPacket) (hlength : packet.length = 2)

theorem placedAt_of_translate {kind : MmuAccessKind} {va pa : BitVec 64} {width : AccessWidth}
    {m : Mmu} {b : Bus}
    (ht : c.mmu.translate c.bus va width kind c.dataContext = (.ok pa, m, b)) :
    c.PlacedAt kind va width pa b := by
  refine ⟨⟨m, ht⟩, fun hpage i hi ↦ translate_samePage ht ⟨rfl, by omega⟩ .byte, ?_, ?_⟩
  · have hup := translate_adUpdated c.mmu c.bus va width kind c.dataContext
    rwa [ht] at hup
  · have hdev := devices_translate c.mmu c.bus va width kind c.dataContext
    rwa [ht] at hdev

include hlength

theorem raises_failure {d : Cpu} (h : d.state = c.state) (cause : ExceptionCause)
    (value : BitVec 64) :
    c.Raises packet.programCounter packet.bits
      (.failure (makeTrap packet cause value) packet.length, d) cause value := by
  refine ⟨?_, h⟩
  rw [hlength]
  rfl

theorem retires_retire {d : Cpu} {result floatingResult : Option (BitVec 5 × BitVec 64)}
    {next : BitVec 64}
    (h : c.state.Wrote (d.state.setProgramCounter next) result floatingResult next) :
    c.Retires (d.retire packet next) result floatingResult next := by
  refine ⟨?_, h⟩
  rw [Cpu.retire, hlength]
  rfl

/-- An access either does not translate, or it is refused, or the instruction goes on with it. -/
theorem afterAccess_ends (va : BitVec 64) (width : AccessWidth) (kind : MmuAccessKind)
    (cause : ExceptionCause) (op : BusOperation)
    (next : GuestAccessResult → Cpu → StepResult × Cpu) {out : StepResult × Cpu}
    (hout : Cpu.afterAccess packet
      (c.guestAccess packet va width kind c.dataContext cause op) next = out) :
    c.Unmapped packet.programCounter packet.bits out kind va width ∨
    ∃ pa m b, c.PlacedAt kind va width pa b ∧
      ((op b pa).1.1.ok = false ∧ out.2.bus = (op b pa).2 ∧
          c.Raises packet.programCounter packet.bits out cause va ∨
        (op b pa).1.1.ok = true ∧ out = next
          { access := (op b pa).1.1, token := (op b pa).1.2 }
          { c with mmu := m, bus := (op b pa).2 }) := by
  obtain ⟨t, m, b, ht⟩ : ∃ t m b, c.mmu.translate c.bus va width kind c.dataContext = (t, m, b) :=
    ⟨_, _, _, rfl⟩
  cases t with
  | error fault =>
    have hfault : fault = pageFault kind va := translate_error (congrArg Prod.fst ht)
    have hbus : b = c.bus := by
      rcases translate_cases c.mmu c.bus va width kind c.dataContext with
        hc | ⟨-, hc⟩ | ⟨hit, -, -, hc⟩ | ⟨leaf, b', -, -, -, -, -, -, hc⟩ <;>
        rw [ht, Prod.mk.injEq, Prod.mk.injEq] at hc
      · exact hc.2.2
      · cases hc.1
      · cases hc.1
      · cases hc.1
    left
    rw [Cpu.guestAccess, ht, hfault] at hout
    rw [← hout]
    have hraises := raises_failure c packet hlength (d := { c with mmu := m, bus := b }) rfl
    exact ⟨⟨fault, congrArg Prod.fst ht⟩, hraises _ _, hbus⟩
  | ok pa =>
    right
    refine ⟨pa, m, b, placedAt_of_translate c ht, ?_⟩
    rcases guestAccess_of_translate ht packet cause op with ⟨hok, hg⟩ | ⟨hok, hg⟩
    · left
      rw [hg] at hout
      rw [← hout]
      have hraises := raises_failure c packet hlength
        (d := { c with mmu := m, bus := (op b pa).2 }) rfl
      exact ⟨hok, rfl, hraises _ _⟩
    · right
      rw [hg] at hout
      exact ⟨hok, hout.symm⟩

theorem loads_afterAccess (va : BitVec 64) (width : AccessWidth)
    {next : GuestAccessResult → Cpu → StepResult × Cpu}
    {result floatingResult : BitVec 64 → Option (BitVec 5 × BitVec 64)}
    (hnext : ∀ accessed d, d.state = c.state → (next accessed d).2.bus = d.bus ∧
      c.Retires (next accessed d) (result accessed.access.value)
        (floatingResult accessed.access.value) (packet.programCounter + 2#64)) :
    c.Loads packet.programCounter packet.bits
      (Cpu.afterAccess packet (c.guestRead packet va width .load .load) next) va width result
      floatingResult := by
  rw [Cpu.guestRead, if_neg (by decide), show accessFaultCause .load = .loadAccessFault from rfl]
  generalize hout : Cpu.afterAccess packet _ next = out
  rcases afterAccess_ends c packet hlength va width .load .loadAccessFault
    (readOperation width .load) next hout with
    hno | ⟨pa, m, b, hat, ⟨hok, hbus, hraises⟩ | ⟨hok, rfl⟩⟩
  · exact .unmapped hno
  · refine .refused hat hok (fun hram ↦ ?_) (fun x ↦ ?_) hraises
    · exact Bool.false_ne_true (hok.symm.trans (hram.read .load).1)
    · rw [hbus]
      exact b.ramByte_read pa width .load x
  · obtain ⟨hbus, hretires⟩ := hnext { access := (b.read pa width .load).1 }
      { c with mmu := m, bus := (b.read pa width .load).2 } rfl
    refine .loaded hat ?_ hretires
    have hreads : Reads b _ pa width _ := reads_of_ok hok
    rwa [← show _ = (b.read pa width .load).2 from hbus] at hreads

theorem stores_afterAccess (va value : BitVec 64) (width : AccessWidth)
    {next : GuestAccessResult → Cpu → StepResult × Cpu}
    (hnext : ∀ accessed d, d.state = c.state → (next accessed d).2.bus = d.bus ∧
      c.Retires (next accessed d) none none (packet.programCounter + 2#64)) :
    c.Stores packet.programCounter packet.bits
      (Cpu.afterAccess packet (c.guestWrite packet va width value .store) next) va width value := by
  rw [Cpu.guestWrite]
  generalize hout : Cpu.afterAccess packet _ next = out
  rcases afterAccess_ends c packet hlength va width .atomic .storeAccessFault
    (writeOperation width value .store) next hout with
    hno | ⟨pa, m, b, hat, ⟨hok, hbus, hraises⟩ | ⟨hok, rfl⟩⟩
  · exact .unmapped hno
  · have hram : ¬ b.InRam pa.toNat (widthInBytes width) := fun hram ↦
      Bool.false_ne_true (hok.symm.trans (congrArg AccessResult.ok (hram.write value .store).1))
    refine .refused hat hok hram (fun x ↦ ?_) hraises
    rw [hbus]
    exact Bus.ramByte_write_of_not_inRam hram value .store x
  · obtain ⟨hbus, hretires⟩ := hnext { access := (b.write pa width value .store).1 }
      { c with mmu := m, bus := (b.write pa width value .store).2 } rfl
    refine .stored hat ?_ hretires
    have hwrites : Writes b _ pa width value := writes_of_ok hok
    rwa [← show _ = (b.write pa width value .store).2 from hbus] at hwrites

theorem sequential_eq : packet.programCounter + BitVec.ofNat 64 packet.length =
    packet.programCounter + 2#64 := by
  rw [hlength]

theorem transfers_transfer (result : Option (BitVec 5 × BitVec 64))
    (target : Option (BitVec 64)) :
    c.Transfers packet.programCounter packet.bits
        (c.transfer packet (·.writeRegister result) target) result target ∧
      (c.transfer packet (·.writeRegister result) target).2.bus = c.bus := by
  cases target with
  | none =>
    rw [Cpu.transfer, sequential_eq packet hlength]
    exact ⟨retires_retire c packet hlength (wrote_integer c.state result _), rfl⟩
  | some target =>
    have hodd : ((target &&& 1#64) != 0#64) = target.getLsbD 0 := by
      rw [Bool.eq_iff_iff, bne_iff_ne, ne_eq, Bits.and_one_eq_zero_iff, Bool.not_eq_false]
    rw [Cpu.transfer, Cpu.jumpTo, hodd, Cpu.Transfers]
    split
    · exact ⟨raises_failure c packet hlength rfl _ _, rfl⟩
    · exact ⟨retires_retire c packet hlength (wrote_integer c.state result _), rfl⟩

theorem outcome_perform (i : Instruction) :
    Isa.Compressed.Outcome c packet.programCounter packet.bits (c.perform packet i)
      (some (.base i)) := by
  cases i with
  | load width signed rd rs1 offset =>
    rw [Cpu.perform, sequential_eq packet hlength]
    refine loads_afterAccess c packet hlength _ _ fun accessed d hd ↦
      ⟨rfl, retires_retire c packet hlength ?_⟩
    show c.state.Wrote ((d.state.writeRegister (some (rd, _))).setProgramCounter _) _ none _
    rw [hd]
    exact wrote_integer c.state _ _
  | store width rs1 rs2 offset =>
    rw [Cpu.perform, sequential_eq packet hlength]
    refine stores_afterAccess c packet hlength _ _ _ fun accessed d hd ↦
      ⟨rfl, retires_retire c packet hlength ?_⟩
    rw [hd]
    exact wrote_integer c.state none _
  | _ =>
    rw [c.perform_eq_transfer packet rfl, show BitVec.ofNat 64 packet.length = 2#64 by rw [hlength]]
    exact transfers_transfer c packet hlength _ _

theorem outcome_performCompressed (i : Option Isa.Compressed) :
    Isa.Compressed.Outcome c packet.programCounter packet.bits (c.performCompressed packet i)
      i := by
  have hillegal : c.Raises packet.programCounter packet.bits (c.illegal packet) .illegalInstruction
      (packet.bits.setWidth 64) ∧ (c.illegal packet).2.bus = c.bus :=
    ⟨raises_failure c packet hlength rfl _ _, rfl⟩
  have hoff := c.state.csrs.floatingStateEnabled_eq_false_iff
  cases i with
  | none => exact hillegal
  | some i =>
    cases i with
    | base i => exact outcome_perform c packet hlength i
    | hint =>
      rw [Cpu.performCompressed, sequential_eq packet hlength]
      exact ⟨retires_retire c packet hlength (wrote_integer c.state none _), rfl⟩
    | breakpoint => exact ⟨raises_failure c packet hlength rfl _ _, rfl⟩
    | loadDouble rd rs1 offset =>
      rw [Cpu.performCompressed, Isa.Compressed.Outcome, sequential_eq packet hlength]
      cases hon : c.state.csrs.floatingStateEnabled with
      | false =>
        rw [if_pos (hoff.1 hon)]
        exact hillegal
      | true =>
        rw [if_neg (show ¬ (!true) = true by decide),
          if_neg fun hno ↦ Bool.false_ne_true ((hoff.2 hno).symm.trans hon)]
        refine loads_afterAccess c packet hlength _ _ fun accessed d hd ↦
          ⟨rfl, retires_retire c packet hlength ?_⟩
        show c.state.Wrote ((d.state.setFloating rd _).setProgramCounter _) none _ _
        rw [hd]
        exact wrote_floating hon rd _ _
    | storeDouble rs1 rs2 offset =>
      rw [Cpu.performCompressed, Isa.Compressed.Outcome, sequential_eq packet hlength]
      cases hon : c.state.csrs.floatingStateEnabled with
      | false =>
        rw [if_pos (hoff.1 hon)]
        exact hillegal
      | true =>
        rw [if_neg (show ¬ (!true) = true by decide),
          if_neg fun hno ↦ Bool.false_ne_true ((hoff.2 hno).symm.trans hon)]
        refine stores_afterAccess c packet hlength _ _ _ fun accessed d hd ↦
          ⟨rfl, retires_retire c packet hlength ?_⟩
        rw [hd]
        exact wrote_integer c.state none _

end Execute

/-- **RV64C.**  A 16-bit encoding does to the hart and to memory what the manual says it does, two
bytes long; hints do nothing, and undefined encodings are illegal instructions.  Its traps carry the
encoding itself, and the immediates that the encoders place in the expanded word are those that the
decoder takes out. -/
theorem execute_compressed (c : Cpu) (pc : BitVec 64) (h : BitVec 16) :
    let packet : InstructionPacket := { programCounter := pc, bits := h.setWidth 32, length := 2 }
    Isa.Compressed.Outcome c pc (h.setWidth 32) (c.execute packet) (Isa.Compressed.decode h) ∧
    (∀ trap, (c.execute packet).1.trap = some trap →
      trap.instruction = h.setWidth 32 ∧
        (trap.cause = .illegalInstruction → trap.value = h.setWidth 64)) ∧
    (∀ opcode rd function3 rs1 (x : BitVec 12),
      immediateI (encodeI opcode rd function3 rs1 (x.signExtend 64)) = x.signExtend 64) ∧
    (∀ opcode function3 rs1 rs2 (x : BitVec 12),
      immediateS (encodeS opcode function3 rs1 rs2 (x.signExtend 64)) = x.signExtend 64) ∧
    (∀ function3 rs1 rs2 (x : BitVec 12),
      immediateB (encodeB function3 rs1 rs2 ((x ++ 0#1).signExtend 64)) =
        (x ++ 0#1).signExtend 64) ∧
    ∀ x : BitVec 20,
      immediateJ (encodeJ ((x ++ 0#1).signExtend 64)) = (x ++ 0#1).signExtend 64 := by
  intro packet
  have hbits : packet.bits.setWidth 16 = h := by
    rw [show packet.bits = h.setWidth 32 from rfl, BitVec.setWidth_setWidth_of_le _ (by decide),
      BitVec.setWidth_eq]
  refine ⟨?_, fun trap htrap ↦ ?_, fun opcode rd function3 rs1 x ↦ ?_,
    fun opcode function3 rs1 rs2 x ↦ ?_, fun function3 rs1 rs2 x ↦ ?_, fun x ↦ ?_⟩
  · rw [execute_of_length c packet rfl, hbits]
    exact outcome_performCompressed c packet rfl _
  · exact trap_execute c packet rfl htrap
  · rw [immediateI_eq, (fieldsI_encodeI ..).immediate]
    exact survives_signed x (by decide) (by decide)
  · rw [immediateS_eq, (fieldsS_encodeS ..).immediate]
    exact survives_signed x (by decide) (by decide)
  · rw [immediateB_eq, (fieldsB_encodeB _ _ _ _ (getLsbD_zero_append_zero x)).immediate]
    exact survives_signed (x ++ 0#1) (by decide) (by decide)
  · rw [immediateJ_eq, (fieldsJ_encodeJ _ (getLsbD_zero_append_zero x)).immediate]
    exact survives_signed (x ++ 0#1) (by decide) (by decide)

end Rvemu
