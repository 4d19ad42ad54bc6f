import Rvemu.Core.CsrRuns
import Rvemu.Core.IntegerSemantics
import Rvemu.Core.PerformFloating
import Rvemu.Core.Run

/-!
# The floating-point registers and flags over runs

What the F and D instructions of a run do to the registers, and how the flags build up.  Each step
writes one register, with a single boxed; computational sources are unboxed, transfers are not; and
the flags after a run are those before it together with those of every instruction that retired.
-/

set_option autoImplicit false

namespace Rvemu

open Isa Bytes

/-! ## Flags -/

def Cpu.fflags (c : Cpu) : BitVec 8 := c.state.csrs.floatingExceptionFlags

section Flags

variable (c : CsrFile)

theorem floatingExceptionFlags_eq : c.floatingExceptionFlags = c.fcsr &&& 0x1F#8 := rfl

@[simp] theorem fcsr_markFloatingStateDirty : c.markFloatingStateDirty.fcsr = c.fcsr := by
  rw [CsrFile.markFloatingStateDirty]
  split <;> rfl

@[simp] theorem fcsr_markVectorStateDirty : c.markVectorStateDirty.fcsr = c.fcsr := by
  rw [CsrFile.markVectorStateDirty]
  split <;> rfl

/-- Accruing needs FS to be on. -/
theorem fcsr_accrue (h : c.floatingStateEnabled = true) (flags : BitVec 8) :
    (c.accrueFloatingExceptionFlags flags).fcsr = c.fcsr ||| (flags &&& 0x1F#8) := by
  have hnormalized : normalizeFloatingExceptionFlags flags = flags &&& 0x1F#8 := rfl
  rw [CsrFile.accrueFloatingExceptionFlags, hnormalized, h]
  by_cases hzero : flags &&& 0x1F#8 = 0#8
  · simp [hzero]
  · rw [if_neg (by simpa using hzero), fcsr_markFloatingStateDirty]

theorem flags_or (fcsr flags : BitVec 8) :
    (fcsr ||| (flags &&& 0x1F#8)) &&& 0x1F#8 = (fcsr &&& 0x1F#8) ||| (flags &&& 0x1F#8) := by
  rw [BitVec.and_or_distrib_right, BitVec.and_assoc, BitVec.and_self]

/-- The flags stay clear of the rounding mode. -/
theorem mode_or (fcsr flags : BitVec 8) :
    ((fcsr ||| (flags &&& 0x1F#8)) >>> 5) &&& 7#8 = (fcsr >>> 5) &&& 7#8 := by
  have hlow : (flags &&& 0x1F#8) >>> 5 = 0#8 := by
    have hbits : ∀ i : Fin 8, (0x1F#8).getLsbD (5 + i) = false := by decide
    refine BitVec.eq_of_getLsbD_eq fun i hi ↦ ?_
    rw [BitVec.getLsbD_ushiftRight, BitVec.getLsbD_and, hbits ⟨i, hi⟩, Bool.and_false,
      BitVec.getLsbD_zero]
  rw [BitVec.ushiftRight_or_distrib, hlow, BitVec.or_zero]

end Flags

/-! ## Registers -/

/-- The floating-point registers after one of the two kinds was written. -/
def floatingAfter (f : BitVec 5 → BitVec 64) (r : BitVec 5) : Option Written → BitVec 64
  | some (.floating rd value) => if r = rd then value else f r
  | some (.integer ..) | none => f r

/-- The integer registers; x0 stays. -/
def integerAfter (x : BitVec 5 → BitVec 64) (r : BitVec 5) : Option Written → BitVec 64
  | some (.integer rd value) => if r = rd ∧ r ≠ 0#5 then value else x r
  | some (.floating ..) | none => x r

/-- From `s` to `s'`: one register at most is written, the flags accrue, and execution goes on at
`next`; the rounding mode stays. -/
structure Settled (s s' : CpuState) (written : Option Written) (flags : BitVec 8)
    (next : BitVec 64) : Prop where
  floating : ∀ r, s'.floating r = floatingAfter s.floating r written
  integer : ∀ r, s'.integer r = integerAfter s.integer r written
  flags : s'.csrs.floatingExceptionFlags = s.csrs.floatingExceptionFlags ||| (flags &&& 0x1F#8)
  mode : s'.csrs.floatingRoundingMode = s.csrs.floatingRoundingMode
  programCounter : s'.programCounter = next

theorem settled_none (s : CpuState) (next : BitVec 64) :
    Settled s (s.setProgramCounter next) none 0#8 next :=
  ⟨fun _ ↦ rfl, fun _ ↦ rfl, (BitVec.or_zero).symm, rfl, rfl⟩

theorem settled_setFloating (s : CpuState) (rd : BitVec 5) (value next : BitVec 64) :
    Settled s ((s.setFloating rd value).setProgramCounter next) (some (.floating rd value)) 0#8
      next := by
  have hfcsr : ((s.setFloating rd value).setProgramCounter next).csrs.fcsr = s.csrs.fcsr :=
    fcsr_markFloatingStateDirty s.csrs
  refine ⟨fun r ↦ ?_, fun _ ↦ rfl, ?_, ?_, rfl⟩
  · show Function.update s.floatingRegisters rd value r = _
    rw [Function.update_apply]
    rfl
  · rw [floatingExceptionFlags_eq, hfcsr]
    exact (BitVec.or_zero).symm
  · rw [CsrFile.floatingRoundingMode, hfcsr]
    rfl

/-- Settling an outcome while FS is on. -/
theorem settled_settle {s : CpuState} (h : s.csrs.floatingStateEnabled = true) (o : Outcome)
    (next : BitVec 64) :
    Settled s ((s.settle o).setProgramCounter next) (some o.written) o.flags next := by
  have haccrue : ∀ t : CpuState, t.csrs.floatingStateEnabled = true → t.csrs.fcsr = s.csrs.fcsr →
      (t.accrueFlags o.flags).csrs.floatingExceptionFlags =
        s.csrs.floatingExceptionFlags ||| (o.flags &&& 0x1F#8) ∧
      (t.accrueFlags o.flags).csrs.floatingRoundingMode = s.csrs.floatingRoundingMode := by
    intro t ht hfcsr
    have hone : (t.accrueFlags o.flags).csrs.fcsr = s.csrs.fcsr ||| (o.flags &&& 0x1F#8) := by
      rw [← hfcsr]
      exact fcsr_accrue t.csrs ht o.flags
    refine ⟨?_, ?_⟩
    · rw [floatingExceptionFlags_eq, hone, flags_or, floatingExceptionFlags_eq]
    · rw [CsrFile.floatingRoundingMode, hone, mode_or, CsrFile.floatingRoundingMode]
  obtain ⟨written, flags⟩ := o
  cases written with
  | floating rd value =>
    have hon : s.csrs.markFloatingStateDirty.floatingStateEnabled = true := by
      rw [CsrFile.floatingStateEnabled_markFloatingStateDirty, h]
    obtain ⟨hflags, hmode⟩ := haccrue (s.setFloating rd value) hon
      (fcsr_markFloatingStateDirty s.csrs)
    refine ⟨fun r ↦ ?_, fun _ ↦ rfl, hflags, hmode, rfl⟩
    show Function.update s.floatingRegisters rd value r = _
    rw [Function.update_apply]
    rfl
  | integer rd value =>
    have hcsrs : (s.setInteger rd value).csrs = s.csrs := by
      rw [CpuState.setInteger]
      split <;> rfl
    obtain ⟨hflags, hmode⟩ := haccrue (s.setInteger rd value) (by rw [hcsrs]; exact h)
      (by rw [hcsrs])
    refine ⟨fun r ↦ ?_, fun r ↦ integer_setInteger s rd r value, hflags, hmode, rfl⟩
    show (s.setInteger rd value).floating r = _
    rw [CpuState.setInteger]
    split <;> rfl

/-! ## Instructions -/

/-- The rounding mode field of the computations that round. -/
def Isa.Computation.roundingField : Computation → Option (BitVec 3)
  | fused _ _ _ _ _ _ _ rm | arithmetic _ _ _ _ _ rm | squareRoot _ _ _ rm
  | toInteger _ _ _ _ _ rm | fromInteger _ _ _ _ _ rm | convert _ _ _ _ rm => some rm
  | signInject .. | minimumMaximum .. | compare .. | classify .. | moveToInteger ..
  | moveFromInteger .. => none

/-- The flags an instruction raises. -/
def Isa.FloatingInstruction.flags (s : CpuState) : FloatingInstruction → BitVec 8
  | .compute computation =>
    match computation.outcome s.integer s.floating s.csrs.floatingRoundingMode with
    | some o => o.flags &&& 0x1F#8
    | none => 0#8
  | .load .. | .store .. => 0#8

/-- The effect of an instruction that retires, where `f` is the hart that the fetch leaves behind.
Loads box what they read; stores write the register as it is. -/
def Isa.FloatingInstruction.Effect (c f c' : Cpu) (length : BitVec 64) (i : FloatingInstruction) :
    Prop :=
  let x := c.state.integer
  let next := c.state.programCounter + length
  match i with
  | .load format rd rs1 offset =>
    ∃ pa m b value,
      f.mmu.translate f.bus (x rs1 + offset) (accessWidth format) .load f.dataContext =
        (.ok pa, m, b) ∧
      Reads b c'.bus pa (accessWidth format) value ∧
      Settled c.state c'.state (some (.floating rd (boxed value format))) 0#8 next
  | .store format rs1 rs2 offset =>
    ∃ pa m b,
      f.mmu.translate f.bus (x rs1 + offset) (accessWidth format) .atomic f.dataContext =
        (.ok pa, m, b) ∧
      Writes b c'.bus pa (accessWidth format) (c.state.floating rs2) ∧
      Settled c.state c'.state none 0#8 next
  | .compute computation =>
    ∃ o, computation.outcome x c.state.floating c.state.csrs.floatingRoundingMode = some o ∧
      c'.bus = f.bus ∧ Settled c.state c'.state (some o.written) o.flags next

section Steps

variable {c f : Cpu} {packet : InstructionPacket} {i : FloatingInstruction}

theorem Settled.countStep {s : CpuState} {d : Cpu} {written : Option Written} {flags : BitVec 8}
    {next : BitVec 64} (h : Settled s d.state written flags next) (result : StepResult) :
    Settled s (Cpu.countStep result d).state written flags next := by
  obtain ⟨cycle, instret, hcount⟩ := countStep_csrs result d
  rw [hcount]
  exact ⟨h.floating, h.integer, h.flags, h.mode, h.programCounter⟩

theorem lowBits_of_decode {bits : BitVec 32} (h : FloatingInstruction.decode bits = some i) :
    bits.setWidth 16 &&& 3#16 = 3#16 := by
  have hlow : bits.setWidth 16 &&& 3#16 = (bits.extractLsb' 0 7).setWidth 16 &&& 3#16 := by
    refine BitVec.eq_of_toNat_eq ?_
    rw [BitVec.toNat_and, BitVec.toNat_and, BitVec.toNat_setWidth, BitVec.toNat_setWidth,
      BitVec.extractLsb'_toNat, show (3#16).toNat = 2 ^ 2 - 1 from rfl,
      Nat.and_two_pow_sub_one_eq_mod, Nat.and_two_pow_sub_one_eq_mod, Nat.shiftRight_zero]
    omega
  rw [hlow]
  rcases opcode_of_decode h with ⟨hop | hop, -⟩ | hop | hop | hop | hop | hop <;> rw [hop] <;> rfl

/-- The step executes the expanded packet. -/
theorem Fetches.execute_eq (h : Fetches c packet f)
    (hbits : packet.standard.bits.setWidth 16 &&& 3#16 = 3#16) :
    (f.execute packet).1.retired = (f.executeStandard packet.standard).1.retired ∧
      (f.execute packet).2 = (f.executeStandard packet.standard).2 := by
  rw [Cpu.execute]
  cases hc : packet.compressed with
  | false =>
    rw [InstructionPacket.standard, hc, if_neg (by decide), if_neg (by decide)]
    exact ⟨rfl, rfl⟩
  | true =>
    rw [InstructionPacket.standard, hc, if_pos rfl] at hbits
    rw [InstructionPacket.standard, hc, if_pos rfl, if_pos rfl]
    cases hx : decompressRv64c (packet.bits.setWidth 16) with
    | none =>
      rw [hx] at hbits
      exact absurd hbits (fetch_bits h.fetch (beq_iff_eq.1 hc))
    | some expanded => exact ⟨rfl, rfl⟩

/-- **Registers.**  A step with a floating-point instruction that retires has the effect of the
instruction. -/
theorem floatingEffect_of_retired (h : Fetches c packet f)
    (hi : FloatingInstruction.decode packet.standard.bits = some i)
    (hretired : c.step.1.retired = true) :
    i.Effect c f c.step.2 (BitVec.ofNat 64 packet.length) := by
  obtain ⟨hresult, hdone⟩ := h.execute_eq (lowBits_of_decode hi)
  rw [h.step_eq] at hretired ⊢
  rw [hresult] at hretired
  rw [hdone]
  rw [executeStandard_eq_performFloating hi] at hretired ⊢
  have hnext : packet.standard.programCounter + BitVec.ofNat 64 packet.standard.length =
      c.state.programCounter + BitVec.ofNat 64 packet.length := by
    rw [InstructionPacket.standard_programCounter, InstructionPacket.standard_length,
      h.programCounter]
  have hsettled : ∀ {s' : CpuState} {written flags next}, Settled f.state s' written flags next →
      Settled c.state s' written flags next := by
    intro s' written flags next hs
    rw [h.state] at hs
    exact ⟨hs.floating, hs.integer, hs.flags, hs.mode, hs.programCounter⟩
  have hx : f.state.integer = c.state.integer := by
    rw [h.state]
    rfl
  have hf : f.state.floating = c.state.floating := by
    rw [h.state]
    rfl
  have hcsrs : f.state.csrs = c.state.csrs := by
    rw [h.state]
    rfl
  cases hon : f.state.csrs.floatingStateEnabled with
  | false =>
    rw [performFloating_off hon] at hretired
    cases hretired
  | true =>
    rw [performFloating_on hon, hnext, hx, hf, hcsrs] at hretired ⊢
    cases i with
    | load format rd rs1 offset =>
      obtain ⟨htrap, hdone⟩ := afterAccess_retired hretired
      obtain ⟨pa, m, b, ht, hok, hg⟩ := guestAccess_of_no_trap htrap
      refine ⟨pa, m, b, (b.read pa (accessWidth format) .load).1.value, ht, ?_, ?_⟩
      · dsimp only
        rw [bus_countStep, hdone, Cpu.guestRead, hg]
        exact reads_of_ok hok
      · dsimp only
        rw [hdone, Cpu.guestRead, hg]
        refine hsettled (Settled.countStep ?_ _)
        exact settled_setFloating f.state rd _ _
    | store format rs1 rs2 offset =>
      obtain ⟨htrap, hdone⟩ := afterAccess_retired hretired
      obtain ⟨pa, m, b, ht, hok, hg⟩ := guestAccess_of_no_trap htrap
      refine ⟨pa, m, b, ht, ?_, ?_⟩
      · dsimp only
        rw [bus_countStep, hdone, Cpu.guestWrite, hg]
        exact writes_of_ok hok
      · dsimp only
        rw [hdone, Cpu.guestWrite, hg]
        refine hsettled (Settled.countStep ?_ _)
        exact settled_none f.state _
    | compute computation =>
      cases houtcome : computation.outcome c.state.integer c.state.floating
          c.state.csrs.floatingRoundingMode with
      | none =>
        simp only [houtcome] at hretired
        cases hretired
      | some o =>
        simp only [houtcome]
        refine ⟨o, houtcome, bus_countStep _ _, hsettled (Settled.countStep ?_ _)⟩
        exact settled_settle hon o _

end Steps

/-! ## What does not retire -/

section Traps

variable {c : Cpu} {packet : InstructionPacket}

theorem afterAccess_state {accessed : GuestAccessResult × Cpu}
    {next : GuestAccessResult → Cpu → StepResult × Cpu} (hstate : accessed.2.state = c.state)
    (hnext : ∀ a d, (next a d).1.retired = true)
    (h : (Cpu.afterAccess packet accessed next).1.retired = false) :
    (Cpu.afterAccess packet accessed next).2.state = c.state := by
  rw [Cpu.afterAccess] at h ⊢
  cases htrap : accessed.1.trap with
  | some trap => exact hstate
  | none =>
    rw [htrap, hnext] at h
    cases h

/-- A floating-point instruction that does not retire leaves the hart alone. -/
theorem performFloating_state {i : FloatingInstruction}
    (h : (c.performFloating packet i).1.retired = false) :
    (c.performFloating packet i).2.state = c.state := by
  cases hon : c.state.csrs.floatingStateEnabled with
  | false => rw [performFloating_off hon, Cpu.illegal]
  | true =>
    rw [performFloating_on hon] at h ⊢
    cases i with
    | load format rd rs1 offset =>
      exact afterAccess_state (accessed_guestRead ..).state (fun _ _ ↦ rfl) h
    | store format rs1 rs2 offset =>
      exact afterAccess_state (accessed_guestWrite ..).state (fun _ _ ↦ rfl) h
    | compute computation =>
      cases houtcome : computation.outcome c.state.integer c.state.floating
          c.state.csrs.floatingRoundingMode with
      | none => simp only [houtcome, Cpu.illegal]
      | some o =>
        simp only [houtcome] at h
        cases h

/-- A computation has no outcome exactly if it rounds, with a reserved mode. -/
theorem outcome_eq_none_iff (computation : Computation) (x f : BitVec 5 → BitVec 64)
    (frm : BitVec 3) : computation.outcome x f frm = none ↔
      ∃ rm, computation.roundingField = some rm ∧ rounding rm frm = none := by
  cases computation <;> simp [Computation.outcome, Computation.roundingField]

/-- **Reserved modes.**  The instruction is illegal, and has no effect. -/
theorem execute_reserved {computation : Computation} {rm : BitVec 3} (hlength : packet.length = 4)
    (hi : FloatingInstruction.decode packet.bits = some (.compute computation))
    (hrm : computation.roundingField = some rm)
    (hreserved : rounding rm c.state.csrs.floatingRoundingMode = none) :
    c.execute packet = c.illegal packet := by
  have houtcome := (outcome_eq_none_iff computation c.state.integer c.state.floating _).2
    ⟨rm, hrm, hreserved⟩
  rw [Cpu.execute, InstructionPacket.compressed, hlength, if_neg (by decide),
    executeStandard_eq_performFloating hi]
  cases hon : c.state.csrs.floatingStateEnabled with
  | false => exact performFloating_off hon _
  | true =>
    rw [performFloating_on hon]
    simp only [houtcome]

end Traps

/-! ## Runs -/

/-- The floating-point instruction that the next step executes. -/
def Cpu.floatingInstruction (c : Cpu) : Option FloatingInstruction :=
  if c.state.waitingForInterrupt && !c.state.csrs.hasLocallyEnabledInterrupt then none
  else
    match c.awake.fetch.1 with
    | .ok packet => FloatingInstruction.decode packet.standard.bits
    | .error _ => none

namespace HartEvent

/-- Steps execute floating-point instructions; anything may happen between them. -/
def IsFloating (c : Cpu) : HartEvent → Prop
  | step => c.floatingInstruction.isSome = true
  | takeTrap _ | takePendingInterrupt | setInterruptPending _ _ | memory _ => True

/-- The flags of the instruction that retires. -/
def raised (c : Cpu) : HartEvent → BitVec 8
  | step => if c.step.1.retired then c.floatingInstruction.elim 0#8 (·.flags c.state) else 0#8
  | takeTrap _ | takePendingInterrupt | setInterruptPending _ _ | memory _ => 0#8

end HartEvent

/-- The flags of all the instructions that retire in a run. -/
def Cpu.raised (c : Cpu) : List HartEvent → BitVec 8
  | [] => 0#8
  | e :: events => e.raised c ||| (e.apply c).raised events

section Runs

variable {c : Cpu}

theorem fetches_of_floatingInstruction {i : FloatingInstruction}
    (h : c.floatingInstruction = some i) :
    ∃ packet f, Fetches c packet f ∧ FloatingInstruction.decode packet.standard.bits = some i := by
  rw [Cpu.floatingInstruction] at h
  split at h
  · cases h
  · next hawake =>
    cases hfetch : c.awake.fetch with
    | mk fetched f =>
      rw [hfetch] at h
      cases fetched with
      | error trap => cases h
      | ok packet => exact ⟨packet, f, ⟨by simpa using hawake, hfetch⟩, h⟩

theorem Isa.FloatingInstruction.Effect.flags {f c' : Cpu} {length : BitVec 64}
    {i : FloatingInstruction} (h : i.Effect c f c' length) :
    c'.fflags = c.fflags ||| i.flags c.state := by
  cases i with
  | load =>
    obtain ⟨_, _, _, _, _, _, hsettled⟩ := h
    exact hsettled.flags
  | store =>
    obtain ⟨_, _, _, _, _, hsettled⟩ := h
    exact hsettled.flags
  | compute computation =>
    obtain ⟨o, houtcome, -, hsettled⟩ := h
    rw [FloatingInstruction.flags, houtcome]
    exact hsettled.flags

theorem fflags_enterHandler (target source : PrivilegeMode) (pc cause value : BitVec 64)
    (vector : BitVec 64) :
    (c.enterHandler (Cpu.enterTrap c.state.csrs target source pc cause value) target
      vector).fflags =
      c.fflags := by
  have hfcsr : (Cpu.enterTrap c.state.csrs target source pc cause value).fcsr =
      c.state.csrs.fcsr := by
    rw [Cpu.enterTrap]
    split <;> rfl
  show (Cpu.enterTrap c.state.csrs target source pc cause value).fcsr &&& 0x1F#8 = _
  rw [hfcsr]
  rfl

theorem fflags_takePendingInterrupt : c.takePendingInterrupt.2.fflags = c.fflags := by
  rw [Cpu.takePendingInterrupt]
  split
  · rfl
  · exact fflags_enterHandler _ _ _ _ _ _

/-- One event. -/
theorem fflags_apply {e : HartEvent} (h : e.IsFloating c) :
    (e.apply c).fflags = c.fflags ||| e.raised c := by
  cases e with
  | step =>
    obtain ⟨i, hi⟩ := Option.isSome_iff_exists.1 h
    obtain ⟨packet, f, hfetch, hdecode⟩ := fetches_of_floatingInstruction hi
    show c.step.2.fflags = c.fflags ||| HartEvent.raised c .step
    rw [HartEvent.raised, hi]
    cases hretired : c.step.1.retired with
    | true => exact (floatingEffect_of_retired hfetch hdecode hretired).flags
    | false =>
      obtain ⟨hresult, hdone⟩ := hfetch.execute_eq (lowBits_of_decode hdecode)
      rw [hfetch.step_eq] at hretired ⊢
      rw [hresult, executeStandard_eq_performFloating hdecode] at hretired
      rw [hdone, executeStandard_eq_performFloating hdecode]
      obtain ⟨cycle, instret, hcount⟩ :=
        countStep_csrs (f.execute packet).1 (f.performFloating packet.standard i).2
      rw [Cpu.fflags, hcount, performFloating_state hretired, hfetch.state]
      exact (BitVec.or_zero).symm
  | takeTrap trap => exact (fflags_enterHandler _ _ _ _ _ _).trans (BitVec.or_zero).symm
  | takePendingInterrupt => exact (fflags_takePendingInterrupt).trans (BitVec.or_zero).symm
  | setInterruptPending cause pending => exact (BitVec.or_zero).symm
  | memory bus => exact (BitVec.or_zero).symm

/-- **Flags.**  They build up from the instructions that retire. -/
theorem fflags_run {events : List HartEvent}
    (h : Runs.Along HartEvent.apply HartEvent.IsFloating c events) :
    (c.run events).fflags = c.fflags ||| c.raised events := by
  induction events generalizing c with
  | nil => exact (BitVec.or_zero).symm
  | cons e events ih =>
    show ((e.apply c).run events).fflags = _
    rw [ih h.2, fflags_apply h.1, Cpu.raised, BitVec.or_assoc]

end Runs

/-! ## Any instruction -/

/-- Every flag of `c` is set in `c'`. -/
def FlagsKept (c c' : CsrFile) : Prop :=
  c.floatingExceptionFlags ||| c'.floatingExceptionFlags = c'.floatingExceptionFlags

theorem flagsKept_of_fcsr {c c' : CsrFile} (h : c'.fcsr = c.fcsr) : FlagsKept c c' := by
  rw [FlagsKept, floatingExceptionFlags_eq, floatingExceptionFlags_eq, h, BitVec.or_self]

theorem FlagsKept.trans {c c' c'' : CsrFile} (h : FlagsKept c c') (h' : FlagsKept c' c'') :
    FlagsKept c c'' := by
  rw [FlagsKept] at h h' ⊢
  rw [← h', ← BitVec.or_assoc, h]

theorem Update.flagsKept {s s' : CpuState} (h : Update s s') : FlagsKept s.csrs s'.csrs := by
  cases h with
  | integer index value =>
    refine flagsKept_of_fcsr ?_
    rw [CpuState.setInteger]
    split <;> rfl
  | floating _ index value => exact flagsKept_of_fcsr (fcsr_markFloatingStateDirty s.csrs)
  | flags flags =>
    cases hon : s.csrs.floatingStateEnabled with
    | false =>
      refine flagsKept_of_fcsr ?_
      rw [CpuState.accrueFlags, CpuState.modifyCsrs, CsrFile.accrueFloatingExceptionFlags, hon]
      rfl
    | true =>
      have hfcsr : (s.accrueFlags flags).csrs.fcsr = s.csrs.fcsr ||| (flags &&& 0x1F#8) :=
        fcsr_accrue s.csrs hon flags
      rw [FlagsKept, floatingExceptionFlags_eq, floatingExceptionFlags_eq, hfcsr, flags_or,
        ← BitVec.or_assoc, BitVec.or_self]
  | element _ hs =>
    obtain ⟨vectorState, -, rfl⟩ := Option.map_eq_some_iff.1 hs
    exact flagsKept_of_fcsr (fcsr_markVectorStateDirty s.csrs)
  | startAt _ element => exact flagsKept_of_fcsr (fcsr_markVectorStateDirty _)
  | clearStart _ => exact flagsKept_of_fcsr (fcsr_markVectorStateDirty _)
  | configuration _ hc => exact flagsKept_of_fcsr (fcsr_markVectorStateDirty _)
  | token token => exact flagsKept_of_fcsr rfl
  | waiting value => exact flagsKept_of_fcsr rfl
  | jump _ => exact flagsKept_of_fcsr rfl

theorem Updates.flagsKept {s s' : CpuState} (h : Updates s s') : FlagsKept s.csrs s'.csrs := by
  induction h with
  | refl => exact flagsKept_of_fcsr rfl
  | tail _ hlast ih => exact ih.trans hlast.flagsKept

theorem flagsKept_writeValue (c : CsrFile) {address : CsrAddress} (hfflags : address ≠ .fflags)
    (hfcsr : address ≠ .fcsr) (value : BitVec 64) : FlagsKept c (c.writeValue address value) := by
  cases address with
  | fflags => exact absurd rfl hfflags
  | fcsr => exact absurd rfl hfcsr
  | frm =>
    have hhigh : ((value.setWidth 8 &&& 7#8) <<< 5) &&& 0x1F#8 = 0#8 := by
      have hbits : ∀ i : Fin 8, ((0x1F#8).getLsbD i && decide (5 ≤ i.val)) = false := by decide
      refine BitVec.eq_of_getLsbD_eq fun i hi ↦ ?_
      have hi' := hbits ⟨i, hi⟩
      rw [BitVec.getLsbD_and, BitVec.getLsbD_shiftLeft, BitVec.getLsbD_zero]
      by_cases h5 : 5 ≤ i
      · rw [show (0x1F#8).getLsbD i = false by simpa [h5] using hi', Bool.and_false]
      · rw [decide_eq_true (show i < 5 by omega), Bool.not_true, Bool.and_false, Bool.false_and,
          Bool.false_and]
    have hfcsr : (c.writeValue .frm value).fcsr =
        (c.fcsr &&& 0x1F#8) ||| ((value.setWidth 8 &&& 7#8) <<< 5) :=
      fcsr_markFloatingStateDirty _
    rw [FlagsKept, floatingExceptionFlags_eq, floatingExceptionFlags_eq, hfcsr,
      BitVec.and_or_distrib_right, BitVec.and_assoc, BitVec.and_self, hhigh, BitVec.or_zero,
      BitVec.or_self]
  | satp =>
    refine flagsKept_of_fcsr ?_
    rw [CsrFile.writeValue]
    split <;> rfl
  | vstart | vxsat | vxrm | vcsr => exact flagsKept_of_fcsr (fcsr_markVectorStateDirty _)
  | _ => exact flagsKept_of_fcsr rfl

/-- A CSR write of the flags, by `fflags` or by `fcsr`. -/
def WritesFlags (c : CsrFile) (request : CsrAccessRequest) : Prop :=
  ∃ value, c.written request = some (.fflags, value) ∨ c.written request = some (.fcsr, value)

theorem flagsKept_access {c : CsrFile} {request : CsrAccessRequest} (h : ¬ WritesFlags c request) :
    FlagsKept c (c.access request).2 := by
  rw [CsrFile.access_of_written]
  cases hwritten : c.written request with
  | none => exact flagsKept_of_fcsr rfl
  | some w =>
    obtain ⟨address, value⟩ := w
    refine flagsKept_writeValue c ?_ ?_ value
    · rintro rfl
      exact h ⟨value, Or.inl hwritten⟩
    · rintro rfl
      exact h ⟨value, Or.inr hwritten⟩

/-- The next step executes a CSR instruction that writes the flags, and this is its access. -/
structure WritesFlagsNext (c : Cpu) (request : CsrAccessRequest) : Prop where
  requested : ∃ packet f, Fetches c packet f ∧
    CsrRequested packet.standard.bits c.state request
  writes : WritesFlags c.state.csrs request

/-- Whatever a step executes, it clears no flag unless it writes them as a CSR. -/
theorem flagsKept_step (c : Cpu) : FlagsKept c.state.csrs c.step.2.state.csrs ∨
    ∃ request, WritesFlagsNext c request ∧
      c.step.2.state.csrs.fcsr = (c.state.csrs.access request).2.fcsr := by
  obtain ⟨s, s', bits, cycle, instret, hs, hretired, hstep, hfetched⟩ := step_change c
  have hcsrs : s.csrs = c.state.csrs := by
    rcases hs with rfl | rfl
    · rfl
    · rfl
  have hrequested {request : CsrAccessRequest} (h : CsrRequested bits s request) :
      CsrRequested bits c.state request := by
    rcases hs with rfl | rfl
    · exact h
    · exact h
  have hfcsr : c.step.2.state.csrs.fcsr = s'.csrs.fcsr := by rw [hstep]
  have hkept : FlagsKept s'.csrs c.step.2.state.csrs := flagsKept_of_fcsr hfcsr
  rcases hfetched with h | ⟨packet, f, hfetches, rfl⟩
  · rw [← hcsrs]
    exact Or.inl (h.flagsKept.trans hkept)
  rw [← hcsrs, hfcsr]
  cases hretired with
  | updates h => exact Or.inl (h.flagsKept.trans hkept)
  | @csr request hr hsuccess index value target ht =>
    have hwritten : ∀ t : CpuState, ((t.setInteger index value).setProgramCounter target).csrs =
        t.csrs := by
      intro t
      show (t.setInteger index value).csrs = _
      rw [CpuState.setInteger]
      split <;> rfl
    by_cases h : WritesFlags s.csrs request
    · rw [hcsrs] at h
      exact Or.inr ⟨request, ⟨⟨packet, f, hfetches, hrequested hr⟩, h⟩, by rw [hwritten]⟩
    · refine Or.inl (FlagsKept.trans ?_ hkept)
      rw [hwritten]
      exact flagsKept_access h
  | machineReturn h => exact Or.inl (FlagsKept.trans (flagsKept_of_fcsr rfl) hkept)
  | supervisorReturn h => exact Or.inl (FlagsKept.trans (flagsKept_of_fcsr rfl) hkept)

/-- The event is not a step with a CSR instruction that writes the flags. -/
def HartEvent.LeavesFlags (c : Cpu) (e : HartEvent) : Prop :=
  e = .step → ∀ request, ¬ WritesFlagsNext c request

theorem flagsKept_of_fflags {c c' : Cpu} (h : c'.fflags = c.fflags) :
    FlagsKept c.state.csrs c'.state.csrs := by
  rw [Cpu.fflags, Cpu.fflags] at h
  rw [FlagsKept, h, BitVec.or_self]

theorem flagsKept_apply {c : Cpu} {e : HartEvent} (h : e.LeavesFlags c) :
    FlagsKept c.state.csrs (e.apply c).state.csrs := by
  cases e with
  | step =>
    rcases flagsKept_step c with hkept | ⟨request, hwrites, -⟩
    · exact hkept
    · exact absurd hwrites (h rfl request)
  | takeTrap trap => exact flagsKept_of_fflags (fflags_enterHandler _ _ _ _ _ _)
  | takePendingInterrupt => exact flagsKept_of_fflags (fflags_takePendingInterrupt)
  | setInterruptPending cause pending => exact flagsKept_of_fcsr rfl
  | memory bus => exact flagsKept_of_fcsr rfl

/-- **A flag stays.**  In a run no flag is cleared as long as no CSR instruction writes them. -/
theorem flagsKept_run {c : Cpu} {events : List HartEvent}
    (h : Runs.Along HartEvent.apply HartEvent.LeavesFlags c events) :
    FlagsKept c.state.csrs (c.run events).state.csrs := by
  induction events generalizing c with
  | nil => exact flagsKept_of_fcsr rfl
  | cons e events ih => exact (flagsKept_apply h.1).trans (ih h.2)

/-- **Registers and flags over runs.**  A floating-point instruction that retires has its effect,
boxed and unboxed as it should be; one with a reserved rounding mode is illegal and has none.  In a
run of such instructions, whatever happens between them, the flags are those of the beginning with
those of every instruction that retired.  A step of any kind that clears a flag executes a CSR
instruction that writes the flags, and leaves what this one writes; so in a run without them no flag
is cleared. -/
theorem floating_discipline :
    (∀ (c f : Cpu) (packet : InstructionPacket) (i : FloatingInstruction), Fetches c packet f →
      FloatingInstruction.decode packet.standard.bits = some i → c.step.1.retired = true →
      i.Effect c f c.step.2 (BitVec.ofNat 64 packet.length)) ∧
    (∀ (c : Cpu) (packet : InstructionPacket) (computation : Computation) (rm : BitVec 3),
      packet.length = 4 → FloatingInstruction.decode packet.bits = some (.compute computation) →
      computation.roundingField = some rm →
      rounding rm c.state.csrs.floatingRoundingMode = none →
      c.execute packet = c.illegal packet) ∧
    (∀ (c : Cpu) (events : List HartEvent),
      Runs.Along HartEvent.apply HartEvent.IsFloating c events →
      (c.run events).fflags = c.fflags ||| c.raised events) ∧
    (∀ c : Cpu, FlagsKept c.state.csrs c.step.2.state.csrs ∨
      ∃ request, WritesFlagsNext c request ∧
        c.step.2.state.csrs.fcsr = (c.state.csrs.access request).2.fcsr) ∧
    ∀ (c : Cpu) (events : List HartEvent),
      Runs.Along HartEvent.apply HartEvent.LeavesFlags c events →
      FlagsKept c.state.csrs (c.run events).state.csrs :=
  ⟨fun _ _ _ _ ↦ floatingEffect_of_retired, fun _ _ _ _ ↦ execute_reserved,
    fun _ _ ↦ fflags_run, flagsKept_step, fun _ _ ↦ flagsKept_run⟩

/-- A hart with FS on and boxed zeros in its registers, in front of `fdiv.s f1, f2, f3`. -/
def divideCpu : Cpu where
  bus :=
    { regions :=
        [.ram
          { range := { base := 0#64, size := 4#64, size_pos := AddressRange.pos_four
                       fits := AddressRange.fits_four }
            bytes := (List.range 4).map (Bytes.splitByte 0x183100D3#64)
            size_eq := by simp }]
      apart := by simp }
  state :=
    { floatingRegisters := fun _ ↦ 0xFFFFFFFF00000000#64, csrs := { mstatus := 0x6000#64 } }

/-- Zero by zero: the destination holds the boxed canonical NaN, and NV is raised. -/
theorem floating_discipline_divide :
    FloatingInstruction.Effect divideCpu divideCpu.awake.fetch.2 divideCpu.step.2 4#64
      (.compute (.arithmetic .divide .single 1#5 2#5 3#5 0#3)) ∧
    (divideCpu.run [.step]).fflags = 0x10#8 := by
  have hfetch : Fetches divideCpu { programCounter := 0#64, bits := 0x183100D3#32, length := 4 }
      divideCpu.awake.fetch.2 := ⟨rfl, Prod.ext (by decide) rfl⟩
  have hfloating : HartEvent.IsFloating divideCpu .step := by
    rw [HartEvent.IsFloating]
    decide
  refine ⟨floating_discipline.1 _ _ _ _ hfetch (by decide) (by decide), ?_⟩
  rw [floating_discipline.2.2.1 divideCpu [.step] ⟨hfloating, trivial⟩]
  decide

end Rvemu
