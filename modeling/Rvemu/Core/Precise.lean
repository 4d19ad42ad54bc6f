import Rvemu.Core.Step

/-!
# Exceptions are precise

A step that reports a trap, and was not a vector load or store, has left the hart as it was: only
the cycle counter, the wait flag and the reservation token may differ, and RAM only in the A and D
bits that translations set.  For the vector arithmetic this rests on the element loops having no
early exit once the checks in front of them have passed.
-/

set_option autoImplicit false

namespace Rvemu

/-- `s'` is `s` but for the cycle counter, the wait flag and the reservation token. -/
def Precise (s s' : CpuState) : Prop :=
  ∃ cycle waiting token, s' =
    { s with
      csrs := { s.csrs with cycle }, waitingForInterrupt := waiting, reservationToken := token }

theorem CsrFile.incrementCycle_eq (c : CsrFile) :
    c.incrementCycle = { c with cycle := c.incrementCycle.cycle } := by
  rw [incrementCycle]
  split <;> rfl

/-- A step that did not retire counts at most a cycle. -/
theorem countStep_state {result : StepResult} (h : result.retired = false) (c : Cpu) :
    (Cpu.countStep result c).state = c.state ∨
      (Cpu.countStep result c).state = c.state.modifyCsrs (·.incrementCycle) := by
  rw [Cpu.countStep, h, Bool.false_and, if_neg (by decide)]
  split
  · exact Or.inl rfl
  · exact Or.inr rfl

theorem countStep_bus (result : StepResult) (c : Cpu) : (Cpu.countStep result c).bus = c.bus := by
  rw [Cpu.countStep]
  split <;> split <;> rfl

namespace Precise

variable {s : CpuState}

theorem awake (c : Cpu) : Precise c.state c.awake.state :=
  ⟨c.state.csrs.cycle, false, c.state.reservationToken, rfl⟩

theorem setReservationToken {s' : CpuState} (h : Precise s s') (token : ReservationToken) :
    Precise s (s'.setReservationToken token) := by
  obtain ⟨cycle, waiting, _, rfl⟩ := h
  exact ⟨cycle, waiting, token, rfl⟩

theorem incrementCycle {s' : CpuState} (h : Precise s s') :
    Precise s (s'.modifyCsrs (·.incrementCycle)) := by
  obtain ⟨cycle, waiting, token, rfl⟩ := h
  have hcycle := CsrFile.incrementCycle_eq { s.csrs with cycle }
  exact ⟨_, waiting, token, congrArg (fun csrs : CsrFile ↦
    { s with csrs, waitingForInterrupt := waiting, reservationToken := token }) hcycle⟩

end Precise

/-- Is the instruction that the next step fetches a vector load or store? -/
def Cpu.fetchesVectorMemory (c : Cpu) : Bool :=
  match c.awake.fetch.1 with
  | .ok packet => isVectorMemory packet.standard.bits
  | .error _ => false

/-- A trap leaves the hart and memory as they were. -/
theorem trap_precise (c : Cpu) (hv : c.fetchesVectorMemory = false) {trap : Trap}
    (h : c.step.1.trap = some trap) :
    trap.programCounter = c.state.programCounter ∧ Precise c.state c.step.2.state ∧
      AdUpdated c.root c.bus c.step.2.bus := by
  have hstep := stepped c
  generalize c.step = r at h hstep
  cases hstep with
  | stalled hs hb => cases h
  | faulted hpc hcause hs hb =>
    obtain rfl := Option.some.inj h
    refine ⟨hpc, ?_, hb⟩
    rw [hs]
    exact (Precise.awake c).incrementCycle
  | @executed packet fetched done result hf hpc hs hb he hr htrap =>
    obtain ⟨t, ht, htpc, -⟩ := htrap trap h
    cases he with
    | retired h => cases ht
    | interrupted hvec ht' hup =>
      rw [Cpu.fetchesVectorMemory, hf.fetch] at hv
      exact absurd (hvec.symm.trans hv) (by decide)
    | trapped hof hstate hbus =>
      obtain rfl := Option.some.inj ht
      have hroot : fetched.root = c.root := by rw [Cpu.root, hs]; rfl
      rw [countStep_bus]
      refine ⟨?_, ?_, hb.trans (hroot ▸ hbus)⟩
      · rw [htpc, hof.programCounter, InstructionPacket.standard_programCounter, hpc]
      · have hp : Precise c.state _ := hstate ▸ (hs ▸ Precise.awake c).setReservationToken _
        rcases countStep_state hr _ with heq | heq <;> rw [heq]
        · exact hp
        · exact hp.incrementCycle

/-! ## The element loops -/

namespace Cpu

/-- The loop of `executeVectorInteger`. -/
def integerLoop (c : Cpu) (packet : InstructionPacket) (instruction : VectorIntegerInstruction)
    (destination source2 : VectorRegisterGroup) (source1 : Option VectorRegisterGroup) :
    Option Trap × CpuState :=
  let vtype := c.state.csrs.readValue .vtype
  let configuration := decodeVectorConfiguration vtype
  runElements
    (CpuState.integerElement packet instruction vtype configuration destination source2 source1)
    (fun s element ↦ s.putElement packet destination (agnosticValue configuration.sewBits) element)
    c.state.csrs.vstart.toNat (c.state.csrs.readValue .vl).toNat configuration.vlmax
    (tailAgnostic vtype) c.state

/-- The loop of `executeVectorFloating`. -/
def floatingLoop (c : Cpu) (packet : InstructionPacket) (instruction : VectorFloatingInstruction)
    (rounding : FloatingRoundingMode) (destination source2 : VectorRegisterGroup)
    (source1 : Option VectorRegisterGroup) : Option Trap × CpuState × BitVec 8 :=
  let vtype := c.state.csrs.readValue .vtype
  let configuration := decodeVectorConfiguration vtype
  let agnostic := if configuration.sewBits = 64 then BitVec.allOnes 64 else 0xFFFFFFFF#64
  let format : FloatingFormat := if configuration.sewBits = 32 then .single else .double
  runElements
    (CpuState.floatingElement packet instruction vtype format rounding agnostic destination source2
      source1)
    (fun s element ↦ ((s.1.putElement packet destination agnostic element).1,
      (s.1.putElement packet destination agnostic element).2, s.2))
    c.state.csrs.vstart.toNat (c.state.csrs.readValue .vl).toNat configuration.vlmax
    (tailAgnostic vtype) (c.state, 0#8)

/-- The configuration in force. -/
def configuration (c : Cpu) : VectorConfiguration :=
  decodeVectorConfiguration (c.state.csrs.readValue .vtype)

end Cpu

section Loops

variable {c : Cpu} {packet : InstructionPacket} {destination source2 : VectorRegisterGroup}
  {source1 : Option VectorRegisterGroup}

theorem integerLoop_none {instruction : VectorIntegerInstruction}
    (hg : Cpu.arithmeticGroups c.configuration instruction.destination instruction.source2
      instruction.source1 (instruction.form == .vectorVector) =
        some (destination, source2, source1))
    (hvl : (c.state.csrs.readValue .vl).toNat ≤ c.configuration.vlmax) :
    (c.integerLoop packet instruction destination source2 source1).1 = none := by
  have hgroups := arithmeticGroups_eq_some hg
  have hl := (legal_of_valid hgroups.valid).1
  exact runElements_none hvl (fun s e he ↦ integerElement_none hgroups hl s he)
    (fun s e he ↦ putElement_none (locate_of_configuration hl hgroups.destination he) s _) _

theorem floatingLoop_none {instruction : VectorFloatingInstruction}
    (hg : Cpu.arithmeticGroups c.configuration instruction.destination instruction.source2
      instruction.source1 (instruction.form == .vectorVector) =
        some (destination, source2, source1))
    (hvl : (c.state.csrs.readValue .vl).toNat ≤ c.configuration.vlmax)
    (rounding : FloatingRoundingMode) :
    (c.floatingLoop packet instruction rounding destination source2 source1).1 = none := by
  have hgroups := arithmeticGroups_eq_some hg
  have hl := (legal_of_valid hgroups.valid).1
  exact runElements_none hvl (fun s e he ↦ floatingElement_none hgroups hl s he)
    (fun s e he ↦ putElement_none (locate_of_configuration hl hgroups.destination he) s.1 _) _

theorem executeVectorInteger_of_checks {instruction : VectorIntegerInstruction}
    (hvs : c.state.csrs.vectorStateEnabled = true)
    (hg : Cpu.arithmeticGroups c.configuration instruction.destination instruction.source2
      instruction.source1 (instruction.form == .vectorVector) =
        some (destination, source2, source1))
    (hmask : (instruction.masked && instruction.destination == 0#5) = false)
    (hvl : (c.state.csrs.readValue .vl).toNat ≤ c.configuration.vlmax) (sequentialPc : BitVec 64) :
    c.executeVectorInteger packet instruction sequentialPc = Cpu.finishVector packet sequentialPc
      (c.onState (c.integerLoop packet instruction destination source2 source1)) := by
  rw [Cpu.configuration] at hg hvl
  rw [Cpu.executeVectorInteger, hvs, if_neg (by decide)]
  dsimp only
  rw [hg]
  dsimp only
  rw [hmask, Bool.false_or, if_neg (by simpa using hvl)]
  rfl

theorem executeVectorFloating_of_checks {instruction : VectorFloatingInstruction}
    (hvs : c.state.csrs.vectorStateEnabled = true)
    (hfs : c.state.csrs.floatingStateEnabled = true)
    (hsew : c.configuration.sewBits = 32 ∨ c.configuration.sewBits = 64)
    {rounding : FloatingRoundingMode}
    (hround : resolveFloatingRoundingMode 7#3 c.state.csrs.floatingRoundingMode = some rounding)
    (hg : Cpu.arithmeticGroups c.configuration instruction.destination instruction.source2
      instruction.source1 (instruction.form == .vectorVector) =
        some (destination, source2, source1))
    (hmask : (instruction.masked && instruction.destination == 0#5) = false)
    (hvl : (c.state.csrs.readValue .vl).toNat ≤ c.configuration.vlmax) (sequentialPc : BitVec 64) :
    c.executeVectorFloating packet instruction sequentialPc = Cpu.finishVector packet sequentialPc
      (c.onFloatingState
        (c.floatingLoop packet instruction rounding destination source2 source1)) := by
  have hvalid : c.configuration.valid = true := (arithmeticGroups_eq_some hg).valid
  rw [Cpu.configuration] at hg hvl hsew hvalid
  rw [Cpu.executeVectorFloating, hvs, hfs, if_neg (by decide)]
  dsimp only
  rw [hvalid, if_neg (by simpa using fun h ↦ hsew.resolve_left h), hg, hround]
  dsimp only
  rw [hmask, Bool.false_or, if_neg (by simpa using hvl)]
  rfl

end Loops

/-- **Precise exceptions.**  A trapping step that is no vector access leaves everything but the
cycle counter, the wait flag and the reservation token; and the loops of the vector arithmetic,
which run only behind the checks, are never left early. -/
theorem precise_exceptions (c : Cpu) :
    (c.fetchesVectorMemory = false → ∀ trap, c.step.1.trap = some trap →
      trap.programCounter = c.state.programCounter ∧ Precise c.state c.step.2.state ∧
        AdUpdated c.root c.bus c.step.2.bus) ∧
    (∀ packet instruction sequentialPc destination source2 source1,
      c.state.csrs.vectorStateEnabled = true →
      Cpu.arithmeticGroups c.configuration instruction.destination instruction.source2
        instruction.source1 (instruction.form == .vectorVector) =
          some (destination, source2, source1) →
      (instruction.masked && instruction.destination == 0#5) = false →
      (c.state.csrs.readValue .vl).toNat ≤ c.configuration.vlmax →
        c.executeVectorInteger packet instruction sequentialPc =
          Cpu.finishVector packet sequentialPc
            (c.onState (c.integerLoop packet instruction destination source2 source1)) ∧
        (c.integerLoop packet instruction destination source2 source1).1 = none) ∧
    (∀ packet instruction sequentialPc rounding destination source2 source1,
      c.state.csrs.vectorStateEnabled = true → c.state.csrs.floatingStateEnabled = true →
      c.configuration.sewBits = 32 ∨ c.configuration.sewBits = 64 →
      resolveFloatingRoundingMode 7#3 c.state.csrs.floatingRoundingMode = some rounding →
      Cpu.arithmeticGroups c.configuration instruction.destination instruction.source2
        instruction.source1 (instruction.form == .vectorVector) =
          some (destination, source2, source1) →
      (instruction.masked && instruction.destination == 0#5) = false →
      (c.state.csrs.readValue .vl).toNat ≤ c.configuration.vlmax →
        c.executeVectorFloating packet instruction sequentialPc =
          Cpu.finishVector packet sequentialPc
            (c.onFloatingState
              (c.floatingLoop packet instruction rounding destination source2 source1)) ∧
        (c.floatingLoop packet instruction rounding destination source2 source1).1 = none) := by
  refine ⟨fun hv trap h ↦ trap_precise c hv h, ?_, ?_⟩
  · intro packet instruction sequentialPc destination source2 source1 hvs hg hmask hvl
    exact ⟨executeVectorInteger_of_checks hvs hg hmask hvl _, integerLoop_none hg hvl⟩
  · intro packet instruction sequentialPc rounding destination source2 source1 hvs hfs hsew hround
      hg hmask hvl
    exact ⟨executeVectorFloating_of_checks hvs hfs hsew hround hg hmask hvl _,
      floatingLoop_none hg hvl rounding⟩

/-- Sixteen zero bytes of RAM at zero; the zero half-word is no instruction. -/
def zeroedCpu : Cpu where
  bus :=
    { regions :=
        [.ram (.zeroed { base := 0#64, size := 16#64, size_pos := AddressRange.pos_sixteen
                         fits := AddressRange.fits_sixteen })] }

theorem precise_exceptions_zeroed :
    zeroedCpu.fetchesVectorMemory = false ∧ zeroedCpu.step.1.trap.isSome = true ∧
      ∀ trap, zeroedCpu.step.1.trap = some trap → trap.programCounter = 0#64 :=
  ⟨by decide, by decide,
    fun trap h ↦ ((precise_exceptions zeroedCpu).1 (by decide) trap h).1⟩

end Rvemu
