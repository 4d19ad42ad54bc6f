import Rvemu.Core.Cpu
import Rvemu.Core.ExecutedVector

/-!
# The outcome of a step

`Executed` for the dispatcher, and from it the three ways `Cpu.step` can end: the hart stalls, the
fetch faults, or an instruction was executed.  `Stepped` is what every theorem about whole steps
starts from; none of them looks into an executor again.
-/

set_option autoImplicit false

namespace Rvemu

/-! ## Dispatch -/

namespace Executed

variable {packet : InstructionPacket} {c : Cpu}

theorem ite {p : Prop} [Decidable p] {r r' : StepResult × Cpu} (h : p → Executed packet c r)
    (h' : Executed packet c r') : Executed packet c (if p then r else r') := by
  split
  · next hp => exact h hp
  · exact h'

theorem executeOpV {sequentialPc : BitVec 64} (hseq : sequentialPc.getLsbD 0 = false)
    (instruction : DecodedInstruction) :
    Executed packet c (c.executeOpV packet instruction sequentialPc) := by
  rw [Cpu.executeOpV]
  split
  · exact executeVectorFloating hseq _
  · split
    · exact executeVectorInteger hseq _
    · exact executeVectorConfiguration hseq _

theorem executeLoadStoreFp {sequentialPc : BitVec 64} (hseq : sequentialPc.getLsbD 0 = false)
    (hopcode : (decode packet.bits).opcode = 0x07#7 ∨ (decode packet.bits).opcode = 0x27#7) :
    Executed packet c (c.executeLoadStoreFp packet (decode packet.bits) sequentialPc) := by
  rw [Cpu.executeLoadStoreFp]
  split
  · next operation hop =>
    refine executeVectorMemory hseq ?_ operation
    rw [isVectorMemory, hop, Bool.and_eq_true, Bool.or_eq_true, beq_iff_eq, beq_iff_eq]
    exact ⟨hopcode, rfl⟩
  · exact executeFloating hseq _

theorem executeStandard (heven : packet.programCounter.getLsbD 0 = false)
    (hseq : (packet.programCounter + BitVec.ofNat 64 packet.length).getLsbD 0 = false) :
    Executed packet c (c.executeStandard packet) := by
  rw [Cpu.executeStandard]
  refine ite (fun _ ↦ executeOpV hseq _) ?_
  refine ite (fun _ ↦ writeAndRetire .refl _ _ hseq) ?_
  refine ite (fun _ ↦ writeAndRetire .refl _ _ hseq) ?_
  refine ite (fun _ ↦ executeJal heven _) ?_
  refine ite (fun _ ↦ executeJalr _ _ _) ?_
  refine ite (fun _ ↦ executeBranch heven hseq _ _ _) ?_
  refine ite (fun _ ↦ executeLoad hseq _ _) ?_
  refine ite (fun _ ↦ executeStore hseq _ _ _) ?_
  refine ite (fun _ ↦ executeComputed hseq _ _) ?_
  refine ite (fun _ ↦ executeComputed hseq _ _) ?_
  refine ite (fun _ ↦ executeComputed hseq _ _) ?_
  refine ite (fun _ ↦ executeComputed hseq _ _) ?_
  refine ite (fun _ ↦ executeAtomic hseq _ _ _) ?_
  refine ite (fun hopcode ↦ executeLoadStoreFp hseq hopcode) ?_
  refine ite (fun _ ↦ executeFloating hseq _) ?_
  refine ite (fun _ ↦ ite (fun _ ↦ retire .refl hseq) (illegal packet c)) ?_
  exact ite (fun hopcode ↦ executeSystem hseq hopcode) (illegal packet c)

end Executed

section Opcodes

variable {c : Cpu} {packet : InstructionPacket}

theorem executeStandard_branch (h : (decode packet.bits).opcode = 0x63#7) :
    c.executeStandard packet =
      c.executeBranch packet (decode packet.bits) (c.state.integer (decode packet.bits).source1)
        (c.state.integer (decode packet.bits).source2)
        (packet.programCounter + BitVec.ofNat 64 packet.length) := by
  rw [Cpu.executeStandard, h]
  rfl

theorem executeStandard_load (h : (decode packet.bits).opcode = 0x03#7) :
    c.executeStandard packet =
      c.executeLoad packet (decode packet.bits) (c.state.integer (decode packet.bits).source1)
        (packet.programCounter + BitVec.ofNat 64 packet.length) := by
  rw [Cpu.executeStandard, h]
  rfl

theorem executeStandard_store (h : (decode packet.bits).opcode = 0x23#7) :
    c.executeStandard packet =
      c.executeStore packet (decode packet.bits) (c.state.integer (decode packet.bits).source1)
        (c.state.integer (decode packet.bits).source2)
        (packet.programCounter + BitVec.ofNat 64 packet.length) := by
  rw [Cpu.executeStandard, h]
  rfl

end Opcodes

/-! ## Fetch -/

/-- The instruction that is executed for a fetched packet: a compressed one is expanded. -/
def InstructionPacket.standard (packet : InstructionPacket) : InstructionPacket :=
  if packet.compressed then
    { packet with bits := (decompressRv64c (packet.bits.setWidth 16)).getD packet.bits }
  else packet

theorem InstructionPacket.standard_programCounter (packet : InstructionPacket) :
    packet.standard.programCounter = packet.programCounter := by
  rw [standard]
  split <;> rfl

theorem InstructionPacket.standard_length (packet : InstructionPacket) :
    packet.standard.length = packet.length := by
  rw [standard]
  split <;> rfl

/-- A fetch leaves the hart alone, and memory up to A and D bits.  A packet lies at the program
counter; so does the trap of a failed fetch, which is misaligned for an odd address only. -/
structure Fetched (c : Cpu) (r : Except Trap InstructionPacket × Cpu) : Prop where
  state : r.2.state = c.state
  bus : AdUpdated c.root c.bus r.2.bus
  packet : ∀ packet, r.1 = .ok packet → packet.programCounter = c.state.programCounter ∧
    packet.programCounter.getLsbD 0 = false ∧ (packet.length = 2 ∨ packet.length = 4)
  trap : ∀ trap, r.1 = .error trap → trap.programCounter = c.state.programCounter ∧
    (trap.cause = .instructionAddressMisaligned → c.state.programCounter.getLsbD 0 = true)

theorem fetchUpper_fetched (c : Cpu) {pc : BitVec 64} (heven : pc.getLsbD 0 = false)
    (lower : BitVec 16) (hpc : pc = c.state.programCounter) :
    Fetched c (c.fetchUpper pc lower) := by
  rw [Cpu.fetchUpper]
  split
  · refine ⟨rfl, AdUpdated.refl _ _, nofun, fun trap h ↦ ?_⟩
    obtain rfl := Except.error.inj h
    exact ⟨hpc, fun h ↦ by cases h⟩
  · have ha := accessed_guestRead c { programCounter := pc } (pc + 2#64) .halfWord
      .instructionFetch .instructionFetch
    have hb := adUpdated_guestRead c { programCounter := pc } (pc + 2#64) .halfWord
      .instructionFetch .instructionFetch
    dsimp only
    split
    · next t ht =>
      refine ⟨ha.state, hb, nofun, fun trap h ↦ ?_⟩
      obtain rfl := Except.error.inj h
      have hof := (ha.trap t ht).1
      exact ⟨hof.programCounter.trans hpc, fun h ↦ absurd h hof.cause⟩
    · refine ⟨ha.state, hb, fun packet h ↦ ?_, nofun⟩
      obtain rfl := Except.ok.inj h
      exact ⟨hpc, heven, Or.inr rfl⟩

theorem fetch_fetched (c : Cpu) : Fetched c c.fetch := by
  rw [Cpu.fetch]
  split
  · next hodd =>
    refine ⟨rfl, AdUpdated.refl _ _, nofun, fun trap h ↦ ?_⟩
    obtain rfl := Except.error.inj h
    refine ⟨rfl, fun _ ↦ ?_⟩
    rw [bne_iff_ne, ne_eq, Bits.and_one_eq_zero_iff, Bool.not_eq_false] at hodd
    exact hodd
  · next heven =>
    rw [bne_iff_ne, ne_eq, not_not, Bits.and_one_eq_zero_iff] at heven
    have ha := accessed_guestRead c { programCounter := c.state.programCounter }
      c.state.programCounter .halfWord .instructionFetch .instructionFetch
    have hb := adUpdated_guestRead c { programCounter := c.state.programCounter }
      c.state.programCounter .halfWord .instructionFetch .instructionFetch
    dsimp only
    split
    · next t ht =>
      refine ⟨ha.state, hb, nofun, fun trap h ↦ ?_⟩
      obtain rfl := Except.error.inj h
      have hof := (ha.trap t ht).1
      exact ⟨hof.programCounter, fun h ↦ absurd h hof.cause⟩
    · split
      · refine ⟨ha.state, hb, fun packet h ↦ ?_, nofun⟩
        obtain rfl := Except.ok.inj h
        exact ⟨rfl, heven, Or.inl rfl⟩
      · generalize hl : c.guestRead _ _ _ _ _ = lower at ha hb
        have hup := fetchUpper_fetched lower.2 heven (lower.1.access.value.setWidth 16)
          (by rw [ha.state])
        have hroot : lower.2.root = c.root := by rw [Cpu.root, ha.state, Cpu.root]
        exact ⟨hup.state.trans ha.state, hb.trans (hroot ▸ hup.bus), ha.state ▸ hup.packet,
          ha.state ▸ hup.trap⟩

/-! ## Steps -/

/-- The hart that a step fetches with: it no longer waits. -/
def Cpu.awake (c : Cpu) : Cpu :=
  { c with
    state := c.state.setWaitingForInterrupt false
    suppressCycleIncrement := false
    suppressInstretIncrement := false }

theorem step_eq (c : Cpu) :
    c.step =
      if c.state.waitingForInterrupt && !c.state.csrs.hasLocallyEnabledInterrupt then
        (.wait,
          ({ c with suppressCycleIncrement := false, suppressInstretIncrement := false } :
            Cpu).incrementCycle)
      else c.awake.stepAwake := by
  rw [Cpu.step]
  cases hw : c.state.waitingForInterrupt with
  | false =>
    have hs : c.state.setWaitingForInterrupt false = c.state := by
      rw [CpuState.setWaitingForInterrupt, ← hw]
    rw [if_neg (by decide), Bool.false_and, if_neg (by decide), Cpu.awake, hs]
  | true =>
    rw [if_pos rfl, Bool.true_and]
    rfl

/-- The step of `c` executes `packet`, on the hart `f` that the fetch leaves behind. -/
structure Fetches (c : Cpu) (packet : InstructionPacket) (f : Cpu) : Prop where
  awake : (c.state.waitingForInterrupt && !c.state.csrs.hasLocallyEnabledInterrupt) = false
  fetch : c.awake.fetch = (.ok packet, f)

/-- The outcomes of a step. -/
inductive Stepped (c : Cpu) : StepResult × Cpu → Prop
  | stalled {c' : Cpu} (hs : c'.state = c.state.modifyCsrs (·.incrementCycle))
    (hb : c'.bus = c.bus) : Stepped c (.wait, c')
  | faulted {trap : Trap} {c' : Cpu} (hpc : trap.programCounter = c.state.programCounter)
    (hcause : trap.cause = .instructionAddressMisaligned → c.state.programCounter.getLsbD 0 = true)
    (hs : c'.state = c.awake.state.modifyCsrs (·.incrementCycle))
    (hb : AdUpdated c.root c.bus c'.bus) : Stepped c (.failure trap 0, c')
  | executed {packet : InstructionPacket} {fetched : Cpu} {done : StepResult × Cpu}
    {result : StepResult} (hf : Fetches c packet fetched)
    (hpc : packet.programCounter = c.state.programCounter)
    (hs : fetched.state = c.awake.state) (hb : AdUpdated c.root c.bus fetched.bus)
    (he : Executed packet.standard fetched done) (hr : result.retired = done.1.retired)
    (htrap : ∀ t, result.trap = some t → ∃ t', done.1.trap = some t' ∧
      t.programCounter = t'.programCounter ∧ t.cause = t'.cause) :
    Stepped c (result, Cpu.countStep result done.2)

/-- `execute` runs the standard form and reports the fetched encoding. -/
theorem execute_cases (c : Cpu) {packet : InstructionPacket}
    (heven : packet.programCounter.getLsbD 0 = false)
    (hlength : packet.length = 2 ∨ packet.length = 4) :
    ∃ done, Executed packet.standard c done ∧ (c.execute packet).2 = done.2 ∧
      (c.execute packet).1.retired = done.1.retired ∧
      ∀ t, (c.execute packet).1.trap = some t → ∃ t', done.1.trap = some t' ∧
        t.programCounter = t'.programCounter ∧ t.cause = t'.cause := by
  have hseq : (packet.standard.programCounter +
      BitVec.ofNat 64 packet.standard.length).getLsbD 0 = false := by
    rw [packet.standard_programCounter, packet.standard_length, Bits.getLsbD_zero_add, heven]
    rcases hlength with h | h <;> rw [h] <;> rfl
  have hstandard : ∀ p : InstructionPacket, p = packet.standard →
      Executed packet.standard c (c.executeStandard p) := by
    rintro p rfl
    exact Executed.executeStandard (by rwa [packet.standard_programCounter]) hseq
  rw [Cpu.execute]
  split
  · next hc =>
    cases hx : decompressRv64c (packet.bits.setWidth 16) with
    | none =>
      have hp : packet.standard = packet := by rw [InstructionPacket.standard, if_pos hc, hx]; rfl
      rw [hp]
      exact ⟨c.illegal packet, Executed.illegal packet c, rfl, rfl, fun t h ↦ ⟨t, h, rfl, rfl⟩⟩
    | some expanded =>
      have hp : { packet with bits := expanded } = packet.standard := by
        rw [InstructionPacket.standard, if_pos hc, hx]
        rfl
      refine ⟨c.executeStandard { packet with bits := expanded }, hstandard _ hp, rfl, rfl, ?_⟩
      intro t h
      obtain ⟨t', ht', rfl⟩ := Option.map_eq_some_iff.1 h
      exact ⟨t', ht', rfl, rfl⟩
  · next hc =>
    have hp : packet = packet.standard := by rw [InstructionPacket.standard, if_neg hc]
    exact ⟨c.executeStandard packet, hstandard _ hp, rfl, rfl, fun t h ↦ ⟨t, h, rfl, rfl⟩⟩

/-- **Every step is one of the three.** -/
theorem stepped (c : Cpu) : Stepped c c.step := by
  rw [step_eq]
  split
  · exact .stalled rfl rfl
  · next hawake =>
    have hf := fetch_fetched c.awake
    rw [Cpu.stepAwake]
    dsimp only
    split
    · next trap h =>
      refine .faulted (hf.trap trap h).1 (hf.trap trap h).2 ?_ hf.bus
      rw [Cpu.incrementCycle, Cpu.modifyState, hf.state]
    · next packet h =>
      obtain ⟨hpc, heven, hlength⟩ := hf.packet packet h
      obtain ⟨done, he, hdone, hr, htrap⟩ := execute_cases c.awake.fetch.2 heven hlength
      rw [hdone]
      exact .executed ⟨Bool.eq_false_iff.2 hawake, Prod.ext h rfl⟩ hpc hf.state hf.bus he hr htrap

/-! ## The hart across a step -/

/-- Counting changes the two counters. -/
theorem countStep_csrs (result : StepResult) (c : Cpu) :
    ∃ cycle instret, (Cpu.countStep result c).state =
      { c.state with csrs := { c.state.csrs with cycle, instret } } := by
  have hcycle : ∀ c : Cpu, ∃ cycle, c.incrementCycle.state =
      { c.state with csrs := { c.state.csrs with cycle } } := by
    intro c
    rw [Cpu.incrementCycle, Cpu.modifyState, CpuState.modifyCsrs, CsrFile.incrementCycle]
    split
    · exact ⟨_, rfl⟩
    · exact ⟨_, rfl⟩
  have hinstret : ∀ c : Cpu, ∃ instret, c.incrementInstret.state =
      { c.state with csrs := { c.state.csrs with instret } } := by
    intro c
    rw [Cpu.incrementInstret, Cpu.modifyState, CpuState.modifyCsrs, CsrFile.incrementInstret]
    split
    · exact ⟨_, rfl⟩
    · exact ⟨_, rfl⟩
  obtain ⟨cycle, hc⟩ := hcycle c
  rw [Cpu.countStep]
  split <;> split
  · obtain ⟨instret, hi⟩ := hinstret c
    exact ⟨_, instret, hi⟩
  · exact ⟨_, _, rfl⟩
  · obtain ⟨instret, hi⟩ := hinstret c.incrementCycle
    exact ⟨cycle, instret, by rw [hi, hc]⟩
  · exact ⟨cycle, _, hc⟩

/-- Whatever a step does, the hart changes as by updates or by the instruction it fetches, and
counts. -/
theorem step_change (c : Cpu) : ∃ s s' bits cycle instret, (s = c.state ∨ s = c.awake.state) ∧
    Retired bits s s' ∧ c.step.2.state = { s' with csrs := { s'.csrs with cycle, instret } } ∧
    (Updates s s' ∨ ∃ packet f, Fetches c packet f ∧ bits = packet.standard.bits) := by
  have hcycle : ∀ s : CpuState, ∃ cycle, s.modifyCsrs (·.incrementCycle) =
      { s with csrs := { s.csrs with cycle, instret := s.csrs.instret } } := by
    intro s
    rw [CpuState.modifyCsrs, CsrFile.incrementCycle]
    split
    · exact ⟨_, rfl⟩
    · exact ⟨_, rfl⟩
  have hstep := stepped c
  generalize c.step = r at hstep
  cases hstep with
  | stalled hs hb =>
    obtain ⟨cycle, hc⟩ := hcycle c.state
    exact ⟨c.state, c.state, 0#32, cycle, _, Or.inl rfl, .updates .refl, hs.trans hc, Or.inl .refl⟩
  | faulted hpc hcause hs hb =>
    obtain ⟨cycle, hc⟩ := hcycle c.awake.state
    exact ⟨_, _, 0#32, cycle, _, Or.inr rfl, .updates .refl, hs.trans hc, Or.inl .refl⟩
  | @executed packet fetched done result hf hpc hs hb he hr htrap =>
    obtain ⟨cycle, instret, hcount⟩ := countStep_csrs result done.2
    refine ⟨c.awake.state, done.2.state, packet.standard.bits, cycle, instret, Or.inr rfl, ?_,
      hcount, Or.inr ⟨packet, fetched, hf, rfl⟩⟩
    rw [← hs]
    cases he with
    | retired h => exact h
    | trapped hof hstate hbus =>
      rw [hstate]
      exact .updates (Update.token _).single
    | interrupted hvec hof hup => exact .updates hup

/-! ## A step with a given instruction -/

@[simp] theorem bus_countStep (result : StepResult) (c : Cpu) :
    (Cpu.countStep result c).bus = c.bus := by
  rw [Cpu.countStep]
  split <;> split <;> rfl

/-- What comes in two bytes does not look like a four-byte instruction. -/
theorem fetch_bits {c f : Cpu} {packet : InstructionPacket} (h : c.fetch = (.ok packet, f))
    (hlength : packet.length = 2) : packet.bits.setWidth 16 &&& 3#16 ≠ 3#16 := by
  rw [Cpu.fetch] at h
  dsimp only at h
  split at h
  · cases h
  · split at h
    · cases h
    · split at h
      · next hlow =>
        obtain rfl := Except.ok.inj (Prod.mk.inj h).1
        dsimp only
        rw [BitVec.setWidth_setWidth_of_le _ (by decide), BitVec.setWidth_eq]
        exact hlow
      · rw [Cpu.fetchUpper] at h
        split at h
        · cases h
        · dsimp only at h
          split at h
          · cases h
          · obtain rfl := Except.ok.inj (Prod.mk.inj h).1
            cases hlength

namespace Fetches

variable {c f : Cpu} {packet : InstructionPacket}

theorem state (h : Fetches c packet f) : f.state = c.awake.state := by
  have hf := (fetch_fetched c.awake).state
  rw [h.fetch] at hf
  exact hf

theorem step_eq (h : Fetches c packet f) :
    c.step = ((f.execute packet).1, Cpu.countStep (f.execute packet).1 (f.execute packet).2) := by
  rw [Rvemu.step_eq, h.awake, if_neg (by decide), Cpu.stepAwake, h.fetch]

/-- A standard encoding is executed as it is. -/
theorem step_standard (h : Fetches c packet f)
    (hbits : packet.bits.setWidth 16 &&& 3#16 = 3#16) :
    c.step.1 = (f.executeStandard packet).1 ∧ c.step.2.bus = (f.executeStandard packet).2.bus := by
  have hlength : packet.compressed = false := by
    rw [InstructionPacket.compressed, beq_eq_false_iff_ne]
    exact fun hlength ↦ fetch_bits h.fetch hlength hbits
  rw [h.step_eq, Cpu.execute, hlength, if_neg (by decide)]
  exact ⟨rfl, bus_countStep _ _⟩

/-- A compressed instruction is executed as its expansion; the trap it raises differs in what it
reports about the encoding only. -/
theorem step_expanded (h : Fetches c packet f)
    (hbits : packet.standard.bits.setWidth 16 &&& 3#16 = 3#16) :
    c.step.1.retired = (f.executeStandard packet.standard).1.retired ∧
      c.step.1.trap.map (·.cause) = (f.executeStandard packet.standard).1.trap.map (·.cause) ∧
      c.step.2.bus = (f.executeStandard packet.standard).2.bus := by
  cases hc : packet.compressed with
  | false =>
    have hp : packet.standard = packet := by
      rw [InstructionPacket.standard, hc, if_neg (by decide)]
    rw [hp] at hbits ⊢
    obtain ⟨hresult, hbus⟩ := h.step_standard hbits
    rw [hresult, hbus]
    exact ⟨rfl, rfl, rfl⟩
  | true =>
    rw [h.step_eq, bus_countStep, Cpu.execute, hc, if_pos rfl]
    cases hx : decompressRv64c (packet.bits.setWidth 16) with
    | none =>
      have hp : packet.standard = packet := by
        rw [InstructionPacket.standard, hc, if_pos rfl, hx]
        rfl
      rw [hp] at hbits
      exact absurd hbits (fetch_bits h.fetch (beq_iff_eq.1 hc))
    | some expanded =>
      have hp : packet.standard = { packet with bits := expanded } := by
        rw [InstructionPacket.standard, hc, if_pos rfl, hx]
        rfl
      rw [hp]
      refine ⟨rfl, ?_, rfl⟩
      dsimp only [Cpu.reportCompressed]
      rw [Option.map_map]
      rfl

end Fetches

/-- The fetch reads half words, which no device reacts to. -/
theorem read_halfWord_bus (b : Bus) (a : BitVec 64) (t : AccessType) :
    (b.read a .halfWord t).2 = b := by
  refine Bus.onRegion_bus_of_run fun r o _ ↦ ?_
  cases r with
  | plic p => simp [Bus.readOp, AddressRegion.read, Plic.read]
  | uart u =>
    have hv : (Uart16550.validateAccess o .halfWord).ok = false := rfl
    simp [Bus.readOp, AddressRegion.read, Uart16550.read, hv]
  | _ => rfl

/-- A half word read leaves the devices alone and keeps the TLB consistent. -/
theorem guestRead_halfWord (c : Cpu) (packet : InstructionPacket) (va : BitVec 64)
    (kind : MmuAccessKind) (t : AccessType) :
    let r := c.guestRead packet va .halfWord kind t
    r.2.bus.devices = c.bus.devices ∧ (c.mmu.Consistent → r.2.mmu.Consistent) := by
  intro r
  have hr : r = c.guestRead packet va .halfWord kind t := rfl
  rw [Cpu.guestRead, Cpu.guestAccess] at hr
  generalize hcontext : (if kind = .instructionFetch then c.fetchContext else c.dataContext) =
    context at hr
  have hdevices := devices_translate c.mmu c.bus va .halfWord kind context
  have hmmu := fun hm ↦ consistent_translate (m := c.mmu) hm c.bus va .halfWord kind context
  cases ht : (c.mmu.translate c.bus va .halfWord kind context).1 with
  | error fault =>
    rw [ht, Cpu.accessTranslated] at hr
    rw [hr]
    exact ⟨hdevices, hmmu⟩
  | ok pa =>
    rw [ht, Cpu.accessTranslated] at hr
    simp only [readOperation, read_halfWord_bus] at hr
    rw [hr]
    split
    · exact ⟨hdevices, hmmu⟩
    · exact ⟨hdevices, hmmu⟩

theorem fetch_devices (c : Cpu) :
    c.fetch.2.bus.devices = c.bus.devices ∧ (c.mmu.Consistent → c.fetch.2.mmu.Consistent) := by
  have hupper : ∀ (c : Cpu) (pc : BitVec 64) (lower : BitVec 16),
      (c.fetchUpper pc lower).2.bus.devices = c.bus.devices ∧
        (c.mmu.Consistent → (c.fetchUpper pc lower).2.mmu.Consistent) := by
    intro c pc lower
    rw [Cpu.fetchUpper]
    split
    · exact ⟨rfl, id⟩
    · have hread := guestRead_halfWord c { programCounter := pc } (pc + 2#64) .instructionFetch
        .instructionFetch
      dsimp only
      split <;> exact hread
  rw [Cpu.fetch]
  dsimp only
  split
  · exact ⟨rfl, id⟩
  · have hread := guestRead_halfWord c { programCounter := c.state.programCounter }
      c.state.programCounter .instructionFetch .instructionFetch
    split
    · exact hread
    · split
      · exact hread
      · obtain ⟨hdevices, hmmu⟩ := hupper _ c.state.programCounter _
        exact ⟨hdevices.trans hread.1, fun hm ↦ hmmu (hread.2 hm)⟩

end Rvemu
