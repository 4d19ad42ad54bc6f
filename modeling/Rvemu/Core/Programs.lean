import Rvemu.Bus.Dma
import Rvemu.Core.CompressedSemantics
import Rvemu.Core.Fetch
import Rvemu.Core.MappedAccess
import Rvemu.Core.MultiplyDivide
import Rvemu.Isa.Program

/-!
# Whole programs

A hart that translates no addresses runs a program of RV64IMC as the manual's machine does: as long
as the machine goes on, every step of the hart retires one instruction of it, and the hart is left
with the registers and the memory of the machine.
-/

set_option autoImplicit false

namespace Rvemu

open Isa Bytes

/-! ## Accesses without translation -/

namespace Cpu

variable {c : Cpu} {va : BitVec 64} {width : AccessWidth}

/-- After a reset data are accessed in machine mode. -/
theorem privilege_dataContext_of_reset (hcsrs : c.state.csrs = {})
    (hprivilege : c.state.privilege = .machine) : c.dataContext.privilege = .machine := by
  have hmprv : ({} : CsrFile).readValue .mstatus &&& (1#64 <<< 17) = 0#64 := by decide
  simp only [dataContext, hcsrs, hprivilege, hmprv]
  rfl

theorem guestRead_bare {kind : MmuAccessKind}
    (h : (if kind = .instructionFetch then c.fetchContext else c.dataContext).Bare)
    (hram : c.bus.InRam va.toNat (widthInBytes width)) (packet : InstructionPacket)
    (type : AccessType) :
    c.guestRead packet va width kind type =
      ({ access := .success (c.bus.ramWord va.toNat width) }, c) := by
  have hread := hram.read_eq type
  rcases guestAccess_of_translate (h.translate_eq c.mmu c.bus va width kind) packet
    (accessFaultCause kind) (readOperation width type) with ⟨hok, -⟩ | ⟨-, hdone⟩
  · rw [readOperation, hread] at hok
    cases hok
  · rw [guestRead, hdone, readOperation, hread]

theorem guestWrite_bare (h : c.dataContext.Bare)
    (hram : c.bus.InRam va.toNat (widthInBytes width)) (packet : InstructionPacket)
    (value : BitVec 64) :
    ∃ b, c.guestWrite packet va width value .store = ({ access := .success }, { c with bus := b }) ∧
      Bus.Stored c.bus b va width value ∧ b.memoryMap = c.bus.memoryMap := by
  obtain ⟨hok, hstored⟩ := hram.write value .store
  refine ⟨_, ?_, hstored, c.bus.memoryMap_write va width value .store⟩
  rcases guestAccess_of_translate (h.translate_eq c.mmu c.bus va width .atomic) packet
    .storeAccessFault (writeOperation width value .store) with ⟨hno, -⟩ | ⟨-, hdone⟩
  · rw [writeOperation, hok] at hno
    cases hno
  · rw [guestWrite, hdone, writeOperation, hok]

end Cpu

/-! ## The machine in the hart -/

/-- The hart is at the point of the program where the machine is. -/
structure Cpu.Runs (c : Cpu) (m : Machine) : Prop where
  programCounter : c.state.programCounter = m.pc
  even : m.pc.getLsbD 0 = false
  integer : c.state.integer = m.x
  ram : c.bus.InRam m.base m.size
  memory : ∀ y, m.base ≤ y → y < m.base + m.size → c.bus.ramByte y = some (m.memory y)
  awake : c.state.waitingForInterrupt = false
  fetchBare : c.fetchContext.Bare
  dataBare : c.dataContext.Bare

/-- The bus differs from that of the hart in the memory of the machine only, which is on it. -/
structure Cpu.MemoryOf (c : Cpu) (m : Machine) (b : Bus) : Prop where
  memoryMap : b.memoryMap = c.bus.memoryMap
  devices : b.devices = c.bus.devices
  inside : ∀ y, m.base ≤ y → y < m.base + m.size → b.ramByte y = some (m.memory y)
  outside : ∀ y, ¬ (m.base ≤ y ∧ y < m.base + m.size) → b.ramByte y = c.bus.ramByte y

/-- From `c` to `c'` only what a program works on has changed: integer registers, the program
counter, counters, and memory of the machine. -/
structure Cpu.Keeps (m : Machine) (c c' : Cpu) : Prop where
  floating : c'.state.floatingRegisters = c.state.floatingRegisters
  vector : c'.state.vectorState = c.state.vectorState
  csrs : ∃ cycle instret, c'.state.csrs = { c.state.csrs with cycle, instret }
  privilege : c'.state.privilege = c.state.privilege
  memoryMap : c'.bus.memoryMap = c.bus.memoryMap
  devices : c'.bus.devices = c.bus.devices
  outside : ∀ y, ¬ (m.base ≤ y ∧ y < m.base + m.size) → c'.bus.ramByte y = c.bus.ramByte y

namespace Cpu

variable {c c' : Cpu} {m m' : Machine}

theorem Keeps.refl (m : Machine) (c : Cpu) : Keeps m c c :=
  ⟨rfl, rfl, ⟨_, _, rfl⟩, rfl, rfl, rfl, fun _ _ ↦ rfl⟩

theorem Keeps.trans {c'' : Cpu} (h : Keeps m c c') (h' : Keeps m c' c'') : Keeps m c c'' := by
  obtain ⟨cycle, instret, hcsrs⟩ := h.csrs
  obtain ⟨cycle', instret', hcsrs'⟩ := h'.csrs
  refine ⟨h'.floating.trans h.floating, h'.vector.trans h.vector,
    ⟨cycle', instret', by rw [hcsrs', hcsrs]⟩, h'.privilege.trans h.privilege,
    h'.memoryMap.trans h.memoryMap, h'.devices.trans h.devices,
    fun y hy ↦ (h'.outside y hy).trans (h.outside y hy)⟩

namespace Runs

/-- What lies in the block of memory lies in RAM. -/
theorem inRam (h : c.Runs m) {a n : ℕ} (hold : m.Holds a n) : c.bus.InRam a n :=
  h.ram.sub hold.1 hold.2

theorem ramWord_eq (h : c.Runs m) {a : ℕ} {width : AccessWidth}
    (hold : m.Holds a (widthInBytes width)) : c.bus.ramWord a width = m.word a width := by
  refine composeBytes_congr fun i hi ↦ ?_
  obtain ⟨hbase, hend⟩ := hold
  rw [h.memory (a + i) (by omega) (by omega), Option.getD_some]

/-- The hart that fetches is the same but for two flags. -/
theorem awake_self (h : c.Runs m) : c.awake.Runs m where
  programCounter := h.programCounter
  even := h.even
  integer := h.integer
  ram := h.ram
  memory := h.memory
  awake := rfl
  fetchBare := h.fetchBare
  dataBare := h.dataBare

/-- Reading memory of the machine. -/
theorem guestRead_eq (h : c.Runs m) {va value : BitVec 64} {width : AccessWidth}
    (hload : m.load va width = some value) (packet : InstructionPacket) (kind : MmuAccessKind)
    (type : AccessType) :
    c.guestRead packet va width kind type = ({ access := .success value }, c) := by
  rw [Machine.load] at hload
  split at hload
  · next hold =>
    obtain rfl := Option.some.inj hload
    have hbare : (if kind = .instructionFetch then c.fetchContext else c.dataContext).Bare := by
      split
      · exact h.fetchBare
      · exact h.dataBare
    rw [guestRead_bare hbare (h.inRam hold), h.ramWord_eq hold]
  · cases hload

/-! ## Fetch -/

/-- The hart fetches what the machine does, and is not changed by it. -/
theorem fetch_eq (h : c.Runs m) {i : Imc} {length : ℕ} (hfetch : m.fetch = some (i, length)) :
    ∃ bits, c.fetch = (.ok { programCounter := m.pc, bits, length }, c) ∧
      (length = 2 ∧ Imc.ofHalf (bits.setWidth 16) = some i ∨
        length = 4 ∧ Imc.ofWord bits = some i) := by
  have heven : ¬ ((m.pc &&& 1#64) != 0#64) = true := by
    rw [bne_iff_ne, ne_eq, not_not, Bits.and_one_eq_zero_iff]
    exact h.even
  rw [Machine.fetch] at hfetch
  rw [Cpu.fetch]
  dsimp only
  rw [h.programCounter, if_neg heven]
  cases hlower : m.load m.pc .halfWord with
  | none =>
    rw [hlower] at hfetch
    cases hfetch
  | some lower =>
    rw [hlower] at hfetch
    rw [h.guestRead_eq hlower]
    dsimp only at hfetch ⊢
    rw [AccessResult.value_success]
    split at hfetch
    · next hshort =>
      obtain ⟨i', hi, hpair⟩ := Option.map_eq_some_iff.1 hfetch
      obtain ⟨rfl, rfl⟩ := Prod.mk.inj hpair
      refine ⟨(lower.setWidth 16).setWidth 32, ?_, Or.inl ⟨rfl, ?_⟩⟩
      · exact if_pos hshort
      · rw [BitVec.setWidth_setWidth_of_le _ (by decide), BitVec.setWidth_eq]
        exact hi
    · next hlong =>
      cases hupper : m.load (m.pc + 2#64) .halfWord with
      | none =>
        rw [hupper] at hfetch
        cases hfetch
      | some upper =>
        rw [hupper] at hfetch
        obtain ⟨i', hi, hpair⟩ := Option.map_eq_some_iff.1 hfetch
        obtain ⟨rfl, rfl⟩ := Prod.mk.inj hpair
        refine ⟨_, ?_, Or.inr ⟨rfl, hi⟩⟩
        have hlt := (h.inRam (m.holds_of_load hlower)).lt
        have htop : ¬ m.pc > BitVec.allOnes 64 - 2#64 := by
          rw [gt_iff_lt, BitVec.lt_def, show (BitVec.allOnes 64 - 2#64).toNat = 2 ^ 64 - 3 from rfl]
          have hwidth : widthInBytes .halfWord = 2 := rfl
          omega
        rw [if_neg hlong, Cpu.fetchUpper, if_neg htop, h.guestRead_eq hupper]
        dsimp only
        rw [AccessResult.value_success, bits_of_halves]

/-- Writing memory of the machine. -/
theorem guestWrite_eq (h : c.Runs m) {va value : BitVec 64} {width : AccessWidth}
    (hstore : m.store va width value = some m') (packet : InstructionPacket) :
    ∃ b, c.guestWrite packet va width value .store = ({ access := .success }, { c with bus := b }) ∧
      m' = { m with memory := m'.memory } ∧ c.MemoryOf m' b := by
  rw [Machine.store] at hstore
  split at hstore
  · next hold =>
    obtain ⟨b, hdone, hstored, hmap⟩ := guestWrite_bare h.dataBare (h.inRam hold) packet value
    obtain rfl := Option.some.inj hstore
    obtain ⟨hbase, hend⟩ := hold
    refine ⟨b, hdone, rfl, hmap, hstored.devices_eq, fun y hy hy' ↦ ?_, fun y hy ↦ ?_⟩
    · rw [hstored.ramByte_eq]
      dsimp only at hy hy' ⊢
      split
      · rfl
      · exact h.memory y hy hy'
    · dsimp only at hy
      rw [hstored.ramByte_eq, if_neg (by omega)]
  · cases hstore

end Runs

/-! ## Execution -/

/-- Carry out an instruction. -/
def performImc (c : Cpu) (packet : InstructionPacket) : Imc → StepResult × Cpu
  | .base i => c.perform packet i
  | .multiply operation rd rs1 rs2 =>
    c.writeAndRetire packet rd (operation.result (c.state.integer rs1) (c.state.integer rs2))
      (packet.programCounter + BitVec.ofNat 64 packet.length)
  | .multiplyWord operation rd rs1 rs2 =>
    c.writeAndRetire packet rd
      ((operation.result ((c.state.integer rs1).setWidth 32)
        ((c.state.integer rs2).setWidth 32)).signExtend 64)
      (packet.programCounter + BitVec.ofNat 64 packet.length)
  | .hint => c.retire packet (packet.programCounter + BitVec.ofNat 64 packet.length)

theorem execute_half {packet : InstructionPacket} {i : Imc} (hlength : packet.length = 2)
    (hi : Imc.ofHalf (packet.bits.setWidth 16) = some i) :
    c.execute packet = c.performImc packet i := by
  rw [execute_of_length c packet hlength]
  rw [Imc.ofHalf] at hi
  split at hi
  · next heq =>
    obtain rfl := Option.some.inj hi
    rw [heq]
    rfl
  · next heq =>
    obtain rfl := Option.some.inj hi
    rw [heq]
    rfl
  · cases hi

theorem execute_word {packet : InstructionPacket} {i : Imc} (hlength : packet.length = 4)
    (hi : Imc.ofWord packet.bits = some i) : c.execute packet = c.performImc packet i := by
  rw [execute, InstructionPacket.compressed, hlength, if_neg (by decide)]
  rw [Imc.ofWord] at hi
  split at hi
  · next hop =>
    obtain rfl := Option.some.inj hi
    rw [executeStandard, show (decode packet.bits).opcode = 0x33#7 from hop.2]
    show c.executeComputed packet _ _ (opResult _ _ _) = _
    rw [opResult, if_pos (show (decode packet.bits).function7 = 1#7 from hop.1),
      (integer_m_exact _ _ _).1]
    rfl
  · split at hi
    · next hop =>
      obtain ⟨operation, hoperation, rfl⟩ := Option.map_eq_some_iff.1 hi
      rw [executeStandard, show (decode packet.bits).opcode = 0x3B#7 from hop.2]
      show c.executeComputed packet _ _ (op32Result _ _ _) = _
      rw [op32Result]
      dsimp only
      rw [if_pos (show (decode packet.bits).function7 = 1#7 from hop.1),
        (integer_m_exact _ _ _).2.1, show Multiplicative.wordOfFunction3
          (decode packet.bits).function3 = some operation from hoperation]
      rfl
    · obtain ⟨base, hbase, rfl⟩ := Option.map_eq_some_iff.1 hi
      exact executeStandard_eq_perform hbase

/-- The hart retires the instruction that takes the machine from `m` to `m'`. -/
def Carries (c : Cpu) (m m' : Machine) (done : StepResult × Cpu) : Prop :=
  ∃ written length b,
    done = (.success length,
      { c with state := (c.state.writeRegister written).setProgramCounter m'.pc, bus := b }) ∧
    m' = { m.write written with pc := m'.pc, memory := m'.memory } ∧
    m'.pc.getLsbD 0 = false ∧ c.MemoryOf m' b

namespace Runs

/-- An instruction that leaves memory alone. -/
theorem carries_goTo (h : c.Runs m) {packet : InstructionPacket}
    (written : Option (BitVec 5 × BitVec 64)) {next : BitVec 64}
    (hnext : (m.write written).goTo next = some m') :
    c.Carries m m' ((c.modifyState (·.writeRegister written)).retire packet next) := by
  rw [Machine.goTo] at hnext
  split at hnext
  · cases hnext
  · next heven =>
    obtain rfl := Option.some.inj hnext
    refine ⟨written, packet.length, c.bus, rfl, ?_, Bool.eq_false_iff.2 heven, ?_⟩
    · cases written <;> rfl
    · cases written <;> exact ⟨rfl, rfl, h.memory, fun _ _ ↦ rfl⟩

theorem carries_transfer (h : c.Runs m) {packet : InstructionPacket}
    {written : Option (BitVec 5 × BitVec 64)} {target : Option (BitVec 64)}
    (hnext : (m.write written).goTo
      (target.getD (packet.programCounter + BitVec.ofNat 64 packet.length)) = some m') :
    c.Carries m m' (c.transfer packet (·.writeRegister written) target) := by
  cases target with
  | none => exact h.carries_goTo _ hnext
  | some target =>
    have heven : ¬ ((target &&& 1#64) != 0#64) = true := by
      rw [Option.getD_some, Machine.goTo] at hnext
      split at hnext
      · cases hnext
      · next heven =>
        rw [bne_iff_ne, ne_eq, not_not, Bits.and_one_eq_zero_iff]
        exact Bool.eq_false_iff.2 heven
    rw [transfer, jumpTo, if_neg heven]
    exact h.carries_goTo _ hnext

theorem carries_performImc (h : c.Runs m) {packet : InstructionPacket} {i : Imc}
    (hpc : packet.programCounter = m.pc)
    (hexecute : m.execute (BitVec.ofNat 64 packet.length) i = some m') :
    c.Carries m m' (c.performImc packet i) := by
  cases i with
  | base i =>
    cases i with
    | load width signed rd rs1 offset =>
      rw [Machine.execute] at hexecute
      cases hload : m.load (m.x rs1 + offset) width with
      | none =>
        rw [hload] at hexecute
        cases hexecute
      | some value =>
        rw [hload] at hexecute
        rw [performImc, perform, h.integer, h.guestRead_eq hload, hpc]
        exact h.carries_goTo (some (rd, _)) hexecute
    | store width rs1 rs2 offset =>
      rw [Machine.execute] at hexecute
      cases hstore : m.store (m.x rs1 + offset) width (m.x rs2) with
      | none =>
        rw [hstore] at hexecute
        cases hexecute
      | some stored =>
        rw [hstore] at hexecute
        obtain ⟨b, hdone, hsame, hmemory⟩ := h.guestWrite_eq hstore packet
        rw [performImc, perform, h.integer, hdone, hpc]
        dsimp only [Machine.goTo] at hexecute
        split at hexecute
        · cases hexecute
        · next heven =>
          obtain rfl := Option.some.inj hexecute
          refine ⟨none, packet.length, b, rfl, ?_, Bool.eq_false_iff.2 heven, ?_⟩
          · rw [hsame]
            rfl
          · exact ⟨hmemory.memoryMap, hmemory.devices, hmemory.inside, hmemory.outside⟩
    | _ =>
      rw [performImc, c.perform_eq_transfer packet rfl]
      refine h.carries_transfer ?_
      rw [h.integer, hpc]
      exact hexecute
  | multiply operation rd rs1 rs2 =>
    rw [performImc, writeAndRetire, h.integer, hpc]
    exact h.carries_goTo (some (rd, _)) hexecute
  | multiplyWord operation rd rs1 rs2 =>
    rw [performImc, writeAndRetire, h.integer, hpc]
    exact h.carries_goTo (some (rd, _)) hexecute
  | hint =>
    rw [performImc, hpc]
    exact h.carries_goTo none hexecute

end Runs

/-! ## Steps and runs -/

/-- What a step that carries an instruction leaves behind. -/
theorem Carries.step {packet : InstructionPacket} (h : c.Runs m)
    (hfetch : Fetches c packet c.awake)
    (hcarries : c.awake.Carries m m' (c.awake.execute packet)) :
    c.step.1.retired = true ∧ c.step.2.Runs m' ∧ Keeps m c c.step.2 ∧
      m'.base = m.base ∧ m'.size = m.size := by
  obtain ⟨written, length, b, hdone, hm', heven, hmemory⟩ := hcarries
  rw [hfetch.step_eq, hdone]
  set c' := countStep (.success length)
    { c.awake with
      state := (c.awake.state.writeRegister written).setProgramCounter m'.pc, bus := b }
  have hchanged : Changed c.state c'.state written m'.pc := changed_countStep rfl _
  have hbus : c'.bus = b := bus_countStep _ _
  have hblock : m'.base = m.base ∧ m'.size = m.size := by
    rw [hm']
    cases written <;> exact ⟨rfl, rfl⟩
  obtain ⟨cycle, instret, hcsrs⟩ := hchanged.csrs
  have hfetchContext : c'.fetchContext = c.fetchContext := by
    rw [fetchContext, hcsrs, hchanged.privilege]
    rfl
  have hdataContext : c'.dataContext = c.dataContext := by
    rw [dataContext, hcsrs, hchanged.privilege]
    rfl
  refine ⟨rfl, ⟨hchanged.programCounter, heven, ?_, ?_, ?_, hchanged.waiting, ?_, ?_⟩,
    ⟨hchanged.floating, hchanged.vector, hchanged.csrs, hchanged.privilege, ?_, ?_, ?_⟩, hblock⟩
  · funext r
    rw [hchanged.integer, hm', h.integer]
    cases written <;> rfl
  · rw [hbus, hblock.1, hblock.2]
    exact Bus.inRam_of_memoryMap hmemory.memoryMap h.ram
  · rw [hbus]
    exact hmemory.inside
  · rw [hfetchContext]
    exact h.fetchBare
  · rw [hdataContext]
    exact h.dataBare
  · rw [hbus]
    exact hmemory.memoryMap
  · rw [hbus]
    exact hmemory.devices
  · rw [hbus, ← hblock.1, ← hblock.2]
    exact hmemory.outside

/-- One step of the hart is one step of the machine. -/
theorem Runs.step (h : c.Runs m) (hstep : m.step = some m') :
    c.step.1.retired = true ∧ c.step.2.Runs m' ∧ Keeps m c c.step.2 ∧
      m'.base = m.base ∧ m'.size = m.size := by
  rw [Machine.step] at hstep
  cases hfetch : m.fetch with
  | none =>
    rw [hfetch] at hstep
    cases hstep
  | some fetched =>
    obtain ⟨i, length⟩ := fetched
    rw [hfetch] at hstep
    obtain ⟨bits, hbits, hencoding⟩ := h.awake_self.fetch_eq hfetch
    have hfetches : Fetches c { programCounter := m.pc, bits, length } c.awake :=
      ⟨by rw [h.awake]; rfl, hbits⟩
    refine Carries.step h hfetches ?_
    have hexecute : c.awake.execute { programCounter := m.pc, bits, length } =
        c.awake.performImc { programCounter := m.pc, bits, length } i := by
      rcases hencoding with ⟨hlength, hi⟩ | ⟨hlength, hi⟩
      · exact execute_half hlength hi
      · exact execute_word hlength hi
    rw [hexecute]
    exact h.awake_self.carries_performImc rfl hstep

/-- A step that retires does not trap. -/
theorem trap_of_retired (h : c.step.1.retired = true) : c.step.1.trap = none := by
  have hstep := stepped c
  generalize c.step = r at h hstep
  cases hstep with
  | stalled => rfl
  | faulted => cases h
  | @executed packet fetched done result _ _ _ _ he hr htrap =>
    cases hresult : result.trap with
    | none => rfl
    | some trap =>
      obtain ⟨t, ht, -⟩ := htrap trap hresult
      have hdone : done.1.retired = true := hr.symm.trans h
      cases he with
      | retired => cases ht
      | trapped => cases hdone
      | interrupted => cases hdone

/-- The hart after a number of steps. -/
def after (c : Cpu) (n : ℕ) : Cpu := (fun c : Cpu ↦ c.step.2)^[n] c

end Cpu

/-- **Programs.**  A hart that is where a machine of RV64IMC is, translating no addresses, stays
with the machine for as long as that goes on: each step retires an instruction, the registers, the
program counter and the memory are those of the machine, and nothing else changes but the
counters. -/
theorem program_runs {c : Cpu} {m m' : Machine} (h : c.Runs m) {n : ℕ} (hrun : m.run n = some m') :
    (∀ k < n, (c.after k).step.1.retired = true) ∧ (c.after n).Runs m' ∧
      Cpu.Keeps m c (c.after n) := by
  induction n generalizing c m with
  | zero =>
    obtain rfl := Option.some.inj hrun
    exact ⟨fun k hk ↦ absurd hk (Nat.not_lt_zero k), h, .refl m c⟩
  | succ n ih =>
    rw [Machine.run] at hrun
    cases hstep : m.step with
    | none =>
      rw [hstep] at hrun
      cases hrun
    | some next =>
      rw [hstep] at hrun
      obtain ⟨hretired, hnext, hkeeps, hbase, hsize⟩ := h.step hstep
      obtain ⟨hsteps, hruns, hlater⟩ := ih hnext hrun
      refine ⟨fun k hk ↦ ?_, hruns, hkeeps.trans ?_⟩
      · cases k with
        | zero => exact hretired
        | succ k => exact hsteps k (Nat.lt_of_succ_lt_succ hk)
      · exact ⟨hlater.floating, hlater.vector, hlater.csrs, hlater.privilege, hlater.memoryMap,
          hlater.devices, by rw [← hbase, ← hsize]; exact hlater.outside⟩

/-- Counting in memory: `addi x1, x1, 1`, `sd x1, 16(x0)`, and a jump back. -/
def countingBytes : List (BitVec 8) :=
  (List.range 8).map (splitByte 0x0010382300108093#64) ++
    (List.range 8).map (splitByte 0xFF9FF06F#64) ++ List.replicate 8 0#8

def countingMemory : PhysicalMemory where
  range := { base := 0#64, size := 24#64, size_pos := by decide, fits := by decide }
  bytes := countingBytes
  size_eq := by simp [countingBytes]

def countingCpu : Cpu where
  bus :=
    { regions := [.ram countingMemory]
      apart := List.pairwise_singleton _ _ }

def countingMachine : Machine where
  pc := 0#64
  x _ := 0#64
  base := 0
  size := 24
  memory y := countingBytes.getD y 0#8

/-- Two turns of the loop. -/
theorem program_runs_counting : ∃ m', countingMachine.run 6 = some m' ∧ m'.x 1#5 = 2#64 ∧
    m'.word 16 .doubleWord = 2#64 ∧ (countingCpu.after 6).Runs m' := by
  have hrun : (countingMachine.run 6).any
      (fun m ↦ m.x 1#5 = 2#64 ∧ m.word 16 .doubleWord = 2#64) = true := by
    decide +kernel
  obtain ⟨m', hm', hvalues⟩ := (Option.any_eq_true _ _).1 hrun
  obtain ⟨hregister, hmemory⟩ := of_decide_eq_true hvalues
  have hstart : countingCpu.Runs countingMachine := by
    refine ⟨rfl, rfl, ?_, ⟨_, List.mem_cons_self, Nat.le_refl 0, Nat.le_refl 24⟩, fun y _ hy ↦ ?_,
      rfl, Or.inl rfl, Or.inl rfl⟩
    · funext r
      exact ite_self _
    · have hbyte : countingCpu.bus.ramByte y = some (countingBytes.getD (y - 0) 0#8) :=
        Bus.ramByte_of_mem (m := countingMemory) List.mem_cons_self (Nat.zero_le y) hy
      exact hbyte
  exact ⟨m', hm', hregister, hmemory, (program_runs hstart hm').2.1⟩

end Rvemu
