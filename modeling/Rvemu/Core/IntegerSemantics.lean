import Rvemu.Core.Perform
import Rvemu.Memory.SamePage

/-!
# The base instructions, step by step

What a step with an RV64I instruction does to the hart and to memory, against `Rvemu.Isa`.  A step
that retires changes the destination register, the program counter and the counters; a store
changes the bytes it addresses, and nothing else happens to memory but updates of A and D bits.
-/

set_option autoImplicit false

namespace Rvemu

open Isa Bytes

/-! ## The hart -/

/-- From `s` to `s'`: one register at most is written, execution goes on at `next`, the counters
advance, and the hart no longer waits. -/
structure Changed (s s' : CpuState) (written : Option (BitVec 5 × BitVec 64)) (next : BitVec 64) :
    Prop where
  integer : ∀ r, s'.integer r =
    match written with
    | some (rd, value) => if r = rd ∧ r ≠ 0#5 then value else s.integer r
    | none => s.integer r
  programCounter : s'.programCounter = next
  floating : s'.floatingRegisters = s.floatingRegisters
  vector : s'.vectorState = s.vectorState
  csrs : ∃ cycle instret, s'.csrs = { s.csrs with cycle, instret }
  privilege : s'.privilege = s.privilege
  reservationToken : s'.reservationToken = s.reservationToken
  waiting : s'.waitingForInterrupt = false

theorem integer_setInteger (s : CpuState) (rd r : BitVec 5) (value : BitVec 64) :
    (s.setInteger rd value).integer r = if r = rd ∧ r ≠ 0#5 then value else s.integer r := by
  rw [CpuState.integer, CpuState.setInteger, CpuState.integer]
  by_cases hr : r = 0#5
  · simp [hr]
  · by_cases hrd : rd = 0#5
    · simp [hr, hrd]
    · by_cases heq : r = rd
      · simp [heq, hrd]
      · simp [hr, hrd, heq]

/-- Counting what `c` has become. -/
theorem changed_countStep {c d : Cpu} {written : Option (BitVec 5 × BitVec 64)} {next : BitVec 64}
    (h : d.state = (c.awake.state.writeRegister written).setProgramCounter next)
    (result : StepResult) : Changed c.state (Cpu.countStep result d).state written next := by
  obtain ⟨cycle, instret, hcount⟩ := countStep_csrs result d
  rw [hcount, h]
  cases written with
  | none => exact ⟨fun _ ↦ rfl, rfl, rfl, rfl, ⟨cycle, instret, rfl⟩, rfl, rfl, rfl⟩
  | some w =>
    obtain ⟨rd, value⟩ := w
    refine ⟨fun r ↦ integer_setInteger c.awake.state rd r value, rfl, ?_, ?_,
      ⟨cycle, instret, ?_⟩, ?_,
      ?_, ?_⟩ <;> simp only [CpuState.writeRegister, CpuState.setInteger] <;> split <;> rfl

/-! ## Memory -/

/-- The access of `width` bytes at `va` goes to `pa`, byte by byte, and leaves `b` to the bus: the
memory of `c` up to A and D bits, with the devices as they were. -/
structure AccessedAt (c f : Cpu) (kind : MmuAccessKind) (va : BitVec 64) (width : AccessWidth)
    (pa : BitVec 64) (b : Bus) : Prop where
  translated : ∃ m, f.mmu.translate f.bus va width kind f.dataContext = (.ok pa, m, b)
  bytes : ∀ i < widthInBytes width,
    (f.mmu.translate f.bus (va + BitVec.ofNat 64 i) .byte kind f.dataContext).1 =
      .ok (pa + BitVec.ofNat 64 i)
  memory : AdUpdated c.root c.bus b
  devices : b.devices = c.bus.devices

/-- A read of `value` at `pa`: in RAM, of the bytes there, and without any effect on RAM. -/
structure Reads (b b' : Bus) (pa : BitVec 64) (width : AccessWidth) (value : BitVec 64) : Prop where
  ok : (b.read pa width .load).1.ok = true
  result : (b.read pa width .load).1.value = value
  bus : (b.read pa width .load).2 = b'
  bytes : b.InRam pa.toNat (widthInBytes width) →
    ∀ i < widthInBytes width, b.ramByte (pa.toNat + i) = some (splitByte value i)
  ram : ∀ x, b'.ramByte x = b.ramByte x

/-- A write of `value` at `pa`: in RAM it changes the bytes it covers, elsewhere no byte of RAM. -/
structure Writes (b b' : Bus) (pa : BitVec 64) (width : AccessWidth) (value : BitVec 64) :
    Prop where
  ok : (b.write pa width value .store).1.ok = true
  bus : (b.write pa width value .store).2 = b'
  bytes : b.InRam pa.toNat (widthInBytes width) → ∀ x, b'.ramByte x =
    if pa.toNat ≤ x ∧ x < pa.toNat + widthInBytes width then some (splitByte value (x - pa.toNat))
    else b.ramByte x
  devices : b.InRam pa.toNat (widthInBytes width) → b'.devices = b.devices
  ram : ¬ b.InRam pa.toNat (widthInBytes width) → ∀ x, b'.ramByte x = b.ramByte x

theorem reads_of_ok {b : Bus} {pa : BitVec 64} {width : AccessWidth}
    (h : (b.read pa width .load).1.ok = true) :
    Reads b (b.read pa width .load).2 pa width (b.read pa width .load).1.value :=
  ⟨h, rfl, rfl, fun hram ↦ (hram.read .load).2, b.ramByte_read pa width .load⟩

theorem writes_of_ok {b : Bus} {pa value : BitVec 64} {width : AccessWidth}
    (h : (b.write pa width value .store).1.ok = true) :
    Writes b (b.write pa width value .store).2 pa width value := by
  refine ⟨h, rfl, fun hram ↦ ?_, fun hram ↦ ?_, fun hram ↦ ?_⟩
  · exact (hram.write value .store).2.ramByte_eq
  · exact (hram.write value .store).2.devices_eq
  · exact Bus.ramByte_write_of_not_inRam hram value .store

/-! ## Instructions -/

/-- The effect of an instruction of length `length` on the hart and on memory, where `f` is the hart
that the fetch leaves behind. -/
def Isa.Instruction.Effect (c f c' : Cpu) (length : BitVec 64) (i : Instruction) : Prop :=
  let x := c.state.integer
  let pc := c.state.programCounter
  match i with
  | .load width signed rd rs1 offset =>
    ∃ pa b value, AccessedAt c f .load (x rs1 + offset) width pa b ∧
      Reads b c'.bus pa width value ∧
      Changed c.state c'.state (some (rd, extend width signed value)) (pc + length)
  | .store width rs1 rs2 offset =>
    ∃ pa b, AccessedAt c f .atomic (x rs1 + offset) width pa b ∧
      Writes b c'.bus pa width (x rs2) ∧ Changed c.state c'.state none (pc + length)
  | i =>
    AdUpdated c.root c.bus c'.bus ∧ c'.bus.devices = c.bus.devices ∧
      Changed c.state c'.state (i.written x pc length) (i.next x pc length)

/-- The access of the instruction stays in one page. -/
def Isa.Instruction.StaysInPage (x : BitVec 5 → BitVec 64) (i : Instruction) : Prop :=
  ∀ va width, i.accessed x = some (va, width) →
    va.toNat % 2 ^ 12 + widthInBytes width ≤ 2 ^ 12

section Steps

variable {c f : Cpu} {packet : InstructionPacket}

/-- What the fetch leaves is the hart as it was, and memory up to A and D bits. -/
theorem Fetches.bus (h : Fetches c packet f) :
    AdUpdated c.root c.bus f.bus ∧ f.bus.devices = c.bus.devices := by
  have hb := (fetch_fetched c.awake).bus
  have hd := (fetch_devices c.awake).1
  rw [h.fetch] at hb hd
  exact ⟨hb, hd⟩

theorem Fetches.programCounter (h : Fetches c packet f) :
    packet.programCounter = c.state.programCounter :=
  ((fetch_fetched c.awake).packet packet (by rw [h.fetch])).1

theorem accessedAt_of_translate (h : Fetches c packet f) {kind : MmuAccessKind} {va pa : BitVec 64}
    {width : AccessWidth} {m : Mmu} {b : Bus}
    (ht : f.mmu.translate f.bus va width kind f.dataContext = (.ok pa, m, b))
    (hpage : va.toNat % 2 ^ 12 + widthInBytes width ≤ 2 ^ 12) :
    AccessedAt c f kind va width pa b := by
  obtain ⟨hbus, hdevices⟩ := h.bus
  have hroot : satpRootPpn f.dataContext.satp = c.root := by
    show satpRootPpn f.state.csrs.satp = _
    rw [h.state]
    rfl
  refine ⟨⟨m, ht⟩, fun i hi ↦ ?_, ?_, ?_⟩
  · exact translate_samePage ht ⟨rfl, by omega⟩ .byte
  · have hup := translate_adUpdated f.mmu f.bus va width kind f.dataContext
    rw [ht, hroot] at hup
    exact hbus.trans hup
  · have hdev := devices_translate f.mmu f.bus va width kind f.dataContext
    rw [ht] at hdev
    exact hdev.trans hdevices

/-- An access that does not trap was translated and accepted by the bus. -/
theorem guestAccess_of_no_trap {va : BitVec 64} {width : AccessWidth} {kind : MmuAccessKind}
    {context : MmuContext} {cause : ExceptionCause} {op : BusOperation}
    (h : (f.guestAccess packet va width kind context cause op).1.trap = none) :
    ∃ pa m b, f.mmu.translate f.bus va width kind context = (.ok pa, m, b) ∧
      (op b pa).1.1.ok = true ∧
      f.guestAccess packet va width kind context cause op =
        ({ access := (op b pa).1.1, token := (op b pa).1.2 },
          { f with mmu := m, bus := (op b pa).2 }) := by
  obtain ⟨t, m, b, ht⟩ : ∃ t m b, f.mmu.translate f.bus va width kind context = (t, m, b) :=
    ⟨_, _, _, rfl⟩
  cases t with
  | error fault =>
    rw [Cpu.guestAccess, ht] at h
    cases h
  | ok pa =>
    rcases guestAccess_of_translate ht packet cause op with ⟨-, hg⟩ | ⟨hok, hg⟩
    · rw [hg] at h
      cases h
    · exact ⟨pa, m, b, ht, hok, hg⟩

/-- An instruction that retires after an access had no trap. -/
theorem afterAccess_retired {accessed : GuestAccessResult × Cpu}
    {next : GuestAccessResult → Cpu → StepResult × Cpu}
    (h : (Cpu.afterAccess packet accessed next).1.retired = true) :
    accessed.1.trap = none ∧ Cpu.afterAccess packet accessed next = next accessed.1 accessed.2 := by
  rw [Cpu.afterAccess] at h ⊢
  cases ht : accessed.1.trap with
  | none => exact ⟨rfl, rfl⟩
  | some trap =>
    rw [ht] at h
    cases h

theorem transfer_retired {commit : CpuState → CpuState} {target : Option (BitVec 64)}
    (h : (f.transfer packet commit target).1.retired = true) :
    f.transfer packet commit target = (f.modifyState commit).retire packet
      (target.getD (packet.programCounter + BitVec.ofNat 64 packet.length)) := by
  cases target with
  | none => rfl
  | some target =>
    rw [Cpu.transfer, Cpu.jumpTo] at h ⊢
    split at h
    · cases h
    · next heven => rw [if_neg heven, Option.getD_some]

/-- The instructions that do not access memory. -/
theorem effect_of_transfer (h : Fetches c packet f) (hlength : packet.length = 4) {i : Instruction}
    (hi : i.accessed c.state.integer = none) (hretired : (f.perform packet i).1.retired = true) :
    i.Effect c f (Cpu.countStep (f.perform packet i).1 (f.perform packet i).2) 4#64 := by
  have hx : f.state.integer = c.state.integer := by
    rw [h.state]
    rfl
  have hperform : f.perform packet i = f.transfer packet
      (·.writeRegister (i.written c.state.integer c.state.programCounter 4#64))
      (i.target c.state.integer c.state.programCounter) := by
    rw [← hx, ← h.programCounter, show 4#64 = BitVec.ofNat 64 packet.length by rw [hlength]]
    exact f.perform_eq_transfer packet (by rw [hx, hi])
  suffices heffect : ∀ c' : Cpu, c'.bus = f.bus → Changed c.state c'.state
      (i.written c.state.integer c.state.programCounter 4#64)
      (i.next c.state.integer c.state.programCounter 4#64) → i.Effect c f c' 4#64 by
    rw [hperform] at hretired ⊢
    rw [transfer_retired hretired, hlength, h.programCounter]
    refine heffect _ (bus_countStep _ _) (changed_countStep ?_ _)
    show (CpuState.writeRegister f.state _).setProgramCounter _ = _
    rw [h.state]
    rfl
  intro c' hbus hchanged
  have hmemory : AdUpdated c.root c.bus c'.bus ∧ c'.bus.devices = c.bus.devices := by
    rw [hbus]
    exact h.bus
  cases i with
  | load => cases hi
  | store => cases hi
  | _ => exact ⟨hmemory.1, hmemory.2, hchanged⟩

/-- **RV64I.**  A step with an integer, branch, jump, load or store instruction that retires has the
effect the manual gives the instruction. -/
theorem rv64i_step (h : Fetches c packet f) (hlength : packet.length = 4) {i : Instruction}
    (hi : Isa.decode packet.bits = some i) (hpage : i.StaysInPage c.state.integer)
    (hretired : c.step.1.retired = true) : i.Effect c f c.step.2 4#64 := by
  have hexecute : f.execute packet = f.perform packet i := by
    rw [Cpu.execute, InstructionPacket.compressed, hlength, if_neg (by decide),
      executeStandard_eq_perform hi]
  have hx : f.state.integer = c.state.integer := by
    rw [h.state]
    rfl
  rw [h.step_eq, hexecute] at hretired ⊢
  cases i with
  | load width signed rd rs1 offset =>
    have hstay := hpage _ _ rfl
    rw [Cpu.perform, hx, hlength, h.programCounter] at hretired ⊢
    obtain ⟨htrap, hdone⟩ := afterAccess_retired hretired
    obtain ⟨pa, m, b, ht, hok, hg⟩ := guestAccess_of_no_trap htrap
    rw [hdone, Cpu.guestRead, hg]
    refine ⟨pa, b, (b.read pa width .load).1.value, accessedAt_of_translate h ht hstay, ?_,
      changed_countStep ?_ _⟩
    · rw [bus_countStep]
      exact reads_of_ok hok
    · show (f.state.setInteger _ _).setProgramCounter _ = _
      rw [h.state]
      rfl
  | store width rs1 rs2 offset =>
    have hstay := hpage _ _ rfl
    rw [Cpu.perform, hx, hlength, h.programCounter] at hretired ⊢
    obtain ⟨htrap, hdone⟩ := afterAccess_retired hretired
    obtain ⟨pa, m, b, ht, hok, hg⟩ := guestAccess_of_no_trap htrap
    rw [hdone, Cpu.guestWrite, hg]
    refine ⟨pa, b, accessedAt_of_translate h ht hstay, ?_, changed_countStep ?_ _⟩
    · rw [bus_countStep]
      exact writes_of_ok hok
    · show f.state.setProgramCounter _ = _
      rw [h.state]
      rfl
  | _ => exact effect_of_transfer h hlength rfl hretired

/-- A hart in front of `sw x1, 8(x0)`. -/
def storeCpu : Cpu where
  bus :=
    { regions :=
        [.ram
          { range := { base := 0#64, size := 16#64, size_pos := AddressRange.pos_sixteen
                       fits := AddressRange.fits_sixteen }
            bytes := (List.range 16).map (Bytes.splitByte 0x00102423#64)
            size_eq := by simp }]
      apart := by simp }
  state := { integerRegisters := fun i ↦ if i = 1#5 then 0x123456789#64 else 0#64 }

theorem rv64i_step_store :
    Instruction.Effect storeCpu storeCpu.awake.fetch.2 storeCpu.step.2 4#64
      (.store .word 0#5 1#5 8#64) := by
  have hfetch : Fetches storeCpu { programCounter := 0#64, bits := 0x00102423#32, length := 4 }
      storeCpu.awake.fetch.2 := ⟨rfl, Prod.ext (by decide) rfl⟩
  refine rv64i_step hfetch rfl (by decide) ?_ (by decide)
  intro va width h
  cases h
  decide

end Steps

end Rvemu
