import Rvemu.Conformance.ElfLoading
import Rvemu.Core.Programs
import Rvemu.Isa.TestProgram
import Rvemu.Runtime.Build

/-!
# The runner of the conformance tests

The runner loads an ELF file into RAM, steps a hart from its entry and looks at the double word at
`tohost` after every step.  For a test of RV64IMC its verdict is the one of the machine of the
manual that starts with the contents of the file in memory (`act_verdict`): what lies between the
file and the exit code, the loader, the hart and the bus, adds nothing of its own.
-/

set_option autoImplicit false

namespace Rvemu

open Bytes Isa
open Elf (littleEndian)

namespace Act

/-! ## The command line -/

def ramBase : BitVec 64 := 0x80000000#64
def ramSize : BitVec 64 := 0x4000000#64
def defaultInstructionLimit : BitVec 64 := 20000000#64

/-- A bus with nothing on it. -/
def emptyBus : Bus where
  apart := List.Pairwise.nil

structure Options where
  elf : String := ""
  instructionLimit : BitVec 64 := defaultInstructionLimit
  deriving DecidableEq, Repr

/-- The digits of a positive number below 2⁶⁴, and nothing else. -/
def parsePositive (text : String) : Option (BitVec 64) :=
  let digits := text.toList
  let value := digits.foldl (fun (value : ℕ) digit ↦ value * 10 + (digit.toNat - 48)) 0
  if digits.isEmpty || !digits.all Char.isDigit || decide (2 ^ 64 ≤ value) || value == 0 then none
  else some (BitVec.ofNat 64 value)

/-- The loop over the arguments behind the file. -/
def parseOptionsFrom (options : Options) : List String → Option Options
  | [] => some options
  | [_] => none
  | argument :: value :: rest =>
    if argument ≠ "--max-instructions" then none
    else
      match parsePositive value with
      | none => none
      | some instructionLimit => parseOptionsFrom { options with instructionLimit } rest

def parseOptions : List String → Option Options
  | [] => none
  | elf :: rest => parseOptionsFrom { elf } rest

def usage (executable : String) : String :=
  "用法：" ++ executable ++ " <test.elf> [--max-instructions <正整数>]\n"

/-! ## The loop -/

/-- How the runner ends: what it prints of the test, and what it says itself. -/
structure Outcome where
  exitCode : ℕ
  printed : List (BitVec 8) := []
  out : String := ""
  err : String := ""
  deriving DecidableEq, Repr

structure Session where
  cpu : Cpu
  deliveredTraps : BitVec 64 := 0#64
  printed : List (BitVec 8) := []

namespace Session

variable (s : Session)

/-- The place and the traps that a failure and a timeout report. -/
def position : String :=
  "，PC=0x" ++ String.ofList (Nat.toDigits 16 s.cpu.state.programCounter.toNat) ++ "，已送达 Trap=" ++
    toString s.deliveredTraps.toNat ++ "\n"

def passed (options : Options) : Outcome where
  exitCode := 0
  printed := s.printed
  out := "RVCP-SUMMARY: TEST PASSED - ELF \"" ++ options.elf ++ "\"\n"

def failed (options : Options) : Outcome where
  exitCode := 1
  printed := s.printed
  err := "RVCP-SUMMARY: TEST FAILED - ELF \"" ++ options.elf ++ "\"" ++ s.position

def timeout (options : Options) : Outcome where
  exitCode := 2
  printed := s.printed
  err := "RVCP-SUMMARY: TEST TIMEOUT - ELF \"" ++ options.elf ++ "\"，指令上限=" ++
    toString options.instructionLimit.toNat ++ s.position

def broken (message : String) : Outcome where
  exitCode := 2
  printed := s.printed
  err := message ++ "\n"

/-- A step, and the delivery of its trap. -/
def step : Session :=
  let stepped := s.cpu.step
  match stepped.1.trap with
  | some trap =>
    { s with cpu := (stepped.2.takeTrap trap).2, deliveredTraps := s.deliveredTraps + 1#64 }
  | none => { s with cpu := stepped.2 }

/-- What the word at `tohost` asks for. -/
def serve (options : Options) (tohost : BitVec 64) : Except Outcome Session :=
  let status := s.cpu.bus.read tohost .doubleWord .load
  let s := { s with cpu := { s.cpu with bus := status.2 } }
  if !status.1.ok then .error (s.broken ("读取 tohost 失败：" ++ status.1.error.detail))
  else if status.1.value = 1#64 then .error (s.passed options)
  else if status.1.value = 3#64 then .error (s.failed options)
  else if status.1.value >>> 32 = 0x01010000#64 then
    let s := { s with printed := s.printed ++ [(status.1.value &&& 0xFF#64).setWidth 8] }
    let cleared := s.cpu.bus.write tohost .doubleWord 0#64 .initialization
    let s := { s with cpu := { s.cpu with bus := cleared.2 } }
    if !cleared.1.ok then .error (s.broken ("清除 HTIF 控制字失败：" ++ cleared.1.error.detail))
    else .ok s
  else .ok s

/-- The loop, with the number of steps that are left. -/
def run (options : Options) (tohost : BitVec 64) : ℕ → Session → Outcome
  | 0, s => s.timeout options
  | n + 1, s =>
    match s.step.serve options tohost with
    | .error outcome => outcome
    | .ok s => run options tohost n s

end Session

/-- The program, called by a name with arguments; `file` is what is at the path of the test. -/
def main (executable : String) (arguments : List String) (file : HostFile) : Elf.Indexed Outcome :=
  match parseOptions arguments with
  | none => return { exitCode := 2, err := usage executable }
  | some options =>
    match PhysicalMemory.create ramBase ramSize "act4-ram" with
    -- an exception that nobody catches
    | .error _ => none
    | .ok ram =>
      let registration := emptyBus.registerRegion (.ram ram)
      if !registration.1.ok then
        return { exitCode := 2, err := "无法注册 ACT4 RAM：" ++ registration.1.error.detail ++ "\n" }
      else
        match AddressRange.create ramBase ramSize with
        | none => return { exitCode := 2, err := "内部错误：ACT4 RAM 范围无效\n" }
        | some ramRange => do
          let loaded ← Elf.loadElf64Riscv file options.elf registration.2 ramRange
          match loaded.1.image with
          | none => return { exitCode := 2, err := "ELF 装载失败：" ++ loaded.1.error ++ "\n" }
          | some image =>
            let cpu : Cpu := { bus := loaded.2, state := CpuState.reset image.entryPoint }
            return Session.run options image.tohostAddress options.instructionLimit.toNat { cpu }

/-! ## Tests of RV64IMC -/

/-- The machine that starts a test: zeros with the segments of the program headers over them, in
their order, and the entry point of the file. -/
def startMachine (bytes : List (BitVec 8)) : Option Machine :=
  let header := Elf.fileHeader bytes
  let segments := Elf.loadedSegments (Elf.programHeaders bytes header)
  Machine.goTo
    { pc := 0#64
      x := fun _ ↦ 0#64
      base := ramBase.toNat
      size := ramSize.toNat
      memory := fun y ↦ ((segments.foldl (Elf.overlay bytes) fun _ ↦ some 0#8) y).getD 0#8 }
    header.entry

/-- The code that a verdict is reported by. -/
def exitCode : Verdict → ℕ
  | .passed => 0
  | .failed => 1
  | .timeout => 2

end Act

/-- A machine goes on from memory that was written from outside. -/
theorem Cpu.Runs.write {c : Cpu} {m m' : Machine} (h : c.Runs m) {a value : BitVec 64}
    {width : AccessWidth} (hstore : m.store a width value = some m') (type : AccessType) :
    (c.bus.write a width value type).1.ok = true ∧
      Cpu.Runs { c with bus := (c.bus.write a width value type).2 } m' ∧
      m'.base = m.base ∧ m'.size = m.size := by
  rw [Machine.store] at hstore
  split at hstore
  · next hold =>
    obtain ⟨hok, hstored⟩ := (h.inRam hold).write value type
    obtain rfl := Option.some.inj hstore
    refine ⟨by rw [hok]; rfl, ⟨h.programCounter, h.even, h.integer,
      Bus.inRam_of_memoryMap (c.bus.memoryMap_write a width value type) h.ram, fun y hy hy' ↦ ?_,
      h.awake, h.fetchBare, h.dataBare⟩, rfl, rfl⟩
    dsimp only at hy hy' ⊢
    rw [hstored.ramByte_eq]
    split
    · rfl
    · exact h.memory y hy hy'
  · cases hstore

namespace Act.Session

variable {s : Session} {m m' : Machine} {options : Options} {tohost : BitVec 64}

/-- A step of the machine is a step of the session. -/
theorem step_runs (h : s.cpu.Runs m) (hstep : m.step = some m') :
    s.step = { s with cpu := s.cpu.step.2 } ∧ s.step.cpu.Runs m' := by
  obtain ⟨hretired, hruns, -⟩ := h.step hstep
  have hsame : s.step = { s with cpu := s.cpu.step.2 } := by
    rw [step, Cpu.trap_of_retired hretired]
  rw [hsame]
  exact ⟨rfl, hruns⟩

/-- The word of the session is that of the machine. -/
theorem read_tohost (h : s.cpu.Runs m) {word : BitVec 64}
    (hload : m.load tohost .doubleWord = some word) (type : AccessType) :
    s.cpu.bus.read tohost .doubleWord type = (.success word, s.cpu.bus) := by
  have hold := m.holds_of_load hload
  rw [Machine.load, if_pos hold] at hload
  rw [(h.inRam hold).read_eq type, h.ramWord_eq hold, Option.some.inj hload]

/-- What the session does with the word that the machine holds. -/
theorem serve_eq (h : s.cpu.Runs m) {word : BitVec 64}
    (hload : m.load tohost .doubleWord = some word) :
    s.serve options tohost =
      if word = 1#64 then .error (s.passed options)
      else if word = 3#64 then .error (s.failed options)
      else if word >>> 32 = consoleCommand then
        let s := { s with printed := s.printed ++ [(word &&& 0xFF#64).setWidth 8] }
        let cleared := s.cpu.bus.write tohost .doubleWord 0#64 .initialization
        let s := { s with cpu := { s.cpu with bus := cleared.2 } }
        if !cleared.1.ok then
          .error (s.broken ("清除 HTIF 控制字失败：" ++ cleared.1.error.detail))
        else .ok s
      else .ok s := by
  rw [serve, read_tohost h hload]
  rfl

/-- **The loop of the runner is that of the test.** -/
theorem run_test {n : ℕ} (h : s.cpu.Runs m) {verdict : Verdict} {printed : List (BitVec 8)}
    (htest : m.test tohost n s.printed = some (verdict, printed)) :
    (s.run options tohost n).exitCode = exitCode verdict ∧
      (s.run options tohost n).printed = printed := by
  induction n generalizing s m with
  | zero =>
    obtain ⟨rfl, rfl⟩ := Prod.mk.inj (Option.some.inj htest)
    exact ⟨rfl, rfl⟩
  | succ n ih =>
    rw [Machine.test] at htest
    rw [run]
    cases hstep : m.step with
    | none =>
      rw [hstep] at htest
      cases htest
    | some next =>
    rw [hstep] at htest
    dsimp only at htest
    obtain ⟨hsession, hruns⟩ := step_runs h hstep
    have hprinted : s.step.printed = s.printed := by rw [hsession]
    generalize s.step = t at hruns hprinted
    rw [← hprinted] at htest
    cases hload : next.load tohost .doubleWord with
    | none =>
      rw [hload] at htest
      cases htest
    | some word =>
    rw [hload] at htest
    dsimp only at htest
    rw [serve_eq hruns hload]
    by_cases hpassed : word = 1#64
    · rw [if_pos hpassed] at htest
      obtain ⟨rfl, rfl⟩ := Prod.mk.inj (Option.some.inj htest)
      rw [if_pos hpassed]
      exact ⟨rfl, rfl⟩
    rw [if_neg hpassed] at htest ⊢
    by_cases hfailed : word = 3#64
    · rw [if_pos hfailed] at htest
      obtain ⟨rfl, rfl⟩ := Prod.mk.inj (Option.some.inj htest)
      rw [if_pos hfailed]
      exact ⟨rfl, rfl⟩
    rw [if_neg hfailed] at htest ⊢
    by_cases hconsole : word >>> 32 = consoleCommand
    · rw [if_pos hconsole] at htest ⊢
      cases hstore : next.store tohost .doubleWord 0#64 with
      | none =>
        rw [hstore] at htest
        cases htest
      | some cleared =>
        rw [hstore] at htest
        obtain ⟨hok, hcleared, -⟩ := hruns.write hstore .initialization
        have hcharacter : (word &&& 0xFF#64).setWidth 8 = word.setWidth 8 := by
          have hmask := Bits.toNat_and_mask word (show 8 < 64 by decide)
          refine BitVec.eq_of_toNat_eq ?_
          rw [BitVec.toNat_setWidth, BitVec.toNat_setWidth]
          exact (congrArg (· % 2 ^ 8) hmask).trans (Nat.mod_mod _ _)
        dsimp only
        rw [hok, hcharacter]
        exact ih hcleared htest
    · rw [if_neg hconsole] at htest ⊢
      exact ih hruns htest

end Act.Session

namespace Act

/-! ## The start of a test -/

theorem pos_ramSize : 0 < ramSize.toNat := by decide

theorem fits_ramSize : ramBase.toNat + ramSize.toNat < 2 ^ 64 := by decide

/-- RAM of the runner. -/
def ramRange : AddressRange where
  base := ramBase
  size := ramSize
  size_pos := pos_ramSize
  fits := fits_ramSize

theorem create_ramRange : AddressRange.create ramBase ramSize = some ramRange := rfl

def ram : PhysicalMemory := .zeroed ramRange "act4-ram"

/-- The bus of the runner. -/
def ramBus : Bus := (emptyBus.registerRegion (.ram ram)).2

theorem registered_ramBus : (emptyBus.registerRegion (.ram ram)).1.ok = true :=
  (Bus.ok_registerRegion_iff _ _).2 (by simp [emptyBus])

theorem ram_mem_ramBus : AddressRegion.ram ram ∈ ramBus.regions :=
  (Bus.added_registerRegion registered_ramBus).regions.mem_iff.2 (by simp)

theorem inRam_ramBus : ramBus.InRam ramRange.base.toNat ramRange.size.toNat :=
  ⟨ram, ram_mem_ramBus, Nat.le_refl _, Nat.le_refl _⟩

theorem ramByte_ramBus {y : ℕ} (h : ramBase.toNat ≤ y) (h' : y < ramBase.toNat + ramSize.toNat) :
    ramBus.ramByte y = some 0#8 := by
  rw [Bus.ramByte_of_mem ram_mem_ramBus h h', ram, PhysicalMemory.zeroed,
    List.getD_eq_getElem?_getD, List.getElem?_replicate]
  split <;> rfl

/-- Segments over memories that agree in a byte. -/
theorem foldl_overlay_congr {bytes : List (BitVec 8)} {ram ram' : ℕ → Option (BitVec 8)} {y : ℕ}
    (h : ram y = ram' y) (segments : List Elf.Segment) :
    segments.foldl (Elf.overlay bytes) ram y = segments.foldl (Elf.overlay bytes) ram' y := by
  induction segments generalizing ram ram' with
  | nil => exact h
  | cons segment segments ih =>
    refine ih ?_
    rw [Elf.overlay, Elf.overlay]
    split
    · rfl
    · exact h

theorem isSome_foldl_overlay {bytes : List (BitVec 8)} {ram : ℕ → Option (BitVec 8)} {y : ℕ}
    (h : (ram y).isSome = true) (segments : List Elf.Segment) :
    (segments.foldl (Elf.overlay bytes) ram y).isSome = true := by
  induction segments generalizing ram with
  | nil => exact h
  | cons segment segments ih =>
    refine ih ?_
    rw [Elf.overlay]
    split
    · rfl
    · exact h

/-- Writing the segments moves no region. -/
theorem memoryMap_writeSegments {bytes : List (BitVec 8)} (hsize : bytes.length < 2 ^ 64)
    (segments : List Elf.Segment) (hplaced : ∀ s ∈ segments, s.Placed bytes ramRange)
    {bus bus' : Bus} (hram : bus.InRam ramRange.base.toNat ramRange.size.toNat)
    (h : Elf.writeSegments bytes segments bus = some (none, bus')) :
    bus'.memoryMap = bus.memoryMap := by
  induction segments generalizing bus with
  | nil =>
    obtain rfl := (Prod.mk.inj (Option.some.inj h)).2
    rfl
  | cons s segments ih =>
    obtain ⟨hs, hrest⟩ := List.forall_mem_cons.1 hplaced
    obtain ⟨bus₁, hwrite, hloaded⟩ :=
      Elf.writeSegment_eq hsize hs (hram.sub hs.inside.1 hs.inside.2)
    rw [Elf.writeSegments, hwrite] at h
    exact (ih hrest (hloaded.inRam hram) h).trans hloaded.memoryMap_eq

/-- A file that passes the checks is loaded, and the hart starts where the machine does. -/
theorem start_runs {bytes : List (BitVec 8)} (fits : bytes.length < 2 ^ 64) {plan : Elf.ElfPlan}
    (hcheck : Elf.checkElf bytes ramRange = some (.ok plan)) {m : Machine}
    (hstart : startMachine bytes = some m) (path : String) :
    ∃ b, Elf.loadElf64Riscv (.contents bytes fits) path ramBus ramRange =
        some (.success plan.image, b) ∧
      Cpu.Runs { bus := b, state := CpuState.reset plan.image.entryPoint } m := by
  obtain ⟨r, hr, hsound⟩ := Elf.checkElf_eq fits ramRange
  obtain rfl := Option.some.inj (hr.symm.trans hcheck)
  have hplan := hsound plan rfl
  have hplaced : ∀ s ∈ plan.segments, s.Placed bytes ramRange := by
    rw [hplan.segments_eq]
    exact Elf.forall_loadedSegments hplan.placed
  obtain ⟨b, hwrites, hbytes, -⟩ := Elf.writeSegments_eq fits plan.segments hplaced inRam_ramBus
  have hmap := memoryMap_writeSegments fits plan.segments hplaced inRam_ramBus hwrites
  refine ⟨b, ?_, ?_⟩
  · rw [Elf.loadElf64Riscv, hcheck]
    show (Elf.writeSegments bytes plan.segments ramBus >>= _) = _
    rw [hwrites]
    rfl
  rw [startMachine, ← hplan.segments_eq, ← hplan.entry_eq, Machine.goTo] at hstart
  split at hstart
  · cases hstart
  next heven =>
  obtain rfl := Option.some.inj hstart
  refine ⟨rfl, by simpa using heven, ?_, Bus.inRam_of_memoryMap hmap inRam_ramBus,
    fun y hy hy' ↦ ?_, rfl, Or.inl rfl, Or.inl (Cpu.privilege_dataContext_of_reset rfl rfl)⟩
  · funext r
    exact ite_self _
  · have hzero := ramByte_ramBus hy hy'
    have hsome : (plan.segments.foldl (Elf.overlay bytes) ramBus.ramByte y).isSome = true :=
      isSome_foldl_overlay (by rw [hzero]; rfl) plan.segments
    obtain ⟨byte, hbyte⟩ := Option.isSome_iff_exists.1 hsome
    have hsame : plan.segments.foldl (Elf.overlay bytes) ramBus.ramByte y =
        plan.segments.foldl (Elf.overlay bytes) (fun _ ↦ some 0#8) y :=
      foldl_overlay_congr hzero plan.segments
    show b.ramByte y = some _
    rw [hbytes, hbyte]
    rw [hbyte] at hsame
    dsimp only
    rw [← hsame]
    rfl

/-- **The verdict of the runner.**  A file that passes the checks of the loader, and holds a test of
RV64IMC, gets the verdict of the machine of the manual that starts with the segments of its program
headers in memory and talks through its symbol `tohost`: the runner exits with its code, and prints
the characters that the test asks for, each once. -/
theorem act_verdict (executable : String) {arguments : List String} {options : Options}
    {bytes : List (BitVec 8)} (fits : bytes.length < 2 ^ 64) {m : Machine} {tohost : BitVec 64}
    {verdict : Verdict} {printed : List (BitVec 8)}
    (hoptions : parseOptions arguments = some options)
    (haccepted : ∃ plan, Elf.checkElf bytes ramRange = some (.ok plan))
    (hstart : startMachine bytes = some m)
    (htohost : Elf.valueOf Elf.tohostName (Elf.symbols bytes (Elf.fileHeader bytes)) = some tohost)
    (htest : m.test tohost options.instructionLimit.toNat [] =
      some (verdict, printed)) :
    ∃ outcome, main executable arguments (.contents bytes fits) = some outcome ∧
      outcome.exitCode = exitCode verdict ∧ outcome.printed = printed := by
  obtain ⟨plan, hcheck⟩ := haccepted
  obtain ⟨b, hload, hruns⟩ := start_runs fits hcheck hstart options.elf
  obtain ⟨r, hr, hsound⟩ := Elf.checkElf_eq fits ramRange
  obtain rfl := Option.some.inj (hr.symm.trans hcheck)
  obtain rfl : tohost = plan.image.tohostAddress :=
    Option.some.inj (htohost.symm.trans (hsound plan rfl).tohost_eq)
  refine ⟨Session.run options plan.image.tohostAddress options.instructionLimit.toNat
    { cpu := { bus := b, state := CpuState.reset plan.image.entryPoint } }, ?_,
    Session.run_test hruns htest⟩
  have hcreate : PhysicalMemory.create ramBase ramSize "act4-ram" = .ok ram := by
    rw [PhysicalMemory.create, create_ramRange]
    rfl
  rw [main, hoptions]
  dsimp only
  rw [hcreate, create_ramRange]
  dsimp only
  rw [registered_ramBus, if_neg (by simp)]
  show (Elf.loadElf64Riscv (.contents bytes fits) options.elf ramBus ramRange >>= _) = _
  rw [hload]
  rfl

/-- A test of seven instructions, which asks for an H and passes.  Its word is behind the code, and
the segment reaches over it. -/
def smallTest : List (BitVec 8) :=
  [0x7F#8, 0x45#8, 0x4C#8, 0x46#8, 2#8, 1#8, 1#8] ++ List.replicate 9 0#8 ++
  littleEndian 2 2#64 ++ littleEndian 2 243#64 ++ littleEndian 4 1#64 ++
  littleEndian 8 ramBase ++ littleEndian 8 64#64 ++ littleEndian 8 120#64 ++
  littleEndian 4 0#64 ++ littleEndian 2 64#64 ++ littleEndian 2 56#64 ++ littleEndian 2 1#64 ++
  littleEndian 2 64#64 ++ littleEndian 2 2#64 ++ littleEndian 2 0#64 ++
  -- the program header
  littleEndian 4 1#64 ++ littleEndian 4 5#64 ++ littleEndian 8 280#64 ++ littleEndian 8 ramBase ++
  littleEndian 8 ramBase ++ littleEndian 8 28#64 ++ littleEndian 8 40#64 ++ littleEndian 8 4#64 ++
  -- the header of the string table, and that of the symbols, which links to it
  littleEndian 4 0#64 ++ littleEndian 4 3#64 ++ List.replicate 16 0#8 ++ littleEndian 8 248#64 ++
  littleEndian 8 8#64 ++ List.replicate 24 0#8 ++
  littleEndian 4 0#64 ++ littleEndian 4 2#64 ++ List.replicate 16 0#8 ++ littleEndian 8 256#64 ++
  littleEndian 8 24#64 ++ List.replicate 16 0#8 ++ littleEndian 8 24#64 ++
  -- the strings, the symbol, and the code
  [0#8] ++ Elf.tohostName ++ [0#8] ++
  littleEndian 4 1#64 ++ littleEndian 4 0#64 ++ littleEndian 8 0x80000020#64 ++
  littleEndian 8 8#64 ++
  [0x00000297#64, 0x010103B7#64, 0x02039393#64, 0x04838393#64, 0x0272B023#64, 0x00100313#64,
    0x0262B023#64].flatMap (littleEndian 4)

def smallPlan : Elf.ElfPlan where
  segments :=
    [{ fileOffset := 280#64, physicalAddress := ramBase, fileSize := 28#64, memorySize := 40#64 }]
  image :=
    { entryPoint := ramBase
      tohostAddress := 0x80000020#64
      lowestLoadedAddress := ramBase
      highestLoadedAddressExclusive := 0x80000028#64 }

theorem length_smallTest : smallTest.length < 2 ^ 64 := by decide +kernel

/-- The test prints its H and passes. -/
theorem act_verdict_small :
    ∃ outcome,
      main "rvemu-act" ["small.elf", "--max-instructions", "10"]
        (.contents smallTest length_smallTest) = some outcome ∧
      outcome.exitCode = 0 ∧ outcome.printed = [0x48#8] := by
  obtain ⟨m, hm⟩ : ∃ m, startMachine smallTest = some m :=
    Option.isSome_iff_exists.1 (by decide +kernel)
  have htest : (startMachine smallTest).bind (fun m ↦ m.test 0x80000020#64 10 []) =
      some (.passed, [0x48#8]) := by
    decide +kernel
  rw [hm] at htest
  have hoptions : parseOptions ["small.elf", "--max-instructions", "10"] =
      some ⟨"small.elf", 10#64⟩ := by
    decide +kernel
  exact act_verdict "rvemu-act" length_smallTest hoptions ⟨smallPlan, by decide +kernel⟩ hm
    (by decide +kernel) htest

end Act

end Rvemu
