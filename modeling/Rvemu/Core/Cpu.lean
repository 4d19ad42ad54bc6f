import Rvemu.Core.Compressed
import Rvemu.Core.ExecuteFloating
import Rvemu.Core.ExecuteInteger
import Rvemu.Core.ExecuteVector

/-!
# Fetch, dispatch and traps

One step of the hart fetches an instruction half-word by half-word, expands it if it is compressed
and runs its executor.  A trap is only reported by the step; `takeTrap` and `takePendingInterrupt`
are the two entries into a handler.
-/

set_option autoImplicit false

namespace Rvemu

structure TrapDelivery where
  interrupt : Bool
  cause : BitVec 64
  source : PrivilegeMode
  target : PrivilegeMode
  vector : BitVec 64
  deriving DecidableEq, Repr

def interruptFlag : BitVec 64 := 1#64 <<< 63

namespace Cpu

/-! ## Dispatch -/

/-- OP-V: floating, then integer, then the configuration instructions. -/
def executeOpV (c : Cpu) (packet : InstructionPacket) (instruction : DecodedInstruction)
    (sequentialPc : BitVec 64) : StepResult × Cpu :=
  match decodeVectorFloatingInstruction packet.bits with
  | some floating => c.executeVectorFloating packet floating sequentialPc
  | none =>
    match decodeVectorIntegerInstruction packet.bits with
    | some integer => c.executeVectorInteger packet integer sequentialPc
    | none => c.executeVectorConfiguration packet instruction sequentialPc

/-- LOAD-FP and STORE-FP are shared between vector and scalar accesses. -/
def executeLoadStoreFp (c : Cpu) (packet : InstructionPacket) (instruction : DecodedInstruction)
    (sequentialPc : BitVec 64) : StepResult × Cpu :=
  match decodeVectorMemoryOperation packet.bits (instruction.opcode == 0x07#7) with
  | some operation => c.executeVectorMemory packet operation sequentialPc
  | none => c.executeFloating packet instruction sequentialPc

def executeStandard (c : Cpu) (packet : InstructionPacket) : StepResult × Cpu :=
  let instruction := decode packet.bits
  let source1 := c.state.integer instruction.source1
  let source2 := c.state.integer instruction.source2
  let sequentialPc := packet.programCounter + BitVec.ofNat 64 packet.length
  if instruction.opcode = 0x57#7 then c.executeOpV packet instruction sequentialPc
  else if instruction.opcode = 0x37#7 then  -- LUI
    c.writeAndRetire packet instruction.destination (immediateU packet.bits) sequentialPc
  else if instruction.opcode = 0x17#7 then  -- AUIPC
    c.writeAndRetire packet instruction.destination
      (packet.programCounter + immediateU packet.bits) sequentialPc
  else if instruction.opcode = 0x6F#7 then c.executeJal packet instruction sequentialPc
  else if instruction.opcode = 0x67#7 then c.executeJalr packet instruction source1 sequentialPc
  else if instruction.opcode = 0x63#7 then
    c.executeBranch packet instruction source1 source2 sequentialPc
  else if instruction.opcode = 0x03#7 then c.executeLoad packet instruction source1 sequentialPc
  else if instruction.opcode = 0x23#7 then
    c.executeStore packet instruction source1 source2 sequentialPc
  else if instruction.opcode = 0x13#7 then
    c.executeComputed packet instruction.destination sequentialPc
      (opImmResult packet.bits instruction.function3 source1)
  else if instruction.opcode = 0x1B#7 then
    c.executeComputed packet instruction.destination sequentialPc
      (opImm32Result packet.bits instruction source1)
  else if instruction.opcode = 0x33#7 then
    c.executeComputed packet instruction.destination sequentialPc
      (opResult instruction source1 source2)
  else if instruction.opcode = 0x3B#7 then
    c.executeComputed packet instruction.destination sequentialPc
      (op32Result instruction source1 source2)
  else if instruction.opcode = 0x2F#7 then
    c.executeAtomic packet instruction source1 source2 sequentialPc
  else if instruction.opcode = 0x07#7 ∨ instruction.opcode = 0x27#7 then
    c.executeLoadStoreFp packet instruction sequentialPc
  else if instruction.opcode = 0x43#7 ∨ instruction.opcode = 0x47#7 ∨ instruction.opcode = 0x4B#7
      ∨ instruction.opcode = 0x4F#7 ∨ instruction.opcode = 0x53#7 then
    c.executeFloating packet instruction sequentialPc
  else if instruction.opcode = 0x0F#7 then  -- FENCE and FENCE.I
    if instruction.function3 = 0#3 ∨ instruction.function3 = 1#3 then
      c.retire packet sequentialPc
    else c.illegal packet
  else if instruction.opcode = 0x73#7 then
    c.executeSystem packet instruction source1 sequentialPc
  else c.illegal packet

/-- A trap raised by an expanded instruction reports the encoding that was fetched. -/
def reportCompressed (packet : InstructionPacket) (result : StepResult) : StepResult :=
  { result with
    trap := result.trap.map fun trap ↦
      { trap with
        instruction := packet.bits
        value :=
          if trap.cause = .illegalInstruction then packet.bits.setWidth 64 else trap.value } }

def execute (c : Cpu) (packet : InstructionPacket) : StepResult × Cpu :=
  if packet.compressed then
    match decompressRv64c (packet.bits.setWidth 16) with
    | none => c.illegal packet
    | some expanded =>
      let done := c.executeStandard { packet with bits := expanded }
      (reportCompressed packet done.1, done.2)
  else c.executeStandard packet

/-! ## Fetch -/

/-- The two halves of a four-byte instruction; the first is already there. -/
def fetchUpper (c : Cpu) (pc : BitVec 64) (lower : BitVec 16) :
    Except Trap InstructionPacket × Cpu :=
  if pc > BitVec.allOnes 64 - 2#64 then
    (.error
      { cause := .instructionAccessFault, value := pc, programCounter := pc,
        instruction := lower.setWidth 32 }, c)
  else
    let upper := c.guestRead { programCounter := pc } (pc + 2#64) .halfWord .instructionFetch
      .instructionFetch
    match upper.1.trap with
    | some trap => (.error { trap with instruction := lower.setWidth 32 }, upper.2)
    | none =>
      let bits := lower.setWidth 32
        ||| ((upper.1.access.value &&& 0xFFFF#64).setWidth 32 <<< 16)
      (.ok { programCounter := pc, bits, length := 4 }, upper.2)

def fetch (c : Cpu) : Except Trap InstructionPacket × Cpu :=
  let pc := c.state.programCounter
  if (pc &&& 1#64) != 0#64 then
    (.error { cause := .instructionAddressMisaligned, value := pc, programCounter := pc }, c)
  else
    let lowerResult := c.guestRead { programCounter := pc } pc .halfWord .instructionFetch
      .instructionFetch
    match lowerResult.1.trap with
    | some trap => (.error trap, lowerResult.2)
    | none =>
      let lower := lowerResult.1.access.value.setWidth 16
      if lower &&& 3#16 ≠ 3#16 then
        (.ok { programCounter := pc, bits := lower.setWidth 32, length := 2 }, lowerResult.2)
      else lowerResult.2.fetchUpper pc lower

/-! ## One step -/

def incrementCycle (c : Cpu) : Cpu := c.modifyState (·.modifyCsrs (·.incrementCycle))

def incrementInstret (c : Cpu) : Cpu := c.modifyState (·.modifyCsrs (·.incrementInstret))

/-- Count the instruction that was executed. -/
def countStep (result : StepResult) (c : Cpu) : Cpu :=
  let c := if c.suppressCycleIncrement then c else c.incrementCycle
  if result.retired && !c.suppressInstretIncrement then c.incrementInstret else c

/-- Fetch and execute, once the hart is awake. -/
def stepAwake (c : Cpu) : StepResult × Cpu :=
  let fetched := c.fetch
  match fetched.1 with
  | .error trap => (.failure trap 0, fetched.2.incrementCycle)
  | .ok packet =>
    let done := fetched.2.execute packet
    (done.1, countStep done.1 done.2)

/-- A hart that waits for an interrupt only counts cycles until one is pending and locally
enabled. -/
def step (c : Cpu) : StepResult × Cpu :=
  let c := { c with suppressCycleIncrement := false, suppressInstretIncrement := false }
  if c.state.waitingForInterrupt then
    if !c.state.csrs.hasLocallyEnabledInterrupt then (.wait, c.incrementCycle)
    else (c.modifyState (·.setWaitingForInterrupt false)).stepAwake
  else c.stepAwake

/-! ## Trap entry -/

/-- The CSR side of entering a handler. -/
def enterTrap (csrs : CsrFile) (target source : PrivilegeMode)
    (programCounter cause value : BitVec 64) : CsrFile :=
  if target = .supervisor then csrs.enterSupervisorTrap source programCounter cause value
  else csrs.enterMachineTrap source programCounter cause value

/-- Continue at a trap vector. -/
def enterHandler (c : Cpu) (csrs : CsrFile) (target : PrivilegeMode) (vector : BitVec 64) : Cpu :=
  c.modifyState (·.resumeAt ({ privilege := target, programCounter := vector }, csrs))

def takeTrap (c : Cpu) (trap : Trap) : TrapDelivery × Cpu :=
  let source := c.state.privilege
  let cause := BitVec.ofNat 64 trap.cause.code
  let target : PrivilegeMode :=
    if c.state.csrs.exceptionDelegated source trap.cause then .supervisor else .machine
  let csrs := enterTrap c.state.csrs target source trap.programCounter cause trap.value
  let vector := csrs.trapVector target false cause
  ({ interrupt := false, cause, source, target, vector }, c.enterHandler csrs target vector)

/-- Deliver one interrupt; pending bits are left to their sources. -/
def deliverInterrupt (c : Cpu) (pending : PendingInterrupt) : TrapDelivery × Cpu :=
  let source := c.state.privilege
  let cause := BitVec.ofNat 64 pending.cause.code
  let csrs := enterTrap c.state.csrs pending.target source c.state.programCounter
    (interruptFlag ||| cause) 0#64
  let vector := csrs.trapVector pending.target true cause
  ({ interrupt := true, cause, source, target := pending.target, vector },
    c.enterHandler csrs pending.target vector)

def takePendingInterrupt (c : Cpu) : Option TrapDelivery × Cpu :=
  match c.state.csrs.selectPendingInterrupt c.state.privilege with
  | none => (none, c)
  | some pending => ((c.deliverInterrupt pending).1, (c.deliverInterrupt pending).2)

end Cpu

end Rvemu
