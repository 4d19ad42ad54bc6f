import Rvemu.Core.GuestAccess
import Rvemu.Core.Integer

/-!
# The integer, atomic and system instructions

The executors of the opcodes that touch neither the floating nor the vector registers.  The purely
computational ones are a table from fields to a result (`none` is a reserved encoding); the others
pass the hart along.
-/

set_option autoImplicit false

namespace Rvemu

/-! ## Results of the computational opcodes -/

/-- Shift amounts and the upper field that goes with them. -/
def shiftAmount64 (bits : BitVec 32) : ℕ := (bits.extractLsb' 20 6).toNat

def shiftAmount32 (bits : BitVec 32) : ℕ := (bits.extractLsb' 20 5).toNat

def function6 (bits : BitVec 32) : BitVec 6 := bits.extractLsb' 26 6

/-- A truth value in a register. -/
def flag (b : Bool) : BitVec 64 := if b then 1#64 else 0#64

def opImmResult (bits : BitVec 32) (function3 : BitVec 3) (source1 : BitVec 64) :
    Option (BitVec 64) :=
  let immediate := immediateI bits
  if function3 = 0#3 then some (source1 + immediate)
  else if function3 = 2#3 then some (flag (signedLess source1 immediate))
  else if function3 = 3#3 then some (flag (source1 < immediate))
  else if function3 = 4#3 then some (source1 ^^^ immediate)
  else if function3 = 6#3 then some (source1 ||| immediate)
  else if function3 = 7#3 then some (source1 &&& immediate)
  else if function3 = 1#3 then
    if function6 bits ≠ 0#6 then none else some (source1 <<< shiftAmount64 bits)
  else if function6 bits = 0#6 then some (source1 >>> shiftAmount64 bits)
  else if function6 bits = 0x10#6 then some (arithmeticShiftRight64 source1 (shiftAmount64 bits))
  else none

def opImm32Result (bits : BitVec 32) (instruction : DecodedInstruction) (source1 : BitVec 64) :
    Option (BitVec 64) :=
  let sourceWord := source1.setWidth 32
  let word : Option (BitVec 32) :=
    if instruction.function3 = 0#3 then some (sourceWord + (immediateI bits).setWidth 32)
    else if instruction.function3 = 1#3 then
      if instruction.function7 ≠ 0#7 then none else some (sourceWord <<< shiftAmount32 bits)
    else if instruction.function3 = 5#3 then
      if instruction.function7 = 0#7 then some (sourceWord >>> shiftAmount32 bits)
      else if instruction.function7 = 0x20#7 then
        some (arithmeticShiftRight32 sourceWord (shiftAmount32 bits))
      else none
    else none
  word.map fun result ↦ signExtendWord (result.setWidth 64)

def opResult (instruction : DecodedInstruction) (source1 source2 : BitVec 64) :
    Option (BitVec 64) :=
  let amount := (source2 &&& 0x3F#64).toNat
  if instruction.function7 = 1#7 then executeIntegerM instruction.function3 source1 source2 false
  else if instruction.function7 = 0#7 then
    if instruction.function3 = 0#3 then some (source1 + source2)
    else if instruction.function3 = 1#3 then some (source1 <<< amount)
    else if instruction.function3 = 2#3 then some (flag (signedLess source1 source2))
    else if instruction.function3 = 3#3 then some (flag (source1 < source2))
    else if instruction.function3 = 4#3 then some (source1 ^^^ source2)
    else if instruction.function3 = 5#3 then some (source1 >>> amount)
    else if instruction.function3 = 6#3 then some (source1 ||| source2)
    else some (source1 &&& source2)
  else if instruction.function7 = 0x20#7 ∧ instruction.function3 = 0#3 then some (source1 - source2)
  else if instruction.function7 = 0x20#7 ∧ instruction.function3 = 5#3 then
    some (arithmeticShiftRight64 source1 amount)
  else none

def op32Result (instruction : DecodedInstruction) (source1 source2 : BitVec 64) :
    Option (BitVec 64) :=
  let lhs := source1.setWidth 32
  let rhs := source2.setWidth 32
  let amount := (rhs &&& 0x1F#32).toNat
  let extended (result : BitVec 32) : Option (BitVec 64) :=
    some (signExtendWord (result.setWidth 64))
  if instruction.function7 = 1#7 then executeIntegerM instruction.function3 source1 source2 true
  else if instruction.function7 = 0#7 ∧ instruction.function3 = 0#3 then extended (lhs + rhs)
  else if instruction.function7 = 0x20#7 ∧ instruction.function3 = 0#3 then extended (lhs - rhs)
  else if instruction.function7 = 0#7 ∧ instruction.function3 = 1#3 then extended (lhs <<< amount)
  else if instruction.function7 = 0#7 ∧ instruction.function3 = 5#3 then extended (lhs >>> amount)
  else if instruction.function7 = 0x20#7 ∧ instruction.function3 = 5#3 then
    extended (arithmeticShiftRight32 lhs amount)
  else none

def branchTaken (function3 : BitVec 3) (source1 source2 : BitVec 64) : Option Bool :=
  if function3 = 0#3 then some (source1 == source2)
  else if function3 = 1#3 then some (source1 != source2)
  else if function3 = 4#3 then some (signedLess source1 source2)
  else if function3 = 5#3 then some (!signedLess source1 source2)
  else if function3 = 6#3 then some (source1 < source2)
  else if function3 = 7#3 then some (source2 ≤ source1)
  else none

/-- Width, and the number of bits to sign-extend from (`none` for the unsigned loads). -/
def loadFormat (function3 : BitVec 3) : Option (AccessWidth × Option ℕ) :=
  if function3 = 0#3 then some (.byte, some 8)
  else if function3 = 1#3 then some (.halfWord, some 16)
  else if function3 = 2#3 then some (.word, some 32)
  else if function3 = 3#3 then some (.doubleWord, some 64)
  else if function3 = 4#3 then some (.byte, none)
  else if function3 = 5#3 then some (.halfWord, none)
  else if function3 = 6#3 then some (.word, none)
  else none

def storeWidth (function3 : BitVec 3) : Option AccessWidth :=
  if function3 = 0#3 then some .byte
  else if function3 = 1#3 then some .halfWord
  else if function3 = 2#3 then some .word
  else if function3 = 3#3 then some .doubleWord
  else none

def environmentCallCause : PrivilegeMode → ExceptionCause
  | .user => .environmentCallFromUser
  | .supervisor => .environmentCallFromSupervisor
  | .machine => .environmentCallFromMachine

/-- The operation of a CSR instruction and whether its operand is an immediate. -/
def csrOperation (function3 : BitVec 3) : Option (CsrModifyOperation × Bool) :=
  if function3 = 1#3 then some (.replace, false)
  else if function3 = 2#3 then some (.setBits, false)
  else if function3 = 3#3 then some (.clearBits, false)
  else if function3 = 5#3 then some (.replace, true)
  else if function3 = 6#3 then some (.setBits, true)
  else if function3 = 7#3 then some (.clearBits, true)
  else none

namespace Cpu

/-! ## Computation, control transfer, loads and stores -/

/-- Commit the result of a computational opcode. -/
def executeComputed (c : Cpu) (packet : InstructionPacket) (destination : BitVec 5)
    (sequentialPc : BitVec 64) : Option (BitVec 64) → StepResult × Cpu
  | none => c.illegal packet
  | some result => c.writeAndRetire packet destination result sequentialPc

/-- Jump to `target` unless it is odd; `commit` is what the jump writes besides the PC. -/
def jumpTo (c : Cpu) (packet : InstructionPacket) (target : BitVec 64)
    (commit : CpuState → CpuState) : StepResult × Cpu :=
  if (target &&& 1#64) != 0#64 then
    (.failure (makeTrap packet .instructionAddressMisaligned target) packet.length, c)
  else (c.modifyState commit).retire packet target

def executeJal (c : Cpu) (packet : InstructionPacket) (instruction : DecodedInstruction)
    (sequentialPc : BitVec 64) : StepResult × Cpu :=
  c.jumpTo packet (packet.programCounter + immediateJ packet.bits)
    (·.setInteger instruction.destination sequentialPc)

def executeJalr (c : Cpu) (packet : InstructionPacket) (instruction : DecodedInstruction)
    (source1 sequentialPc : BitVec 64) : StepResult × Cpu :=
  if instruction.function3 ≠ 0#3 then c.illegal packet
  else
    c.jumpTo packet ((source1 + immediateI packet.bits) &&& ~~~1#64)
      (·.setInteger instruction.destination sequentialPc)

def executeBranch (c : Cpu) (packet : InstructionPacket) (instruction : DecodedInstruction)
    (source1 source2 sequentialPc : BitVec 64) : StepResult × Cpu :=
  match branchTaken instruction.function3 source1 source2 with
  | none => c.illegal packet
  | some false => c.retire packet sequentialPc
  | some true => c.jumpTo packet (packet.programCounter + immediateB packet.bits) id

def executeLoad (c : Cpu) (packet : InstructionPacket) (instruction : DecodedInstruction)
    (source1 sequentialPc : BitVec 64) : StepResult × Cpu :=
  match loadFormat instruction.function3 with
  | none => c.illegal packet
  | some (width, signWidth) =>
    let address := source1 + immediateI packet.bits
    afterAccess packet (c.guestRead packet address width .load .load) fun loaded c ↦
      let value :=
        match signWidth with
        | some bits => signExtend loaded.access.value bits
        | none => loaded.access.value
      c.writeAndRetire packet instruction.destination value sequentialPc

def executeStore (c : Cpu) (packet : InstructionPacket) (instruction : DecodedInstruction)
    (source1 source2 sequentialPc : BitVec 64) : StepResult × Cpu :=
  match storeWidth instruction.function3 with
  | none => c.illegal packet
  | some width =>
    let address := source1 + immediateS packet.bits
    afterAccess packet (c.guestWrite packet address width source2 .store) fun _ c ↦
      c.retire packet sequentialPc

/-! ## LR, SC and AMO -/

/-- The atomics need natural alignment. -/
def misaligned (address : BitVec 64) (width : AccessWidth) : Bool :=
  (address &&& (BitVec.ofNat 64 (widthInBytes width) - 1#64)) != 0#64

def executeLoadReserved (c : Cpu) (packet : InstructionPacket) (instruction : DecodedInstruction)
    (width : AccessWidth) (wordOperation : Bool) (address sequentialPc : BitVec 64) :
    StepResult × Cpu :=
  if instruction.source2 ≠ 0#5 then c.illegal packet
  else if misaligned address width then
    (.failure (makeTrap packet .loadAddressMisaligned address) packet.length, c)
  else
    afterAccess packet (c.guestLoadReserved packet address width) fun loaded c ↦
      let value :=
        if wordOperation then signExtendWord loaded.access.value else loaded.access.value
      (c.modifyState (·.setReservationToken loaded.token)).writeAndRetire packet
        instruction.destination value sequentialPc

/-- The token is given up before anything else can fail. -/
def executeStoreConditional (c : Cpu) (packet : InstructionPacket)
    (instruction : DecodedInstruction) (width : AccessWidth)
    (address source2 sequentialPc : BitVec 64) : StepResult × Cpu :=
  let token := c.state.reservationToken
  let c := c.modifyState (·.setReservationToken {})
  if misaligned address width then
    (.failure (makeTrap packet .storeAddressMisaligned address) packet.length, c)
  else
    afterAccess packet (c.guestStoreConditional packet token address width source2) fun stored c ↦
      c.writeAndRetire packet instruction.destination (flag !stored.access.exchanged) sequentialPc

/-- The compare-exchange loop of an AMO, with a bound on the number of attempts: the access that
ended it and the value it was computed from.  `none` means that the last attempt still lost; on its
own the hart wins the first one (`executeAmoAmong_alone`). -/
def exchangeLoop (c : Cpu) (packet : InstructionPacket) (operation : AtomicOperation)
    (address source2 : BitVec 64) (width : AccessWidth) (wordOperation : Bool)
    (original : BitVec 64) : ℕ → Option ((GuestAccessResult × BitVec 64) × Cpu)
  | 0 => none
  | attempts + 1 =>
    let desired := executeAtomicOperation operation original source2 wordOperation
    let exchanged := c.guestCompareExchange packet address width original desired
    if exchanged.1.trap.isSome || exchanged.1.access.exchanged then
      some ((exchanged.1, original), exchanged.2)
    else
      exchanged.2.exchangeLoop packet operation address source2 width wordOperation
        exchanged.1.access.value attempts

/-- The attempts an AMO is run with; any larger number gives the same function. -/
def exchangeAttempts : ℕ := 2

def finishAmo (c : Cpu) (packet : InstructionPacket) (destination : BitVec 5) (wordOperation : Bool)
    (sequentialPc : BitVec 64) :
    Option ((GuestAccessResult × BitVec 64) × Cpu) → StepResult × Cpu
  | none => c.illegal packet
  | some ((exchanged, original), c) =>
    afterAccess packet (exchanged, c) fun _ c ↦
      c.writeAndRetire packet destination
        (if wordOperation then signExtendWord original else original) sequentialPc

def executeAmo (c : Cpu) (packet : InstructionPacket) (instruction : DecodedInstruction)
    (operation : AtomicOperation) (width : AccessWidth) (wordOperation : Bool)
    (address source2 sequentialPc : BitVec 64) : StepResult × Cpu :=
  if misaligned address width then
    (.failure (makeTrap packet .storeAddressMisaligned address) packet.length, c)
  else
    afterAccess packet (c.guestRead packet address width .atomic .atomic) fun observed c ↦
      c.finishAmo packet instruction.destination wordOperation sequentialPc
        (c.exchangeLoop packet operation address source2 width wordOperation observed.access.value
          exchangeAttempts)

/-- The aq and rl bits order host memory operations only; bus transactions are already serial. -/
def executeAtomic (c : Cpu) (packet : InstructionPacket) (instruction : DecodedInstruction)
    (source1 source2 sequentialPc : BitVec 64) : StepResult × Cpu :=
  let wordOperation := instruction.function3 == 2#3
  if !wordOperation && instruction.function3 != 3#3 then c.illegal packet
  else
    let width : AccessWidth := if wordOperation then .word else .doubleWord
    let address := source1
    let function5 := packet.bits.extractLsb' 27 5
    if function5 = 0x02#5 then
      c.executeLoadReserved packet instruction width wordOperation address sequentialPc
    else if function5 = 0x03#5 then
      c.executeStoreConditional packet instruction width address source2 sequentialPc
    else
      match decodeAtomicOperation function5 with
      | none => c.illegal packet
      | some operation =>
        c.executeAmo packet instruction operation width wordOperation address source2 sequentialPc

/-! ## SYSTEM -/

def executeSfenceVma (c : Cpu) (packet : InstructionPacket) (instruction : DecodedInstruction)
    (source1 sequentialPc : BitVec 64) : StepResult × Cpu :=
  let tvm := (c.state.csrs.readValue .mstatus &&& (1#64 <<< 20)) != 0#64
  if c.state.privilege == .user || (c.state.privilege == .supervisor && tvm) then c.illegal packet
  else
    let virtualAddress := if instruction.source1 = 0#5 then none else some source1
    let asid :=
      if instruction.source2 = 0#5 then none
      else some ((c.state.integer instruction.source2).setWidth 16)
    ({ c with mmu := c.mmu.sfenceVma virtualAddress asid } : Cpu).retire packet sequentialPc

def returnTo (c : Cpu) (packet : InstructionPacket) (returned : TrapReturnState × CsrFile) :
    StepResult × Cpu :=
  (.success packet.length, c.modifyState (·.resumeAt returned))

def executePrivileged (c : Cpu) (packet : InstructionPacket) (instruction : DecodedInstruction)
    (source1 sequentialPc : BitVec 64) : StepResult × Cpu :=
  if packet.bits &&& 0xFE00707F#32 = 0x12000073#32 then
    c.executeSfenceVma packet instruction source1 sequentialPc
  else if packet.bits = 0x00000073#32 then  -- ECALL
    (.failure (makeTrap packet (environmentCallCause c.state.privilege) 0#64) packet.length, c)
  else if packet.bits = 0x00100073#32 then  -- EBREAK
    (.failure (makeTrap packet .breakpoint 0#64) packet.length, c)
  else if packet.bits = 0x30200073#32 then  -- MRET
    if c.state.privilege ≠ .machine then c.illegal packet
    else c.returnTo packet c.state.csrs.returnFromMachine
  else if packet.bits = 0x10200073#32 then  -- SRET
    if !c.state.csrs.supervisorReturnAllowed c.state.privilege then c.illegal packet
    else c.returnTo packet c.state.csrs.returnFromSupervisor
  else if packet.bits = 0x10500073#32 then  -- WFI
    if !c.state.csrs.waitForInterruptAllowed c.state.privilege then c.illegal packet
    else (c.modifyState (·.setWaitingForInterrupt true)).retire packet sequentialPc
  else c.illegal packet

/-- The request a CSR instruction makes: whether it writes depends on the register field, not on the
value in the register. -/
def csrRequest (c : Cpu) (packet : InstructionPacket) (instruction : DecodedInstruction)
    (operation : CsrModifyOperation) (immediate : Bool) (source1 : BitVec 64) : CsrAccessRequest :=
  let replace := operation == .replace
  { address := packet.bits.extractLsb' 20 12
    privilege := c.state.privilege
    read := !replace || instruction.destination != 0#5
    write := replace || instruction.source1 != 0#5
    operation
    operand := if immediate then instruction.source1.setWidth 64 else source1 }

/-- An explicit write of a counter replaces its increment by the same instruction. -/
def executeCsr (c : Cpu) (packet : InstructionPacket) (instruction : DecodedInstruction)
    (request : CsrAccessRequest) (sequentialPc : BitVec 64) : StepResult × Cpu :=
  let accessed := c.state.csrs.access request
  if !accessed.1.success then c.illegal packet
  else
    let c : Cpu :=
      { c with
        state := { c.state with csrs := accessed.2 }
        suppressCycleIncrement :=
          c.suppressCycleIncrement || (request.write && request.address == CsrAddress.mcycle.raw)
        suppressInstretIncrement :=
          c.suppressInstretIncrement
            || (request.write && request.address == CsrAddress.minstret.raw) }
    c.writeAndRetire packet instruction.destination accessed.1.value sequentialPc

def executeSystem (c : Cpu) (packet : InstructionPacket) (instruction : DecodedInstruction)
    (source1 sequentialPc : BitVec 64) : StepResult × Cpu :=
  if instruction.function3 = 0#3 then
    c.executePrivileged packet instruction source1 sequentialPc
  else
    match csrOperation instruction.function3 with
    | none => c.illegal packet
    | some (operation, immediate) =>
      c.executeCsr packet instruction
        (c.csrRequest packet instruction operation immediate source1) sequentialPc

end Cpu

end Rvemu
