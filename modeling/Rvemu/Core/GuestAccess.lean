import Rvemu.Core.CpuState
import Rvemu.Core.Decoder
import Rvemu.Memory.Mmu

/-!
# The hart and its memory accesses

`Cpu` is the hart together with the bus and the MMU it drives.  All five guest accesses translate
first and then run one bus operation; they differ in the kind of translation, the bus operation and
the cause a bus error turns into, so `guestAccess` is written once.
-/

set_option autoImplicit false

namespace Rvemu

/-- What a step reports to the main loop. -/
structure StepResult where
  retired : Bool := false
  stalled : Bool := false
  instructionLength : ℕ := 0
  trap : Option Trap := none
  deriving DecidableEq, Repr

namespace StepResult

def success (length : ℕ) : StepResult := { retired := true, instructionLength := length }

def failure (failureTrap : Trap) (length : ℕ) : StepResult :=
  { instructionLength := length, trap := some failureTrap }

def wait : StepResult := { stalled := true }

end StepResult

structure Cpu where
  bus : Bus
  mmu : Mmu := {}
  state : CpuState := {}
  suppressCycleIncrement : Bool := false
  suppressInstretIncrement : Bool := false

structure GuestAccessResult where
  access : AccessResult := {}
  trap : Option Trap := none
  token : ReservationToken := {}
  deriving DecidableEq, Repr

def makeTrap (packet : InstructionPacket) (cause : ExceptionCause) (value : BitVec 64) : Trap :=
  { cause, value, programCounter := packet.programCounter, instruction := packet.bits }

def illegalTrap (packet : InstructionPacket) : Trap :=
  makeTrap packet .illegalInstruction (packet.bits.setWidth 64)

def privilegeFromMpp (mstatus : BitVec 64) : PrivilegeMode :=
  let mpp := (mstatus >>> 11) &&& 3#64
  if mpp = 1#64 then .supervisor else if mpp = 3#64 then .machine else .user

def accessFaultCause : MmuAccessKind → ExceptionCause
  | .instructionFetch => .instructionAccessFault
  | .load => .loadAccessFault
  | .store | .atomic => .storeAccessFault

/-- One bus operation at a physical address; only load-reserved issues a token. -/
abbrev BusOperation := Bus → BitVec 64 → (AccessResult × ReservationToken) × Bus

def readOperation (width : AccessWidth) (type : AccessType) : BusOperation := fun b address ↦
  (((b.read address width type).1, {}), (b.read address width type).2)

def writeOperation (width : AccessWidth) (value : BitVec 64) (type : AccessType) : BusOperation :=
  fun b address ↦
    (((b.write address width value type).1, {}), (b.write address width value type).2)

def loadReservedOperation (width : AccessWidth) : BusOperation := fun b address ↦
  (((b.loadReserved address width).1.access, (b.loadReserved address width).1.token),
    (b.loadReserved address width).2)

def storeConditionalOperation (token : ReservationToken) (width : AccessWidth)
    (value : BitVec 64) : BusOperation := fun b address ↦
  (((b.storeConditional token address width value).1, {}),
    (b.storeConditional token address width value).2)

def compareExchangeOperation (width : AccessWidth) (expected desired : BitVec 64) : BusOperation :=
  fun b address ↦
    (((b.compareExchange address width expected desired).1, {}),
      (b.compareExchange address width expected desired).2)

namespace Cpu

def fetchContext (c : Cpu) : MmuContext where
  privilege := c.state.privilege
  satp := c.state.csrs.readValue .satp
  mstatus := c.state.csrs.readValue .mstatus

/-- MPRV lets machine mode access data with the privilege in MPP. -/
def dataContext (c : Cpu) : MmuContext :=
  let mstatus := c.state.csrs.readValue .mstatus
  let privilege :=
    if c.state.privilege == .machine && (mstatus &&& (1#64 <<< 17)) != 0#64 then
      privilegeFromMpp mstatus
    else c.state.privilege
  { privilege, satp := c.state.csrs.readValue .satp, mstatus }

/-- The part after the translation. -/
def accessTranslated (c : Cpu) (packet : InstructionPacket) (virtualAddress : BitVec 64)
    (faultCause : ExceptionCause) (op : BusOperation) :
    TranslationResult → GuestAccessResult × Cpu
  | .error fault => ({ trap := some (makeTrap packet fault.cause fault.value) }, c)
  | .ok physicalAddress =>
    let done := op c.bus physicalAddress
    if !done.1.1.ok then
      ({ access := done.1.1, trap := some (makeTrap packet faultCause virtualAddress) },
        { c with bus := done.2 })
    else ({ access := done.1.1, token := done.1.2 }, { c with bus := done.2 })

def guestAccess (c : Cpu) (packet : InstructionPacket) (virtualAddress : BitVec 64)
    (width : AccessWidth) (kind : MmuAccessKind) (context : MmuContext)
    (faultCause : ExceptionCause) (op : BusOperation) : GuestAccessResult × Cpu :=
  let translated := c.mmu.translate c.bus virtualAddress width kind context
  ({ c with mmu := translated.2.1, bus := translated.2.2 } : Cpu).accessTranslated packet
    virtualAddress faultCause op translated.1

def guestRead (c : Cpu) (packet : InstructionPacket) (virtualAddress : BitVec 64)
    (width : AccessWidth) (kind : MmuAccessKind) (busType : AccessType) : GuestAccessResult × Cpu :=
  let context := if kind = .instructionFetch then c.fetchContext else c.dataContext
  c.guestAccess packet virtualAddress width kind context (accessFaultCause kind)
    (readOperation width busType)

/-- Stores are translated as atomics, so they need read permission as well. -/
def guestWrite (c : Cpu) (packet : InstructionPacket) (virtualAddress : BitVec 64)
    (width : AccessWidth) (value : BitVec 64) (busType : AccessType) : GuestAccessResult × Cpu :=
  c.guestAccess packet virtualAddress width .atomic c.dataContext .storeAccessFault
    (writeOperation width value busType)

def guestLoadReserved (c : Cpu) (packet : InstructionPacket) (virtualAddress : BitVec 64)
    (width : AccessWidth) : GuestAccessResult × Cpu :=
  c.guestAccess packet virtualAddress width .load c.dataContext .loadAccessFault
    (loadReservedOperation width)

def guestStoreConditional (c : Cpu) (packet : InstructionPacket) (token : ReservationToken)
    (virtualAddress : BitVec 64) (width : AccessWidth) (value : BitVec 64) :
    GuestAccessResult × Cpu :=
  c.guestAccess packet virtualAddress width .store c.dataContext .storeAccessFault
    (storeConditionalOperation token width value)

def guestCompareExchange (c : Cpu) (packet : InstructionPacket) (virtualAddress : BitVec 64)
    (width : AccessWidth) (expected desired : BitVec 64) : GuestAccessResult × Cpu :=
  c.guestAccess packet virtualAddress width .store c.dataContext .storeAccessFault
    (compareExchangeOperation width expected desired)

/-! ## The ways an instruction ends -/

def illegal (c : Cpu) (packet : InstructionPacket) : StepResult × Cpu :=
  (.failure (illegalTrap packet) packet.length, c)

def modifyState (c : Cpu) (f : CpuState → CpuState) : Cpu := { c with state := f c.state }

def retire (c : Cpu) (packet : InstructionPacket) (nextPc : BitVec 64) : StepResult × Cpu :=
  (.success packet.length, c.modifyState (·.setProgramCounter nextPc))

def writeAndRetire (c : Cpu) (packet : InstructionPacket) (destination : BitVec 5)
    (value nextPc : BitVec 64) : StepResult × Cpu :=
  (c.modifyState (·.setInteger destination value)).retire packet nextPc

/-- Fail with the trap of an access, or go on with what it returned. -/
def afterAccess (packet : InstructionPacket) (accessed : GuestAccessResult × Cpu)
    (next : GuestAccessResult → Cpu → StepResult × Cpu) : StepResult × Cpu :=
  match accessed.1.trap with
  | some trap => (.failure trap packet.length, accessed.2)
  | none => next accessed.1 accessed.2

end Cpu

end Rvemu
