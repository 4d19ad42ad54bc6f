import Rvemu.Core.FloatingState
import Rvemu.Core.Trap
import Mathlib.Logic.Function.Basic

/-!
# Control and status registers

`CsrFile` is the single machine-level store behind all CSR addresses; the supervisor views are
projections of machine registers through masks.  Guest accesses go through `access`, which checks
the permission first and leaves the file alone when it fails.
-/

set_option autoImplicit false

namespace Rvemu

/-! ## Masks -/

def bit (index : ℕ) : BitVec 64 := 1#64 <<< index

def sstatusWriteMask : BitVec 64 :=
  bit 1 ||| bit 5 ||| bit 8 ||| (3#64 <<< 9) ||| (3#64 <<< 13) ||| bit 18 ||| bit 19

def sstatusReadMask : BitVec 64 := sstatusWriteMask ||| (3#64 <<< 32) ||| bit 63

def mstatusWriteMask : BitVec 64 :=
  sstatusWriteMask ||| bit 3 ||| bit 7 ||| (3#64 <<< 11) ||| bit 17 ||| bit 20 ||| bit 21 ||| bit 22

def xlenFields : BitVec 64 := (2#64 <<< 32) ||| (2#64 <<< 34)

def supervisorInterruptMask : BitVec 64 := bit 1 ||| bit 5 ||| bit 9

def machineInterruptMask : BitVec 64 := bit 3 ||| bit 7 ||| bit 11

def implementedInterruptMask : BitVec 64 := supervisorInterruptMask ||| machineInterruptMask

def softwareWritablePendingMask : BitVec 64 := bit 1

def implementedCounterenMask : BitVec 64 := bit 0 ||| bit 1 ||| bit 2

def implementedHpmCounterMask : BitVec 64 := 0xFFFFFFF8#64

def implementedMcountinhibitMask : BitVec 64 := bit 0 ||| bit 2 ||| implementedHpmCounterMask

def delegatableExceptionMask : BitVec 64 :=
  bit 0 ||| bit 1 ||| bit 2 ||| bit 3 ||| bit 4 ||| bit 5 ||| bit 6 ||| bit 7 ||| bit 8 ||| bit 9
    ||| bit 12 ||| bit 13 ||| bit 15

/-- RV64 with A, C, D, F, I, M, S and U. -/
def misa : BitVec 64 :=
  (2#64 <<< 62) ||| bit 0 ||| bit 2 ||| bit 3 ||| bit 5 ||| bit 8 ||| bit 12 ||| bit 18 ||| bit 20

def satpModeMask : BitVec 64 := 0xF#64 <<< 60

def satpSv39Mode : BitVec 64 := 8#64 <<< 60

def epcAlignmentMask : BitVec 64 := ~~~1#64

def vectorVtypeVill : BitVec 64 := bit 63

def vectorRegisterBytes : BitVec 64 := 32#64

/-! ## Addresses -/

/-- The implemented CSRs; the four arrays are indexed. -/
inductive CsrAddress
  | fflags | frm | fcsr | vstart | vxsat | vxrm | vcsr
  | sstatus | sie | stvec | scounteren | sscratch | sepc | scause | stval | sip | satp
  | cycle | time | instret | vl | vtype | vlenb
  | mstatus | misa | medeleg | mideleg | mie | mtvec | mcounteren | mcountinhibit
  | mscratch | mepc | mcause | mtval | mip | mtinst | mtval2
  | mcycle | minstret | mvendorid | marchid | mimpid | mhartid
  | pmpcfg (index : Fin 8) | pmpaddr (index : Fin 64)
  | mhpmcounter (index : Fin 29) | mhpmevent (index : Fin 29)
  deriving DecidableEq, Repr

namespace CsrAddress

/-- The twelve-bit encoding; bits 9:8 give the least privilege and bits 11:10 the read-only
space. -/
def raw : CsrAddress → BitVec 12
  | fflags => 0x001#12 | frm => 0x002#12 | fcsr => 0x003#12
  | vstart => 0x008#12 | vxsat => 0x009#12 | vxrm => 0x00A#12 | vcsr => 0x00F#12
  | sstatus => 0x100#12 | sie => 0x104#12 | stvec => 0x105#12 | scounteren => 0x106#12
  | sscratch => 0x140#12 | sepc => 0x141#12 | scause => 0x142#12 | stval => 0x143#12
  | sip => 0x144#12 | satp => 0x180#12
  | cycle => 0xC00#12 | time => 0xC01#12 | instret => 0xC02#12
  | vl => 0xC20#12 | vtype => 0xC21#12 | vlenb => 0xC22#12
  | mstatus => 0x300#12 | misa => 0x301#12 | medeleg => 0x302#12 | mideleg => 0x303#12
  | mie => 0x304#12 | mtvec => 0x305#12 | mcounteren => 0x306#12 | mcountinhibit => 0x320#12
  | mscratch => 0x340#12 | mepc => 0x341#12 | mcause => 0x342#12 | mtval => 0x343#12
  | mip => 0x344#12 | mtinst => 0x34A#12 | mtval2 => 0x34B#12
  | mcycle => 0xB00#12 | minstret => 0xB02#12
  | mvendorid => 0xF11#12 | marchid => 0xF12#12 | mimpid => 0xF13#12 | mhartid => 0xF14#12
  -- RV64 has the even pmpcfg registers only
  | pmpcfg i => BitVec.ofNat 12 (0x3A0 + 2 * i.val)
  | pmpaddr i => BitVec.ofNat 12 (0x3B0 + i.val)
  | mhpmcounter i => BitVec.ofNat 12 (0xB03 + i.val)
  | mhpmevent i => BitVec.ofNat 12 (0x323 + i.val)

/-- The registers that are not members of an array. -/
def named : List CsrAddress :=
  [fflags, frm, fcsr, vstart, vxsat, vxrm, vcsr, sstatus, sie, stvec, scounteren, sscratch, sepc,
    scause, stval, sip, satp, cycle, time, instret, vl, vtype, vlenb, mstatus, misa, medeleg,
    mideleg, mie, mtvec, mcounteren, mcountinhibit, mscratch, mepc, mcause, mtval, mip, mtinst,
    mtval2, mcycle, minstret, mvendorid, marchid, mimpid, mhartid]

/-- Look an address up; `none` is an address that does not exist. -/
def ofRaw (address : BitVec 12) : Option CsrAddress :=
  let n := address.toNat
  if h : 0x3A0 ≤ n ∧ n ≤ 0x3AE ∧ (n - 0x3A0) % 2 = 0 then some (pmpcfg ⟨(n - 0x3A0) / 2, by omega⟩)
  else if h : 0x3B0 ≤ n ∧ n ≤ 0x3EF then some (pmpaddr ⟨n - 0x3B0, by omega⟩)
  else if h : 0xB03 ≤ n ∧ n ≤ 0xB1F then some (mhpmcounter ⟨n - 0xB03, by omega⟩)
  else if h : 0x323 ≤ n ∧ n ≤ 0x33F then some (mhpmevent ⟨n - 0x323, by omega⟩)
  else named.find? (·.raw == address)

/-- Every register is found under its own encoding. -/
theorem ofRaw_raw (a : CsrAddress) : ofRaw a.raw = some a := by
  cases a with
  | pmpcfg i => revert i; decide
  | pmpaddr i => revert i; decide
  | mhpmcounter i => revert i; decide
  | mhpmevent i => revert i; decide
  | _ => decide

def isFloating : CsrAddress → Bool
  | fflags | frm | fcsr => true
  | _ => false

def isVector : CsrAddress → Bool
  | vstart | vxsat | vxrm | vcsr | vl | vtype | vlenb => true
  | _ => false

end CsrAddress

inductive CsrModifyOperation
  | replace | setBits | clearBits
  deriving DecidableEq, Repr

/-- One guest access; the address is the raw field of the instruction. -/
structure CsrAccessRequest where
  address : BitVec 12
  privilege : PrivilegeMode
  read : Bool
  write : Bool
  operation : CsrModifyOperation
  operand : BitVec 64
  deriving DecidableEq, Repr

structure CsrAccessResult where
  success : Bool := false
  value : BitVec 64 := 0#64
  deriving DecidableEq, Repr

structure TrapReturnState where
  privilege : PrivilegeMode
  programCounter : BitVec 64
  deriving DecidableEq, Repr

structure PendingInterrupt where
  cause : InterruptCause
  target : PrivilegeMode
  deriving DecidableEq, Repr

/-- The CSR store; the initial values are those of `reset`. -/
structure CsrFile where
  mstatus : BitVec 64 := xlenFields
  fcsr : BitVec 8 := 0#8
  vstart : BitVec 64 := 0#64
  vxsat : BitVec 8 := 0#8
  vxrm : BitVec 8 := 0#8
  vl : BitVec 64 := 0#64
  vtype : BitVec 64 := vectorVtypeVill
  medeleg : BitVec 64 := 0#64
  mideleg : BitVec 64 := 0#64
  mie : BitVec 64 := 0#64
  mtvec : BitVec 64 := 0#64
  mscratch : BitVec 64 := 0#64
  mepc : BitVec 64 := 0#64
  mcause : BitVec 64 := 0#64
  mtval : BitVec 64 := 0#64
  mip : BitVec 64 := 0#64
  mcounteren : BitVec 64 := 0#64
  mcountinhibit : BitVec 64 := 0#64
  pmpcfg : Fin 8 → BitVec 64 := fun _ ↦ 0#64
  pmpaddr : Fin 64 → BitVec 64 := fun _ ↦ 0#64
  mhpmcounter : Fin 29 → BitVec 64 := fun _ ↦ 0#64
  mhpmevent : Fin 29 → BitVec 64 := fun _ ↦ 0#64
  stvec : BitVec 64 := 0#64
  sscratch : BitVec 64 := 0#64
  sepc : BitVec 64 := 0#64
  scause : BitVec 64 := 0#64
  stval : BitVec 64 := 0#64
  scounteren : BitVec 64 := 0#64
  satp : BitVec 64 := 0#64
  cycle : BitVec 64 := 0#64
  time : BitVec 64 := 0#64
  instret : BitVec 64 := 0#64

namespace CsrFile

/-! ## Extension state -/

def floatingStateEnabled (c : CsrFile) : Bool := ((c.mstatus >>> 13) &&& 3#64) != 0#64

def floatingRoundingMode (c : CsrFile) : BitVec 3 := ((c.fcsr >>> 5) &&& 7#8).setWidth 3

def floatingExceptionFlags (c : CsrFile) : BitVec 8 := c.fcsr &&& floatingExceptionMask

def markFloatingStateDirty (c : CsrFile) : CsrFile :=
  if !c.floatingStateEnabled then c
  else { c with mstatus := (c.mstatus &&& ~~~(3#64 <<< 13)) ||| (3#64 <<< 13) }

def accrueFloatingExceptionFlags (c : CsrFile) (flags : BitVec 8) : CsrFile :=
  let normalized := normalizeFloatingExceptionFlags flags
  if !c.floatingStateEnabled || normalized == 0#8 then c
  else ({ c with fcsr := c.fcsr ||| normalized } : CsrFile).markFloatingStateDirty

def vectorStateEnabled (c : CsrFile) : Bool := ((c.mstatus >>> 9) &&& 3#64) != 0#64

def markVectorStateDirty (c : CsrFile) : CsrFile :=
  if !c.vectorStateEnabled then c
  else { c with mstatus := (c.mstatus &&& ~~~(3#64 <<< 9)) ||| (3#64 <<< 9) }

def setVectorStartForTrap (c : CsrFile) (elementIndex : BitVec 64) : CsrFile :=
  ({ c with vstart := elementIndex &&& 0xFF#64 } : CsrFile).markVectorStateDirty

def clearVectorStartAfterInstruction (c : CsrFile) : CsrFile :=
  ({ c with vstart := 0#64 } : CsrFile).markVectorStateDirty

def commitVectorConfiguration (c : CsrFile) (vtype vl : BitVec 64) : CsrFile :=
  ({ c with vtype, vl, vstart := 0#64 } : CsrFile).markVectorStateDirty

/-! ## Guest access -/

/-- `mstatus` as it reads: fixed XLEN fields and the derived SD bit. -/
def mstatusView (c : CsrFile) : BitVec 64 :=
  let value := (c.mstatus &&& ~~~(bit 63)) ||| xlenFields
  let fs := (value >>> 13) &&& 3#64
  let vs := (value >>> 9) &&& 3#64
  if fs = 3#64 ∨ vs = 3#64 then value ||| bit 63 else value

def readValue (c : CsrFile) : CsrAddress → BitVec 64
  | .pmpcfg i => c.pmpcfg i
  | .pmpaddr i => c.pmpaddr i
  | .mhpmcounter i => c.mhpmcounter i
  | .mhpmevent i => c.mhpmevent i
  | .fflags => c.floatingExceptionFlags.setWidth 64
  | .frm => c.floatingRoundingMode.setWidth 64
  | .fcsr => c.fcsr.setWidth 64
  | .vstart => c.vstart
  | .vxsat => c.vxsat.setWidth 64
  | .vxrm => c.vxrm.setWidth 64
  | .vcsr => (c.vxrm.setWidth 64 <<< 1) ||| c.vxsat.setWidth 64
  | .sstatus => c.mstatusView &&& sstatusReadMask
  | .sie => c.mie &&& c.mideleg &&& supervisorInterruptMask
  | .stvec => c.stvec
  | .scounteren => c.scounteren
  | .sscratch => c.sscratch
  | .sepc => c.sepc
  | .scause => c.scause
  | .stval => c.stval
  | .sip => c.mip &&& c.mideleg &&& supervisorInterruptMask
  | .satp => c.satp
  | .cycle | .mcycle => c.cycle
  | .time => c.time
  | .instret | .minstret => c.instret
  | .vl => c.vl
  | .vtype => c.vtype
  | .vlenb => vectorRegisterBytes
  | .mstatus => c.mstatusView
  | .misa => misa
  | .medeleg => c.medeleg
  | .mideleg => c.mideleg
  | .mie => c.mie
  | .mtvec => c.mtvec
  | .mcounteren => c.mcounteren
  | .mcountinhibit => c.mcountinhibit
  | .mscratch => c.mscratch
  | .mepc => c.mepc
  | .mcause => c.mcause
  | .mtval => c.mtval
  | .mip => c.mip
  | .mtinst | .mtval2 | .mvendorid | .marchid | .mimpid | .mhartid => 0#64

/-- The trap vector as it is stored: only the modes 0 and 1 are kept. -/
def legalizeTvec (value : BitVec 64) : BitVec 64 :=
  (value &&& ~~~3#64) ||| (if value &&& 3#64 ≤ 1#64 then value &&& 3#64 else 0#64)

/-- `mstatus` as it is stored: the reserved MPP encoding becomes machine mode. -/
def legalizeMstatus (previous value : BitVec 64) : BitVec 64 :=
  let desired := (previous &&& ~~~mstatusWriteMask) ||| (value &&& mstatusWriteMask)
  let desired :=
    if (desired >>> 11) &&& 3#64 = 2#64 then (desired &&& ~~~(3#64 <<< 11)) ||| (3#64 <<< 11)
    else desired
  desired ||| xlenFields

def writeValue (c : CsrFile) (address : CsrAddress) (value : BitVec 64) : CsrFile :=
  match address with
  | .pmpcfg i => { c with pmpcfg := Function.update c.pmpcfg i value }
  | .pmpaddr i => { c with pmpaddr := Function.update c.pmpaddr i value }
  | .mhpmcounter i => { c with mhpmcounter := Function.update c.mhpmcounter i value }
  | .mhpmevent i => { c with mhpmevent := Function.update c.mhpmevent i value }
  | .fflags =>
    ({ c with fcsr := (c.fcsr &&& 0xE0#8) ||| (value.setWidth 8 &&& floatingExceptionMask) } :
      CsrFile).markFloatingStateDirty
  | .frm =>
    ({ c with fcsr := (c.fcsr &&& floatingExceptionMask) ||| ((value.setWidth 8 &&& 7#8) <<< 5) } :
      CsrFile).markFloatingStateDirty
  | .fcsr => ({ c with fcsr := value.setWidth 8 } : CsrFile).markFloatingStateDirty
  | .vstart => ({ c with vstart := value &&& 0xFF#64 } : CsrFile).markVectorStateDirty
  | .vxsat => ({ c with vxsat := value.setWidth 8 &&& 1#8 } : CsrFile).markVectorStateDirty
  | .vxrm => ({ c with vxrm := value.setWidth 8 &&& 3#8 } : CsrFile).markVectorStateDirty
  | .vcsr =>
    ({ c with vxsat := value.setWidth 8 &&& 1#8, vxrm := (value >>> 1).setWidth 8 &&& 3#8 } :
      CsrFile).markVectorStateDirty
  | .sstatus =>
    { c with mstatus := (c.mstatus &&& ~~~sstatusWriteMask) ||| (value &&& sstatusWriteMask) }
  | .sie =>
    let mask := c.mideleg &&& supervisorInterruptMask
    { c with mie := (c.mie &&& ~~~mask) ||| (value &&& mask) }
  | .stvec => { c with stvec := legalizeTvec value }
  | .scounteren => { c with scounteren := value &&& 7#64 }
  | .sscratch => { c with sscratch := value }
  | .sepc => { c with sepc := value &&& epcAlignmentMask }
  | .scause => { c with scause := value }
  | .stval => { c with stval := value }
  | .sip =>
    let mask := c.mideleg &&& softwareWritablePendingMask
    { c with mip := (c.mip &&& ~~~mask) ||| (value &&& mask) }
  | .satp =>
    let mode := value &&& satpModeMask
    if mode = 0#64 ∨ mode = satpSv39Mode then { c with satp := value } else c
  | .mstatus => { c with mstatus := legalizeMstatus c.mstatus value }
  | .medeleg => { c with medeleg := value &&& delegatableExceptionMask }
  | .mideleg => { c with mideleg := value &&& supervisorInterruptMask }
  | .mie => { c with mie := value &&& implementedInterruptMask }
  | .mtvec => { c with mtvec := legalizeTvec value }
  | .mcounteren =>
    { c with mcounteren := value &&& (implementedCounterenMask ||| implementedHpmCounterMask) }
  | .mcountinhibit => { c with mcountinhibit := value &&& implementedMcountinhibitMask }
  | .mscratch => { c with mscratch := value }
  | .mepc => { c with mepc := value &&& epcAlignmentMask }
  | .mcause => { c with mcause := value }
  | .mtval => { c with mtval := value }
  | .mip =>
    { c with
      mip := (c.mip &&& ~~~softwareWritablePendingMask) |||
      (value &&& softwareWritablePendingMask) }
  | .mcycle => { c with cycle := value }
  | .minstret => { c with instret := value }
  | .vl | .vtype | .vlenb | .cycle | .time | .instret | .misa | .mtinst | .mtval2 | .mvendorid
  | .marchid | .mimpid | .mhartid => c

/-- The counter that gates a user-level counter view. -/
def counterAllowed (c : CsrFile) (address : CsrAddress) (privilege : PrivilegeMode) : Bool :=
  match address with
  | .cycle | .time | .instret =>
    let counterMask := bit (address.raw &&& 0x1F#12).toNat
    match privilege with
    | .supervisor => (c.mcounteren &&& counterMask) != 0#64
    | .user => (c.mcounteren &&& counterMask) != 0#64 && (c.scounteren &&& counterMask) != 0#64
    | .machine => true
  | _ => true

def accessAllowed (c : CsrFile) (address : CsrAddress) (privilege : PrivilegeMode) (write : Bool) :
    Bool :=
  let required := ((address.raw >>> 8) &&& 3#12).toNat
  if address.isFloating && !c.floatingStateEnabled then false
  else if address.isVector && !c.vectorStateEnabled then false
  else if required = 2 ∨ privilege.rank < required then false
  else if write && (address.raw &&& 0xC00#12) == 0xC00#12 then false
  else if !c.counterAllowed address privilege then false
  -- TVM traps supervisor accesses to satp
  else if address == .satp && privilege == .supervisor && (c.mstatus &&& bit 20) != 0#64 then false
  else true

/-- The value a modifying access stores. -/
def modifiedValue (operation : CsrModifyOperation) (previous operand : BitVec 64) : BitVec 64 :=
  match operation with
  | .replace => operand
  | .setBits => previous ||| operand
  | .clearBits => previous &&& ~~~operand

def access (c : CsrFile) (request : CsrAccessRequest) : CsrAccessResult × CsrFile :=
  match CsrAddress.ofRaw request.address with
  | none => ({}, c)
  | some address =>
    if !c.accessAllowed address request.privilege request.write then ({}, c)
    else
      let operationNeedsOldValue := request.operation != .replace
      let previous :=
        if request.read || (request.write && operationNeedsOldValue) then c.readValue address
        else 0#64
      ({ success := true, value := if request.read then previous else 0#64 },
        if request.write then
          c.writeValue address (modifiedValue request.operation previous request.operand)
        else c)

/-! ## Counters and interrupts -/

def incrementCycle (c : CsrFile) : CsrFile :=
  if c.mcountinhibit &&& 1#64 = 0#64 then { c with cycle := c.cycle + 1#64 } else c

def incrementInstret (c : CsrFile) : CsrFile :=
  if c.mcountinhibit &&& 4#64 = 0#64 then { c with instret := c.instret + 1#64 } else c

def setInterruptPending (c : CsrFile) (cause : InterruptCause) (pending : Bool) : CsrFile :=
  let mask := bit cause.code &&& implementedInterruptMask
  { c with mip := if pending then c.mip ||| mask else c.mip &&& ~~~mask }

def hasLocallyEnabledInterrupt (c : CsrFile) : Bool :=
  (c.mip &&& c.mie &&& implementedInterruptMask) != 0#64

/-- Descending priority. -/
def interruptPriority : List InterruptCause :=
  [.machineExternal, .machineSoftware, .machineTimer, .supervisorExternal, .supervisorSoftware,
    .supervisorTimer]

/-- Is this interrupt pending, enabled and receivable now, and by which mode? -/
def receivable (c : CsrFile) (currentPrivilege : PrivilegeMode) (cause : InterruptCause) :
    Option PendingInterrupt :=
  let candidates := c.mip &&& c.mie &&& implementedInterruptMask
  let mask := bit cause.code
  if candidates &&& mask = 0#64 then none
  else if (c.mideleg &&& mask) != 0#64 then
    if currentPrivilege = .machine then none
    else if currentPrivilege == .user || (c.mstatus &&& bit 1) != 0#64 then
      some { cause, target := .supervisor }
    else none
  else if currentPrivilege != .machine || (c.mstatus &&& bit 3) != 0#64 then
    some { cause, target := .machine }
  else none

def selectPendingInterrupt (c : CsrFile) (currentPrivilege : PrivilegeMode) :
    Option PendingInterrupt :=
  interruptPriority.findSome? (c.receivable currentPrivilege)

/-! ## Trap entry and return -/

/-- Set or clear the bits of `mask`. -/
def assign (value mask : BitVec 64) (on : Bool) : BitVec 64 :=
  if on then value ||| mask else value &&& ~~~mask

def enterMachineTrap (c : CsrFile) (previousPrivilege : PrivilegeMode)
    (programCounter cause trapValue : BitVec 64) : CsrFile :=
  let mie := (c.mstatus &&& bit 3) != 0#64
  let mstatus := assign c.mstatus (bit 7) mie
  let mstatus := mstatus &&& ~~~(bit 3)
  let mstatus :=
    (mstatus &&& ~~~(3#64 <<< 11)) ||| (BitVec.ofNat 64 previousPrivilege.rank <<< 11)
  { c with
    mstatus, mepc := programCounter &&& epcAlignmentMask, mcause := cause, mtval := trapValue }

def enterSupervisorTrap (c : CsrFile) (previousPrivilege : PrivilegeMode)
    (programCounter cause trapValue : BitVec 64) : CsrFile :=
  let sie := (c.mstatus &&& bit 1) != 0#64
  let mstatus := assign c.mstatus (bit 5) sie
  let mstatus := mstatus &&& ~~~(bit 1)
  let mstatus := assign mstatus (bit 8) (previousPrivilege != .user)
  { c with
    mstatus, sepc := programCounter &&& epcAlignmentMask, scause := cause, stval := trapValue }

def returnFromMachine (c : CsrFile) : TrapReturnState × CsrFile :=
  let encoded := (c.mstatus >>> 11) &&& 3#64
  let target : PrivilegeMode :=
    if encoded = 0#64 then .user else if encoded = 1#64 then .supervisor else .machine
  let mpie := (c.mstatus &&& bit 7) != 0#64
  let mstatus := assign c.mstatus (bit 3) mpie
  let mstatus := mstatus ||| bit 7
  let mstatus := mstatus &&& ~~~(3#64 <<< 11)
  let mstatus := if target ≠ .machine then mstatus &&& ~~~(bit 17) else mstatus
  ({ privilege := target, programCounter := c.mepc }, { c with mstatus })

def returnFromSupervisor (c : CsrFile) : TrapReturnState × CsrFile :=
  let target : PrivilegeMode := if (c.mstatus &&& bit 8) != 0#64 then .supervisor else .user
  let spie := (c.mstatus &&& bit 5) != 0#64
  let mstatus := assign c.mstatus (bit 1) spie
  let mstatus := mstatus ||| bit 5
  let mstatus := mstatus &&& ~~~(bit 8)
  let mstatus := mstatus &&& ~~~(bit 17)
  ({ privilege := target, programCounter := c.sepc }, { c with mstatus })

def trapVector (c : CsrFile) (target : PrivilegeMode) (interrupt : Bool) (cause : BitVec 64) :
    BitVec 64 :=
  let vector := if target = .machine then c.mtvec else c.stvec
  let base := vector &&& ~~~3#64
  let mode := vector &&& 3#64
  if interrupt && mode == 1#64 then base + 4#64 * cause else base

def exceptionDelegated (c : CsrFile) (source : PrivilegeMode) (cause : ExceptionCause) : Bool :=
  if source = .machine then false else (c.medeleg &&& bit cause.code) != 0#64

def supervisorReturnAllowed (c : CsrFile) (current : PrivilegeMode) : Bool :=
  if current.rank < PrivilegeMode.supervisor.rank then false
  else current != .supervisor || (c.mstatus &&& bit 22) == 0#64

def waitForInterruptAllowed (c : CsrFile) (current : PrivilegeMode) : Bool :=
  if current = .user then false else current == .machine || (c.mstatus &&& bit 21) == 0#64

end CsrFile

end Rvemu
