import Rvemu.Bus.Access

/-!
# The core-local interruptor

The register window of the CLINT: `msip`, and the two 64-bit timer registers that accept aligned
32-bit halves as well as whole doublewords.  Every access is validated before any register changes.
-/

set_option autoImplicit false

namespace Rvemu

namespace AddressMap

def clintBase : BitVec 64 := 0x02000000#64
def clintSize : BitVec 64 := 0x0000C000#64
def plicBase : BitVec 64 := 0x0C000000#64
def plicSize : BitVec 64 := 0x04000000#64
def uartBase : BitVec 64 := 0x10000000#64
def uartSize : BitVec 64 := 0x00000100#64

end AddressMap

/-- The registers, as they are at reset. -/
structure Clint where
  mtime : BitVec 64 := 0#64
  mtimecmp : BitVec 64 := BitVec.allOnes 64
  msip : Bool := false
  deriving DecidableEq, Repr

namespace Clint

/-- The window on the bus. -/
def range : AddressRange where
  base := AddressMap.clintBase
  size := AddressMap.clintSize
  size_pos := by decide
  fits := by decide

def msipOffset : BitVec 64 := 0x0000#64
def mtimecmpOffset : BitVec 64 := 0x4000#64
def mtimeOffset : BitVec 64 := 0xBFF8#64

/-- A refused access, with its address on the bus. -/
def invalidAccess (offset : BitVec 64) (w : AccessWidth) (detail : String) : AccessResult :=
  .failure
    { code := .invalidWidth, address := AddressMap.clintBase + offset,
      length := BitVec.ofNat 64 (widthInBytes w), region := "clint", detail }

/-- Does the access cover exactly one half, or all, of the timer register at `registerOffset`? -/
def isTimerRegisterAccess (offset : BitVec 64) (w : AccessWidth) (registerOffset : BitVec 64) :
    Bool :=
  match w with
  | .doubleWord => offset == registerOffset
  | .word => offset == registerOffset || offset == registerOffset + 4#64
  | _ => false

/-- Width, alignment and register are checked, in this order. -/
def validateAccess (offset : BitVec 64) (w : AccessWidth) : AccessResult :=
  if w ≠ .word ∧ w ≠ .doubleWord then
    invalidAccess offset w "CLINT 仅支持自然对齐的 32 位或 64 位寄存器访问"
  else if offset.toNat % widthInBytes w ≠ 0 then
    invalidAccess offset w "CLINT 寄存器访问未按访问宽度自然对齐"
  else if offset = msipOffset ∧ w = .word then .success
  else if isTimerRegisterAccess offset w mtimecmpOffset
      || isTimerRegisterAccess offset w mtimeOffset then .success
  else invalidAccess offset w "CLINT 未实现该寄存器或访问跨越寄存器边界"

/-- A half write keeps the other half. -/
def writeTimerRegister (destination offset registerOffset : BitVec 64) (w : AccessWidth)
    (value : BitVec 64) : BitVec 64 :=
  if w = .doubleWord then value
  else
    let half := value &&& 0xFFFFFFFF#64
    if offset = registerOffset then (destination &&& 0xFFFFFFFF00000000#64) ||| half
    else (destination &&& 0x00000000FFFFFFFF#64) ||| (half <<< 32)

def readTimerRegister (source offset registerOffset : BitVec 64) (w : AccessWidth) : BitVec 64 :=
  if w = .doubleWord then source
  else if offset = registerOffset then source &&& 0xFFFFFFFF#64
  else source >>> 32

/-- Reads have no side effects. -/
def read (c : Clint) (offset : BitVec 64) (w : AccessWidth) : AccessResult :=
  let validation := validateAccess offset w
  if !validation.ok then validation
  else if offset = msipOffset then .success (if c.msip then 1#64 else 0#64)
  else if isTimerRegisterAccess offset w mtimecmpOffset then
    .success (readTimerRegister c.mtimecmp offset mtimecmpOffset w)
  else .success (readTimerRegister c.mtime offset mtimeOffset w)

/-- Only bit 0 of `msip` exists. -/
def write (c : Clint) (offset : BitVec 64) (w : AccessWidth) (value : BitVec 64) :
    AccessResult × Clint :=
  let validation := validateAccess offset w
  if !validation.ok then (validation, c)
  else if offset = msipOffset then (.success, { c with msip := (value &&& 1#64) != 0#64 })
  else if isTimerRegisterAccess offset w mtimecmpOffset then
    (.success,
      { c with mtimecmp := writeTimerRegister c.mtimecmp offset mtimecmpOffset w value })
  else (.success, { c with mtime := writeTimerRegister c.mtime offset mtimeOffset w value })

/-- The registers are not atomic. -/
def compareExchange (offset : BitVec 64) (w : AccessWidth) : AccessResult :=
  invalidAccess offset w "CLINT 不支持原子 MMIO 访问"

/-- Advance the deterministic clock. -/
def advance (c : Clint) (ticks : BitVec 64) : Clint := { c with mtime := c.mtime + ticks }

end Clint

end Rvemu
