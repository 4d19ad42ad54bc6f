import Rvemu.Devices.Clint

/-!
# The 16550A UART

Byte-wide registers multiplexed by DLAB, two sixteen-byte FIFOs and the line status register.
-/

set_option autoImplicit false

namespace Rvemu

/-- The registers and the FIFOs, as they are at reset. -/
structure Uart16550 where
  interruptSource : BitVec 32 := 10#32
  rxFifo : List (BitVec 8) := []
  txFifo : List (BitVec 8) := []
  ier : BitVec 8 := 0#8
  fcr : BitVec 8 := 0#8
  lcr : BitVec 8 := 0x03#8
  mcr : BitVec 8 := 0#8
  scr : BitVec 8 := 0#8
  dll : BitVec 8 := 0#8
  dlm : BitVec 8 := 0#8
  overrunError : Bool := false
  deriving DecidableEq, Repr

namespace Uart16550

/-- The window on the bus. -/
def range : AddressRange where
  base := AddressMap.uartBase
  size := AddressMap.uartSize
  size_pos := by decide
  fits := by decide

def fifoCapacity : ℕ := 16

def invalidAccess (offset : BitVec 64) (w : AccessWidth) (detail : String) : AccessResult :=
  .failure
    { code := .invalidWidth, address := AddressMap.uartBase + offset,
      length := BitVec.ofNat 64 (widthInBytes w), region := "uart16550", detail }

/-- Eight registers of a byte. -/
def validateAccess (offset : BitVec 64) (w : AccessWidth) : AccessResult :=
  if w ≠ .byte then invalidAccess offset w "UART 16550A 寄存器仅支持 8 位 MMIO 访问"
  else if offset > 7#64 then invalidAccess offset w "UART 未实现该寄存器偏移"
  else .success

/-- The divisor latch takes the place of the first two registers. -/
def dlabEnabled (u : Uart16550) : Bool := (u.lcr &&& 0x80#8) != 0#8

/-- The causes, as IIR names them. -/
inductive InterruptId
  | modemStatus | txHoldingEmpty | rxDataAvailable | receiverLineStatus | none
  deriving DecidableEq, Repr

def InterruptId.code : InterruptId → BitVec 8
  | .modemStatus => 0x00#8
  | .txHoldingEmpty => 0x02#8
  | .rxDataAvailable => 0x04#8
  | .receiverLineStatus => 0x06#8
  | .none => 0x01#8

/-- The causes in their priority. -/
def currentInterruptLocked (u : Uart16550) : InterruptId :=
  if (u.ier &&& 4#8) != 0#8 && u.overrunError then .receiverLineStatus
  else if (u.ier &&& 1#8) != 0#8 && !u.rxFifo.isEmpty then .rxDataAvailable
  else if (u.ier &&& 2#8) != 0#8 && u.txFifo.isEmpty then .txHoldingEmpty
  else .none

/-- The line status byte: THRE and TEMT always read as set. -/
def lineStatus (u : Uart16550) : BitVec 8 :=
  (if !u.rxFifo.isEmpty then 1#8 else 0#8) ||| (if u.overrunError then 2#8 else 0#8) ||| 0x20#8
    ||| 0x40#8

/-- A read of RBR takes a byte, and a read of LSR clears the overrun. -/
def read (u : Uart16550) (offset : BitVec 64) (w : AccessWidth) : AccessResult × Uart16550 :=
  let validation := validateAccess offset w
  if !validation.ok then (validation, u)
  else if offset = 0#64 then
    if u.dlabEnabled then (.success (u.dll.setWidth 64), u)
    else match u.rxFifo with
      | [] => (.success 0#64, u)
      | byte :: rest => (.success (byte.setWidth 64), { u with rxFifo := rest })
  else if offset = 1#64 then
    (.success ((if u.dlabEnabled then u.dlm else u.ier).setWidth 64), u)
  else if offset = 2#64 then
    (.success ((0xC0#8 ||| u.currentInterruptLocked.code).setWidth 64), u)
  else if offset = 3#64 then (.success (u.lcr.setWidth 64), u)
  else if offset = 4#64 then (.success (u.mcr.setWidth 64), u)
  else if offset = 5#64 then
    (.success (u.lineStatus.setWidth 64), { u with overrunError := false })
  else if offset = 6#64 then (.success 0#64, u)
  else if offset = 7#64 then (.success (u.scr.setWidth 64), u)
  else (.success, u)

/-- FCR: the clear bits act at once, and a zero enable bit wipes the stored value. -/
def writeFcr (u : Uart16550) (byte : BitVec 8) : Uart16550 :=
  let u := { u with fcr := byte &&& 0xC9#8 }
  let u := if (byte &&& 2#8) != 0#8 then { u with rxFifo := [], overrunError := false } else u
  let u := if (byte &&& 4#8) != 0#8 then { u with txFifo := [] } else u
  if (byte &&& 1#8) == 0#8 then { u with fcr := 0#8 } else u

/-- A byte for a full FIFO is dropped without an error. -/
def write (u : Uart16550) (offset : BitVec 64) (w : AccessWidth) (value : BitVec 64) :
    AccessResult × Uart16550 :=
  let validation := validateAccess offset w
  if !validation.ok then (validation, u)
  else
    let byte := value.setWidth 8
    if offset = 0#64 then
      if u.dlabEnabled then (.success, { u with dll := byte })
      else if u.txFifo.length < fifoCapacity then
        (.success, { u with txFifo := u.txFifo ++ [byte] })
      else (.success, u)
    else if offset = 1#64 then
      if u.dlabEnabled then (.success, { u with dlm := byte })
      else (.success, { u with ier := byte &&& 0x0F#8 })
    else if offset = 2#64 then (.success, u.writeFcr byte)
    else if offset = 3#64 then (.success, { u with lcr := byte })
    else if offset = 4#64 then (.success, { u with mcr := byte &&& 0x1F#8 })
    else if offset = 5#64 ∨ offset = 6#64 then (.success, u)
    else if offset = 7#64 then (.success, { u with scr := byte })
    else (.success, u)

/-- The registers are not atomic. -/
def compareExchange (offset : BitVec 64) (w : AccessWidth) : AccessResult :=
  invalidAccess offset w "UART 不支持原子 MMIO 访问"

end Uart16550

end Rvemu
