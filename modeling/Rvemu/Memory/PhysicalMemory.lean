import Rvemu.Bus.Access
import Rvemu.Lib.Bytes

/-!
# RAM and boot ROM

`PhysicalMemory` is the byte-addressed little-endian RAM of the machine; `BootRom` has the same
layout but refuses every write and compare-exchange at run time.  Both carry the fact that their
backing store is exactly as long as the address range they occupy, so an access the range admits is
an access the store can serve.
-/

set_option autoImplicit false

namespace Rvemu

open Bytes

/-! ## RAM -/

/-- A RAM region. -/
structure PhysicalMemory where
  name : String := "ram"
  range : AddressRange
  bytes : List (BitVec 8)
  size_eq : bytes.length = range.size.toNat

/-- The mask of the bits an access of this width carries. -/
def valueMask (w : AccessWidth) : BitVec 64 :=
  if widthInBytes w = 8 then BitVec.allOnes 64 else (1#64 <<< (widthInBytes w * 8)) - 1#64

namespace PhysicalMemory

/-- Zero-filled RAM over a range, as the constructor builds it. -/
def zeroed (range : AddressRange) (name : String := "ram") : PhysicalMemory where
  name
  range
  bytes := List.replicate range.size.toNat 0#8
  size_eq := List.length_replicate

def validate (m : PhysicalMemory) (offset : BitVec 64) (w : AccessWidth) : AccessResult :=
  let length := widthInBytes w
  let memorySize := m.bytes.length
  if offset.toNat > memorySize ∨ length > memorySize - offset.toNat then
    .failure
      { code := .outOfBounds, address := m.range.base, length := BitVec.ofNat 64 length,
        region := m.name, detail := "RAM 区域内偏移越界" }
  else .success

def readUnlocked (m : PhysicalMemory) (offset : BitVec 64) (w : AccessWidth) : BitVec 64 :=
  composeBytes (fun i ↦ m.bytes.getD (offset.toNat + i) 0#8) (widthInBytes w)

def writeUnlocked (m : PhysicalMemory) (offset : BitVec 64) (w : AccessWidth) (value : BitVec 64) :
    PhysicalMemory :=
  { m with
    bytes := storeBytes m.bytes offset.toNat value (widthInBytes w)
    size_eq := by rw [length_storeBytes, m.size_eq] }

def read (m : PhysicalMemory) (offset : BitVec 64) (w : AccessWidth) : AccessResult :=
  let validation := m.validate offset w
  if !validation.ok then validation else .success (m.readUnlocked offset w)

def write (m : PhysicalMemory) (offset : BitVec 64) (w : AccessWidth) (value : BitVec 64) :
    AccessResult × PhysicalMemory :=
  let validation := m.validate offset w
  if !validation.ok then (validation, m) else (.success, m.writeUnlocked offset w value)

def compareExchange (m : PhysicalMemory) (offset : BitVec 64) (w : AccessWidth)
    (expected desired : BitVec 64) : AccessResult × PhysicalMemory :=
  let validation := m.validate offset w
  if !validation.ok then (validation, m)
  else
    let observed := m.readUnlocked offset w
    if observed ≠ (expected &&& valueMask w) then (.success observed false, m)
    else (.success observed true, m.writeUnlocked offset w (desired &&& valueMask w))

/-! ### What the three operations do -/

theorem ok_validate_iff (m : PhysicalMemory) (offset : BitVec 64) (w : AccessWidth) :
    (m.validate offset w).ok = true ↔ offset.toNat + widthInBytes w ≤ m.bytes.length := by
  have := widthInBytes_pos w
  rw [validate]
  split
  · next h =>
    rw [AccessResult.ok_failure]
    simp only [show ((BusErrorCode.outOfBounds == BusErrorCode.none) = true) = False by decide,
      false_iff]
    omega
  · next h => simp only [AccessResult.ok_success, true_iff]; omega

@[simp] theorem range_writeUnlocked (m : PhysicalMemory) (o : BitVec 64) (w : AccessWidth)
    (v : BitVec 64) : (m.writeUnlocked o w v).range = m.range := rfl

@[simp] theorem name_writeUnlocked (m : PhysicalMemory) (o : BitVec 64) (w : AccessWidth)
    (v : BitVec 64) : (m.writeUnlocked o w v).name = m.name := rfl

@[simp] theorem length_bytes_writeUnlocked (m : PhysicalMemory) (o : BitVec 64) (w : AccessWidth)
    (v : BitVec 64) : (m.writeUnlocked o w v).bytes.length = m.bytes.length :=
  length_storeBytes _ _ _ _

theorem range_write (m : PhysicalMemory) (o : BitVec 64) (w : AccessWidth) (v : BitVec 64) :
    (m.write o w v).2.range = m.range := by
  simp only [write]; split <;> rfl

theorem range_compareExchange (m : PhysicalMemory) (o : BitVec 64) (w : AccessWidth)
    (e d : BitVec 64) : (m.compareExchange o w e d).2.range = m.range := by
  simp only [compareExchange]
  split
  · rfl
  · split <;> rfl

theorem read_eq {m : PhysicalMemory} {o : BitVec 64} {w : AccessWidth}
    (h : o.toNat + widthInBytes w ≤ m.bytes.length) :
    m.read o w = .success (m.readUnlocked o w) := by
  rw [read, (m.ok_validate_iff o w).2 h]
  rfl

/-- The compare-exchange of RAM, by whether the word read is the expected one. -/
theorem compareExchange_eq {m : PhysicalMemory} {o : BitVec 64} {w : AccessWidth}
    (e d : BitVec 64) (h : o.toNat + widthInBytes w ≤ m.bytes.length) :
    m.compareExchange o w e d =
      if m.readUnlocked o w = e &&& valueMask w then
        (.success (m.readUnlocked o w) true, m.writeUnlocked o w (d &&& valueMask w))
      else (.success (m.readUnlocked o w) false, m) := by
  rw [compareExchange, (m.ok_validate_iff o w).2 h]
  by_cases he : m.readUnlocked o w = e &&& valueMask w <;> simp [he]

/-- What is read fits the width. -/
theorem readUnlocked_and_valueMask (m : PhysicalMemory) (o : BitVec 64) (w : AccessWidth) :
    m.readUnlocked o w &&& valueMask w = m.readUnlocked o w := by
  have hmask : ∀ k < 64, (valueMask w).getLsbD k = decide (k < widthInBytes w * 8) := by
    cases w <;> decide
  apply BitVec.eq_of_getLsbD_eq
  intro k hk
  rw [BitVec.getLsbD_and, hmask k hk, readUnlocked, getLsbD_composeBytes _ _ _ (widthInBytes_le w),
    Bool.and_right_comm, Bool.and_self]

/-- A word that was just stored reads back. -/
theorem readUnlocked_writeUnlocked (m : PhysicalMemory) {o : BitVec 64} (w : AccessWidth)
    (v : BitVec 64) (h : o.toNat + widthInBytes w ≤ m.bytes.length) :
    (m.writeUnlocked o w v).readUnlocked o w = composeBytes (splitByte v) (widthInBytes w) :=
  composeBytes_storeBytes _ _ _ _ h

/-- A store is invisible to a read of other bytes. -/
theorem readUnlocked_writeUnlocked_of_disjoint (m : PhysicalMemory) {o o' : BitVec 64}
    (w w' : AccessWidth) (v : BitVec 64) (h : o.toNat + widthInBytes w ≤ m.bytes.length)
    (hd : o'.toNat + widthInBytes w' ≤ o.toNat ∨ o.toNat + widthInBytes w ≤ o'.toNat) :
    (m.writeUnlocked o w v).readUnlocked o' w' = m.readUnlocked o' w' :=
  composeBytes_storeBytes_of_disjoint _ _ _ _ _ _ h hd

end PhysicalMemory

/-! ## Boot ROM -/

/-- A boot ROM: loadable until sealed, read-only on the bus. -/
structure BootRom where
  name : String := "boot-rom"
  range : AddressRange
  bytes : List (BitVec 8)
  sealed : Bool := false
  size_eq : bytes.length = range.size.toNat

namespace BootRom

def readOnlyFailure (r : BootRom) (offset length : BitVec 64) (detail : String) : AccessResult :=
  let address := if offset ≤ r.range.size then r.range.base + offset else r.range.base
  .failure { code := .readOnly, address, length, region := r.name, detail }

def validate (r : BootRom) (offset : BitVec 64) (w : AccessWidth) : AccessResult :=
  let length := widthInBytes w
  let romSize := r.bytes.length
  if offset.toNat > romSize ∨ length > romSize - offset.toNat then
    .failure
      { code := .outOfBounds, address := r.range.base, length := BitVec.ofNat 64 length,
        region := r.name, detail := "Boot ROM 区域内偏移越界" }
  else .success

def read (r : BootRom) (offset : BitVec 64) (w : AccessWidth) : AccessResult :=
  let validation := r.validate offset w
  if !validation.ok then validation
  else .success (composeBytes (fun i ↦ r.bytes.getD (offset.toNat + i) 0#8) (widthInBytes w))

def write (r : BootRom) (offset : BitVec 64) (w : AccessWidth) : AccessResult :=
  r.readOnlyFailure offset (BitVec.ofNat 64 (widthInBytes w)) "运行期不允许写入 Boot ROM"

def compareExchange (r : BootRom) (offset : BitVec 64) (w : AccessWidth) : AccessResult :=
  r.readOnlyFailure offset (BitVec.ofNat 64 (widthInBytes w)) "Boot ROM 不支持原子写事务"

end BootRom

end Rvemu
