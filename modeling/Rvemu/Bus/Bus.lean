import Rvemu.Memory.PhysicalMemory
import Rvemu.Devices.Plic
import Rvemu.Devices.Uart
import Rvemu.Devices.VirtioMmio

/-!
# The physical bus

`AddressRegion` is the closed family of things that can sit on the bus, with the three accesses of
the region interface.  `Bus` keeps the regions sorted by base and owns the LR/SC monitor: a
reservation record that successful compare-exchanges and DMA writes to its granule erase, and that a
store-conditional consumes whatever its outcome.
-/

set_option autoImplicit false

namespace Rvemu

/-! ## Regions -/

inductive AddressRegion
  | ram (m : PhysicalMemory)
  | bootRom (r : BootRom)
  | clint (c : Clint)
  | plic (p : Plic)
  | uart (u : Uart16550)
  | virtio (t : VirtioMmioTransport)

namespace AddressRegion

def range : AddressRegion → AddressRange
  | ram m => m.range
  | bootRom r => r.range
  | clint _ => Clint.range
  | plic _ => Plic.range
  | uart _ => Uart16550.range
  | virtio t => t.config.range

def name : AddressRegion → String
  | ram m => m.name
  | bootRom r => r.name
  | clint _ => "clint"
  | plic _ => "plic"
  | uart _ => "uart16550"
  | virtio t => t.config.name

/-- A read may have side effects: a PLIC claim, a UART FIFO pop, the LSR overrun clear. -/
def read (r : AddressRegion) (offset : BitVec 64) (w : AccessWidth) :
    AccessResult × AddressRegion :=
  match r with
  | ram m => (m.read offset w, ram m)
  | bootRom m => (m.read offset w, bootRom m)
  | clint c => (c.read offset w, clint c)
  | plic p => ((p.read offset w).1, plic (p.read offset w).2)
  | uart u => ((u.read offset w).1, uart (u.read offset w).2)
  | virtio t => (t.read offset w, virtio t)

def write (r : AddressRegion) (offset : BitVec 64) (w : AccessWidth) (value : BitVec 64) :
    AccessResult × AddressRegion :=
  match r with
  | ram m => ((m.write offset w value).1, ram (m.write offset w value).2)
  | bootRom m => (m.write offset w, bootRom m)
  | clint c => ((c.write offset w value).1, clint (c.write offset w value).2)
  | plic p => ((p.write offset w value).1, plic (p.write offset w value).2)
  | uart u => ((u.write offset w value).1, uart (u.write offset w value).2)
  | virtio t => ((t.write offset w value).1, virtio (t.write offset w value).2)

def compareExchange (r : AddressRegion) (offset : BitVec 64) (w : AccessWidth)
    (expected desired : BitVec 64) : AccessResult × AddressRegion :=
  match r with
  | ram m => ((m.compareExchange offset w expected desired).1,
      ram (m.compareExchange offset w expected desired).2)
  | bootRom m => (m.compareExchange offset w, bootRom m)
  | clint c => (Clint.compareExchange offset w, clint c)
  | plic p => (Plic.compareExchange offset w, plic p)
  | uart u => (Uart16550.compareExchange offset w, uart u)
  | virtio t => (t.compareExchange offset w, virtio t)

/-! ### No access moves or renames a region -/

@[simp] theorem range_read (r : AddressRegion) (o : BitVec 64) (w : AccessWidth) :
    (r.read o w).2.range = r.range := by
  cases r <;> rfl

@[simp] theorem range_write (r : AddressRegion) (o : BitVec 64) (w : AccessWidth)
    (v : BitVec 64) : (r.write o w v).2.range = r.range := by
  cases r with
  | ram m => exact m.range_write o w v
  | virtio t => exact congrArg (·.range) (t.config_write o w v)
  | _ => rfl

@[simp] theorem range_compareExchange (r : AddressRegion) (o : BitVec 64) (w : AccessWidth)
    (e d : BitVec 64) : (r.compareExchange o w e d).2.range = r.range := by
  cases r with
  | ram m => exact m.range_compareExchange o w e d
  | _ => rfl

end AddressRegion

/-! ## The bus -/

structure ReservationRecord where
  token : ReservationToken := {}
  loadAddress : BitVec 64 := 0#64
  reservedBase : BitVec 64 := 0#64
  length : BitVec 64 := 0#64
  deriving DecidableEq, Repr

/-- Two regions that share no address. -/
def AddressRegion.Apart (r s : AddressRegion) : Prop := r.range.overlaps s.range = false

structure Bus where
  regions : List AddressRegion := []
  reservation : Option ReservationRecord := none
  nextReservationToken : BitVec 64 := 1#64
  apart : regions.Pairwise AddressRegion.Apart := by simp

def reservationGranuleBytes : BitVec 64 := 8#64

def reservationBase (address : BitVec 64) : BitVec 64 :=
  address &&& ~~~(reservationGranuleBytes - 1#64)

theorem AddressRegion.Apart.symm {r s : AddressRegion} (h : r.Apart s) : s.Apart r := by
  rw [AddressRegion.Apart, AddressRange.overlaps, Bool.and_comm] at h
  exact h

/-- Changing a region without moving it keeps the regions apart. -/
theorem pairwise_apart_modify {l : List AddressRegion} (h : l.Pairwise AddressRegion.Apart) (i : ℕ)
    {f : AddressRegion → AddressRegion} (hf : ∀ r, (f r).range = r.range) :
    (l.modify i f).Pairwise AddressRegion.Apart := by
  have hmap : ∀ k : List AddressRegion, k.Pairwise AddressRegion.Apart ↔
      (k.map (·.range)).Pairwise fun a b ↦ a.overlaps b = false := by
    intro k
    rw [List.pairwise_map]
    rfl
  have hsame : (l.modify i f).map (·.range) = l.map (·.range) := by
    apply List.ext_getElem?
    intro j
    rw [List.getElem?_map, List.getElem?_map, List.getElem?_modify]
    cases l[j]? with
    | none => rfl
    | some r => by_cases hij : i = j <;> simp [hij, hf]
  rw [hmap, hsame, ← hmap]
  exact h

namespace Bus

def registerRegion (b : Bus) (region : AddressRegion) : AccessResult × Bus :=
  match hfind : b.regions.find? fun registered ↦ region.range.overlaps registered.range with
  | some registered =>
    (.failure
      { code := .regionOverlap, address := region.range.base, length := region.range.size,
        region := region.name,
        detail := "物理地址区域与已注册区域 " ++ registered.name ++ " 重叠" }, b)
  | none =>
    (.success,
      { b with
        regions := (b.regions ++ [region]).mergeSort
          fun lhs rhs ↦ decide (lhs.range.base ≤ rhs.range.base)
        apart := by
          refine ((List.mergeSort_perm _ _).pairwise_iff fun h ↦ h.symm).2 ?_
          rw [List.pairwise_append]
          refine ⟨b.apart, List.pairwise_singleton _ _, fun r hr s hs ↦ ?_⟩
          rw [List.mem_singleton] at hs
          subst hs
          have hno : s.Apart r := by
            simpa [AddressRegion.Apart] using List.find?_eq_none.1 hfind r hr
          exact hno.symm })

/-- Find the region that holds all bytes of the access, by position in the region list, together
with the offset inside it. -/
def locateIn (address : BitVec 64) (w : AccessWidth) :
    List AddressRegion → ℕ → Except BusError (ℕ × BitVec 64)
  | [], _ =>
    .error
      { code := .unmapped, address, length := BitVec.ofNat 64 (widthInBytes w),
        detail := "物理地址没有映射到任何已注册区域" }
  | region :: rest, index =>
    if !region.range.contains address then locateIn address w rest (index + 1)
    else if !region.range.containsSpan address (BitVec.ofNat 64 (widthInBytes w)) then
      .error
        { code := .outOfBounds, address, length := BitVec.ofNat 64 (widthInBytes w),
          region := region.name, detail := "访问跨越物理区域末边界" }
    else .ok (index, region.range.offsetOf address)

/-- The last address from which an access of this width stays inside the address space. -/
def lastStart : AccessWidth → BitVec 64
  | .byte => BitVec.allOnes 64 - (BitVec.ofNat 64 (widthInBytes .byte) - 1#64)
  | .halfWord => BitVec.allOnes 64 - (BitVec.ofNat 64 (widthInBytes .halfWord) - 1#64)
  | .word => BitVec.allOnes 64 - (BitVec.ofNat 64 (widthInBytes .word) - 1#64)
  | .doubleWord => BitVec.allOnes 64 - (BitVec.ofNat 64 (widthInBytes .doubleWord) - 1#64)

def locate (b : Bus) (address : BitVec 64) (w : AccessWidth) : Except BusError (ℕ × BitVec 64) :=
  if address > lastStart w then
    .error
      { code := .addressOverflow, address, length := BitVec.ofNat 64 (widthInBytes w),
        detail := "物理访问末地址超出 64 位地址空间" }
  else locateIn address w b.regions 0

/-- An access to one region: the result and the region afterwards, over the same range. -/
structure RegionOp where
  run : AddressRegion → BitVec 64 → AccessResult × AddressRegion
  range_run : ∀ r o, (run r o).2.range = r.range

/-- Run one region operation at a located position; the failure of `locate` is the result when
there is none. -/
def onLocated (b : Bus) (op : RegionOp) : Except BusError (ℕ × BitVec 64) → AccessResult × Bus
  | .error e => (.failure e, b)
  | .ok (index, offset) =>
    (match b.regions[index]? with
      -- `locate` only returns positions of the list (`locate_ok`)
      | none => .failure { code := .invalidRegion }
      | some region => (op.run region offset).1,
      { b with
        regions := b.regions.modify index fun region ↦ (op.run region offset).2
        apart := pairwise_apart_modify b.apart index fun region ↦ op.range_run region offset })

def onRegion (b : Bus) (address : BitVec 64) (w : AccessWidth) (op : RegionOp) :
    AccessResult × Bus :=
  b.onLocated op (b.locate address w)

def readOp (w : AccessWidth) : RegionOp where
  run region offset := region.read offset w
  range_run r o := r.range_read o w

def writeOp (w : AccessWidth) (value : BitVec 64) : RegionOp where
  run region offset := region.write offset w value
  range_run r o := r.range_write o w value

def compareExchangeOp (w : AccessWidth) (expected desired : BitVec 64) : RegionOp where
  run region offset := region.compareExchange offset w expected desired
  range_run r o := r.range_compareExchange o w expected desired

def read (b : Bus) (address : BitVec 64) (w : AccessWidth) (_type : AccessType) :
    AccessResult × Bus :=
  b.onRegion address w (readOp w)

/-- Erase the reservation when a write of `length` bytes at `address` meets its granule. -/
def invalidateReservationLocked (b : Bus) (address length : BitVec 64) : Bus :=
  match b.reservation with
  | none => b
  | some record =>
    if length = 0#64 then b
    else
      let writeFirst := address
      let writeLast := writeFirst + length - 1#64
      let reservedFirst := record.reservedBase
      let reservedLast := reservedFirst + record.length - 1#64
      if writeFirst ≤ reservedLast && reservedFirst ≤ writeLast then
        { b with reservation := none }
      else b

def write (b : Bus) (address : BitVec 64) (w : AccessWidth) (value : BitVec 64)
    (type : AccessType) : AccessResult × Bus :=
  let result := b.onRegion address w (writeOp w value)
  if result.1.ok && type == .dmaWrite then
    (result.1, result.2.invalidateReservationLocked address (BitVec.ofNat 64 (widthInBytes w)))
  else result

def compareExchange (b : Bus) (address : BitVec 64) (w : AccessWidth)
    (expected desired : BitVec 64) (_type : AccessType := .atomic) : AccessResult × Bus :=
  let result := b.onRegion address w (compareExchangeOp w expected desired)
  if result.1.ok && result.1.exchanged then
    (result.1, result.2.invalidateReservationLocked address (BitVec.ofNat 64 (widthInBytes w)))
  else result

/-- The next token; the counter skips zero when it wraps. -/
def nextReservationTokenLocked (b : Bus) : ReservationToken × Bus :=
  let token : ReservationToken := ⟨b.nextReservationToken⟩
  let b := { b with nextReservationToken := b.nextReservationToken + 1#64 }
  if !token.valid then
    (⟨b.nextReservationToken⟩, { b with nextReservationToken := b.nextReservationToken + 1#64 })
  else (token, b)

def loadReserved (b : Bus) (address : BitVec 64) (w : AccessWidth) : LoadReservedResult × Bus :=
  let loaded := b.onRegion address w (readOp w)
  if !loaded.1.ok then ({ access := loaded.1, token := {} }, loaded.2)
  else
    let issued := loaded.2.nextReservationTokenLocked
    ({ access := loaded.1, token := issued.1 },
      { issued.2 with
        reservation := some
          { token := issued.1, loadAddress := address, reservedBase := reservationBase address,
            length := reservationGranuleBytes } })

/-- Does the record admit this store-conditional? -/
def reservationMatches (prior : Option ReservationRecord) (token : ReservationToken)
    (address : BitVec 64) (w : AccessWidth) : Bool :=
  match prior with
  | none => false
  | some record =>
    token.valid && record.token.value == token.value && record.loadAddress == address
      && reservationBase address == record.reservedBase
      && BitVec.ofNat 64 (widthInBytes w) ≤ record.length

/-- The rest of a store-conditional, after the reservation is consumed. -/
def storeLocated (b : Bus) (permitted : Bool) (address : BitVec 64) (w : AccessWidth)
    (value : BitVec 64) : Except BusError (ℕ × BitVec 64) → AccessResult × Bus
  | .error e => (.failure e, b)
  | .ok _ =>
    if !permitted then (.success 0#64 false, b)
    else
      let stored := b.onRegion address w (writeOp w value)
      if !stored.1.ok then stored else (.success 0#64 true, stored.2)

/-- The reservation is consumed first, so neither a back-end error nor a failed condition leaves it
usable. -/
def storeConditional (b : Bus) (token : ReservationToken) (address : BitVec 64) (w : AccessWidth)
    (value : BitVec 64) : AccessResult × Bus :=
  let priorReservation := b.reservation
  let b := { b with reservation := none }
  b.storeLocated (reservationMatches priorReservation token address w) address w value
    (b.locate address w)

end Bus

end Rvemu
