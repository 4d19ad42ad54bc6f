import Rvemu.Bus.Dma
import Rvemu.Lib.Bits

/-!
# Accesses across a page

The windows of the devices start on pages, and a device takes naturally aligned accesses only.  So
what the bus accepts across the end of a page is memory, RAM or boot ROM, where the bytes of an
access are those that single byte accesses find.
-/

set_option autoImplicit false

namespace Rvemu

open Bytes

/-- The bytes of the access are not all in one page of 4 KiB. -/
def CrossesPage (address : BitVec 64) (w : AccessWidth) : Prop :=
  2 ^ 12 < address.toNat % 2 ^ 12 + widthInBytes w

/-- The windows of the devices start on pages. -/
def Bus.DevicesOnPages (b : Bus) : Prop :=
  ∀ r ∈ b.regions, r.isDevice = true → r.range.base.toNat % 2 ^ 12 = 0

theorem widthInBytes_dvd (w : AccessWidth) : widthInBytes w ∣ 2 ^ 12 := by
  cases w <;> decide

theorem Bus.DevicesOnPages.of_devices {b b' : Bus} (h : b.DevicesOnPages)
    (hsame : b'.devices = b.devices) : b'.DevicesOnPages := by
  intro r hr hdevice
  have hof : Bus.deviceOf r = some r := by
    cases r with
    | ram m => cases hdevice
    | _ => rfl
  have hmem : some r ∈ b.devices := by
    rw [← hsame, Bus.devices, ← hof]
    exact List.mem_map_of_mem hr
  obtain ⟨r', hr', heq⟩ := List.mem_map.1 hmem
  have hr'' : r' = r := by
    cases r' with
    | ram m => cases heq
    | _ => exact Option.some.inj heq
  exact h r (hr'' ▸ hr') hdevice

theorem AddressRegion.isDevice_congr {r r' : AddressRegion} (h : r'.kind = r.kind) :
    r'.isDevice = r.isDevice := by
  cases r <;> cases r' <;> first | rfl | cases h

/-- No access moves a region or makes it another kind of region. -/
theorem Bus.DevicesOnPages.of_memoryMap {b b' : Bus} (h : b.DevicesOnPages)
    (hsame : b'.memoryMap = b.memoryMap) : b'.DevicesOnPages := by
  intro r hr hdevice
  have hmem : r.identity ∈ b.memoryMap := by
    rw [← hsame]
    exact List.mem_map_of_mem hr
  obtain ⟨r', hr', heq⟩ := List.mem_map.1 hmem
  obtain ⟨hkind, hrest⟩ := Prod.mk.inj heq
  rw [← (Prod.mk.inj hrest).1]
  exact h r' hr' ((AddressRegion.isDevice_congr hkind).trans hdevice)

theorem CrossesPage.congr {a a' : BitVec 64} {w : AccessWidth} (h : CrossesPage a w)
    (hmod : a'.toNat % 2 ^ 12 = a.toNat % 2 ^ 12) : CrossesPage a' w := by
  rw [CrossesPage, hmod]
  exact h

theorem not_crossesPage {address : BitVec 64} {w : AccessWidth}
    (h : address.toNat % widthInBytes w = 0) : ¬ CrossesPage address w := by
  rw [CrossesPage, Nat.not_lt]
  cases w <;> rw [widthInBytes] at h ⊢ <;> omega

namespace AddressRegion

variable {r : AddressRegion}

/-- Devices take naturally aligned accesses only. -/
theorem aligned_of_validates (hdevice : r.isDevice = true) {o : BitVec 64} {w : AccessWidth}
    (h : r.validates o w = true) : o.toNat % widthInBytes w = 0 := by
  have hfour : ∀ {o : BitVec 64}, o &&& 3#64 = 0#64 → o.toNat % 4 = 0 := by
    intro o ho
    have hmask := Bits.toNat_and_mask o (show 2 < 64 by decide)
    rw [show (1#64 <<< 2) - 1#64 = 3#64 by decide, ho] at hmask
    exact hmask.symm
  cases r with
  | ram m => cases hdevice
  | bootRom m => cases hdevice
  | clint c =>
    rw [validates, Clint.validateAccess] at h
    split at h
    · cases h
    · split at h
      · cases h
      · next haligned => exact not_not.1 haligned
  | plic p =>
    rw [validates, Bool.and_eq_true, beq_iff_eq, beq_iff_eq] at h
    rw [h.1]
    exact hfour h.2
  | uart u =>
    rw [validates, Uart16550.validateAccess] at h
    split at h
    · cases h
    · next hw =>
      rw [not_not.1 hw]
      exact Nat.mod_one _
  | virtio t =>
    rw [validates, VirtioMmioTransport.validateRegisterAccess] at h
    split at h
    · cases h
    · next hok =>
      rw [not_or, not_not, not_not] at hok
      rw [hok.1]
      exact hfour hok.2

/-- Memory answers with its bytes. -/
theorem read_memory (hmemory : r.isDevice = false) :
    ∃ bytes : List (BitVec 8), bytes.length = r.range.size.toNat ∧
      ∀ (o : BitVec 64) (w : AccessWidth), o.toNat + widthInBytes w ≤ bytes.length →
        r.read o w =
          (.success (composeBytes (fun i ↦ bytes.getD (o.toNat + i) 0#8) (widthInBytes w)), r) := by
  cases r with
  | ram m =>
    refine ⟨m.bytes, m.size_eq, fun o w hfit ↦ ?_⟩
    rw [read, PhysicalMemory.read_eq hfit]
    rfl
  | bootRom m =>
    refine ⟨m.bytes, m.size_eq, fun o w hfit ↦ ?_⟩
    have hvalid : m.validate o w = .success := by
      rw [BootRom.validate, if_neg (by have := widthInBytes_pos w; omega)]
    rw [read, BootRom.read, hvalid]
    rfl
  | clint c => cases hmemory
  | plic p => cases hmemory
  | uart u => cases hmemory
  | virtio t => cases hmemory

end AddressRegion

namespace Bus

/-- What a byte read finds at a physical address. -/
def byteAt (b : Bus) (address : BitVec 64) : Option (BitVec 8) :=
  if (b.read address .byte .load).1.ok then
    some ((b.read address .byte .load).1.value.setWidth 8)
  else none

section Crossing

variable {b : Bus} {a : BitVec 64} {w : AccessWidth}

/-- The region that takes an access across a page is memory. -/
theorem memory_of_crossesPage (hdevices : b.DevicesOnPages) (hcross : CrossesPage a w) {i : ℕ}
    {o : BitVec 64} {r : AddressRegion} (hl : b.locate a w = .ok (i, o))
    (hr : b.regions[i]? = some r) (hok : r.isDevice = true → r.validates o w = true) :
    r.isDevice = false := by
  by_contra hdevice
  rw [Bool.not_eq_false] at hdevice
  obtain ⟨r', hr', hbase, -, ho⟩ := locate_ok hl
  obtain rfl := Option.some.inj (hr.symm.trans hr')
  have haligned := AddressRegion.aligned_of_validates hdevice (hok hdevice)
  have hpage : r.range.base.toNat % widthInBytes w = 0 := by
    rw [← Nat.mod_mod_of_dvd _ (widthInBytes_dvd w), hdevices r (List.mem_of_getElem? hr) hdevice,
      Nat.zero_mod]
  refine not_crossesPage ?_ hcross
  rw [show a.toNat = r.range.base.toNat + o.toNat by omega, Nat.add_mod, hpage, haligned]
  exact Nat.zero_mod _

/-- **A read across a page** that succeeds changes nothing and returns the bytes of memory. -/
theorem read_of_crossesPage (hdevices : b.DevicesOnPages) (hcross : CrossesPage a w)
    {t : AccessType} (hok : (b.read a w t).1.ok = true) :
    (b.read a w t).2 = b ∧ ∀ i < widthInBytes w,
      b.byteAt (a + BitVec.ofNat 64 i) = some (splitByte (b.read a w t).1.value i) := by
  rcases onRegion_cases b a w (readOp w) with
    ⟨e, hl, -⟩ | ⟨j, o, r, hl, hr, hresult, hregions, hreservation, htoken⟩
  · rw [read_of_locate_error t hl, locate_error hl] at hok
    cases hok
  have hmemory : r.isDevice = false := by
    refine memory_of_crossesPage hdevices hcross hl hr fun hdevice ↦ ?_
    rw [← AddressRegion.ok_read hdevice]
    exact hresult ▸ hok
  obtain ⟨r', hr', hbase, htop, ho⟩ := locate_ok hl
  obtain rfl := Option.some.inj (hr.symm.trans hr')
  obtain ⟨bytes, hlength, hread⟩ := AddressRegion.read_memory hmemory
  have hwhole := hread o w (by omega)
  refine ⟨?_, fun i hi ↦ ?_⟩
  · have hsame : ((readOp w).run r o).2 = r := congrArg Prod.snd hwhole
    refine ext_fields ?_ hreservation htoken
    rw [read, hregions, hsame, set_of_getElem? hr]
  · have hfits := r.range.fits
    have hnext : (a + BitVec.ofNat 64 i).toNat = a.toNat + i := by
      rw [BitVec.toNat_add, BitVec.toNat_ofNat]
      omega
    obtain ⟨k, hk, hlocate⟩ := locate_of_mem (w := .byte) (List.mem_of_getElem? hr)
      (a := a + BitVec.ofNat 64 i) (by omega)
      (by rw [show widthInBytes .byte = 1 from rfl]; omega)
    have hoffset := r.range.toNat_offsetOf (a := a + BitVec.ofNat 64 i) (by omega)
    have hbyte := hread (r.range.offsetOf (a + BitVec.ofNat 64 i)) .byte
      (by rw [show widthInBytes .byte = 1 from rfl]; omega)
    rw [byteAt, read_eq_of_locate .load hlocate hk, hbyte, read_eq_of_locate t hl hr, hwhole,
      AccessResult.ok_success, if_pos rfl, AccessResult.value_success, AccessResult.value_success,
      splitByte_composeBytes _ (widthInBytes_le w) hi]
    rw [show widthInBytes .byte = 1 from rfl, composeBytes, composeBytes, hoffset]
    simp [hnext, ho, show a.toNat + i - r.range.base.toNat = a.toNat - r.range.base.toNat + i by
      omega]

/-- A write across a page that succeeds is a store to RAM. -/
theorem inRam_of_crossesPage (hdevices : b.DevicesOnPages) (hcross : CrossesPage a w)
    {v : BitVec 64} (hok : (b.onRegion a w (writeOp w v)).1.ok = true) :
    b.InRam a.toNat (widthInBytes w) := by
  rcases onRegion_cases b a w (writeOp w v) with ⟨e, hl, herror⟩ | ⟨j, o, r, hl, hr, hresult, -⟩
  · rw [herror, locate_error hl] at hok
    cases hok
  rw [hresult] at hok
  have hmemory : r.isDevice = false := by
    refine memory_of_crossesPage hdevices hcross hl hr fun hdevice ↦ ?_
    rw [← AddressRegion.ok_write hdevice o w v]
    exact hok
  obtain ⟨r', hr', hbase, htop, -⟩ := locate_ok hl
  obtain rfl := Option.some.inj (hr.symm.trans hr')
  cases r with
  | ram m => exact ⟨m, List.mem_of_getElem? hr, hbase, htop⟩
  | bootRom m => cases hok
  | clint c => cases hmemory
  | plic p => cases hmemory
  | uart u => cases hmemory
  | virtio t => cases hmemory

end Crossing

end Bus

end Rvemu
