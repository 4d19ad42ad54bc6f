import Rvemu.Bus.DeviceAccess
import Rvemu.Bus.Lemmas
import Rvemu.Lib.Dialogue

/-!
# Bus accesses of a device

A device reaches guest memory through the bus alone, so its code is a dialogue with the bus:
`Dma α`.  The bus answers by `Bus.dma`.  What a dialogue can do is bounded by its requests: the
memory map never changes (`memoryMap_run`), no byte of RAM changes that is not written
(`ramByte_run`), and a request in RAM is served by that RAM alone (`dma_of_inRam`).
-/

set_option autoImplicit false

namespace Rvemu

open Bytes

/-! ## The memory map -/

inductive RegionKind
  | ram | bootRom | clint | plic | uart | virtio
  deriving DecidableEq, Repr

def AddressRegion.kind : AddressRegion → RegionKind
  | ram _ => .ram
  | bootRom _ => .bootRom
  | clint _ => .clint
  | plic _ => .plic
  | uart _ => .uart
  | virtio _ => .virtio

/-- What no access can change about a region. -/
def AddressRegion.identity (r : AddressRegion) : RegionKind × AddressRange × String :=
  (r.kind, r.range, r.name)

namespace AddressRegion

theorem identity_read (r : AddressRegion) (o : BitVec 64) (w : AccessWidth) :
    (r.read o w).2.identity = r.identity := by
  cases r <;> rfl

theorem identity_write (r : AddressRegion) (o : BitVec 64) (w : AccessWidth) (v : BitVec 64) :
    (r.write o w v).2.identity = r.identity := by
  have hrange := r.range_write o w v
  cases r with
  | ram m =>
    refine Prod.ext rfl (Prod.ext hrange ?_)
    simp only [identity, write, name, PhysicalMemory.write]
    split <;> rfl
  | virtio t =>
    refine Prod.ext rfl (Prod.ext hrange ?_)
    exact congrArg (·.name) (t.config_write o w v)
  | _ => rfl

/-- Whether a region serves a read or a write is a matter of its identity. -/
theorem ok_of_identity {r r' : AddressRegion} (h : r'.identity = r.identity) (o : BitVec 64)
    (w : AccessWidth) (v v' : BitVec 64) :
    (r'.read o w).1.ok = (r.read o w).1.ok ∧ (r'.write o w v').1.ok = (r.write o w v).1.ok := by
  have hkind : r'.kind = r.kind := congrArg (·.1) h
  have hrange : r'.range = r.range := congrArg (·.2.1) h
  have hdevice (hr : r.isDevice = true) (hr' : r'.isDevice = true)
      (hv : r'.validates o w = r.validates o w) :
      (r'.read o w).1.ok = (r.read o w).1.ok ∧ (r'.write o w v').1.ok = (r.write o w v).1.ok := by
    rw [ok_read hr, ok_read hr', ok_write hr, ok_write hr', hv]
    exact ⟨rfl, rfl⟩
  cases r <;> cases r' <;> cases hkind
  case ram m m' =>
    replace hrange : m'.range = m.range := hrange
    have hvalid : (m'.validate o w).ok = (m.validate o w).ok := by
      rw [Bool.eq_iff_iff, PhysicalMemory.ok_validate_iff, PhysicalMemory.ok_validate_iff,
        m.size_eq,
        m'.size_eq, hrange]
    simp only [read, PhysicalMemory.read, write, PhysicalMemory.write, apply_ite Prod.fst,
      apply_ite AccessResult.ok, hvalid, AccessResult.ok_success]
    exact ⟨trivial, trivial⟩
  case bootRom m m' =>
    replace hrange : m'.range = m.range := hrange
    have hlen : m'.bytes.length = m.bytes.length := by rw [m.size_eq, m'.size_eq, hrange]
    have hvalid : (m'.validate o w).ok = (m.validate o w).ok := by
      simp only [BootRom.validate, apply_ite AccessResult.ok, hlen]
      rfl
    refine ⟨?_, rfl⟩
    simp only [read, BootRom.read, apply_ite AccessResult.ok, hvalid, AccessResult.ok_success]
  case clint => exact hdevice rfl rfl rfl
  case plic => exact hdevice rfl rfl rfl
  case uart => exact hdevice rfl rfl rfl
  case virtio t t' =>
    refine hdevice rfl rfl ?_
    simp only [validates, VirtioMmioTransport.validateRegisterAccess, apply_ite AccessResult.ok]
    rfl

end AddressRegion

namespace Bus

/-- Which regions there are, and where. -/
def memoryMap (b : Bus) : List (RegionKind × AddressRange × String) :=
  b.regions.map AddressRegion.identity

theorem memoryMap_onRegion {op : RegionOp} (hop : ∀ r o, (op.run r o).2.identity = r.identity)
    (b : Bus) (a : BitVec 64) (w : AccessWidth) :
    (b.onRegion a w op).2.memoryMap = b.memoryMap := by
  rcases onRegion_cases b a w op with ⟨e, -, he⟩ | ⟨i, o, r, -, hr, -, hregions, -, -⟩
  · rw [he]
  · rw [memoryMap, memoryMap, hregions, List.map_set, hop, ← List.map_set, set_of_getElem? hr]

@[simp] theorem memoryMap_read (b : Bus) (a : BitVec 64) (w : AccessWidth) (t : AccessType) :
    (b.read a w t).2.memoryMap = b.memoryMap :=
  memoryMap_onRegion (fun r o ↦ r.identity_read o w) b a w

@[simp] theorem memoryMap_write (b : Bus) (a : BitVec 64) (w : AccessWidth) (v : BitVec 64)
    (t : AccessType) : (b.write a w v t).2.memoryMap = b.memoryMap := by
  have h : (b.onRegion a w (writeOp w v)).2.memoryMap = b.memoryMap :=
    memoryMap_onRegion (fun r o ↦ r.identity_write o w v) b a w
  rw [write_eq]
  split
  · rw [← h]
    exact congrArg (List.map _) (regions_invalidateReservationLocked _ _ _)
  · exact h

/-- Accesses are located by the memory map alone. -/
theorem locate_of_memoryMap {b b' : Bus} (h : b'.memoryMap = b.memoryMap) (a : BitVec 64)
    (w : AccessWidth) : b'.locate a w = b.locate a w := by
  have hsame : b'.regions.map (fun r ↦ (r.range, r.name)) =
      b.regions.map fun r ↦ (r.range, r.name) := by
    simpa [memoryMap, AddressRegion.identity, Function.comp_def] using congrArg (List.map (·.2)) h
  rw [locate, locate, locateIn_congr a w hsame]

/-- The regions at one position of two buses with the same map are of one kind. -/
theorem identity_of_memoryMap {b b' : Bus} (h : b'.memoryMap = b.memoryMap) {i : ℕ}
    {r : AddressRegion} (hr : b.regions[i]? = some r) :
    ∃ r', b'.regions[i]? = some r' ∧ r'.identity = r.identity := by
  have hget := congrArg (·[i]?) h
  simpa [memoryMap, List.getElem?_map, hr] using hget

/-- Whether an access succeeds is settled by the memory map. -/
theorem ok_of_memoryMap {b b' : Bus} (h : b'.memoryMap = b.memoryMap) (a : BitVec 64)
    (w : AccessWidth) (v v' : BitVec 64) (t : AccessType) :
    (b'.read a w t).1.ok = (b.read a w t).1.ok ∧
      (b'.write a w v' t).1.ok = (b.write a w v t).1.ok := by
  have hlocate := locate_of_memoryMap h a w
  rw [write_result, write_result, read, read, onRegion, onRegion, onRegion, onRegion, hlocate]
  cases hl : b.locate a w with
  | error e => exact ⟨rfl, rfl⟩
  | ok p =>
    obtain ⟨i, o⟩ := p
    obtain ⟨r, hr, -⟩ := locate_ok hl
    obtain ⟨r', hr', hid⟩ := identity_of_memoryMap h hr
    rw [onLocated, onLocated, onLocated, onLocated, hr, hr']
    exact AddressRegion.ok_of_identity hid o w v v'

theorem inRam_of_memoryMap {b b' : Bus} (h : b'.memoryMap = b.memoryMap) {a n : ℕ}
    (hin : b.InRam a n) : b'.InRam a n := by
  obtain ⟨m, hm, h₁, h₂⟩ := hin
  obtain ⟨i, hi⟩ := List.mem_iff_getElem?.1 hm
  obtain ⟨r', hr', hid⟩ := identity_of_memoryMap h hi
  cases r' with
  | ram m' =>
    have hrange : m'.range = m.range := congrArg (·.2.1) hid
    exact ⟨m', List.mem_of_getElem? hr', by rw [hrange]; exact h₁, by rw [hrange]; exact h₂⟩
  | _ => cases congrArg (·.1) hid

theorem inRam_congr {b b' : Bus} (h : b'.memoryMap = b.memoryMap) {a n : ℕ} :
    b'.InRam a n ↔ b.InRam a n :=
  ⟨inRam_of_memoryMap h.symm, inRam_of_memoryMap h⟩

theorem InRam.sub {b : Bus} {a n : ℕ} (h : b.InRam a n) {a' n' : ℕ} (h₁ : a ≤ a')
    (h₂ : a' + n' ≤ a + n) : b.InRam a' n' := by
  obtain ⟨m, hm, g₁, g₂⟩ := h
  exact ⟨m, hm, by omega, by omega⟩

/-- Addresses of RAM do not wrap. -/
theorem InRam.lt {b : Bus} {a n : ℕ} (h : b.InRam a n) : a + n < 2 ^ 64 := by
  obtain ⟨m, -, -, g₂⟩ := h
  have := m.range.fits
  omega

/-! ## Accesses to RAM -/

/-- The word of RAM at an address. -/
def ramWord (b : Bus) (x : ℕ) (w : AccessWidth) : BitVec 64 :=
  composeBytes (fun i ↦ (b.ramByte (x + i)).getD 0#8) (widthInBytes w)

theorem ramWord_congr {b b' : Bus} {x : ℕ} {w : AccessWidth}
    (h : ∀ i, i < widthInBytes w → b'.ramByte (x + i) = b.ramByte (x + i)) :
    b'.ramWord x w = b.ramWord x w :=
  composeBytes_congr fun i hi ↦ by rw [h i hi]

/-- A read of RAM returns the word there and changes nothing. -/
theorem InRam.read_eq {b : Bus} {a : BitVec 64} {w : AccessWidth}
    (h : b.InRam a.toNat (widthInBytes w)) (t : AccessType) :
    b.read a w t = (.success (b.ramWord a.toNat w), b) := by
  obtain ⟨j, o, m, hl, hm, ha, hfit⟩ := h.locate
  have hvalue : (b.read a w t).1 = .success (m.readUnlocked o w) := by
    rw [read_eq_of_locate t hl hm]
    exact PhysicalMemory.read_eq hfit
  have hword : m.readUnlocked o w = b.ramWord a.toNat w := by
    refine composeBytes_congr fun i hi ↦ ?_
    have hsz := m.size_eq
    rw [ramByte_of_mem (List.mem_of_getElem? hm) (by omega) (by omega), Option.getD_some]
    congr 1
    omega
  refine Prod.ext (by rw [hvalue, hword]) ?_
  rcases onRegion_cases b a w (readOp w) with ⟨e, -, he⟩ | ⟨i, o', r, hl', hr, -, h₂, h₃, h₄⟩
  · exact (congrArg Prod.snd he :)
  · rw [hl, Except.ok.injEq, Prod.mk.injEq] at hl'
    obtain ⟨rfl, rfl⟩ := hl'
    rw [hm, Option.some.injEq] at hr
    subst hr
    exact ext_fields (h₂.trans (set_of_getElem? hm)) h₃ h₄

/-- The word just stored is there. -/
theorem Stored.ramWord_self {b b' : Bus} {a : BitVec 64} {w : AccessWidth} {v : BitVec 64}
    (h : Stored b b' a w v) :
    b'.ramWord a.toNat w = composeBytes (splitByte v) (widthInBytes w) := by
  refine composeBytes_congr fun i hi ↦ ?_
  rw [h.ramByte_eq, if_pos (by omega), Option.getD_some]
  congr 1
  omega

theorem Stored.ramWord_of_disjoint {b b' : Bus} {a : BitVec 64} {w : AccessWidth} {v : BitVec 64}
    (h : Stored b b' a w v) {x : ℕ} {w' : AccessWidth}
    (hd : x + widthInBytes w' ≤ a.toNat ∨ a.toNat + widthInBytes w ≤ x) :
    b'.ramWord x w' = b.ramWord x w' := by
  refine ramWord_congr fun i hi ↦ ?_
  rw [h.ramByte_eq, if_neg (by omega)]

end Bus

/-! ## Dialogues with the bus -/

inductive DmaRequest
  | read (address : BitVec 64) (width : AccessWidth)
  | write (address : BitVec 64) (width : AccessWidth) (value : BitVec 64)
  deriving DecidableEq, Repr

namespace DmaRequest

def address : DmaRequest → BitVec 64
  | read a _ => a
  | write a _ _ => a

def width : DmaRequest → AccessWidth
  | read _ w => w
  | write _ w _ => w

/-- The request covers the byte at this address. -/
def Covers (i : DmaRequest) (x : ℕ) : Prop :=
  i.address.toNat ≤ x ∧ x < i.address.toNat + widthInBytes i.width

def isWrite : DmaRequest → Bool
  | read _ _ => false
  | write _ _ _ => true

/-- All bytes of the request lie in RAM. -/
def InRam (b : Bus) (i : DmaRequest) : Prop := b.InRam i.address.toNat (widthInBytes i.width)

end DmaRequest

def Bus.dma (b : Bus) : DmaRequest → AccessResult × Bus
  | .read a w => b.read a w .dmaRead
  | .write a w v => b.write a w v .dmaWrite

/-- The code of a device, as far as it reaches guest memory. -/
abbrev Dma (α : Type) := Dialogue DmaRequest AccessResult α

namespace Dma

variable {α : Type}

def read (a : BitVec 64) (w : AccessWidth) : Dma AccessResult := Dialogue.ask (.read a w)

def write (a : BitVec 64) (w : AccessWidth) (v : BitVec 64) : Dma AccessResult :=
  Dialogue.ask (.write a w v)

@[simp] theorem run_read (a : BitVec 64) (w : AccessWidth) (b : Bus) :
    (read a w).run Bus.dma b = b.read a w .dmaRead := (rfl)

@[simp] theorem run_write (a : BitVec 64) (w : AccessWidth) (v : BitVec 64) (b : Bus) :
    (write a w v).run Bus.dma b = b.write a w v .dmaWrite := (rfl)

@[simp] theorem calls_read (a : BitVec 64) (w : AccessWidth) (b : Bus) :
    (read a w).calls Bus.dma b = [.read a w] := (rfl)

@[simp] theorem calls_write (a : BitVec 64) (w : AccessWidth) (v : BitVec 64) (b : Bus) :
    (write a w v).calls Bus.dma b = [.write a w v] := (rfl)

theorem memoryMap_dma (b : Bus) (i : DmaRequest) : (b.dma i).2.memoryMap = b.memoryMap := by
  cases i with
  | read a w => exact b.memoryMap_read a w .dmaRead
  | write a w v => exact b.memoryMap_write a w v .dmaWrite

theorem memoryMap_run (p : Dma α) (b : Bus) : (p.run Bus.dma b).2.memoryMap = b.memoryMap :=
  Dialogue.run_invariant (I := fun c ↦ c.memoryMap = b.memoryMap) (P := fun _ ↦ True)
    (fun c i hc _ ↦ (memoryMap_dma c i).trans hc) p rfl fun _ _ ↦ trivial

/-- No request changes a byte of RAM that it does not write. -/
theorem ramByte_dma (b : Bus) {i : DmaRequest} {x : ℕ} (hx : ¬ (i.isWrite = true ∧ i.Covers x)) :
    (b.dma i).2.ramByte x = b.ramByte x := by
  cases i with
  | read a w => exact b.ramByte_read a w .dmaRead x
  | write a w v => exact b.ramByte_write v .dmaWrite fun hc ↦ hx ⟨rfl, hc⟩

/-- A request in RAM is served, by that RAM alone. -/
theorem dma_of_inRam {b : Bus} {i : DmaRequest} (h : i.InRam b) :
    (b.dma i).1.ok = true ∧ (b.dma i).2.devices = b.devices := by
  cases i with
  | read a w =>
    replace h : b.InRam a.toNat (widthInBytes w) := h
    rw [Bus.dma, h.read_eq]
    exact ⟨rfl, rfl⟩
  | write a w v =>
    replace h : b.InRam a.toNat (widthInBytes w) := h
    obtain ⟨hok, hstored⟩ := h.write v .dmaWrite
    exact ⟨by rw [Bus.dma, hok]; rfl, hstored.devices_eq⟩

/-- A dialogue changes only bytes that it writes. -/
theorem ramByte_run (p : Dma α) (b : Bus) {x : ℕ}
    (hx : ∀ i ∈ p.calls Bus.dma b, i.isWrite = true → ¬ i.Covers x) :
    (p.run Bus.dma b).2.ramByte x = b.ramByte x :=
  Dialogue.run_invariant (I := fun c ↦ c.ramByte x = b.ramByte x)
    (fun c i hc (hi : i.isWrite = true → ¬ i.Covers x) ↦
      (ramByte_dma c fun hw ↦ hi hw.1 hw.2).trans hc) p rfl hx

end Dma

end Rvemu
