import Mathlib.Data.List.Nodup
import Rvemu.Devices.VirtioBlock

/-!
# Data integrity of block requests

What a request may do to the data is stated with two reference transfers, `readAll` and `writeAll`,
that visit the bytes of all data segments in order and do nothing else.  A request that ends with
the status OK must have been one of them, against the right bytes of the disk; a request that ends
with another status must have left the disk alone; and the buffer must never be sliced past its end.

The code meets this except for chains of exactly three segments: when the only data segment stops
the loop that assembles the buffer, the request goes on with an empty buffer.
-/

set_option autoImplicit false

namespace Rvemu

/-! ## Reference transfers -/

/-- The addresses of `n` bytes from `index` on. -/
def byteAddresses (address : BitVec 64) (index n : ℕ) : List (BitVec 64) :=
  (List.range' index n).map fun i ↦ address + BitVec.ofNat 64 i

def VirtqueueSegment.addresses (s : VirtqueueSegment) : List (BitVec 64) :=
  byteAddresses s.address 0 s.length.toNat

/-- No byte belongs to both segments. -/
def VirtqueueSegment.Apart (s t : VirtqueueSegment) : Prop := s.addresses.Disjoint t.addresses

-- The list is what is finite here, not the type of its elements.
instance : DecidableRel VirtqueueSegment.Apart := fun s t ↦
  List.decidableBAll (fun a ↦ a ∉ t.addresses) s.addresses

def chainAddresses (segments : List VirtqueueSegment) : List (BitVec 64) :=
  segments.flatMap (·.addresses)

def AccessResult.byte (r : AccessResult) : BitVec 8 := r.value.setWidth 8

/-- Read these bytes, whatever the answers. -/
def readAll : List (BitVec 64) → Dma (List AccessResult)
  | [] => pure []
  | a :: rest => do
    let first ← Dma.read a .byte
    let others ← readAll rest
    pure (first :: others)

/-- Write these bytes, whatever the answers. -/
def writeAll : List (BitVec 64 × BitVec 8) → Dma (List AccessResult)
  | [] => pure []
  | a :: rest => do
    let first ← Dma.write a.1 .byte (a.2.setWidth 64)
    let others ← writeAll rest
    pure (first :: others)

def allOk (results : List AccessResult) : Bool := results.all (·.ok)

@[simp] theorem allOk_cons (r : AccessResult) (rs : List AccessResult) :
    allOk (r :: rs) = (r.ok && allOk rs) := (rfl)

@[simp] theorem allOk_append (rs ts : List AccessResult) :
    allOk (rs ++ ts) = (allOk rs && allOk ts) := by
  simp [allOk]

theorem run_readAll_append (xs ys : List (BitVec 64)) (b : Bus) :
    (readAll (xs ++ ys)).run Bus.dma b =
      (((readAll xs).run Bus.dma b).1 ++
          ((readAll ys).run Bus.dma ((readAll xs).run Bus.dma b).2).1,
        ((readAll ys).run Bus.dma ((readAll xs).run Bus.dma b).2).2) := by
  induction xs generalizing b with
  | nil => rfl
  | cons x xs ih => simp [readAll, ih]

theorem run_writeAll_append (xs ys : List (BitVec 64 × BitVec 8)) (b : Bus) :
    (writeAll (xs ++ ys)).run Bus.dma b =
      (((writeAll xs).run Bus.dma b).1 ++
          ((writeAll ys).run Bus.dma ((writeAll xs).run Bus.dma b).2).1,
        ((writeAll ys).run Bus.dma ((writeAll xs).run Bus.dma b).2).2) := by
  induction xs generalizing b with
  | nil => rfl
  | cons x xs ih => simp [writeAll, ih]

theorem length_run_readAll (xs : List (BitVec 64)) (b : Bus) :
    ((readAll xs).run Bus.dma b).1.length = xs.length := by
  induction xs generalizing b with
  | nil => rfl
  | cons x xs ih => simp [readAll, ih]

/-- Whether the bytes can be read is settled before the transfer. -/
theorem allOk_readAll (xs : List (BitVec 64)) {b c : Bus} (h : c.memoryMap = b.memoryMap) :
    allOk ((readAll xs).run Bus.dma c).1 = xs.all fun a ↦ (b.read a .byte .dmaRead).1.ok := by
  induction xs generalizing c with
  | nil => rfl
  | cons x xs ih =>
    have hx := (Bus.ok_of_memoryMap h x .byte 0#64 0#64 .dmaRead).1
    have hrest := ih ((c.memoryMap_read x .byte .dmaRead).trans h)
    simp only [readAll, Dialogue.run_bind, Dma.run_read, Dialogue.run_pure, allOk_cons,
      List.all_cons, hx,
      hrest]

/-! ## The loops of the code are these transfers -/

namespace VirtioBlockDevice

theorem run_copyFromGuestFrom (address : BitVec 64) (n index : ℕ) (output : List (BitVec 8))
    (b : Bus) :
    let all := (readAll (byteAddresses address index n)).run Bus.dma b
    (allOk all.1 = true → (copyFromGuestFrom address n index output).run Bus.dma b =
      (some (output ++ all.1.map (·.byte)), all.2)) ∧
    (allOk all.1 = false → ((copyFromGuestFrom address n index output).run Bus.dma b).1 =
      none) := by
  induction n generalizing index output b with
  | zero =>
    refine ⟨fun _ ↦ ?_, fun h ↦ by cases h⟩
    simp [copyFromGuestFrom, byteAddresses, readAll]
  | succ n ih =>
    obtain ⟨hok, hfail⟩ := ih (index + 1)
      (output ++ [(b.read (address + BitVec.ofNat 64 index) .byte .dmaRead).1.byte])
      (b.read (address + BitVec.ofNat 64 index) .byte .dmaRead).2
    have hcons : byteAddresses address index (n + 1) =
        (address + BitVec.ofNat 64 index) :: byteAddresses address (index + 1) n := by
      simp [byteAddresses, List.range'_succ]
    rw [hcons, readAll]
    simp only [copyFromGuestFrom, Dialogue.run_bind, Dialogue.run_ite, Dma.run_read,
      Dialogue.run_pure, allOk_cons, List.map_cons]
    cases (b.read (address + BitVec.ofNat 64 index) .byte .dmaRead).1.ok with
    | false => simp
    | true =>
      refine ⟨fun h ↦ ?_, fun h ↦ ?_⟩
      · rw [if_neg (by simp)]
        refine (hok (by simpa using h)).trans ?_
        simp
      · rw [if_neg (by simp)]
        exact hfail (by simpa using h)

theorem run_copyToGuestFrom (address : BitVec 64) (input : List (BitVec 8)) (index : ℕ) (b : Bus) :
    let all := (writeAll ((byteAddresses address index input.length).zip input)).run Bus.dma b
    (allOk all.1 = true → (copyToGuestFrom address index input).run Bus.dma b = (true, all.2)) ∧
    (allOk all.1 = false → ((copyToGuestFrom address index input).run Bus.dma b).1 = false) := by
  induction input generalizing index b with
  | nil =>
    refine ⟨fun _ ↦ ?_, fun h ↦ by cases h⟩
    simp [copyToGuestFrom, byteAddresses, writeAll]
  | cons byte input ih =>
    obtain ⟨hok, hfail⟩ := ih (index + 1)
      (b.write (address + BitVec.ofNat 64 index) .byte (byte.setWidth 64) .dmaWrite).2
    have hcons : (byteAddresses address index (byte :: input).length).zip (byte :: input) =
        (address + BitVec.ofNat 64 index, byte) ::
          (byteAddresses address (index + 1) input.length).zip input := by
      simp [byteAddresses, List.range'_succ]
    rw [hcons, writeAll]
    simp only [copyToGuestFrom, Dialogue.run_bind, Dialogue.run_ite, Dma.run_write,
      Dialogue.run_pure, allOk_cons]
    cases (b.write (address + BitVec.ofNat 64 index) .byte (byte.setWidth 64) .dmaWrite).1.ok with
    | false => simp
    | true =>
      refine ⟨fun h ↦ ?_, fun h ↦ ?_⟩
      · rw [if_neg (by simp)]
        exact hok (by simpa using h)
      · rw [if_neg (by simp)]
        exact hfail (by simpa using h)

/-- Assembling the buffer of a write reads all data segments, or ends empty. -/
theorem run_gather_out (segments : List VirtqueueSegment) (data : List (BitVec 8)) (b : Bus) :
    let all := (readAll (chainAddresses segments)).run Bus.dma b
    (segments.all (!·.deviceWrites) = true ∧ allOk all.1 = true →
      (gather requestOut segments data).run Bus.dma b = (data ++ all.1.map (·.byte), all.2)) ∧
    (¬ (segments.all (!·.deviceWrites) = true ∧ allOk all.1 = true) →
      ((gather requestOut segments data).run Bus.dma b).1 = []) := by
  induction segments generalizing data b with
  | nil =>
    refine ⟨fun _ ↦ ?_, fun h ↦ absurd ⟨rfl, rfl⟩ h⟩
    simp [gather, chainAddresses, readAll]
  | cons segment rest ih =>
    have hflat : chainAddresses (segment :: rest) =
        byteAddresses segment.address 0 segment.length.toNat ++ chainAddresses rest := rfl
    rw [hflat, run_readAll_append, gather]
    cases hdir : segment.deviceWrites with
    | true => simp [hdir, requestIn, requestOut]
    | false =>
      obtain ⟨hok, hfail⟩ := run_copyFromGuestFrom segment.address segment.length.toNat 0 [] b
      set first := (readAll (byteAddresses segment.address 0 segment.length.toNat)).run Bus.dma b
      have hcopy : copyFromGuest segment =
          copyFromGuestFrom segment.address segment.length.toNat 0 [] := by
        rw [copyFromGuest, hdir, if_neg Bool.false_ne_true]
      rw [if_neg (by simp [requestIn, requestOut]), if_pos (by simp), Dialogue.run_bind, hcopy]
      simp only [List.all_cons, hdir, Bool.not_false, Bool.true_and, allOk_append, Bool.and_eq_true,
        List.map_append]
      cases hfirst : allOk first.1 with
      | false =>
        have hnone := hfail hfirst
        refine ⟨fun h ↦ by simp at h, fun _ ↦ ?_⟩
        generalize (copyFromGuestFrom _ _ _ _).run Bus.dma b = copied at hnone
        obtain ⟨value, b'⟩ := copied
        subst hnone
        rfl
      | true =>
        rw [hok hfirst, List.nil_append]
        obtain ⟨ihok, ihfail⟩ := ih (data ++ first.1.map (·.byte)) first.2
        refine ⟨fun h ↦ ?_, fun h ↦ ?_⟩
        · refine (ihok ⟨h.1, h.2.2⟩).trans ?_
          rw [List.append_assoc]
        · exact ihfail fun h' ↦ h ⟨h'.1, rfl, h'.2⟩

/-- Assembling the buffer of a read only adds up lengths. -/
theorem run_gather_in (segments : List VirtqueueSegment) (data : List (BitVec 8)) (b : Bus) :
    (gather requestIn segments data).run Bus.dma b =
      (if segments.all (·.deviceWrites) then data ++
        List.replicate (totalBytes segments) 0#8 else [],
        b) := by
  induction segments generalizing data with
  | nil => simp [gather, totalBytes]
  | cons segment rest ih =>
    rw [gather]
    cases hdir : segment.deviceWrites with
    | false => simp [hdir]
    | true =>
      rw [if_neg (by simp [requestIn, requestOut]), if_neg (by simp [requestIn, requestOut]), ih]
      have hsum : totalBytes (segment :: rest) = segment.length.toNat + totalBytes rest := by
        simp [totalBytes]
      rw [hsum, ← List.replicate_append_replicate, List.all_cons, hdir, Bool.true_and,
        List.append_assoc]

theorem slice_eq {data : List (BitVec 8)} {offset length : ℕ} (h : offset + length ≤ data.length) :
    slice data offset length = some ((data.drop offset).take length) := if_pos h

/-- Handing the buffer out writes it to all data segments in order, and stops at a failure. -/
theorem run_scatter (data : List (BitVec 8)) (segments : List VirtqueueSegment) (offset : ℕ)
    (b : Bus) (hdir : segments.all (·.deviceWrites) = true)
    (hlen : offset + totalBytes segments = data.length) :
    let all := (writeAll ((chainAddresses segments).zip (data.drop offset))).run Bus.dma b
    (allOk all.1 = true → (scatter data segments offset).run Bus.dma b =
      (some statusOk, all.2)) ∧
    (allOk all.1 = false →
      ((scatter data segments offset).run Bus.dma b).1 = some statusIoError) := by
  induction segments generalizing offset b with
  | nil =>
    refine ⟨fun _ ↦ ?_, fun h ↦ by cases h⟩
    simp [scatter, chainAddresses, writeAll]
  | cons segment rest ih =>
    rw [List.all_cons, Bool.and_eq_true] at hdir
    have hsum : totalBytes (segment :: rest) = segment.length.toNat + totalBytes rest := by
      simp [totalBytes]
    have hslice := slice_eq (show offset + segment.length.toNat ≤ data.length by omega)
    set part := (data.drop offset).take segment.length.toNat with hpart
    have hplen : part.length = segment.length.toNat := by
      rw [hpart, List.length_take, List.length_drop]
      omega
    have hzip : (chainAddresses (segment :: rest)).zip (data.drop offset) =
        segment.addresses.zip part ++
          (chainAddresses rest).zip (data.drop (offset + segment.length.toNat)) := by
      have hsplit : data.drop offset = part ++ data.drop (offset + segment.length.toNat) := by
        rw [hpart, ← List.drop_drop, List.take_append_drop]
      have hflat : chainAddresses (segment :: rest) =
          segment.addresses ++ chainAddresses rest := rfl
      rw [hsplit, hflat, List.zip_append]
      rw [hplen]
      simp [VirtqueueSegment.addresses, byteAddresses]
    have hcopy : copyToGuest segment part = copyToGuestFrom segment.address 0 part := by
      rw [copyToGuest, hdir.1, hplen, if_neg (by simp)]
    obtain ⟨hok, hfail⟩ := run_copyToGuestFrom segment.address part 0 b
    rw [hplen] at hok hfail
    rw [hzip, run_writeAll_append, scatter, hslice]
    dsimp only
    rw [Dialogue.run_bind, hcopy]
    set first := (writeAll (segment.addresses.zip part)).run Bus.dma b with hfirst
    simp only [allOk_append]
    cases hall : allOk first.1 with
    | false =>
      have hnone := hfail hall
      refine ⟨fun h ↦ by simp at h, fun _ ↦ ?_⟩
      rw [hnone]
      rfl
    | true =>
      obtain ⟨ihok, ihfail⟩ := ih (offset + segment.length.toNat) first.2 hdir.2 (by omega)
      rw [show (copyToGuestFrom segment.address 0 part).run Bus.dma b = (true, first.2) from
        hok hall]
      simp only [Bool.true_and, Bool.not_true, Bool.false_eq_true, if_false]
      exact ⟨ihok, ihfail⟩

/-- No slice goes past a buffer that has room for all segments. -/
theorem scatter_ne_none (data : List (BitVec 8)) (segments : List VirtqueueSegment) (offset : ℕ)
    (b : Bus) (hlen : offset + totalBytes segments ≤ data.length) :
    ((scatter data segments offset).run Bus.dma b).1 ≠ none := by
  induction segments generalizing offset b with
  | nil => simp [scatter]
  | cons segment rest ih =>
    have hsum : totalBytes (segment :: rest) = segment.length.toNat + totalBytes rest := by
      simp [totalBytes]
    rw [scatter, slice_eq (by omega)]
    simp only [Dialogue.run_bind, Dialogue.run_ite, Dialogue.run_pure]
    split
    · simp
    · exact ih _ _ (by omega)

/-- A piece of an empty buffer for a segment that the driver owns. -/
theorem scatter_driverOwned {data : List (BitVec 8)} (hdata : data.length = 0)
    {s : VirtqueueSegment} (hs : s.deviceWrites = false) (b : Bus) :
    (scatter data [s] 0).run Bus.dma b =
      (if s.length = 0#32 then some statusIoError else none, b) := by
  have hzero : s.length = 0#32 ↔ 0 + s.length.toNat ≤ data.length := by
    rw [hdata, Nat.zero_add, Nat.le_zero_eq]
    exact ⟨fun h ↦ by rw [h]; rfl, fun h ↦ BitVec.eq_of_toNat_eq h⟩
  rw [scatter, slice]
  by_cases h : s.length = 0#32
  · rw [if_pos (hzero.1 h), if_pos h]
    simp [copyToGuest, hs]
  · rw [if_neg (mt hzero.2 h), if_neg h]
    rfl

/-! ## Integrity -/

/-- What a request may do to the disk and to the guest's buffers: `out` and `b'` are its outcome and
the bus when its status is written, `disk` and `b` what it started from. -/
structure Intact (disk : DiskBackend) (header : RequestHeader) (segments : List VirtqueueSegment)
    (b : Bus) (out : RequestOutcome) (b' : Bus) : Prop where
  /-- A successful write has read all data segments, and put their bytes on the disk. -/
  written : out.status = statusOk → header.type = requestOut →
    let all := (readAll (chainAddresses (middle segments))).run Bus.dma b
    let onDisk := out.disk.bytesAt header.sector (totalBytes (middle segments))
    (∀ s ∈ middle segments, s.deviceWrites = false) ∧ allOk all.1 = true ∧
      onDisk = all.1.map (·.byte) ∧
      ∀ p ∈ (chainAddresses (middle segments)).zip onDisk,
        b.InRam p.1.toNat 1 → b.ramByte p.1.toNat = some p.2
  /-- A successful read has written the bytes of the disk to all data segments. -/
  read : out.status = statusOk → header.type = requestIn →
    let onDisk := disk.bytesAt header.sector (totalBytes (middle segments))
    let all := (writeAll ((chainAddresses (middle segments)).zip onDisk)).run Bus.dma b
    (∀ s ∈ middle segments, s.deviceWrites = true) ∧
      onDisk.length = totalBytes (middle segments) ∧ allOk all.1 = true ∧ b' = all.2 ∧
      out.disk = disk ∧
      ∀ p ∈ (chainAddresses (middle segments)).zip onDisk,
        b.InRam p.1.toNat 1 → b'.ramByte p.1.toNat = some p.2
  unchanged : out.status ≠ statusOk → out.disk = disk
  slices : out.slicesInBounds = true

/-- Something stops the loop of a write: a segment for the device to write, or a byte that cannot be
read. -/
def WriteStops (segments : List VirtqueueSegment) (b : Bus) : Prop :=
  ∃ s ∈ segments, s.deviceWrites = true ∨ ∃ a ∈ s.addresses, (b.read a .byte .dmaRead).1.ok = false

/-- Three segments, and the one in the middle stops the loop that assembles the buffer. -/
def StopsOnlySegment (disk : DiskBackend) (header : RequestHeader)
    (segments : List VirtqueueSegment)
    (b : Bus) : Prop :=
  segments.length = 3 ∧ header.sector ≤ disk.capacitySectors ∧ disk.isOpen = true ∧
    ((header.type = requestOut ∧ disk.writable = true ∧ WriteStops (middle segments) b) ∨
      (header.type = requestIn ∧ ∃ s ∈ middle segments, s.deviceWrites = false ∧ s.length ≠ 0#32))

instance (segments : List VirtqueueSegment) (b : Bus) : Decidable (WriteStops segments b) :=
  haveI (s : VirtqueueSegment) :
    Decidable (∃ a ∈ s.addresses, (b.read a .byte .dmaRead).1.ok = false) :=
    List.decidableBEx (fun a ↦ (b.read a .byte .dmaRead).1.ok = false) s.addresses
  inferInstanceAs (Decidable (∃ s ∈ segments, _ ∨ _))

instance (disk : DiskBackend) (header : RequestHeader) (segments : List VirtqueueSegment)
    (b : Bus) :
    Decidable (StopsOnlySegment disk header segments b) :=
  inferInstanceAs (Decidable (_ ∧ _ ∧ _ ∧ (_ ∧ _ ∧ _ ∨ _ ∧ ∃ s ∈ middle segments, _)))

section Serve

theorem length_addresses (s : VirtqueueSegment) : s.addresses.length = s.length.toNat := by
  simp [VirtqueueSegment.addresses, byteAddresses]

theorem length_chainAddresses (segments : List VirtqueueSegment) :
    (chainAddresses segments).length = totalBytes segments := by
  simp [chainAddresses, totalBytes, length_addresses]

theorem sectorRangeValid_zero (sector capacity : BitVec 64) :
    sectorRangeValid sector 0#64 capacity = true ↔ sector ≤ capacity := by
  have hcount : (0#64 + sectorSize - 1#64) / sectorSize = 0#64 := by decide
  have hover : addOverflows sector 0#64 = false := by
    rw [addOverflows_eq_false_iff]
    exact sector.isLt
  rw [sectorRangeValid, hcount, hover]
  simp

/-- The loop of a write does not stop: the segments have the right direction and can be read. -/
theorem good_iff (segments : List VirtqueueSegment) (b : Bus) :
    (segments.all (!·.deviceWrites) = true ∧
        allOk ((readAll (chainAddresses segments)).run Bus.dma b).1 = true) ↔
      ¬ WriteStops segments b := by
  rw [allOk_readAll _ rfl]
  simp only [WriteStops, List.all_eq_true, chainAddresses, List.mem_flatMap, not_exists,
    not_and, not_or,
    Bool.not_eq_true, Bool.not_eq_false, Bool.not_eq_eq_eq_not, Bool.not_true]
  constructor
  · rintro ⟨hdir, hread⟩ s hs
    exact ⟨hdir s hs, fun a ha ↦ hread a ⟨s, hs, ha⟩⟩
  · intro h
    exact ⟨fun s hs ↦ (h s hs).1, fun a ⟨s, hs, ha⟩ ↦ (h s hs).2 a ha⟩

/-- What is read from RAM is what is there. -/
theorem ramByte_of_readAll (xs : List (BitVec 64)) (b : Bus) {p : BitVec 64 × BitVec 8}
    (hp : p ∈ xs.zip (((readAll xs).run Bus.dma b).1.map (·.byte))) (hram : b.InRam p.1.toNat 1) :
    b.ramByte p.1.toNat = some p.2 := by
  induction xs generalizing b with
  | nil => cases hp
  | cons x xs ih =>
    simp only [readAll, Dialogue.run_bind, Dma.run_read, Dialogue.run_pure, List.map_cons,
      List.zip_cons_cons, List.mem_cons] at hp
    rcases hp with rfl | hp
    · have hread := (Bus.InRam.read (w := .byte) hram .dmaRead).2 0 (by decide)
      rw [Nat.add_zero] at hread
      rw [hread]
      simp [Bytes.splitByte, AccessResult.byte]
    · rw [← b.ramByte_read x .byte .dmaRead]
      exact ih _ hp (Bus.inRam_of_memoryMap (b.memoryMap_read x .byte .dmaRead) hram)

theorem ramByte_writeAll_of_notMem (ps : List (BitVec 64 × BitVec 8)) (b : Bus) {x : ℕ}
    (hx : ∀ p ∈ ps, p.1.toNat ≠ x) : ((writeAll ps).run Bus.dma b).2.ramByte x = b.ramByte x := by
  induction ps generalizing b with
  | nil => rfl
  | cons p ps ih =>
    rw [List.forall_mem_cons] at hx
    simp only [writeAll, Dialogue.run_bind, Dma.run_write, Dialogue.run_pure]
    rw [ih _ hx.2, b.ramByte_write]
    rw [widthInBytes]
    omega

/-- What is written to RAM, each byte once, is there afterwards. -/
theorem ramByte_of_writeAll (ps : List (BitVec 64 × BitVec 8)) (b : Bus) {p : BitVec 64 × BitVec 8}
    (hp : p ∈ ps) (hnodup : (ps.map (·.1)).Nodup) (hram : b.InRam p.1.toNat 1) :
    ((writeAll ps).run Bus.dma b).2.ramByte p.1.toNat = some p.2 := by
  induction ps generalizing b with
  | nil => cases hp
  | cons q ps ih =>
    rw [List.map_cons, List.nodup_cons] at hnodup
    simp only [writeAll, Dialogue.run_bind, Dma.run_write, Dialogue.run_pure]
    rcases List.mem_cons.1 hp with rfl | hp
    · have hother : ∀ r ∈ ps, r.1.toNat ≠ p.1.toNat := by
        intro r hr heq
        rw [BitVec.eq_of_toNat_eq heq.symm] at hnodup
        exact hnodup.1 (List.mem_map_of_mem hr)
      have hstored := (Bus.InRam.write (w := .byte) hram (p.2.setWidth 64) .dmaWrite).2
      rw [ramByte_writeAll_of_notMem _ _ hother, hstored.ramByte_eq, if_pos (by
        rw [widthInBytes]; omega), Nat.sub_self]
      simp [Bytes.splitByte]
    · exact ih _ hp hnodup.2
        (Bus.inRam_of_memoryMap (b.memoryMap_write q.1 .byte (q.2.setWidth 64) .dmaWrite) hram)

variable {disk : DiskBackend} {host : HostDisk} {header : RequestHeader}
  {segments : List VirtqueueSegment}

/-- The disk access of a write request: all of it, or nothing. -/
theorem run_transfer_out (hhost : DiskBackend.Serves host.pwrite) (htype : header.type = requestOut)
    (segments : List VirtqueueSegment) (data : List (BitVec 8)) (hlen : data.length < 2 ^ 64)
    (b : Bus) :
    let length := BitVec.ofNat 64 data.length
    (sectorRangeValid header.sector length disk.capacitySectors = true ∧ disk.writable = true ∧
        (disk.checkRange header.sector length).ok = true ∧
      (transfer disk host header segments data).run Bus.dma b =
        ({ status := statusOk, disk := disk.withBytes (header.sector.toNat * 512) data }, b)) ∨
    (¬ (sectorRangeValid header.sector length disk.capacitySectors = true ∧ disk.writable = true ∧
        (disk.checkRange header.sector length).ok = true) ∧
      (transfer disk host header segments data).run Bus.dma b = ({ disk }, b)) := by
  intro length
  rw [transfer]
  cases hvalid : sectorRangeValid header.sector length disk.capacitySectors with
  | false =>
    refine Or.inr ⟨fun h ↦ by simp at h, ?_⟩
    rw [if_pos (by rfl)]
    rfl
  | true =>
    rw [if_neg (by simp), if_pos (by simp [htype])]
    rcases DiskBackend.write_cases hhost hlen with ⟨hw, hrange, heq⟩ | ⟨hno, hfail, heq⟩
    · refine Or.inl ⟨rfl, hw, hrange, ?_⟩
      rw [heq]
      rfl
    · refine Or.inr ⟨fun h ↦ hno h.2, ?_⟩
      dsimp only
      rw [hfail, heq]
      rfl

/-- The disk access of a read request. -/
theorem run_transfer_in (hhost : DiskBackend.Serves host.pread) (htype : header.type = requestIn)
    (segments : List VirtqueueSegment) (data : List (BitVec 8)) (hlen : data.length < 2 ^ 64)
    (b : Bus) :
    let length := BitVec.ofNat 64 data.length
    (sectorRangeValid header.sector length disk.capacitySectors = true ∧
        (disk.checkRange header.sector length).ok = true ∧
      ((transfer disk host header segments data).run Bus.dma b) =
        let onDisk := disk.bytesAt header.sector data.length
        let scattered := (scatter onDisk segments 0).run Bus.dma b
        (handedOut disk onDisk scattered.1, scattered.2)) ∨
    (¬ (sectorRangeValid header.sector length disk.capacitySectors = true ∧
        (disk.checkRange header.sector length).ok = true) ∧
      (transfer disk host header segments data).run Bus.dma b = ({ disk }, b)) := by
  intro length
  rw [transfer]
  cases hvalid : sectorRangeValid header.sector length disk.capacitySectors with
  | false =>
    refine Or.inr ⟨fun h ↦ by simp at h, ?_⟩
    rw [if_pos (by rfl)]
    rfl
  | true =>
    rw [if_neg (by simp), if_neg (by simp [htype, requestIn, requestOut])]
    rcases DiskBackend.read_cases hhost hlen with ⟨hrange, heq⟩ | ⟨hno, hfail⟩
    · refine Or.inl ⟨rfl, hrange, ?_⟩
      dsimp only
      rw [heq, if_neg (by simp [DiskResult.ok])]
      simp only [Dialogue.run_bind, Dialogue.run_pure]
    · refine Or.inr ⟨fun h ↦ by simp [length, hno] at h, ?_⟩
      dsimp only
      rw [hfail]
      rfl

theorem intact_of_failed {b b' : Bus} {out : RequestOutcome} (hstatus : out.status ≠ statusOk)
    (hdisk : out.disk = disk) (hslices : out.slicesInBounds = true) :
    Intact disk header segments b out b' :=
  ⟨fun h ↦ absurd h hstatus, fun h ↦ absurd h hstatus, fun _ ↦ hdisk, hslices⟩

/-- A request that is refused before the disk is reached is intact. -/
theorem intact_refused {b b' : Bus} : Intact disk header segments b { disk } b' :=
  intact_of_failed (show statusIoError ≠ statusOk by decide) rfl rfl

/-- A request of a known type goes to the disk, unless its buffer is empty and it has not three
segments. -/
theorem run_serve (htype : header.type = requestIn ∨ header.type = requestOut) (b : Bus) :
    (serve disk host header segments).run Bus.dma b =
      let gathered := (gather header.type (middle segments) []).run Bus.dma b
      if gathered.1 = [] ∧ segments.length ≠ 3 then ({ disk }, gathered.2)
      else (transfer disk host header (middle segments) gathered.1).run Bus.dma gathered.2 := by
  have hknown : (header.type != requestIn && header.type != requestOut) = false := by
    rcases htype with h | h <;> simp [h]
  rw [serve, hknown, if_neg Bool.false_ne_true, Dialogue.run_bind]
  dsimp only
  cases (gather header.type (middle segments) []).run Bus.dma b with
  | mk data b' =>
    by_cases hlen : segments.length = 3
    · simp [hlen]
    · cases data <;> simp [hlen]

theorem middle_of_length (h : segments.length = 3) : ∃ s, middle segments = [s] := by
  match segments, h with
  | [_, s, _], _ => exact ⟨s, rfl⟩

theorem intact_out_of_not_stops (hhost : DiskBackend.Serves host.pwrite)
    (htype : header.type = requestOut) (htotal : totalBytes (middle segments) < 2 ^ 64) {b : Bus}
    (hstop : ¬ WriteStops (middle segments) b) :
    let done := (serve disk host header segments).run Bus.dma b
    Intact disk header segments b done.1 done.2 := by
  obtain ⟨hdir, hok⟩ := (good_iff (middle segments) b).2 hstop
  have hgather := (run_gather_out (middle segments) [] b).1 ⟨hdir, hok⟩
  set all := (readAll (chainAddresses (middle segments))).run Bus.dma b with hall
  have hlength : (all.1.map (·.byte)).length = totalBytes (middle segments) := by
    rw [List.length_map, hall, length_run_readAll, length_chainAddresses]
  rw [run_serve (Or.inr htype), htype, hgather]
  dsimp only
  split
  · exact intact_refused
  · rw [List.nil_append]
    rcases run_transfer_out hhost htype (middle segments) _ (hlength ▸ htotal) all.2 with
      ⟨-, -, hrange, heq⟩ | ⟨-, heq⟩
    · have hfits := DiskBackend.fits_of_checkRange (hlength ▸ htotal) hrange
      have hbytes := DiskBackend.bytesAt_withBytes hfits
      rw [hlength] at hbytes
      rw [heq]
      refine ⟨fun _ _ ↦ ⟨by simpa using hdir, hok, hbytes, fun p hp ↦ ?_⟩, ?_,
        fun h ↦ absurd rfl h, rfl⟩
      · rw [hbytes] at hp
        exact ramByte_of_readAll _ b hp
      · intro _ hin
        rw [htype] at hin
        exact absurd hin (by decide)
    · rw [heq]
      exact intact_refused

/-- When the loop of a write stops, the request is intact unless the empty write goes through. -/
theorem intact_out_of_stops (hhost : DiskBackend.Serves host.pwrite)
    (htype : header.type = requestOut) {b : Bus} (hstop : WriteStops (middle segments) b) :
    let done := (serve disk host header segments).run Bus.dma b
    Intact disk header segments b done.1 done.2 ↔
      ¬ (segments.length = 3 ∧ header.sector ≤ disk.capacitySectors ∧ disk.isOpen = true ∧
        disk.writable = true) := by
  have hempty := (run_gather_out (middle segments) [] b).2 fun h ↦
    (good_iff (middle segments) b).1 h hstop
  rw [run_serve (Or.inr htype), htype]
  dsimp only
  rw [hempty]
  by_cases hlen : segments.length = 3
  · rw [if_neg (fun h ↦ h.2 hlen)]
    rcases run_transfer_out hhost htype (middle segments) [] (by decide)
      ((gather requestOut (middle segments) []).run Bus.dma b).2 with
      ⟨hvalid, hw, hrange, heq⟩ | ⟨hno, heq⟩
    · rw [heq]
      refine iff_of_false (fun hintact ↦ ?_) (not_not.2 ⟨hlen, (sectorRangeValid_zero _ _).1 hvalid,
        ((disk.ok_checkRange_iff _ _).1 hrange).1, hw⟩)
      obtain ⟨hdir, hall, -⟩ := hintact.written rfl htype
      exact (good_iff (middle segments) b).1 ⟨by simpa using hdir, hall⟩ hstop
    · rw [heq]
      refine iff_of_true intact_refused fun ⟨_, hsector, hopen, hw⟩ ↦ ?_
      exact hno ⟨(sectorRangeValid_zero _ _).2 hsector, hw,
        (disk.ok_checkRange_iff _ _).2 ⟨hopen, Or.inl rfl⟩⟩
  · rw [if_pos ⟨rfl, hlen⟩]
    exact iff_of_true intact_refused fun h ↦ hlen h.1

theorem intact_in_of_writable (hhost : DiskBackend.Serves host.pread)
    (htype : header.type = requestIn) (htotal : totalBytes (middle segments) < 2 ^ 64)
    (hdisjoint : (chainAddresses (middle segments)).Nodup)
    (hdir : (middle segments).all (·.deviceWrites) = true) (b : Bus) :
    let done := (serve disk host header segments).run Bus.dma b
    Intact disk header segments b done.1 done.2 := by
  have hlength : (List.replicate (totalBytes (middle segments)) 0#8).length =
      totalBytes (middle segments) := List.length_replicate
  rw [run_serve (Or.inl htype), htype, run_gather_in, if_pos hdir, List.nil_append]
  dsimp only
  split
  · exact intact_refused
  · rcases run_transfer_in hhost htype (middle segments) _ (hlength.symm ▸ htotal) b with
      ⟨-, hrange, heq⟩ | ⟨-, heq⟩
    · rw [heq, hlength]
      rw [hlength] at hrange
      dsimp only
      set onDisk := disk.bytesAt header.sector (totalBytes (middle segments)) with honDisk
      have hbytes : onDisk.length = totalBytes (middle segments) :=
        DiskBackend.length_bytesAt (DiskBackend.fits_of_checkRange htotal hrange)
      obtain ⟨hok, hfail⟩ := run_scatter onDisk (middle segments) 0 b hdir (by omega)
      rw [List.drop_zero] at hok hfail
      set all := (writeAll ((chainAddresses (middle segments)).zip onDisk)).run Bus.dma b with hall
      cases hallok : allOk all.1 with
      | true =>
        rw [hok hallok]
        have hnodup : (((chainAddresses (middle segments)).zip onDisk).map (·.1)).Nodup := by
          rw [List.map_fst_zip (Nat.le_of_eq ((length_chainAddresses _).trans hbytes.symm))]
          exact hdisjoint
        refine ⟨?_, fun _ _ ↦ ⟨by simpa using hdir, hbytes, hallok, rfl, rfl, fun p hp hram ↦ ?_⟩,
          fun h ↦ absurd rfl h, rfl⟩
        · intro _ hout
          rw [htype] at hout
          exact absurd hout (by decide)
        · exact ramByte_of_writeAll _ b hp hnodup hram
      | false =>
        have hfailed := hfail hallok
        rw [hfailed]
        exact intact_of_failed (show statusIoError ≠ statusOk by decide) rfl rfl
    · rw [heq]
      exact intact_refused

/-- When the loop of a read stops, the request is intact unless a piece of the only data segment is
sliced out of the empty buffer. -/
theorem intact_in_of_stops (hhost : DiskBackend.Serves host.pread) (htype : header.type = requestIn)
    (hdir : ¬ (middle segments).all (·.deviceWrites) = true) (b : Bus) :
    let done := (serve disk host header segments).run Bus.dma b
    Intact disk header segments b done.1 done.2 ↔
      ¬ (segments.length = 3 ∧ header.sector ≤ disk.capacitySectors ∧ disk.isOpen = true ∧
        ∃ s ∈ middle segments, s.deviceWrites = false ∧ s.length ≠ 0#32) := by
  rw [run_serve (Or.inl htype), htype, run_gather_in, if_neg hdir]
  dsimp only
  by_cases hlen : segments.length = 3
  · obtain ⟨s, hmid⟩ := middle_of_length hlen
    have hs : s.deviceWrites = false := by
      rw [hmid] at hdir
      simpa using hdir
    rw [if_neg (fun h ↦ h.2 hlen)]
    rcases run_transfer_in hhost htype (middle segments) [] (by decide) b with
      ⟨hvalid, hrange, heq⟩ | ⟨hno, heq⟩
    · have hsector := (sectorRangeValid_zero _ _).1 hvalid
      have hopen := ((disk.ok_checkRange_iff _ _).1 hrange).1
      rw [heq, hmid]
      dsimp only
      rw [scatter_driverOwned (by simp [DiskBackend.bytesAt]) hs]
      by_cases hz : s.length = 0#32
      · rw [if_pos hz]
        refine iff_of_true (intact_of_failed (show statusIoError ≠ statusOk by decide) rfl rfl) ?_
        rintro ⟨-, -, -, t, ht, -, hne⟩
        rw [List.mem_singleton.1 ht] at hne
        exact hne hz
      · rw [if_neg hz]
        exact iff_of_false (fun h ↦ absurd h.slices (by simp [handedOut]))
          (not_not.2 ⟨hlen, hsector, hopen, s, List.mem_singleton_self s, hs, hz⟩)
    · rw [heq]
      refine iff_of_true intact_refused ?_
      rintro ⟨-, hsector, hopen, -⟩
      exact hno ⟨(sectorRangeValid_zero _ _).2 hsector,
        (disk.ok_checkRange_iff _ _).2 ⟨hopen, Or.inl rfl⟩⟩
  · rw [if_pos ⟨rfl, hlen⟩]
    exact iff_of_true intact_refused fun h ↦ hlen h.1

end Serve

/-! ## Calls of the device -/

theorem nodup_addresses (s : VirtqueueSegment) : s.addresses.Nodup := by
  refine List.Nodup.map_on (fun i hi j hj hij ↦ ?_) List.nodup_range'
  have hlen := s.length.isLt
  rw [List.mem_range'_1] at hi hj
  have := congrArg BitVec.toNat ((BitVec.add_right_inj _).1 hij)
  rw [BitVec.toNat_ofNat, BitVec.toNat_ofNat] at this
  omega

theorem middle_sublist (segments : List VirtqueueSegment) : (middle segments).Sublist segments :=
  (List.dropLast_sublist _).trans (List.tail_sublist _)

theorem nodup_chainAddresses {segments : List VirtqueueSegment}
    (h : segments.Pairwise VirtqueueSegment.Apart) : (chainAddresses (middle segments)).Nodup :=
  List.nodup_flatMap.2 ⟨fun s _ ↦ nodup_addresses s, h.sublist (middle_sublist segments)⟩

theorem totalBytes_middle_le (segments : List VirtqueueSegment) :
    totalBytes (middle segments) ≤ totalBytes segments := by
  have hsub := middle_sublist segments
  generalize middle segments = l at hsub
  induction hsub with
  | slnil => exact Nat.le_refl _
  | cons s _ ih => exact Nat.le_trans ih (by simp [totalBytes])
  | cons_cons s _ ih =>
    simp only [totalBytes, List.map_cons, List.sum_cons] at ih ⊢
    omega

theorem disk_complete (device : VirtioBlockDevice) (layout : VirtqueueLayout) (head : BitVec 16)
    (statusSegment : VirtqueueSegment) (outcome : RequestOutcome) (b : Bus) :
    ((complete device layout head statusSegment outcome).run Bus.dma b).1.2.disk =
      outcome.disk := by
  simp only [complete, Dialogue.run_bind, Dialogue.run_ite, Dialogue.run_pure]
  split
  · rfl
  split
  · rfl
  · split <;> rfl

/-- Only a slice past the buffer keeps the call from returning. -/
theorem complete_eq_none_iff (device : VirtioBlockDevice) (layout : VirtqueueLayout)
    (head : BitVec 16) (statusSegment : VirtqueueSegment) (outcome : RequestOutcome) (b : Bus) :
    ((complete device layout head statusSegment outcome).run Bus.dma b).1.1 = none ↔
      outcome.slicesInBounds = false := by
  simp only [complete, Dialogue.run_bind, Dialogue.run_ite, Dialogue.run_pure]
  cases outcome.slicesInBounds with
  | false => exact iff_of_true rfl rfl
  | true =>
    refine iff_of_false (fun h ↦ ?_) (by decide)
    rw [if_neg (by decide)] at h
    repeat' split at h
    all_goals cases h

/-- The status byte is written first when there is a place for it. -/
theorem writes_status {statusSegment : VirtqueueSegment}
    (h : statusSegment.deviceWrites = true ∧ ¬ statusSegment.length < 1#32)
    (device : VirtioBlockDevice) (layout : VirtqueueLayout) (head : BitVec 16)
    {outcome : RequestOutcome} (hslices : outcome.slicesInBounds = true) (b : Bus) :
    DmaRequest.write statusSegment.address .byte (outcome.status.setWidth 64) ∈
      (complete device layout head statusSegment outcome).calls Bus.dma b := by
  have hplace : (!statusSegment.deviceWrites || decide (statusSegment.length < 1#32)) = false := by
    rw [h.1, decide_eq_false h.2]
    rfl
  rw [complete, hslices, Bool.not_true, if_neg Bool.false_ne_true, Dialogue.calls_bind]
  refine List.mem_append_left _ ?_
  rw [writeStatus, hplace, if_neg Bool.false_ne_true, Dialogue.calls_bind, Dma.calls_write]
  exact List.mem_cons_self

namespace Serving

variable {start : VirtioBlockDevice} {bus : Bus} (s : Serving start bus)

theorem rest_eq (host : HostDisk) :
    s.rest host = serve start.disk host s.header s.segments >>=
      complete s.device s.layout s.head s.statusSegment := by
  rw [rest, s.disk_device]

/-- The disk a call leaves is that of its request. -/
theorem disk_processOne (host : HostDisk) :
    (start.processOne host bus).2.1.disk =
      ((serve start.disk host s.header s.segments).run Bus.dma s.b).1.disk := by
  rw [s.processOne_eq, s.rest_eq, Dialogue.run_bind]
  exact disk_complete _ _ _ _ _ _

/-- A call returns unless its request slices past its buffer. -/
theorem processOne_eq_none_iff (host : HostDisk) :
    (start.processOne host bus).1 = none ↔
      ((serve start.disk host s.header s.segments).run Bus.dma s.b).1.slicesInBounds = false := by
  rw [s.processOne_eq, s.rest_eq, Dialogue.run_bind]
  exact complete_eq_none_iff _ _ _ _ _ _

/-- The status a call writes is that of its request. -/
theorem writes_status_request (host : HostDisk)
    (hslices : ((serve start.disk host s.header s.segments).run Bus.dma
      s.b).1.slicesInBounds = true) :
    DmaRequest.write s.statusSegment.address .byte
        (((serve start.disk host s.header s.segments).run Bus.dma s.b).1.status.setWidth 64) ∈
      ((start.synchronizeQueueGeneration s.transport.generation).request host
        s.layout).calls Bus.dma
        bus.dropNotification := by
  rw [(s.request_eq host).2, s.rest_eq, Dialogue.calls_bind]
  refine List.mem_append_right _ (List.mem_append_right _ ?_)
  exact writes_status s.status_ok _ _ _ hslices _

end Serving

/-- When a call comes to serve a chain of disjoint buffers, and the host does its part, the disk it
leaves and the status it writes are those of `serve`, unless a slice past the buffer keeps it from
returning; and they are in order, with all slices in the buffer, exactly if it is not the case that
there are three segments and the one in the middle stops the assembly of the buffer. -/
theorem processOne_intact_iff (start : VirtioBlockDevice) (host : HostDisk) (bus : Bus)
    (hread : DiskBackend.Serves host.pread) (hwrite : DiskBackend.Serves host.pwrite)
    (s : Serving start bus) (hapart : s.segments.Pairwise VirtqueueSegment.Apart) :
    let done := (serve start.disk host s.header s.segments).run Bus.dma s.b
    (start.processOne host bus).2.1.disk = done.1.disk ∧
      (done.1.slicesInBounds = true →
        DmaRequest.write s.statusSegment.address .byte (done.1.status.setWidth 64) ∈
          ((start.synchronizeQueueGeneration s.transport.generation).request host
            s.layout).calls Bus.dma
            bus.dropNotification) ∧
      ((start.processOne host bus).1 = none ↔ done.1.slicesInBounds = false) ∧
      (Intact start.disk s.header s.segments s.b done.1 done.2 ↔
        ¬ StopsOnlySegment start.disk s.header s.segments s.b) := by
  intro done
  have hfits : totalBytes (middle s.segments) < 2 ^ 64 := by
    have hchain := @chainFits_parseDescriptorChain [] s.layout s.head s.consumedBus
    rw [show (parseDescriptorChain s.layout s.head).run Bus.dma s.consumedBus =
      (s.parsed, s.parsedBus) from s.parsed_eq] at hchain
    exact Nat.lt_of_le_of_lt (totalBytes_middle_le _) (hchain s.parsed_ok.1).1
  refine ⟨s.disk_processOne host, s.writes_status_request host, s.processOne_eq_none_iff host, ?_⟩
  · by_cases hin : s.header.type = requestIn
    · by_cases hdir : (middle s.segments).all (·.deviceWrites) = true
      · refine iff_of_true
          (intact_in_of_writable hread hin hfits (nodup_chainAddresses hapart) hdir s.b) ?_
        rintro ⟨-, -, -, ⟨hout, -⟩ | ⟨-, t, ht, hfalse, -⟩⟩
        · rw [hin] at hout
          exact absurd hout (by decide)
        · rw [List.all_eq_true.1 hdir t ht] at hfalse
          cases hfalse
      · refine (intact_in_of_stops hread hin hdir s.b).trans (not_congr ?_)
        simp only [StopsOnlySegment, hin, show ¬ requestIn = requestOut by decide, true_and,
          false_and, false_or]
    · by_cases hout : s.header.type = requestOut
      · by_cases hstop : WriteStops (middle s.segments) s.b
        · refine (intact_out_of_stops hwrite hout hstop).trans (not_congr ?_)
          simp only [StopsOnlySegment, hout, show ¬ requestOut = requestIn by decide, hstop,
            true_and,
            false_and, or_false, and_true]
        · refine iff_of_true (intact_out_of_not_stops hwrite hout hfits hstop) ?_
          rintro ⟨-, -, -, ⟨-, -, h⟩ | ⟨h, -⟩⟩
          · exact hstop h
          · exact hin h
      · refine iff_of_true ?_ ?_
        · have hknown : (s.header.type != requestIn && s.header.type != requestOut) = true := by
            simp [hin, hout]
          simp only [done, serve, hknown, if_true, Dialogue.run_pure]
          exact intact_of_failed (show statusUnsupported ≠ statusOk by decide) rfl rfl
        · rintro ⟨-, -, -, ⟨h, -⟩ | ⟨h, -⟩⟩
          · exact hout h
          · exact hin h

/-- The segments of a request for four bytes, with the buffer for either direction. -/
def fourByteSegments (deviceWrites : Bool) : List VirtqueueSegment :=
  [{ address := 0x80000080#64, length := 16#32 },
    { address := 0x80000090#64, length := 4#32, deviceWrites },
    { address := 0x800000A0#64, length := 1#32, deviceWrites := true }]

/-- A request to write four bytes to the disk. -/
def writeRequest : Bus :=
  SmallMachine.bus (SmallMachine.requestMemory 1#16 { type := requestOut }) rfl [0#16]

theorem processOne_intact_four_bytes : ∃ s : Serving SmallMachine.device writeRequest,
    let done := (serve SmallMachine.device.disk SmallMachine.host s.header s.segments).run
      Bus.dma s.b
    s.header.type = requestOut ∧ s.segments = fourByteSegments false ∧ done.1.status = statusOk ∧
      Intact SmallMachine.device.disk s.header s.segments s.b done.1 done.2 := by
  have hserved : (serving? SmallMachine.device writeRequest).any (fun s ↦
      decide (s.header = { type := requestOut } ∧ s.segments = fourByteSegments false ∧
        ¬ WriteStops (middle (fourByteSegments false)) s.b ∧
        ((serve SmallMachine.device.disk SmallMachine.host s.header s.segments).run Bus.dma
          s.b).1.status = statusOk)) = true := by
    decide +kernel
  obtain ⟨s, -, hs⟩ := (Option.any_eq_true _ _).1 hserved
  obtain ⟨hheader, hsegments, hstops, hstatus⟩ := of_decide_eq_true hs
  have hapart : s.segments.Pairwise VirtqueueSegment.Apart := by
    rw [hsegments]
    decide
  refine ⟨s, by rw [hheader], hsegments, hstatus, (processOne_intact_iff SmallMachine.device
    SmallMachine.host writeRequest SmallMachine.serves.1 SmallMachine.serves.2 s hapart).2.2.2.2 ?_⟩
  rw [hheader, hsegments]
  rintro ⟨-, -, -, ⟨-, -, h⟩ | ⟨h, -⟩⟩
  · exact hstops h
  · exact absurd h (by decide)

/-- The same request, with its data in a buffer for the device to write. -/
def misdirectedRequest : Bus :=
  SmallMachine.bus (SmallMachine.requestMemory 3#16 { type := requestOut }) rfl [0#16]

/-- The request ends with the status OK, and nothing has been read or written. -/
theorem misdirected_request_succeeds : ∃ s : Serving SmallMachine.device misdirectedRequest,
    let done := (serve SmallMachine.device.disk SmallMachine.host s.header s.segments).run
      Bus.dma s.b
    s.header.type = requestOut ∧ s.segments = fourByteSegments true ∧
      s.segments.Pairwise VirtqueueSegment.Apart ∧ done.1.status = statusOk ∧
      done.1.disk.image = SmallMachine.device.disk.image ∧
      ¬ Intact SmallMachine.device.disk s.header s.segments s.b done.1 done.2 := by
  have hserved : (serving? SmallMachine.device misdirectedRequest).any (fun s ↦
      decide (s.header.type = requestOut ∧ s.segments = fourByteSegments true ∧
        let done := (serve SmallMachine.device.disk SmallMachine.host s.header s.segments).run
          Bus.dma s.b
        done.1.status = statusOk ∧ done.1.disk.image = SmallMachine.device.disk.image)) = true := by
    decide +kernel
  obtain ⟨s, -, hs⟩ := (Option.any_eq_true _ _).1 hserved
  obtain ⟨htype, hsegments, hstatus, hdisk⟩ := of_decide_eq_true hs
  have hapart : s.segments.Pairwise VirtqueueSegment.Apart := by
    rw [hsegments]
    decide
  refine ⟨s, htype, hsegments, hapart, hstatus, hdisk, fun h ↦ ?_⟩
  have hdir := (h.written hstatus htype).1
  rw [hsegments] at hdir
  exact absurd hdir (by decide)

end VirtioBlockDevice

end Rvemu
