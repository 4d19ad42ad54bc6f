import Mathlib.Data.BitVec
import Rvemu.Devices.BlockIntegrity
import Rvemu.Devices.DescriptorChains

/-!
# Requests in guest memory

What a call of the block device finds is settled by the rings and the chain that the driver has left
in memory: `Published` says what has to be there for a request to be served, field by field, all of
it on the bus that the call starts on.  This needs that the reads on the way change nothing.  The
one read that could is that of a claim register, which is a word; but the device reads words only as
a part of a descriptor or a header, and next to a claim register it cannot read the other part
(`read_word_quiet`).
-/

set_option autoImplicit false

namespace Rvemu

/-! ## Reads that change nothing -/

/-- Only bytes and words are read with an effect. -/
def AccessWidth.Quiet (w : AccessWidth) : Prop := w = .halfWord ∨ w = .doubleWord

namespace AddressRegion

theorem read_quiet (r : AddressRegion) (o : BitVec 64) {w : AccessWidth} (hw : w.Quiet) :
    (r.read o w).2 = r := by
  cases r with
  | plic p => rcases hw with rfl | rfl <;> rfl
  | uart u => rcases hw with rfl | rfl <;> rfl
  | _ => rfl

/-- A word is read with an effect from the claim registers only. -/
theorem read_word_quiet (r : AddressRegion) (o : BitVec 64) :
    (r.read o .word).2 = r ∨
      ∃ p, r = .plic p ∧ (o.toNat = 0x200004 ∨ o.toNat = 0x201004) := by
  cases r with
  | plic p =>
    by_cases h : o = 0x200004#64 ∨ o = 0x201004#64
    · exact Or.inr ⟨p, rfl, h.imp (congrArg BitVec.toNat) (congrArg BitVec.toNat)⟩
    refine Or.inl (congrArg AddressRegion.plic ?_)
    rw [not_or] at h
    have hzero : o ≠ Plic.contextOffset 0 + 4#64 := h.1
    have hone : o ≠ Plic.contextOffset 1 + 4#64 := h.2
    rw [Plic.read]
    split
    · rfl
    split
    · rfl
    split
    · rfl
    rw [Plic.readContext, Plic.readContext, if_neg hzero, if_neg hone]
    by_cases h₁ : o = Plic.enableOffset 0
    · rw [if_pos h₁]
      rfl
    by_cases h₂ : o = Plic.contextOffset 0
    · rw [if_neg h₁, if_pos h₂]
      rfl
    by_cases h₃ : o = Plic.enableOffset 1
    · rw [if_neg h₁, if_neg h₂, if_pos h₃]
      rfl
    by_cases h₄ : o = Plic.contextOffset 1
    · rw [if_neg h₁, if_neg h₂, if_neg h₃, if_pos h₄]
      rfl
    · rw [if_neg h₁, if_neg h₂, if_neg h₃, if_neg h₄]
      rfl
  | uart u => exact Or.inl rfl
  | _ => exact Or.inl rfl

/-- The PLIC reads nothing but words. -/
theorem not_ok_read_plic (p : Plic) (o : BitVec 64) {w : AccessWidth} (hw : w.Quiet) :
    ((AddressRegion.plic p).read o w).1.ok = false := by
  rcases hw with rfl | rfl <;> rfl

end AddressRegion

namespace Bus

theorem read_quiet (b : Bus) (a : BitVec 64) {w : AccessWidth} (hw : w.Quiet) (t : AccessType) :
    (b.read a w t).2 = b := by
  rcases onRegion_cases b a w (readOp w) with
    ⟨e, -, hfailed⟩ | ⟨i, o, r, -, hr, -, hregions, hreservation, htoken⟩
  · exact congrArg Prod.snd hfailed
  · have hsame : ((readOp w).run r o).2 = r := r.read_quiet o hw
    rw [hsame, set_of_getElem? hr] at hregions
    exact ext_fields hregions hreservation htoken

/-- **A word beside a wider or narrower one** is read without an effect. -/
theorem read_word_quiet {b : Bus} {a : BitVec 64} {k : ℕ} (hk : k ≤ 8) {w : AccessWidth}
    (hw : w.Quiet) {t : AccessType} (hok : (b.read (a + BitVec.ofNat 64 k) w t).1.ok = true) :
    (b.read a .word t).2 = b := by
  rcases onRegion_cases b a .word (readOp .word) with
    ⟨e, -, hfailed⟩ | ⟨i, o, r, hlocate, hr, -, hregions, hreservation, htoken⟩
  · exact congrArg Prod.snd hfailed
  rcases r.read_word_quiet o with hsame | ⟨p, rfl, ho⟩
  · rw [show ((readOp .word).run r o).2 = r from hsame, set_of_getElem? hr] at hregions
    exact ext_fields hregions hreservation htoken
  · obtain ⟨r', hr', hbase, -, hoffset⟩ := locate_ok hlocate
    obtain rfl := Option.some.inj (hr.symm.trans hr')
    have hplic : (AddressRegion.plic p).range.base.toNat = 0x0C000000 ∧
        (AddressRegion.plic p).range.size.toNat = 0x04000000 := ⟨rfl, rfl⟩
    have hwidth : widthInBytes w ≤ 8 := widthInBytes_le w
    have hnext : (a + BitVec.ofNat 64 k).toNat = a.toNat + k := by
      rw [BitVec.toNat_add, BitVec.toNat_ofNat]
      omega
    obtain ⟨j, hj, hlocate'⟩ := locate_of_mem (w := w) (List.mem_of_getElem? hr)
      (a := a + BitVec.ofNat 64 k) (by omega) (by omega)
    rw [read_eq_of_locate t hlocate' hj, AddressRegion.not_ok_read_plic p _ hw] at hok
    cases hok

/-- A value that the device reads there. -/
structure Shows (b : Bus) (a : BitVec 64) (w : AccessWidth) (v : BitVec 64) : Prop where
  ok : (b.read a w .dmaRead).1.ok = true
  value : (b.read a w .dmaRead).1.value = v

end Bus

theorem quiet_halfWord : AccessWidth.Quiet .halfWord := Or.inl rfl

theorem quiet_doubleWord : AccessWidth.Quiet .doubleWord := Or.inr rfl

/-! ## The available ring -/

namespace VirtqueueRuntimeState

variable {s : VirtqueueRuntimeState} {layout : VirtqueueLayout} {b : Bus}

/-- The next slot of the available ring holds a head that the index has moved past. -/
structure Offers (s : VirtqueueRuntimeState) (layout : VirtqueueLayout) (b : Bus)
    (idx head : BitVec 16) : Prop where
  ready : layout.ready = true
  nonempty : layout.size ≠ 0#16
  index : ∃ v, b.Shows (layout.availableRing + 2#64) .halfWord v ∧ v.setWidth 16 = idx
  pending : idx ≠ s.lastAvailableIdx
  room : idx - s.lastAvailableIdx ≤ layout.size
  slot : ∃ v, b.Shows (availableSlotAddress layout s.lastAvailableIdx) .halfWord v ∧
    v.setWidth 16 = head

/-- A head that is offered is taken, and nothing changes but the device's own index. -/
theorem Offers.run_consumeAvailable {idx head : BitVec 16} (h : s.Offers layout b idx head) :
    (s.consumeAvailable layout).run Bus.dma b =
      (({ availableIndex := idx, head, pendingCount := idx - s.lastAvailableIdx },
        { s with lastAvailableIdx := s.lastAvailableIdx + 1#16 }), b) := by
  obtain ⟨v, ⟨hidx, rfl⟩, rfl⟩ := h.index
  obtain ⟨v, ⟨hslot, rfl⟩, rfl⟩ := h.slot
  have hopen : (!layout.ready || layout.size == 0#16) = false := by simp [h.ready, h.nonempty]
  have hpending : ¬ (b.read (layout.availableRing + 2#64) .halfWord .dmaRead).1.value.setWidth 16 -
      s.lastAvailableIdx = 0#16 := fun hzero ↦ h.pending (sub_eq_zero.1 hzero)
  rw [consumeAvailable, hopen, if_neg Bool.false_ne_true]
  simp only [Dialogue.run_bind, Dialogue.run_pure, Dma.run_read, hidx, hslot,
    b.read_quiet _ quiet_halfWord, virtqueueIndexDelta, hpending, BitVec.not_lt.2 h.room,
    Bool.not_true, Bool.false_eq_true, if_false]

/-- A head that is taken was offered. -/
theorem offers_of_consumeAvailable {available : VirtqueueAvailableResult}
    {runtime : VirtqueueRuntimeState} {b' : Bus}
    (h : (s.consumeAvailable layout).run Bus.dma b = ((available, runtime), b'))
    (hok : available.ok = true ∧ available.pendingCount ≠ 0#16) :
    s.Offers layout b available.availableIndex available.head := by
  rw [consumeAvailable] at h
  split at h
  · obtain ⟨rfl, -⟩ := Prod.mk.inj (Prod.mk.inj h).1
    cases hok.1
  next hopen =>
  rw [Bool.or_eq_true, Bool.not_eq_true', beq_iff_eq, not_or, Bool.not_eq_false] at hopen
  simp only [Dialogue.run_bind, Dialogue.run_ite, Dialogue.run_pure, Dma.run_read,
    b.read_quiet _ quiet_halfWord, virtqueueIndexDelta] at h
  split at h
  · obtain ⟨rfl, -⟩ := Prod.mk.inj (Prod.mk.inj h).1
    cases hok.1
  next hidx =>
  split at h
  · obtain ⟨rfl, -⟩ := Prod.mk.inj (Prod.mk.inj h).1
    exact absurd rfl hok.2
  next hpending =>
  split at h
  · obtain ⟨rfl, -⟩ := Prod.mk.inj (Prod.mk.inj h).1
    cases hok.1
  next hroom =>
  split at h
  · obtain ⟨rfl, -⟩ := Prod.mk.inj (Prod.mk.inj h).1
    cases hok.1
  next hslot =>
  obtain ⟨rfl, -⟩ := Prod.mk.inj (Prod.mk.inj h).1
  rw [Bool.not_eq_true', Bool.not_eq_false] at hidx hslot
  exact
    { ready := hopen.1
      nonempty := hopen.2
      index := ⟨_, ⟨hidx, rfl⟩, rfl⟩
      pending := fun heq ↦ hpending (sub_eq_zero.2 heq)
      room := BitVec.not_lt.1 hroom
      slot := ⟨_, ⟨hslot, rfl⟩, rfl⟩ }

end VirtqueueRuntimeState

/-! ## Descriptors -/

/-- A descriptor that is read leaves everything as it was. -/
theorem readRawDescriptor_quiet {table : BitVec 64} {index : BitVec 16} {b : Bus}
    {d : RawDescriptor} (h : ((readRawDescriptor table index).run Bus.dma b).1 = .ok d) :
    ((readRawDescriptor table index).run Bus.dma b).2 = b := by
  rw [readRawDescriptor] at h ⊢
  simp only [Dialogue.run_bind, Dialogue.run_ite, Dialogue.run_pure, Dma.run_read,
    Bus.read_quiet _ _ quiet_halfWord, Bus.read_quiet _ _ quiet_doubleWord] at h ⊢
  generalize table + index.setWidth 64 * 16#64 = a at h ⊢
  split at h
  · cases h
  next hok =>
  rw [if_neg hok]
  simp only [Bool.or_eq_true, Bool.not_eq_true', not_or, Bool.not_eq_false] at hok
  have hflags := hok.1.2
  rw [(Bus.ok_of_memoryMap (b.memoryMap_read (a + 8#64) .word .dmaRead) (a + 12#64) .halfWord 0#64
    0#64 .dmaRead).1, show a + 12#64 = a + 8#64 + BitVec.ofNat 64 4 by rw [BitVec.add_assoc]; rfl]
    at hflags
  exact Bus.read_word_quiet (by omega) quiet_halfWord hflags

section Parsing

variable {expected : List VirtqueueDescriptorDirection}
  {indirect : Option (RawDescriptor → Dma VirtqueueParseResult)} {table : BitVec 64}
  {size : BitVec 16} {b : Bus}

/-- A walk through a table that is accepted leaves everything as it was, if the table that it may be
sent to does. -/
theorem parseTableFrom_quiet {count : ℕ} {index : BitVec 16} {visited : List (BitVec 16)}
    {segments : List VirtqueueSegment} {totalLength : BitVec 64}
    (hindirect : ∀ p, indirect = some p → ∀ d b, ((p d).run Bus.dma b).1.ok = true →
      ((p d).run Bus.dma b).2 = b)
    (h : ((parseTableFrom indirect table size expected count index visited segments
      totalLength).run Bus.dma b).1.ok = true) :
    ((parseTableFrom indirect table size expected count index visited segments
      totalLength).run Bus.dma b).2 = b := by
  induction count generalizing index visited segments totalLength with
  | zero => cases h
  | succ count ih =>
    rw [parseTableFrom] at h ⊢
    split at h
    · cases h
    split at h
    · cases h
    next hinside hfresh =>
    rw [if_neg hinside, if_neg hfresh]
    rw [Dialogue.run_bind] at h ⊢
    have hquiet := @readRawDescriptor_quiet table index b
    have hfailed := @readRawDescriptor_error table index b
    generalize (readRawDescriptor table index).run Bus.dma b = read at h hquiet hfailed ⊢
    obtain ⟨value, b'⟩ := read
    cases value with
    | error failed => exact absurd (h.symm.trans (hfailed rfl)) (by decide)
    | ok d =>
      obtain rfl : b' = b := hquiet rfl
      dsimp only at h ⊢
      cases hd : d.isIndirect with
      | true =>
        rw [hd, if_pos rfl] at h
        rw [if_pos rfl]
        cases hi : indirect with
        | none =>
          rw [hi] at h
          cases h
        | some parseIndirect =>
          rw [hi] at h
          dsimp only at h ⊢
          split at h
          · cases h
          next hfirst =>
          rw [if_neg hfirst]
          exact hindirect parseIndirect hi d b' h
      | false =>
        rw [hd, if_neg Bool.false_ne_true] at h
        rw [if_neg Bool.false_ne_true]
        cases hcheck : checkDescriptor expected segments totalLength d with
        | some failed =>
          rw [hcheck] at h
          exact absurd (h.symm.trans (checkDescriptor_some hcheck)) (by decide)
        | none =>
          rw [hcheck] at h
          dsimp only at h ⊢
          split at h
          · next hlast =>
            rw [if_pos hlast]
            split <;> rfl
          · next hmore =>
            rw [if_neg hmore]
            exact ih h

theorem parseTable_quiet {head : BitVec 16}
    (hindirect : ∀ p, indirect = some p → ∀ d b, ((p d).run Bus.dma b).1.ok = true →
      ((p d).run Bus.dma b).2 = b)
    (h : ((parseTable indirect table size head expected).run Bus.dma b).1.ok = true) :
    ((parseTable indirect table size head expected).run Bus.dma b).2 = b := by
  rw [parseTable] at h ⊢
  split at h
  · cases h
  next hinside =>
  rw [if_neg hinside]
  exact parseTableFrom_quiet hindirect h

/-- A chain that is accepted has been read without an effect. -/
theorem parseDescriptorChain_quiet {layout : VirtqueueLayout} {head : BitVec 16}
    (h : ((parseDescriptorChain layout head expected).run Bus.dma b).1.ok = true) :
    ((parseDescriptorChain layout head expected).run Bus.dma b).2 = b := by
  rw [parseDescriptorChain] at h ⊢
  split at h
  · cases h
  next hready =>
  rw [if_neg hready]
  split at h
  · cases h
  next hinside =>
  rw [if_neg hinside]
  refine parseTable_quiet (fun p hp d b hok ↦ ?_) h
  split at hp
  · obtain rfl := Option.some.inj hp
    rw [parseIndirectDescriptor] at hok ⊢
    split at hok
    · cases hok
    next hrefers =>
    rw [if_neg hrefers]
    dsimp only at hok ⊢
    split at hok
    · cases hok
    next hbounded =>
    rw [if_neg hbounded]
    exact parseTable_quiet (fun p hp ↦ by cases hp) hok
  · cases hp

end Parsing

/-! ## The header -/

namespace VirtioBlockDevice

/-- A header that the device can read. -/
structure ReadsHeader (b : Bus) (segment : VirtqueueSegment) (header : RequestHeader) : Prop where
  forDevice : segment.deviceWrites = false
  length : ¬ segment.length < 16#32
  type : ∃ v, b.Shows segment.address .word v ∧ v.setWidth 32 = header.type
  sector : b.Shows (segment.address + 8#64) .doubleWord header.sector

theorem readHeader_eq_iff {b b' : Bus} {segment : VirtqueueSegment} {header : RequestHeader} :
    (readHeader segment).run Bus.dma b = (some header, b') ↔
      ReadsHeader b segment header ∧ b' = b := by
  have hsector := Bus.ok_of_memoryMap (b.memoryMap_read segment.address .word .dmaRead)
    (segment.address + 8#64) .doubleWord 0#64 0#64 .dmaRead
  have hquiet (hok : (b.read (segment.address + 8#64) .doubleWord .dmaRead).1.ok = true) :
      (b.read segment.address .word .dmaRead).2 = b :=
    Bus.read_word_quiet (k := 8) (by omega) quiet_doubleWord hok
  rw [readHeader]
  constructor
  · intro h
    split at h
    · cases h
    next hplace =>
    rw [Bool.or_eq_true, decide_eq_true_iff, not_or, Bool.not_eq_true] at hplace
    simp only [Dialogue.run_bind, Dialogue.run_ite, Dialogue.run_pure, Dma.run_read,
      Bus.read_quiet _ _ quiet_doubleWord] at h
    split at h
    · cases h
    next hok =>
    simp only [Bool.or_eq_true, Bool.not_eq_true', not_or, Bool.not_eq_false] at hok
    have hunchanged := hquiet (hsector.1 ▸ hok.2)
    rw [hunchanged] at h hok
    obtain ⟨hheader, rfl⟩ := Prod.mk.inj h
    obtain rfl := Option.some.inj hheader
    exact ⟨⟨hplace.1, hplace.2, ⟨_, ⟨hok.1, rfl⟩, rfl⟩, ⟨hok.2, rfl⟩⟩, rfl⟩
  · rintro ⟨⟨hdevice, hlength, ⟨v, ⟨htype, rfl⟩, htruncated⟩, hok, hvalue⟩, rfl⟩
    have hunchanged := hquiet hok
    rw [hdevice, decide_eq_false hlength, Bool.or_false, if_neg Bool.false_ne_true]
    simp only [Dialogue.run_bind, Dialogue.run_pure, Dma.run_read,
      Bus.read_quiet _ _ quiet_doubleWord, hunchanged, htype, hok, hvalue, htruncated,
      Bool.not_true, Bool.or_false, Bool.false_eq_true, if_false]

/-! ## Slices -/

section Slices

variable (disk : DiskBackend) (host : HostDisk) (header : RequestHeader)
  (segments : List VirtqueueSegment)

/-- The one data segment of a read is the driver's: the buffer is empty, and the piece for the
segment is not. -/
structure SlicesPast : Prop where
  read : header.type = requestIn
  three : segments.length = 3
  sector : header.sector ≤ disk.capacitySectors
  opened : disk.isOpen = true
  driverOwned : ∃ s ∈ middle segments, s.deviceWrites = false ∧ s.length ≠ 0#32

variable {disk host header segments}

theorem slicesInBounds_transfer {data : List (BitVec 8)} (b : Bus) :
    ((transfer disk host header segments data).run Bus.dma b).1.slicesInBounds = false ↔
      sectorRangeValid header.sector (BitVec.ofNat 64 data.length) disk.capacitySectors = true ∧
        header.type ≠ requestOut ∧ (disk.read host.pread header.sector data).1.ok = true ∧
        ((scatter (disk.read host.pread header.sector data).2 segments 0).run Bus.dma b).1 =
          none := by
  rw [transfer]
  cases sectorRangeValid header.sector (BitVec.ofNat 64 data.length) disk.capacitySectors with
  | false => simp
  | true =>
    rw [if_neg (by decide)]
    by_cases htype : header.type = requestOut
    · simp [htype]
    rw [if_neg (by simpa using htype)]
    dsimp only
    cases (disk.read host.pread header.sector data).1.ok with
    | false => simp
    | true =>
      rw [if_neg (by decide), Dialogue.run_bind, Dialogue.run_pure]
      cases ((scatter (disk.read host.pread header.sector data).2 segments 0).run Bus.dma b).1 with
      | none => simp [handedOut, htype]
      | some status => simp [handedOut]

/-- **A slice past the buffer** is taken for nothing but a driver's segment in the middle of
three. -/
theorem slicesInBounds_serve (b : Bus) :
    ((serve disk host header segments).run Bus.dma b).1.slicesInBounds = false ↔
      SlicesPast disk header segments := by
  by_cases hin : header.type = requestIn
  swap
  · refine iff_of_false ?_ fun h ↦ hin h.read
    by_cases hout : header.type = requestOut
    · rw [run_serve (Or.inr hout)]
      dsimp only
      split
      · simp
      · rw [slicesInBounds_transfer]
        exact fun h ↦ h.2.1 hout
    · rw [serve, if_pos (by simp [hin, hout])]
      simp
  have hout : header.type ≠ requestOut := by
    rw [hin]
    decide
  rw [run_serve (Or.inl hin), hin, run_gather_in]
  by_cases hdir : (middle segments).all (·.deviceWrites) = true
  · -- the buffer has a piece for every segment
    rw [if_pos hdir, List.nil_append]
    refine iff_of_false ?_ fun h ↦ ?_
    · dsimp only
      split
      · simp
      · rw [slicesInBounds_transfer]
        rintro ⟨-, -, -, hnone⟩
        refine scatter_ne_none _ _ 0 b (Nat.le_of_eq ?_) hnone
        rw [DiskBackend.length_read, List.length_replicate, Nat.zero_add]
    · obtain ⟨s, hs, hfalse, -⟩ := h.driverOwned
      exact Bool.false_ne_true (hfalse.symm.trans (List.all_eq_true.1 hdir s hs))
  · rw [if_neg hdir]
    dsimp only
    by_cases hlen : segments.length = 3
    swap
    · rw [if_pos ⟨rfl, hlen⟩]
      exact iff_of_false (by simp) fun h ↦ hlen h.three
    obtain ⟨s, hmid⟩ := middle_of_length hlen
    have hs : s.deviceWrites = false := by
      rw [hmid] at hdir
      simpa using hdir
    rw [if_neg fun h ↦ h.2 hlen, slicesInBounds_transfer, disk.ok_read_nil_iff, hmid,
      scatter_driverOwned (DiskBackend.length_read _ _ _ _) hs]
    constructor
    · rintro ⟨hvalid, -, hopened, hnone⟩
      refine ⟨hin, hlen, (sectorRangeValid_zero _ _).1 hvalid, hopened, s, by simp [hmid], hs,
        fun hlength ↦ ?_⟩
      rw [if_pos hlength] at hnone
      cases hnone
    · intro h
      obtain ⟨s', hs', -, hlength⟩ := h.driverOwned
      rw [hmid, List.mem_singleton] at hs'
      rw [hs'] at hlength
      exact ⟨(sectorRangeValid_zero _ _).2 h.sector, hout, h.opened, if_neg hlength⟩

end Slices

/-! ## The request -/

/-- A request that the driver has left in memory: a head on the available ring, and a chain of three
descriptors or more that begins with a header and ends with a place for the status. -/
structure Published (runtime : VirtqueueRuntimeState) (layout : VirtqueueLayout) (b : Bus)
    (head : BitVec 16) (chain : List (BitVec 16 × RawDescriptor)) (header : RequestHeader) :
    Prop where
  offered : ∃ idx, runtime.Offers layout b idx head
  acceptable : Acceptable layout head [] b chain
  length : 3 ≤ chain.length
  header : ReadsHeader b ((chainSegments chain).headD {}) header
  status : ((chainSegments chain).getLastD {}).deviceWrites = true ∧
    ¬ ((chainSegments chain).getLastD {}).length < 1#32

variable {start : VirtioBlockDevice} {bus : Bus}

/-- A request that is about to be served was published. -/
theorem Serving.published (s : Serving start bus) : ∃ chain,
    Published (start.synchronizeQueueGeneration s.transport.generation).queueRuntime s.layout
      bus.dropNotification s.head chain s.header ∧ s.segments = chainSegments chain := by
  have hoffers := VirtqueueRuntimeState.offers_of_consumeAvailable s.consumed_eq s.available_ok
  have hconsumed : s.consumedBus = bus.dropNotification := by
    have hrun := s.consumed_eq
    rw [hoffers.run_consumeAvailable] at hrun
    exact (congrArg Prod.snd hrun).symm
  have hparsed := s.parsed_eq
  rw [hconsumed] at hparsed
  have hok : ((parseDescriptorChain s.layout s.head).run Bus.dma
      bus.dropNotification).1.ok = true := by
    rw [show (parseDescriptorChain s.layout s.head).run Bus.dma bus.dropNotification = _ from
      hparsed]
    exact s.parsed_ok.1
  have hquiet : s.parsedBus = bus.dropNotification := by
    rw [← parseDescriptorChain_quiet hok]
    exact (congrArg Prod.snd hparsed).symm
  obtain ⟨hready, chain, hchain⟩ := acceptable_of_parseDescriptorChain hok
  have hsegments : s.segments = chainSegments chain :=
    (congrArg (·.1.segments) hparsed).symm.trans
      (congrArg (·.segments) (parseDescriptorChain_of_acceptable hready hchain))
  have hlength := s.parsed_ok.2
  have hheader := s.header_eq
  have hstatus := s.status_ok
  rw [show s.parsed.segments = chainSegments chain from hsegments] at hlength hheader hstatus
  rw [hquiet] at hheader
  rw [chainSegments, List.length_map, Nat.not_lt] at hlength
  exact ⟨chain, ⟨⟨_, hoffers⟩, hchain, hlength, (readHeader_eq_iff.1 hheader).1, hstatus⟩,
    hsegments⟩

/-- A request that is published is about to be served. -/
theorem Published.serving {queueIndex : BitVec 16} {transport : VirtioMmioTransport}
    (hpop : bus.transport.bind VirtioMmioTransport.popNotification = some (queueIndex, transport))
    {head : BitVec 16} {chain : List (BitVec 16 × RawDescriptor)} {header : RequestHeader}
    (h : Published (start.synchronizeQueueGeneration transport.generation).queueRuntime
      (transport.queueLayout queueIndex) bus.dropNotification head chain header) :
    ∃ s : Serving start bus, s.layout = transport.queueLayout queueIndex ∧ s.header = header ∧
      s.segments = chainSegments chain := by
  obtain ⟨idx, hoffers⟩ := h.offered
  have hparsed := parseDescriptorChain_of_acceptable hoffers.ready h.acceptable
  have hquiet : ((parseDescriptorChain (transport.queueLayout queueIndex) head).run Bus.dma
      bus.dropNotification).2 = bus.dropNotification :=
    parseDescriptorChain_quiet (by rw [hparsed]; rfl)
  have hlength : ¬ (chainSegments chain).length < 3 := by
    rw [chainSegments, List.length_map, Nat.not_lt]
    exact h.length
  exact
    ⟨{  queueIndex, transport
        runtime := _
        available := _
        consumedBus := bus.dropNotification
        parsed := { segments := chainSegments chain }
        parsedBus := bus.dropNotification
        header
        b := bus.dropNotification
        popped := hpop
        consumed_eq := hoffers.run_consumeAvailable
        available_ok := ⟨rfl, sub_ne_zero.2 hoffers.pending⟩
        parsed_eq := Prod.ext hparsed hquiet
        parsed_ok := ⟨rfl, hlength⟩
        header_eq := readHeader_eq_iff.2 ⟨h.header, rfl⟩
        status_ok := h.status }, rfl, rfl, rfl⟩

end VirtioBlockDevice

end Rvemu
