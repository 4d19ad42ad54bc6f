import Rvemu.Devices.PublishedRequests
import Rvemu.Devices.ResetIsolation

/-!
# How a call of the block device ends

A call without a notification does nothing.  Any other call completes its request, ends in a queue
error, or does not return; and whether it completes its request is settled by the state before it
(`Completable`): a request has to be published in memory, the bus has to take the status byte and
the used element, which is a matter of its memory map, and no slice may go past the buffer.
-/

set_option autoImplicit false

namespace Rvemu

/-! ## What the bus takes -/

namespace Bus

/-- A write of this width is served there. -/
def Takes (b : Bus) (a : BitVec 64) (w : AccessWidth) : Prop :=
  (b.write a w 0#64 .dmaWrite).1.ok = true

instance (b : Bus) (a : BitVec 64) (w : AccessWidth) : Decidable (b.Takes a w) :=
  inferInstanceAs (Decidable (_ = true))

/-- Neither the value nor what was written elsewhere matters. -/
theorem takes_iff {b b' : Bus} (h : b'.memoryMap = b.memoryMap) (a : BitVec 64) (w : AccessWidth)
    (v : BitVec 64) : (b'.write a w v .dmaWrite).1.ok = true ↔ b.Takes a w := by
  rw [(ok_of_memoryMap h a w 0#64 v .dmaWrite).2, Takes]

theorem accepts_append (b : Bus) (first later : List DmaRequest) :
    b.Accepts (first ++ later) ↔ b.Accepts first ∧ (b.afterDma first).Accepts later := by
  induction first generalizing b with
  | nil => exact (and_iff_right trivial).symm
  | cons request first ih => exact (and_congr_right fun _ ↦ ih _).trans and_assoc.symm

theorem takes_congr {b b' : Bus} (h : b'.memoryMap = b.memoryMap) (a : BitVec 64)
    (w : AccessWidth) : b'.Takes a w ↔ b.Takes a w := takes_iff h a w 0#64

end Bus

namespace VirtqueueLayout

variable (layout : VirtqueueLayout)

/-- The three writes of a publication are served. -/
structure TakesUsed (b : Bus) (idx : BitVec 16) : Prop where
  id : b.Takes (layout.usedRing + BitVec.ofNat 64 (layout.usedOffset idx.toNat)) .word
  length : b.Takes (layout.usedRing + BitVec.ofNat 64 (layout.usedOffset idx.toNat + 4)) .word
  index : b.Takes (layout.usedRing + 2#64) .halfWord

variable {layout}

theorem accepts_usedWrites_iff {b b' : Bus} (h : b'.memoryMap = b.memoryMap) (idx : BitVec 16)
    (entry : BitVec 32 × BitVec 32) :
    b'.Accepts (layout.usedWrites idx entry) ↔ layout.TakesUsed b idx := by
  have hmap (c : Bus) (hc : c.memoryMap = b.memoryMap) (i : DmaRequest) :
      (c.dma i).2.memoryMap = b.memoryMap := (Dma.memoryMap_dma c i).trans hc
  have hid := hmap b' h (layout.usedWrite (layout.usedOffset idx.toNat) .word
    (entry.1.setWidth 64))
  have hlength := hmap _ hid (layout.usedWrite (layout.usedOffset idx.toNat + 4) .word
    (entry.2.setWidth 64))
  constructor
  · rintro ⟨h₁, h₂, h₃, -⟩
    exact ⟨(Bus.takes_iff h _ _ _).1 h₁, (Bus.takes_iff hid _ _ _).1 h₂,
      (Bus.takes_iff hlength _ _ _).1 h₃⟩
  · rintro ⟨h₁, h₂, h₃⟩
    exact ⟨(Bus.takes_iff h _ _ _).2 h₁, (Bus.takes_iff hid _ _ _).2 h₂,
      (Bus.takes_iff hlength _ _ _).2 h₃, trivial⟩

theorem takesUsed_congr {b b' : Bus} (h : b'.memoryMap = b.memoryMap) (idx : BitVec 16) :
    layout.TakesUsed b' idx ↔ layout.TakesUsed b idx := by
  rw [← accepts_usedWrites_iff rfl idx (0#32, 0#32), accepts_usedWrites_iff h]

end VirtqueueLayout

/-! ## The end of a request -/

namespace VirtioBlockDevice

/-- A call on a ready queue publishes when its three writes are served. -/
theorem run_publishUsed (s : VirtqueueRuntimeState) {layout : VirtqueueLayout}
    (hready : layout.ready = true) (hsize : layout.size ≠ 0#16) (id length : BitVec 32) (b : Bus) :
    let p := s.publishUsed layout id length
    (layout.TakesUsed b s.usedIdx →
      (p.run Bus.dma b).1 = (.none, { s with usedIdx := s.usedIdx + 1#16 }) ∧
        p.calls Bus.dma b = layout.usedWrites s.usedIdx (id, length)) ∧
    (¬ layout.TakesUsed b s.usedIdx → (p.run Bus.dma b).1 = (.dmaWriteFailure, s)) := by
  have hopen : (!layout.ready || layout.size == 0#16) = false := by simp [hready, hsize]
  have hpublish := publishUsed_eq s layout (id, length)
  rw [hopen, if_neg Bool.false_ne_true] at hpublish
  dsimp only at hpublish
  rw [hpublish]
  have htakes : b.Accepts (layout.usedWrites s.usedIdx (id, length)) ↔
      layout.TakesUsed b s.usedIdx := VirtqueueLayout.accepts_usedWrites_iff rfl _ _
  obtain ⟨-, ⟨hcalls, haccepts, hdone⟩ | ⟨before, request, after, hsplit, -, hno, -, hdone⟩⟩ :=
    requestInOrder_cases (VirtqueueRingErrorCode.dmaWriteFailure, s)
      (VirtqueueRingErrorCode.none, { s with usedIdx := s.usedIdx + 1#16 })
      (layout.usedWrites s.usedIdx (id, length)) b
  · exact ⟨fun _ ↦ ⟨hdone, hcalls⟩, fun hnot ↦ absurd (htakes.1 haccepts) hnot⟩
  · have hnot : ¬ layout.TakesUsed b s.usedIdx := by
      rw [← htakes, hsplit, Bus.accepts_append]
      rintro ⟨-, hok, -⟩
      exact Bool.false_ne_true (hno.symm.trans hok)
    exact ⟨fun h ↦ absurd h hnot, fun _ ↦ hdone⟩

section Complete

variable (device : VirtioBlockDevice) {layout : VirtqueueLayout} (head : BitVec 16)
  {statusSegment : VirtqueueSegment} (outcome : RequestOutcome) (b : Bus)

/-- The request is completed when the status byte and the used element are taken, and then they are
all that is written. -/
theorem run_complete (hready : layout.ready = true) (hsize : layout.size ≠ 0#16)
    (hslices : outcome.slicesInBounds = true)
    (hplace : statusSegment.deviceWrites = true ∧ ¬ statusSegment.length < 1#32) :
    let p := complete device layout head statusSegment outcome
    let done := (p.run Bus.dma b).1
    (b.Takes statusSegment.address .byte ∧ layout.TakesUsed b device.queueRuntime.usedIdx →
      done = (some .completed, { device with
        disk := outcome.disk
        queueRuntime := { device.queueRuntime with
          usedIdx := device.queueRuntime.usedIdx + 1#16 } }) ∧
      p.calls Bus.dma b =
        .write statusSegment.address .byte (outcome.status.setWidth 64) ::
          layout.usedWrites device.queueRuntime.usedIdx (head.setWidth 32, outcome.usedLength)) ∧
    (¬ (b.Takes statusSegment.address .byte ∧ layout.TakesUsed b device.queueRuntime.usedIdx) →
      done.1 = some .queueError ∧ done.2.queueRuntime = device.queueRuntime) := by
  have hopen : (!statusSegment.deviceWrites || decide (statusSegment.length < 1#32)) = false := by
    rw [hplace.1, decide_eq_false hplace.2]
    rfl
  have hmap := b.memoryMap_write statusSegment.address .byte (outcome.status.setWidth 64) .dmaWrite
  have htakes := Bus.takes_iff (rfl : b.memoryMap = b.memoryMap) statusSegment.address .byte
    (outcome.status.setWidth 64)
  have hused : layout.TakesUsed (b.write statusSegment.address .byte (outcome.status.setWidth 64)
      .dmaWrite).2 device.queueRuntime.usedIdx ↔
      layout.TakesUsed b device.queueRuntime.usedIdx := VirtqueueLayout.takesUsed_congr hmap _
  obtain ⟨hpublish, hrefused⟩ := run_publishUsed device.queueRuntime hready hsize
    (head.setWidth 32) outcome.usedLength
    (b.write statusSegment.address .byte (outcome.status.setWidth 64) .dmaWrite).2
  rw [hused] at hpublish hrefused
  rw [← htakes]
  dsimp only [complete, writeStatus]
  rw [hslices, Bool.not_true, if_neg Bool.false_ne_true, hopen, if_neg Bool.false_ne_true]
  simp only [Dialogue.run_bind, Dialogue.calls_bind, Dma.run_write, Dma.calls_write,
    Dialogue.run_pure, Dialogue.calls_pure, List.append_nil]
  cases hok : (b.write statusSegment.address .byte (outcome.status.setWidth 64) .dmaWrite).1.ok with
  | false =>
    refine ⟨fun h ↦ absurd h.1 Bool.false_ne_true, fun _ ↦ ?_⟩
    rw [Bool.not_false, if_pos rfl]
    exact ⟨rfl, rfl⟩
  | true =>
    simp only [Bool.not_true, Bool.false_eq_true, if_false, true_and, Dialogue.run_bind,
      Dialogue.calls_bind]
    refine ⟨fun h ↦ ?_, fun h ↦ ?_⟩
    · obtain ⟨hdone, hcalls⟩ := hpublish h
      rw [hdone, hcalls]
      simp
    · rw [hrefused h]
      simp

end Complete

namespace Serving

variable {start : VirtioBlockDevice} {bus : Bus} (s : Serving start bus)

/-- Heads are only taken from queues that are ready. -/
theorem layout_ready : s.layout.ready = true ∧ s.layout.size ≠ 0#16 := by
  have hconsumed := s.consumed_eq
  rw [VirtqueueRuntimeState.consumeAvailable] at hconsumed
  split at hconsumed
  · rw [Dialogue.run_pure] at hconsumed
    have hcode := congrArg (·.1.1.ok) hconsumed
    exact absurd (hcode.trans s.available_ok.1) Bool.false_ne_true
  · next hopen =>
    rw [Bool.or_eq_true, Bool.not_eq_true', beq_iff_eq, not_or, Bool.not_eq_false] at hopen
    exact hopen

/-- The accesses up to the request do not change where anything is. -/
theorem memoryMap_b : s.b.memoryMap = bus.memoryMap := by
  have hdrop : bus.dropNotification.memoryMap = bus.memoryMap :=
    Bus.memoryMap_update _ _ _ _ fun _ ↦ rfl
  have hconsumed := congrArg (·.2.memoryMap) s.consumed_eq
  have hparsed := congrArg (·.2.memoryMap) s.parsed_eq
  have hheader := congrArg (·.2.memoryMap) s.header_eq
  rw [Dma.memoryMap_run] at hconsumed hparsed hheader
  exact hheader.symm.trans (hparsed.symm.trans (hconsumed.symm.trans hdrop))

end Serving

end VirtioBlockDevice

/-! ## The two ends of a call -/

namespace BlockMachine

variable (m : BlockMachine) (host : HostDisk)

/-- The call completes this request: it is published, the bus takes its status byte and its used
element, and no slice goes past its buffer. -/
structure Completes (layout : VirtqueueLayout) (head : BitVec 16)
    (chain : List (BitVec 16 × RawDescriptor)) (header : RequestHeader) : Prop where
  published : VirtioBlockDevice.Published m.synchronized.queueRuntime layout
    m.bus.dropNotification head chain header
  status : m.bus.Takes ((chainSegments chain).getLastD {}).address .byte
  used : layout.TakesUsed m.bus m.synchronized.queueRuntime.usedIdx
  slices : ¬ VirtioBlockDevice.SlicesPast m.device.disk header (chainSegments chain)

/-- There is a request for the next notification that the call completes. -/
def Completable : Prop :=
  ∃ queueIndex t head chain header, m.notification = some (queueIndex, t) ∧
    m.Completes (t.queueLayout queueIndex) head chain header

variable {m}

theorem completable_iff_serving : m.Completable ↔
    ∃ s : VirtioBlockDevice.Serving m.device m.bus, m.bus.Takes s.statusSegment.address .byte ∧
      s.layout.TakesUsed m.bus m.synchronized.queueRuntime.usedIdx ∧
      ¬ VirtioBlockDevice.SlicesPast m.device.disk s.header s.segments := by
  constructor
  · rintro ⟨queueIndex, t, head, chain, header, hnotification, h⟩
    have hpublished := h.published
    rw [synchronized, ← Bus.generation_of_pop hnotification] at hpublished
    obtain ⟨s, hlayout, hheader, hsegments⟩ := hpublished.serving hnotification
    refine ⟨s, ?_, hlayout ▸ h.used, ?_⟩
    · rw [VirtioBlockDevice.Serving.statusSegment, hsegments]
      exact h.status
    · rw [hheader, hsegments]
      exact h.slices
  · rintro ⟨s, hstatus, hused, hslices⟩
    obtain ⟨chain, hpublished, hsegments⟩ := s.published
    rw [synchronized_of_serving s] at hpublished
    rw [VirtioBlockDevice.Serving.statusSegment, hsegments] at hstatus
    rw [hsegments] at hslices
    exact ⟨s.queueIndex, s.transport, s.head, chain, s.header, notification_of_serving s,
      ⟨hpublished, hstatus, hused, hslices⟩⟩

theorem processOne_of_serving (s : VirtioBlockDevice.Serving m.device m.bus) :
    let past := VirtioBlockDevice.SlicesPast m.device.disk s.header s.segments
    let answered := m.bus.Takes s.statusSegment.address .byte ∧
      s.layout.TakesUsed m.bus m.synchronized.queueRuntime.usedIdx
    (past → (m.device.processOne host m.bus).1 = none) ∧
      (¬ past → answered → (m.device.processOne host m.bus).1 = some .completed) ∧
      (¬ past → ¬ answered → (m.device.processOne host m.bus).1 = some .queueError) := by
  intro past answered
  refine ⟨fun h ↦ (s.processOne_eq_none_iff host).2
    ((VirtioBlockDevice.slicesInBounds_serve s.b).2 h), ?_⟩
  obtain ⟨hready, hsize⟩ := s.layout_ready
  have hslices : ((VirtioBlockDevice.serve s.device.disk host s.header s.segments).run Bus.dma
      s.b).1.slicesInBounds = false ↔ _ := VirtioBlockDevice.slicesInBounds_serve s.b
  obtain ⟨outcome, b, hserve⟩ : ∃ outcome b,
      (VirtioBlockDevice.serve s.device.disk host s.header s.segments).run Bus.dma s.b =
        (outcome, b) := ⟨_, _, rfl⟩
  rw [hserve, s.disk_device] at hslices
  have hmap : b.memoryMap = m.bus.memoryMap := by
    have hserved := congrArg (·.2.memoryMap) hserve
    rw [Dma.memoryMap_run] at hserved
    exact hserved.symm.trans s.memoryMap_b
  have hanswered : b.Takes s.statusSegment.address .byte ∧
      s.layout.TakesUsed b m.synchronized.queueRuntime.usedIdx ↔ answered :=
    and_congr (Bus.takes_congr hmap _ _) (VirtqueueLayout.takesUsed_congr hmap _)
  have hstatus : (m.device.processOne host m.bus).1 =
      ((VirtioBlockDevice.complete s.device s.layout s.head s.statusSegment outcome).run
        Bus.dma b).1.1 := by
    rw [s.processOne_eq host]
    dsimp only
    rw [VirtioBlockDevice.Serving.rest, Dialogue.run_bind, hserve]
  have hends (hpast : ¬ past) := VirtioBlockDevice.run_complete s.device s.head outcome b hready
    hsize (by rw [← Bool.not_eq_false]; exact mt hslices.1 hpast) s.status_ok
  rw [usedIdx_of_serving s] at hends
  rw [hstatus]
  exact ⟨fun hpast h ↦ congrArg Prod.fst ((hends hpast).1 (hanswered.2 h)).1,
    fun hpast h ↦ ((hends hpast).2 (mt hanswered.1 h)).1⟩

variable (m)

theorem completed_iff :
    (m.device.processOne host m.bus).1 = some .completed ↔ m.Completable := by
  rw [completable_iff_serving]
  constructor
  · intro h
    obtain ⟨s⟩ := serving_of_completed h
    obtain ⟨hpast, -, herror⟩ := processOne_of_serving host s
    by_contra hno
    by_cases hslices : VirtioBlockDevice.SlicesPast m.device.disk s.header s.segments
    · cases h.symm.trans (hpast hslices)
    · cases h.symm.trans (herror hslices fun hanswered ↦
        hno ⟨s, hanswered.1, hanswered.2, hslices⟩)
  · rintro ⟨s, hstatus, hused, hslices⟩
    exact (processOne_of_serving host s).2.1 hslices ⟨hstatus, hused⟩

/-- A notification whose request cannot be completed is a queue error, or the call does not
return. -/
theorem failed_iff : ((m.device.processOne host m.bus).1 = none ∨
    (m.device.processOne host m.bus).1 = some .queueError) ↔
    m.notification.isSome = true ∧ ¬ m.Completable := by
  rw [← m.completed_iff host]
  cases hnotification : m.notification with
  | none =>
    rw [processOne_eq_none hnotification]
    simp
  | some notification =>
    rw [Option.isSome_some, eq_self_iff_true, true_and]
    by_cases hserving : Nonempty (VirtioBlockDevice.Serving m.device m.bus)
    · obtain ⟨s⟩ := hserving
      obtain ⟨hpast, hcompleted, herror⟩ := processOne_of_serving host s
      constructor
      · rintro (h | h) hno
        · cases h.symm.trans hno
        · cases h.symm.trans hno
      · intro h
        by_cases hslices : VirtioBlockDevice.SlicesPast m.device.disk s.header s.segments
        · exact Or.inl (hpast hslices)
        · exact Or.inr (herror hslices (mt (hcompleted hslices) h))
    · have herror := (VirtioBlockDevice.processOne_of_not_serving hnotification
        (fun s ↦ hserving ⟨s⟩) host).1
      rw [herror]
      exact iff_of_true (Or.inr rfl) (by simp)

/-! ## What becomes of a head -/

variable {m}

end BlockMachine

end Rvemu
