import Rvemu.Bus.Component
import Rvemu.Devices.Virtqueue
import Rvemu.Platform.DiskBackend

/-!
# The VirtIO block device

One call of `processOne` pops one notification and serves one request: the head is taken from the
available ring, its chain is parsed, the data goes from the guest to the disk or back, the status
byte is written, and the used element is published.  Everything between the notification and the
interrupt is the dialogue `request`, so the accesses it makes can be spoken of.
-/

set_option autoImplicit false

namespace Rvemu

inductive VirtioBlockProcessStatus
  | noNotification | completed | queueError
  deriving DecidableEq, Repr

structure RequestHeader where
  type : BitVec 32 := 0#32
  sector : BitVec 64 := 0#64
  deriving DecidableEq, Repr

/-- The host's answers to the file calls of one request. -/
structure HostDisk where
  pread : ℕ → HostIo
  pwrite : ℕ → HostIo

structure VirtioBlockDevice where
  disk : DiskBackend
  queueRuntime : VirtqueueRuntimeState := {}
  observedTransportGeneration : BitVec 64 := 0#64

namespace VirtioBlockDevice

def requestIn : BitVec 32 := 0#32
def requestOut : BitVec 32 := 1#32
def statusOk : BitVec 8 := 0#8
def statusIoError : BitVec 8 := 1#8
def statusUnsupported : BitVec 8 := 2#8

def sectorRangeValid (sector byteCount capacitySectors : BitVec 64) : Bool :=
  let sectorCount := (byteCount + sectorSize - 1#64) / sectorSize
  !addOverflows sector sectorCount && sector + sectorCount ≤ capacitySectors

/-! ## Transfers -/

def readHeader (segment : VirtqueueSegment) : Dma (Option RequestHeader) :=
  if segment.deviceWrites || segment.length < 16#32 then pure none
  else do
    let type ← Dma.read segment.address .word
    let sector ← Dma.read (segment.address + 8#64) .doubleWord
    if !type.ok || !sector.ok then pure none
    else pure (some { type := type.value.setWidth 32, sector := sector.value })

/-- `remaining` bytes from `index` on, after `output`. -/
def copyFromGuestFrom (address : BitVec 64) :
    ℕ → ℕ → List (BitVec 8) → Dma (Option (List (BitVec 8)))
  | 0, _, output => pure (some output)
  | remaining + 1, index, output => do
    let byte ← Dma.read (address + BitVec.ofNat 64 index) .byte
    if !byte.ok then pure none
    else copyFromGuestFrom address remaining (index + 1) (output ++ [byte.value.setWidth 8])

/-- The bytes of a segment; what was copied before a failure is not used. -/
def copyFromGuest (segment : VirtqueueSegment) : Dma (Option (List (BitVec 8))) :=
  if segment.deviceWrites then pure none
  else copyFromGuestFrom segment.address segment.length.toNat 0 []

def copyToGuestFrom (address : BitVec 64) : ℕ → List (BitVec 8) → Dma Bool
  | _, [] => pure true
  | index, byte :: input => do
    let written ← Dma.write (address + BitVec.ofNat 64 index) .byte (byte.setWidth 64)
    if !written.ok then pure false else copyToGuestFrom address (index + 1) input

def copyToGuest (segment : VirtqueueSegment) (input : List (BitVec 8)) : Dma Bool :=
  if !segment.deviceWrites || segment.length.toNat != input.length then pure false
  else copyToGuestFrom segment.address 0 input

def writeStatus (segment : VirtqueueSegment) (status : BitVec 8) : Dma Bool :=
  if !segment.deviceWrites || segment.length < 1#32 then pure false
  else do
    let written ← Dma.write segment.address .byte (status.setWidth 64)
    pure written.ok

/-! ## One request -/

/-- The loop that assembles the buffer; a segment of the wrong direction or a failed copy empties it
and ends the loop. -/
def gather (type : BitVec 32) : List VirtqueueSegment → List (BitVec 8) → Dma (List (BitVec 8))
  | [], data => pure data
  | segment :: rest, data =>
    if (type == requestIn && !segment.deviceWrites) || (type == requestOut && segment.deviceWrites)
    then pure []
    else if type == requestOut then do
      match ← copyFromGuest segment with
      | none => pure []
      | some part => gather type rest (data ++ part)
    else gather type rest (data ++ List.replicate segment.length.toNat 0#8)

/-- The slice from `offset` on.  There is none past the end of the buffer: copying from there is
undefined, and ends the process. -/
def slice (data : List (BitVec 8)) (offset length : ℕ) : Option (List (BitVec 8)) :=
  if offset + length ≤ data.length then some ((data.drop offset).take length) else none

/-- The loop that hands the buffer out, with its status, or `none` when it does not end. -/
def scatter (data : List (BitVec 8)) : List VirtqueueSegment → ℕ → Dma (Option (BitVec 8))
  | [], _ => pure (some statusOk)
  | segment :: rest, offset =>
    match slice data offset segment.length.toNat with
    | none => pure none
    | some part => do
      if !(← copyToGuest segment part) then pure (some statusIoError)
      else scatter data rest (offset + segment.length.toNat)

/-- What a request leaves to be reported, if all its slices lie in the buffer. -/
structure RequestOutcome where
  status : BitVec 8 := statusIoError
  usedLength : BitVec 32 := 1#32
  disk : DiskBackend
  slicesInBounds : Bool := true

/-- What a read leaves once the loop that hands the buffer out is over. -/
def handedOut (disk : DiskBackend) (data : List (BitVec 8)) : Option (BitVec 8) → RequestOutcome
  | none => { disk, slicesInBounds := false }
  | some status =>
    { status
      usedLength := if status == statusOk then 1#32 + BitVec.ofNat 32 data.length else 1#32
      disk }

@[simp] theorem disk_handedOut (disk : DiskBackend) (data : List (BitVec 8))
    (status : Option (BitVec 8)) : (handedOut disk data status).disk = disk := by
  cases status <;> rfl

/-- The disk access of a request whose buffer is assembled. -/
def transfer (disk : DiskBackend) (host : HostDisk) (header : RequestHeader)
    (middle : List VirtqueueSegment) (data : List (BitVec 8)) : Dma RequestOutcome :=
  if !sectorRangeValid header.sector (BitVec.ofNat 64 data.length) disk.capacitySectors then
    pure { disk }
  else if header.type == requestOut then
    let written := disk.write host.pwrite header.sector data
    pure { status := if written.1.ok then statusOk else statusIoError, disk := written.2 }
  else
    let read := disk.read host.pread header.sector data
    if !read.1.ok then pure { disk }
    else do
      let scattered ← scatter read.2 middle 0
      pure (handedOut disk read.2 scattered)

/-- The segments between the header and the status. -/
def middle (segments : List VirtqueueSegment) : List VirtqueueSegment := segments.tail.dropLast

/-- What a request with a readable header does before its status is written. -/
def serve (disk : DiskBackend) (host : HostDisk) (header : RequestHeader)
    (segments : List VirtqueueSegment) : Dma RequestOutcome :=
  if header.type != requestIn && header.type != requestOut then
    pure { status := statusUnsupported, disk }
  else do
    let data ← gather header.type (middle segments) []
    if !data.isEmpty || segments.length == 3 then transfer disk host header (middle segments) data
    else pure { disk }

/-- Write the status byte and publish the used element; a request that slices past its buffer has
killed the process before that, and the call has no result. -/
def complete (device : VirtioBlockDevice) (layout : VirtqueueLayout) (head : BitVec 16)
    (statusSegment : VirtqueueSegment) (outcome : RequestOutcome) :
    Dma (Option VirtioBlockProcessStatus × VirtioBlockDevice) := do
  let device := { device with disk := outcome.disk }
  if !outcome.slicesInBounds then pure (none, device)
  else if !(← writeStatus statusSegment outcome.status) then pure (some .queueError, device)
  else do
    let published ← device.queueRuntime.publishUsed layout (head.setWidth 32) outcome.usedLength
    let device := { device with queueRuntime := published.2 }
    if published.1 ≠ .none then pure (some .queueError, device)
    else pure (some .completed, device)

/-- Serve a chain that was parsed. -/
def handle (device : VirtioBlockDevice) (host : HostDisk) (layout : VirtqueueLayout)
    (head : BitVec 16) (segments : List VirtqueueSegment) :
    Dma (Option VirtioBlockProcessStatus × VirtioBlockDevice) :=
  if segments.length < 3 then pure (some .queueError, device)
  else do
    let headerSegment := segments.headD {}
    let statusSegment := segments.getLastD {}
    match ← readHeader headerSegment with
    | none => pure (some .queueError, device)
    | some header =>
      if !statusSegment.deviceWrites || statusSegment.length < 1#32 then
        pure (some .queueError, device)
      else do
        let outcome ← serve device.disk host header segments
        complete device layout head statusSegment outcome

/-- The part of `process_one` after the notification, on the layout of its queue. -/
def request (device : VirtioBlockDevice) (host : HostDisk) (layout : VirtqueueLayout) :
    Dma (Option VirtioBlockProcessStatus × VirtioBlockDevice) := do
  let available ← device.queueRuntime.consumeAvailable layout
  let device := { device with queueRuntime := available.2 }
  if !available.1.ok || available.1.pendingCount == 0#16 then pure (some .queueError, device)
  else do
    let parsed ← parseDescriptorChain layout available.1.head
    if !parsed.ok then pure (some .queueError, device)
    else handle device host layout available.1.head parsed.segments

def synchronizeQueueGeneration (device : VirtioBlockDevice) (currentGeneration : BitVec 64) :
    VirtioBlockDevice :=
  if currentGeneration = device.observedTransportGeneration then device
  else
    { device with
      observedTransportGeneration := currentGeneration
      queueRuntime := device.queueRuntime.reset }

end VirtioBlockDevice

/-! ## The transport of the device -/

namespace Bus

def transport (b : Bus) : Option VirtioMmioTransport := b.component .transport

def dropNotification (b : Bus) : Bus :=
  b.update .transport (fun t ↦ { t with notifications := t.notifications.tail }) fun _ ↦ rfl

def raiseUsedBufferInterrupt (b : Bus) : Bus :=
  b.update .transport VirtioMmioTransport.raiseUsedBufferInterrupt fun _ ↦ rfl

end Bus

namespace VirtioBlockDevice

/-- The dialogue a notification leads to, and the bus it starts on; `none` is a call that does not
return. -/
def processOne (device : VirtioBlockDevice) (host : HostDisk) (bus : Bus) :
    Option VirtioBlockProcessStatus × VirtioBlockDevice × Bus :=
  match bus.transport.bind VirtioMmioTransport.popNotification with
  | none => (some .noNotification, device, bus)
  | some (queueIndex, transport) =>
    let layout := transport.queueLayout queueIndex
    let device := device.synchronizeQueueGeneration transport.generation
    let served := (device.request host layout).run Bus.dma bus.dropNotification
    (served.1.1, served.1.2,
      if served.1.1 = some .completed then served.2.raiseUsedBufferInterrupt else served.2)

/-! ## The course of a call -/

/-- The call finds a notification and a head, parses a chain of three segments or more with a header
and a place for the status, and is about to serve it: `b` is the bus it has then, and `runtime` the
ring indices of the device. -/
structure Serving (start : VirtioBlockDevice) (bus : Bus) where
  queueIndex : BitVec 16
  transport : VirtioMmioTransport
  runtime : VirtqueueRuntimeState
  available : VirtqueueAvailableResult
  consumedBus : Bus
  parsed : VirtqueueParseResult
  parsedBus : Bus
  header : RequestHeader
  b : Bus
  popped : bus.transport.bind VirtioMmioTransport.popNotification = some (queueIndex, transport)
  consumed_eq :
    ((start.synchronizeQueueGeneration transport.generation).queueRuntime.consumeAvailable
      (transport.queueLayout queueIndex)).run Bus.dma bus.dropNotification =
      ((available, runtime), consumedBus)
  available_ok : available.ok = true ∧ available.pendingCount ≠ 0#16
  parsed_eq : (parseDescriptorChain (transport.queueLayout queueIndex) available.head).run Bus.dma
    consumedBus = (parsed, parsedBus)
  parsed_ok : parsed.ok = true ∧ ¬ parsed.segments.length < 3
  header_eq : (readHeader (parsed.segments.headD {})).run Bus.dma parsedBus = (some header, b)
  status_ok : (parsed.segments.getLastD {}).deviceWrites = true ∧
    ¬ (parsed.segments.getLastD {}).length < 1#32

namespace Serving

variable {start : VirtioBlockDevice} {bus : Bus} (s : Serving start bus)

def layout : VirtqueueLayout := s.transport.queueLayout s.queueIndex

def head : BitVec 16 := s.available.head

def segments : List VirtqueueSegment := s.parsed.segments

def statusSegment : VirtqueueSegment := s.segments.getLastD {}

def device : VirtioBlockDevice :=
  { start.synchronizeQueueGeneration s.transport.generation with queueRuntime := s.runtime }

/-- The rest of the call. -/
def rest (host : HostDisk) : Dma (Option VirtioBlockProcessStatus × VirtioBlockDevice) := do
  let outcome ← serve s.device.disk host s.header s.segments
  complete s.device s.layout s.head s.statusSegment outcome

/-- The accesses made so far. -/
def before : List DmaRequest :=
  ((start.synchronizeQueueGeneration s.transport.generation).queueRuntime.consumeAvailable
      s.layout).calls Bus.dma bus.dropNotification ++
    ((parseDescriptorChain s.layout s.head).calls Bus.dma s.consumedBus ++
      (readHeader (s.segments.headD {})).calls Bus.dma s.parsedBus)

theorem request_eq (host : HostDisk) :
    ((start.synchronizeQueueGeneration s.transport.generation).request host s.layout).run Bus.dma
        bus.dropNotification = (s.rest host).run Bus.dma s.b ∧
      ((start.synchronizeQueueGeneration s.transport.generation).request host
        s.layout).calls Bus.dma
        bus.dropNotification = s.before ++ (s.rest host).calls Bus.dma s.b := by
  have havailable : (!s.available.ok || s.available.pendingCount == 0#16) = false := by
    simp [s.available_ok]
  have hstatus : (!(s.parsed.segments.getLastD {}).deviceWrites ||
      decide ((s.parsed.segments.getLastD {}).length < 1#32)) = false := by
    rw [s.status_ok.1, decide_eq_false s.status_ok.2]
    rfl
  constructor
  · simp only [request, layout, Dialogue.run_bind, s.consumed_eq, havailable, s.parsed_eq,
      s.parsed_ok.1,
      s.parsed_ok.2, handle, s.header_eq, hstatus, rest, head, segments, statusSegment, device,
      Bool.not_true, Bool.false_eq_true, if_false]
  · simp only [request, layout, before, Dialogue.calls_bind, s.consumed_eq, havailable, s.parsed_eq,
      s.parsed_ok.1, s.parsed_ok.2, handle, s.header_eq, hstatus, rest, head, segments,
      statusSegment,
      device, Bool.not_true, Bool.false_eq_true, if_false, List.append_assoc]

/-- The call ends as the rest of it does. -/
theorem processOne_eq (host : HostDisk) :
    start.processOne host bus =
      let done := (s.rest host).run Bus.dma s.b
      (done.1.1, done.1.2,
        if done.1.1 = some .completed then done.2.raiseUsedBufferInterrupt else done.2) := by
  have hrun := (s.request_eq host).1
  rw [layout] at hrun
  rw [processOne, s.popped]
  dsimp only
  rw [hrun]

@[simp] theorem disk_device : s.device.disk = start.disk := by
  rw [device, synchronizeQueueGeneration]
  split <;> rfl

end Serving

/-- The course of a call as far as serving, if it gets there. -/
def serving? (start : VirtioBlockDevice) (bus : Bus) : Option (Serving start bus) :=
  match hpop : bus.transport.bind VirtioMmioTransport.popNotification with
  | none => none
  | some (queueIndex, transport) =>
    let layout := transport.queueLayout queueIndex
    match hconsumed : ((start.synchronizeQueueGeneration
        transport.generation).queueRuntime.consumeAvailable layout).run Bus.dma
        bus.dropNotification with
    | ((available, runtime), consumedBus) =>
      if havailable : available.ok = true ∧ available.pendingCount ≠ 0#16 then
        match hparsed : (parseDescriptorChain layout available.head).run Bus.dma consumedBus with
        | (parsed, parsedBus) =>
          if hok : parsed.ok = true ∧ ¬ parsed.segments.length < 3 then
            match hheader : (readHeader (parsed.segments.headD {})).run Bus.dma parsedBus with
            | (none, _) => none
            | (some header, b) =>
              if hstatus : (parsed.segments.getLastD {}).deviceWrites = true ∧
                  ¬ (parsed.segments.getLastD {}).length < 1#32 then
                some ⟨queueIndex, transport, runtime, available, consumedBus, parsed,
                  parsedBus, header,
                  b, hpop, hconsumed, havailable, hparsed, hok, hheader, hstatus⟩
              else none
          else none
      else none

/-- When no course is found, there is none. -/
theorem not_serving_of_eq_none {start : VirtioBlockDevice} {bus : Bus}
    (h : serving? start bus = none) : Serving start bus → False := by
  rintro ⟨queueIndex, transport, runtime, available, consumedBus, parsed, parsedBus,
    header, b, hpop,
    hconsumed, havailable, hparsed, hok, hheader, hstatus⟩
  obtain ⟨hresult, rfl⟩ := Prod.ext_iff.1 hconsumed
  obtain ⟨rfl, rfl⟩ := Prod.ext_iff.1 hresult
  obtain ⟨rfl, rfl⟩ := Prod.ext_iff.1 hparsed
  rw [serving?] at h
  split at h
  · next hnone =>
    rw [hpop] at hnone
    cases hnone
  · next hsome =>
    rw [hpop] at hsome
    cases hsome
    dsimp only at h
    rw [dif_pos havailable, dif_pos hok] at h
    split at h
    · next hnone =>
      rw [hheader] at hnone
      cases hnone
    · rw [dif_pos hstatus] at h
      cases h

/-- A notification whose call does not get as far as serving ends in a queue error, and the disk is
not touched. -/
theorem processOne_of_not_serving {start : VirtioBlockDevice} {bus : Bus} {queueIndex : BitVec 16}
    {transport : VirtioMmioTransport}
    (hpop : bus.transport.bind VirtioMmioTransport.popNotification = some (queueIndex, transport))
    (h : Serving start bus → False) (host : HostDisk) :
    (start.processOne host bus).1 = some .queueError ∧
      (start.processOne host bus).2.1.disk = start.disk := by
  have hdisk : (start.synchronizeQueueGeneration transport.generation).disk = start.disk := by
    rw [synchronizeQueueGeneration]
    split <;> rfl
  rw [processOne, hpop]
  simp only [request, Dialogue.run_bind]
  cases hconsumed : ((start.synchronizeQueueGeneration
    transport.generation).queueRuntime.consumeAvailable
    (transport.queueLayout queueIndex)).run Bus.dma
    bus.dropNotification with
  | mk consumed consumedBus =>
  obtain ⟨available, runtime⟩ := consumed
  by_cases havailable : available.ok = true ∧ available.pendingCount ≠ 0#16
  · cases hparsed : (parseDescriptorChain (transport.queueLayout queueIndex)
      available.head).run Bus.dma
      consumedBus with
    | mk parsed parsedBus =>
    by_cases hok : parsed.ok = true
    · by_cases hlength : parsed.segments.length < 3
      · simp [havailable, hparsed, hok, handle, hlength, hdisk]
      · cases hheader : (readHeader (parsed.segments.headD {})).run Bus.dma parsedBus with
        | mk header b =>
        cases header with
        | none =>
          simp only [havailable, hparsed, hok, handle, hlength, hheader, Dialogue.run_bind, hdisk,
            Dialogue.run_pure, Bool.not_true, Bool.false_or, beq_iff_eq,
            Bool.false_eq_true, if_false,
            and_self]
        | some header =>
          by_cases hstatus : (parsed.segments.getLastD {}).deviceWrites = true ∧
              ¬ (parsed.segments.getLastD {}).length < 1#32
          · exact (h ⟨queueIndex, transport, runtime, available, consumedBus, parsed,
              parsedBus, header,
              b, hpop, hconsumed, havailable, hparsed, ⟨hok, hlength⟩, hheader, hstatus⟩).elim
          · have hbad : (!(parsed.segments.getLastD {}).deviceWrites ||
                decide ((parsed.segments.getLastD {}).length < 1#32)) = true := by
              rw [Bool.or_eq_true, Bool.not_eq_true', decide_eq_true_iff]
              by_contra hno
              rw [not_or, Bool.not_eq_false] at hno
              exact hstatus hno
            simp only [havailable, hparsed, hok, handle, hlength, hheader, Dialogue.run_bind,
              hdisk, hbad,
              Dialogue.run_pure, Bool.not_true, Bool.false_or, beq_iff_eq,
                Bool.false_eq_true, if_false,
              if_true, and_self]
    · simp [havailable, hparsed, hok, hdisk]
  · have hbad : (!available.ok || available.pendingCount == 0#16) = true := by
      by_contra hno
      simp at hno
      exact havailable hno
    simp only [hbad, if_true, Dialogue.run_pure, hdisk, and_self]

end VirtioBlockDevice

/-! ## A small machine

The transport of the block device as the machine configures it, and a queue of four entries in a few
bytes of RAM; the witnesses and counterexamples below are requests in it. -/

def blockTransportConfig : VirtioMmioConfig where
  name := "virtio-block"
  range := ⟨0x10001000#64, 0x1000#64, by decide, by decide⟩
  deviceId := .block
  vendorId := 0x554D4552#32
  deviceFeatures := 0#64
  interruptSource := 1#32
  queueCount := 1#16
  queueSizeMax := 8#16
  queueCount_pos := by decide
  queueCount_le := by decide
  queueSizeMax_powerOfTwo := by decide

namespace SmallMachine

def wordBytes (n : ℕ) (v : BitVec 64) : List (BitVec 8) := (List.range n).map (Bytes.splitByte v)

def descriptorBytes (d : RawDescriptor) : List (BitVec 8) :=
  wordBytes 8 d.address ++ wordBytes 4 (d.length.setWidth 64) ++ wordBytes 2 (d.flags.setWidth 64)
    ++ wordBytes 2 (d.next.setWidth 64)

/-- Four descriptors, the available ring at 0x40, the used ring at 0x50, a header at 0x80, 16 bytes
of data at 0x90 and of room for the status at 0xA0. -/
def memoryBytes (d₀ d₁ d₂ d₃ : RawDescriptor) (idx : BitVec 16) (header : RequestHeader) :
    List (BitVec 8) :=
  descriptorBytes d₀ ++ descriptorBytes d₁ ++ descriptorBytes d₂ ++ descriptorBytes d₃
    ++ wordBytes 2 0#64 ++ wordBytes 2 (idx.setWidth 64) ++ wordBytes 8 0#64 ++ wordBytes 4 0#64
    ++ List.replicate 48 0#8
    ++ wordBytes 8 (header.type.setWidth 64) ++ wordBytes 8 header.sector
    ++ List.replicate 16 7#8 ++ List.replicate 16 0xFF#8

theorem length_memoryBytes (d₀ d₁ d₂ d₃ : RawDescriptor) (idx : BitVec 16)
    (header : RequestHeader) :
    (memoryBytes d₀ d₁ d₂ d₃ idx header).length = 176 := by
  simp [memoryBytes, descriptorBytes, wordBytes]

def memory (d₀ d₁ d₂ d₃ : RawDescriptor) (idx : BitVec 16) (header : RequestHeader) :
    PhysicalMemory where
  range := ⟨0x80000000#64, 176#64, by decide, by decide⟩
  bytes := memoryBytes d₀ d₁ d₂ d₃ idx header
  size_eq := length_memoryBytes d₀ d₁ d₂ d₃ idx header

/-- The queue is ready and the driver has sent notifications for it. -/
def transport (notifications : List (BitVec 16)) : VirtioMmioTransport where
  config := blockTransportConfig
  driverFeatures := featureVersion1
  status := 15#32
  queues _ :=
    { size := 4#16, ready := true, descriptorTable := 0x80000000#64, availableRing := 0x80000040#64
      usedRing := 0x80000050#64 }
  notifications

def bus (m : PhysicalMemory) (hm : m.range.base = 0x80000000#64)
    (notifications : List (BitVec 16)) : Bus where
  regions := [.virtio (transport notifications), .ram m]
  apart := by
    rw [List.pairwise_pair, AddressRegion.Apart, AddressRange.overlaps, Bool.and_eq_false_iff]
    refine Or.inr ?_
    rw [show (AddressRegion.ram m).range.base = 0x80000000#64 from hm]
    show decide (0x80000000#64 < blockTransportConfig.range.endExclusive) = false
    decide

def headerDescriptor : RawDescriptor :=
  { address := 0x80000080#64, length := 16#32, flags := 1#16, next := 1#16 }

/-- The data, or a part of it. -/
def dataDescriptor (flags next : BitVec 16) : RawDescriptor :=
  { address := 0x80000090#64, length := 4#32, flags, next }

def statusDescriptor : RawDescriptor :=
  { address := 0x800000A0#64, length := 1#32, flags := 2#16, next := 0#16 }

/-- One request of three segments: header, data and status. -/
def requestMemory (dataFlags : BitVec 16) (header : RequestHeader) : PhysicalMemory :=
  memory headerDescriptor (dataDescriptor dataFlags 2#16) statusDescriptor {} 1#16 header

/-- A disk of one sector. -/
def device : VirtioBlockDevice where
  disk :=
    { isOpen := true, writable := true, capacitySectors := 1#64, image := List.replicate 512 0#8
      size_eq := fun _ ↦ by rw [List.length_replicate]; rfl
      fits := by rw [List.length_replicate]; decide }

/-- A host that transfers all it is asked for. -/
def host : HostDisk where
  pread _ := .bytes 512
  pwrite _ := .bytes 512

theorem serves : DiskBackend.Serves host.pread ∧ DiskBackend.Serves host.pwrite :=
  ⟨fun _ ↦ ⟨512, by decide, rfl⟩, fun _ ↦ ⟨512, by decide, rfl⟩⟩

end SmallMachine

end Rvemu
