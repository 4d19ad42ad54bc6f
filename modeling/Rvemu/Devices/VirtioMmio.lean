import Rvemu.Devices.Plic

/-!
# The VirtIO MMIO transport

The register window shared by all VirtIO devices: identity, feature pages, the status machine, the
per-queue configuration, the notification queue and the interrupt status.  `VirtqueueLayout` is the
immutable snapshot of one queue that the device side works from.
-/

set_option autoImplicit false

namespace Rvemu

/-- A configured split queue as the device sees it. -/
structure VirtqueueLayout where
  size : BitVec 16 := 0#16
  descriptorTable : BitVec 64 := 0#64
  availableRing : BitVec 64 := 0#64
  usedRing : BitVec 64 := 0#64
  ready : Bool := false
  indirectEnabled : Bool := false
  eventIdxEnabled : Bool := false
  deriving DecidableEq, Repr

/-- The devices that have a transport. -/
inductive VirtioDeviceId
  | block | network
  deriving DecidableEq, Repr

def VirtioDeviceId.code : VirtioDeviceId → BitVec 32
  | .block => 2#32
  | .network => 1#32

/-- Exactly one bit is set. -/
def powerOfTwo (value : BitVec 16) : Bool := value != 0#16 && (value &&& (value - 1#16)) == 0#16

/-- The test with one subtraction is exact. -/
theorem powerOfTwo_iff {value : BitVec 16} :
    powerOfTwo value = true ↔ ∃ k, value.toNat = 2 ^ k := by
  by_cases hzero : value = 0#16
  · subst hzero
    exact iff_of_false (by decide) fun ⟨k, hk⟩ ↦ Nat.ne_of_lt (Nat.two_pow_pos k) hk
  · have hpos : value.toNat ≠ 0 := fun hz ↦ hzero (BitVec.eq_of_toNat_eq hz)
    have hsub : (value - 1#16).toNat = value.toNat - 1 := by
      have hlt := value.isLt
      rw [BitVec.toNat_sub]
      simp
      omega
    have hand : (value &&& (value - 1#16)) = 0#16 ↔ value.toNat &&& (value.toNat - 1) = 0 := by
      rw [← BitVec.toNat_inj, BitVec.toNat_and, hsub]
      rfl
    have hboth : powerOfTwo value = true ↔ (value &&& (value - 1#16)) = 0#16 := by
      simp [powerOfTwo, hzero]
    exact hboth.trans (hand.trans (Nat.and_sub_one_eq_zero_iff_isPowerOfTwo hpos))

/-- Nothing is at address 0. -/
def aligned (value alignment : BitVec 64) : Bool := value != 0#64 && value % alignment == 0#64

/-- The immutable identity and limits of a transport, with what its constructor insists on. -/
structure VirtioMmioConfig where
  name : String
  range : AddressRange
  deviceId : VirtioDeviceId
  vendorId : BitVec 32
  deviceFeatures : BitVec 64
  interruptSource : BitVec 32
  queueCount : BitVec 16
  queueSizeMax : BitVec 16
  queueCount_pos : 0 < queueCount.toNat
  queueCount_le : queueCount.toNat ≤ 8
  queueSizeMax_powerOfTwo : powerOfTwo queueSizeMax = true

/-- What the driver has written about a queue. -/
structure QueueState where
  size : BitVec 16 := 0#16
  ready : Bool := false
  descriptorTable : BitVec 64 := 0#64
  availableRing : BitVec 64 := 0#64
  usedRing : BitVec 64 := 0#64
  deriving DecidableEq, Repr

def featureVersion1 : BitVec 64 := 1#64 <<< 32
def featureIndirectDesc : BitVec 64 := 1#64 <<< 28
def featureEventIdx : BitVec 64 := 1#64 <<< 29

namespace VirtioStatus

def acknowledge : BitVec 32 := 1#32
def driver : BitVec 32 := 2#32
def driverOk : BitVec 32 := 4#32
def featuresOk : BitVec 32 := 8#32
def deviceNeedsReset : BitVec 32 := 64#32
def failed : BitVec 32 := 128#32

def knownMask : BitVec 32 :=
  acknowledge ||| driver ||| driverOk ||| featuresOk ||| deviceNeedsReset ||| failed

end VirtioStatus

/-- The registers behind the window, and what counts the resets. -/
structure VirtioMmioTransport where
  config : VirtioMmioConfig
  driverFeatures : BitVec 64 := 0#64
  deviceFeaturesSelector : BitVec 32 := 0#32
  driverFeaturesSelector : BitVec 32 := 0#32
  queueSelector : BitVec 16 := 0#16
  interruptStatus : BitVec 32 := 0#32
  status : BitVec 32 := 0#32
  configGeneration : BitVec 32 := 0#32
  generation : BitVec 64 := 0#64
  queues : Fin 8 → QueueState := fun _ ↦ {}
  notifications : List (BitVec 16) := []

namespace VirtioMmioTransport

/-- Version 1 is always offered. -/
def offeredFeatures (t : VirtioMmioTransport) : BitVec 64 :=
  t.config.deviceFeatures ||| featureVersion1

/-- Take the oldest notification off the queue. -/
def popNotification (t : VirtioMmioTransport) : Option (BitVec 16 × VirtioMmioTransport) :=
  match t.notifications with
  | [] => none
  | queueIndex :: rest => some (queueIndex, { t with notifications := rest })

/-- The cause stays until the driver acknowledges it. -/
def raiseUsedBufferInterrupt (t : VirtioMmioTransport) : VirtioMmioTransport :=
  { t with interruptStatus := t.interruptStatus ||| 1#32 }

/-- The layout snapshot of a queue; an index past the queue count yields the all-zero layout. -/
def queueLayout (t : VirtioMmioTransport) (queueIndex : BitVec 16) : VirtqueueLayout :=
  if h : t.config.queueCount ≤ queueIndex then {}
  else
    let queue := t.queues ⟨queueIndex.toNat, by
      have := t.config.queueCount_le
      rw [BitVec.le_def] at h
      omega⟩
    let acceptedFeatures :=
      if (t.status &&& VirtioStatus.featuresOk) != 0#32 then
        t.driverFeatures &&& t.offeredFeatures
      else 0#64
    { size := queue.size
      descriptorTable := queue.descriptorTable
      availableRing := queue.availableRing
      usedRing := queue.usedRing
      ready := queue.ready
      indirectEnabled := (acceptedFeatures &&& featureIndirectDesc) != 0#64
      eventIdxEnabled := (acceptedFeatures &&& featureEventIdx) != 0#64 }

def invalidAccess (t : VirtioMmioTransport) (offset : BitVec 64) (w : AccessWidth)
    (detail : String) : AccessResult :=
  .failure
    { code := .invalidWidth, address := t.config.range.base + offset,
      length := BitVec.ofNat 64 (widthInBytes w), region := t.config.name, detail }

/-- All registers are aligned words. -/
def validateRegisterAccess (t : VirtioMmioTransport) (offset : BitVec 64) (w : AccessWidth) :
    AccessResult :=
  if w ≠ .word ∨ (offset &&& 3#64) ≠ 0#64 then
    t.invalidAccess offset w "VirtIO MMIO 仅支持自然对齐 32 位寄存器访问"
  else .success

/-- A reset moves the two counters; everything else that can change is as at power-on. -/
def resetLocked (t : VirtioMmioTransport) : VirtioMmioTransport :=
  { t with
    driverFeatures := 0#64
    deviceFeaturesSelector := 0#32
    driverFeaturesSelector := 0#32
    queueSelector := 0#16
    interruptStatus := 0#32
    status := 0#32
    configGeneration := t.configGeneration + 1#32
    generation := t.generation + 1#64
    notifications := []
    queues := fun _ ↦ {} }

/-- 64 features in two pages. -/
def readFeaturePage (features : BitVec 64) (selector : BitVec 32) : BitVec 32 :=
  if selector = 0#32 then features.setWidth 32
  else if selector = 1#32 then (features >>> 32).setWidth 32
  else 0#32

def validQueue (t : VirtioMmioTransport) : Bool := t.queueSelector < t.config.queueCount

/-- The slot the queue registers act on; queue 0 stands in for an invalid selector. -/
def selectedIndex (t : VirtioMmioTransport) : Fin 8 :=
  if t.validQueue then Fin.ofNat 8 t.queueSelector.toNat else 0

/-- Can the selected queue be made ready? -/
def selectedQueueValidLocked (t : VirtioMmioTransport) : Bool :=
  if !t.validQueue then false
  else
    let queue := t.queues t.selectedIndex
    if queue.size = 0#16 || t.config.queueSizeMax < queue.size || !powerOfTwo queue.size then false
    else aligned queue.descriptorTable 16#64 && aligned queue.availableRing 2#64
      && aligned queue.usedRing 4#64

/-- A status with FAILED is stored as it is; otherwise FEATURES_OK and DRIVER_OK are dropped when
their conditions do not hold. -/
def writeStatusLocked (t : VirtioMmioTransport) (value : BitVec 32) : VirtioMmioTransport :=
  if value = 0#32 then t.resetLocked
  else
    let requested := value &&& VirtioStatus.knownMask
    if (requested &&& VirtioStatus.failed) ≠ 0#32 then { t with status := requested }
    else
      let base := VirtioStatus.acknowledge ||| VirtioStatus.driver
      let baseReady := (requested &&& base) == base
      let featureSubset := (t.driverFeatures &&& ~~~t.offeredFeatures) == 0#64
      let modernSelected := (t.driverFeatures &&& featureVersion1) != 0#64
      let requested :=
        if (requested &&& VirtioStatus.featuresOk) != 0#32
            && (!baseReady || !featureSubset || !modernSelected) then
          requested &&& ~~~VirtioStatus.featuresOk
        else requested
      let featuresOk := (requested &&& VirtioStatus.featuresOk) != 0#32
      let requested :=
        if (requested &&& VirtioStatus.driverOk) != 0#32 && (!baseReady || !featuresOk) then
          requested &&& ~~~VirtioStatus.driverOk
        else requested
      { t with status := requested }

def lowHalf (v : BitVec 64) : BitVec 64 := v &&& 0xFFFFFFFF#64
def highHalf (v : BitVec 64) : BitVec 64 := v >>> 32

/-- The queue registers of an invalid selector read as zero. -/
def read (t : VirtioMmioTransport) (offset : BitVec 64) (w : AccessWidth) : AccessResult :=
  let validation := t.validateRegisterAccess offset w
  if !validation.ok then validation
  else
    let queue := t.queues t.selectedIndex
    let onValid (v : BitVec 64) : AccessResult := .success (if t.validQueue then v else 0#64)
    if offset = 0x000#64 then .success 0x74726976#64
    else if offset = 0x004#64 then .success 2#64
    else if offset = 0x008#64 then .success (t.config.deviceId.code.setWidth 64)
    else if offset = 0x00C#64 then .success (t.config.vendorId.setWidth 64)
    else if offset = 0x010#64 then
      .success ((readFeaturePage t.offeredFeatures t.deviceFeaturesSelector).setWidth 64)
    else if offset = 0x034#64 then onValid (t.config.queueSizeMax.setWidth 64)
    else if offset = 0x038#64 then onValid (queue.size.setWidth 64)
    else if offset = 0x044#64 then onValid (if queue.ready then 1#64 else 0#64)
    else if offset = 0x060#64 then .success (t.interruptStatus.setWidth 64)
    else if offset = 0x070#64 then .success (t.status.setWidth 64)
    else if offset = 0x080#64 then onValid (lowHalf queue.descriptorTable)
    else if offset = 0x084#64 then onValid (highHalf queue.descriptorTable)
    else if offset = 0x090#64 then onValid (lowHalf queue.availableRing)
    else if offset = 0x094#64 then onValid (highHalf queue.availableRing)
    else if offset = 0x0A0#64 then onValid (lowHalf queue.usedRing)
    else if offset = 0x0A4#64 then onValid (highHalf queue.usedRing)
    else if offset = 0x0FC#64 then .success (t.configGeneration.setWidth 64)
    else .success 0#64

def writeLow32 (target : BitVec 64) (value : BitVec 32) : BitVec 64 :=
  (target &&& 0xFFFFFFFF00000000#64) ||| value.setWidth 64

def writeHigh32 (target : BitVec 64) (value : BitVec 32) : BitVec 64 :=
  (target &&& 0x00000000FFFFFFFF#64) ||| (value.setWidth 64 <<< 32)

/-- Change the selected queue, which is frozen while it is ready. -/
def configureQueue (t : VirtioMmioTransport) (f : QueueState → QueueState) :
    VirtioMmioTransport :=
  if t.validQueue && !(t.queues t.selectedIndex).ready then
    { t with queues := Function.update t.queues t.selectedIndex (f (t.queues t.selectedIndex)) }
  else t

/-- A queue becomes ready only if it is valid. -/
def writeQueueReady (t : VirtioMmioTransport) (word : BitVec 32) : VirtioMmioTransport :=
  if t.validQueue then
    { t with
      queues := Function.update t.queues t.selectedIndex
        { t.queues t.selectedIndex with
          ready := word != 0#32 && t.selectedQueueValidLocked } }
  else t

/-- A notification for a queue that is not ready is lost. -/
def writeQueueNotify (t : VirtioMmioTransport) (word : BitVec 32) : VirtioMmioTransport :=
  if (t.status &&& VirtioStatus.driverOk) != 0#32
      && word < t.config.queueCount.setWidth 32
      && (t.queues (Fin.ofNat 8 word.toNat)).ready then
    { t with notifications := t.notifications ++ [word.setWidth 16] }
  else t

/-- Only two pages can be written. -/
def writeDriverFeatures (t : VirtioMmioTransport) (word : BitVec 32) : VirtioMmioTransport :=
  if t.driverFeaturesSelector = 0#32 then
    { t with driverFeatures := writeLow32 t.driverFeatures word }
  else if t.driverFeaturesSelector = 1#32 then
    { t with driverFeatures := writeHigh32 t.driverFeatures word }
  else t

/-- Writes to other offsets do nothing. -/
def writeRegister (t : VirtioMmioTransport) (offset : BitVec 64) (word : BitVec 32) :
    VirtioMmioTransport :=
  if offset = 0x014#64 then { t with deviceFeaturesSelector := word }
  else if offset = 0x024#64 then { t with driverFeaturesSelector := word }
  else if offset = 0x020#64 then t.writeDriverFeatures word
  else if offset = 0x030#64 then { t with queueSelector := word.setWidth 16 }
  else if offset = 0x038#64 then
    t.configureQueue fun q ↦ { q with size := word.setWidth 16 }
  else if offset = 0x044#64 then t.writeQueueReady word
  else if offset = 0x050#64 then t.writeQueueNotify word
  else if offset = 0x064#64 then { t with interruptStatus := t.interruptStatus &&& ~~~word }
  else if offset = 0x070#64 then t.writeStatusLocked word
  else if offset = 0x080#64 then
    t.configureQueue fun q ↦ { q with descriptorTable := writeLow32 q.descriptorTable word }
  else if offset = 0x084#64 then
    t.configureQueue fun q ↦ { q with descriptorTable := writeHigh32 q.descriptorTable word }
  else if offset = 0x090#64 then
    t.configureQueue fun q ↦ { q with availableRing := writeLow32 q.availableRing word }
  else if offset = 0x094#64 then
    t.configureQueue fun q ↦ { q with availableRing := writeHigh32 q.availableRing word }
  else if offset = 0x0A0#64 then
    t.configureQueue fun q ↦ { q with usedRing := writeLow32 q.usedRing word }
  else if offset = 0x0A4#64 then
    t.configureQueue fun q ↦ { q with usedRing := writeHigh32 q.usedRing word }
  else t

/-- A refused access changes nothing. -/
def write (t : VirtioMmioTransport) (offset : BitVec 64) (w : AccessWidth) (value : BitVec 64) :
    AccessResult × VirtioMmioTransport :=
  let validation := t.validateRegisterAccess offset w
  if !validation.ok then (validation, t)
  else (.success, t.writeRegister offset (value.setWidth 32))

def compareExchange (t : VirtioMmioTransport) (offset : BitVec 64) (w : AccessWidth) :
    AccessResult :=
  t.invalidAccess offset w "VirtIO MMIO 不支持原子访问"

/-! ### No register write changes the identity of the transport -/

theorem config_configureQueue (t : VirtioMmioTransport) (f : QueueState → QueueState) :
    (t.configureQueue f).config = t.config := by
  rw [configureQueue]; split <;> rfl

theorem config_writeQueueReady (t : VirtioMmioTransport) (v : BitVec 32) :
    (t.writeQueueReady v).config = t.config := by
  rw [writeQueueReady]; split <;> rfl

theorem config_writeQueueNotify (t : VirtioMmioTransport) (v : BitVec 32) :
    (t.writeQueueNotify v).config = t.config := by
  rw [writeQueueNotify]; split <;> rfl

theorem config_writeDriverFeatures (t : VirtioMmioTransport) (v : BitVec 32) :
    (t.writeDriverFeatures v).config = t.config := by
  rw [writeDriverFeatures]
  split
  · rfl
  · split <;> rfl

theorem config_writeStatusLocked (t : VirtioMmioTransport) (v : BitVec 32) :
    (t.writeStatusLocked v).config = t.config := by
  rw [writeStatusLocked]
  split
  · rfl
  · dsimp only
    split <;> rfl

theorem config_writeRegister (t : VirtioMmioTransport) (o : BitVec 64) (v : BitVec 32) :
    (t.writeRegister o v).config = t.config := by
  rw [writeRegister]
  simp only [apply_ite config, config_configureQueue, config_writeQueueReady,
    config_writeQueueNotify, config_writeDriverFeatures, config_writeStatusLocked, ite_self]

theorem config_write (t : VirtioMmioTransport) (o : BitVec 64) (w : AccessWidth)
    (v : BitVec 64) : (t.write o w v).2.config = t.config := by
  simp only [write]
  split
  · rfl
  · exact t.config_writeRegister o _

end VirtioMmioTransport

end Rvemu
