import Rvemu.Devices.QueueConfiguration
import Rvemu.Devices.VirtioBlock

/-!
# The device status

The driver negotiates through the status register: the transport refuses FEATURES_OK for features it
did not offer and DRIVER_OK without FEATURES_OK, and takes notifications only under DRIVER_OK.  Four
kinds of writes get around this.  A status with FAILED is stored as it is, with whatever else the
write sets; DEVICE_NEEDS_RESET stops nothing; the features are not looked at again when they change
after FEATURES_OK; and a notification that waits while DRIVER_OK is taken away is served all the
same.

`Orderly` leaves these writes out, and `status_machine` shows that nothing else breaks the rules.
-/

set_option autoImplicit false

namespace Rvemu

namespace VirtioStatus

/-- The four bits of a driver that is done with the negotiation. -/
def negotiated : BitVec 32 := acknowledge ||| driver ||| featuresOk ||| driverOk

/-- A bit that is cleared unless it is allowed. -/
def clearUnless (x bit : BitVec 32) (allowed : Bool) : BitVec 32 :=
  if (x &&& bit) != 0#32 && !allowed then x &&& ~~~bit else x

variable {x bit mask : BitVec 32} {allowed : Bool}

theorem clearUnless_and_of_disjoint (h : ~~~bit &&& mask = mask) :
    clearUnless x bit allowed &&& mask = x &&& mask := by
  rw [clearUnless]
  split
  · rw [BitVec.and_assoc, h]
  · rfl

theorem clearUnless_and_ne_zero_iff :
    clearUnless x bit allowed &&& bit ≠ 0#32 ↔ allowed = true ∧ x &&& bit ≠ 0#32 := by
  rw [clearUnless]
  cases allowed with
  | true => rw [Bool.not_true, Bool.and_false, if_neg Bool.false_ne_true, and_iff_right rfl]
  | false =>
    rw [Bool.not_false, Bool.and_true]
    refine iff_of_false ?_ fun h ↦ Bool.false_ne_true h.1
    split
    · rw [BitVec.and_assoc, BitVec.not_and_self]
      exact not_not.2 BitVec.and_zero
    · next hzero => exact fun hne ↦ hzero (bne_iff_ne.2 hne)

theorem and_or_eq_iff {a b : BitVec 32} :
    x &&& (a ||| b) = a ||| b ↔ x &&& a = a ∧ x &&& b = b := by
  simp only [BitVec.eq_of_getLsbD_eq_iff, BitVec.getLsbD_and, BitVec.getLsbD_or]
  grind

theorem and_eq_iff_ne_zero {i : ℕ} (hi : i < 32) (h : bit = BitVec.twoPow 32 i) :
    x &&& bit = bit ↔ x &&& bit ≠ 0#32 := by
  have hbit : BitVec.twoPow 32 i ≠ 0#32 := fun hzero ↦ by
    have := congrArg (·.getLsbD i) hzero
    rw [BitVec.getLsbD_twoPow] at this
    simp [hi] at this
  rw [h, BitVec.and_twoPow]
  split
  · exact ⟨fun _ ↦ hbit, fun _ ↦ rfl⟩
  · exact ⟨fun hzero ↦ absurd hzero.symm hbit, fun hne ↦ absurd rfl hne⟩

theorem and_base_eq_iff : x &&& (acknowledge ||| driver) = acknowledge ||| driver ↔
    x &&& acknowledge ≠ 0#32 ∧ x &&& driver ≠ 0#32 := by
  rw [and_or_eq_iff, and_eq_iff_ne_zero (i := 0) (by decide) (by decide),
    and_eq_iff_ne_zero (i := 1) (by decide) (by decide)]

theorem and_negotiated_eq_iff : x &&& negotiated = negotiated ↔
    ((x &&& acknowledge ≠ 0#32 ∧ x &&& driver ≠ 0#32) ∧ x &&& featuresOk ≠ 0#32) ∧
      x &&& driverOk ≠ 0#32 := by
  rw [negotiated, and_or_eq_iff, and_or_eq_iff, and_base_eq_iff,
    and_eq_iff_ne_zero (i := 3) (by decide) (by decide),
    and_eq_iff_ne_zero (i := 2) (by decide) (by decide)]

/-- What the two checks leave of a status. -/
def checkedStatus (word : BitVec 32) (baseReady proper : Bool) : BitVec 32 :=
  let accepted := clearUnless (word &&& knownMask) featuresOk (baseReady && proper)
  clearUnless accepted driverOk (baseReady && (accepted &&& featuresOk) != 0#32)

variable {word : BitVec 32} {baseReady proper : Bool}

theorem checkedStatus_and (hdriverOk : ~~~driverOk &&& mask = mask)
    (hfeaturesOk : ~~~featuresOk &&& mask = mask) (hknown : knownMask &&& mask = mask) :
    checkedStatus word baseReady proper &&& mask = word &&& mask := by
  rw [checkedStatus, clearUnless_and_of_disjoint hdriverOk, clearUnless_and_of_disjoint hfeaturesOk,
    BitVec.and_assoc, hknown]

theorem accepted_featuresOk_iff {allowed : Bool} :
    clearUnless (word &&& knownMask) featuresOk allowed &&& featuresOk ≠ 0#32 ↔
      allowed = true ∧ word &&& featuresOk ≠ 0#32 := by
  rw [clearUnless_and_ne_zero_iff, BitVec.and_assoc,
    show knownMask &&& featuresOk = featuresOk by decide]

theorem checkedStatus_featuresOk_iff :
    checkedStatus word baseReady proper &&& featuresOk ≠ 0#32 ↔
      (baseReady = true ∧ proper = true) ∧ word &&& featuresOk ≠ 0#32 := by
  rw [checkedStatus, clearUnless_and_of_disjoint (by decide), accepted_featuresOk_iff,
    Bool.and_eq_true]

theorem checkedStatus_driverOk_iff :
    checkedStatus word baseReady proper &&& driverOk ≠ 0#32 ↔
      ((baseReady = true ∧ proper = true) ∧ word &&& featuresOk ≠ 0#32) ∧
      word &&& driverOk ≠ 0#32 := by
  rw [checkedStatus, clearUnless_and_ne_zero_iff, Bool.and_eq_true, bne_iff_ne,
    accepted_featuresOk_iff,
    Bool.and_eq_true, clearUnless_and_of_disjoint (by decide), BitVec.and_assoc,
    show knownMask &&& driverOk = driverOk by decide]
  exact and_congr_left fun _ ↦ and_iff_right_of_imp fun h ↦ h.1.1

end VirtioStatus

namespace VirtioMmioTransport

open VirtioStatus

/-- The features the driver accepted are ones that were offered, VERSION_1 among them. -/
def FeaturesProper (t : VirtioMmioTransport) : Prop :=
  t.driverFeatures &&& ~~~t.offeredFeatures = 0#64 ∧ t.driverFeatures &&& featureVersion1 ≠ 0#64

instance (t : VirtioMmioTransport) : Decidable t.FeaturesProper :=
  inferInstanceAs (Decidable (_ ∧ _))

/-- The driver is ready and nothing has failed. -/
def Active (t : VirtioMmioTransport) : Prop :=
  t.status &&& driverOk ≠ 0#32 ∧ t.status &&& failed = 0#32 ∧ t.status &&& deviceNeedsReset = 0#32

/-- The rules of the status register. -/
structure StatusRules (t : VirtioMmioTransport) : Prop where
  driverOk : t.status &&& driverOk ≠ 0#32 → t.status &&& acknowledge ≠ 0#32 ∧
    t.status &&& driver ≠ 0#32 ∧ t.status &&& featuresOk ≠ 0#32
  featuresOk : t.status &&& featuresOk ≠ 0#32 → t.FeaturesProper
  /-- A notification is accepted under DRIVER_OK only. -/
  notify : ∀ w value, (t.event (.write 0x050#64 w value)).notifications ≠ t.notifications → t.Active
  /-- A call of the device that does anything at all does it under DRIVER_OK. -/
  serve : ∀ (device : VirtioBlockDevice) (host : HostDisk) (bus : Bus), bus.transport = some t →
    device.processOne host bus ≠ (some .noNotification, device, bus) → t.Active

/-- What an orderly driver writes to the status register: no DRIVER_OK and no unchecked FEATURES_OK
goes with FAILED, a driver that is ready does not ask for a reset, and it stays ready while
notifications are waiting. -/
structure OrderlyStatus (t : VirtioMmioTransport) (word : BitVec 32) : Prop where
  failed : word &&& failed ≠ 0#32 →
    word &&& driverOk = 0#32 ∧ (word &&& featuresOk ≠ 0#32 → t.FeaturesProper)
  deviceNeedsReset : word &&& deviceNeedsReset ≠ 0#32 →
    ¬ (word &&& negotiated = negotiated ∧ t.FeaturesProper)
  waiting : t.notifications ≠ [] → word &&& negotiated = negotiated

instance (t : VirtioMmioTransport) (word : BitVec 32) : Decidable (t.OrderlyStatus word) :=
  decidable_of_iff ((word &&& VirtioStatus.failed ≠ 0#32 →
      word &&& driverOk = 0#32 ∧ (word &&& featuresOk ≠ 0#32 → t.FeaturesProper)) ∧
    (word &&& VirtioStatus.deviceNeedsReset ≠ 0#32 →
      ¬ (word &&& negotiated = negotiated ∧ t.FeaturesProper)) ∧
    (t.notifications ≠ [] → word &&& negotiated = negotiated))
    ⟨fun h ↦ ⟨h.1, h.2.1, h.2.2⟩, fun h ↦ ⟨h.failed, h.deviceNeedsReset, h.waiting⟩⟩

/-- What an orderly driver writes to the features after FEATURES_OK: again offered features, and
VERSION_1. -/
def OrderlyFeatures (t : VirtioMmioTransport) (word : BitVec 32) : Prop :=
  (t.driverFeaturesSelector = 0#32 → word &&& ~~~t.offeredFeatures.setWidth 32 = 0#32) ∧
    (t.driverFeaturesSelector = 1#32 →
      word &&& ~~~(t.offeredFeatures >>> 32).setWidth 32 = 0#32 ∧ word.getLsbD 0 = true)

instance (t : VirtioMmioTransport) (word : BitVec 32) : Decidable (t.OrderlyFeatures word) :=
  inferInstanceAs (Decidable (_ ∧ _))

/-- The writes that do not get around the rules. -/
def Orderly (t : VirtioMmioTransport) : TransportEvent → Prop
  | .write offset w value => w = .word →
      (offset = 0x070#64 → value.setWidth 32 ≠ 0#32 → t.OrderlyStatus (value.setWidth 32)) ∧
        (offset = 0x020#64 → t.status &&& featuresOk ≠ 0#32 → t.OrderlyFeatures (value.setWidth 32))
  | _ => True

instance (t : VirtioMmioTransport) : DecidablePred t.Orderly
  | .write offset w value => inferInstanceAs (Decidable (w = .word →
      (offset = 0x070#64 → value.setWidth 32 ≠ 0#32 → t.OrderlyStatus (value.setWidth 32)) ∧
        (offset = 0x020#64 → t.status &&& featuresOk ≠ 0#32 →
          t.OrderlyFeatures (value.setWidth 32))))
  | .popNotification | .raiseUsedBufferInterrupt => inferInstanceAs (Decidable True)

/-! ## The invariant -/

structure StatusInvariant (t : VirtioMmioTransport) : Prop where
  driverOk : t.status &&& driverOk ≠ 0#32 → t.status &&& negotiated = negotiated
  featuresOk : t.status &&& featuresOk ≠ 0#32 → t.FeaturesProper
  alone : t.status &&& VirtioStatus.driverOk ≠ 0#32 →
    t.status &&& failed = 0#32 ∧ t.status &&& deviceNeedsReset = 0#32
  waiting : t.notifications ≠ [] → t.status &&& VirtioStatus.driverOk ≠ 0#32

theorem statusInvariant_of_zero {t : VirtioMmioTransport} (hstatus : t.status = 0#32)
    (hnone : t.notifications = []) : t.StatusInvariant := by
  have hzero (bit : BitVec 32) : t.status &&& bit = 0#32 := by rw [hstatus, BitVec.zero_and]
  exact ⟨fun hne ↦ absurd (hzero _) hne, fun hne ↦ absurd (hzero _) hne,
    fun hne ↦ absurd (hzero _) hne, fun hne ↦ absurd hnone hne⟩

theorem StatusInvariant.rules {t : VirtioMmioTransport} (h : t.StatusInvariant) :
    t.StatusRules := by
  have hactive (hok : t.status &&& VirtioStatus.driverOk ≠ 0#32) : t.Active := ⟨hok, h.alone hok⟩
  refine ⟨fun hok ↦ ?_, h.featuresOk, fun w value hchanged ↦ ?_,
    fun device host bus hbus hserved ↦ ?_⟩
  · obtain ⟨⟨⟨hacknowledge, hdriver⟩, hfeaturesOk⟩, -⟩ := and_negotiated_eq_iff.1 (h.driverOk hok)
    exact ⟨hacknowledge, hdriver, hfeaturesOk⟩
  · refine hactive fun hzero ↦ hchanged ?_
    rw [event, write]
    split
    · rfl
    · show (t.writeQueueNotify (value.setWidth 32)).notifications = t.notifications
      rw [writeQueueNotify, hzero]
      rfl
  · refine hactive (h.waiting fun hempty ↦ hserved ?_)
    have hnone : bus.transport.bind popNotification = none := by
      rw [hbus, Option.bind_some, popNotification, hempty]
    rw [VirtioBlockDevice.processOne, hnone]

/-! ## One write -/

/-- A status that is not zero and without FAILED. -/
theorem status_writeStatusLocked (t : VirtioMmioTransport) {word : BitVec 32} (hword : word ≠ 0#32)
    (hfailed : word &&& failed = 0#32) :
    (t.writeStatusLocked word).status = checkedStatus word
      ((word &&& knownMask &&& (acknowledge ||| driver)) == (acknowledge ||| driver))
      ((t.driverFeatures &&& ~~~t.offeredFeatures) == 0#64 &&
        (t.driverFeatures &&& featureVersion1) != 0#64) := by
  have hknown : word &&& knownMask &&& failed = 0#32 := by
    rw [BitVec.and_assoc, show knownMask &&& failed = failed by decide, hfailed]
  rw [writeStatusLocked, if_neg hword]
  dsimp only
  rw [if_neg (not_not.2 hknown), checkedStatus, clearUnless, clearUnless]
  simp only [Bool.not_and, Bool.or_assoc]

/-- What such a status amounts to. -/
structure StatusWritten (t : VirtioMmioTransport) (word status : BitVec 32) : Prop where
  driverOk_iff : status &&& driverOk ≠ 0#32 ↔ word &&& negotiated = negotiated ∧ t.FeaturesProper
  driverOk : status &&& VirtioStatus.driverOk ≠ 0#32 → status &&& negotiated = negotiated
  featuresOk : status &&& featuresOk ≠ 0#32 → t.FeaturesProper
  failed : status &&& failed = 0#32
  deviceNeedsReset : status &&& deviceNeedsReset = word &&& deviceNeedsReset

theorem statusWritten (t : VirtioMmioTransport) {word : BitVec 32} (hword : word ≠ 0#32)
    (hfailed : word &&& failed = 0#32) :
    t.StatusWritten word (t.writeStatusLocked word).status := by
  have hbase : ((word &&& knownMask &&& (acknowledge ||| driver)) ==
      (acknowledge ||| driver)) = true ↔
      word &&& acknowledge ≠ 0#32 ∧ word &&& driver ≠ 0#32 := by
    rw [beq_iff_eq, BitVec.and_assoc,
      show knownMask &&& (acknowledge ||| driver) = acknowledge ||| driver by decide,
        and_base_eq_iff]
  have hproper : ((t.driverFeatures &&& ~~~t.offeredFeatures) == 0#64 &&
      (t.driverFeatures &&& featureVersion1) != 0#64) = true ↔ t.FeaturesProper := by
    rw [Bool.and_eq_true, beq_iff_eq, bne_iff_ne, FeaturesProper]
  rw [t.status_writeStatusLocked hword hfailed]
  refine ⟨?_, fun h ↦ ?_, fun h ↦ ?_, ?_, checkedStatus_and (by decide) (by decide) (by decide)⟩
  · rw [checkedStatus_driverOk_iff, and_negotiated_eq_iff, hbase, hproper]
    tauto
  · obtain ⟨⟨⟨hbaseReady, hfeatures⟩, hfeaturesOk⟩, -⟩ := checkedStatus_driverOk_iff.1 h
    rw [and_negotiated_eq_iff, checkedStatus_featuresOk_iff,
      checkedStatus_and (by decide) (by decide) (by decide),
      checkedStatus_and (by decide) (by decide) (by decide)]
    exact ⟨⟨hbase.1 hbaseReady, ⟨hbaseReady, hfeatures⟩, hfeaturesOk⟩, h⟩
  · exact hproper.1 (checkedStatus_featuresOk_iff.1 h).1.2
  · rw [checkedStatus_and (by decide) (by decide) (by decide), hfailed]

theorem StatusInvariant.writeStatusLocked {t : VirtioMmioTransport} (h : t.StatusInvariant)
    {word : BitVec 32} (horderly : word ≠ 0#32 → t.OrderlyStatus word) :
    (t.writeStatusLocked word).StatusInvariant := by
  by_cases hword : word = 0#32
  · rw [VirtioMmioTransport.writeStatusLocked, if_pos hword]
    exact statusInvariant_of_zero rfl rfl
  have ho := horderly hword
  -- the features and the notifications stay
  have hsame : (t.writeStatusLocked word).FeaturesProper = t.FeaturesProper ∧
      (t.writeStatusLocked word).notifications = t.notifications := by
    rw [VirtioMmioTransport.writeStatusLocked, if_neg hword]
    dsimp only
    split <;> exact ⟨rfl, rfl⟩
  have hproper (hwaiting : t.notifications ≠ []) : t.FeaturesProper :=
    h.featuresOk (and_negotiated_eq_iff.1 (h.driverOk (h.waiting hwaiting))).1.2
  by_cases hfailed : word &&& failed = 0#32
  · obtain ⟨hiff, hdriverOk, hfeaturesOk, hnotFailed, hneedsReset⟩ := t.statusWritten hword hfailed
    refine ⟨hdriverOk, fun hne ↦ ?_, fun hne ↦ ⟨hnotFailed, ?_⟩, fun hne ↦ ?_⟩
    · rw [hsame.1]
      exact hfeaturesOk hne
    · rw [hneedsReset]
      exact not_not.1 fun hreset ↦ ho.deviceNeedsReset hreset (hiff.1 hne)
    · rw [hsame.2] at hne
      exact hiff.2 ⟨ho.waiting hne, hproper hne⟩
  · obtain ⟨hdriverOk, hfeaturesOk⟩ := ho.failed hfailed
    have hknown : word &&& knownMask &&& failed ≠ 0#32 := by
      rwa [BitVec.and_assoc, show knownMask &&& failed = failed by decide]
    have hstatus : (t.writeStatusLocked word).status = word &&& knownMask := by
      rw [VirtioMmioTransport.writeStatusLocked, if_neg hword]
      dsimp only
      rw [if_pos hknown]
    have hnot : (t.writeStatusLocked word).status &&& VirtioStatus.driverOk = 0#32 := by
      rw [hstatus, BitVec.and_assoc, show knownMask &&& VirtioStatus.driverOk =
        VirtioStatus.driverOk
        by decide, hdriverOk]
    refine ⟨fun hne ↦ absurd hnot hne, fun hne ↦ ?_, fun hne ↦ absurd hnot hne, fun hne ↦ ?_⟩
    · rw [hstatus, BitVec.and_assoc, show knownMask &&& VirtioStatus.featuresOk =
        VirtioStatus.featuresOk by decide] at hne
      rw [hsame.1]
      exact hfeaturesOk hne
    · rw [hsame.2] at hne
      exact absurd hdriverOk (and_negotiated_eq_iff.1 (ho.waiting hne)).2

theorem and_not_eq_zero_iff {n : ℕ} {x y : BitVec n} :
    x &&& ~~~y = 0#n ↔ ∀ i < n, x.getLsbD i = true → y.getLsbD i = true := by
  simp only [BitVec.eq_of_getLsbD_eq_iff, BitVec.getLsbD_and, BitVec.getLsbD_not,
    BitVec.getLsbD_zero]
  refine forall₂_congr fun i hi ↦ ?_
  rw [decide_eq_true hi, Bool.true_and, Bool.and_eq_false_imp, Bool.not_eq_false']

theorem featuresProper_iff {t : VirtioMmioTransport} : t.FeaturesProper ↔
    (∀ i < 64, t.driverFeatures.getLsbD i = true → t.offeredFeatures.getLsbD i = true) ∧
      t.driverFeatures.getLsbD 32 = true := by
  refine and_congr and_not_eq_zero_iff ?_
  rw [show featureVersion1 = BitVec.twoPow 64 32 by decide, BitVec.and_twoPow]
  split
  · next hbit => exact iff_of_true (by decide) hbit
  · next hbit => exact iff_of_false (fun hne ↦ hne rfl) hbit

theorem getLsbD_writeLow32 (target : BitVec 64) (value : BitVec 32) {i : ℕ} (hi : i < 64) :
    (writeLow32 target value).getLsbD i = if i < 32 then value.getLsbD i else target.getLsbD i := by
  have hmask : ∀ i < 64, (0xFFFFFFFF00000000#64).getLsbD i = decide (32 ≤ i) := by decide
  rw [writeLow32, BitVec.getLsbD_or, BitVec.getLsbD_and, BitVec.getLsbD_setWidth, hmask i hi]
  split
  · next hlow => simp [hi, Nat.not_le.2 hlow]
  · next hhigh => simp [Nat.not_lt.1 hhigh]

theorem getLsbD_writeHigh32 (target : BitVec 64) (value : BitVec 32) {i : ℕ} (hi : i < 64) :
    (writeHigh32 target value).getLsbD i =
      if i < 32 then target.getLsbD i else value.getLsbD (i - 32) := by
  have hmask : ∀ i < 64, (0x00000000FFFFFFFF#64).getLsbD i = decide (i < 32) := by decide
  rw [writeHigh32, BitVec.getLsbD_or, BitVec.getLsbD_and, BitVec.getLsbD_shiftLeft,
    BitVec.getLsbD_setWidth, hmask i hi]
  split
  · next hlow => simp [hlow]
  · next hhigh => simp [hhigh, hi, show i - 32 < 64 by omega]

/-- Half of the features changes, and the other half stays what it was. -/
theorem FeaturesProper.writeDriverFeatures {t : VirtioMmioTransport} (h : t.FeaturesProper)
    {word : BitVec 32} (horderly : t.OrderlyFeatures word) :
    (t.writeDriverFeatures word).FeaturesProper := by
  obtain ⟨hoffered, hversion⟩ := featuresProper_iff.1 h
  rw [VirtioMmioTransport.writeDriverFeatures]
  split
  · next hselector =>
    have hword := and_not_eq_zero_iff.1 (horderly.1 hselector)
    refine featuresProper_iff.2 ⟨fun i hi hbit ↦ ?_, ?_⟩
    · rw [getLsbD_writeLow32 _ _ hi] at hbit
      split at hbit
      · next hlow =>
        have := hword i hlow hbit
        rwa [BitVec.getLsbD_setWidth, decide_eq_true hlow, Bool.true_and] at this
      · exact hoffered i hi hbit
    · rwa [getLsbD_writeLow32 _ _ (by decide), if_neg (by decide)]
  · split
    · next hselector =>
      obtain ⟨hword, hzero⟩ := horderly.2 hselector
      rw [and_not_eq_zero_iff] at hword
      refine featuresProper_iff.2 ⟨fun i hi hbit ↦ ?_, ?_⟩
      · rw [getLsbD_writeHigh32 _ _ hi] at hbit
        split at hbit
        · exact hoffered i hi hbit
        · next hhigh =>
          have := hword (i - 32) (by omega) hbit
          rw [BitVec.getLsbD_setWidth, BitVec.getLsbD_ushiftRight,
            Nat.add_sub_cancel' (by omega)] at this
          exact (Bool.and_eq_true_iff.1 this).2
      · rwa [getLsbD_writeHigh32 _ _ (by decide), if_neg (by decide)]
    · exact h

/-- What leaves the status and the features as they are and accepts notifications only from a driver
that is ready keeps the invariant. -/
theorem StatusInvariant.of_same {t t' : VirtioMmioTransport} (h : t.StatusInvariant)
    (hstatus : t'.status = t.status) (hfeatures : t'.FeaturesProper = t.FeaturesProper)
    (hwaiting : t'.notifications ≠ [] →
      t.notifications ≠ [] ∨ t.status &&& VirtioStatus.driverOk ≠ 0#32) : t'.StatusInvariant := by
  refine ⟨?_, ?_, ?_, fun hne ↦ ?_⟩
  · rw [hstatus]
    exact h.driverOk
  · rw [hstatus, hfeatures]
    exact h.featuresOk
  · rw [hstatus]
    exact h.alone
  · rw [hstatus]
    exact (hwaiting hne).elim h.waiting id

theorem StatusInvariant.writeRegister {t : VirtioMmioTransport} (h : t.StatusInvariant)
    {offset : BitVec 64} {word : BitVec 32}
    (hstatus : offset = 0x070#64 → word ≠ 0#32 → t.OrderlyStatus word)
    (hfeatures : offset = 0x020#64 → t.status &&& VirtioStatus.featuresOk ≠ 0#32 →
      t.OrderlyFeatures word) :
    (t.writeRegister offset word).StatusInvariant := by
  have hwrite := t.registerWrite offset word
  generalize t.writeRegister offset word = t' at hwrite
  cases hwrite with
  | driverFeatures hoffset =>
    have hsame : (t.writeDriverFeatures word).status = t.status ∧
        (t.writeDriverFeatures word).notifications = t.notifications := by
      rw [writeDriverFeatures]
      split
      · exact ⟨rfl, rfl⟩
      · split <;> exact ⟨rfl, rfl⟩
    refine ⟨?_, ?_, ?_, ?_⟩
    · rw [hsame.1]
      exact h.driverOk
    · rw [hsame.1]
      exact fun hne ↦ (h.featuresOk hne).writeDriverFeatures (hfeatures hoffset hne)
    · rw [hsame.1]
      exact h.alone
    · rw [hsame.1, hsame.2]
      exact h.waiting
  | queue f =>
    rw [configureQueue]
    split
    · exact h.of_same rfl rfl Or.inl
    · exact h
  | queueReady =>
    rw [writeQueueReady]
    split
    · exact h.of_same rfl rfl Or.inl
    · exact h
  | queueNotify =>
    rw [writeQueueNotify]
    split
    · next hready =>
      rw [Bool.and_eq_true, Bool.and_eq_true, bne_iff_ne] at hready
      exact h.of_same rfl rfl fun _ ↦ Or.inr hready.1.1
    · exact h
  | status hoffset => exact h.writeStatusLocked (hstatus hoffset)
  | _ => exact h.of_same rfl rfl Or.inl

theorem StatusInvariant.event {t : VirtioMmioTransport} (h : t.StatusInvariant) {e : TransportEvent}
    (horderly : t.Orderly e) : (t.event e).StatusInvariant := by
  cases e with
  | write offset w value =>
    rw [VirtioMmioTransport.event, write]
    refine of_ite (P := fun r : AccessResult × VirtioMmioTransport ↦ r.2.StatusInvariant)
      (fun _ ↦ h) fun hvalid ↦ ?_
    have hw : w = .word := by
      by_contra hne
      refine hvalid ?_
      rw [validateRegisterAccess, if_pos (Or.inl hne)]
      rfl
    exact h.writeRegister (horderly hw).1 (horderly hw).2
  | popNotification =>
    rw [VirtioMmioTransport.event, popNotification]
    cases hlist : t.notifications with
    | nil => exact h
    | cons i rest => exact h.of_same rfl rfl fun _ ↦ Or.inl (hlist ▸ List.cons_ne_nil i rest)
  | raiseUsedBufferInterrupt => exact h.of_same rfl rfl Or.inl

theorem statusInvariant_powerOn (config : VirtioMmioConfig) : (powerOn config).StatusInvariant :=
  statusInvariant_of_zero rfl rfl

/-- **The status machine.**  In every run of orderly writes, with the device taking notifications
and raising interrupts in between, the rules of the status register hold. -/
theorem status_machine (config : VirtioMmioConfig) (events : List TransportEvent)
    (horderly : Runs.Along event Orderly (powerOn config) events) :
    (Runs.run event (powerOn config) events).StatusRules :=
  StatusInvariant.rules
    (Runs.run_invariant (fun _ _ h he ↦ h.event he) (statusInvariant_powerOn config) horderly)

/-- A negotiation, a request and a driver that gives up. -/
theorem status_machine_negotiation :
    (Runs.run event (powerOn blockTransportConfig)
      ([(0x070#64, 1#64), (0x070#64, 3#64), (0x024#64, 1#64), (0x020#64, 1#64), (0x070#64, 11#64),
        (0x038#64, 4#64), (0x080#64, 0x80000000#64), (0x090#64, 0x80000040#64),
        (0x0A0#64, 0x80000050#64), (0x044#64, 1#64), (0x070#64, 15#64), (0x050#64, 0#64)].map
          (fun (offset, value) ↦ .write offset .word value) ++
        [.popNotification, .raiseUsedBufferInterrupt, .write 0x064#64 .word 1#64,
          .write 0x070#64 .word 0x8B#64])).StatusRules :=
  status_machine _ _ (by decide +kernel)

/-- FAILED takes DRIVER_OK with it into a transport that was never acknowledged. -/
theorem status_machine_broken_by_failed :
    ¬ ∀ (config : VirtioMmioConfig) (events : List TransportEvent),
      (Runs.run event (powerOn config) events).StatusRules := fun h ↦
  have hrules := h blockTransportConfig [.write 0x070#64 .word 0x84#64]
  (hrules.driverOk (by decide)).1 (by decide)

end VirtioMmioTransport

end Rvemu
