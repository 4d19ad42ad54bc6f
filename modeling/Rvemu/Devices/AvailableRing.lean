import Rvemu.Devices.Virtqueue

/-!
# The available ring is a FIFO

A driver publishes a head in two stores: the head goes to the slot that the available index points
to, and then the index moves on.  The device takes heads out with `consumeAvailable`, in between or
at any other time.  Both sides count modulo 2¹⁶ and address slots modulo the queue size.

The ring is read through unbounded positions: position `k` of the published sequence has the 16-bit
index `base + k` and lives in slot `(base + k) % size`.  The invariant `RingRun.Holds` says that the
positions not yet consumed are in their slots; one lemma per kind of event preserves it, and the
FIFO property of whole runs follows.
-/

set_option autoImplicit false

namespace Rvemu

open Bytes

/-! ## Positions of the ring -/

theorem dvd_of_powerOfTwo {size : BitVec 16} (h : powerOfTwo size = true) :
    0 < size.toNat ∧ size.toNat ∣ 2 ^ 16 := by
  obtain ⟨k, hk⟩ := powerOfTwo_iff.1 h
  have hlt := size.isLt
  refine ⟨by rw [hk]; exact Nat.two_pow_pos k, ?_⟩
  rw [hk] at hlt ⊢
  exact Nat.pow_dvd_pow 2 (Nat.le_of_lt ((Nat.pow_lt_pow_iff_right (by decide)).1 hlt))

/-- Positions less than a turn of the ring apart have different slots. -/
theorem mod_ne_of_lt {n a b : ℕ} (h₁ : a < b) (h₂ : b < a + n) : b % n ≠ a % n := by
  intro h
  have hzero := Nat.sub_mod_eq_zero_of_mod_eq h
  rw [Nat.mod_eq_of_lt (by omega)] at hzero
  omega

namespace VirtqueueLayout

/-- The physical address of the slot of a position. -/
def slotAddress (layout : VirtqueueLayout) (k : ℕ) : ℕ :=
  layout.availableRing.toNat + 4 + 2 * (k % layout.size.toNat)

/-- The flags, the index and the slots of the available ring lie in RAM. -/
def AvailableInRam (layout : VirtqueueLayout) (b : Bus) : Prop :=
  b.InRam layout.availableRing.toNat (4 + 2 * layout.size.toNat)

/-- The available index in guest memory. -/
def availableIdx (layout : VirtqueueLayout) (b : Bus) : BitVec 16 :=
  (b.ramWord (layout.availableRing.toNat + 2) .halfWord).setWidth 16

/-- The head in the slot of a position. -/
def availableSlot (layout : VirtqueueLayout) (b : Bus) (k : ℕ) : BitVec 16 :=
  (b.ramWord (layout.slotAddress k) .halfWord).setWidth 16

section Addresses

variable {layout : VirtqueueLayout} {b : Bus} (hram : layout.AvailableInRam b)

include hram

theorem toNat_indexAddress :
    (layout.availableRing + 2#64).toNat = layout.availableRing.toNat + 2 := by
  have hlt := hram.lt
  rw [BitVec.toNat_add]
  simp
  omega

theorem inRam_index : b.InRam (layout.availableRing + 2#64).toNat (widthInBytes .halfWord) := by
  rw [toNat_indexAddress hram, widthInBytes]
  exact hram.sub (by omega) (by omega)

variable (hsize : powerOfTwo layout.size = true)

include hsize

theorem toNat_slotAddress (k : ℕ) :
    (VirtqueueRuntimeState.availableSlotAddress layout (BitVec.ofNat 16 k)).toNat =
      layout.slotAddress k := by
  obtain ⟨hpos, hdvd⟩ := dvd_of_powerOfTwo hsize
  have hlt := hram.lt
  have hmod := Nat.mod_lt k hpos
  have hslot : (virtqueueRingSlot (BitVec.ofNat 16 k) layout.size).toNat =
      k % layout.size.toNat := by
    rw [virtqueueRingSlot, BitVec.toNat_umod, BitVec.toNat_ofNat, Nat.mod_mod_of_dvd k hdvd]
  rw [VirtqueueRuntimeState.availableSlotAddress, slotAddress, BitVec.toNat_add, BitVec.toNat_add,
    BitVec.toNat_mul, BitVec.toNat_setWidth, hslot]
  simp
  omega

theorem inRam_slot (k : ℕ) : b.InRam (layout.slotAddress k) (widthInBytes .halfWord) := by
  have hmod := Nat.mod_lt k (dvd_of_powerOfTwo hsize).1
  rw [widthInBytes]
  exact hram.sub (by rw [slotAddress]; omega) (by rw [slotAddress]; omega)

end Addresses

end VirtqueueLayout

/-- The half word just stored is there. -/
theorem Bus.Stored.halfWord {b b' : Bus} {a : BitVec 64} {v : BitVec 16}
    (h : Stored b b' a .halfWord (v.setWidth 64)) :
    (b'.ramWord a.toNat .halfWord).setWidth 16 = v := by
  rw [h.ramWord_self, widthInBytes, composeBytes_splitByte _ _ (by decide)]
  simp

/-! ## Runs -/

/-- The two stores of a publication, and a call of the device. -/
inductive RingEvent
  | store (head : BitVec 16)
  | advance
  | consume
  deriving DecidableEq, Repr

structure RingRun where
  bus : Bus
  device : VirtqueueRuntimeState := {}
  /-- The head stored in the next slot, before the index moves. -/
  staged : Option (BitVec 16) := none
  published : List (BitVec 16) := []
  returned : List (BitVec 16) := []

namespace RingRun

variable (layout : VirtqueueLayout)

/-- The head a call returned, if it returned one. -/
def headOf (result : VirtqueueAvailableResult) : List (BitVec 16) :=
  if result.ok && result.pendingCount != 0#16 then [result.head] else []

/-- What the driver reads back as its index. -/
def driverIdx (r : RingRun) : BitVec 16 :=
  (r.bus.read (layout.availableRing + 2#64) .halfWord .load).1.value.setWidth 16

def step (r : RingRun) : RingEvent → RingRun
  | .store head =>
    { r with
      bus := (r.bus.write
        (VirtqueueRuntimeState.availableSlotAddress layout (r.driverIdx layout)) .halfWord
        (head.setWidth 64) .store).2
      staged := some head }
  | .advance =>
    { r with
      bus := (r.bus.write (layout.availableRing + 2#64) .halfWord
        ((r.driverIdx layout + 1#16).setWidth 64) .store).2
      staged := none
      published := r.published ++ r.staged.toList }
  | .consume =>
    let called := (r.device.consumeAvailable layout).run Bus.dma r.bus
    { r with
      bus := called.2
      device := called.1.2
      returned := r.returned ++ headOf called.1.1 }

def run (r : RingRun) (events : List RingEvent) : RingRun := events.foldl (step layout) r

/-- The driver fills a slot only when the ring has room, and moves the index only past a slot it has
filled. -/
def Allowed (r : RingRun) : RingEvent → Prop
  | .store _ => r.published.length < r.returned.length + layout.size.toNat
  | .advance => r.staged.isSome = true
  | .consume => True

def Conforms : RingRun → List RingEvent → Prop
  | _, [] => True
  | r, e :: events => r.Allowed layout e ∧ (r.step layout e).Conforms events

instance (r : RingRun) : (e : RingEvent) → Decidable (r.Allowed layout e)
  | .store _ => inferInstanceAs (Decidable (_ < _))
  | .advance => inferInstanceAs (Decidable (_ = _))
  | .consume => inferInstanceAs (Decidable True)

instance decidableConforms : (events : List RingEvent) → (r : RingRun) →
    Decidable (r.Conforms layout events)
  | [], _ => inferInstanceAs (Decidable True)
  | e :: events, r =>
    have := decidableConforms events (r.step layout e)
    inferInstanceAs (Decidable (_ ∧ _))

/-- A ring with nothing in it: the two sides agree on the index. -/
structure Fresh (r : RingRun) : Prop where
  inRam : layout.AvailableInRam r.bus
  idx : layout.availableIdx r.bus = r.device.lastAvailableIdx
  staged : r.staged = none
  published : r.published = []
  returned : r.returned = []

/-- The positions from `returned.length` on are in their slots. -/
structure Holds (base : ℕ) (r : RingRun) : Prop where
  inRam : layout.AvailableInRam r.bus
  taken : r.returned = r.published.take r.returned.length
  room : r.published.length ≤ r.returned.length + layout.size.toNat
  device : r.device.lastAvailableIdx = BitVec.ofNat 16 (base + r.returned.length)
  idx : layout.availableIdx r.bus = BitVec.ofNat 16 (base + r.published.length)
  slot : ∀ k head, r.returned.length ≤ k → r.published[k]? = some head →
    layout.availableSlot r.bus (base + k) = head
  staged : ∀ head, r.staged = some head →
    r.published.length < r.returned.length + layout.size.toNat ∧
      layout.availableSlot r.bus (base + r.published.length) = head

section Steps

variable {layout : VirtqueueLayout} (hready : layout.ready = true)
  (hsize : powerOfTwo layout.size = true) {base : ℕ} {r : RingRun}

theorem Holds.length_le (h : Holds layout base r) : r.returned.length ≤ r.published.length := by
  have := congrArg List.length h.taken
  rw [List.length_take] at this
  omega

theorem driverIdx_eq (h : Holds layout base r) :
    r.driverIdx layout = BitVec.ofNat 16 (base + r.published.length) := by
  rw [driverIdx, (VirtqueueLayout.inRam_index h.inRam).read_eq, ← h.idx,
    VirtqueueLayout.toNat_indexAddress h.inRam]
  rfl

/-- Storing the index leaves the slots alone. -/
theorem availableSlot_of_storedIndex {b b' : Bus} {v : BitVec 64} (hram : layout.AvailableInRam b)
    (h : Bus.Stored b b' (layout.availableRing + 2#64) .halfWord v) (k : ℕ) :
    layout.availableSlot b' k = layout.availableSlot b k := by
  rw [VirtqueueLayout.availableSlot, VirtqueueLayout.availableSlot, h.ramWord_of_disjoint]
  rw [VirtqueueLayout.toNat_indexAddress hram, VirtqueueLayout.slotAddress, widthInBytes]
  omega

include hsize

/-- The driver's first store fills the slot of the next position. -/
theorem step_store (h : Holds layout base r) (head : BitVec 16) :
    ∃ b', r.step layout (.store head) = { r with bus := b', staged := some head } ∧
      b'.memoryMap = r.bus.memoryMap ∧
      Bus.Stored r.bus b' (VirtqueueRuntimeState.availableSlotAddress layout
        (BitVec.ofNat 16 (base + r.published.length))) .halfWord (head.setWidth 64) := by
  refine ⟨_, by rw [step], Bus.memoryMap_write _ _ _ _ _, ?_⟩
  rw [driverIdx_eq h]
  refine (Bus.InRam.write ?_ _ _).2
  rw [VirtqueueLayout.toNat_slotAddress h.inRam hsize]
  exact VirtqueueLayout.inRam_slot h.inRam hsize _

/-- A head that goes to a free slot disturbs neither the index nor a slot in use. -/
theorem Holds.store (h : Holds layout base r) (head : BitVec 16)
    (hroom : r.published.length < r.returned.length + layout.size.toNat) :
    Holds layout base (r.step layout (.store head)) := by
  obtain ⟨b', hstep, hmap, hstored⟩ := step_store hsize h head
  have haddr := VirtqueueLayout.toNat_slotAddress h.inRam hsize (base + r.published.length)
  have hself : layout.availableSlot b' (base + r.published.length) = head := by
    rw [VirtqueueLayout.availableSlot, ← haddr]
    exact hstored.halfWord
  rw [hstep]
  refine ⟨Bus.inRam_of_memoryMap hmap h.inRam, h.taken, h.room, h.device, ?_, ?_, ?_⟩
  · refine Eq.trans ?_ h.idx
    refine congrArg (BitVec.setWidth 16) (hstored.ramWord_of_disjoint (Or.inl ?_))
    rw [haddr, VirtqueueLayout.slotAddress, widthInBytes]
    omega
  · intro k head' hk hhead
    dsimp only at hk hhead ⊢
    rw [← h.slot k head' hk hhead, VirtqueueLayout.availableSlot, VirtqueueLayout.availableSlot]
    refine congrArg (BitVec.setWidth 16) (hstored.ramWord_of_disjoint ?_)
    have hlt : k < r.published.length := (List.getElem?_eq_some_iff.1 hhead).1
    have hne : (base + r.published.length) % layout.size.toNat ≠ (base + k) % layout.size.toNat :=
      mod_ne_of_lt (by omega) (by omega)
    rw [haddr, VirtqueueLayout.slotAddress, VirtqueueLayout.slotAddress, widthInBytes]
    omega
  · rintro head' ⟨⟩
    exact ⟨hroom, hself⟩

omit hsize in
/-- The driver's second store moves the index. -/
theorem step_advance (h : Holds layout base r) {head : BitVec 16} (hhead : r.staged = some head) :
    ∃ b', r.step layout .advance =
        { r with bus := b', staged := none, published := r.published ++ [head] } ∧
      b'.memoryMap = r.bus.memoryMap ∧
      Bus.Stored r.bus b' (layout.availableRing + 2#64) .halfWord
        ((BitVec.ofNat 16 (base + (r.published.length + 1))).setWidth 64) := by
  refine ⟨_, by rw [step, hhead]; rfl, Bus.memoryMap_write _ _ _ _ _, ?_⟩
  have hidx : r.driverIdx layout + 1#16 = BitVec.ofNat 16 (base + (r.published.length + 1)) := by
    rw [driverIdx_eq h, ← Nat.add_assoc, BitVec.ofNat_add (base + r.published.length) 1]
  rw [hidx]
  exact ((VirtqueueLayout.inRam_index h.inRam).write _ _).2

omit hsize in
/-- Moving the index publishes what was staged. -/
theorem Holds.advance (h : Holds layout base r) (hstaged : r.staged.isSome = true) :
    Holds layout base (r.step layout .advance) := by
  obtain ⟨head, hhead⟩ := Option.isSome_iff_exists.1 hstaged
  obtain ⟨hroom, hslot⟩ := h.staged head hhead
  obtain ⟨b', hstep, hmap, hstored⟩ := step_advance h hhead
  have hslots := availableSlot_of_storedIndex h.inRam hstored
  have hle : r.returned.length ≤ r.published.length := h.length_le
  rw [hstep]
  refine ⟨Bus.inRam_of_memoryMap hmap h.inRam, ?_, ?_, h.device, ?_, ?_, ?_⟩
  · exact h.taken.trans (List.take_append_of_le_length hle).symm
  · rw [List.length_append]
    exact hroom
  · rw [VirtqueueLayout.availableIdx, ← VirtqueueLayout.toNat_indexAddress h.inRam,
      List.length_append]
    exact hstored.halfWord
  · intro k head' hk hget
    dsimp only at hk hget ⊢
    rw [hslots]
    rcases Nat.lt_or_ge k r.published.length with hlt | hge
    · rw [List.getElem?_append_left hlt] at hget
      exact h.slot k head' hk hget
    · rw [List.getElem?_append_right hge] at hget
      have hkl := (List.getElem?_eq_some_iff.1 hget).1
      rw [List.length_singleton] at hkl
      obtain rfl : k = r.published.length := by omega
      rw [Nat.sub_self, List.getElem?_cons_zero, Option.some.injEq] at hget
      rw [hslot, hget]
  · rintro head' ⟨⟩

omit hsize in
theorem pendingCount_eq (h : Holds layout base r) :
    virtqueueIndexDelta (BitVec.ofNat 16 (base + r.published.length)) r.device.lastAvailableIdx =
        BitVec.ofNat 16 (r.published.length - r.returned.length) ∧
      r.published.length - r.returned.length ≤ layout.size.toNat := by
  have hroom := h.room
  have hlt := layout.size.isLt
  have hle := h.length_le
  refine ⟨?_, by omega⟩
  rw [virtqueueIndexDelta, h.device, BitVec.sub_eq_iff_eq_add, ← BitVec.ofNat_add]
  congr 1
  omega

include hready

/-- The call by positions: it returns the first one that is left. -/
theorem run_consumeAvailable (h : Holds layout base r) :
    (r.device.consumeAvailable layout).run Bus.dma r.bus =
      let availableIndex := BitVec.ofNat 16 (base + r.published.length)
      let pending := BitVec.ofNat 16 (r.published.length - r.returned.length)
      if pending = 0#16 then (({ availableIndex }, r.device), r.bus)
      else (({ availableIndex, head := layout.availableSlot r.bus (base + r.returned.length)
               pendingCount := pending },
             { r.device with lastAvailableIdx := BitVec.ofNat 16 (base + r.returned.length + 1) }),
            r.bus) := by
  obtain ⟨hpending, hle⟩ := pendingCount_eq h
  have hpos := (dvd_of_powerOfTwo hsize).1
  have hlt := layout.size.isLt
  have hsz : (layout.size == 0#16) = false := by
    rw [beq_eq_false_iff_ne]
    rintro hz
    rw [hz] at hpos
    exact absurd hpos (by decide)
  have hread := (VirtqueueLayout.inRam_index h.inRam).read_eq .dmaRead
  have hidx : (r.bus.ramWord (layout.availableRing + 2#64).toNat .halfWord).setWidth 16 =
      BitVec.ofNat 16 (base + r.published.length) := by
    rw [VirtqueueLayout.toNat_indexAddress h.inRam]
    exact h.idx
  have haddr := VirtqueueLayout.toNat_slotAddress h.inRam hsize (base + r.returned.length)
  have hslot : r.bus.read (VirtqueueRuntimeState.availableSlotAddress layout
      r.device.lastAvailableIdx) .halfWord .dmaRead =
      (.success (r.bus.ramWord (layout.slotAddress (base + r.returned.length)) .halfWord),
        r.bus) := by
    rw [h.device, Bus.InRam.read_eq, haddr]
    rw [haddr]
    exact VirtqueueLayout.inRam_slot h.inRam hsize _
  have hfew : ¬ layout.size < BitVec.ofNat 16 (r.published.length - r.returned.length) := by
    rw [BitVec.lt_def, BitVec.toNat_ofNat]
    have := Nat.mod_le (r.published.length - r.returned.length) (2 ^ 16)
    omega
  rw [VirtqueueRuntimeState.consumeAvailable, hready, hsz, if_neg (by simp)]
  simp only [Dialogue.run_bind, Dma.run_read, hread, AccessResult.ok_success,
    AccessResult.value_success, hidx, hpending]
  by_cases hz : BitVec.ofNat 16 (r.published.length - r.returned.length) = 0#16
  · simp only [hz, Bool.not_true, Bool.false_eq_true, if_false, if_true, Dialogue.run_pure]
  · simp only [hz, hfew, hslot, Bool.not_true, Bool.false_eq_true, if_false, Dialogue.run_bind,
      Dma.run_read, AccessResult.ok_success, AccessResult.value_success, Dialogue.run_pure]
    rw [h.device, BitVec.ofNat_add (base + r.returned.length) 1]
    rfl

/-- A call takes the next published head, when there is one. -/
theorem Holds.consume (h : Holds layout base r) :
    Holds layout base (r.step layout .consume) ∧
      (r.step layout .consume).returned = r.published.take (r.returned.length + 1) := by
  have hrun := run_consumeAvailable hready hsize h
  have hle := (pendingCount_eq h).2
  have hlt := layout.size.isLt
  have htaken := h.taken
  by_cases hz : r.published.length ≤ r.returned.length
  · rw [show r.published.length - r.returned.length = 0 by omega] at hrun
    have hsame : r.step layout .consume = r := by
      rw [step, hrun]
      simp [headOf]
    rw [hsame, List.take_of_length_le (Nat.le_succ_of_le hz)]
    refine ⟨h, ?_⟩
    rwa [List.take_of_length_le hz] at htaken
  · have hne : BitVec.ofNat 16 (r.published.length - r.returned.length) ≠ 0#16 := by
      intro hzero
      have := congrArg BitVec.toNat hzero
      simp only [BitVec.toNat_ofNat] at this
      omega
    have hnext : r.published[r.returned.length]? =
        some (layout.availableSlot r.bus (base + r.returned.length)) := by
      have hget := List.getElem?_eq_getElem (show r.returned.length < r.published.length by omega)
      rw [hget, h.slot _ _ (Nat.le_refl _) hget]
    have hstep : r.step layout .consume =
        { r with
          device := { r.device with
            lastAvailableIdx := BitVec.ofNat 16 (base + r.returned.length + 1) }
          returned := r.returned ++ [layout.availableSlot r.bus (base + r.returned.length)] } := by
      rw [step, hrun]
      simp [headOf, hne, VirtqueueAvailableResult.ok]
    have hret : (r.step layout .consume).returned = r.published.take (r.returned.length + 1) := by
      rw [List.take_add_one, hnext, ← htaken, hstep]
      rfl
    have hlen : (r.step layout .consume).returned.length = r.returned.length + 1 := by
      rw [hstep, List.length_append, List.length_singleton]
    refine ⟨⟨?_, ?_, ?_, ?_, ?_, fun k head hk hhead ↦ ?_, fun head hhead ↦ ?_⟩, hret⟩
    · rw [hstep]
      exact h.inRam
    · rw [hlen, hret, hstep]
    · rw [hlen, hstep]
      have := h.room
      exact Nat.le_trans this (by omega)
    · rw [hlen, hstep, ← Nat.add_assoc]
    · rw [hstep]
      exact h.idx
    · rw [hlen] at hk
      rw [hstep] at hhead ⊢
      exact h.slot k head (by omega) hhead
    · rw [hlen]
      rw [hstep] at hhead ⊢
      obtain ⟨hroom, hslot⟩ := h.staged head hhead
      exact ⟨by dsimp only; omega, hslot⟩

end Steps

/-! ## Whole runs -/

theorem holds_of_fresh {layout : VirtqueueLayout} {r : RingRun} (h : r.Fresh layout) :
    Holds layout r.device.lastAvailableIdx.toNat r := by
  refine ⟨h.inRam, ?_, ?_, ?_, ?_, ?_, ?_⟩
  · rw [h.returned, h.published]
    rfl
  · rw [h.published]
    exact Nat.zero_le _
  · rw [h.returned]
    simp
  · rw [h.idx, h.published]
    simp
  · intro k head _ hhead
    rw [h.published] at hhead
    cases hhead
  · intro head hhead
    rw [h.staged] at hhead
    cases hhead

theorem Holds.run {layout : VirtqueueLayout} (hready : layout.ready = true)
    (hsize : powerOfTwo layout.size = true) {base : ℕ} {r : RingRun} {events : List RingEvent}
    (h : Holds layout base r) (hc : r.Conforms layout events) :
    Holds layout base (r.run layout events) := by
  induction events generalizing r with
  | nil => exact h
  | cons e events ih =>
    refine ih ?_ hc.2
    cases e with
    | store head => exact h.store hsize head hc.1
    | advance => exact h.advance hc.1
    | consume => exact (h.consume hready hsize).1

/-- Calls alone take out what is left, one each. -/
theorem returned_run_replicate {layout : VirtqueueLayout} (hready : layout.ready = true)
    (hsize : powerOfTwo layout.size = true) {base : ℕ} {r : RingRun} (h : Holds layout base r)
    (n : ℕ) : (r.run layout (List.replicate n .consume)).returned =
      r.published.take (r.returned.length + n) := by
  induction n generalizing r with
  | zero => exact h.taken
  | succ n ih =>
    obtain ⟨hholds, hret⟩ := h.consume hready hsize
    have hpub : (r.step layout .consume).published = r.published := rfl
    refine (ih hholds).trans ?_
    rw [hpub, hret, List.length_take]
    rcases Nat.le_total (r.returned.length + 1) r.published.length with hle | hle
    · rw [Nat.min_eq_left hle, Nat.add_assoc, Nat.add_comm 1 n]
    · rw [Nat.min_eq_right hle, List.take_of_length_le (Nat.le_add_right _ _),
        List.take_of_length_le (by omega)]

end RingRun

/-- A call that returns no head leaves the device as it was. -/
theorem consumeAvailable_unchanged (s : VirtqueueRuntimeState) (layout : VirtqueueLayout) (b : Bus)
    (h : ((s.consumeAvailable layout).run Bus.dma b).1.1.ok = false ∨
      ((s.consumeAvailable layout).run Bus.dma b).1.1.pendingCount = 0#16) :
    ((s.consumeAvailable layout).run Bus.dma b).1.2 = s := by
  rw [VirtqueueRuntimeState.consumeAvailable] at h ⊢
  simp only [Dialogue.run_ite, Dialogue.run_bind, Dialogue.run_pure, Dma.run_read] at h ⊢
  split_ifs at h ⊢ with h₁ h₂ h₃ h₄ h₅
  · rfl
  · rfl
  · rfl
  · rfl
  · rfl
  · exact absurd h (by simp [VirtqueueAvailableResult.ok, h₃])

/-- From a ring on which both sides agree, in every interleaving of the driver's stores with calls
of the device, the heads returned are an initial part of those published, in order, and further
calls return the rest one by one; a call that returns no head changes nothing, so the next one
starts at the same entry. -/
theorem consumeAvailable_fifo (layout : VirtqueueLayout) (hready : layout.ready = true)
    (hsize : powerOfTwo layout.size = true) (start : RingRun) (hstart : start.Fresh layout)
    (events : List RingEvent) (hevents : start.Conforms layout events) :
    let reached := start.run layout events
    reached.returned <+: reached.published ∧
      (∀ n, (reached.run layout (List.replicate n .consume)).returned =
        reached.published.take (reached.returned.length + n)) ∧
      ∀ (s : VirtqueueRuntimeState) (l : VirtqueueLayout) (b : Bus),
        let called := (s.consumeAvailable l).run Bus.dma b
        called.1.1.ok = false ∨ called.1.1.pendingCount = 0#16 → called.1.2 = s := by
  intro reached
  have hholds : RingRun.Holds layout _ reached :=
    (RingRun.holds_of_fresh hstart).run hready hsize hevents
  refine ⟨?_, RingRun.returned_run_replicate hready hsize hholds, consumeAvailable_unchanged⟩
  rw [hholds.taken]
  exact List.take_prefix _ _

/-- A ring of two slots whose index is about to wrap. -/
def wrappingRing : RingRun where
  bus :=
    { regions := [.ram
        { range := ⟨0x80000000#64, 8#64, AddressRange.pos_eight, by decide⟩
          bytes := [0#8, 0#8, 0xFF#8, 0xFF#8, 0#8, 0#8, 0#8, 0#8]
          size_eq := rfl }] }
  device := { lastAvailableIdx := 0xFFFF#16 }

def wrappingLayout : VirtqueueLayout :=
  { size := 2#16, availableRing := 0x80000000#64, ready := true }

/-- The ring is filled across the wrap, emptied by one, filled again and drained. -/
def wrappingEvents : List RingEvent :=
  [.store 5#16, .advance, .consume, .store 7#16, .consume, .advance, .store 9#16,
    .advance, .consume,
    .store 11#16, .advance]

theorem consumeAvailable_fifo_wrapping :
    (wrappingRing.run wrappingLayout wrappingEvents).published = [5#16, 7#16, 9#16, 11#16] ∧
      ((wrappingRing.run wrappingLayout wrappingEvents).run wrappingLayout
        (List.replicate 2 .consume)).returned = [5#16, 7#16, 9#16, 11#16] := by
  have hpub : (wrappingRing.run wrappingLayout wrappingEvents).published =
      [5#16, 7#16, 9#16, 11#16] := by decide
  have hret : (wrappingRing.run wrappingLayout wrappingEvents).returned.length = 2 := by
    decide
  refine ⟨hpub, ?_⟩
  have hfresh : wrappingRing.Fresh wrappingLayout :=
    ⟨⟨_, List.mem_singleton_self _, by decide, by decide⟩, by decide, rfl, rfl, rfl⟩
  have hfifo := consumeAvailable_fifo wrappingLayout rfl (by decide) wrappingRing hfresh
    wrappingEvents (by decide)
  rw [hfifo.2.1 2, hret, hpub]
  rfl

end Rvemu
