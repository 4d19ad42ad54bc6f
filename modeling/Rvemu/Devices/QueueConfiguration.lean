import Rvemu.Devices.VirtioMmio
import Rvemu.Lib.Runs

/-!
# The queue configuration of a transport

The queue registers act through a selector, the addresses are written in halves, and a queue that is
ready is frozen.  Whatever the driver writes, in whatever order, a ready queue is well configured,
it stays as it is for as long as it is ready, and notifications name existing queues; a reset leaves
nothing behind but the two counters.

The device side takes notifications and raises interrupts between the writes, so these are events
too.
-/

set_option autoImplicit false

namespace Rvemu

/-- What happens to a transport: a register write by the driver, or one of the two calls of the
device. -/
inductive TransportEvent
  | write (offset : BitVec 64) (w : AccessWidth) (value : BitVec 64)
  | popNotification
  | raiseUsedBufferInterrupt
  deriving DecidableEq, Repr

namespace VirtioMmioTransport

/-- A transport as its constructor leaves it. -/
def powerOn (config : VirtioMmioConfig) : VirtioMmioTransport := { config }

def event (t : VirtioMmioTransport) : TransportEvent → VirtioMmioTransport
  | .write offset w value => (t.write offset w value).2
  | .popNotification => (t.popNotification.map (·.2)).getD t
  | .raiseUsedBufferInterrupt => t.raiseUsedBufferInterrupt

/-! ## What one event can do -/

/-- The registers a driver can write, and what a write does. -/
inductive RegisterWrite (t : VirtioMmioTransport) (offset : BitVec 64) (word : BitVec 32) :
    VirtioMmioTransport → Prop
  | deviceFeaturesSelector (h : offset = 0x014#64) :
      RegisterWrite t offset word { t with deviceFeaturesSelector := word }
  | driverFeaturesSelector (h : offset = 0x024#64) :
      RegisterWrite t offset word { t with driverFeaturesSelector := word }
  | driverFeatures (h : offset = 0x020#64) :
      RegisterWrite t offset word (t.writeDriverFeatures word)
  | queueSelector (h : offset = 0x030#64) :
      RegisterWrite t offset word { t with queueSelector := word.setWidth 16 }
  | queue (f : QueueState → QueueState) (hf : ∀ q, (f q).ready = q.ready) :
      RegisterWrite t offset word (t.configureQueue f)
  | queueReady (h : offset = 0x044#64) : RegisterWrite t offset word (t.writeQueueReady word)
  | queueNotify (h : offset = 0x050#64) : RegisterWrite t offset word (t.writeQueueNotify word)
  | interruptAck (h : offset = 0x064#64) :
      RegisterWrite t offset word { t with interruptStatus := t.interruptStatus &&& ~~~word }
  | status (h : offset = 0x070#64) : RegisterWrite t offset word (t.writeStatusLocked word)
  | ignored : RegisterWrite t offset word t

/-- A choice between two values has what both of them have. -/
theorem of_ite {α : Type} {P : α → Prop} {c : Prop} [Decidable c] {a b : α} (ha : c → P a)
    (hb : ¬ c → P b) : P (if c then a else b) := by
  by_cases h : c
  · rw [if_pos h]
    exact ha h
  · rw [if_neg h]
    exact hb h

theorem registerWrite (t : VirtioMmioTransport) (offset : BitVec 64) (word : BitVec 32) :
    RegisterWrite t offset word (t.writeRegister offset word) := by
  rw [writeRegister]
  refine of_ite .deviceFeaturesSelector fun _ ↦ ?_
  refine of_ite .driverFeaturesSelector fun _ ↦ ?_
  refine of_ite .driverFeatures fun _ ↦ ?_
  refine of_ite .queueSelector fun _ ↦ ?_
  refine of_ite (fun _ ↦ .queue _ fun _ ↦ rfl) fun _ ↦ ?_
  refine of_ite .queueReady fun _ ↦ ?_
  refine of_ite .queueNotify fun _ ↦ ?_
  refine of_ite .interruptAck fun _ ↦ ?_
  refine of_ite .status fun _ ↦ ?_
  -- the six address halves
  iterate 6 refine of_ite (fun _ ↦ .queue _ fun _ ↦ rfl) fun _ ↦ ?_
  exact .ignored

/-- A change of the queues: one that is not ready gets another configuration, one is made ready or
not as the check of its configuration says, or all are reset. -/
inductive QueueChange (t : VirtioMmioTransport) : (Fin 8 → QueueState) → Prop
  | same : QueueChange t t.queues
  | configure (f : QueueState → QueueState) (hf : ∀ q, (f q).ready = q.ready)
      (h : (t.queues t.selectedIndex).ready = false) :
      QueueChange t (Function.update t.queues t.selectedIndex (f (t.queues t.selectedIndex)))
  | ready (r : Bool) (h : r = true → t.selectedQueueValidLocked = true) :
      QueueChange t (Function.update t.queues t.selectedIndex
        { t.queues t.selectedIndex with ready := r })
  | reset : QueueChange t fun _ ↦ {}

theorem queues_writeRegister (t : VirtioMmioTransport) (offset : BitVec 64) (word : BitVec 32) :
    QueueChange t (t.writeRegister offset word).queues := by
  have hwrite := t.registerWrite offset word
  generalize t.writeRegister offset word = t' at hwrite
  cases hwrite with
  | driverFeatures =>
    rw [writeDriverFeatures]
    split
    · exact .same
    · split <;> exact .same
  | queue f hf =>
    rw [configureQueue]
    split
    · next h => exact .configure f hf (by simpa using (Bool.and_eq_true_iff.1 h).2)
    · exact .same
  | queueReady =>
    rw [writeQueueReady]
    split
    · exact .ready _ fun h ↦ (Bool.and_eq_true_iff.1 h).2
    · exact .same
  | queueNotify =>
    rw [writeQueueNotify]
    split <;> exact .same
  | status =>
    rw [writeStatusLocked]
    split
    · exact .reset
    · dsimp only
      split <;> exact .same
  | _ => exact .same

theorem event_cases (t : VirtioMmioTransport) (e : TransportEvent) :
    QueueChange t (t.event e).queues ∧ (t.event e).config = t.config := by
  cases e with
  | write offset w value =>
    refine ⟨?_, t.config_write offset w value⟩
    rw [event, write]
    exact of_ite (P := fun r : AccessResult × VirtioMmioTransport ↦ QueueChange t r.2.queues)
      (fun _ ↦ .same) fun _ ↦ t.queues_writeRegister offset _
  | popNotification =>
    rw [event, popNotification]
    cases t.notifications with
    | nil => exact ⟨.same, rfl⟩
    | cons i rest => exact ⟨.same, rfl⟩
  | raiseUsedBufferInterrupt => exact ⟨.same, rfl⟩

/-- A notification in the queue was there before, or names an existing queue. -/
theorem notifications_writeRegister (t : VirtioMmioTransport) (offset : BitVec 64)
    (word : BitVec 32) :
    ∀ i ∈ (t.writeRegister offset word).notifications,
      i ∈ t.notifications ∨ i < t.config.queueCount := by
  intro i hi
  have hwrite := t.registerWrite offset word
  generalize t.writeRegister offset word = t' at hwrite hi
  cases hwrite with
  | driverFeatures =>
    rw [writeDriverFeatures] at hi
    split at hi
    · exact Or.inl hi
    · split at hi <;> exact Or.inl hi
  | queue f =>
    rw [configureQueue] at hi
    split at hi <;> exact Or.inl hi
  | queueReady =>
    rw [writeQueueReady] at hi
    split at hi <;> exact Or.inl hi
  | queueNotify =>
    rw [writeQueueNotify] at hi
    split at hi
    · next h =>
      rw [Bool.and_eq_true, Bool.and_eq_true, decide_eq_true_iff] at h
      rcases List.mem_append.1 hi with hold | hnew
      · exact Or.inl hold
      · refine Or.inr ?_
        -- the word is below a 16-bit count, so nothing is cut off
        have hlt := BitVec.lt_def.1 h.1.2
        rw [BitVec.toNat_setWidth] at hlt
        have hcount := t.config.queueCount.isLt
        rw [List.mem_singleton.1 hnew, BitVec.lt_def, BitVec.toNat_setWidth]
        omega
    · exact Or.inl hi
  | status =>
    rw [writeStatusLocked] at hi
    split at hi
    · exact absurd hi List.not_mem_nil
    · dsimp only at hi
      split at hi <;> exact Or.inl hi
  | _ => exact Or.inl hi

theorem notifications_event (t : VirtioMmioTransport) (e : TransportEvent) :
    ∀ i ∈ (t.event e).notifications, i ∈ t.notifications ∨ i < t.config.queueCount := by
  cases e with
  | write offset w value =>
    rw [event, write]
    exact of_ite (P := fun r : AccessResult × VirtioMmioTransport ↦
      ∀ i ∈ r.2.notifications, i ∈ t.notifications ∨ i < t.config.queueCount)
      (fun _ _ hi ↦ Or.inl hi) fun _ ↦ t.notifications_writeRegister offset _
  | popNotification =>
    intro i hi
    rw [event, popNotification] at hi
    cases hlist : t.notifications with
    | nil => simp [hlist] at hi
    | cons j rest =>
      rw [hlist] at hi
      exact Or.inl (List.mem_cons_of_mem _ hi)
  | raiseUsedBufferInterrupt => exact fun i hi ↦ Or.inl hi

end VirtioMmioTransport

/-! ## The invariant -/

/-- A queue the device can work with. -/
structure QueueState.WellConfigured (queue : QueueState) (config : VirtioMmioConfig) : Prop where
  size_eq : ∃ k, queue.size.toNat = 2 ^ k
  size_pos : 1 ≤ queue.size.toNat
  size_le : queue.size.toNat ≤ config.queueSizeMax.toNat
  descriptorTable : queue.descriptorTable ≠ 0#64 ∧ 16 ∣ queue.descriptorTable.toNat
  availableRing : queue.availableRing ≠ 0#64 ∧ 2 ∣ queue.availableRing.toNat
  usedRing : queue.usedRing ≠ 0#64 ∧ 4 ∣ queue.usedRing.toNat

theorem of_aligned {value : BitVec 64} {n : ℕ} (hn : n < 2 ^ 64)
    (h : aligned value (BitVec.ofNat 64 n) = true) : value ≠ 0#64 ∧ n ∣ value.toNat := by
  rw [aligned, Bool.and_eq_true, bne_iff_ne, beq_iff_eq] at h
  refine ⟨h.1, Nat.dvd_of_mod_eq_zero ?_⟩
  have := congrArg BitVec.toNat h.2
  rwa [BitVec.toNat_umod, BitVec.toNat_ofNat, Nat.mod_eq_of_lt hn] at this

namespace VirtioMmioTransport

theorem wellConfigured_of_valid {t : VirtioMmioTransport} (h : t.selectedQueueValidLocked = true) :
    (t.queues t.selectedIndex).WellConfigured t.config := by
  rw [selectedQueueValidLocked] at h
  split at h
  · cases h
  · dsimp only at h
    split at h
    · cases h
    · next hsize =>
      simp only [Bool.or_eq_true, decide_eq_true_iff, Bool.not_eq_true', not_or,
        Bool.not_eq_false] at hsize
      obtain ⟨⟨-, hle⟩, hpow⟩ := hsize
      simp only [Bool.and_eq_true] at h
      obtain ⟨k, hk⟩ := powerOfTwo_iff.1 hpow
      refine ⟨⟨k, hk⟩, hk ▸ Nat.two_pow_pos k, ?_, of_aligned (by decide) h.1.1,
        of_aligned (by decide) h.1.2, of_aligned (by decide) h.2⟩
      simpa [BitVec.lt_def] using hle

/-- The ready queues can be worked with, and the notifications name existing queues. -/
structure Configured (config : VirtioMmioConfig) (t : VirtioMmioTransport) : Prop where
  config_eq : t.config = config
  ready : ∀ q, (t.queues q).ready = true → (t.queues q).WellConfigured config
  notifications : ∀ i ∈ t.notifications, i < config.queueCount

theorem configured_powerOn (config : VirtioMmioConfig) : Configured config (powerOn config) :=
  ⟨rfl, fun _ h ↦ absurd h (by simp [powerOn]), fun _ h ↦ absurd h (by simp [powerOn])⟩

/-- The rings of a ready queue have as many slots as a power of two. -/
theorem Configured.powerOfTwo_queueLayout {config : VirtioMmioConfig} {t : VirtioMmioTransport}
    (h : Configured config t) {queueIndex : BitVec 16}
    (hready : (t.queueLayout queueIndex).ready = true) :
    powerOfTwo (t.queueLayout queueIndex).size = true := by
  rw [queueLayout] at hready ⊢
  split
  · next hno =>
    rw [dif_pos hno] at hready
    cases hready
  · next hqueue =>
    rw [dif_neg hqueue] at hready
    exact powerOfTwo_iff.2 (h.ready _ hready).size_eq

theorem Configured.event {config : VirtioMmioConfig} {t : VirtioMmioTransport}
    (h : Configured config t)
    (e : TransportEvent) : Configured config (t.event e) := by
  obtain ⟨hchange, hconfig⟩ := t.event_cases e
  refine ⟨hconfig.trans h.config_eq, ?_, fun i hi ↦ ?_⟩
  · intro q hq
    generalize (t.event e).queues = queues at hchange hq ⊢
    cases hchange with
    | same => exact h.ready q hq
    | configure f hf hready =>
      by_cases hsel : q = t.selectedIndex
      · subst hsel
        rw [Function.update_self, hf, hready] at hq
        cases hq
      · rw [Function.update_of_ne hsel] at hq ⊢
        exact h.ready q hq
    | ready r hvalid =>
      by_cases hsel : q = t.selectedIndex
      · subst hsel
        rw [Function.update_self] at hq ⊢
        obtain ⟨h₁, h₂, h₃, h₄, h₅, h₆⟩ := wellConfigured_of_valid (hvalid hq)
        rw [h.config_eq] at h₃
        exact ⟨h₁, h₂, h₃, h₄, h₅, h₆⟩
      · rw [Function.update_of_ne hsel] at hq ⊢
        exact h.ready q hq
    | reset => cases hq
  · rcases t.notifications_event e i hi with hold | hnew
    · exact h.notifications i hold
    · rwa [h.config_eq] at hnew

/-- A queue that was ready and still is has not changed. -/
theorem queue_event_of_ready (t : VirtioMmioTransport) (e : TransportEvent) {q : Fin 8}
    (hbefore : (t.queues q).ready = true) (hafter : ((t.event e).queues q).ready = true) :
    (t.event e).queues q = t.queues q := by
  obtain ⟨hchange, -⟩ := t.event_cases e
  generalize (t.event e).queues = queues at hchange hafter ⊢
  cases hchange with
  | same => rfl
  | configure f hf hready =>
    by_cases hsel : q = t.selectedIndex
    · subst hsel
      rw [hready] at hbefore
      cases hbefore
    · rw [Function.update_of_ne hsel]
  | ready r hvalid =>
    by_cases hsel : q = t.selectedIndex
    · subst hsel
      rw [Function.update_self] at hafter ⊢
      rw [show r = (t.queues t.selectedIndex).ready from hafter.trans hbefore.symm]
    · rw [Function.update_of_ne hsel]
  | reset => cases hafter

/-- Writing zero to the status register. -/
theorem write_status_zero (t : VirtioMmioTransport) {value : BitVec 64}
    (h : value.setWidth 32 = 0#32) :
    (t.write 0x070#64 .word value).2 = t.resetLocked := by
  rw [write, h]
  rfl

/-- **The queue configuration invariant.**  Whatever the driver writes from power-on, a ready queue
is well configured and stays as it is while it is ready, the notifications name existing queues, and
a reset restores everything but the two counters. -/
theorem queues_configured (config : VirtioMmioConfig) (events : List TransportEvent) :
    let t := Runs.run event (powerOn config) events
    (∀ q, (t.queues q).ready = true → (t.queues q).WellConfigured config) ∧
    (∀ (q : Fin 8) (later : List TransportEvent),
      Runs.Along event (fun t e ↦ (t.queues q).ready = true ∧ ((t.event e).queues q).ready = true) t
        later →
      (Runs.run event t later).queues q = t.queues q) ∧
    (∀ i ∈ t.notifications, i < config.queueCount) ∧
    ∀ value : BitVec 64, value.setWidth 32 = 0#32 →
      let reset := (t.write 0x070#64 .word value).2
      reset = { powerOn config with
        configGeneration := t.configGeneration + 1#32, generation := t.generation + 1#64 } ∧
      (∀ offset w, offset ≠ 0x0FC#64 → reset.read offset w = (powerOn config).read offset w) ∧
      (∀ q, (reset.queues q).ready = false) ∧ reset.notifications = [] := by
  intro t
  have hconfigured : Configured config t :=
    Runs.run_induction (fun _ e h ↦ h.event e) (configured_powerOn config) events
  refine ⟨hconfigured.ready, fun q later hready ↦ ?_, hconfigured.notifications,
    fun value hvalue ↦ ?_⟩
  · exact Runs.run_unchanged (f := fun t ↦ t.queues q) (I := fun _ ↦ True) (fun _ _ _ ↦ trivial)
      (fun t e _ h ↦ t.queue_event_of_ready e h.1 h.2) trivial hready
  · rw [t.write_status_zero hvalue]
    have hreset : t.resetLocked = { powerOn config with
        configGeneration := t.configGeneration + 1#32, generation := t.generation + 1#64 } := by
      rw [resetLocked, ← hconfigured.config_eq]
      rfl
    refine ⟨hreset, fun offset w hoffset ↦ ?_, fun _ ↦ rfl, rfl⟩
    rw [hreset, read, read, if_neg hoffset, if_neg hoffset]
    rfl

end VirtioMmioTransport

end Rvemu
