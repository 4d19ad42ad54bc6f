import Rvemu.Devices.QueueConfiguration
import Rvemu.Devices.UsedRing
import Rvemu.Devices.VirtioBlock

/-!
# A reset isolates what follows it

The ring indices live in the block device, the queues and the notifications in its transport.  A
reset by the driver reaches the transport only; the device learns of it when it takes the next
notification and finds that the generation of the transport is not the one it saw last.  Up to then
the driver may reset again, configure queues and notify.

`reset_isolation` compares a machine after a reset with one whose device has never served a request
and whose transport was just powered on: nothing that is seen of the two ever differs.  It also says
where the first head comes from and where the first completion goes.  The generation has 64 bits, so
the device takes 2 ^ 64 resets between two looks for none; this is the only way to break the
isolation.
-/

set_option autoImplicit false

namespace Rvemu

/-! ## What a request does not depend on

The runtime counts its own resets, and nothing reads the count. -/

namespace VirtqueueRuntimeState

def withGeneration (s : VirtqueueRuntimeState) (g : BitVec 64) : VirtqueueRuntimeState :=
  { s with generation := g }

theorem related_consumeAvailable (s : VirtqueueRuntimeState) (layout : VirtqueueLayout)
    (g : BitVec 64) :
    Dialogue.Related (fun a b ↦ b = (a.1, a.2.withGeneration g) ∧ a.2.usedIdx = s.usedIdx)
      (s.consumeAvailable layout) ((s.withGeneration g).consumeAvailable layout) := by
  rw [consumeAvailable, consumeAvailable]
  refine .ite (fun _ ↦ .value ⟨rfl, rfl⟩) fun _ ↦ .after _ fun idx ↦ ?_
  refine .ite (fun _ ↦ .value ⟨rfl, rfl⟩) fun _ ↦ ?_
  refine .ite (fun _ ↦ .value ⟨rfl, rfl⟩) fun _ ↦ ?_
  refine .ite (fun _ ↦ .value ⟨rfl, rfl⟩) fun _ ↦ .after _ fun head ↦ ?_
  exact .ite (fun _ ↦ .value ⟨rfl, rfl⟩) fun _ ↦ .value ⟨rfl, rfl⟩

theorem related_publishUsed (s : VirtqueueRuntimeState) (layout : VirtqueueLayout)
    (id length : BitVec 32) (g : BitVec 64) :
    Dialogue.Related
      (fun a b ↦ b = (a.1, a.2.withGeneration g) ∧ (a.1 ≠ .none → a.2.usedIdx = s.usedIdx))
      (s.publishUsed layout id length) ((s.withGeneration g).publishUsed layout id length) := by
  rw [publishUsed, publishUsed]
  refine .ite (fun _ ↦ .value ⟨rfl, fun _ ↦ rfl⟩) fun _ ↦ .after _ fun idWrite ↦ ?_
  refine .ite (fun _ ↦ .value ⟨rfl, fun _ ↦ rfl⟩) fun _ ↦ .after _ fun lenWrite ↦ ?_
  refine .ite (fun _ ↦ .value ⟨rfl, fun _ ↦ rfl⟩) fun _ ↦ .after _ fun idxWrite ↦ ?_
  exact .ite (fun _ ↦ .value ⟨rfl, fun _ ↦ rfl⟩) fun _ ↦ .value ⟨rfl, fun h ↦ absurd rfl h⟩

end VirtqueueRuntimeState

namespace VirtioBlockDevice

def withGeneration (device : VirtioBlockDevice) (g : BitVec 64) : VirtioBlockDevice :=
  { device with queueRuntime := device.queueRuntime.withGeneration g }

/-- The results of a request of a device and of one with another count of resets. -/
structure SameResult (start : VirtioBlockDevice) (g : BitVec 64)
    (a b : Option VirtioBlockProcessStatus × VirtioBlockDevice) : Prop where
  eq : b = (a.1, a.2.withGeneration g)
  observed : a.2.observedTransportGeneration = start.observedTransportGeneration
  usedIdx : a.1 ≠ some .completed → a.2.queueRuntime.usedIdx = start.queueRuntime.usedIdx

variable (device : VirtioBlockDevice) (host : HostDisk) (layout : VirtqueueLayout)
    (head : BitVec 16)
  (g : BitVec 64)

theorem related_complete (statusSegment : VirtqueueSegment) (outcome : RequestOutcome) :
    Dialogue.Related (device.SameResult g) (device.complete layout head statusSegment outcome)
      ((device.withGeneration g).complete layout head statusSegment outcome) := by
  rw [complete, complete]
  refine .ite (fun _ ↦ .value ⟨rfl, rfl, fun _ ↦ rfl⟩) fun _ ↦ ?_
  refine .after _ fun written ↦ .ite (fun _ ↦ .value ⟨rfl, rfl, fun _ ↦ rfl⟩) fun _ ↦ ?_
  refine (device.queueRuntime.related_publishUsed layout _ _ g).bind ?_
  rintro a - ⟨rfl, hused⟩
  refine .ite (fun h ↦ .value ⟨rfl, rfl, fun _ ↦ hused h⟩) fun h ↦ .value ⟨rfl, rfl, ?_⟩
  exact fun hstatus ↦ absurd rfl hstatus

theorem related_handle (segments : List VirtqueueSegment) :
    Dialogue.Related (device.SameResult g) (device.handle host layout head segments)
      ((device.withGeneration g).handle host layout head segments) := by
  rw [handle, handle]
  refine .ite (fun _ ↦ .value ⟨rfl, rfl, fun _ ↦ rfl⟩) fun _ ↦ .after _ fun header ↦ ?_
  cases header with
  | none => exact .value ⟨rfl, rfl, fun _ ↦ rfl⟩
  | some header =>
    refine .ite (fun _ ↦ .value ⟨rfl, rfl, fun _ ↦ rfl⟩) fun _ ↦ .after _ fun outcome ↦ ?_
    exact device.related_complete layout head g _ outcome

theorem related_request :
    Dialogue.Related (device.SameResult g) (device.request host layout)
      ((device.withGeneration g).request host layout) := by
  rw [request, request]
  refine (device.queueRuntime.related_consumeAvailable layout g).bind ?_
  rintro a - ⟨rfl, hused⟩
  have hsame {r r' : Option VirtioBlockProcessStatus × VirtioBlockDevice}
      (h : SameResult { device with queueRuntime := a.2 } g r r') : device.SameResult g r r' :=
    ⟨h.eq, h.observed, fun hstatus ↦ (h.usedIdx hstatus).trans hused⟩
  refine .ite (fun _ ↦ .value (hsame ⟨rfl, rfl, fun _ ↦ rfl⟩)) fun _ ↦ .after _ fun parsed ↦ ?_
  refine .ite (fun _ ↦ .value (hsame ⟨rfl, rfl, fun _ ↦ rfl⟩)) fun _ ↦ ?_
  exact (related_handle { device with queueRuntime := a.2 } host layout a.1.head g _).mono hsame

/-- A call that takes no head leaves the indices where they were. -/
theorem queueRuntime_request_of_none {b : Bus}
    (h : (!((device.queueRuntime.consumeAvailable layout).run Bus.dma b).1.1.ok ||
      ((device.queueRuntime.consumeAvailable layout).run Bus.dma b).1.1.pendingCount ==
      0#16) = true) :
    ((device.request host layout).run Bus.dma b).1.2.queueRuntime = device.queueRuntime := by
  have hnone : ((device.queueRuntime.consumeAvailable layout).run Bus.dma b).1.1.ok = false ∨
      ((device.queueRuntime.consumeAvailable layout).run Bus.dma b).1.1.pendingCount = 0#16 := by
    rwa [Bool.or_eq_true, Bool.not_eq_true', beq_iff_eq] at h
  rw [request, Dialogue.run_bind, if_pos h]
  exact consumeAvailable_unchanged device.queueRuntime layout b hnone

/-- A request that is completed ends with the writes of a publication. -/
theorem calls_complete (statusSegment : VirtqueueSegment) (outcome : RequestOutcome) (b : Bus)
    (h : ((device.complete layout head statusSegment outcome).run Bus.dma b).1.1 =
      some .completed) :
    layout.usedWrites device.queueRuntime.usedIdx (head.setWidth 32, outcome.usedLength) <:+
      (device.complete layout head statusSegment outcome).calls Bus.dma b := by
  rw [complete] at h ⊢
  split at h
  · cases h
  next hslices =>
  rw [Dialogue.run_bind] at h
  rw [if_neg hslices, Dialogue.calls_bind]
  split at h
  · cases h
  · next hwritten =>
    rw [if_neg hwritten, Dialogue.calls_bind]
    rw [Dialogue.run_bind] at h
    split at h
    · cases h
    · next hcode =>
      have hnone := not_not.1 hcode
      rw [if_neg hcode, Dialogue.calls_pure, List.append_nil]
      rcases (@UsedRun.publish_cases layout
        { bus := ((writeStatus statusSegment outcome.status).run Bus.dma b).2
          device := device.queueRuntime } (head.setWidth 32, outcome.usedLength)).2 with
        ⟨-, hvalue⟩ | ⟨-, ⟨hcalls, -⟩ | ⟨_, _, _, -, -, -, -, hvalue⟩⟩
      · cases hnone.symm.trans (congrArg Prod.fst hvalue)
      · exact hcalls ▸ List.suffix_append _ _
      · cases hnone.symm.trans (congrArg Prod.fst hvalue)

end VirtioBlockDevice

/-! ## The machine -/

namespace Bus

/-- The generation of the transport; without a transport nothing below happens. -/
def generation (b : Bus) : BitVec 64 := (b.transport.map (·.generation)).getD 0#64

/-- The driver writes a register of the transport. -/
def writeTransport (b : Bus) (offset : BitVec 64) (w : AccessWidth) (value : BitVec 64) : Bus :=
  b.update .transport (fun t ↦ (t.write offset w value).2)
    fun t ↦ congrArg VirtioMmioConfig.range (t.config_write offset w value)

theorem transport_writeTransport (b : Bus) (offset : BitVec 64) (w : AccessWidth)
    (value : BitVec 64) : (b.writeTransport offset w value).transport =
      b.transport.map fun t ↦ (t.write offset w value).2 := component_update _ _ _ _

theorem memoryMap_writeTransport (b : Bus) (offset : BitVec 64) (w : AccessWidth)
    (value : BitVec 64) : (b.writeTransport offset w value).memoryMap = b.memoryMap :=
  memoryMap_update _ _ _ _ fun t ↦ (AddressRegion.virtio t).identity_write offset w value

/-- No access adds a transport or takes it away. -/
theorem isSome_transport_of_memoryMap {b b' : Bus} (h : b'.memoryMap = b.memoryMap) :
    b'.transport.isSome = b.transport.isSome := by
  have hkind (b : Bus) : b.transport.isSome = b.memoryMap.any (·.1 == .virtio) := by
    have hregion (r : AddressRegion) :
        (Component.transport.get r).isSome = (r.identity.1 == .virtio) := by
      cases r <;> rfl
    rw [transport, component, List.isSome_findSome?, memoryMap, List.any_map]
    exact congrArg (b.regions.any ·) (funext hregion)
  rw [hkind, hkind, h]

theorem generation_of_pop {b : Bus} {queueIndex : BitVec 16} {t : VirtioMmioTransport}
    (h : b.transport.bind VirtioMmioTransport.popNotification = some (queueIndex, t)) :
    t.generation = b.generation := by
  obtain ⟨before, hbefore, hpop⟩ := Option.bind_eq_some_iff.1 h
  rw [VirtioMmioTransport.popNotification] at hpop
  split at hpop
  · cases hpop
  · cases hpop
    rw [generation, hbefore]
    rfl

end Bus

/-- The block device and the bus with its transport. -/
structure BlockMachine where
  device : VirtioBlockDevice
  bus : Bus
  /-- How far the generation has moved since the device last looked. -/
  unseen : ℕ := 0

/-- The driver writes a register of the transport, a call of the device serves a request, or
something happens elsewhere on the bus. -/
inductive BlockEvent
  | registerWrite (offset : BitVec 64) (w : AccessWidth) (value : BitVec 64)
  | processOne (host : HostDisk)
  | elsewhere (bus : Bus)

namespace BlockMachine

/-- The notification that a call takes, with the transport after it. -/
def notification (m : BlockMachine) : Option (BitVec 16 × VirtioMmioTransport) :=
  m.bus.transport.bind VirtioMmioTransport.popNotification

/-- The device once it has looked at the generation. -/
def synchronized (m : BlockMachine) : VirtioBlockDevice :=
  m.device.synchronizeQueueGeneration m.bus.generation

def step (m : BlockMachine) : BlockEvent → BlockMachine
  | .registerWrite offset w value =>
    let bus := m.bus.writeTransport offset w value
    { m with bus, unseen := m.unseen + (bus.generation - m.bus.generation).toNat }
  | .processOne host =>
    let done := m.device.processOne host m.bus
    { device := done.2.1
      bus := done.2.2
      unseen := (if m.notification.isSome then 0 else m.unseen)
        + (done.2.2.generation - m.bus.generation).toNat }
  | .elsewhere bus => { m with bus }

/-- The transport has no other driver. -/
def Allowed (m : BlockMachine) : BlockEvent → Prop
  | .elsewhere bus => bus.transport = m.bus.transport
  | _ => True

/-- The count of the resets has not come round. -/
def Counted (m : BlockMachine) (e : BlockEvent) : Prop := m.Allowed e ∧ (m.step e).unseen < 2 ^ 64

/-- The generation is as far from the one the device saw as the count says. -/
def Synced (m : BlockMachine) : Prop :=
  m.bus.generation = m.device.observedTransportGeneration + BitVec.ofNat 64 m.unseen

/-! ### What one event can do

An event that takes no notification moves the bus only; a call that takes one looks at the
generation, and then moves the bus. -/

/-- The machine with another bus. -/
def moved (m : BlockMachine) (bus : Bus) : BlockMachine :=
  { m with bus, unseen := m.unseen + (bus.generation - m.bus.generation).toNat }

theorem moved_of_generation_eq (m : BlockMachine) {bus : Bus}
    (h : bus.generation = m.bus.generation) : m.moved bus = { m with bus } := by
  rw [moved, h, BitVec.sub_self]
  rfl

/-- The request that a call serves. -/
def served (m : BlockMachine) (host : HostDisk) (queueIndex : BitVec 16) (t : VirtioMmioTransport) :
    (Option VirtioBlockProcessStatus × VirtioBlockDevice) × Bus :=
  (m.synchronized.request host (t.queueLayout queueIndex)).run Bus.dma m.bus.dropNotification

/-- How a call that takes a notification ends. -/
theorem processOne_eq {m : BlockMachine} {queueIndex : BitVec 16} {t : VirtioMmioTransport}
    (h : m.notification = some (queueIndex, t)) (host : HostDisk) :
    m.device.processOne host m.bus =
      let served := m.served host queueIndex t
      (served.1.1, served.1.2,
        if served.1.1 = some .completed then served.2.raiseUsedBufferInterrupt else served.2) := by
  rw [VirtioBlockDevice.processOne, show m.bus.transport.bind _ = some (queueIndex, t) from h]
  dsimp only
  rw [Bus.generation_of_pop h]
  rfl

theorem processOne_eq_none {m : BlockMachine} (h : m.notification = none) (host : HostDisk) :
    m.device.processOne host m.bus = (some .noNotification, m.device, m.bus) := by
  rw [VirtioBlockDevice.processOne, show m.bus.transport.bind _ = none from h]

theorem step_quiet {m : BlockMachine} {e : BlockEvent} (hallowed : m.Allowed e)
    (hquiet : ∀ host, e = .processOne host → m.notification = none) :
    m.step e = m.moved (m.step e).bus := by
  cases e with
  | registerWrite offset w value => rfl
  | processOne host =>
    have hnone := hquiet host rfl
    rw [step, processOne_eq_none hnone, hnone, moved]
    rfl
  | elsewhere bus =>
    have hsame : bus.generation = m.bus.generation := by
      rw [Bus.generation, Bus.generation, show bus.transport = m.bus.transport from hallowed]
    exact (m.moved_of_generation_eq hsame).symm

theorem step_serving {m : BlockMachine} {queueIndex : BitVec 16} {t : VirtioMmioTransport}
    (h : m.notification = some (queueIndex, t)) (host : HostDisk) :
    m.step (.processOne host) =
      ({ device := (m.served host queueIndex t).1.2, bus := m.bus } : BlockMachine).moved
        (m.step (.processOne host)).bus := by
  rw [step, moved, processOne_eq h host, h]
  rfl

/-! ### The generations -/

theorem Synced.moved {m : BlockMachine} (h : m.Synced) (bus : Bus) : (m.moved bus).Synced := by
  rw [Synced] at h
  rw [Synced, BlockMachine.moved]
  dsimp only
  rw [BitVec.ofNat_add, BitVec.ofNat_toNat, BitVec.setWidth_eq, ← BitVec.add_assoc, ← h,
    BitVec.add_comm, BitVec.sub_add_cancel]

/-- Short of a whole turn, the device sees that there was a reset. -/
theorem Synced.generation_eq_iff {m : BlockMachine} (h : m.Synced) (hlt : m.unseen < 2 ^ 64) :
    m.bus.generation = m.device.observedTransportGeneration ↔ m.unseen = 0 := by
  rw [h, BitVec.add_right_eq_self, ← BitVec.toNat_inj, BitVec.toNat_ofNat, Nat.mod_eq_of_lt hlt]
  rfl

/-- The device that is about to see a reset, or the one it was. -/
theorem Synced.synchronized_moved {m : BlockMachine} (h : m.Synced) {bus : Bus}
    (hlt : (m.moved bus).unseen < 2 ^ 64) :
    (m.moved bus).synchronized =
      if bus.generation = m.bus.generation then m.synchronized
      else
        { m.device with
          observedTransportGeneration := bus.generation, queueRuntime :=
          m.device.queueRuntime.reset } := by
  by_cases hsame : bus.generation = m.bus.generation
  · rw [if_pos hsame, synchronized, synchronized, BlockMachine.moved]
    dsimp only
    rw [hsame]
  · have hpos : (bus.generation - m.bus.generation).toNat ≠ 0 := by
      intro hzero
      have hdiff := BitVec.eq_of_toNat_eq (y := 0#64) hzero
      exact hsame (by rw [← BitVec.sub_add_cancel bus.generation m.bus.generation, hdiff,
        BitVec.zero_add])
    have hne := mt ((h.moved bus).generation_eq_iff hlt).1 fun hzero ↦
      hpos (Nat.eq_zero_of_add_eq_zero_left hzero)
    rw [if_neg hsame, synchronized, VirtioBlockDevice.synchronizeQueueGeneration, if_neg hne]
    rfl

@[simp] theorem disk_synchronized (m : BlockMachine) : m.synchronized.disk = m.device.disk := by
  rw [synchronized, VirtioBlockDevice.synchronizeQueueGeneration]
  split <;> rfl

@[simp] theorem observed_synchronized (m : BlockMachine) :
    m.synchronized.observedTransportGeneration = m.bus.generation := by
  rw [synchronized, VirtioBlockDevice.synchronizeQueueGeneration]
  split
  · next h => exact h.symm
  · rfl

/-- A call leaves a device that has seen the generation the call started with. -/
theorem observed_served (m : BlockMachine) (host : HostDisk) (queueIndex : BitVec 16)
    (t : VirtioMmioTransport) :
    (m.served host queueIndex t).1.2.observedTransportGeneration = m.bus.generation := by
  have h := ((m.synchronized.related_request host (t.queueLayout queueIndex) 0#64).run Bus.dma
    m.bus.dropNotification).1.observed
  rwa [observed_synchronized] at h

theorem synced_served (m : BlockMachine) (host : HostDisk) (queueIndex : BitVec 16)
    (t : VirtioMmioTransport) :
    Synced { device := (m.served host queueIndex t).1.2, bus := m.bus } := by
  rw [Synced]
  dsimp only
  rw [m.observed_served host queueIndex t, BitVec.add_zero]

/-- A device that has just looked is synchronized. -/
theorem synchronized_looked {device : VirtioBlockDevice} {bus : Bus}
    (h : device.observedTransportGeneration = bus.generation) :
    synchronized { device, bus } = device := by
  rw [synchronized, VirtioBlockDevice.synchronizeQueueGeneration, if_pos h.symm]

theorem step_cases {m : BlockMachine} {e : BlockEvent} (hallowed : m.Allowed e) :
    m.step e = m.moved (m.step e).bus ∨
      ∃ host queueIndex t, e = .processOne host ∧ m.notification = some (queueIndex, t) ∧
        m.step e = ({ device := (m.served host queueIndex t).1.2, bus := m.bus } :
          BlockMachine).moved (m.step e).bus := by
  by_cases hquiet : ∀ host, e = .processOne host → m.notification = none
  · exact Or.inl (step_quiet hallowed hquiet)
  · push Not at hquiet
    obtain ⟨host, rfl, hsome⟩ := hquiet
    obtain ⟨⟨queueIndex, t⟩, ht⟩ := Option.ne_none_iff_exists'.1 hsome
    exact Or.inr ⟨host, queueIndex, t, rfl, ht, step_serving ht host⟩

theorem Synced.step {m : BlockMachine} (h : m.Synced) {e : BlockEvent} (hallowed : m.Allowed e) :
    (m.step e).Synced := by
  rcases step_cases hallowed with hstep | ⟨host, queueIndex, t, -, -, hstep⟩
  · rw [hstep]
    exact h.moved _
  · rw [hstep]
    exact (m.synced_served host queueIndex t).moved _

/-! ## Two machines that look the same -/

/-- The requests of a call. -/
def requests (m : BlockMachine) (host : HostDisk) : List DmaRequest :=
  match m.notification with
  | none => []
  | some (queueIndex, t) =>
    (m.synchronized.request host (t.queueLayout queueIndex)).calls Bus.dma m.bus.dropNotification

/-- What is seen of an event: how a call ends, and what it asks of the bus. -/
def observe (m : BlockMachine) :
    BlockEvent → Option (Option VirtioBlockProcessStatus × List DmaRequest)
  | .processOne host => some ((m.device.processOne host m.bus).1, m.requests host)
  | _ => none

/-- The next call does the same in both machines. -/
structure Alike (m n : BlockMachine) : Prop where
  bus : n.bus = m.bus
  synced : m.Synced ∧ n.Synced
  unseen : n.unseen ≤ m.unseen
  device : ∃ g, n.synchronized = m.synchronized.withGeneration g

theorem Alike.moved {m n : BlockMachine} (h : m.Alike n) {bus : Bus}
    (hlt : (m.moved bus).unseen < 2 ^ 64) : (m.moved bus).Alike (n.moved bus) := by
  obtain ⟨hbus, hsynced, hunseen, g, hdevice⟩ := h
  have hle : (n.moved bus).unseen ≤ (m.moved bus).unseen := by
    rw [BlockMachine.moved, BlockMachine.moved, hbus]
    exact Nat.add_le_add_right hunseen _
  refine ⟨rfl, ⟨hsynced.1.moved bus, hsynced.2.moved bus⟩, hle, ?_⟩
  rw [hsynced.1.synchronized_moved hlt, hsynced.2.synchronized_moved
    (Nat.lt_of_le_of_lt hle hlt), hbus]
  split
  · exact ⟨g, hdevice⟩
  · have hdisk : n.device.disk = m.device.disk := by
      rw [← disk_synchronized, hdevice, ← m.disk_synchronized]
      rfl
    refine ⟨n.device.queueRuntime.generation + 1#64, ?_⟩
    exact congrArg (VirtioBlockDevice.mk · n.device.queueRuntime.reset bus.generation) hdisk

theorem Alike.notification {m n : BlockMachine} (h : m.Alike n) :
    n.notification = m.notification := by
  rw [BlockMachine.notification, h.bus, BlockMachine.notification]

theorem Alike.step {m n : BlockMachine} (h : m.Alike n) {e : BlockEvent} (hcounted : m.Counted e) :
    n.observe e = m.observe e ∧ (m.step e).Alike (n.step e) := by
  obtain ⟨hallowed, hlt⟩ := hcounted
  have hnotification := h.notification
  have hallowed' : n.Allowed e := by
    cases e with
    | elsewhere bus => exact (congrArg (bus.transport = Bus.transport ·) h.bus).mpr hallowed
    | _ => trivial
  by_cases hquiet : ∀ host, e = .processOne host → m.notification = none
  · have hquiet' : ∀ host, e = .processOne host → n.notification = none :=
      fun host he ↦ hnotification.trans (hquiet host he)
    have hsame : n.observe e = m.observe e ∧ (n.step e).bus = (m.step e).bus := by
      cases e with
      | registerWrite offset w value =>
        refine ⟨rfl, ?_⟩
        rw [BlockMachine.step, BlockMachine.step, h.bus]
      | processOne host =>
        have hnone := hquiet host rfl
        have hnone' := hquiet' host rfl
        rw [observe, observe, requests, requests, BlockMachine.step, BlockMachine.step,
          processOne_eq_none hnone, processOne_eq_none hnone', hnone, hnone']
        exact ⟨rfl, h.bus⟩
      | elsewhere bus => exact ⟨rfl, rfl⟩
    have hstep := step_quiet hallowed hquiet
    have hstep' := step_quiet hallowed' hquiet'
    rw [hstep] at hlt
    rw [hstep, hstep', hsame.2]
    exact ⟨hsame.1, h.moved hlt⟩
  · push Not at hquiet
    obtain ⟨host, rfl, hsome⟩ := hquiet
    obtain ⟨⟨queueIndex, t⟩, ht⟩ := Option.ne_none_iff_exists'.1 hsome
    have ht' := hnotification.trans ht
    obtain ⟨g, hdevice⟩ := h.device
    obtain ⟨hresult, hbus, hcalls⟩ :=
      (m.synchronized.related_request host (t.queueLayout queueIndex) g).run Bus.dma
        m.bus.dropNotification
    have hserved : n.served host queueIndex t = (((m.served host queueIndex t).1.1,
        (m.served host queueIndex t).1.2.withGeneration g), (m.served host queueIndex t).2) := by
      rw [served, hdevice, h.bus]
      exact Prod.ext hresult.eq hbus
    have hsame : (n.step (.processOne host)).bus = (m.step (.processOne host)).bus := by
      rw [BlockMachine.step, BlockMachine.step, processOne_eq ht, processOne_eq ht', hserved]
    have hobserved := m.observed_served host queueIndex t
    -- the two machines when the devices have looked, and the rest of the call is still to come
    have hlooked : Alike { device := (m.served host queueIndex t).1.2, bus := m.bus }
        { device := (m.served host queueIndex t).1.2.withGeneration g, bus := m.bus } := by
      have hsynced := m.synced_served host queueIndex t
      refine ⟨rfl, ⟨hsynced, hsynced⟩, Nat.le_refl _, g, ?_⟩
      rw [synchronized_looked hobserved]
      exact synchronized_looked hobserved
    have hstep := step_serving ht host
    have hstep' := step_serving ht' host
    rw [hstep] at hlt
    rw [hsame, hserved, h.bus] at hstep'
    rw [hstep, hstep', observe, observe, requests, requests, processOne_eq ht,
      processOne_eq ht', ht,
      ht', hserved]
    refine ⟨?_, hlooked.moved hlt⟩
    dsimp only
    rw [hdevice, h.bus, hcalls]

/-- The machine with a device that has never served a request. -/
def renewed (m : BlockMachine) : BlockMachine :=
  { device := { disk := m.device.disk, observedTransportGeneration := m.bus.generation },
    bus := m.bus }

/-! ## The reset -/

section Reset

variable {m : BlockMachine} {value : BitVec 64}

theorem transport_reset (hvalue : value.setWidth 32 = 0#32) {t : VirtioMmioTransport}
    (ht : m.bus.transport = some t) :
    (m.step (.registerWrite 0x070#64 .word value)).bus.transport = some t.resetLocked := by
  have hwrite := m.bus.transport_writeTransport 0x070#64 .word value
  rw [ht, Option.map_some, t.write_status_zero hvalue] at hwrite
  exact hwrite

theorem alike_renewed (h : m.Synced) (hvalue : value.setWidth 32 = 0#32) {t : VirtioMmioTransport}
    (ht : m.bus.transport = some t)
    (hlt : (m.step (.registerWrite 0x070#64 .word value)).unseen < 2 ^ 64) :
    (m.step (.registerWrite 0x070#64 .word value)).Alike
      (m.step (.registerWrite 0x070#64 .word value)).renewed := by
  have htransport := transport_reset hvalue ht
  have hgeneration : m.bus.generation = t.generation := by
    rw [Bus.generation, ht]
    rfl
  have hmoved : (m.step (.registerWrite 0x070#64 .word value)).bus.generation ≠
      m.bus.generation := by
    rw [hgeneration, Bus.generation, htransport]
    show t.generation + 1#64 ≠ t.generation
    rw [Ne, BitVec.add_right_eq_self]
    decide
  have hstep : m.step (.registerWrite 0x070#64 .word value) =
      m.moved (m.step (.registerWrite 0x070#64 .word value)).bus := rfl
  refine ⟨rfl, ⟨h.step (e := .registerWrite 0x070#64 .word value) trivial, ?_⟩,
    Nat.zero_le _, 0#64, ?_⟩
  · exact (BitVec.add_zero _).symm
  · rw [hstep] at hlt
    rw [hstep, h.synchronized_moved hlt, if_neg hmoved]
    exact synchronized_looked rfl

end Reset

/-! ### How far the driver can move the generation -/

/-- Only a reset moves the generation, and by one. -/
theorem generation_writeRegister (t : VirtioMmioTransport) (offset : BitVec 64) (word : BitVec 32) :
    (t.writeRegister offset word).generation = t.generation ∨
      (t.writeRegister offset word).generation = t.generation + 1#64 := by
  have hwrite := t.registerWrite offset word
  generalize t.writeRegister offset word = t' at hwrite ⊢
  cases hwrite with
  | driverFeatures =>
    rw [VirtioMmioTransport.writeDriverFeatures]
    split
    · exact Or.inl rfl
    · split <;> exact Or.inl rfl
  | queue f =>
    rw [VirtioMmioTransport.configureQueue]
    split <;> exact Or.inl rfl
  | queueReady =>
    rw [VirtioMmioTransport.writeQueueReady]
    split <;> exact Or.inl rfl
  | queueNotify =>
    rw [VirtioMmioTransport.writeQueueNotify]
    split <;> exact Or.inl rfl
  | status =>
    rw [VirtioMmioTransport.writeStatusLocked]
    split
    · exact Or.inr rfl
    · dsimp only
      split <;> exact Or.inl rfl
  | _ => exact Or.inl rfl

theorem unseen_registerWrite (m : BlockMachine) (offset : BitVec 64) (w : AccessWidth)
    (value : BitVec 64) : (m.step (.registerWrite offset w value)).unseen ≤ m.unseen + 1 := by
  have hgeneration : (m.bus.writeTransport offset w value).generation = m.bus.generation ∨
      (m.bus.writeTransport offset w value).generation = m.bus.generation + 1#64 := by
    rw [Bus.generation, Bus.transport_writeTransport, Bus.generation]
    cases m.bus.transport with
    | none => exact Or.inl rfl
    | some t =>
      show (t.write offset w value).2.generation = t.generation ∨
        (t.write offset w value).2.generation = t.generation + 1#64
      rw [VirtioMmioTransport.write]
      split
      · exact Or.inl rfl
      · exact generation_writeRegister t offset _
  refine Nat.add_le_add_left ?_ m.unseen
  rcases hgeneration with h | h
  · rw [h, BitVec.sub_self]
    exact Nat.zero_le 1
  · rw [h, BitVec.add_comm, BitVec.add_sub_cancel]
    decide

/-- A driver needs 2 ^ 64 writes to bring the count round. -/
theorem along_counted {events : List BlockEvent}
    (hwrites : ∀ e ∈ events, ∃ offset w value, e = .registerWrite offset w value) {m : BlockMachine}
    (hlt : m.unseen + events.length < 2 ^ 64) : Runs.Along step Counted m events := by
  induction events generalizing m with
  | nil => trivial
  | cons e events ih =>
    obtain ⟨offset, w, value, rfl⟩ := hwrites e List.mem_cons_self
    have hle := m.unseen_registerWrite offset w value
    rw [List.length_cons] at hlt
    exact ⟨⟨trivial, by omega⟩, ih (fun e he ↦ hwrites e (List.mem_cons_of_mem _ he)) (by omega)⟩

/-! ## The first head and the first completion -/

/-- The notifications that are waiting. -/
def pending (m : BlockMachine) : List (BitVec 16) := (m.bus.transport.map (·.notifications)).getD []

/-- The look of a call at the available ring. -/
def available (m : BlockMachine) (layout : VirtqueueLayout) :
    (VirtqueueAvailableResult × VirtqueueRuntimeState) × Bus :=
  (m.synchronized.queueRuntime.consumeAvailable layout).run Bus.dma m.bus.dropNotification

/-- The head that a call takes from the available ring. -/
def head (m : BlockMachine) : Option (BitVec 16) :=
  match m.notification with
  | none => none
  | some (queueIndex, t) =>
    let available := (m.available (t.queueLayout queueIndex)).1.1
    if !available.ok || available.pendingCount == 0#16 then none else some available.head

/-- The call takes no head. -/
def TakesNone (m : BlockMachine) (e : BlockEvent) : Prop :=
  ∀ host, e = .processOne host → m.head = none

/-- The call completes no request. -/
def CompletesNone (m : BlockMachine) (e : BlockEvent) : Prop :=
  ∀ host, e = .processOne host → (m.device.processOne host m.bus).1 ≠ some .completed

/-- What a reset of the runtime establishes and the calls preserve holds of the runtime that the
next call uses. -/
theorem runtime_step {P : VirtqueueRuntimeState → Prop}
    (hreset : ∀ s : VirtqueueRuntimeState, P s.reset) {m : BlockMachine}
    (h : m.Synced) {e : BlockEvent} (hcounted : m.Counted e) (hP : P m.synchronized.queueRuntime)
    (hserved : ∀ host queueIndex t, e = .processOne host → m.notification = some (queueIndex, t) →
      P (m.served host queueIndex t).1.2.queueRuntime) :
      P (m.step e).synchronized.queueRuntime := by
  obtain ⟨hallowed, hlt⟩ := hcounted
  rcases step_cases hallowed with hstep | ⟨host, queueIndex, t, rfl, ht, hstep⟩
  · rw [hstep] at hlt ⊢
    rw [h.synchronized_moved hlt]
    split
    · exact hP
    · exact hreset _
  · rw [hstep] at hlt ⊢
    rw [(m.synced_served host queueIndex t).synchronized_moved hlt]
    split
    · rw [synchronized_looked (m.observed_served host queueIndex t)]
      exact hserved host queueIndex t rfl ht
    · exact hreset _

theorem lastAvailableIdx_step {m : BlockMachine} (h : m.Synced) {e : BlockEvent}
    (hcounted : m.Counted e) (hzero : m.synchronized.queueRuntime.lastAvailableIdx = 0#16)
    (hnone : m.TakesNone e) : (m.step e).synchronized.queueRuntime.lastAvailableIdx = 0#16 := by
  refine runtime_step (P := fun s ↦ s.lastAvailableIdx = 0#16) (fun _ ↦ rfl) h hcounted hzero ?_
  intro host queueIndex t he ht
  have hhead := hnone host he
  rw [head, ht] at hhead
  dsimp only at hhead
  split at hhead
  · next hfail =>
    rw [served, VirtioBlockDevice.queueRuntime_request_of_none _ host _ hfail]
    exact hzero
  · cases hhead

theorem usedIdx_step {m : BlockMachine} (h : m.Synced) {e : BlockEvent} (hcounted : m.Counted e)
    (hzero : m.synchronized.queueRuntime.usedIdx = 0#16) (hnone : m.CompletesNone e) :
    (m.step e).synchronized.queueRuntime.usedIdx = 0#16 := by
  refine runtime_step (P := fun s ↦ s.usedIdx = 0#16) (fun _ ↦ rfl) h hcounted hzero ?_
  intro host queueIndex t he ht
  have hstatus := hnone host he
  rw [processOne_eq ht] at hstatus
  exact (((m.synchronized.related_request host (t.queueLayout queueIndex) 0#64).run Bus.dma
    m.bus.dropNotification).1.usedIdx hstatus).trans hzero

/-- The requests of a look that takes a head. -/
theorem calls_consumeAvailable (s : VirtqueueRuntimeState) (layout : VirtqueueLayout) (b : Bus)
    (h : (!((s.consumeAvailable layout).run Bus.dma b).1.1.ok ||
      ((s.consumeAvailable layout).run Bus.dma b).1.1.pendingCount == 0#16) = false) :
    let idx := DmaRequest.read (layout.availableRing + 2#64) .halfWord
    let slot := DmaRequest.read
      (VirtqueueRuntimeState.availableSlotAddress layout s.lastAvailableIdx) .halfWord
    (s.consumeAvailable layout).calls Bus.dma b = [idx, slot] ∧
      ((s.consumeAvailable layout).run Bus.dma b).1.1.head =
        (((b.dma idx).2.dma slot).1.value.setWidth 16) := by
  rw [VirtqueueRuntimeState.consumeAvailable] at h ⊢
  simp only [Dialogue.run_ite, Dialogue.run_bind, Dialogue.run_pure, Dma.run_read,
    Dialogue.calls_ite,
    Dialogue.calls_bind, Dialogue.calls_pure] at h ⊢
  split_ifs at h ⊢ with h₁ h₂ h₃ h₄ h₅
  · cases h
  · cases h
  · cases h
  · cases h
  · cases h
  · exact ⟨rfl, rfl⟩

/-- The first head: the call reads the index, and then the first slot. -/
theorem requests_of_head {m : BlockMachine} {head : BitVec 16} (h : m.head = some head)
    (hzero : m.synchronized.queueRuntime.lastAvailableIdx = 0#16) (host : HostDisk) :
    ∃ queueIndex t, m.notification = some (queueIndex, t) ∧
      let ring := (t.queueLayout queueIndex).availableRing
      let idx := DmaRequest.read (ring + 2#64) .halfWord
      let slot := DmaRequest.read (ring + 4#64) .halfWord
      [idx, slot] <+: m.requests host ∧
        head = ((m.bus.dropNotification.dma idx).2.dma slot).1.value.setWidth 16 := by
  rw [BlockMachine.head] at h
  split at h
  · cases h
  · next queueIndex t ht =>
    dsimp only at h
    split at h
    · cases h
    · next hok =>
      obtain ⟨hcalls, hvalue⟩ := calls_consumeAvailable _ _ _ (Bool.not_eq_true _ ▸ hok)
      have hslot : VirtqueueRuntimeState.availableSlotAddress (t.queueLayout queueIndex) 0#16 =
          (t.queueLayout queueIndex).availableRing + 4#64 := by
        rw [VirtqueueRuntimeState.availableSlotAddress, virtqueueRingSlot, BitVec.zero_umod]
        exact BitVec.add_zero _
      rw [hzero, hslot] at hcalls hvalue
      refine ⟨queueIndex, t, ht, ?_, (Option.some.inj h).symm.trans hvalue⟩
      rw [requests, ht]
      dsimp only
      rw [VirtioBlockDevice.request, Dialogue.calls_bind, hcalls]
      exact List.prefix_append _ _

theorem usedWrites_zero (layout : VirtqueueLayout) (head : BitVec 16) (length : BitVec 32) :
    layout.usedWrites 0#16 (head.setWidth 32, length) =
      [.write (layout.usedRing + 4#64) .word (head.setWidth 64),
        .write (layout.usedRing + 8#64) .word (length.setWidth 64),
        .write (layout.usedRing + 2#64) .halfWord 1#64] := by
  have hoffset : layout.usedOffset (0#16).toNat = 4 := by
    rw [VirtqueueLayout.usedOffset]
    simp
  have hhead : (head.setWidth 32).setWidth 64 = head.setWidth 64 := by
    have hlt := head.isLt
    refine BitVec.eq_of_toNat_eq ?_
    simp only [BitVec.toNat_setWidth]
    omega
  rw [VirtqueueLayout.usedWrites, hoffset, hhead]
  rfl

section Serving

variable {m : BlockMachine} (s : VirtioBlockDevice.Serving m.device m.bus)

theorem notification_of_serving : m.notification = some (s.queueIndex, s.transport) := s.popped

theorem synchronized_of_serving :
    m.device.synchronizeQueueGeneration s.transport.generation = m.synchronized := by
  rw [synchronized, Bus.generation_of_pop s.popped]

theorem available_of_serving :
    m.available s.layout = ((s.available, s.runtime), s.consumedBus) := by
  rw [available, ← synchronized_of_serving s]
  exact s.consumed_eq

theorem head_of_serving : m.head = some s.head := by
  rw [BlockMachine.head, notification_of_serving s]
  dsimp only
  rw [← VirtioBlockDevice.Serving.layout, available_of_serving s,
    if_neg (by simp [s.available_ok])]
  rfl

/-- Taking a head does not move the index of the used ring. -/
theorem usedIdx_of_serving :
    s.device.queueRuntime.usedIdx = m.synchronized.queueRuntime.usedIdx := by
  have hkept := ((m.synchronized.queueRuntime.related_consumeAvailable s.layout 0#64).run Bus.dma
    m.bus.dropNotification).1.2
  rw [show (m.synchronized.queueRuntime.consumeAvailable s.layout).run Bus.dma
    m.bus.dropNotification = _ from available_of_serving s] at hkept
  exact hkept

theorem requests_of_serving (host : HostDisk) : m.requests host =
    s.before ++ (s.rest host).calls Bus.dma s.b := by
  rw [← (s.request_eq host).2, synchronized_of_serving s, requests, notification_of_serving s]
  rfl

end Serving

/-- A call that completes a request was about to serve one. -/
theorem serving_of_completed {m : BlockMachine} {host : HostDisk}
    (h : (m.device.processOne host m.bus).1 = some .completed) :
    Nonempty (VirtioBlockDevice.Serving m.device m.bus) := by
  by_contra hserving
  cases hnotification : m.notification with
  | none =>
    rw [processOne_eq_none hnotification] at h
    cases h
  | some notification =>
    have herror := VirtioBlockDevice.processOne_of_not_serving hnotification
      (fun s ↦ hserving ⟨s⟩) host
    rw [herror.1] at h
    cases h

/-- A call that completes a request ends with the writes of the entry of its head. -/
theorem usedWrites_of_completed {m : BlockMachine} {host : HostDisk}
    (h : (m.device.processOne host m.bus).1 = some .completed) :
    ∃ queueIndex t head, m.notification = some (queueIndex, t) ∧ m.head = some head ∧
      ∃ length : BitVec 32,
        (t.queueLayout queueIndex).usedWrites m.synchronized.queueRuntime.usedIdx
          (head.setWidth 32, length) <:+ m.requests host := by
  obtain ⟨s⟩ := serving_of_completed h
  refine ⟨s.queueIndex, s.transport, s.head, notification_of_serving s, head_of_serving s, ?_⟩
  rw [s.processOne_eq host] at h
  dsimp only at h
  rw [VirtioBlockDevice.Serving.rest, Dialogue.run_bind] at h
  have hwrites := VirtioBlockDevice.calls_complete _ _ _ _ _ _ h
  rw [usedIdx_of_serving s] at hwrites
  rw [requests_of_serving s, VirtioBlockDevice.Serving.rest, Dialogue.calls_bind]
  exact ⟨_, (hwrites.trans (List.suffix_append _ _)).trans (List.suffix_append _ _)⟩

/-- The first completion: the call ends with the writes of the first entry, and of the index. -/
theorem requests_of_completed {m : BlockMachine} {host : HostDisk}
    (h : (m.device.processOne host m.bus).1 = some .completed)
    (hzero : m.synchronized.queueRuntime.usedIdx = 0#16) :
    ∃ queueIndex t head, m.notification = some (queueIndex, t) ∧ m.head = some head ∧
      ∃ length : BitVec 32,
        let ring := (t.queueLayout queueIndex).usedRing
        [.write (ring + 4#64) .word (head.setWidth 64),
          .write (ring + 8#64) .word (length.setWidth 64),
          .write (ring + 2#64) .halfWord 1#64] <:+ m.requests host := by
  obtain ⟨queueIndex, t, head, hnotification, hhead, length, hwrites⟩ := usedWrites_of_completed h
  rw [hzero, usedWrites_zero] at hwrites
  exact ⟨queueIndex, t, head, hnotification, hhead, length, hwrites⟩

/-! ## Runs -/

/-- The machine as it is switched on. -/
structure PowerOn (m : BlockMachine) : Prop where
  transport : ∃ config, m.bus.transport = some (VirtioMmioTransport.powerOn config)
  device : m.device = { disk := m.device.disk }
  unseen : m.unseen = 0

theorem PowerOn.synced {m : BlockMachine} (h : m.PowerOn) : m.Synced := by
  obtain ⟨config, hconfig⟩ := h.transport
  rw [Synced, h.device, h.unseen, Bus.generation, hconfig]
  rfl

theorem isSome_transport_step {m : BlockMachine} (h : m.bus.transport.isSome = true)
    {e : BlockEvent}
    (hallowed : m.Allowed e) : (m.step e).bus.transport.isSome = true := by
  cases e with
  | registerWrite offset w value =>
    rw [← h]
    exact Bus.isSome_transport_of_memoryMap (m.bus.memoryMap_writeTransport offset w value)
  | processOne host =>
    rw [← h]
    refine Bus.isSome_transport_of_memoryMap ?_
    cases hnotification : m.notification with
    | none => rw [step, processOne_eq_none hnotification]
    | some notification =>
      rw [step, processOne_eq hnotification]
      have hserved : (m.served host notification.1 notification.2).2.memoryMap = m.bus.memoryMap :=
        (Dma.memoryMap_run _ _).trans (Bus.memoryMap_update _ _ _ _ fun _ ↦ rfl)
      dsimp only
      split
      · exact (Bus.memoryMap_update .transport _ VirtioMmioTransport.raiseUsedBufferInterrupt
          (fun _ ↦ rfl) fun _ ↦ rfl).trans hserved
      · exact hserved
  | elsewhere bus => exact (congrArg Option.isSome hallowed).trans h

end BlockMachine

/-- **Reset isolation.**  From power-on, whatever the driver wrote, reset and had served before, a
reset leaves the transport as it was at power-on but for its two counters, and whatever comes later,
nothing that is seen of the machine differs from one whose device has never served a request:
neither how the calls end, nor what they ask of the bus, nor the bus itself.  Every notification
that is waiting later was sent after the reset; the first head that is taken after it comes from the
first slot of the ring as it is configured then, and the first completion goes to the first slot,
with an index of 1. -/
theorem reset_isolation (start : BlockMachine) (hstart : start.PowerOn)
    (before later : List BlockEvent)
    (value : BitVec 64) (hvalue : value.setWidth 32 = 0#32)
    (hcounted : Runs.Along BlockMachine.step BlockMachine.Counted start
      (before ++ .registerWrite 0x070#64 .word value :: later)) :
    let m := Runs.run BlockMachine.step start before
    let reset := m.step (.registerWrite 0x070#64 .word value)
    let now := Runs.run BlockMachine.step reset later
    (∃ t, m.bus.transport = some t ∧
      reset.bus.transport = some { VirtioMmioTransport.powerOn t.config with
        configGeneration := t.configGeneration + 1#32, generation := t.generation + 1#64 }) ∧
    (Runs.outputs BlockMachine.step BlockMachine.observe reset later =
        Runs.outputs BlockMachine.step BlockMachine.observe reset.renewed later ∧
      now.bus = (Runs.run BlockMachine.step reset.renewed later).bus) ∧
    (∀ queueIndex ∈ now.pending, ∃ first e rest, later = first ++ e :: rest ∧
      queueIndex ∉ (Runs.run BlockMachine.step reset first).pending ∧
      queueIndex ∈ (Runs.run BlockMachine.step reset (first ++ [e])).pending) ∧
    (Runs.Along BlockMachine.step BlockMachine.TakesNone reset later → ∀ host head,
      now.head = some head → ∃ queueIndex t, now.notification = some (queueIndex, t) ∧
        let ring := (t.queueLayout queueIndex).availableRing
        let idx := DmaRequest.read (ring + 2#64) .halfWord
        let slot := DmaRequest.read (ring + 4#64) .halfWord
        [idx, slot] <+: now.requests host ∧
          head = ((now.bus.dropNotification.dma idx).2.dma slot).1.value.setWidth 16) ∧
    (Runs.Along BlockMachine.step BlockMachine.CompletesNone reset later → ∀ host,
      (now.device.processOne host now.bus).1 = some .completed →
      ∃ queueIndex t head, now.notification = some (queueIndex, t) ∧ now.head = some head ∧
        ∃ length : BitVec 32,
          let ring := (t.queueLayout queueIndex).usedRing
          [.write (ring + 4#64) .word (head.setWidth 64),
            .write (ring + 8#64) .word (length.setWidth 64),
            .write (ring + 2#64) .halfWord 1#64] <:+ now.requests host) := by
  intro m reset now
  obtain ⟨hbefore, hreset, hlater⟩ := Runs.along_append.1 hcounted
  have hsynced : m.Synced :=
    Runs.run_invariant (I := BlockMachine.Synced) (fun _ _ h he ↦ h.step he.1) hstart.synced hbefore
  obtain ⟨t, ht⟩ : ∃ t, m.bus.transport = some t := by
    obtain ⟨config, hconfig⟩ := hstart.transport
    refine Option.isSome_iff_exists.1 (Runs.run_invariant
      (I := fun m : BlockMachine ↦ m.bus.transport.isSome = true)
      (fun _ _ h he ↦ BlockMachine.isSome_transport_step h he.1) ?_ hbefore)
    rw [hconfig]
    rfl
  have htransport : reset.bus.transport = some t.resetLocked :=
    BlockMachine.transport_reset hvalue ht
  have halike : reset.Alike reset.renewed := BlockMachine.alike_renewed hsynced hvalue ht hreset.2
  have hempty : reset.pending = [] := by
    rw [BlockMachine.pending, htransport]
    rfl
  have hindices : reset.synchronized.queueRuntime.lastAvailableIdx = 0#16 ∧
      reset.synchronized.queueRuntime.usedIdx = 0#16 := by
    obtain ⟨g, hdevice⟩ := halike.device
    rw [show reset.renewed.synchronized = _ from BlockMachine.synchronized_looked rfl] at hdevice
    exact ⟨(congrArg (·.queueRuntime.lastAvailableIdx) hdevice).symm,
      (congrArg (·.queueRuntime.usedIdx) hdevice).symm⟩
  obtain ⟨houtputs, hend⟩ := Runs.run_simulation (I := BlockMachine.Alike)
      (R := BlockMachine.Counted)
    (fun _ _ e h he ↦ BlockMachine.Alike.step (e := e) h he) halike hlater
  refine ⟨⟨t, ht, htransport⟩, ⟨houtputs.symm, hend.bus.symm⟩, fun queueIndex hpending ↦ ?_,
    fun hnone host head hhead ↦ ?_, fun hnone host hcompleted ↦ ?_⟩
  · refine Runs.exists_turn (P := fun m : BlockMachine ↦ queueIndex ∈ m.pending) ?_ hpending
    rw [hempty]
    exact List.not_mem_nil
  · refine BlockMachine.requests_of_head hhead ?_ host
    exact (Runs.run_invariant (I := fun m : BlockMachine ↦
      m.Synced ∧ m.synchronized.queueRuntime.lastAvailableIdx = 0#16)
      (fun _ _ h he ↦ ⟨h.1.step he.1.1, BlockMachine.lastAvailableIdx_step h.1 he.1 h.2 he.2⟩)
      ⟨halike.synced.1, hindices.1⟩ (hlater.and hnone)).2
  · refine BlockMachine.requests_of_completed hcompleted ?_
    exact (Runs.run_invariant (I := fun m : BlockMachine ↦
      m.Synced ∧ m.synchronized.queueRuntime.usedIdx = 0#16)
      (fun _ _ h he ↦ ⟨h.1.step he.1.1, BlockMachine.usedIdx_step h.1 he.1 h.2 he.2⟩)
      ⟨halike.synced.1, hindices.2⟩ (hlater.and hnone)).2

/-! ## A whole turn -/

namespace SmallMachine

/-- Two heads are waiting, and both chains are malformed. -/
def poweredOn : BlockMachine where
  device
  bus :=
    { regions := [.virtio (VirtioMmioTransport.powerOn blockTransportConfig),
        .ram (memory {} {} {} {} 2#16 {})]
      apart := by
        rw [List.pairwise_pair]
        show AddressRange.overlaps _ _ = false
        decide }

theorem powerOn_poweredOn : poweredOn.PowerOn := ⟨⟨blockTransportConfig, rfl⟩, rfl, rfl⟩

def resetWrite : BlockEvent := .registerWrite 0x070#64 .word 0#64

/-- The driver sets a queue of four entries up and notifies. -/
def configureWrites : List BlockEvent :=
  [(0x024#64, 1#64), (0x020#64, 1#64), (0x070#64, 15#64), (0x038#64, 4#64),
    (0x080#64, 0x80000000#64), (0x090#64, 0x80000040#64), (0x0A0#64, 0x80000050#64),
    (0x044#64, 1#64),
    (0x050#64, 0#64)].map fun (offset, value) ↦ .registerWrite offset .word value

theorem registerWrite_of_mem_configureWrites {e : BlockEvent} (h : e ∈ configureWrites) :
    ∃ offset w value, e = .registerWrite offset w value := by
  obtain ⟨⟨offset, value⟩, -, rfl⟩ := List.mem_map.1 h
  exact ⟨offset, .word, value, rfl⟩

/-- A transport after that many resets. -/
def resetTimes (t : VirtioMmioTransport) (n : ℕ) : VirtioMmioTransport :=
  { VirtioMmioTransport.powerOn t.config with
    configGeneration := t.configGeneration + BitVec.ofNat 32 n
    generation := t.generation + BitVec.ofNat 64 n }

theorem range_resetTimes (n : ℕ) (t : VirtioMmioTransport) :
    (Component.transport.set (resetTimes t n)).range = (Component.transport.set t).range := (rfl)

def resetBus (b : Bus) (n : ℕ) : Bus := b.update .transport (resetTimes · n) (range_resetTimes n)

theorem write_resetTimes (t : VirtioMmioTransport) (n : ℕ) :
    ((resetTimes t n).write 0x070#64 .word 0#64).2 = resetTimes t (n + 1) := by
  have hconfig : t.configGeneration + BitVec.ofNat 32 (n + 1) =
      t.configGeneration + BitVec.ofNat 32 n + 1#32 := by
    rw [BitVec.ofNat_add, BitVec.add_assoc]
  have hgeneration : t.generation + BitVec.ofNat 64 (n + 1) =
      t.generation + BitVec.ofNat 64 n + 1#64 := by
    rw [BitVec.ofNat_add, BitVec.add_assoc]
  rw [VirtioMmioTransport.write_status_zero _ rfl, resetTimes.eq_def t (n + 1), hconfig,
    hgeneration]
  rfl

theorem step_resetWrite {m : BlockMachine} {t : VirtioMmioTransport}
    (ht : m.bus.transport = some t) : m.step resetWrite =
      { device := m.device, bus := m.bus.writeTransport 0x070#64 .word 0#64,
        unseen := m.unseen + 1 } := by
  have htransport : (m.bus.writeTransport 0x070#64 .word 0#64).transport = some t.resetLocked :=
    BlockMachine.transport_reset rfl ht
  have hgeneration : t.resetLocked.generation = t.generation + 1#64 := rfl
  have hone : ((m.bus.writeTransport 0x070#64 .word 0#64).generation -
      m.bus.generation).toNat = 1 := by
    rw [Bus.generation, htransport, Bus.generation, ht, Option.map_some, Option.map_some,
      Option.getD_some, Option.getD_some, hgeneration, BitVec.add_comm, BitVec.add_sub_cancel]
    rfl
  rw [resetWrite, BlockMachine.step, hone]

theorem writeTransport_resetBus (b : Bus) (n : ℕ) :
    (resetBus b n).writeTransport 0x070#64 .word 0#64 = resetBus b (n + 1) := by
  refine (b.update_update .transport (resetTimes · n) (range_resetTimes n) _ _).trans ?_
  simp only [write_resetTimes]
  rfl

theorem run_resetWrites {m : BlockMachine} {t : VirtioMmioTransport} (ht : m.bus.transport = some t)
    (n : ℕ) : Runs.run BlockMachine.step m (List.replicate (n + 1) resetWrite) =
      { device := m.device, bus := resetBus m.bus (n + 1), unseen := m.unseen + (n + 1) } := by
  induction n with
  | zero => exact step_resetWrite ht
  | succ n ih =>
    have htransport : (resetBus m.bus (n + 1)).transport = some (resetTimes t (n + 1)) := by
      rw [← Option.map_some (f := (resetTimes · (n + 1))), ← ht]
      exact Bus.component_update _ _ _ _
    rw [List.replicate_succ', Runs.run_append, ih, Runs.run_cons, Runs.run_nil,
      step_resetWrite htransport, writeTransport_resetBus]
    rfl

/-- A queue is set up and one request was served. -/
def servedOne : BlockMachine :=
  Runs.run BlockMachine.step poweredOn (configureWrites ++ [.processOne host])

end SmallMachine

/-- After as many resets as the generation has values, the device does not know of any, and the
first head of the new ring comes from its second slot. -/
theorem reset_isolation_comes_round : ¬ ∀ (start : BlockMachine) (before later : List BlockEvent)
    (host : HostDisk) (head : BitVec 16), start.PowerOn →
    Runs.Along BlockMachine.step BlockMachine.Allowed start
      (before ++ SmallMachine.resetWrite :: later) →
    let reset := (Runs.run BlockMachine.step start before).step SmallMachine.resetWrite
    let now := Runs.run BlockMachine.step reset later
    Runs.Along BlockMachine.step BlockMachine.TakesNone reset later → now.head = some head →
      ∃ queueIndex t, now.notification = some (queueIndex, t) ∧
        let ring := (t.queueLayout queueIndex).availableRing
        [.read (ring + 2#64) .halfWord, .read (ring + 4#64) .halfWord] <+: now.requests host := by
  intro h
  obtain ⟨n, hn⟩ : ∃ n, n + 1 = 2 ^ 64 := ⟨2 ^ 64 - 1, rfl⟩
  let now := Runs.run BlockMachine.step
    { device := SmallMachine.servedOne.device
      bus := SmallMachine.resetBus SmallMachine.servedOne.bus (2 ^ 64)
      unseen := SmallMachine.servedOne.unseen + 2 ^ 64 } SmallMachine.configureWrites
  have hnow : now.head = some 0#16 ∧
      now.notification.map (fun p ↦ (p.2.queueLayout p.1).availableRing) = some 0x80000040#64 ∧
      (now.requests SmallMachine.host).take 2 =
        [.read 0x80000042#64 .halfWord, .read 0x80000046#64 .halfWord] ∧
      SmallMachine.servedOne.bus.transport.isSome = true := by
    decide +kernel
  obtain ⟨hhead, hring, hrequests, hsome⟩ := hnow
  obtain ⟨t, ht⟩ := Option.isSome_iff_exists.1 hsome
  have hrun : Runs.run BlockMachine.step
      ((Runs.run BlockMachine.step SmallMachine.poweredOn
        (SmallMachine.configureWrites ++ [.processOne SmallMachine.host])).step
        SmallMachine.resetWrite)
      (List.replicate n SmallMachine.resetWrite ++ SmallMachine.configureWrites) = now := by
    have hresets := SmallMachine.run_resetWrites ht n
    rw [List.replicate_succ, Runs.run_cons, hn] at hresets
    rw [Runs.run_append]
    exact congrArg (Runs.run BlockMachine.step · SmallMachine.configureWrites) hresets
  have hwrite : ∀ e ∈ List.replicate n SmallMachine.resetWrite ++ SmallMachine.configureWrites,
      ∃ offset w value, e = .registerWrite offset w value := by
    intro e he
    rcases List.mem_append.1 he with hreset | hconfigure
    · exact ⟨_, _, _, List.eq_of_mem_replicate hreset⟩
    · exact SmallMachine.registerWrite_of_mem_configureWrites hconfigure
  have hfirst := h SmallMachine.poweredOn
    (SmallMachine.configureWrites ++ [.processOne SmallMachine.host])
    (List.replicate n SmallMachine.resetWrite ++
      SmallMachine.configureWrites) SmallMachine.host 0#16
    SmallMachine.powerOn_poweredOn (Runs.along_of_forall (fun e he m ↦ ?_) _)
    (Runs.along_of_forall (fun e he m host hcall ↦ ?_) _)
  · dsimp only at hfirst
    rw [hrun] at hfirst
    obtain ⟨queueIndex, t, hnotification, hreads⟩ := hfirst hhead
    rw [hnotification] at hring
    rw [show (t.queueLayout queueIndex).availableRing = _ from Option.some.inj hring,
      List.prefix_iff_eq_take] at hreads
    exact absurd (hreads.trans hrequests) (by decide)
  · rcases List.mem_append.1 he with hbefore | hafter
    · rcases List.mem_append.1 hbefore with hconfigure | hcall
      · obtain ⟨offset, w, value, rfl⟩ := SmallMachine.registerWrite_of_mem_configureWrites
          hconfigure
        trivial
      · rw [List.mem_singleton.1 hcall]
        trivial
    · rcases List.mem_cons.1 hafter with rfl | hlater
      · trivial
      · obtain ⟨offset, w, value, rfl⟩ := hwrite e hlater
        trivial
  · obtain ⟨offset, w, value, rfl⟩ := hwrite e he
    cases hcall

/-- A driver sets a queue up and a head of it is taken.  After a reset it sets the queue up once
more, and the first head comes from the first slot again. -/
theorem reset_isolation_after_request :
    let served := SmallMachine.servedOne
    let now := Runs.run BlockMachine.step (served.step SmallMachine.resetWrite)
      SmallMachine.configureWrites
    served.device.queueRuntime.lastAvailableIdx = 1#16 ∧
    ∃ queueIndex t, now.notification = some (queueIndex, t) ∧
      let ring := (t.queueLayout queueIndex).availableRing
      [.read (ring + 2#64) .halfWord, .read (ring + 4#64) .halfWord] <+:
        now.requests SmallMachine.host := by
  intro served now
  have hcounted : Runs.Along BlockMachine.step BlockMachine.Counted SmallMachine.poweredOn
      ((SmallMachine.configureWrites ++ [.processOne SmallMachine.host]) ++
        SmallMachine.resetWrite :: SmallMachine.configureWrites) := by
    refine Runs.along_append.2 ⟨Runs.along_append.2 ⟨BlockMachine.along_counted
      (fun e ↦ SmallMachine.registerWrite_of_mem_configureWrites) (by decide),
      ⟨trivial, by decide +kernel⟩, trivial⟩, BlockMachine.along_counted (fun e he ↦ ?_)
      (by decide +kernel)⟩
    rcases List.mem_cons.1 he with rfl | hlater
    · exact ⟨_, _, _, rfl⟩
    · exact SmallMachine.registerWrite_of_mem_configureWrites hlater
  have hnone : Runs.Along BlockMachine.step BlockMachine.TakesNone
      (served.step SmallMachine.resetWrite) SmallMachine.configureWrites := by
    refine Runs.along_of_forall (fun e he m host hcall ↦ ?_) _
    obtain ⟨offset, w, value, rfl⟩ := SmallMachine.registerWrite_of_mem_configureWrites he
    cases hcall
  obtain ⟨-, -, -, hfirst, -⟩ := reset_isolation SmallMachine.poweredOn
    SmallMachine.powerOn_poweredOn _ SmallMachine.configureWrites 0#64 rfl hcounted
  obtain ⟨queueIndex, t, hnotification, hreads, -⟩ :=
    hfirst hnone SmallMachine.host 0#16 (by decide +kernel)
  exact ⟨by decide +kernel, queueIndex, t, hnotification, hreads⟩

end Rvemu
