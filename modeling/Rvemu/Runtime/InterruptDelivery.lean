import Rvemu.Bus.InterruptLines
import Rvemu.Core.HartRequests
import Rvemu.Runtime.Runner

/-!
# The interrupt of the block device

The production loop projects the UART onto the PLIC and the PLIC onto the CSR file before the hart
looks for a pending interrupt.  The block transport has a projection of its own, and the loop does
not call it: the input of the PLIC that the transport is wired to stays low for ever.  So the input
agrees with InterruptStatus exactly while there is nothing to deliver (`run_lineFollows_iff`).
-/

set_option autoImplicit false

namespace Rvemu

/-! ## The line -/

theorem Plic.sourceLevel_setSourceLevel (p : Plic) {source other : BitVec 32} (h : other ≠ source)
    (asserted : Bool) :
    (p.setSourceLevel other asserted).sourceLevel source = p.sourceLevel source := by
  rw [setSourceLevel]
  split
  · rfl
  · rw [sourceLevel, sourceLevel]
    split
    · refine Function.update_of_ne (fun heq ↦ h ?_) _ _
      have hnat : source.toNat = other.toNat := congrArg (fun s : Fin 32 ↦ s.val) heq
      exact (BitVec.eq_of_toNat_eq hnat).symm
    · rfl

namespace Bus

/-- The line of the block transport is low, and it is not the one that the UART drives. -/
def BlockLineLow (b : Bus) : Prop :=
  ∃ p u t, b.component .plic = some p ∧ b.component .uart = some u ∧ b.transport = some t ∧
    p.sourceLevel t.config.interruptSource = false ∧ u.interruptSource ≠ t.config.interruptSource

namespace BlockLineLow

variable {b b' : Bus}

theorem congr (h : b.BlockLineLow) (hwires : b'.wires = b.wires) : b'.BlockLineLow := by
  obtain ⟨p, u, t, hp, hu, ht, hlow, hapart⟩ := h
  have hlevel := level_congr hwires
  have huart := uartSource_congr hwires
  have hvirtio : b'.transport.map (·.config.interruptSource) =
      b.transport.map (·.config.interruptSource) := virtioSource_congr hwires
  rw [hp] at hlevel
  rw [hu] at huart
  rw [ht] at hvirtio
  obtain ⟨p', hp', hplic⟩ := Option.map_eq_some_iff.1 hlevel
  obtain ⟨u', hu', hsource⟩ := Option.map_eq_some_iff.1 huart
  obtain ⟨t', ht', hblock⟩ := Option.map_eq_some_iff.1 hvirtio
  refine ⟨p', u', t', hp', hu', ht', ?_, ?_⟩
  · rw [hblock, Plic.sourceLevel, hplic]
    exact hlow
  · rw [hsource, hblock]
    exact hapart

/-- The projection of the UART moves another line. -/
theorem update_plic (h : b.BlockLineLow) {u : Uart16550} (hu : b.component .uart = some u) :
    (b.update .plic u.synchronize fun _ ↦ rfl).BlockLineLow := by
  obtain ⟨p, u', t, hp, hu', ht, hlow, hapart⟩ := h
  obtain rfl := Option.some.inj (hu.symm.trans hu')
  refine ⟨u.synchronize p, u, t, ?_, ?_, ?_, ?_, hapart⟩
  · exact (component_update _ b _ _).trans (congrArg (Option.map u.synchronize) hp)
  · exact (component_update_of_ne _ b _ _ .uart fun _ ↦ rfl).trans hu
  · exact (component_update_of_ne _ b _ _ .transport fun _ ↦ rfl).trans ht
  · rw [Uart16550.synchronize, p.sourceLevel_setSourceLevel hapart, hlow]

end BlockLineLow

/-- The transport is as it was, and so is its line if that was low. -/
def KeepsBlockLine (b b' : Bus) : Prop :=
  b'.transport = b.transport ∧ (b.BlockLineLow → b'.BlockLineLow)

namespace KeepsBlockLine

variable {b b' b'' : Bus}

theorem refl (b : Bus) : b.KeepsBlockLine b := ⟨rfl, id⟩

theorem trans (h : b.KeepsBlockLine b') (h' : b'.KeepsBlockLine b'') : b.KeepsBlockLine b'' :=
  ⟨h'.1.trans h.1, h'.2 ∘ h.2⟩

/-- A change of another device that leaves its wire alone. -/
theorem update {α : Type} (c : Component α) (b : Bus) (f : α → α)
    (hf : ∀ a, (c.set (f a)).range = (c.set a).range)
    (hother : ∀ a, Component.transport.get (c.set a) = none)
    (hwire : ∀ a, b.component c = some a → (c.set (f a)).wire = (c.set a).wire) :
    b.KeepsBlockLine (b.update c f hf) :=
  ⟨component_update_of_ne c b f hf .transport hother, fun h ↦ h.congr (wires_update hf hwire)⟩

end KeepsBlockLine

end Bus

namespace EventLoop

variable (l : EventLoop)

/-! ## The services -/

/-- What a service does to the bus. -/
def Keeps (l l' : EventLoop) : Prop := l.cpu.bus.KeepsBlockLine l'.cpu.bus

theorem keeps_setUart {u v : Uart16550} (hu : l.uart = some u)
    (hsource : v.interruptSource = u.interruptSource) : l.Keeps (l.setUart v) := by
  refine Bus.KeepsBlockLine.update .uart l.cpu.bus (fun _ ↦ v) (fun _ ↦ rfl) (fun _ ↦ rfl)
    fun u' hu' ↦ ?_
  obtain rfl := Option.some.inj (hu.symm.trans hu')
  exact congrArg Wire.uart hsource

theorem keeps_pushRx (byte : BitVec 8) : l.Keeps (l.pushRx byte).2 := by
  rw [pushRx]
  split
  · exact .refl _
  · next u hu =>
    refine l.keeps_setUart hu ?_
    rw [Uart16550.pushRx]
    split <;> rfl

theorem keeps_serviceTerminalInputFrom (reads : ℕ → HostRead) (budget count : ℕ)
    (result : EventLoopIterationResult) :
    l.Keeps (serviceTerminalInputFrom reads budget count result l).2 := by
  induction budget generalizing count result l with
  | zero => exact .refl _
  | succ budget ih =>
    rw [serviceTerminalInputFrom]
    cases reads count with
    | byte value =>
      dsimp only
      split
      · exact l.keeps_pushRx value
      · exact (l.keeps_pushRx value).trans (ih _ _ _)
    | nothing | transient | failed errno => exact .refl _

theorem keeps_refill {l l' : EventLoop} {byte : BitVec 8} (h : l.refill = some (byte, l')) :
    l.Keeps l' := by
  rw [refill] at h
  split at h
  · obtain ⟨-, rfl⟩ := Prod.mk.inj (Option.some.inj h)
    exact .refl _
  · split at h
    · cases h
    · next hpop =>
      obtain ⟨-, rfl⟩ := Prod.mk.inj (Option.some.inj h)
      rw [popTx] at hpop
      split at hpop
      · cases hpop
      · next hbind =>
        obtain ⟨-, rfl⟩ := Prod.mk.inj (Option.some.inj hpop)
        obtain ⟨u, hu, htx⟩ := Option.bind_eq_some_iff.1 hbind
        rw [Uart16550.popTx] at htx
        split at htx
        · cases htx
        · obtain ⟨-, rfl⟩ := Prod.mk.inj (Option.some.inj htx)
          exact l.keeps_setUart hu rfl

theorem keeps_serviceUartOutputFrom (writes : ℕ → TerminalWrite) (budget count : ℕ)
    (result : EventLoopIterationResult) :
    l.Keeps (serviceUartOutputFrom writes budget count result l).2 := by
  induction budget generalizing count result l with
  | zero => exact .refl _
  | succ budget ih =>
    rw [serviceUartOutputFrom]
    cases hrefill : l.refill with
    | none => exact .refl _
    | some refilled =>
      obtain ⟨byte, next⟩ := refilled
      have hwritten : l.Keeps (next.writeBytes byte (writes count)).2 := by
        refine (keeps_refill hrefill).trans ?_
        rw [writeBytes]
        dsimp only
        split <;> exact .refl _
      dsimp only
      split
      · exact hwritten
      · exact hwritten.trans (ih _ _ _)

/-- Of the projections only that of the UART moves a line, and that is its own. -/
theorem keeps_synchronizeDevices : l.Keeps l.synchronizeDevices := by
  have hadvance : l.Keeps l.advanceClint :=
    Bus.KeepsBlockLine.update .clint l.cpu.bus (·.advance l.options.clintTicksPerIteration)
      (fun _ ↦ rfl) (fun _ ↦ rfl) fun _ _ ↦ rfl
  have hclint (l : EventLoop) : l.Keeps l.synchronizeClint := by
    rw [synchronizeClint]
    split <;> exact .refl _
  have huart (l : EventLoop) : l.Keeps l.synchronizeUart := by
    rw [synchronizeUart]
    split
    · exact .refl _
    · next u hu =>
      exact ⟨Bus.component_update_of_ne .plic _ u.synchronize (fun _ ↦ rfl) .transport fun _ ↦ rfl,
        fun h ↦ h.update_plic hu⟩
  have hplic (l : EventLoop) : l.Keeps l.synchronizePlic := by
    rw [synchronizePlic]
    split <;> exact .refl _
  exact ((hadvance.trans (hclint _)).trans (huart _)).trans (hplic _)

/-! ## One iteration -/

/-- The loop when the hart looks for a pending interrupt. -/
def prepared (answers : HostAnswers) : EventLoop :=
  let served := l.serviceTerminalInput answers.reads {}
  (served.2.serviceUartOutput answers.writes served.1).2.synchronizeDevices

theorem runOnce_eq (answers : HostAnswers) :
    ∃ result, l.runOnce answers = (l.prepared answers).stepCpu result := ⟨_, rfl⟩

theorem keeps_prepared (answers : HostAnswers) : l.Keeps (l.prepared answers) := by
  have hinput : l.Keeps (l.serviceTerminalInput answers.reads {}).2 :=
    l.keeps_serviceTerminalInputFrom answers.reads _ 0 {}
  rw [prepared]
  generalize l.serviceTerminalInput answers.reads {} = served at hinput ⊢
  have houtput : served.2.Keeps (served.2.serviceUartOutput answers.writes served.1).2 :=
    served.2.keeps_serviceUartOutputFrom answers.writes _ 0 served.1
  exact (hinput.trans houtput).trans (keeps_synchronizeDevices _)

/-- The hart moves no line. -/
theorem blockLineLow_stepCpu (h : l.cpu.bus.BlockLineLow) (result : EventLoopIterationResult) :
    (l.stepCpu result).2.cpu.bus.BlockLineLow := by
  have hinterrupt : l.cpu.takePendingInterrupt.2.bus = l.cpu.bus := by
    rw [Cpu.takePendingInterrupt]
    split <;> rfl
  rw [stepCpu]
  generalize l.cpu.takePendingInterrupt = taken at hinterrupt ⊢
  obtain ⟨delivery, cpu⟩ := taken
  have hlow : cpu.bus.BlockLineLow := (hinterrupt : cpu.bus = l.cpu.bus) ▸ h
  cases delivery with
  | some delivery => exact hlow
  | none =>
    have hstep : cpu.step.2.bus.BlockLineLow := hlow.congr (accesses_step cpu).wires
    dsimp only
    split <;> exact hstep

end EventLoop

/-! ## The block device -/

namespace BlockMachine

variable (m : BlockMachine) (host : HostDisk)

theorem wires_processOne : (m.device.processOne host m.bus).2.2.wires = m.bus.wires := by
  have hraise (b : Bus) : b.raiseUsedBufferInterrupt.wires = b.wires :=
    Bus.wires_update (c := .transport) (f := VirtioMmioTransport.raiseUsedBufferInterrupt)
      (fun _ ↦ rfl) fun _ _ ↦ rfl
  have hdrop : m.bus.dropNotification.wires = m.bus.wires :=
    Bus.wires_update (c := .transport)
      (f := fun t ↦ { t with notifications := t.notifications.tail }) (fun _ ↦ rfl) fun _ _ ↦ rfl
  cases hnotification : m.notification with
  | none => rw [processOne_eq_none hnotification]
  | some notification =>
    obtain ⟨queueIndex, t⟩ := notification
    have hserved : (m.served host queueIndex t).2.wires = m.bus.wires :=
      (Dma.wires_run _ _).trans hdrop
    rw [processOne_eq hnotification]
    dsimp only
    split
    · exact (hraise _).trans hserved
    · exact hserved

/-- A request that was completed is an interrupt cause, whatever its transfers did. -/
theorem interruptStatus_of_completed (h : (m.device.processOne host m.bus).1 = some .completed)
    {t : VirtioMmioTransport} (ht : (m.device.processOne host m.bus).2.2.transport = some t) :
    t.interruptStatus ≠ 0#32 := by
  cases hnotification : m.notification with
  | none =>
    rw [processOne_eq_none hnotification] at h
    cases h
  | some notification =>
    obtain ⟨queueIndex, t'⟩ := notification
    rw [processOne_eq hnotification] at h ht
    dsimp only at h ht
    rw [if_pos h] at ht
    have hraise := (Bus.component_update .transport (m.served host queueIndex t').2
      VirtioMmioTransport.raiseUsedBufferInterrupt fun _ ↦ rfl).symm.trans ht
    obtain ⟨before, -, rfl⟩ := Option.map_eq_some_iff.1 hraise
    intro hzero
    have hbit := congrArg (BitVec.getLsbD · 0) hzero
    simp [VirtioMmioTransport.raiseUsedBufferInterrupt] at hbit

end BlockMachine

/-! ## Runs -/

namespace Plic

/-- The source is enabled for the context and above its threshold. -/
def EnabledAbove (p : Plic) (context : Fin 2) (source : BitVec 32) : Prop :=
  ∃ s : Fin 32, s.val = source.toNat ∧ (p.enable context).getLsbD s.val = true ∧
    p.threshold context < p.priority s

def externalInterrupt (context : Fin 2) : InterruptCause :=
  if context.val = 0 then .machineExternal else .supervisorExternal

end Plic

namespace EventLoop

variable {l : EventLoop}

/-- The line of the block device follows InterruptStatus, and an unacknowledged request whose source
is enabled is pending in `mip`. -/
def LineFollows (l : EventLoop) : Prop :=
  ∀ p t, l.cpu.bus.component .plic = some p → l.cpu.bus.transport = some t →
    p.sourceLevel t.config.interruptSource = (t.interruptStatus != 0#32) ∧
    (t.interruptStatus &&& 1#32 ≠ 0#32 → ∀ context,
      p.EnabledAbove context t.config.interruptSource →
        (l.cpu.state.csrs.readValue .mip).getLsbD (Plic.externalInterrupt context).code = true)

/-- A line that is low follows InterruptStatus only down. -/
theorem lineFollows_iff (h : l.cpu.bus.BlockLineLow) :
    l.LineFollows ↔ ∀ t, l.cpu.bus.transport = some t → t.interruptStatus = 0#32 := by
  obtain ⟨p, u, t, hp, hu, ht, hlow, -⟩ := h
  have hthis {t' : VirtioMmioTransport} (ht' : l.cpu.bus.transport = some t') : t' = t :=
    Option.some.inj (ht'.symm.trans ht)
  constructor
  · intro hfollows t' ht'
    obtain rfl := hthis ht'
    have hzero := (hfollows p t' hp ht').1.symm.trans hlow
    rwa [bne_eq_false_iff_eq] at hzero
  · intro hzero p' t' hp' ht'
    obtain rfl := hthis ht'
    obtain rfl := Option.some.inj (hp.symm.trans hp')
    rw [hlow, hzero t' ht']
    exact ⟨rfl, fun hne ↦ absurd (BitVec.zero_and) hne⟩

end EventLoop

namespace Runner

variable (r : Runner) (host : HostTurn)

/-- The line is right when the hart looks for a pending interrupt in this turn. -/
def LineFollows : Prop :=
  r.Serves host → (r.processOne host.disk).1 ≠ none →
    (r.processOne host.disk).1 ≠ some .queueError →
    ((r.processOne host.disk).2.loop.prepared host.terminal).LineFollows

/-- The block device has no interrupt to deliver: it completes no request in this turn, and if it
has none to look at no cause is left. -/
def NothingToDeliver : Prop :=
  r.Serves host → ¬ r.machine.Completable ∧
    (r.machine.notification = none → ∀ t, r.machine.bus.transport = some t →
      t.interruptStatus = 0#32)

variable {r host}

/-- The line is low. -/
def BlockLineLow (r : Runner) : Prop := r.loop.cpu.bus.BlockLineLow

theorem BlockLineLow.processOne (h : r.BlockLineLow) (disk : HostDisk) :
    (r.processOne disk).2.BlockLineLow :=
  Bus.BlockLineLow.congr h (r.machine.wires_processOne disk)

theorem BlockLineLow.runOnce (h : r.BlockLineLow) (answers : HostAnswers) :
    (r.loop.runOnce answers).2.cpu.bus.BlockLineLow := by
  obtain ⟨result, hrun⟩ := r.loop.runOnce_eq answers
  rw [hrun]
  exact EventLoop.blockLineLow_stepCpu _ ((r.loop.keeps_prepared answers).2 h) result

/-- A turn does not raise it. -/
theorem BlockLineLow.turn (h : r.BlockLineLow) (options : RunOptions) (host : HostTurn) :
    (r.turn options host).BlockLineLow := by
  have hiterate (r : Runner) : (r.iterate options host.terminal).loop =
      (r.loop.runOnce host.terminal).2 := by
    rw [iterate]
    dsimp only
    split
    · rfl
    · split <;> rfl
  rw [Runner.turn]
  split
  · exact h
  · split
    · exact h
    · dsimp only
      split
      · exact h.processOne host.disk
      split
      · exact h.processOne host.disk
      · rw [BlockLineLow, hiterate]
        exact (h.processOne host.disk).runOnce host.terminal

/-- When the hart looks, the cause is the one that the block device has left. -/
theorem lineFollows_prepared_iff (h : r.BlockLineLow) (host : HostTurn) :
    ((r.processOne host.disk).2.loop.prepared host.terminal).LineFollows ↔
      ∀ t, (r.processOne host.disk).2.machine.bus.transport = some t →
        t.interruptStatus = 0#32 := by
  have hkeeps := (r.processOne host.disk).2.loop.keeps_prepared host.terminal
  rw [EventLoop.lineFollows_iff (hkeeps.2 (h.processOne host.disk)), hkeeps.1]
  rfl

theorem lineFollows_iff (h : r.BlockLineLow) : r.LineFollows host ↔ r.NothingToDeliver host := by
  refine imp_congr_right fun _ ↦ ?_
  rw [lineFollows_prepared_iff h]
  cases hnotification : r.machine.notification with
  | none =>
    have hnone : (r.processOne host.disk).1 = some .noNotification ∧
        (r.processOne host.disk).2.machine.bus = r.machine.bus := by
      have heq := BlockMachine.processOne_eq_none hnotification host.disk
      exact ⟨congrArg (·.1) heq, congrArg (·.2.2) heq⟩
    have hno : ¬ r.machine.Completable := by
      rw [← r.machine.completed_iff host.disk]
      intro hcompleted
      cases hnone.1.symm.trans hcompleted
    rw [hnone.1, hnone.2]
    constructor
    · exact fun hzero ↦ ⟨hno, fun _ ↦ hzero (by decide) (by decide)⟩
    · exact fun hzero _ _ ↦ hzero.2 rfl
  | some notification =>
    by_cases hcompletable : r.machine.Completable
    · -- the call raises the cause, and the line stays where it is
      have hcompleted := (r.machine.completed_iff host.disk).2 hcompletable
      obtain ⟨-, -, t, -, -, ht, -⟩ := h.processOne host.disk
      have hraised : t.interruptStatus ≠ 0#32 :=
        r.machine.interruptStatus_of_completed host.disk hcompleted ht
      refine iff_of_false (fun hfollows ↦ hraised (hfollows ?_ ?_ t ht))
        fun hno ↦ hno.1 hcompletable
      · intro hnone
        cases hcompleted.symm.trans hnone
      · intro herror
        cases hcompleted.symm.trans herror
    · have hfailed : (r.processOne host.disk).1 = none ∨
          (r.processOne host.disk).1 = some .queueError :=
        (r.machine.failed_iff host.disk).2 ⟨by rw [hnotification]; rfl, hcompletable⟩
      refine iff_of_true (fun hreturns hno ↦ absurd hfailed (not_or.2 ⟨hreturns, hno⟩))
        ⟨hcompletable, fun hnone ↦ ?_⟩
      cases hnone

end Runner

/-- A machine as it is built, or as an earlier run has left it: the line of its block device is low,
and the UART has another one. -/
structure Machine where
  cpu : Cpu
  block : VirtioBlockDevice
  blockLineLow : cpu.bus.BlockLineLow

namespace Machine

theorem blockLineLow_start (options : RunOptions) (m : Machine) :
    (Runner.start options m.cpu m.block).BlockLineLow := m.blockLineLow

/-- The devices of a machine are built low and on lines of their own. -/
def built (cpu : Cpu) (block : VirtioBlockDevice) (hplic : cpu.bus.component .plic = some {})
    (huart : cpu.bus.component .uart = some {})
    (htransport : cpu.bus.transport = some { config := blockTransportConfig }) : Machine where
  cpu
  block
  blockLineLow := ⟨_, _, _, hplic, huart, htransport, rfl, by decide⟩

/-- What a run leaves: the line is low again. -/
def afterRun (options : RunOptions) (m : Machine) (turns : List HostTurn) : Machine where
  cpu := (runMachine options m.cpu m.block turns).loop.cpu
  block := (runMachine options m.cpu m.block turns).block
  blockLineLow :=
    Runs.run_induction (I := Runner.BlockLineLow) (fun _ host h ↦ h.turn options host)
      (m.blockLineLow_start options) turns

end Machine

/-- **No interrupt of the block device is delivered.**  In a run of the machine the input of the
PLIC agrees with InterruptStatus whenever the hart looks for a pending interrupt, exactly when the
block device never has an interrupt to deliver. -/
theorem run_lineFollows_iff (options : RunOptions) (m : Machine) (turns : List HostTurn) :
    Runs.Along (Runner.turn options) Runner.LineFollows (.start options m.cpu m.block) turns ↔
      Runs.Along (Runner.turn options) Runner.NothingToDeliver (.start options m.cpu m.block)
        turns :=
  Runs.along_congr (I := Runner.BlockLineLow) (fun _ host h ↦ h.turn options host)
    (fun _ _ h ↦ Runner.lineFollows_iff h) (m.blockLineLow_start options)

namespace SmallMachine

/-- The source of the block device is enabled for both contexts. -/
def enablingPlic : Plic where
  priority _ := 1#32
  enable _ := 2#32

def interruptBus : Bus where
  regions :=
    [.virtio (transport [0#16]),
      .ram (requestMemory 1#16 { type := VirtioBlockDevice.requestOut }),
      .plic enablingPlic, .uart {}]
  apart := by
    simp [AddressRegion.Apart, AddressRegion.range, AddressRange.overlaps, requestMemory, memory,
      transport, blockTransportConfig, Plic.range, Uart16550.range, AddressRange.endExclusive,
      AddressMap.plicBase, AddressMap.plicSize, AddressMap.uartBase, AddressMap.uartSize]

/-- The driver has enabled its interrupt and sent one request. -/
def interruptMachine : Machine where
  cpu := { bus := interruptBus }
  block := device
  blockLineLow := ⟨enablingPlic, {}, transport [0#16], rfl, rfl, rfl, rfl, by decide⟩

def interruptStart : Runner := .start {} interruptMachine.cpu interruptMachine.block

theorem interruptStart_completes :
    (interruptStart.machine.device.processOne quietTurn.disk interruptStart.machine.bus).1 =
      some .completed := by
  decide +kernel

end SmallMachine

open SmallMachine in
/-- The request is completed, its source is enabled, and the line stays low. -/
theorem run_delivers_nothing :
    interruptStart.machine.Completable ∧
      (∀ context, enablingPlic.EnabledAbove context blockTransportConfig.interruptSource) ∧
      ¬ Runs.Along (Runner.turn {}) Runner.LineFollows
        (.start {} interruptMachine.cpu interruptMachine.block) [quietTurn] := by
  have hcompletable : interruptStart.machine.Completable :=
    (interruptStart.machine.completed_iff quietTurn.disk).1 interruptStart_completes
  have henabled : (2#32).getLsbD 1 = true ∧ 0#32 < 1#32 := by decide
  refine ⟨hcompletable, fun context ↦ ⟨⟨1, by decide⟩, rfl, henabled⟩, fun halong ↦ ?_⟩
  have hfollows : interruptStart.LineFollows quietTurn := halong.1
  have hnothing := (Runner.lineFollows_iff (interruptMachine.blockLineLow_start {})).1 hfollows
  exact (hnothing ⟨rfl, rfl⟩).1 hcompletable

end Rvemu
