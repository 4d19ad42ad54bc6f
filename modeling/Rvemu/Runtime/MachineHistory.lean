import Rvemu.Bus.Pages
import Rvemu.Runtime.BusEvents
import Rvemu.Runtime.MachineTree

/-!
# The history of a machine

What a turn of the production loop does to the bus is a list of events (`Runner.events`): those of
the block device, which takes a notification, reads and writes guest memory and raises its
interrupt, and those of the iteration.  So a run of the machine is a run of each of its devices
through what it sees of these events, and what is known of the events of a device holds of the
device in the machine, whatever the guest, the host and the other devices do.  The memory map, and
with it the device tree, stays true.
-/

set_option autoImplicit false

namespace Rvemu

/-! ## The events of a turn -/

/-- What a device asks of the bus. -/
def DmaRequest.busRequest : DmaRequest → BusRequest
  | read a w => .read a w .dmaRead
  | write a w value => .write a w value .dmaWrite

namespace Runner

variable (options : RunOptions) (r : Runner)

/-- What a call of the block device does to the bus. -/
def blockEvents (disk : HostDisk) : List BusEvent :=
  if r.machine.notification.isSome then
    .popNotification ::
      (((r.machine.requests disk).map (.request ·.busRequest)) ++
        if (r.processOne disk).1 = some .completed then [.raiseUsedBufferInterrupt] else [])
  else []

/-- What happens to the bus in a turn, in order. -/
def events (host : HostTurn) : List BusEvent :=
  if r.result.isSome then []
  else if host.stopRequested then []
  else
    let served := r.processOne host.disk
    r.blockEvents host.disk ++
      if served.1 = none ∨ served.1 = some .queueError then []
      else served.2.loop.events host.terminal

/-! ### The bus goes through them -/

/-- A device goes through its requests. -/
theorem run_dma {α : Type} (p : Dma α) (b : Bus) : (p.run Bus.dma b).2 =
    Runs.run Bus.event b ((p.calls Bus.dma b).map (.request ·.busRequest)) := by
  induction p generalizing b with
  | pure a => rfl
  | call request next ih =>
    have hrequest : (b.dma request).2 = b.event (.request request.busRequest) := by
      cases request <;> rfl
    rw [Dialogue.calls, Dialogue.run, List.map_cons, Runs.run_cons, ← hrequest]
    exact ih _ _

theorem bus_processOne (disk : HostDisk) : (r.processOne disk).2.loop.cpu.bus =
    Runs.run Bus.event r.loop.cpu.bus (r.blockEvents disk) := by
  show (r.machine.device.processOne disk r.machine.bus).2.2 = _
  cases hn : r.machine.notification with
  | none =>
    rw [BlockMachine.processOne_eq_none hn, blockEvents, hn]
    rfl
  | some taken =>
    obtain ⟨queueIndex, t⟩ := taken
    have hstatus : (r.processOne disk).1 = (r.machine.served disk queueIndex t).1.1 :=
      congrArg Prod.fst (BlockMachine.processOne_eq hn disk)
    have hrequests : r.machine.requests disk =
        (r.machine.synchronized.request disk (t.queueLayout queueIndex)).calls Bus.dma
          r.machine.bus.dropNotification := by
      rw [BlockMachine.requests, hn]
    rw [BlockMachine.processOne_eq hn, blockEvents, hn, if_pos Option.isSome_some, Runs.run_cons,
      Runs.run_append, hrequests, hstatus]
    have hserved : Runs.run Bus.event (r.loop.cpu.bus.event .popNotification)
        (((r.machine.synchronized.request disk (t.queueLayout queueIndex)).calls Bus.dma
          r.machine.bus.dropNotification).map (.request ·.busRequest)) =
        (r.machine.served disk queueIndex t).2 := (run_dma _ _).symm
    rw [hserved]
    dsimp only
    split <;> rfl

theorem loop_iterate (terminal : HostAnswers) :
    (r.iterate options terminal).loop = (r.loop.runOnce terminal).2 := by
  rw [iterate]
  dsimp only
  split
  · rfl
  · split <;> rfl

/-- **The bus goes through the events of the turn.** -/
theorem bus_turn (host : HostTurn) : (r.turn options host).loop.cpu.bus =
    Runs.run Bus.event r.loop.cpu.bus (r.events host) := by
  have hserved := r.bus_processOne host.disk
  rw [turn, events]
  split
  · rfl
  · split
    · rfl
    · dsimp only
      rw [Runs.run_append, ← hserved]
      split
      · next hnone =>
        rw [if_pos (Or.inl hnone)]
        rfl
      · next hreturns =>
        split
        · next herror =>
          rw [if_pos (Or.inr herror)]
          rfl
        · next hno =>
          rw [if_neg (not_or.2 ⟨hreturns, hno⟩), loop_iterate]
          exact EventLoop.bus_events _ _

theorem bus_run (turns : List HostTurn) : (Runs.run (turn options) r turns).loop.cpu.bus =
    Runs.run Bus.event r.loop.cpu.bus
      (Runs.outputs (turn options) events r turns).flatten := by
  induction turns generalizing r with
  | nil => rfl
  | cons host turns ih =>
    rw [Runs.run_cons, ih, bus_turn, Runs.outputs, List.flatten_cons, Runs.run_append]

end Runner

/-! ## The hart -/

namespace EventLoop

variable {l : EventLoop}

theorem wellFormed_synchronizeDevices (h : l.cpu.state.WellFormed) :
    l.synchronizeDevices.cpu.state.WellFormed := by
  have hclint {l : EventLoop} (h : l.cpu.state.WellFormed) :
      l.synchronizeClint.cpu.state.WellFormed := by
    rw [synchronizeClint]
    split
    · exact h
    · next clint _ =>
      have htime : ({ l.cpu.state.csrs with time := clint.mtime } : CsrFile).WellFormed :=
        { h.csrs with }
      exact ⟨h.programCounter, (htime.setInterruptPending _ _).setInterruptPending _ _⟩
  have huart {l : EventLoop} (h : l.cpu.state.WellFormed) :
      l.synchronizeUart.cpu.state.WellFormed := by
    rw [synchronizeUart]
    split <;> exact h
  have hplic {l : EventLoop} (h : l.cpu.state.WellFormed) :
      l.synchronizePlic.cpu.state.WellFormed := by
    rw [synchronizePlic]
    split
    · exact h
    · exact ⟨h.programCounter, (h.csrs.setInterruptPending _ _).setInterruptPending _ _⟩
  exact hplic (huart (hclint h))

theorem wellFormed_stepCpu (h : l.cpu.state.WellFormed) (result : EventLoopIterationResult) :
    (l.stepCpu result).2.cpu.state.WellFormed := by
  have htaken := h.takePendingInterrupt
  rw [stepCpu]
  generalize l.cpu.takePendingInterrupt = taken at htaken ⊢
  obtain ⟨delivery, cpu⟩ := taken
  cases delivery with
  | some delivery => exact htaken
  | none =>
    have hstep : cpu.step.2.state.WellFormed := htaken.step
    dsimp only
    split
    · exact hstep
    · exact hstep.takeTrap _

/-- The services leave the hart alone. -/
theorem wellFormed_runOnce (h : l.cpu.state.WellFormed) (answers : HostAnswers) :
    (l.runOnce answers).2.cpu.state.WellFormed := by
  have hinput := (Serves.serviceTerminalInputFrom answers.reads
    l.options.maxTerminalRxBytes 0 {} l).state
  rw [runOnce]
  dsimp only [serviceTerminalInput, serviceUartOutput]
  generalize serviceTerminalInputFrom answers.reads _ 0 {} l = served at hinput ⊢
  have houtput := (Serves.serviceUartOutputFrom answers.writes served.2.options.maxUartTxBytes 0
    served.1 served.2).state
  generalize serviceUartOutputFrom answers.writes _ 0 served.1 served.2 = written at houtput ⊢
  rw [← hinput, ← houtput] at h
  exact wellFormed_stepCpu (wellFormed_synchronizeDevices h) _

end EventLoop

theorem Runner.wellFormed_turn {r : Runner} (h : r.loop.cpu.state.WellFormed)
    (options : RunOptions) (host : HostTurn) :
    (r.turn options host).loop.cpu.state.WellFormed := by
  rw [turn]
  split
  · exact h
  · split
    · exact h
    · dsimp only
      split
      · exact h
      split
      · exact h
      · rw [loop_iterate]
        exact EventLoop.wellFormed_runOnce (l := (r.processOne host.disk).2.loop) h host.terminal

/-! ## Runs of a machine -/

namespace MachineConfig

variable {config : MachineConfig} {disk : List (BitVec 8)} {images : BootImages} {m : BuiltMachine}

theorem Built.components (h : config.Built disk images m) :
    m.cpu.bus.component .clint = some {} ∧ m.cpu.bus.component .plic = some {} ∧
      m.cpu.bus.component .uart = some {} ∧
      m.cpu.bus.component .transport = some blockTransport := by
  obtain ⟨ram, -, -, hregions⟩ := h.regions
  refine ⟨?_, ?_, ?_, ?_⟩
  all_goals
    refine Bus.component_of_perm hregions (by simp [deviceRegions, Component.clint, Component.plic,
      Component.uart, Component.transport]) fun r hr d' hget ↦ ?_
    simp only [deviceRegions, List.mem_cons, List.not_mem_nil, or_false] at hr
    rcases hr with rfl | rfl | rfl | rfl | rfl <;> cases hget
    rfl

/-- The windows of the devices are where the map of the machine has them. -/
theorem Built.devicesOnPages (h : config.Built disk images m) : m.cpu.bus.DevicesOnPages := by
  obtain ⟨ram, -, -, hregions⟩ := h.regions
  intro r hr hdevice
  have hmem := hregions.mem_iff.1 hr
  simp only [deviceRegions, List.mem_cons, List.not_mem_nil, or_false] at hmem
  rcases hmem with rfl | rfl | rfl | rfl | rfl
  · cases hdevice
  · rfl
  · rfl
  · rfl
  · rfl

end MachineConfig

/-- What has happened to the bus in a run of the machine, in order. -/
def runEvents (options : RunOptions) (cpu : Cpu) (block : VirtioBlockDevice)
    (turns : List HostTurn) : List BusEvent :=
  (Runs.outputs (Runner.turn options) Runner.events (.start options cpu block) turns).flatten

/-- **The machine is made of its devices.**  In every state of every run of a machine that has been
built, the bus has gone through the events of the turns, and each device through what it has seen of
them since power-on.  So every claim of a source of the PLIC has been completed by its owner, but
the last one if the source is in service; every byte that the UART has accepted has left it once, in
order, or is queued; and every queue is configured within the limits of the transport.  The memory
map is that of the device tree, with the devices on pages, and a hart that started at an even
address is well-formed. -/
theorem run_of_built {config : MachineConfig} {disk : List (BitVec 8)} {images : BootImages}
    {m : BuiltMachine} (h : config.Built disk images m) (options : RunOptions)
    (turns : List HostTurn) :
    let r := runMachine options m.cpu m.block turns
    let events := runEvents options m.cpu m.block turns
    let clint := Runs.run ClintHart.step { clint := {}, csrs := {} }
      (m.cpu.bus.observed Bus.clintEvent events)
    let seen := m.cpu.bus.observed Bus.plicEvent events
    let plic := Runs.run Ledger.step {} seen
    let uart := Runs.run UartLedger.step { uart := {} } (m.cpu.bus.observed Bus.uartEvent events)
    let transport := Runs.run VirtioMmioTransport.event (.powerOn blockTransportConfig)
      (m.cpu.bus.observed Bus.transportEvent events)
    r.loop.cpu.bus = Runs.run Bus.event m.cpu.bus events ∧
    r.loop.cpu.bus.memoryMap = m.cpu.bus.memoryMap ∧ r.loop.cpu.bus.DevicesOnPages ∧
    r.loop.cpu.bus.component .clint = some clint.clint ∧
    (r.loop.cpu.bus.component .plic = some plic.plic ∧ plic.Agrees ∧
      ∀ s, Ledger.claimed s {} seen = Ledger.completed s {} seen + (plic.owner s).isSome.toNat) ∧
    (r.loop.cpu.bus.component .uart = some uart.uart ∧ uart.Agrees) ∧
    (r.loop.cpu.bus.component .transport = some transport ∧
      VirtioMmioTransport.Configured blockTransportConfig transport) ∧
    (config.bootLayout.biosLoadAddress.getLsbD 0 = false → r.loop.cpu.state.WellFormed) := by
  intro r events clint seen plic uart transport
  have hbus : r.loop.cpu.bus = Runs.run Bus.event m.cpu.bus events :=
    (Runner.start options m.cpu m.block).bus_run options turns
  have hmap : r.loop.cpu.bus.memoryMap = m.cpu.bus.memoryMap := by
    rw [hbus]
    exact Runs.run_induction (I := fun b : Bus ↦ b.memoryMap = m.cpu.bus.memoryMap)
      (fun b e hb ↦ (b.memoryMap_event e).trans hb) rfl events
  obtain ⟨hclint, hplic, huart, htransport⟩ := h.components
  refine ⟨hbus, hmap, h.devicesOnPages.of_memoryMap hmap, ?_, ⟨?_, ?_, fun s ↦ ?_⟩, ⟨?_, ?_⟩,
    ⟨?_, ?_⟩, fun heven ↦ ?_⟩
  · rw [hbus]
    exact Bus.component_run (d := ClintHart.clint) (s := ⟨{}, {}⟩) Bus.component_event_clint
      hclint events
  · rw [hbus]
    exact Bus.component_run (d := Ledger.plic) (s := {}) Bus.component_event_plic hplic events
  · exact Runs.run_induction (fun _ e h ↦ h.step e) Ledger.agrees_start seen
  · simpa using Ledger.agrees_start.balance s seen
  · rw [hbus]
    exact Bus.component_run (d := UartLedger.uart) (s := { uart := {} })
      Bus.component_event_uart huart events
  · exact Runs.run_induction (fun _ e h ↦ h.step e) (UartLedger.agrees_start _) _
  · rw [hbus]
    exact Bus.component_run (d := id) (s := blockTransport) Bus.component_event_transport
      htransport events
  · exact Runs.run_induction (fun _ e h ↦ h.event e)
      (VirtioMmioTransport.configured_powerOn blockTransportConfig) _
  · refine Runs.run_induction (I := fun r : Runner ↦ r.loop.cpu.state.WellFormed)
      (fun _ host hr ↦ Runner.wellFormed_turn hr options host) ?_ turns
    show m.cpu.state.WellFormed
    rw [h.hart]
    exact ⟨heven, CsrFile.wellFormed_reset⟩

open SmallMachine in
theorem run_of_built_small : ∃ m : BuiltMachine,
    (runMachine {} m.cpu m.block [quietTurn]).loop.cpu.bus.memoryMap = m.cpu.bus.memoryMap ∧
      (runMachine {} m.cpu m.block [quietTurn]).loop.cpu.state.WellFormed := by
  obtain ⟨-, m, disk, images, -, -, -, hbuilt⟩ := buildable.built
  obtain ⟨-, hmap, -, -, -, -, -, hwell⟩ := run_of_built hbuilt {} [quietTurn]
  exact ⟨m, hmap, hwell (by decide)⟩

end Rvemu
