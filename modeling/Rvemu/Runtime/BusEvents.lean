import Rvemu.Core.ClintTimer
import Rvemu.Core.HartRequests
import Rvemu.Devices.QueueConfiguration
import Rvemu.Runtime.InterruptViews

/-!
# The events of an iteration

Whatever happens to the bus while the machine runs is an event (`BusEvent`): a request, or a call of
one device by the main loop.  `EventLoop.events` lists those of an iteration, in order.  The bytes
of the terminal go into the UART, bytes of the UART go out to the terminal, the clock of the CLINT
advances, the input of the UART at the PLIC is driven, and the hart makes the requests of its step.

A device sees some of the events of the bus as events of its own, and goes through these and nothing
else (`Bus.component_run`).
-/

set_option autoImplicit false

namespace Rvemu

/-- One thing that happens to the bus of the machine. -/
inductive BusEvent
  | request (r : BusRequest)
  | advance (ticks : BitVec 64)
  | pushRx (byte : BitVec 8)
  | popTx
  | setSourceLevel (source : BitVec 32) (asserted : Bool)
  | popNotification
  | raiseUsedBufferInterrupt
  deriving DecidableEq, Repr

namespace RegisterAccess

/-- The clock and the compare register do not change when they are read. -/
def clintEvent : RegisterAccess → Option ClintEvent
  | read _ _ => none
  | write offset w value => some (.write offset w value)

def plicEvent : RegisterAccess → PlicEvent
  | read offset w => .read offset w
  | write offset w value => .write offset w value

def uartEvent : RegisterAccess → UartEvent
  | read offset w => .read offset w
  | write offset w value => .write offset w value

/-- The transport does not change when it is read. -/
def transportEvent : RegisterAccess → Option TransportEvent
  | read _ _ => none
  | write offset w value => some (.write offset w value)

end RegisterAccess

namespace Bus

variable (b : Bus)

/-- The bus after an event. -/
def event : BusEvent → Bus
  | .request r => b.perform r
  | .advance ticks => b.update .clint (·.advance ticks) fun _ ↦ rfl
  | .pushRx byte => b.update .uart (fun u ↦ (u.pushRx byte).2) fun _ ↦ rfl
  | .popTx => b.update .uart (fun u ↦ (u.popTx.map (·.2)).getD u) fun _ ↦ rfl
  | .setSourceLevel source asserted =>
    b.update .plic (·.setSourceLevel source asserted) fun _ ↦ rfl
  | .popNotification => b.dropNotification
  | .raiseUsedBufferInterrupt => b.raiseUsedBufferInterrupt

/-! ## What the devices see -/

def clintEvent : BusEvent → Option ClintEvent
  | .request r => (b.registerAccess .clint r).bind RegisterAccess.clintEvent
  | .advance ticks => some (.advance ticks)
  | _ => none

def plicEvent : BusEvent → Option PlicEvent
  | .request r => (b.registerAccess .plic r).map RegisterAccess.plicEvent
  | .setSourceLevel source asserted => some (.setSourceLevel source asserted)
  | _ => none

def uartEvent : BusEvent → Option UartEvent
  | .request r => (b.registerAccess .uart r).map RegisterAccess.uartEvent
  | .pushRx byte => some (.pushRx byte)
  | .popTx => some .popTx
  | _ => none

def transportEvent : BusEvent → Option TransportEvent
  | .request r => (b.registerAccess .transport r).bind RegisterAccess.transportEvent
  | .popNotification => some .popNotification
  | .raiseUsedBufferInterrupt => some .raiseUsedBufferInterrupt
  | _ => none

/-- What is seen of a sequence of events. -/
def observed {ε : Type} (see : Bus → BusEvent → Option ε) (events : List BusEvent) : List ε :=
  (Runs.outputs event see b events).filterMap id

section Observed

variable {ε : Type} (see : Bus → BusEvent → Option ε)

@[simp] theorem observed_nil : b.observed see [] = [] := rfl

@[simp] theorem observed_cons (e : BusEvent) (events : List BusEvent) :
    b.observed see (e :: events) = (see b e).toList ++ (b.event e).observed see events := by
  rw [observed, Runs.outputs, List.filterMap_cons]
  cases hsee : see b e <;> simp [observed]

@[simp] theorem observed_append (first later : List BusEvent) :
    b.observed see (first ++ later) =
      b.observed see first ++ (Runs.run event b first).observed see later := by
  induction first generalizing b with
  | nil => simp
  | cons e first ih => simp [ih]

end Observed

/-- **The run of a device.**  When every event of the bus is an event of the device or leaves it
alone, any sequence of events takes it through what it sees of them. -/
theorem component_run {α σ ε : Type} {c : Component α} {see : Bus → BusEvent → Option ε}
    {step : σ → ε → σ} {d : σ → α}
    (hevent : ∀ (b : Bus) (s : σ) (e : BusEvent), b.component c = some (d s) →
      (b.event e).component c = some (d ((see b e).elim s (step s))))
    {b : Bus} {s : σ} (h : b.component c = some (d s)) (events : List BusEvent) :
    (Runs.run event b events).component c =
      some (d (Runs.run step s (b.observed see events))) := by
  induction events generalizing b s with
  | nil => exact h
  | cons e events ih =>
    rw [Runs.run_cons, ih (hevent b s e h), observed_cons, Runs.run_append]
    cases see b e <;> rfl

/-- A change of another device. -/
theorem component_of_ne {α β : Type} {c : Component α} {c' : Component β} {b : Bus} {f : α → α}
    {d : Option β} (hf : ∀ a, (c.set (f a)).range = (c.set a).range)
    (hne : ∀ a, c'.get (c.set a) = none) (h : b.component c' = d) :
    (b.update c f hf).component c' = d :=
  (component_update_of_ne c b f hf c' hne).trans h

/-! ### The events of each device -/

theorem component_event_clint (b : Bus) (s : ClintHart) (e : BusEvent)
    (h : b.component .clint = some s.clint) :
    (b.event e).component .clint = some ((b.clintEvent e).elim s s.step).clint := by
  cases e with
  | request r =>
    rw [event, component_perform Component.steady_clint h, clintEvent]
    cases b.registerAccess .clint r with
    | none => rfl
    | some access => cases access <;> rfl
  | advance ticks =>
    exact (component_update .clint b (·.advance ticks) fun _ ↦ rfl).trans (congrArg _ h)
  | pushRx | popTx | setSourceLevel | popNotification | raiseUsedBufferInterrupt =>
    exact component_of_ne (fun _ ↦ by rfl) (fun _ ↦ by rfl) h

theorem component_event_plic (b : Bus) (s : Ledger) (e : BusEvent)
    (h : b.component .plic = some s.plic) :
    (b.event e).component .plic = some ((b.plicEvent e).elim s s.step).plic := by
  cases e with
  | request r =>
    rw [event, component_perform Component.steady_plic h, plicEvent]
    cases b.registerAccess .plic r with
    | none => rfl
    | some access => cases access <;> rfl
  | setSourceLevel source asserted =>
    exact (component_update .plic b (·.setSourceLevel source asserted) fun _ ↦ rfl).trans
      (congrArg _ h)
  | advance | pushRx | popTx | popNotification | raiseUsedBufferInterrupt =>
    exact component_of_ne (fun _ ↦ by rfl) (fun _ ↦ by rfl) h

theorem component_event_uart (b : Bus) (s : UartLedger) (e : BusEvent)
    (h : b.component .uart = some s.uart) :
    (b.event e).component .uart = some ((b.uartEvent e).elim s s.step).uart := by
  cases e with
  | request r =>
    rw [event, component_perform Component.steady_uart h, uartEvent]
    cases b.registerAccess .uart r with
    | none => rfl
    | some access => cases access <;> rfl
  | pushRx byte =>
    exact (component_update .uart b (fun u ↦ (u.pushRx byte).2) fun _ ↦ rfl).trans (congrArg _ h)
  | popTx =>
    exact (component_update .uart b (fun u ↦ (u.popTx.map (·.2)).getD u) fun _ ↦ rfl).trans
      (congrArg _ h)
  | advance | setSourceLevel | popNotification | raiseUsedBufferInterrupt =>
    exact component_of_ne (fun _ ↦ by rfl) (fun _ ↦ by rfl) h

theorem component_event_transport (b : Bus) (t : VirtioMmioTransport) (e : BusEvent)
    (h : b.component .transport = some t) :
    (b.event e).component .transport = some ((b.transportEvent e).elim t t.event) := by
  cases e with
  | request r =>
    rw [event, component_perform Component.steady_transport h, transportEvent]
    cases b.registerAccess .transport r with
    | none => rfl
    | some access => cases access <;> rfl
  | advance | pushRx | popTx | setSourceLevel =>
    exact component_of_ne (fun _ ↦ by rfl) (fun _ ↦ by rfl) h
  | popNotification =>
    refine (component_update .transport b
      (fun t ↦ { t with notifications := t.notifications.tail }) fun _ ↦ rfl).trans ?_
    rw [h, Option.map_some, transportEvent, Option.elim_some, VirtioMmioTransport.event,
      VirtioMmioTransport.popNotification]
    cases hqueue : t.notifications with
    | nil =>
      show some { t with notifications := [] } = some t
      rw [← hqueue]
    | cons first rest => rfl
  | raiseUsedBufferInterrupt =>
    exact (component_update .transport b (·.raiseUsedBufferInterrupt) fun _ ↦ rfl).trans
      (congrArg _ h)

theorem memoryMap_event (b : Bus) (e : BusEvent) : (b.event e).memoryMap = b.memoryMap := by
  cases e with
  | request r => exact (b.access_perform r).memoryMap
  | advance | pushRx | popTx | setSourceLevel | popNotification | raiseUsedBufferInterrupt =>
    exact memoryMap_update _ b _ (fun _ ↦ by rfl) fun _ ↦ by rfl

/-- Requests among the events. -/
theorem run_request (requests : List BusRequest) :
    Runs.run event b (requests.map .request) = Runs.run perform b requests :=
  List.foldl_map

/-! ## Changing a device in its place -/

theorem updateIn_const {α : Type} {c : Component α} (f : α → α) {d : α} {l : List AddressRegion}
    (h : l.findSome? c.get = some d) : c.updateIn (fun _ ↦ f d) l = c.updateIn f l := by
  induction l with
  | nil => rfl
  | cons region rest ih =>
    rw [List.findSome?_cons] at h
    rw [Component.updateIn, Component.updateIn]
    cases hget : c.get region with
    | some a =>
      rw [hget] at h
      obtain rfl : a = d := Option.some.inj h
      rfl
    | none =>
      rw [hget] at h
      dsimp only
      rw [ih h]

/-- Putting the changed device in its place is changing it. -/
theorem update_const {α : Type} {c : Component α} {b : Bus} (f : α → α) {d : α}
    (h : b.component c = some d) (hconst : ∀ a, (c.set (f d)).range = (c.set a).range)
    (hf : ∀ a, (c.set (f a)).range = (c.set a).range) :
    b.update c (fun _ ↦ f d) hconst = b.update c f hf := by
  simp only [update, updateIn_const f h]

/-- Nothing changes without the device. -/
theorem update_of_none {α : Type} {c : Component α} {b : Bus} (f : α → α)
    (h : b.component c = none) (hf : ∀ a, (c.set (f a)).range = (c.set a).range) :
    b.update c f hf = b := by
  have hsame (l : List AddressRegion) (hl : l.findSome? c.get = none) : c.updateIn f l = l := by
    induction l with
    | nil => rfl
    | cons region rest ih =>
      rw [List.findSome?_cons] at hl
      rw [Component.updateIn]
      cases hget : c.get region with
      | some a =>
        rw [hget] at hl
        cases hl
      | none =>
        rw [hget] at hl
        dsimp only
        rw [ih hl]
  simp only [update, hsame b.regions h]

end Bus

/-! ## The events of an iteration -/

namespace EventLoop

variable (l : EventLoop)

/-- The bytes that the terminal hands over to the input service. -/
def handedOverFrom (reads : ℕ → HostRead) : ℕ → ℕ → EventLoop → List (BitVec 8)
  | 0, _, _ => []
  | budget + 1, count, l =>
    match reads count with
    | .byte value =>
      value :: if (l.pushRx value).1 then handedOverFrom reads budget (count + 1) (l.pushRx value).2
        else []
    | _ => []

/-- The bytes that the terminal hands over in an iteration. -/
def handedOver (answers : HostAnswers) : List (BitVec 8) :=
  handedOverFrom answers.reads l.options.maxTerminalRxBytes 0 l

/-- The loop after the two services. -/
def served (answers : HostAnswers) : EventLoop :=
  let read := l.serviceTerminalInput answers.reads {}
  (read.2.serviceUartOutput answers.writes read.1).2

/-- The number of bytes that are taken out of the UART in an iteration. -/
def takenOut (answers : HostAnswers) : ℕ := (l.served answers).popped.length - l.popped.length

/-- The input of the UART at the PLIC follows the UART. -/
def lineEvents : List BusEvent :=
  match l.uart with
  | none => []
  | some u => [.setSourceLevel u.interruptSource (u.currentInterruptLocked != .none)]

/-- What the hart asks of the bus: nothing when it takes an interrupt. -/
def hartRequests : List BusRequest :=
  match l.cpu.takePendingInterrupt with
  | (some _, _) => []
  | (none, cpu) => cpu.requests

/-- What happens to the bus before the hart takes its turn. -/
def preparedEvents (answers : HostAnswers) : List BusEvent :=
  (l.handedOver answers).map .pushRx ++ List.replicate (l.takenOut answers) .popTx ++
    (.advance l.options.clintTicksPerIteration :: (l.served answers).lineEvents)

/-- What happens to the bus in an iteration, in order. -/
def events (answers : HostAnswers) : List BusEvent :=
  l.preparedEvents answers ++ (l.prepared answers).hartRequests.map .request

/-! ### The bus goes through them -/

theorem bus_pushRx (byte : BitVec 8) :
    (l.pushRx byte).2.cpu.bus = l.cpu.bus.event (.pushRx byte) := by
  rw [pushRx]
  split
  · next hnone =>
    exact (Bus.update_of_none (fun u : Uart16550 ↦ (u.pushRx byte).2) hnone fun _ ↦ rfl).symm
  · next u hu =>
    exact Bus.update_const (fun u : Uart16550 ↦ (u.pushRx byte).2) hu (fun _ ↦ rfl) fun _ ↦ rfl

theorem bus_popTx {l l' : EventLoop} {byte : BitVec 8} (h : l.popTx = some (byte, l')) :
    l'.cpu.bus = l.cpu.bus.event .popTx := by
  rw [popTx] at h
  split at h
  · cases h
  · next first u hbind =>
    obtain ⟨-, rfl⟩ := Prod.mk.inj (Option.some.inj h)
    obtain ⟨u₀, hu₀, hpop⟩ := Option.bind_eq_some_iff.1 hbind
    obtain rfl : (u₀.popTx.map (·.2)).getD u₀ = u := by
      rw [hpop]
      rfl
    exact Bus.update_const (fun u : Uart16550 ↦ (u.popTx.map (Prod.snd (α := BitVec 8))).getD u) hu₀
      (fun _ ↦ rfl) fun _ ↦ rfl

theorem bus_serviceTerminalInputFrom (reads : ℕ → HostRead) (budget count : ℕ)
    (result : EventLoopIterationResult) (l : EventLoop) :
    (serviceTerminalInputFrom reads budget count result l).2.cpu.bus =
      Runs.run Bus.event l.cpu.bus ((handedOverFrom reads budget count l).map .pushRx) := by
  induction budget generalizing count result l with
  | zero => rfl
  | succ budget ih =>
    rw [serviceTerminalInputFrom, handedOverFrom]
    cases reads count with
    | byte value =>
      dsimp only
      rw [List.map_cons, Runs.run_cons, ← bus_pushRx]
      cases (l.pushRx value).1 with
      | false => rfl
      | true => exact ih _ _ _
    | nothing | transient | failed errno => rfl

theorem bus_refill {l l' : EventLoop} {byte : BitVec 8} (h : l.refill = some (byte, l')) :
    ∃ n, l'.popped.length = l.popped.length + n ∧
      l'.cpu.bus = Runs.run Bus.event l.cpu.bus (List.replicate n .popTx) := by
  rw [refill] at h
  split at h
  · obtain ⟨-, rfl⟩ := Prod.mk.inj (Option.some.inj h)
    exact ⟨0, rfl, rfl⟩
  · split at h
    · cases h
    · next first next hpop =>
      obtain ⟨-, rfl⟩ := Prod.mk.inj (Option.some.inj h)
      refine ⟨1, ?_, (bus_popTx hpop : next.cpu.bus = _)⟩
      show next.popped.length = l.popped.length + 1
      rw [(popTx_eq_some hpop).1, List.length_append, List.length_singleton]

theorem bus_serviceUartOutputFrom (writes : ℕ → TerminalWrite) (budget count : ℕ)
    (result : EventLoopIterationResult) (l : EventLoop) :
    let served := (serviceUartOutputFrom writes budget count result l).2
    ∃ n, served.popped.length = l.popped.length + n ∧
      served.cpu.bus = Runs.run Bus.event l.cpu.bus (List.replicate n .popTx) := by
  induction budget generalizing count result l with
  | zero => exact ⟨0, rfl, rfl⟩
  | succ budget ih =>
    rw [serviceUartOutputFrom]
    cases hrefill : l.refill with
    | none => exact ⟨0, rfl, rfl⟩
    | some refilled =>
      obtain ⟨byte, next⟩ := refilled
      obtain ⟨n, hpopped, hbus⟩ := bus_refill hrefill
      have hwritten (reply : TerminalWrite) :
          (next.writeBytes byte reply).2.cpu.bus = next.cpu.bus ∧
            (next.writeBytes byte reply).2.popped = next.popped := by
        rw [writeBytes]
        dsimp only
        split <;> exact ⟨rfl, rfl⟩
      obtain ⟨hbus', hpopped'⟩ := hwritten (writes count)
      dsimp only
      split
      · exact ⟨n, by rw [hpopped', hpopped], by rw [hbus', hbus]⟩
      · obtain ⟨m, hlater, hbuslater⟩ := ih (count + 1) _
          { (next.writeBytes byte (writes count)).2 with
            pendingTx := (next.writeBytes byte (writes count)).2.pendingTx.tail }
        refine ⟨n + m, hlater.trans ?_, hbuslater.trans ?_⟩
        · rw [← Nat.add_assoc, ← hpopped, ← hpopped']
        · rw [List.replicate_add, Runs.run_append, ← hbus, ← hbus']

theorem bus_synchronizeDevices : l.synchronizeDevices.cpu.bus =
    Runs.run Bus.event l.cpu.bus
      (.advance l.options.clintTicksPerIteration :: l.lineEvents) := by
  have hclint (l : EventLoop) : l.synchronizeClint.cpu.bus = l.cpu.bus := by
    rw [synchronizeClint]
    split <;> rfl
  have huart (l : EventLoop) :
      l.synchronizeUart.cpu.bus = Runs.run Bus.event l.cpu.bus l.lineEvents := by
    rw [synchronizeUart, lineEvents]
    cases l.uart <;> rfl
  have hplic (l : EventLoop) : l.synchronizePlic.cpu.bus = l.cpu.bus := by
    rw [synchronizePlic]
    split <;> rfl
  have hline : l.advanceClint.synchronizeClint.lineEvents = l.lineEvents := by
    have huart : l.advanceClint.uart = l.uart :=
      Bus.component_update_of_ne .clint l.cpu.bus (·.advance l.options.clintTicksPerIteration)
        (fun _ ↦ rfl) .uart fun _ ↦ rfl
    rw [lineEvents, lineEvents, uart, hclint, ← uart, huart]
  rw [synchronizeDevices, hplic, huart, hclint, hline]
  rfl

theorem bus_stepCpu (result : EventLoopIterationResult) :
    (l.stepCpu result).2.cpu.bus = Runs.run Bus.event l.cpu.bus (l.hartRequests.map .request) := by
  have hinterrupt : l.cpu.takePendingInterrupt.2.bus = l.cpu.bus := by
    rw [Cpu.takePendingInterrupt]
    split <;> rfl
  rw [stepCpu, hartRequests, ← hinterrupt]
  generalize l.cpu.takePendingInterrupt = taken
  obtain ⟨delivery, cpu⟩ := taken
  cases delivery with
  | some delivery => rfl
  | none =>
    rw [Bus.run_request]
    dsimp only
    split <;> exact bus_step cpu

theorem bus_prepared (answers : HostAnswers) :
    (l.prepared answers).cpu.bus = Runs.run Bus.event l.cpu.bus (l.preparedEvents answers) := by
  have hinput := bus_serviceTerminalInputFrom answers.reads l.options.maxTerminalRxBytes 0 {} l
  have hpopped := congrArg (fun o ↦ o.2.2.length)
    (l.output_serviceTerminalInputFrom answers.reads l.options.maxTerminalRxBytes 0 {}).1
  have hserves := Serves.serviceTerminalInputFrom answers.reads l.options.maxTerminalRxBytes 0 {} l
  rw [show l.prepared answers = (l.served answers).synchronizeDevices from rfl,
    bus_synchronizeDevices, preparedEvents, handedOver, takenOut, Runs.run_append,
    Runs.run_append, served]
  dsimp only [serviceTerminalInput, serviceUartOutput]
  generalize serviceTerminalInputFrom answers.reads _ 0 {} l = read at hinput hpopped hserves ⊢
  have hserves' := Serves.serviceUartOutputFrom answers.writes read.2.options.maxUartTxBytes 0
    read.1 read.2
  obtain ⟨n, htaken, houtput⟩ := bus_serviceUartOutputFrom answers.writes
    read.2.options.maxUartTxBytes 0 read.1 read.2
  dsimp only [output] at hpopped
  rw [hserves'.options.trans hserves.options, houtput, htaken, hpopped, Nat.add_sub_cancel_left,
    hinput]

/-- The hart has the rest of the iteration. -/
theorem bus_step_prepared (answers : HostAnswers) : (l.step answers).cpu.bus =
    Runs.run Bus.perform (l.prepared answers).cpu.bus (l.prepared answers).hartRequests := by
  obtain ⟨result, hrun⟩ := l.runOnce_eq answers
  rw [step, hrun, bus_stepCpu, Bus.run_request]

/-- **The bus goes through the events of the iteration**, whatever the guest and the terminal
do. -/
theorem bus_events (answers : HostAnswers) :
    (l.step answers).cpu.bus = Runs.run Bus.event l.cpu.bus (l.events answers) := by
  rw [bus_step_prepared, events, Runs.run_append, ← bus_prepared, Bus.run_request]

end EventLoop

end Rvemu
