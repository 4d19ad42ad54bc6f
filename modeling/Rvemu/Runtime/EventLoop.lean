import Rvemu.Bus.Component
import Rvemu.Core.Cpu
import Rvemu.Core.CsrRuns
import Rvemu.Lib.Runs
import Rvemu.Runtime.Console

/-!
# The event loop

One iteration serves the terminal in both directions, projects the levels of the devices onto the
CSR file and lets the hart take an interrupt or a step.  What the host does is an argument: the
answers to the reads and writes of the terminal, in order.

The two services are those of the console of the loop (`console_serviceUartOutputFrom`).  A byte
leaves the transmit FIFO before the terminal is asked to take it, and the loop can stop in between.
Over any iterations, what the terminal has accepted followed by the byte kept back is what was taken
out of the FIFO.
-/

set_option autoImplicit false

namespace Rvemu

structure EventLoopOptions where
  clintTicksPerIteration : BitVec 64 := 1#64
  maxTerminalRxBytes : ℕ := 64
  maxUartTxBytes : ℕ := 64
  deriving DecidableEq, Repr

structure EventLoopIterationResult where
  cpuRetired : Bool := false
  cpuStalled : Bool := false
  interruptTaken : Bool := false
  trapTaken : Bool := false
  terminalRxBytes : ℕ := 0
  terminalTxBytes : ℕ := 0
  delivery : Option TrapDelivery := none
  synchronousTrap : Option Trap := none
  terminalInputStatus : TerminalIoStatus := .ready
  terminalOutputStatus : TerminalIoStatus := .ready
  terminalInputErrno : Int := 0
  terminalOutputErrno : Int := 0
  deriving DecidableEq, Repr

namespace EventLoopIterationResult

/-- What the input service reports. -/
def input (result : EventLoopIterationResult) : ServiceResult where
  status := result.terminalInputStatus
  errnoValue := result.terminalInputErrno
  bytes := result.terminalRxBytes

/-- What the output service reports. -/
def output (result : EventLoopIterationResult) : ServiceResult where
  status := result.terminalOutputStatus
  errnoValue := result.terminalOutputErrno
  bytes := result.terminalTxBytes

end EventLoopIterationResult

/-- What the host does during one iteration. -/
structure HostAnswers where
  reads : ℕ → HostRead
  writes : ℕ → TerminalWrite

namespace Uart16550

/-- The level of the interrupt line, given to the PLIC. -/
def synchronize (u : Uart16550) (plic : Plic) : Plic :=
  plic.setSourceLevel u.interruptSource (u.currentInterruptLocked != .none)

end Uart16550

structure EventLoop where
  cpu : Cpu
  options : EventLoopOptions := {}
  pendingTx : List (BitVec 8) := []
  /-- All bytes the terminal has accepted. -/
  accepted : List (BitVec 8) := []
  /-- All bytes taken out of the transmit FIFO. -/
  popped : List (BitVec 8) := []

namespace EventLoop

variable (l : EventLoop)

def uart : Option Uart16550 := l.cpu.bus.component .uart

def modifyBus (f : Bus → Bus) : EventLoop := { l with cpu := { l.cpu with bus := f l.cpu.bus } }

def setUart (u : Uart16550) : EventLoop :=
  l.modifyBus fun b ↦ b.update .uart (fun _ ↦ u) fun _ ↦ rfl

def modifyCsrs (f : CsrFile → CsrFile) : EventLoop :=
  { l with cpu := l.cpu.modifyState (·.modifyCsrs f) }

/-! ## The services -/

def pushRx (byte : BitVec 8) : Bool × EventLoop :=
  match l.uart with
  | none => (false, l)
  | some u => ((u.pushRx byte).1, l.setUart (u.pushRx byte).2)

def popTx : Option (BitVec 8 × EventLoop) :=
  match l.uart.bind Uart16550.popTx with
  | none => none
  | some (byte, u) => some (byte, { l.setUart u with popped := l.popped ++ [byte] })

def serviceTerminalInputFrom (reads : ℕ → HostRead) :
    ℕ → ℕ → EventLoopIterationResult → EventLoop → EventLoopIterationResult × EventLoop
  | 0, _, result, l => (result, l)
  | budget + 1, count, result, l =>
    let input := (reads count).result
    let result :=
      { result with terminalInputStatus := input.status, terminalInputErrno := input.errnoValue }
    match reads count with
    | .byte value =>
      let pushed := l.pushRx value
      if !pushed.1 then (result, pushed.2)
      else
        serviceTerminalInputFrom reads budget (count + 1)
          { result with terminalRxBytes := result.terminalRxBytes + 1 } pushed.2
    | _ => (result, l)

def serviceTerminalInput (reads : ℕ → HostRead) (result : EventLoopIterationResult) :
    EventLoopIterationResult × EventLoop :=
  serviceTerminalInputFrom reads l.options.maxTerminalRxBytes 0 result l

/-- Take a byte out of the FIFO if none is kept back. -/
def refill : Option (BitVec 8 × EventLoop) :=
  match l.pendingTx with
  | byte :: _ => some (byte, l)
  | [] =>
    match l.popTx with
    | none => none
    | some (byte, l) => some (byte, { l with pendingTx := l.pendingTx ++ [byte] })

/-- Ask the terminal to take one byte. -/
def writeBytes (byte : BitVec 8) (reply : TerminalWrite) : TerminalIoResult × EventLoop :=
  (reply.result, if reply = .ready true then { l with accepted := l.accepted ++ [byte] } else l)

def serviceUartOutputFrom (writes : ℕ → TerminalWrite) :
    ℕ → ℕ → EventLoopIterationResult → EventLoop → EventLoopIterationResult × EventLoop
  | 0, _, result, l => (result, l)
  | budget + 1, count, result, l =>
    match l.refill with
    | none => (result, l)
    | some (byte, l) =>
      let written := l.writeBytes byte (writes count)
      let output := written.1
      let l := written.2
      let result :=
        { result with
          terminalOutputStatus := output.status, terminalOutputErrno := output.errnoValue }
      if output.status ≠ .ready ∨ output.byteCount = 0 then (result, l)
      else
        serviceUartOutputFrom writes budget (count + 1)
          { result with terminalTxBytes := result.terminalTxBytes + 1 }
          { l with pendingTx := l.pendingTx.tail }

def serviceUartOutput (writes : ℕ → TerminalWrite) (result : EventLoopIterationResult) :
    EventLoopIterationResult × EventLoop :=
  serviceUartOutputFrom writes l.options.maxUartTxBytes 0 result l

/-! ## One iteration -/

def advanceClint : EventLoop :=
  l.modifyBus fun b ↦ b.update .clint (·.advance l.options.clintTicksPerIteration) fun _ ↦ rfl

def synchronizeClint : EventLoop :=
  match l.cpu.bus.component .clint with
  | none => l
  | some clint => l.modifyCsrs clint.synchronize

def synchronizeUart : EventLoop :=
  match l.uart with
  | none => l
  | some u => l.modifyBus fun b ↦ b.update .plic u.synchronize fun _ ↦ rfl

def synchronizePlic : EventLoop :=
  match l.cpu.bus.component .plic with
  | none => l
  | some plic => l.modifyCsrs plic.synchronize

def synchronizeDevices : EventLoop :=
  l.advanceClint.synchronizeClint.synchronizeUart.synchronizePlic

def stepCpu (result : EventLoopIterationResult) : EventLoopIterationResult × EventLoop :=
  match l.cpu.takePendingInterrupt with
  | (some delivery, cpu) =>
    ({ result with interruptTaken := true, delivery := some delivery }, { l with cpu })
  | (none, cpu) =>
    let stepped := cpu.step
    let result :=
      { result with cpuRetired := stepped.1.retired, cpuStalled := stepped.1.stalled }
    match stepped.1.trap with
    | none => (result, { l with cpu := stepped.2 })
    | some trap =>
      let taken := stepped.2.takeTrap trap
      ({ result with
          trapTaken := true, synchronousTrap := some trap, delivery := some taken.1 },
        { l with cpu := taken.2 })

def runOnce (answers : HostAnswers) : EventLoopIterationResult × EventLoop :=
  let served := l.serviceTerminalInput answers.reads {}
  let served := served.2.serviceUartOutput answers.writes served.1
  served.2.synchronizeDevices.stepCpu served.1

/-! ## Who touches the output -/

/-- What the two loops say about the bytes on their way out. -/
def output : List (BitVec 8) × List (BitVec 8) × List (BitVec 8) :=
  (l.accepted, l.pendingTx, l.popped)

def txFifo : List (BitVec 8) := (l.uart.map (·.txFifo)).getD []

theorem uart_setUart {u : Uart16550} (h : l.uart = some u) (v : Uart16550) :
    (l.setUart v).uart = some v := by
  have hset : (l.setUart v).uart = (l.uart.map fun _ ↦ v) :=
    l.cpu.bus.component_update .uart (fun _ ↦ v) fun _ ↦ rfl
  rw [hset, h]
  rfl

theorem output_pushRx (byte : BitVec 8) : (l.pushRx byte).2.output = l.output := by
  rw [pushRx]
  split <;> rfl

theorem output_serviceTerminalInputFrom (reads : ℕ → HostRead) (budget count : ℕ)
    (result : EventLoopIterationResult) :
    let served := serviceTerminalInputFrom reads budget count result l
    served.2.output = l.output ∧ served.1.output = result.output := by
  induction budget generalizing count result l with
  | zero => exact ⟨rfl, rfl⟩
  | succ budget ih =>
    rw [serviceTerminalInputFrom]
    cases reads count with
    | byte value =>
      dsimp only
      split
      · exact ⟨l.output_pushRx value, rfl⟩
      · obtain ⟨houtput, hcount⟩ := ih (l.pushRx value).2 (count + 1) _
        exact ⟨houtput.trans (l.output_pushRx value), hcount⟩
    | nothing => exact ⟨rfl, rfl⟩
    | transient => exact ⟨rfl, rfl⟩
    | failed errno => exact ⟨rfl, rfl⟩

theorem output_synchronizeDevices : l.synchronizeDevices.output = l.output := by
  have hclint (l : EventLoop) : l.synchronizeClint.output = l.output := by
    rw [synchronizeClint]
    split <;> rfl
  have huart (l : EventLoop) : l.synchronizeUart.output = l.output := by
    rw [synchronizeUart]
    split <;> rfl
  have hplic (l : EventLoop) : l.synchronizePlic.output = l.output := by
    rw [synchronizePlic]
    split <;> rfl
  rw [synchronizeDevices, hplic, huart, hclint]
  rfl

theorem output_stepCpu (result : EventLoopIterationResult) :
    (l.stepCpu result).2.output = l.output ∧
      (l.stepCpu result).1.terminalTxBytes = result.terminalTxBytes := by
  rw [stepCpu]
  split
  · exact ⟨rfl, rfl⟩
  · dsimp only
    split <;> exact ⟨rfl, rfl⟩

/-! ## The console of the loop -/

/-- What the services work on; without a UART they find its FIFOs empty. -/
def console : Console where
  uart := l.uart.getD {}
  pendingTx := l.pendingTx
  terminal := l.accepted

theorem console_setUart {u : Uart16550} (h : l.uart = some u) (v : Uart16550) :
    (l.setUart v).console = { l.console with uart := v } := by
  rw [console, l.uart_setUart h v]
  rfl

/-- A refill of the loop is a refill of its console. -/
theorem console_refill : l.refill.map (fun p ↦ (p.1, p.2.console)) = l.console.refill := by
  rw [refill, Console.refill, show l.console.pendingTx = l.pendingTx from rfl]
  cases hpending : l.pendingTx with
  | cons byte rest => rfl
  | nil =>
    dsimp only
    rw [popTx, show l.console.uart = l.uart.getD {} from rfl]
    cases huart : l.uart with
    | none => rfl
    | some u =>
      rw [Option.bind_some, Option.getD_some]
      cases u.popTx with
      | none => rfl
      | some popped =>
        have hset := l.console_setUart huart popped.2
        refine congrArg (fun s ↦ some (popped.1, s)) ?_
        show { (l.setUart popped.2).console with pendingTx := l.pendingTx ++ [popped.1] } = _
        rw [hset, hpending]
        rfl

/-- **The output service of the loop is that of its console.** -/
theorem console_serviceUartOutputFrom (writes : ℕ → TerminalWrite) (budget count : ℕ)
    (result : EventLoopIterationResult) :
    let served := serviceUartOutputFrom writes budget count result l
    (served.1.output, served.2.console) =
      Console.serviceUartOutputFrom writes budget count result.output l.console := by
  induction budget generalizing count result l with
  | zero => rfl
  | succ budget ih =>
    rw [serviceUartOutputFrom, Console.serviceUartOutputFrom, ← console_refill]
    cases l.refill with
    | none => rfl
    | some refilled =>
      obtain ⟨byte, next⟩ := refilled
      dsimp only [writeBytes, Console.writeByte, Option.map_some]
      by_cases htaken : writes count = .ready true
      · rw [htaken]
        exact ih _ _ _
      · rw [if_neg htaken, if_neg htaken, if_pos (TerminalWrite.result_stops htaken),
          if_pos (TerminalWrite.result_stops htaken)]
        rfl

/-- **The input service of the loop is that of its console.** -/
theorem console_serviceTerminalInputFrom (reads : ℕ → HostRead) (budget count : ℕ)
    (result : EventLoopIterationResult) (h : l.uart.isSome = true) :
    let served := serviceTerminalInputFrom reads budget count result l
    (served.1.input, served.2.console) =
      Console.serviceTerminalInputFrom reads budget count result.input l.console := by
  induction budget generalizing count result l with
  | zero => rfl
  | succ budget ih =>
    rw [serviceTerminalInputFrom, Console.serviceTerminalInputFrom]
    cases reads count with
    | byte value =>
      obtain ⟨u, hu⟩ := Option.isSome_iff_exists.1 h
      have hpush : l.pushRx value = ((u.pushRx value).1, l.setUart (u.pushRx value).2) := by
        rw [pushRx, hu]
      have hconsole := l.console_setUart hu (u.pushRx value).2
      dsimp only
      rw [hpush, show l.console.uart = u by rw [console, hu]; rfl, ← hconsole]
      dsimp only
      split
      · rfl
      · refine ih _ _ _ ?_
        rw [l.uart_setUart hu]
        rfl
    | nothing => rfl
    | transient => rfl
    | failed errno => rfl

/-! ## The output service -/

/-- Nothing is lost or repeated: what was accepted and what is kept back is what was taken out. -/
structure Settled (l : EventLoop) : Prop where
  output : l.accepted ++ l.pendingTx = l.popped
  pending : l.pendingTx.length ≤ 1

theorem Settled.congr {l l' : EventLoop} (h : Settled l) (hsame : l'.output = l.output) :
    Settled l' := by
  simp only [EventLoop.output, Prod.mk.injEq] at hsame
  obtain ⟨haccepted, hpending, hpopped⟩ := hsame
  exact ⟨by rw [haccepted, hpending, hpopped, h.output], by rw [hpending]; exact h.pending⟩

/-- From `l` to `l'` the bytes taken out are the front of the FIFO. -/
def Pops (l l' : EventLoop) : Prop :=
  ∃ bytes, l'.popped = l.popped ++ bytes ∧ l.txFifo = bytes ++ l'.txFifo

theorem Pops.refl (l : EventLoop) : Pops l l := ⟨[], (List.append_nil _).symm, rfl⟩

theorem Pops.trans {l l' l'' : EventLoop} (h : Pops l l') (h' : Pops l' l'') : Pops l l'' := by
  obtain ⟨first, hpopped, hfifo⟩ := h
  obtain ⟨later, hpopped', hfifo'⟩ := h'
  exact ⟨first ++ later, by rw [hpopped', hpopped, List.append_assoc],
    by rw [hfifo, hfifo', List.append_assoc]⟩

theorem popTx_eq_some {l l' : EventLoop} {byte : BitVec 8} (h : l.popTx = some (byte, l')) :
    l'.popped = l.popped ++ [byte] ∧ l.txFifo = byte :: l'.txFifo := by
  rw [popTx] at h
  cases huart : l.uart with
  | none =>
    rw [huart] at h
    cases h
  | some u =>
    rw [huart, Option.bind_some, Uart16550.popTx] at h
    cases hfifo : u.txFifo with
    | nil =>
      rw [hfifo] at h
      cases h
    | cons first rest =>
      rw [hfifo] at h
      obtain ⟨rfl, rfl⟩ := Prod.mk.inj (Option.some.inj h)
      refine ⟨rfl, ?_⟩
      have hnext := l.uart_setUart huart { u with txFifo := rest }
      rw [txFifo, huart, txFifo]
      exact (hfifo : u.txFifo = _).trans (congrArg (first :: ·)
        (congrArg (fun v ↦ (Option.map Uart16550.txFifo v).getD []) hnext).symm)

theorem pops_refill {l l' : EventLoop} {byte : BitVec 8} (h : l.refill = some (byte, l')) :
    Pops l l' := by
  rw [refill] at h
  split at h
  · obtain ⟨rfl, rfl⟩ := Prod.mk.inj (Option.some.inj h)
    exact Pops.refl l
  · split at h
    · cases h
    · next first next hpop =>
      obtain ⟨rfl, rfl⟩ := Prod.mk.inj (Option.some.inj h)
      obtain ⟨hpopped, hfifo⟩ := popTx_eq_some hpop
      exact ⟨[first], hpopped, hfifo⟩

theorem pops_serviceUartOutputFrom (writes : ℕ → TerminalWrite) (budget count : ℕ)
    (result : EventLoopIterationResult) :
    Pops l (serviceUartOutputFrom writes budget count result l).2 := by
  induction budget generalizing count result l with
  | zero => exact Pops.refl l
  | succ budget ih =>
    rw [serviceUartOutputFrom]
    cases hrefill : l.refill with
    | none => exact Pops.refl l
    | some refilled =>
      obtain ⟨byte, next⟩ := refilled
      have hwritten : Pops l (next.writeBytes byte (writes count)).2 := by
        rw [writeBytes]
        dsimp only
        split
        · exact (pops_refill hrefill : Pops l next)
        · exact pops_refill hrefill
      dsimp only
      split
      · exact hwritten
      · exact hwritten.trans (ih _ _ _)

/-- What the console holds or has delivered stays what it was, and of that the FIFO has given up
what was taken out of it: the rest is accepted or kept back. -/
theorem Settled.of_output {l l' : EventLoop} (h : Settled l) (hpops : Pops l l')
    (houtput : l'.console.output = l.console.output) (hpending : l'.pendingTx.length ≤ 1) :
    Settled l' := by
  obtain ⟨bytes, hpopped, hfifo⟩ := hpops
  have hconsole (l : EventLoop) : l.console.output = l.accepted ++ l.pendingTx ++ l.txFifo := by
    rw [Console.output, console, txFifo]
    cases l.uart <;> rfl
  rw [hconsole, hconsole, h.output, hfifo, ← List.append_assoc, ← hpopped] at houtput
  exact ⟨List.append_cancel_right houtput, hpending⟩

theorem serviceUartOutputFrom_spec (writes : ℕ → TerminalWrite) (budget count : ℕ)
    (result : EventLoopIterationResult) :
    let served := serviceUartOutputFrom writes budget count result l
    (Settled l → Settled served.2) ∧ served.2.accepted.length + result.terminalTxBytes =
      l.accepted.length + served.1.terminalTxBytes := by
  intro served
  have hconsole := l.console_serviceUartOutputFrom writes budget count result
  have houtput := Console.output_serviceUartOutputFrom writes budget count result.output l.console
  have hcount := Console.count_serviceUartOutputFrom writes budget count result.output l.console
  rw [← hconsole] at houtput hcount
  exact ⟨fun h ↦ h.of_output (l.pops_serviceUartOutputFrom writes budget count result) houtput
    (hcount.2 h.pending), hcount.1⟩

/-! ## Runs -/

/-- The loop after one iteration. -/
def step (answers : HostAnswers) : EventLoop := (l.runOnce answers).2

/-- The number of bytes the iteration reports as written. -/
def reportedTx (answers : HostAnswers) : ℕ := (l.runOnce answers).1.terminalTxBytes

theorem step_spec (answers : HostAnswers) :
    (Settled l → Settled (l.step answers)) ∧
      (l.step answers).accepted.length = l.accepted.length + l.reportedTx answers := by
  rw [step, reportedTx, runOnce]
  dsimp only [serviceTerminalInput, serviceUartOutput]
  obtain ⟨hinput, hreports⟩ :=
    l.output_serviceTerminalInputFrom answers.reads l.options.maxTerminalRxBytes 0 {}
  have hzero := congrArg ServiceResult.bytes hreports
  generalize serviceTerminalInputFrom answers.reads _ 0 {} l = read at hinput hreports hzero ⊢
  obtain ⟨hsettled, hcount⟩ :=
    read.2.serviceUartOutputFrom_spec answers.writes read.2.options.maxUartTxBytes 0 read.1
  generalize serviceUartOutputFrom answers.writes _ 0 read.1 read.2 = written at hsettled hcount ⊢
  obtain ⟨hrest, hreported⟩ := written.2.synchronizeDevices.output_stepCpu written.1
  have hsame := hrest.trans written.2.output_synchronizeDevices
  refine ⟨fun h ↦ (hsettled (h.congr hinput)).congr hsame, ?_⟩
  have haccepted := congrArg (fun o ↦ o.1.length) hsame
  have haccepted' := congrArg (fun o ↦ o.1.length) hinput
  dsimp only [output] at haccepted haccepted'
  rw [hreported, haccepted]
  dsimp only [EventLoopIterationResult.output] at hzero
  omega

theorem run_spec (answers : List HostAnswers) (h : Settled l) :
    Settled (Runs.run step l answers) ∧ (Runs.run step l answers).accepted.length =
      l.accepted.length + (Runs.outputs step reportedTx l answers).sum := by
  induction answers generalizing l with
  | nil => exact ⟨h, rfl⟩
  | cons first rest ih =>
    obtain ⟨hsettled, hcount⟩ := l.step_spec first
    obtain ⟨hend, hsum⟩ := ih (l.step first) (hsettled h)
    refine ⟨hend, ?_⟩
    rw [Runs.run_cons, Runs.outputs, List.sum_cons, hsum, hcount, Nat.add_assoc]

/-- **Output exactly once.**  After any iterations, whatever the terminal answers, the bytes it has
accepted followed by the byte kept back are the bytes taken out of the transmit FIFO, each of them
the first of the FIFO at that moment; at most one byte is kept back; and the iterations report every
accepted byte once. -/
theorem output_exactly_once :
    (∀ (cpu : Cpu) (options : EventLoopOptions) (answers : List HostAnswers),
      let start : EventLoop := { cpu, options }
      let final := Runs.run step start answers
      final.accepted ++ final.pendingTx = final.popped ∧ final.pendingTx.length ≤ 1 ∧
        final.accepted.length = (Runs.outputs step reportedTx start answers).sum) ∧
    (∀ (l : EventLoop) (answers : HostAnswers),
      (l.step answers).accepted.length = l.accepted.length + l.reportedTx answers) ∧
    ∀ (l : EventLoop) (writes : ℕ → TerminalWrite) (result : EventLoopIterationResult),
      Pops l (l.serviceUartOutput writes result).2 := by
  refine ⟨fun cpu options answers ↦ ?_, fun l answers ↦ (l.step_spec answers).2,
    fun l writes result ↦ l.pops_serviceUartOutputFrom writes _ 0 result⟩
  obtain ⟨hsettled, hsum⟩ := run_spec { cpu, options } answers ⟨rfl, Nat.zero_le 1⟩
  exact ⟨hsettled.output, hsettled.pending, hsum.trans (Nat.zero_add _)⟩

end EventLoop

end Rvemu
