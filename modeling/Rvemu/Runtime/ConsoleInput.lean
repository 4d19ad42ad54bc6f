import Rvemu.Runtime.BusEvents

/-!
# Input through the whole machine

In an iteration of the loop the UART goes through the bytes of the terminal, the bytes that are
taken out of it, and the accesses to its registers among the requests of the hart
(`EventLoop.uartEvents_eq`).  So a run of the machine is a run of `UartLedger`, in which the pushes
are what the terminal has handed over and all reads and writes are the guest's, and what is known of
the receive half holds of the machine.  A run of the loop is also a run of its console
(`EventLoop.console_run`), so what is known of the transmit half holds of the machine as well.
-/

set_option autoImplicit false

namespace Rvemu

namespace UartEvent

/-- The byte that the terminal offers. -/
def offered : UartEvent → Option (BitVec 8)
  | pushRx byte => some byte
  | _ => none

/-- What the guest does to the UART it does to the console. -/
def console : UartEvent → Option ConsoleEvent
  | read offset w => some (.read offset w)
  | write offset w value => some (.write offset w value)
  | _ => none

theorem offered_of_console {e : UartEvent} (h : e.console.isSome = true) : e.offered = none := by
  cases e with
  | read offset w => rfl
  | write offset w value => rfl
  | pushRx byte => cases h
  | popTx => cases h

end UartEvent

namespace UartLedger

/-- Only a push accepts a byte. -/
theorem accepted_step (r : UartLedger) {e : UartEvent} (h : e.offered = none) :
    (r.step e).accepted = r.accepted := by
  cases e with
  | pushRx byte => cases h
  | popTx => rfl
  | read offset w =>
    have hnote (value : BitVec 64) : (r.noteRead offset w value).accepted = r.accepted := by
      rw [noteRead]
      split
      · split <;> rfl
      · split <;> rfl
    exact hnote _
  | write offset w value =>
    have hnote : (r.noteWrite offset w value).accepted = r.accepted := by
      rw [noteWrite]
      split <;> rfl
    exact hnote

theorem accepted_run (r : UartLedger) {events : List UartEvent}
    (h : ∀ e ∈ events, e.offered = none) : (Runs.run step r events).accepted = r.accepted :=
  Runs.run_induction_on (I := fun s : UartLedger ↦ s.accepted = r.accepted)
    (fun s _ he hs ↦ (s.accepted_step he).trans hs) rfl h

end UartLedger

namespace EventLoop

variable (l : EventLoop)

/-! ## The events of the UART -/

/-- The number of bytes the iteration reports as read. -/
def reportedRx (answers : HostAnswers) : ℕ := (l.runOnce answers).1.terminalRxBytes

/-- The bytes that the iteration reports as read. -/
def acceptedRx (answers : HostAnswers) : List (BitVec 8) :=
  (l.handedOver answers).take (l.reportedRx answers)

/-- What the UART goes through in an iteration. -/
def uartEvents (answers : HostAnswers) : List UartEvent :=
  l.cpu.bus.observed Bus.uartEvent (l.events answers)

/-- What the UART sees of the hart, when the hart takes its turn. -/
def guestEvents : List UartEvent :=
  l.cpu.bus.observed Bus.uartEvent (l.hartRequests.map .request)

/-- The guest reads and writes registers. -/
theorem console_of_mem_guestEvents {e : UartEvent} (h : e ∈ l.guestEvents) :
    e.console.isSome = true := by
  have hall (requests : List BusRequest) (b : Bus)
      (h : e ∈ b.observed Bus.uartEvent (requests.map .request)) : e.console.isSome = true := by
    induction requests generalizing b with
    | nil => cases h
    | cons r requests ih =>
      rw [List.map_cons, Bus.observed_cons, List.mem_append, Option.mem_toList] at h
      rcases h with hfirst | hlater
      · obtain ⟨access, -, rfl⟩ := Option.map_eq_some_iff.1 hfirst
        cases access <;> rfl
      · exact ih _ hlater
  exact hall _ _ h

theorem observed_pushRx (b : Bus) (bytes : List (BitVec 8)) :
    b.observed Bus.uartEvent (bytes.map .pushRx) = bytes.map .pushRx := by
  induction bytes generalizing b with
  | nil => rfl
  | cons byte bytes ih => simp [Bus.uartEvent, ih]

theorem observed_popTx (b : Bus) (n : ℕ) :
    b.observed Bus.uartEvent (List.replicate n .popTx) = List.replicate n .popTx := by
  induction n generalizing b with
  | zero => rfl
  | succ n ih => simp [List.replicate_succ, Bus.uartEvent, ih]

theorem observed_lineEvents (b : Bus) (l' : EventLoop) : b.observed Bus.uartEvent
    (.advance l.options.clintTicksPerIteration :: l'.lineEvents) = [] := by
  rw [lineEvents]
  cases l'.uart <;> simp [Bus.uartEvent]

/-- **The UART in an iteration.**  The bytes that the terminal hands over, the bytes that are taken
out, and the accesses of the guest. -/
theorem uartEvents_eq (answers : HostAnswers) :
    l.uartEvents answers = (l.handedOver answers).map .pushRx ++
      List.replicate (l.takenOut answers) .popTx ++ (l.prepared answers).guestEvents := by
  rw [uartEvents, events, Bus.observed_append, ← bus_prepared, guestEvents, preparedEvents,
    Bus.observed_append, Bus.observed_append, observed_pushRx, observed_popTx,
    observed_lineEvents, List.append_nil]

theorem uart_step {answers : HostAnswers} {r : UartLedger} (h : l.uart = some r.uart) :
    (l.step answers).uart = some (Runs.run UartLedger.step r (l.uartEvents answers)).uart := by
  rw [uart, bus_events]
  exact Bus.component_run (d := UartLedger.uart) Bus.component_event_uart h _

/-- What the console goes through in an iteration: the two services, and the accesses of the
guest. -/
def consoleEvents (answers : HostAnswers) : List ConsoleEvent :=
  .input l.options.maxTerminalRxBytes answers.reads ::
    .output l.options.maxUartTxBytes answers.writes ::
      (l.prepared answers).guestEvents.filterMap UartEvent.console

/-- An access of the guest changes the UART and nothing else of the console. -/
theorem run_console {events : List UartEvent} (h : ∀ e ∈ events, e.console.isSome = true)
    (s : Console) {r : UartLedger} (hr : s.uart = r.uart) :
    s.run (events.filterMap UartEvent.console) =
      { s with uart := (Runs.run UartLedger.step r events).uart } := by
  induction events generalizing s r with
  | nil => rw [Runs.run_nil, ← hr]; rfl
  | cons e events ih =>
    rw [List.forall_mem_cons] at h
    cases e with
    | read offset w =>
      refine (ih h.2 _ ?_).trans rfl
      exact congrArg (fun u : Uart16550 ↦ (u.read offset w).2) hr
    | write offset w value =>
      refine (ih h.2 _ ?_).trans rfl
      exact congrArg (fun u : Uart16550 ↦ (u.write offset w value).2) hr
    | pushRx byte => cases h.1
    | popTx => cases h.1

theorem console_served (answers : HostAnswers) (h : l.uart.isSome = true) :
    (l.served answers).console = l.console.run
      [.input l.options.maxTerminalRxBytes answers.reads,
        .output l.options.maxUartTxBytes answers.writes] := by
  have hinput :=
    l.console_serviceTerminalInputFrom answers.reads l.options.maxTerminalRxBytes 0 {} h
  have hreports :=
    (l.output_serviceTerminalInputFrom answers.reads l.options.maxTerminalRxBytes 0 {}).2
  have hserves := Serves.serviceTerminalInputFrom answers.reads l.options.maxTerminalRxBytes 0 {} l
  rw [served, serviceTerminalInput]
  dsimp only at hinput hreports ⊢
  generalize serviceTerminalInputFrom answers.reads _ 0 {} l = read at hinput hreports hserves ⊢
  have houtput :=
    read.2.console_serviceUartOutputFrom answers.writes read.2.options.maxUartTxBytes 0 read.1
  have hconsole : read.2.console = _ := congrArg Prod.snd hinput
  dsimp only at houtput
  rw [hreports, hconsole, hserves.options] at houtput
  rw [serviceUartOutput, hserves.options]
  exact congrArg Prod.snd houtput

theorem uart_synchronizeDevices : l.synchronizeDevices.uart = l.uart := by
  have hclint (l : EventLoop) : l.synchronizeClint.uart = l.uart := by
    rw [synchronizeClint]
    split <;> rfl
  have huart (l : EventLoop) : l.synchronizeUart.uart = l.uart := by
    rw [synchronizeUart]
    split
    · rfl
    · next u _ =>
      exact Bus.component_update_of_ne .plic l.cpu.bus u.synchronize (fun _ ↦ rfl) .uart fun _ ↦ rfl
  have hplic (l : EventLoop) : l.synchronizePlic.uart = l.uart := by
    rw [synchronizePlic]
    split <;> rfl
  rw [synchronizeDevices, hplic, huart, hclint]
  exact Bus.component_update_of_ne .clint l.cpu.bus
    (·.advance l.options.clintTicksPerIteration) (fun _ ↦ rfl) .uart fun _ ↦ rfl

/-- The projections leave the console alone. -/
theorem console_prepared (answers : HostAnswers) :
    (l.prepared answers).console = (l.served answers).console := by
  have hsame := (l.served answers).output_synchronizeDevices
  simp only [output, Prod.mk.injEq] at hsame
  show (l.served answers).synchronizeDevices.console = _
  rw [console, uart_synchronizeDevices, hsame.1, hsame.2.1, console]

/-- **An iteration of the loop is a run of its console.** -/
theorem console_step (answers : HostAnswers) (h : l.uart.isSome = true) :
    (l.step answers).console = l.console.run (l.consoleEvents answers) := by
  obtain ⟨u, hu⟩ := Option.isSome_iff_exists.1 h
  let r := Runs.run UartLedger.step { uart := u }
    (l.cpu.bus.observed Bus.uartEvent (l.preparedEvents answers))
  have hr : (l.prepared answers).uart = some r.uart := by
    rw [uart, bus_prepared]
    exact Bus.component_run (d := UartLedger.uart) (s := { uart := u }) Bus.component_event_uart hu
      (l.preparedEvents answers)
  have hguest := run_console (fun _ ↦ (l.prepared answers).console_of_mem_guestEvents)
    (l.prepared answers).console (r := r) (by rw [console, hr]; rfl)
  have hdone : (l.step answers).uart =
      some (Runs.run UartLedger.step r (l.prepared answers).guestEvents).uart := by
    rw [uart, bus_step_prepared, ← Bus.run_request]
    exact Bus.component_run (d := UartLedger.uart) Bus.component_event_uart hr _
  obtain ⟨result, hrun⟩ := l.runOnce_eq answers
  have hsame := ((l.prepared answers).output_stepCpu result).1
  rw [show ((l.prepared answers).stepCpu result).2 = l.step answers from
    (congrArg Prod.snd hrun).symm] at hsame
  simp only [output, Prod.mk.injEq] at hsame
  calc (l.step answers).console
      = { (l.prepared answers).console with
          uart := (Runs.run UartLedger.step r (l.prepared answers).guestEvents).uart } := by
        rw [console, hdone, hsame.1, hsame.2.1]
        rfl
    _ = _ := by
        rw [← hguest, console_prepared, l.console_served answers h]
        rfl

/-- **A run of the loop is a run of its console**, with the accesses of the guest between the
services. -/
theorem console_run (l : EventLoop) (answers : List HostAnswers) (h : l.uart.isSome = true) :
    (Runs.run step l answers).console =
      l.console.run (Runs.outputs step consoleEvents l answers).flatten := by
  induction answers generalizing l with
  | nil => rfl
  | cons first rest ih =>
    obtain ⟨u, hu⟩ := Option.isSome_iff_exists.1 h
    have hnext : (l.step first).uart.isSome = true := by
      rw [l.uart_step (r := { uart := u }) hu]
      rfl
    rw [Runs.run_cons, ih (l.step first) hnext, console_step l first h, Runs.outputs,
      List.flatten_cons, Console.run, Console.run, Console.run, List.foldl_append]

/-! ## What is accepted -/

/-- The input service pushes what it is handed, and reports what was accepted: all of it but the
last byte, if that was refused. -/
theorem serviceTerminalInputFrom_spec (reads : ℕ → HostRead) (budget count : ℕ)
    (result : EventLoopIterationResult) (l : EventLoop) :
    let bytes := handedOverFrom reads budget count l
    ∃ n, (serviceTerminalInputFrom reads budget count result l).1.terminalRxBytes =
        result.terminalRxBytes + n ∧ bytes.length ≤ n + 1 ∧
      ∀ r : UartLedger, l.uart = some r.uart →
        (Runs.run UartLedger.step r (bytes.map .pushRx)).accepted = r.accepted ++ bytes.take n := by
  induction budget generalizing count result l with
  | zero => exact ⟨0, rfl, Nat.zero_le _, fun _ _ ↦ (List.append_nil _).symm⟩
  | succ budget ih =>
    rw [serviceTerminalInputFrom, handedOverFrom]
    cases reads count with
    | byte value =>
      dsimp only
      -- what the ledger notes of the push is what the loop sees of it
      have hnote (r : UartLedger) (hr : l.uart = some r.uart) :
          (r.step (.pushRx value)).accepted =
            r.accepted ++ if (l.pushRx value).1 then [value] else [] := by
        rw [UartLedger.step, EventLoop.pushRx, hr]
        dsimp only
        cases (r.uart.pushRx value).1 with
        | true => rfl
        | false => exact (List.append_nil _).symm
      cases hpush : (l.pushRx value).1 with
      | false =>
        rw [hpush] at hnote
        exact ⟨0, rfl, Nat.le_refl _, hnote⟩
      | true =>
        rw [hpush] at hnote
        obtain ⟨n, hreported, hlength, haccepted⟩ := ih (count + 1) _ (l.pushRx value).2
        refine ⟨n + 1, hreported.trans (Nat.add_right_comm result.terminalRxBytes 1 n),
          Nat.succ_le_succ hlength, fun r hr ↦ ?_⟩
        have hpushed : (l.pushRx value).2.uart = some (r.step (.pushRx value)).uart := by
          rw [EventLoop.pushRx, hr]
          exact l.uart_setUart hr _
        refine (haccepted _ hpushed).trans ?_
        rw [hnote r hr, if_pos rfl, List.append_assoc]
        rfl
    | nothing | transient | failed errno =>
      exact ⟨0, rfl, Nat.zero_le _, fun _ _ ↦ (List.append_nil _).symm⟩

/-- Nothing else in the iteration changes the report. -/
theorem reportedRx_eq (answers : HostAnswers) :
    l.reportedRx answers = (l.serviceTerminalInput answers.reads {}).1.terminalRxBytes := by
  have houtput (writes : ℕ → TerminalWrite) (budget count : ℕ)
      (result : EventLoopIterationResult) (l : EventLoop) :
      (serviceUartOutputFrom writes budget count result l).1.terminalRxBytes =
        result.terminalRxBytes := by
    induction budget generalizing count result l with
    | zero => rfl
    | succ budget ih =>
      rw [serviceUartOutputFrom]
      cases l.refill with
      | none => rfl
      | some refilled =>
        dsimp only
        split
        · rfl
        · exact ih _ _ _
  have hcpu (l : EventLoop) (result : EventLoopIterationResult) :
      (l.stepCpu result).1.terminalRxBytes = result.terminalRxBytes := by
    rw [stepCpu]
    split
    · rfl
    · dsimp only
      split <;> rfl
  rw [reportedRx, runOnce]
  exact (hcpu _ _).trans (houtput ..)

/-- An iteration: at most the last byte that is handed over is not accepted. -/
theorem accepted_step (answers : HostAnswers) :
    (l.handedOver answers).length ≤ l.reportedRx answers + 1 ∧
      ∀ r : UartLedger, l.uart = some r.uart →
        (Runs.run UartLedger.step r (l.uartEvents answers)).accepted =
          r.accepted ++ l.acceptedRx answers := by
  obtain ⟨n, hreported, hlength, haccepted⟩ :=
    serviceTerminalInputFrom_spec answers.reads l.options.maxTerminalRxBytes 0 {} l
  obtain rfl : l.reportedRx answers = n :=
    (l.reportedRx_eq answers).trans (hreported.trans (Nat.zero_add n))
  refine ⟨hlength, fun r hr ↦ ?_⟩
  have hpops : ∀ e ∈ List.replicate (l.takenOut answers) UartEvent.popTx, e.offered = none := by
    intro e he
    rw [List.eq_of_mem_replicate he]
    rfl
  rw [uartEvents_eq, Runs.run_append, Runs.run_append,
    UartLedger.accepted_run _ fun e he ↦
      UartEvent.offered_of_console ((l.prepared answers).console_of_mem_guestEvents he),
    UartLedger.accepted_run _ hpops]
  exact haccepted r hr

theorem accepted_run (l : EventLoop) {r : UartLedger} (h : l.uart = some r.uart)
    (answers : List HostAnswers) :
    (Runs.run UartLedger.step r (Runs.outputs step uartEvents l answers).flatten).accepted =
      r.accepted ++ (Runs.outputs step acceptedRx l answers).flatten := by
  induction answers generalizing l r with
  | nil => exact (List.append_nil _).symm
  | cons first rest ih =>
    rw [Runs.outputs, Runs.outputs, List.flatten_cons, List.flatten_cons, Runs.run_append,
      ih (l.step first) (l.uart_step h), (l.accepted_step first).2 r h, List.append_assoc]

end EventLoop

namespace SmallMachine

end SmallMachine

end Rvemu
