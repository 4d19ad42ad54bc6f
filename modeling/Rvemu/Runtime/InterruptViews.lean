import Rvemu.Bus.DeviceHistory
import Rvemu.Core.PlicArbitration
import Rvemu.Core.TrapReturn
import Rvemu.Runtime.InterruptDelivery
import Rvemu.Runtime.Receiver

/-!
# What the hart sees of its devices

When the hart looks for a pending interrupt, the pending bits are what the devices say at that
moment: the timer and software bits are those of the CLINT, the external bits are the arbitration of
the PLIC, and the input of the UART is its interrupt cause.  So a byte that arrives at the terminal
interrupts a hart that can be interrupted in the very iteration that reads it.
-/

set_option autoImplicit false

namespace Rvemu

open Relation

attribute [local instance] Plic.neZero_contexts

/-! ## The PLIC -/

namespace Plic

variable (p : Plic)

theorem sourceLevel_setSourceLevel_self {source : BitVec 32} (hpos : 0 < source.toNat)
    (hle : source.toNat ≤ 31) (asserted : Bool) :
    (p.setSourceLevel source asserted).sourceLevel source = asserted := by
  rw [setSourceLevel, dif_neg (by omega), sourceLevel, dif_pos (by omega)]
  exact Function.update_self _ _ _

/-- An unclaimed source whose input is up, enabled above the threshold, gives the context something
to claim. -/
theorem contextPending_setSourceLevel {source : BitVec 32} {context : Fin 2}
    (henabled : p.EnabledAbove context source) (hpos : 0 < source.toNat)
    (hunclaimed : ∀ s : Fin 32, s.val = source.toNat → p.claimedBy s = 0#8) :
    (p.setSourceLevel source true).contextPending context = true := by
  obtain ⟨s, hs, henable, hthreshold⟩ := henabled
  have hlt := s.isLt
  have hclaimed := hunclaimed s hs
  have hself : (⟨source.toNat, by omega⟩ : Fin 32) = s := Fin.ext hs.symm
  have hset : p.setSourceLevel source true = { p with
      level := Function.update p.level s true, pending := Function.update p.pending s true } := by
    rw [setSourceLevel, dif_neg (by omega)]
    dsimp only
    rw [hself, hclaimed]
    rfl
  rw [contextPending, bne_iff_ne, ne_eq, select_eq_zero_iff, hset]
  intro hnone
  have hcandidate := hnone s fun hzero ↦ by
    rw [hzero] at hs
    exact absurd hs hpos.ne
  simp only [candidate, Function.update_self, hclaimed, henable, hthreshold, decide_true]
    at hcandidate
  cases hcandidate

end Plic

/-! ## The projections -/

namespace EventLoop

variable {l : EventLoop} {clint : Clint} {plic : Plic} {uart : Uart16550}

/-- The three devices that the loop projects. -/
structure Devices (l : EventLoop) (clint : Clint) (plic : Plic) (uart : Uart16550) : Prop where
  clint : l.cpu.bus.component .clint = some clint
  plic : l.cpu.bus.component .plic = some plic
  uart : l.cpu.bus.component .uart = some uart

theorem Devices.update_clint (h : l.Devices clint plic uart) (f : Clint → Clint) :
    (l.modifyBus fun b ↦ b.update .clint f fun _ ↦ rfl).Devices (f clint) plic uart where
  clint :=
    (Bus.component_update .clint l.cpu.bus f fun _ ↦ rfl).trans (congrArg (Option.map f) h.clint)
  plic :=
    (Bus.component_update_of_ne .clint l.cpu.bus f (fun _ ↦ rfl) .plic fun _ ↦ rfl).trans h.plic
  uart :=
    (Bus.component_update_of_ne .clint l.cpu.bus f (fun _ ↦ rfl) .uart fun _ ↦ rfl).trans h.uart

theorem Devices.update_plic (h : l.Devices clint plic uart) (f : Plic → Plic) :
    (l.modifyBus fun b ↦ b.update .plic f fun _ ↦ rfl).Devices clint (f plic) uart where
  clint :=
    (Bus.component_update_of_ne .plic l.cpu.bus f (fun _ ↦ rfl) .clint fun _ ↦ rfl).trans h.clint
  plic :=
    (Bus.component_update .plic l.cpu.bus f fun _ ↦ rfl).trans (congrArg (Option.map f) h.plic)
  uart :=
    (Bus.component_update_of_ne .plic l.cpu.bus f (fun _ ↦ rfl) .uart fun _ ↦ rfl).trans h.uart

/-- The CSR file after the levels of the CLINT and the PLIC are projected onto it. -/
def projected (clint : Clint) (plic : Plic) (csrs : CsrFile) : CsrFile :=
  plic.synchronize (clint.synchronize csrs)

/-- What the projections do: the clock goes on, the UART drives its input, and the hart is left with
its pending bits and its clock. -/
theorem synchronizeDevices_spec (h : l.Devices clint plic uart) :
    let clint' := clint.advance l.options.clintTicksPerIteration
    let plic' := uart.synchronize plic
    l.synchronizeDevices.Devices clint' plic' uart ∧
      l.synchronizeDevices.cpu.state =
        l.cpu.state.modifyCsrs (projected clint' plic') ∧
      l.synchronizeDevices.options = l.options := by
  intro clint' plic'
  have hadvance : l.advanceClint.Devices clint' plic uart :=
    h.update_clint (·.advance l.options.clintTicksPerIteration)
  have hclint : l.advanceClint.synchronizeClint = l.advanceClint.modifyCsrs clint'.synchronize := by
    rw [synchronizeClint, hadvance.clint]
  set l₁ := l.advanceClint.modifyCsrs clint'.synchronize
  have huart : l₁.synchronizeUart =
      l₁.modifyBus fun b ↦ b.update .plic uart.synchronize fun _ ↦ rfl := by
    rw [synchronizeUart, EventLoop.uart, show l₁.cpu.bus.component .uart = some uart from
      hadvance.uart]
  set l₂ := l₁.modifyBus fun b ↦ b.update .plic uart.synchronize fun _ ↦ rfl
  have hdevices : l₂.Devices clint' plic' uart :=
    Devices.update_plic (l := l₁) ⟨hadvance.clint, hadvance.plic, hadvance.uart⟩ uart.synchronize
  have hplic : l₂.synchronizePlic = l₂.modifyCsrs plic'.synchronize := by
    rw [synchronizePlic, hdevices.plic]
  rw [synchronizeDevices, hclint, huart, hplic]
  exact ⟨⟨hdevices.clint, hdevices.plic, hdevices.uart⟩, rfl, rfl⟩

/-- The pending bits of the devices are their levels; the others are left alone. -/
theorem getLsbD_mip_projected (clint : Clint) (plic : Plic) (csrs : CsrFile) (i : ℕ) :
    (projected clint plic csrs).mip.getLsbD i =
      if i = 9 then plic.contextPending 1
      else if i = 11 then plic.contextPending 0
      else if i = 7 then decide (clint.mtimecmp ≤ clint.mtime)
      else if i = 3 then clint.msip
      else csrs.mip.getLsbD i :=
  (plic.getLsbD_mip_synchronize (clint.synchronize csrs) i).trans
    (by rw [clint.getLsbD_mip_synchronize csrs i]; rfl)

/-- Nothing else is projected but the clock. -/
theorem projected_eq (clint : Clint) (plic : Plic) (csrs : CsrFile) :
    ∃ mip, projected clint plic csrs = { csrs with mip, time := clint.mtime } := by
  have hset (c : CsrFile) (cause : InterruptCause) (pending : Bool) :
      ∃ mip, c.setInterruptPending cause pending = { c with mip } := ⟨_, rfl⟩
  rw [projected, Plic.synchronize, Clint.synchronize]
  obtain ⟨m₁, h₁⟩ := hset { csrs with time := clint.mtime } .machineSoftware clint.msip
  rw [h₁]
  obtain ⟨m₂, h₂⟩ := hset { csrs with time := clint.mtime, mip := m₁ } .machineTimer
    (clint.mtimecmp ≤ clint.mtime)
  rw [h₂]
  obtain ⟨m₃, h₃⟩ := hset { csrs with time := clint.mtime, mip := m₂ } .machineExternal
    (plic.contextPending 0)
  rw [h₃]
  exact hset { csrs with time := clint.mtime, mip := m₃ } .supervisorExternal
    (plic.contextPending 1)

/-! ## The services -/

/-- A service works on the FIFOs of the UART, and takes nothing out of its receiver. -/
structure Serves (l l' : EventLoop) : Prop where
  state : l'.cpu.state = l.cpu.state
  options : l'.options = l.options
  devices : ∀ {clint plic uart}, l.Devices clint plic uart → ∃ uart', l'.Devices clint plic uart' ∧
    uart'.ier = uart.ier ∧ uart'.interruptSource = uart.interruptSource ∧
    uart.rxFifo <+: uart'.rxFifo

namespace Serves

theorem refl (l : EventLoop) : l.Serves l :=
  ⟨rfl, rfl, fun h ↦ ⟨_, h, rfl, rfl, List.prefix_refl _⟩⟩

theorem trans {l' l'' : EventLoop} (h : l.Serves l') (h' : l'.Serves l'') : l.Serves l'' := by
  refine ⟨h'.state.trans h.state, h'.options.trans h.options, fun hdevices ↦ ?_⟩
  obtain ⟨u', hu', hier, hsource, hfront⟩ := h.devices hdevices
  obtain ⟨u'', hu'', hier', hsource', hfront'⟩ := h'.devices hu'
  exact ⟨u'', hu'', hier'.trans hier, hsource'.trans hsource, hfront.trans hfront'⟩

/-- What is kept back or was handed out is not looked at. -/
theorem congr {l' l'' : EventLoop} (h : l.Serves l') (hcpu : l''.cpu = l'.cpu)
    (hoptions : l''.options = l'.options) : l.Serves l'' := by
  refine ⟨(congrArg _ hcpu).trans h.state, hoptions.trans h.options, fun hdevices ↦ ?_⟩
  obtain ⟨u', ⟨hclint, hplic, huart⟩, hsame⟩ := h.devices hdevices
  rw [← hcpu] at hclint hplic huart
  exact ⟨u', ⟨hclint, hplic, huart⟩, hsame⟩

theorem setUart {u v : Uart16550} (hu : l.uart = some u) (hier : v.ier = u.ier)
    (hsource : v.interruptSource = u.interruptSource) (hfront : u.rxFifo <+: v.rxFifo) :
    l.Serves (l.setUart v) := by
  refine ⟨rfl, rfl, fun {_ _ u'} h ↦ ⟨v, ⟨?_, ?_, l.uart_setUart hu v⟩, ?_⟩⟩
  · exact (Bus.component_update_of_ne .uart l.cpu.bus (fun _ ↦ v) (fun _ ↦ rfl) .clint
      fun _ ↦ rfl).trans h.clint
  · exact (Bus.component_update_of_ne .uart l.cpu.bus (fun _ ↦ v) (fun _ ↦ rfl) .plic
      fun _ ↦ rfl).trans h.plic
  · obtain rfl : u = u' := Option.some.inj (hu.symm.trans h.uart)
    exact ⟨hier, hsource, hfront⟩

theorem pushRx (l : EventLoop) (byte : BitVec 8) : l.Serves (l.pushRx byte).2 := by
  rw [EventLoop.pushRx]
  split
  · exact refl l
  · next u hu =>
    refine setUart hu ?_ ?_ ?_ <;> rw [Uart16550.pushRx] <;> split
    exacts [rfl, rfl, rfl, rfl, List.prefix_refl _, List.prefix_append _ _]

theorem serviceTerminalInputFrom (reads : ℕ → HostRead) (budget count : ℕ)
    (result : EventLoopIterationResult) (l : EventLoop) :
    l.Serves (serviceTerminalInputFrom reads budget count result l).2 := by
  induction budget generalizing count result l with
  | zero => exact refl l
  | succ budget ih =>
    rw [EventLoop.serviceTerminalInputFrom]
    cases reads count with
    | byte value =>
      dsimp only
      split
      · exact pushRx l value
      · exact (pushRx l value).trans (ih _ _ _)
    | nothing | transient | failed errno => exact refl l

theorem refill {byte : BitVec 8} {l' : EventLoop} (h : l.refill = some (byte, l')) :
    l.Serves l' := by
  rw [EventLoop.refill] at h
  split at h
  · obtain ⟨-, rfl⟩ := Prod.mk.inj (Option.some.inj h)
    exact refl l
  · split at h
    · cases h
    · next popped l₁ hpop =>
      obtain ⟨-, rfl⟩ := Prod.mk.inj (Option.some.inj h)
      rw [popTx] at hpop
      split at hpop
      · cases hpop
      · next popped u hbind =>
        obtain ⟨-, rfl⟩ := Prod.mk.inj (Option.some.inj hpop)
        obtain ⟨u₀, hu₀, htx⟩ := Option.bind_eq_some_iff.1 hbind
        rw [Uart16550.popTx] at htx
        split at htx
        · cases htx
        · obtain ⟨-, rfl⟩ := Prod.mk.inj (Option.some.inj htx)
          have hset (rest : List (BitVec 8)) : l.Serves (l.setUart { u₀ with txFifo := rest }) :=
            setUart hu₀ rfl rfl (List.prefix_refl _)
          exact (hset _).congr rfl rfl

theorem serviceUartOutputFrom (writes : ℕ → TerminalWrite) (budget count : ℕ)
    (result : EventLoopIterationResult) (l : EventLoop) :
    l.Serves (serviceUartOutputFrom writes budget count result l).2 := by
  induction budget generalizing count result l with
  | zero => exact refl l
  | succ budget ih =>
    rw [EventLoop.serviceUartOutputFrom]
    cases hrefill : l.refill with
    | none => exact refl l
    | some refilled =>
      obtain ⟨byte, next⟩ := refilled
      have hwritten : l.Serves (next.writeBytes byte (writes count)).2 := by
        refine (refill hrefill).trans ?_
        rw [writeBytes]
        dsimp only
        split
        · exact (refl next).congr rfl rfl
        · exact refl next
      dsimp only
      split
      · exact hwritten
      · refine .trans ?_ (ih _ _ _)
        exact hwritten.congr rfl rfl

end Serves

/-- After a byte was offered the receiver holds one. -/
theorem rxFifo_pushRx_ne_nil (u : Uart16550) (byte : BitVec 8) : (u.pushRx byte).2.rxFifo ≠ [] := by
  rw [Uart16550.pushRx]
  split
  · next hfull =>
    intro hnil
    rw [show u.rxFifo = [] from hnil] at hfull
    exact absurd hfull (by decide)
  · exact List.append_ne_nil_of_right_ne_nil _ (List.cons_ne_nil _ _)

theorem rxFifo_serviceTerminalInput (h : l.Devices clint plic uart) {reads : ℕ → HostRead}
    (result : EventLoopIterationResult) (hbudget : 0 < l.options.maxTerminalRxBytes)
    {byte : BitVec 8} (hbyte : reads 0 = .byte byte) {clint' : Clint} {plic' : Plic}
    {uart' : Uart16550} (h' : (l.serviceTerminalInput reads result).2.Devices clint' plic' uart') :
    uart'.rxFifo ≠ [] := by
  obtain ⟨budget, hsucc⟩ := Nat.exists_eq_succ_of_ne_zero hbudget.ne'
  rw [serviceTerminalInput, hsucc, serviceTerminalInputFrom, hbyte] at h'
  have hpush : l.pushRx byte = ((uart.pushRx byte).1, l.setUart (uart.pushRx byte).2) := by
    rw [EventLoop.pushRx, show l.uart = some uart from h.uart]
  dsimp only at h'
  rw [hpush] at h'
  have hset : (l.setUart (uart.pushRx byte).2).uart = some (uart.pushRx byte).2 :=
    l.uart_setUart h.uart _
  have hne := rxFifo_pushRx_ne_nil uart byte
  split at h'
  · obtain rfl : (uart.pushRx byte).2 = uart' := Option.some.inj (hset.symm.trans h'.uart)
    exact hne
  · have hclint := (Serves.pushRx l byte).devices h
    rw [hpush] at hclint
    obtain ⟨u, hu, -, -, -⟩ := hclint
    obtain rfl : (uart.pushRx byte).2 = u := Option.some.inj (hset.symm.trans hu.uart)
    obtain ⟨u', hu', -, -, hfront⟩ := (Serves.serviceTerminalInputFrom reads _ _ _ _).devices hu
    obtain rfl : u' = uart' := Option.some.inj (hu'.uart.symm.trans h'.uart)
    exact fun hnil ↦ hne (List.prefix_nil.1 (hnil ▸ hfront))

/-! ## The evaluation -/

/-- The devices when the hart looks for a pending interrupt. -/
theorem prepared_spec (h : l.Devices clint plic uart) (answers : HostAnswers) :
    ∃ uart', let clint' := clint.advance l.options.clintTicksPerIteration
      let plic' := uart'.synchronize plic
      (l.prepared answers).Devices clint' plic' uart' ∧
      (l.prepared answers).cpu.state = l.cpu.state.modifyCsrs (projected clint' plic') ∧
      (l.prepared answers).options = l.options ∧ uart'.ier = uart.ier ∧
      uart'.interruptSource = uart.interruptSource ∧ uart.rxFifo <+: uart'.rxFifo ∧
      (0 < l.options.maxTerminalRxBytes → (∃ byte, answers.reads 0 = .byte byte) →
        uart'.rxFifo ≠ []) := by
  have hinput : l.Serves (l.serviceTerminalInput answers.reads {}).2 :=
    .serviceTerminalInputFrom answers.reads _ 0 {} l
  obtain ⟨u, hu, hier, hsource, hfront⟩ := hinput.devices h
  have hfirst := fun hbudget (byte : BitVec 8) (hbyte : answers.reads 0 = .byte byte) ↦
    rxFifo_serviceTerminalInput h {} hbudget hbyte hu
  rw [prepared]
  generalize l.serviceTerminalInput answers.reads {} = served at hinput hu
  have houtput : served.2.Serves (served.2.serviceUartOutput answers.writes served.1).2 :=
    .serviceUartOutputFrom answers.writes _ 0 served.1 served.2
  obtain ⟨u', hu', hier', hsource', hfront'⟩ := houtput.devices hu
  have hboth := hinput.trans houtput
  obtain ⟨hdevices, hstate, hoptions⟩ := synchronizeDevices_spec hu'
  rw [hboth.options] at hdevices hstate
  rw [hboth.state] at hstate
  refine ⟨u', hdevices, hstate, hoptions.trans hboth.options, hier'.trans hier,
    hsource'.trans hsource, hfront.trans hfront', fun hbudget hbytes hnil ↦ ?_⟩
  obtain ⟨byte, hbyte⟩ := hbytes
  rw [hnil] at hfront'
  exact hfirst hbudget byte hbyte (List.prefix_nil.1 hfront')

/-- The hart's view of the devices is accurate: the pending bits and the clock are those of the
CLINT and the PLIC, and the input of the UART is its cause. -/
structure Sees (l : EventLoop) (clint : Clint) (plic : Plic) (uart : Uart16550) : Prop where
  devices : l.Devices clint plic uart
  time : l.cpu.state.csrs.readValue .time = clint.mtime
  timer : (l.cpu.state.csrs.readValue .mip).getLsbD 7 = decide (clint.mtimecmp ≤ clint.mtime)
  software : (l.cpu.state.csrs.readValue .mip).getLsbD 3 = clint.msip
  external : ∀ context, (l.cpu.state.csrs.readValue .mip).getLsbD
    (Plic.externalInterrupt context).code = plic.contextPending context
  line : plic.sourceLevel uart.interruptSource = (uart.currentInterruptLocked != .none)

/-- The devices are there, and the UART has an input of the PLIC. -/
structure Wired (l : EventLoop) (source : BitVec 32) : Prop where
  devices : ∃ clint plic uart, l.Devices clint plic uart ∧ uart.interruptSource = source
  pos : 0 < source.toNat
  le : source.toNat ≤ 31

theorem externalInterrupt_code (context : Fin 2) :
    (Plic.externalInterrupt context).code = if context.val = 0 then 11 else 9 := by
  rw [Plic.externalInterrupt]
  split <;> rfl

theorem sees_prepared (h : l.Devices clint plic uart) (hpos : 0 < uart.interruptSource.toNat)
    (hle : uart.interruptSource.toNat ≤ 31) (answers : HostAnswers) :
    ∃ uart', (l.prepared answers).Sees (clint.advance l.options.clintTicksPerIteration)
      (uart'.synchronize plic) uart' ∧ uart'.interruptSource = uart.interruptSource := by
  obtain ⟨uart', hdevices, hstate, -, -, hsource, -, -⟩ := prepared_spec h answers
  have hcsrs := congrArg CpuState.csrs hstate
  set clint' := clint.advance l.options.clintTicksPerIteration
  have hmip := getLsbD_mip_projected clint' (uart'.synchronize plic) l.cpu.state.csrs
  have hread : (l.prepared answers).cpu.state.csrs.readValue .mip =
      (projected clint' (uart'.synchronize plic) l.cpu.state.csrs).mip := congrArg CsrFile.mip hcsrs
  refine ⟨uart', ⟨hdevices, ?_, ?_, ?_, fun context ↦ ?_, ?_⟩, hsource⟩
  · obtain ⟨mip, hprojected⟩ := projected_eq clint' (uart'.synchronize plic) l.cpu.state.csrs
    exact (congrArg CsrFile.time hcsrs).trans (congrArg CsrFile.time hprojected)
  · rw [hread, hmip]
    rfl
  · rw [hread, hmip]
    rfl
  · rw [hread, hmip, externalInterrupt_code]
    by_cases hzero : context.val = 0
    · rw [if_pos hzero, show context = 0 from Fin.ext hzero]
      rfl
    · rw [if_neg hzero, show context = 1 from by omega]
      rfl
  · rw [Uart16550.synchronize, Plic.sourceLevel_setSourceLevel_self _ (hsource ▸ hpos)
      (hsource ▸ hle)]

/-! ## Runs -/

/-- What the hart does in an iteration is a sequence of accesses. -/
theorem accesses_stepCpu (l : EventLoop) (result : EventLoopIterationResult) :
    l.cpu.bus.Accesses (l.stepCpu result).2.cpu.bus := by
  have hinterrupt : l.cpu.takePendingInterrupt.2.bus = l.cpu.bus := by
    rw [Cpu.takePendingInterrupt]
    split <;> rfl
  rw [stepCpu, ← hinterrupt]
  generalize l.cpu.takePendingInterrupt = taken
  obtain ⟨delivery, cpu⟩ := taken
  cases delivery with
  | some delivery => exact .refl
  | none =>
    have hstep : cpu.bus.Accesses cpu.step.2.bus := accesses_step cpu
    dsimp only
    split <;> exact hstep

theorem interruptSource_history {u u' : Uart16550} (h : Component.uart.History u u') :
    u'.interruptSource = u.interruptSource := by
  induction h with
  | refl => rfl
  | tail _ htouch ih =>
    refine Eq.trans ?_ ih
    cases htouch with
    | read o w h =>
      obtain rfl := Option.some.inj h
      exact Uart16550.interruptSource_read _ o w
    | write o w v h =>
      obtain rfl := Option.some.inj h
      exact Uart16550.interruptSource_write _ o w v

theorem Devices.accesses {l' : EventLoop} (h : l.Devices clint plic uart)
    (haccesses : l.cpu.bus.Accesses l'.cpu.bus) : ∃ clint' plic' uart',
      l'.Devices clint' plic' uart' ∧ Component.clint.History clint clint' ∧
      Component.plic.History plic plic' ∧ Component.uart.History uart uart' := by
  obtain ⟨clint', hclint, hc⟩ := haccesses.component Component.steady_clint h.clint
  obtain ⟨plic', hplic, hp⟩ := haccesses.component Component.steady_plic h.plic
  obtain ⟨uart', huart, hu⟩ := haccesses.component Component.steady_uart h.uart
  exact ⟨clint', plic', uart', ⟨hclint, hplic, huart⟩, hc, hp, hu⟩

theorem Wired.step {source : BitVec 32} (h : l.Wired source) (answers : HostAnswers) :
    (l.step answers).Wired source := by
  obtain ⟨clint, plic, uart, hdevices, rfl⟩ := h.devices
  obtain ⟨uart₁, hdevices₁, -, -, -, hsource, -, -⟩ := prepared_spec hdevices answers
  obtain ⟨result, hrun⟩ := l.runOnce_eq answers
  have haccesses : (l.prepared answers).cpu.bus.Accesses (l.step answers).cpu.bus := by
    rw [EventLoop.step, hrun]
    exact accesses_stepCpu _ result
  obtain ⟨clint', plic', uart', hdevices', -, -, hu⟩ := hdevices₁.accesses haccesses
  refine ⟨⟨clint', plic', uart', hdevices', ?_⟩, h.pos, h.le⟩
  exact (interruptSource_history hu).trans hsource

/-- **Accurate views.**  Over any run of the loop, whatever the guest and the terminal do: whenever
the hart looks for a pending interrupt, MTIP and MSIP are those of the CLINT and `time` is its
clock, MEIP and SEIP say whether the PLIC has something to claim, and the input of the UART is up
exactly when the UART has an enabled cause. -/
theorem run_sees {source : BitVec 32} (h : l.Wired source) (answers : List HostAnswers) :
    Runs.Along EventLoop.step (fun l answers ↦ ∃ clint plic uart,
      (l.prepared answers).Sees clint plic uart ∧ uart.interruptSource = source) l answers := by
  induction answers generalizing l with
  | nil => trivial
  | cons first rest ih =>
    refine ⟨?_, ih (h.step first)⟩
    obtain ⟨clint, plic, uart, hdevices, rfl⟩ := h.devices
    obtain ⟨uart', hsees, hsource⟩ := sees_prepared hdevices h.pos h.le first
    exact ⟨_, _, _, hsees, hsource⟩

end EventLoop

/-! ## The console -/

namespace CsrFile

/-- Would the interrupt be taken if it were pending? -/
def admits (c : CsrFile) (current : PrivilegeMode) (cause : InterruptCause) : Bool :=
  c.mie.getLsbD cause.code &&
    (if c.delegated cause then
      current == .user || (current == .supervisor && c.mstatus.getLsbD 1)
    else current != .machine || c.mstatus.getLsbD 3)

theorem takeable_eq (c : CsrFile) (current : PrivilegeMode) (cause : InterruptCause) :
    c.takeable current cause = (c.mip.getLsbD cause.code && c.admits current cause) := by
  rw [takeable, admits, Bool.and_assoc]

end CsrFile

namespace Cpu

/-- An interrupt that can be taken is taken, or one that comes before it. -/
theorem takePendingInterrupt_of_takeable (c : Cpu) {cause : InterruptCause}
    (h : c.state.csrs.takeable c.state.privilege cause = true) :
    ∃ d taken, c.takePendingInterrupt.1 = some d ∧ d.Records c.state (.interrupt taken) ∧
      c.state.csrs.takeable c.state.privilege taken = true ∧
      CsrFile.causeOrder taken ≤ CsrFile.causeOrder cause ∧
      c.takePendingInterrupt.2.bus = c.bus ∧
      c.takePendingInterrupt.2.state.programCounter = d.vector ∧
      c.takePendingInterrupt.2.state.privilege = d.target ∧
      c.takePendingInterrupt.2.state.waitingForInterrupt = false := by
  cases hselect : c.state.csrs.selectPendingInterrupt c.state.privilege with
  | none =>
    rw [CsrFile.selectPendingInterrupt_eq_none hselect cause] at h
    cases h
  | some selected =>
    obtain ⟨htake, -, hfirst⟩ := CsrFile.selectPendingInterrupt_eq_some hselect
    obtain ⟨d, hd⟩ : ∃ d, c.takePendingInterrupt.1 = some d := by
      rw [takePendingInterrupt, hselect]
      exact ⟨_, rfl⟩
    refine ⟨d, selected.cause, hd, (Delivery.interrupt hselect hd).records, htake,
      hfirst cause h, ?_⟩
    rw [takePendingInterrupt, hselect] at hd ⊢
    obtain rfl := Option.some.inj hd
    exact ⟨rfl, rfl, rfl, rfl⟩

end Cpu

namespace EventLoop

/-- The receiver of the UART can interrupt the hart in the context, as soon as it holds a byte. -/
structure Armed (l : EventLoop) (plic : Plic) (uart : Uart16550) (context : Fin 2) : Prop where
  interruptEnable : uart.ier.getLsbD 0 = true
  pos : 0 < uart.interruptSource.toNat
  enabled : plic.EnabledAbove context uart.interruptSource
  unclaimed : ∀ s : Fin 32, s.val = uart.interruptSource.toNat → plic.claimedBy s = 0#8
  admits : l.cpu.state.csrs.admits l.cpu.state.privilege (Plic.externalInterrupt context) = true

theorem currentInterruptLocked_ne_none {u : Uart16550} (henable : u.ier.getLsbD 0 = true)
    (hdata : u.rxFifo ≠ []) : (u.currentInterruptLocked != .none) = true := by
  have hcause : Uart16550.InterruptId.rxDataAvailable ∈ u.activeCauses := by
    rw [Uart16550.activeCauses, henable, List.isEmpty_eq_false_iff.2 hdata]
    simp
  rw [Uart16550.currentInterruptLocked_eq]
  cases hactive : u.activeCauses with
  | nil =>
    rw [hactive] at hcause
    cases hcause
  | cons first rest =>
    have hfirst : first ∈ u.activeCauses := hactive ▸ List.mem_cons_self
    rw [List.headD_cons, bne_iff_ne]
    rintro rfl
    rw [Uart16550.activeCauses] at hfirst
    simp at hfirst

/-- **Input interrupts.**  A byte that is offered by the terminal, or is in the receiver already,
interrupts a hart that can be interrupted by the console in this very iteration: the hart goes on at
the vector of the external interrupt, or of a cause that comes before it, and a claim returns a
source. -/
theorem console_interrupt {l : EventLoop} {clint : Clint} {plic : Plic} {uart : Uart16550}
    {context : Fin 2} (h : l.Devices clint plic uart) (harmed : l.Armed plic uart context)
    {answers : HostAnswers} (hinput : uart.rxFifo ≠ [] ∨
      0 < l.options.maxTerminalRxBytes ∧ ∃ byte, answers.reads 0 = .byte byte) :
    let done := l.runOnce answers
    ∃ d taken plic', done.1.interruptTaken = true ∧ done.1.delivery = some d ∧
      d.interrupt = true ∧ d.cause = BitVec.ofNat 64 taken.code ∧
      CsrFile.causeOrder taken ≤ CsrFile.causeOrder (Plic.externalInterrupt context) ∧
      d.target = l.cpu.state.csrs.delegationTarget taken ∧
      d.vector = l.cpu.state.csrs.trapVector d.target true d.cause ∧
      done.2.cpu.state.programCounter = d.vector ∧ done.2.cpu.state.privilege = d.target ∧
      done.2.cpu.state.waitingForInterrupt = false ∧
      done.2.cpu.bus.component .plic = some plic' ∧
      (plic'.read (Plic.claimOffset context) .word).1.value ≠ 0#64 := by
  obtain ⟨uart', hdevices, hstate, -, hier, hsource, hfront, hfirst⟩ := prepared_spec h answers
  obtain ⟨result, hrun⟩ := l.runOnce_eq answers
  set clint' := clint.advance l.options.clintTicksPerIteration
  -- the receiver holds a byte, so its source is up and can be claimed
  have hdata : uart'.rxFifo ≠ [] := by
    rcases hinput with hheld | ⟨hbudget, hbyte⟩
    · exact fun hnil ↦ hheld (List.prefix_nil.1 (hnil ▸ hfront))
    · exact hfirst hbudget hbyte
  have hcause := currentInterruptLocked_ne_none (hier ▸ harmed.interruptEnable) hdata
  have hpending : (uart'.synchronize plic).contextPending context = true := by
    rw [Uart16550.synchronize, hcause, hsource]
    exact Plic.contextPending_setSourceLevel plic harmed.enabled harmed.pos harmed.unclaimed
  -- so the interrupt is pending, and it is admitted
  obtain ⟨mip, hprojected⟩ := projected_eq clint' (uart'.synchronize plic) l.cpu.state.csrs
  have hmip : mip.getLsbD (Plic.externalInterrupt context).code = true := by
    have hbit := getLsbD_mip_projected clint' (uart'.synchronize plic) l.cpu.state.csrs
      (Plic.externalInterrupt context).code
    rw [hprojected, externalInterrupt_code] at hbit
    rw [externalInterrupt_code, hbit]
    by_cases hzero : context.val = 0
    · obtain rfl : context = 0 := Fin.ext hzero
      exact hpending
    · obtain rfl : context = 1 := by omega
      exact hpending
  rw [CpuState.modifyCsrs, hprojected] at hstate
  have htakeable : (l.prepared answers).cpu.state.csrs.takeable
      (l.prepared answers).cpu.state.privilege (Plic.externalInterrupt context) = true := by
    rw [CsrFile.takeable_eq, hstate]
    exact Bool.and_eq_true_iff.2 ⟨hmip, harmed.admits⟩
  obtain ⟨d, taken, hd, hrecords, -, horder, hafter⟩ :=
    (l.prepared answers).cpu.takePendingInterrupt_of_takeable htakeable
  have hvector := hrecords.vector
  rw [hrecords.interrupt] at hvector
  rw [hstate] at hrecords hvector
  rw [hrun, stepCpu]
  generalize (l.prepared answers).cpu.takePendingInterrupt = outcome at hd hafter ⊢
  obtain ⟨delivery, cpu⟩ := outcome
  obtain ⟨hbus, hpc, hprivilege, hwaiting⟩ := hafter
  obtain rfl : delivery = some d := hd
  refine ⟨d, taken, uart'.synchronize plic, rfl, rfl, hrecords.interrupt, hrecords.cause, horder,
    hrecords.target, hvector, hpc, hprivilege, hwaiting, ?_,
    (Plic.contextPending_iff _ context).1 hpending⟩
  exact (congrArg (Bus.component .plic) hbus).trans hdevices.plic

end EventLoop

namespace SmallMachine

/-- The console of a small machine that waits in machine mode for a byte. -/
def consoleUart : Uart16550 where
  ier := 1#8

def consolePlic : Plic where
  priority _ := 1#32
  enable _ := 0x400#32

def consoleBus : Bus where
  regions := [.clint {}, .plic consolePlic, .uart consoleUart]
  apart := by
    simp [AddressRegion.Apart, AddressRegion.range, AddressRange.overlaps, Clint.range, Plic.range,
      Uart16550.range, AddressRange.endExclusive, AddressMap.clintBase, AddressMap.clintSize,
      AddressMap.plicBase, AddressMap.plicSize, AddressMap.uartBase, AddressMap.uartSize]

def consoleLoop : EventLoop where
  cpu :=
    { bus := consoleBus
      state := { csrs := { mie := bit 11, mstatus := bit 3, mtvec := 0x80000100#64 },
                 programCounter := 0x80000000#64, waitingForInterrupt := true } }

def oneByte : HostAnswers where
  reads n := if n = 0 then .byte 65#8 else .nothing
  writes _ := .ready true

theorem consoleLoop_devices : consoleLoop.Devices {} consolePlic consoleUart := ⟨rfl, rfl, rfl⟩

end SmallMachine

open SmallMachine in
theorem EventLoop.run_sees_console :
    Runs.Along EventLoop.step (fun l answers ↦ ∃ clint plic uart,
      (l.prepared answers).Sees clint plic uart ∧ uart.interruptSource = 10#32) consoleLoop
      [oneByte, oneByte] :=
  EventLoop.run_sees ⟨⟨_, _, _, consoleLoop_devices, rfl⟩, by decide, by decide⟩ _

open SmallMachine in
/-- The byte interrupts the hart that waits for it. -/
theorem EventLoop.console_interrupt_byte :
    ∃ d taken plic', (consoleLoop.runOnce oneByte).1.interruptTaken = true ∧
      (consoleLoop.runOnce oneByte).1.delivery = some d ∧ d.interrupt = true ∧
      d.cause = BitVec.ofNat 64 taken.code ∧
      CsrFile.causeOrder taken ≤ CsrFile.causeOrder (Plic.externalInterrupt 0) ∧
      d.target = consoleLoop.cpu.state.csrs.delegationTarget taken ∧
      d.vector = consoleLoop.cpu.state.csrs.trapVector d.target true d.cause ∧
      (consoleLoop.runOnce oneByte).2.cpu.state.programCounter = d.vector ∧
      (consoleLoop.runOnce oneByte).2.cpu.state.privilege = d.target ∧
      (consoleLoop.runOnce oneByte).2.cpu.state.waitingForInterrupt = false ∧
      (consoleLoop.runOnce oneByte).2.cpu.bus.component .plic = some plic' ∧
      (plic'.read (Plic.claimOffset 0) .word).1.value ≠ 0#64 :=
  EventLoop.console_interrupt consoleLoop_devices
    ⟨by decide, by decide, ⟨⟨10, by decide⟩, rfl, by decide, by decide⟩, fun _ _ ↦ rfl, by decide⟩
    (Or.inr ⟨by decide, 65#8, rfl⟩)

end Rvemu
