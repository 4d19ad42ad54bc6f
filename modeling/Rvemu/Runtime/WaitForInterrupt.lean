import Rvemu.Runtime.InterruptViews

/-!
# Waiting for the timer

A hart that has executed WFI with nothing but the machine timer enabled does nothing until the clock
of the CLINT, which the loop advances once an iteration, reaches the compare register.  It is then
awake in the very next evaluation, whatever the terminal and the other devices did in between.
-/

set_option autoImplicit false

namespace Rvemu

namespace EventLoop

variable {l : EventLoop} {clint : Clint} {plic : Plic} {uart : Uart16550}

/-- The hart waits, and of the interrupts only that of the machine timer is enabled. -/
structure Asleep (l : EventLoop) : Prop where
  waiting : l.cpu.state.waitingForInterrupt = true
  enabled : l.cpu.state.csrs.mie &&& implementedInterruptMask = bit 7

/-- The CLINT after some iterations. -/
def clintAfter (clint : Clint) (ticks : BitVec 64) (n : ℕ) : Clint :=
  { clint with mtime := clint.mtime + BitVec.ofNat 64 n * ticks }

theorem clintAfter_advance (clint : Clint) (ticks : BitVec 64) (n : ℕ) :
    (clintAfter clint ticks n).advance ticks = clintAfter clint ticks (n + 1) := by
  rw [clintAfter, clintAfter, Clint.advance, BitVec.add_assoc]
  congr 2
  rw [show BitVec.ofNat 64 (n + 1) = BitVec.ofNat 64 n + 1#64 by simp [BitVec.ofNat_add],
    BitVec.add_mul, BitVec.one_mul]

/-- From `l` to `l'` the hart has not moved: only its counter, its clock and its pending bits have
changed. -/
def Rests (l l' : EventLoop) : Prop :=
  l'.options = l.options ∧ ∃ mip time cycle,
    l'.cpu.state =
      { l.cpu.state with csrs := { l.cpu.state.csrs with mip, time, cycle } }

namespace Rests

theorem refl (l : EventLoop) : l.Rests l := ⟨rfl, _, _, _, rfl⟩

theorem trans {l' l'' : EventLoop} (h : l.Rests l') (h' : l'.Rests l'') : l.Rests l'' := by
  obtain ⟨hoptions, mip, time, cycle, hstate⟩ := h
  obtain ⟨hoptions', mip', time', cycle', hstate'⟩ := h'
  exact ⟨hoptions'.trans hoptions, mip', time', cycle', by rw [hstate', hstate]⟩

theorem asleep {l' : EventLoop} (h : l.Rests l') (hasleep : l.Asleep) : l'.Asleep := by
  obtain ⟨-, mip, time, cycle, hstate⟩ := h
  exact ⟨by rw [hstate]; exact hasleep.waiting, by rw [hstate]; exact hasleep.enabled⟩

end Rests

/-- Looking for a pending interrupt changes the clock and the pending bits. -/
theorem rests_prepared (h : l.Devices clint plic uart) (answers : HostAnswers) :
    l.Rests (l.prepared answers) := by
  obtain ⟨uart', -, hstate, hoptions, -⟩ := prepared_spec h answers
  obtain ⟨mip, hprojected⟩ := projected_eq (clint.advance l.options.clintTicksPerIteration)
    (uart'.synchronize plic) l.cpu.state.csrs
  rw [CpuState.modifyCsrs, hprojected] at hstate
  exact ⟨hoptions, _, _, _, hstate⟩

namespace Asleep

/-- Only the timer can wake the hart. -/
theorem hasLocallyEnabledInterrupt (h : l.Asleep) :
    l.cpu.state.csrs.hasLocallyEnabledInterrupt = l.cpu.state.csrs.mip.getLsbD 7 := by
  rw [CsrFile.hasLocallyEnabledInterrupt, BitVec.and_assoc, h.enabled,
    and_bit_ne_zero _ (by decide)]

/-- Only the interrupt of the timer can be taken. -/
theorem takeable (h : l.Asleep) {cause : InterruptCause}
    (htake : l.cpu.state.csrs.takeable l.cpu.state.privilege cause = true) :
    cause = .machineTimer ∧ l.cpu.state.csrs.mip.getLsbD 7 = true := by
  rw [CsrFile.takeable, Bool.and_eq_true, Bool.and_eq_true] at htake
  obtain ⟨⟨hpending, henabled⟩, -⟩ := htake
  have hbit := congrArg (BitVec.getLsbD · cause.code) h.enabled
  have himplemented : implementedInterruptMask.getLsbD cause.code = true := by
    cases cause <;> decide
  rw [BitVec.getLsbD_and, henabled, himplemented, getLsbD_bit (by decide)] at hbit
  have hcode : cause.code = 7 := of_decide_eq_true hbit.symm
  refine ⟨?_, hcode ▸ hpending⟩
  cases cause <;> first | rfl | cases hcode

end Asleep

/-! ## One iteration -/

theorem flags_serviceTerminalInputFrom (reads : ℕ → HostRead) (budget count : ℕ)
    (result : EventLoopIterationResult) (l : EventLoop) :
    (serviceTerminalInputFrom reads budget count result l).1.interruptTaken =
        result.interruptTaken ∧
      (serviceTerminalInputFrom reads budget count result l).1.trapTaken = result.trapTaken := by
  induction budget generalizing count result l with
  | zero => exact ⟨rfl, rfl⟩
  | succ budget ih =>
    rw [serviceTerminalInputFrom]
    cases reads count with
    | byte value =>
      dsimp only
      split
      · exact ⟨rfl, rfl⟩
      · exact ih _ _ _
    | nothing | transient | failed errno => exact ⟨rfl, rfl⟩

theorem flags_serviceUartOutputFrom (writes : ℕ → TerminalWrite) (budget count : ℕ)
    (result : EventLoopIterationResult) (l : EventLoop) :
    (serviceUartOutputFrom writes budget count result l).1.interruptTaken =
        result.interruptTaken ∧
      (serviceUartOutputFrom writes budget count result l).1.trapTaken = result.trapTaken := by
  induction budget generalizing count result l with
  | zero => exact ⟨rfl, rfl⟩
  | succ budget ih =>
    rw [serviceUartOutputFrom]
    cases l.refill with
    | none => exact ⟨rfl, rfl⟩
    | some refilled =>
      dsimp only
      split
      · exact ⟨rfl, rfl⟩
      · exact ih _ _ _

/-- The services report no interrupt and no trap. -/
theorem runOnce_eq_quiet (l : EventLoop) (answers : HostAnswers) :
    ∃ result : EventLoopIterationResult, l.runOnce answers = (l.prepared answers).stepCpu result ∧
      result.interruptTaken = false ∧ result.trapTaken = false := by
  obtain ⟨hinterrupt, htrap⟩ :=
    flags_serviceTerminalInputFrom answers.reads l.options.maxTerminalRxBytes 0 {} l
  obtain ⟨hinterrupt', htrap'⟩ :=
    flags_serviceUartOutputFrom answers.writes
      (l.serviceTerminalInput answers.reads {}).2.options.maxUartTxBytes 0
      (l.serviceTerminalInput answers.reads {}).1 (l.serviceTerminalInput answers.reads {}).2
  exact ⟨_, rfl, hinterrupt'.trans hinterrupt, htrap'.trans htrap⟩

/-- When the hart looks, MTIP says whether the clock has reached the compare register. -/
theorem timer_prepared (h : l.Devices clint plic uart) (answers : HostAnswers) :
    let clint' := clint.advance l.options.clintTicksPerIteration
    (∃ plic' uart', (l.prepared answers).Devices clint' plic' uart') ∧
      (l.prepared answers).cpu.state.csrs.mip.getLsbD 7 =
        decide (clint'.mtimecmp ≤ clint'.mtime) := by
  intro clint'
  obtain ⟨uart', hdevices, hstate, -⟩ := prepared_spec h answers
  refine ⟨⟨_, _, hdevices⟩, ?_⟩
  rw [hstate]
  exact getLsbD_mip_projected clint' (uart'.synchronize plic) l.cpu.state.csrs 7

namespace Asleep

/-- Before the clock has reached the compare register, the hart stays where it is. -/
theorem stalls (hasleep : l.Asleep) (h : l.Devices clint plic uart) (answers : HostAnswers)
    (hearly : clint.mtime + l.options.clintTicksPerIteration < clint.mtimecmp) :
    (l.runOnce answers).1.cpuStalled = true ∧ (l.runOnce answers).1.interruptTaken = false ∧
      (l.runOnce answers).1.trapTaken = false ∧ l.Rests (l.step answers) ∧
      ∃ plic' uart', (l.step answers).Devices
        (clint.advance l.options.clintTicksPerIteration) plic' uart' := by
  obtain ⟨⟨plic', uart', hdevices⟩, htimer⟩ := timer_prepared h answers
  obtain ⟨result, hrun, hinterrupt, htrap⟩ := l.runOnce_eq_quiet answers
  have hrests := rests_prepared h answers
  have hasleep' := hrests.asleep hasleep
  have hdown : (l.prepared answers).cpu.state.csrs.mip.getLsbD 7 = false :=
    htimer.trans (decide_eq_false (BitVec.not_le.2 hearly))
  rw [step, hrun]
  generalize l.prepared answers = p at hdevices hrests hasleep' hdown ⊢
  have hnone : p.cpu.takePendingInterrupt = (none, p.cpu) := by
    rw [Cpu.takePendingInterrupt]
    cases hselect : p.cpu.state.csrs.selectPendingInterrupt p.cpu.state.privilege with
    | none => rfl
    | some selected =>
      have htake := (CsrFile.selectPendingInterrupt_eq_some hselect).1
      exact absurd (hdown.symm.trans (hasleep'.takeable htake).2) (by decide)
  obtain ⟨c', hstep, hstate, hbus⟩ : ∃ c', p.cpu.step = (.wait, c') ∧
      c'.state = p.cpu.state.modifyCsrs (·.incrementCycle) ∧ c'.bus = p.cpu.bus := by
    refine ⟨_, (step_eq p.cpu).trans (if_pos ?_), rfl, rfl⟩
    rw [hasleep'.waiting, hasleep'.hasLocallyEnabledInterrupt, hdown]
    rfl
  rw [stepCpu, hnone]
  dsimp only
  rw [hstep]
  refine ⟨rfl, hinterrupt, htrap, hrests.trans ⟨rfl, ?_⟩, plic', uart', ?_⟩
  · have hcycle : ∃ mip time cycle, p.cpu.state.modifyCsrs (·.incrementCycle) =
        { p.cpu.state with csrs := { p.cpu.state.csrs with mip, time, cycle } } := by
      rw [CpuState.modifyCsrs, CsrFile.incrementCycle]
      split <;> exact ⟨_, _, _, rfl⟩
    obtain ⟨mip, time, cycle, hcsrs⟩ := hcycle
    exact ⟨mip, time, cycle, hstate.trans hcsrs⟩
  · exact ⟨hbus ▸ hdevices.clint, hbus ▸ hdevices.plic, hbus ▸ hdevices.uart⟩

/-- Once it has, the hart takes the interrupt, or goes on with the instruction it waits at. -/
theorem wakes (hasleep : l.Asleep) (h : l.Devices clint plic uart) (answers : HostAnswers)
    (hdue : clint.mtimecmp ≤ clint.mtime + l.options.clintTicksPerIteration) :
    (if l.cpu.state.csrs.admits l.cpu.state.privilege .machineTimer then
      ∃ d, (l.runOnce answers).1.interruptTaken = true ∧
        (l.runOnce answers).1.delivery = some d ∧ d.interrupt = true ∧
        d.cause = BitVec.ofNat 64 InterruptCause.machineTimer.code ∧
        d.vector = l.cpu.state.csrs.trapVector d.target true d.cause ∧
        (l.step answers).cpu.state.programCounter = d.vector ∧
        (l.step answers).cpu.state.privilege = d.target ∧
        (l.step answers).cpu.state.waitingForInterrupt = false
    else
      (l.runOnce answers).1.interruptTaken = false ∧
        (l.prepared answers).cpu.state.programCounter = l.cpu.state.programCounter ∧
        (l.prepared answers).cpu.step = (l.prepared answers).cpu.awake.stepAwake ∧
        (l.step answers).cpu.bus = (l.prepared answers).cpu.step.2.bus) := by
  obtain ⟨-, htimer⟩ := timer_prepared h answers
  obtain ⟨result, hrun, hinterrupt, -⟩ := l.runOnce_eq_quiet answers
  have hrests := rests_prepared h answers
  have hasleep' := hrests.asleep hasleep
  have hup : (l.prepared answers).cpu.state.csrs.mip.getLsbD 7 = true :=
    htimer.trans (decide_eq_true hdue)
  obtain ⟨-, mip, time, cycle, hstate⟩ := hrests
  have hadmits : (l.prepared answers).cpu.state.csrs.takeable
      (l.prepared answers).cpu.state.privilege .machineTimer =
      l.cpu.state.csrs.admits l.cpu.state.privilege .machineTimer := by
    rw [CsrFile.takeable_eq, show InterruptCause.machineTimer.code = 7 from rfl, hup, Bool.true_and,
      hstate]
    rfl
  have hpc : (l.prepared answers).cpu.state.programCounter = l.cpu.state.programCounter := by
    rw [hstate]
  have hvectors : (l.prepared answers).cpu.state.csrs.trapVector = l.cpu.state.csrs.trapVector := by
    rw [hstate]
    rfl
  rw [← hadmits, step, hrun]
  generalize l.prepared answers = p at hasleep' hup hpc hvectors ⊢
  split
  · next htake =>
    obtain ⟨d, taken, hd, hrecords, htaken, -, hafter⟩ :=
      p.cpu.takePendingInterrupt_of_takeable htake
    obtain rfl := (hasleep'.takeable htaken).1
    have hrecord := hrecords.vector
    rw [hrecords.interrupt, hvectors] at hrecord
    rw [stepCpu]
    generalize p.cpu.takePendingInterrupt = outcome at hd hafter ⊢
    obtain ⟨delivery, cpu⟩ := outcome
    obtain ⟨-, hvector, hprivilege, hwaiting⟩ := hafter
    obtain rfl : delivery = some d := hd
    exact ⟨d, rfl, rfl, hrecords.interrupt, hrecords.cause, hrecord, hvector, hprivilege, hwaiting⟩
  · next htake =>
    have hnone : p.cpu.takePendingInterrupt = (none, p.cpu) := by
      rw [Cpu.takePendingInterrupt]
      cases hselect : p.cpu.state.csrs.selectPendingInterrupt p.cpu.state.privilege with
      | none => rfl
      | some selected =>
        have hselected := (CsrFile.selectPendingInterrupt_eq_some hselect).1
        rw [(hasleep'.takeable hselected).1] at hselected
        exact absurd hselected htake
    have hstep : p.cpu.step = p.cpu.awake.stepAwake := by
      refine (step_eq p.cpu).trans (if_neg ?_)
      rw [hasleep'.hasLocallyEnabledInterrupt, hup, Bool.not_true, Bool.and_false]
      exact Bool.false_ne_true
    rw [stepCpu, hnone]
    dsimp only
    refine ⟨?_, hpc, hstep, ?_⟩
    · split <;> exact hinterrupt
    · split <;> rfl

end Asleep

/-! ## Runs -/

/-- The iterations that the hart waits for, if the clock makes steps of `ticks`. -/
def waits (clint : Clint) (ticks : BitVec 64) : ℕ :=
  (clint.mtimecmp.toNat - clint.mtime.toNat - 1) / ticks.toNat

section Deadline

variable {ticks : BitVec 64} (hticks : 0 < ticks.toNat) (hfuture : clint.mtime < clint.mtimecmp)
  (hroom : clint.mtimecmp.toNat + ticks.toNat ≤ 2 ^ 64)
include hticks hfuture hroom

/-- The clock does not wrap before it is due. -/
theorem toNat_clintAfter {n : ℕ} (hn : n ≤ waits clint ticks + 1) :
    (clintAfter clint ticks n).mtime.toNat = clint.mtime.toNat + n * ticks.toNat := by
  have hlt := BitVec.lt_def.1 hfuture
  have hmul : waits clint ticks * ticks.toNat ≤ clint.mtimecmp.toNat - clint.mtime.toNat - 1 :=
    Nat.div_mul_le_self _ _
  have hle : n * ticks.toNat ≤ (waits clint ticks + 1) * ticks.toNat := Nat.mul_le_mul_right _ hn
  rw [Nat.add_mul, Nat.one_mul] at hle
  have hsum : clint.mtime.toNat + n * ticks.toNat < 2 ^ 64 := by omega
  have hself : n ≤ n * ticks.toNat := Nat.le_mul_of_pos_right n hticks
  rw [clintAfter, BitVec.toNat_add, BitVec.toNat_mul, BitVec.toNat_ofNat,
    Nat.mod_eq_of_lt (a := n) (by omega), Nat.mod_eq_of_lt (a := n * ticks.toNat) (by omega),
    Nat.mod_eq_of_lt hsum]

theorem clintAfter_early {n : ℕ} (hn : n ≤ waits clint ticks) :
    (clintAfter clint ticks n).mtime < clint.mtimecmp := by
  have hlt := BitVec.lt_def.1 hfuture
  have hmul : n * ticks.toNat ≤ clint.mtimecmp.toNat - clint.mtime.toNat - 1 :=
    (Nat.mul_le_mul_right _ hn).trans (Nat.div_mul_le_self _ _)
  rw [BitVec.lt_def, toNat_clintAfter hticks hfuture hroom (Nat.le_succ_of_le hn)]
  omega

theorem clintAfter_due :
    clint.mtimecmp ≤ (clintAfter clint ticks (waits clint ticks + 1)).mtime := by
  have hlt := BitVec.lt_def.1 hfuture
  have hdiv := Nat.lt_div_mul_add (a := clint.mtimecmp.toNat - clint.mtime.toNat - 1) hticks
  rw [BitVec.le_def, toNat_clintAfter hticks hfuture hroom (Nat.le_refl _), Nat.add_mul,
    Nat.one_mul, waits]
  omega

end Deadline

/-- While the clock is early the hart rests, iteration after iteration. -/
theorem rests_run (hasleep : l.Asleep) (answers : List HostAnswers) (n : ℕ)
    (h : l.Devices (clintAfter clint l.options.clintTicksPerIteration n) plic uart)
    (hearly : ∀ k, n < k → k ≤ n + answers.length →
      (clintAfter clint l.options.clintTicksPerIteration k).mtime < clint.mtimecmp) :
    Runs.Along EventLoop.step (fun l a ↦ (l.runOnce a).1.cpuStalled = true ∧
      (l.runOnce a).1.interruptTaken = false ∧ (l.runOnce a).1.trapTaken = false) l answers ∧
    l.Rests (Runs.run EventLoop.step l answers) ∧
    ∃ plic' uart', (Runs.run EventLoop.step l answers).Devices
      (clintAfter clint l.options.clintTicksPerIteration (n + answers.length)) plic' uart' := by
  induction answers generalizing l n plic uart with
  | nil => exact ⟨trivial, Rests.refl l, plic, uart, h⟩
  | cons first rest ih =>
    have hnext := hearly (n + 1) (Nat.lt_succ_self n) (by rw [List.length_cons]; omega)
    rw [← clintAfter_advance] at hnext
    obtain ⟨hstalled, hinterrupt, htrap, hrests, plic', uart', hdevices⟩ :=
      hasleep.stalls h first hnext
    rw [clintAfter_advance] at hdevices
    rw [← hrests.1] at hdevices hearly
    obtain ⟨hlater, hend, hthere⟩ := ih (hrests.asleep hasleep) (n + 1) hdevices fun k hk hle ↦
      hearly k (Nat.lt_of_succ_lt hk) (by rw [List.length_cons]; omega)
    refine ⟨⟨⟨hstalled, hinterrupt, htrap⟩, hlater⟩, hrests.trans hend, ?_⟩
    rw [hrests.1] at hthere
    rw [List.length_cons, show n + (rest.length + 1) = n + 1 + rest.length by omega]
    exact hthere

/-- **Waiting for the timer.**  A hart that waits with only the machine timer enabled, and a clock
that is early, stalls for exactly the iterations that the clock needs, whatever the terminal and the
devices do; in the next one it takes the timer interrupt, if its mode admits that, and otherwise
goes on where it was. -/
theorem wait_for_timer (hasleep : l.Asleep) (h : l.Devices clint plic uart)
    (hticks : 0 < l.options.clintTicksPerIteration.toNat) (hfuture : clint.mtime < clint.mtimecmp)
    (hroom : clint.mtimecmp.toNat + l.options.clintTicksPerIteration.toNat ≤ 2 ^ 64)
    {answers : List HostAnswers}
    (hlength : answers.length = waits clint l.options.clintTicksPerIteration)
    (last : HostAnswers) :
    let woken := Runs.run EventLoop.step l answers
    Runs.Along EventLoop.step (fun l a ↦ (l.runOnce a).1.cpuStalled = true ∧
        (l.runOnce a).1.interruptTaken = false ∧ (l.runOnce a).1.trapTaken = false) l answers ∧
      l.Rests woken ∧
      (if l.cpu.state.csrs.admits l.cpu.state.privilege .machineTimer then
        ∃ d, (woken.runOnce last).1.interruptTaken = true ∧
          (woken.runOnce last).1.delivery = some d ∧ d.interrupt = true ∧
          d.cause = BitVec.ofNat 64 InterruptCause.machineTimer.code ∧
          d.vector = l.cpu.state.csrs.trapVector d.target true d.cause ∧
          (woken.step last).cpu.state.programCounter = d.vector ∧
          (woken.step last).cpu.state.privilege = d.target ∧
          (woken.step last).cpu.state.waitingForInterrupt = false
      else
        (woken.runOnce last).1.interruptTaken = false ∧
          (woken.prepared last).cpu.state.programCounter = l.cpu.state.programCounter ∧
          (woken.prepared last).cpu.step = (woken.prepared last).cpu.awake.stepAwake ∧
          (woken.step last).cpu.bus = (woken.prepared last).cpu.step.2.bus) := by
  intro woken
  set ticks := l.options.clintTicksPerIteration with hdef
  have hzero : clintAfter clint ticks 0 = clint := by
    rw [clintAfter, BitVec.zero_mul, BitVec.add_zero]
  obtain ⟨hstalls, hrests, plic', uart', hdevices⟩ :=
    rests_run hasleep answers 0 (by rwa [← hdef, hzero]) fun k _ hk ↦
      clintAfter_early hticks hfuture hroom (by omega)
  rw [← hdef, Nat.zero_add, hlength] at hdevices
  refine ⟨hstalls, hrests, ?_⟩
  have hdue := clintAfter_due hticks hfuture hroom
  rw [← clintAfter_advance] at hdue
  have hwakes := (hrests.asleep hasleep).wakes hdevices last (by rw [hrests.1]; exact hdue)
  obtain ⟨-, mip, time, cycle, hstate⟩ := hrests
  rw [hstate] at hwakes
  exact hwakes

end EventLoop

namespace SmallMachine

/-- A hart that waits for the timer, which is due in three ticks. -/
def timerClint : Clint where
  mtimecmp := 3#64

def timerBus : Bus where
  regions := [.clint timerClint, .plic {}, .uart {}]
  apart := pairwise_apart_of_map_range (l := consoleBus.regions) rfl consoleBus.apart

def timerLoop : EventLoop where
  cpu :=
    { bus := timerBus
      state := { csrs := { mie := bit 7, mstatus := bit 3, mtvec := 0x80000100#64 },
                 waitingForInterrupt := true } }

def noInput : HostAnswers where
  reads _ := .nothing
  writes _ := .ready true

end SmallMachine

open SmallMachine in
/-- It stalls twice, and takes the interrupt in the third iteration. -/
theorem EventLoop.wait_for_timer_three :
    let woken := Runs.run EventLoop.step timerLoop [noInput, noInput]
    ∃ d, (woken.runOnce noInput).1.interruptTaken = true ∧
      (woken.runOnce noInput).1.delivery = some d ∧ d.interrupt = true ∧ d.cause = 7#64 ∧
      (woken.step noInput).cpu.state.programCounter =
        timerLoop.cpu.state.csrs.trapVector d.target true d.cause := by
  have hadmits : timerLoop.cpu.state.csrs.admits timerLoop.cpu.state.privilege .machineTimer =
      true := by decide
  have hdevices : timerLoop.Devices timerClint {} {} := ⟨rfl, rfl, rfl⟩
  have hlength : [noInput, noInput].length = EventLoop.waits timerClint 1#64 := by decide
  have h := (EventLoop.wait_for_timer ⟨rfl, by decide⟩ hdevices (by decide) (by decide) (by decide)
    hlength noInput).2.2
  rw [if_pos hadmits] at h
  obtain ⟨d, htaken, hdelivery, hinterrupt, hcause, hvector, hpc, -⟩ := h
  exact ⟨d, htaken, hdelivery, hinterrupt, hcause, hpc.trans hvector⟩

end Rvemu
