import Rvemu.Core.Programs
import Rvemu.Runtime.MachineHistory
import Rvemu.Runtime.WaitForInterrupt

/-!
# The program in the BIOS

A machine that has been built runs the program that the BIOS file holds.  The production loop serves
the block device, the terminal and the other devices between any two steps of the hart, and none of
that reaches a program of RV64IMC: with every interrupt masked, as it is at reset, each iteration is
one instruction of the machine of the manual that starts with the images in memory
(`firmware_runs`).
-/

set_option autoImplicit false

namespace Rvemu

/-! ## RAM behind the services -/

/-- RAM is where it was, and holds what it held. -/
structure Bus.SameRam (b b' : Bus) : Prop where
  memoryMap : b'.memoryMap = b.memoryMap
  ramByte : ∀ x, b'.ramByte x = b.ramByte x

namespace Bus.SameRam

variable {b b' b'' : Bus}

theorem refl (b : Bus) : b.SameRam b := ⟨rfl, fun _ ↦ rfl⟩

theorem trans (h : b.SameRam b') (h' : b'.SameRam b'') : b.SameRam b'' :=
  ⟨h'.memoryMap.trans h.memoryMap, fun x ↦ (h'.ramByte x).trans (h.ramByte x)⟩

/-- A device is no RAM. -/
theorem update {α : Type} (c : Component α) (b : Bus) (f : α → α)
    (hf : ∀ a, (c.set (f a)).range = (c.set a).range)
    (hid : ∀ a, (c.set (f a)).identity = (c.set a).identity) : b.SameRam (b.update c f hf) :=
  ⟨b.memoryMap_update c f hf hid, b.ramByte_update c f hf⟩

end Bus.SameRam

namespace EventLoop

variable (l : EventLoop)

theorem sameRam_setUart (u : Uart16550) : l.cpu.bus.SameRam (l.setUart u).cpu.bus :=
  .update .uart l.cpu.bus (fun _ ↦ u) (fun _ ↦ rfl) fun _ ↦ rfl

theorem sameRam_pushRx (byte : BitVec 8) : l.cpu.bus.SameRam (l.pushRx byte).2.cpu.bus := by
  rw [pushRx]
  split
  · exact .refl _
  · exact l.sameRam_setUart _

theorem sameRam_serviceTerminalInputFrom (reads : ℕ → HostRead) (budget count : ℕ)
    (result : EventLoopIterationResult) (l : EventLoop) :
    l.cpu.bus.SameRam (serviceTerminalInputFrom reads budget count result l).2.cpu.bus := by
  induction budget generalizing count result l with
  | zero => exact .refl _
  | succ budget ih =>
    rw [serviceTerminalInputFrom]
    cases reads count with
    | byte value =>
      dsimp only
      split
      · exact l.sameRam_pushRx value
      · exact (l.sameRam_pushRx value).trans (ih _ _ _)
    | nothing | transient | failed errno => exact .refl _

theorem sameRam_refill {l l' : EventLoop} {byte : BitVec 8} (h : l.refill = some (byte, l')) :
    l.cpu.bus.SameRam l'.cpu.bus := by
  rw [refill] at h
  split at h
  · obtain ⟨-, rfl⟩ := Prod.mk.inj (Option.some.inj h)
    exact .refl _
  · split at h
    · cases h
    · next popped next hpop =>
      obtain ⟨-, rfl⟩ := Prod.mk.inj (Option.some.inj h)
      rw [popTx] at hpop
      split at hpop
      · cases hpop
      · next popped u hbind =>
        obtain ⟨-, rfl⟩ := Prod.mk.inj (Option.some.inj hpop)
        exact l.sameRam_setUart u

theorem sameRam_serviceUartOutputFrom (writes : ℕ → TerminalWrite) (budget count : ℕ)
    (result : EventLoopIterationResult) (l : EventLoop) :
    l.cpu.bus.SameRam (serviceUartOutputFrom writes budget count result l).2.cpu.bus := by
  induction budget generalizing count result l with
  | zero => exact .refl _
  | succ budget ih =>
    rw [serviceUartOutputFrom]
    cases hrefill : l.refill with
    | none => exact .refl _
    | some refilled =>
      obtain ⟨byte, next⟩ := refilled
      have hwritten : l.cpu.bus.SameRam (next.writeBytes byte (writes count)).2.cpu.bus := by
        refine (sameRam_refill hrefill).trans ?_
        rw [writeBytes]
        dsimp only
        split <;> exact .refl _
      dsimp only
      split
      · exact hwritten
      · exact hwritten.trans (ih (count + 1) _
          { (next.writeBytes byte (writes count)).2 with
            pendingTx := (next.writeBytes byte (writes count)).2.pendingTx.tail })

theorem sameRam_synchronizeDevices : l.cpu.bus.SameRam l.synchronizeDevices.cpu.bus := by
  have hadvance : l.cpu.bus.SameRam l.advanceClint.cpu.bus :=
    .update .clint l.cpu.bus (·.advance l.options.clintTicksPerIteration) (fun _ ↦ rfl)
      fun _ ↦ rfl
  have hclint (l : EventLoop) : l.cpu.bus.SameRam l.synchronizeClint.cpu.bus := by
    rw [synchronizeClint]
    split <;> exact .refl _
  have huart (l : EventLoop) : l.cpu.bus.SameRam l.synchronizeUart.cpu.bus := by
    rw [synchronizeUart]
    split
    · exact .refl _
    · next u _ => exact .update .plic l.cpu.bus u.synchronize (fun _ ↦ rfl) fun _ ↦ rfl
  have hplic (l : EventLoop) : l.cpu.bus.SameRam l.synchronizePlic.cpu.bus := by
    rw [synchronizePlic]
    split <;> exact .refl _
  exact ((hadvance.trans (hclint _)).trans (huart _)).trans (hplic _)

/-- Before the hart looks for an interrupt only devices have changed. -/
theorem sameRam_prepared (answers : HostAnswers) :
    l.cpu.bus.SameRam (l.prepared answers).cpu.bus := by
  rw [prepared]
  exact ((l.sameRam_serviceTerminalInputFrom answers.reads _ 0 {}).trans
    (sameRam_serviceUartOutputFrom answers.writes _ 0 _ _)).trans (sameRam_synchronizeDevices _)

end EventLoop

/-! ## One iteration -/

/-- Without an enabled interrupt none is taken. -/
theorem Cpu.takePendingInterrupt_of_mie {c : Cpu} (h : c.state.csrs.mie = 0#64) :
    c.takePendingInterrupt = (none, c) := by
  have hselect : c.state.csrs.selectPendingInterrupt c.state.privilege = none := by
    refine List.findSome?_eq_none_iff.2 fun cause _ ↦ ?_
    simp [CsrFile.receivable, h]
  rw [takePendingInterrupt, hselect]

/-- The clock and the pending bits are nothing to the program. -/
theorem Cpu.Runs.of_pending {c d : Cpu} {m : Isa.Machine} (h : c.Runs m)
    (hbus : c.bus.SameRam d.bus) {mip time cycle : BitVec 64}
    (hstate : d.state = { c.state with csrs := { c.state.csrs with mip, time, cycle } }) :
    d.Runs m where
  programCounter := by rw [hstate]; exact h.programCounter
  even := h.even
  integer := by rw [hstate]; exact h.integer
  ram := Bus.inRam_of_memoryMap hbus.memoryMap h.ram
  memory y hy hy' := (hbus.ramByte y).trans (h.memory y hy hy')
  awake := by rw [hstate]; exact h.awake
  fetchBare := by rw [fetchContext, hstate]; exact h.fetchBare
  dataBare := by rw [dataContext, hstate]; exact h.dataBare

namespace EventLoop

/-- The hart is in the program, masks every interrupt, and no driver has used the block device. -/
structure Executes (l : EventLoop) (m : Isa.Machine) : Prop where
  hart : l.cpu.Runs m
  masked : l.cpu.state.csrs.mie = 0#64
  devices : ∃ clint plic uart, l.Devices clint plic uart
  transport : l.cpu.bus.transport = some blockTransport

/-- **An iteration is an instruction**, whatever the terminal does. -/
theorem Executes.runOnce {l : EventLoop} {m m' : Isa.Machine} (h : l.Executes m)
    (answers : HostAnswers) (hstep : m.step = some m') : (l.runOnce answers).2.Executes m' := by
  obtain ⟨clint, plic, uart, hdevices⟩ := h.devices
  obtain ⟨-, mip, time, cycle, hstate⟩ := rests_prepared hdevices answers
  obtain ⟨uart', hprepared, -⟩ := prepared_spec hdevices answers
  have htransport := (l.keeps_prepared answers).1
  obtain ⟨result, hresult⟩ := l.runOnce_eq answers
  have hruns := h.hart.of_pending (l.sameRam_prepared answers) hstate
  have hmasked : (l.prepared answers).cpu.state.csrs.mie = 0#64 := by
    rw [hstate]
    exact h.masked
  rw [hresult]
  generalize l.prepared answers = l' at hprepared htransport hruns hmasked
  obtain ⟨hretired, hnext, hkeeps, -⟩ := hruns.step hstep
  have hstepped : (l'.stepCpu result).2 = { l' with cpu := l'.cpu.step.2 } := by
    rw [stepCpu, Cpu.takePendingInterrupt_of_mie hmasked]
    dsimp only
    rw [Cpu.trap_of_retired hretired]
  obtain ⟨cycle', instret', hcsrs⟩ := hkeeps.csrs
  rw [hstepped]
  have hcomponent {α : Type} (c : Component α) :
      l'.cpu.step.2.bus.component c = l'.cpu.bus.component c :=
    Bus.component_of_devices c hkeeps.devices
  refine
    { hart := hnext
      masked := ?_
      devices := ⟨clint.advance l.options.clintTicksPerIteration, uart'.synchronize plic, uart',
        (hcomponent .clint).trans hprepared.clint, (hcomponent .plic).trans hprepared.plic,
        (hcomponent .uart).trans hprepared.uart⟩
      transport := (hcomponent .transport).trans (htransport.trans h.transport) }
  show l'.cpu.step.2.state.csrs.mie = 0#64
  rw [hcsrs]
  exact hmasked

end EventLoop

/-! ## Turns and runs -/

namespace Runner

variable {options : RunOptions} {r : Runner} {m m' : Isa.Machine}

/-- A turn goes on with the program, or the host has asked for the end. -/
theorem executes_turn (h : r.loop.Executes m) (hresult : r.result = none) (host : HostTurn)
    (hstep : m.step = some m') :
    (host.stopRequested = true ∧ r.turn options host = r.succeed) ∨
      ((r.turn options host).loop.Executes m' ∧ (r.turn options host).block = r.block ∧
        (r.turn options host).iterations = r.iterations + 1#64) := by
  have hidle : r.processOne host.disk = (some .noNotification, r) := by
    rw [processOne, VirtioBlockDevice.processOne, h.transport]
    rfl
  rw [turn, hresult]
  cases hstop : host.stopRequested with
  | true => exact Or.inl ⟨rfl, rfl⟩
  | false =>
    refine Or.inr ?_
    have hnext := h.runOnce host.terminal hstep
    simp only [Option.isSome_none, Bool.false_eq_true, if_false, hidle, reduceCtorEq,
      Option.some.injEq, iterate]
    split
    · exact ⟨hnext, rfl, rfl⟩
    · split <;> exact ⟨hnext, rfl, rfl⟩

/-- A run goes on with the program for as long as it lasts, and the block device does not end it. -/
theorem executes_run (options : RunOptions) {turns : List HostTurn} (h : r.loop.Executes m)
    (hresult : r.result = none) (hrun : m.run turns.length = some m') :
    let r' := Runs.run (turn options) r turns
    ∃ n ≤ turns.length, ∃ m₁, m.run n = some m₁ ∧ r'.loop.Executes m₁ ∧
      r'.iterations = r.iterations + BitVec.ofNat 64 n ∧ r'.block = r.block ∧
      ¬ r'.BlockEnded ∧ (r'.result = none → n = turns.length) := by
  have hquiet : ¬ r.BlockEnded := not_blockEnded_of_result hresult
  induction turns generalizing r m with
  | nil => exact ⟨0, Nat.le_refl 0, m, rfl, h, (BitVec.add_zero _).symm, rfl, hquiet, fun _ ↦ rfl⟩
  | cons host turns ih =>
    intro r'
    rw [List.length_cons, Isa.Machine.run] at hrun
    cases hstep : m.step with
    | none =>
      rw [hstep] at hrun
      cases hrun
    | some next =>
    rw [hstep] at hrun
    have hone : m.run 1 = some next := by
      rw [Isa.Machine.run, hstep]
      rfl
    have hquiet' : ¬ (r.turn options host).BlockEnded := by
      rw [blockEnded_turn_iff hquiet]
      rintro ⟨-, hnotified, -⟩
      rw [BlockMachine.notification, show r.machine.bus.transport = some blockTransport from
        h.transport] at hnotified
      cases hnotified
    have hr' : r' = Runs.run (turn options) (r.turn options host) turns := rfl
    rcases executes_turn h hresult host hstep with ⟨-, hstopped⟩ | ⟨hnext, hblock, hcount⟩
    · rw [hstopped, run_of_result rfl turns] at hr'
      rw [hr']
      refine ⟨0, Nat.zero_le _, m, rfl, h, (BitVec.add_zero _).symm, rfl,
        not_blockEnded_succeed, fun hno ↦ ?_⟩
      cases hno
    · cases hended : (r.turn options host).result with
      | some result =>
        rw [run_of_result (by rw [hended]; rfl) turns] at hr'
        rw [hr']
        refine ⟨1, by simp, next, hone, hnext, hcount, hblock, hquiet', fun hno ↦ ?_⟩
        rw [hended] at hno
        cases hno
      | none =>
        obtain ⟨n, hn, m₁, hm₁, hlater, hiterations, hblock', hanswered, hall⟩ :=
          ih hnext hended hrun hquiet'
        rw [hr']
        refine ⟨n + 1, Nat.succ_le_succ hn, m₁, ?_, hlater, ?_, hblock'.trans hblock, hanswered,
          fun hno ↦ congrArg (· + 1) (hall hno)⟩
        · rw [Isa.Machine.run, hstep]
          exact hm₁
        · rw [hiterations, hcount, BitVec.add_assoc, BitVec.add_comm 1#64, ← BitVec.ofNat_add]

end Runner

/-! ## From the files to the program -/

/-- The machine of the manual that a layout and its images start. -/
def BootLayout.startMachine (layout : BootLayout) (images : BootImages) : Option Isa.Machine :=
  Isa.Machine.goTo
    { pc := 0#64
      x := fun r ↦ if r = 11#5 then layout.fdtAddress else 0#64
      base := layout.ramBase.toNat
      size := layout.ramSize.toNat
      memory := fun y ↦ (layout.initialByte images y).getD 0#8 }
    layout.biosLoadAddress

/-- Every byte of RAM has a value. -/
theorem BootLayout.initialByte_of_mem {layout : BootLayout} (images : BootImages) {y : ℕ}
    (h : layout.ramBase.toNat ≤ y) (h' : y < layout.ramBase.toNat + layout.ramSize.toNat) :
    layout.initialByte images y = some ((layout.initialByte images y).getD 0#8) := by
  rw [initialByte]
  split
  · rfl
  split
  · rfl
  split
  · rfl
  rw [if_pos ⟨h, h'⟩]
  rfl

namespace MachineConfig

variable {config : MachineConfig} {disk : List (BitVec 8)} {images : BootImages} {m : BuiltMachine}

/-- The hart of the built machine stands where the machine of the manual starts. -/
theorem Built.executes (h : config.Built disk images m) {start : Isa.Machine}
    (hstart : config.bootLayout.startMachine images = some start) (options : RunOptions) :
    (Runner.start options m.cpu m.block).loop.Executes start := by
  obtain ⟨hclint, hplic, huart, htransport⟩ := h.components
  refine ⟨?_, ?_, ⟨_, _, _, hclint, hplic, huart⟩, htransport⟩
  · show m.cpu.Runs start
    obtain ⟨ram, hbase, hsize, hregions⟩ := h.regions
    have hstate : m.cpu.state = config.bootLayout.entry := by rw [h.hart]
    rw [BootLayout.startMachine, Isa.Machine.goTo] at hstart
    split at hstart
    · cases hstart
    next heven =>
    obtain rfl := Option.some.inj hstart
    refine ⟨by rw [hstate]; rfl, by simpa using heven, ?_, ⟨ram, ?_, ?_, ?_⟩, fun y hy hy' ↦ ?_,
      by rw [hstate]; rfl, Or.inl ?_, Or.inl ?_⟩
    · funext r
      rw [hstate]
      by_cases hr : r = 0#5
      · rw [hr]
        rfl
      · exact if_neg hr
    · exact hregions.mem_iff.2 List.mem_cons_self
    · exact (congrArg BitVec.toNat hbase).le
    · rw [hbase, hsize]
    · exact (h.ramByte y).trans (config.bootLayout.initialByte_of_mem images hy hy')
    · rw [Cpu.fetchContext, hstate]
      rfl
    · exact Cpu.privilege_dataContext_of_reset (by rw [hstate]; rfl) (by rw [hstate]; rfl)
  · show m.cpu.state.csrs.mie = 0#64
    rw [h.hart]
    rfl

end MachineConfig

/-- **The BIOS runs.**  In a run of a built machine, whatever the host does, the hart is after every
iteration where the machine of the manual is that starts with the images in memory, for as long as
that machine goes on; the block device, which the program does not use, stays as it is, and does not
end the run. -/
theorem firmware_runs {config : MachineConfig} {disk : List (BitVec 8)} {images : BootImages}
    {built : BuiltMachine} (h : config.Built disk images built) (options : RunOptions)
    {start m' : Isa.Machine} (hstart : config.bootLayout.startMachine images = some start)
    (turns : List HostTurn) (hrun : start.run turns.length = some m') :
    let r := runMachine options built.cpu built.block turns
    ∃ n ≤ turns.length, ∃ m, start.run n = some m ∧ r.iterations = BitVec.ofNat 64 n ∧
      r.loop.cpu.Runs m ∧ r.block = built.block ∧ ¬ r.BlockEnded ∧
      (r.result = none → n = turns.length) := by
  intro r
  obtain ⟨n, hn, m, hm, hexecutes, hiterations, hblock, hanswered, hall⟩ :=
    Runner.executes_run options (h.executes hstart options) rfl hrun
  exact ⟨n, hn, m, hm, hiterations.trans (BitVec.zero_add _), hexecutes.hart, hblock, hanswered,
    hall⟩

open SmallMachine in
/-- The BIOS of the small machine is one instruction that does nothing. -/
theorem firmware_runs_small : ∃ (built : BuiltMachine) (start m' : Isa.Machine),
    start.run 1 = some m' ∧ m'.pc = 0x80000004#64 ∧ ∃ n ≤ 1, ∃ m, start.run n = some m ∧
      (runMachine {} built.cpu built.block [quietTurn]).loop.cpu.Runs m := by
  obtain ⟨-, built, disk, images, -, -, hbuildable, hbuilt⟩ := buildable.built
  have himages : images = bootImages := by
    obtain ⟨bios, kernel, fdt⟩ := images
    obtain ⟨_, hbios⟩ := hbuildable.bios
    obtain ⟨_, hkernel⟩ := hbuildable.kernel
    replace hbios := HostFile.contents.inj (Except.ok.inj hbios)
    replace hkernel := HostFile.contents.inj (Except.ok.inj hkernel)
    have hfdt := hbuildable.fdt
    dsimp only at hbios hkernel hfdt
    rw [hfdt, ← hbios, ← hkernel]
    rfl
  rw [himages] at hbuilt
  have hvalues : ((buildConfig.bootLayout.startMachine bootImages).bind (·.run 1)).any
      (fun m ↦ m.pc = 0x80000004#64) = true := by
    decide +kernel
  obtain ⟨m', hbind, hpc⟩ := (Option.any_eq_true _ _).1 hvalues
  obtain ⟨start, hstart, hrun⟩ := Option.bind_eq_some_iff.1 hbind
  obtain ⟨n, hn, m, hm, -, hruns, -⟩ := firmware_runs hbuilt {} hstart [quietTurn] hrun
  exact ⟨built, start, m', hrun, of_decide_eq_true hpc, n, hn, m, hm, hruns⟩

end Rvemu
