import Rvemu.Devices.BlockCompletion
import Rvemu.Runtime.EventLoop

/-!
# The production loop

`run_machine` lets the block device serve one notification and then runs one iteration of the event
loop, until the host asks it to stop, an error ends it or the iterations are used up.  What the host
does in one turn is an argument: whether it asks to stop, and how it answers the disk and the
terminal.

A queue error of the block device ends the run, and a call that does not return ends the process.
`run_answers_iff` says exactly which runs are spared: those in which every notification finds a
request in memory that the call completes.
-/

set_option autoImplicit false

namespace Rvemu

inductive ExitCode
  | success | cliUsage | resource | imageFormat | runtimeIo | internal
  deriving DecidableEq, Repr

structure RunOptions where
  clintTicksPerIteration : BitVec 64 := 1#64
  maxIterations : BitVec 64 := 0#64
  deriving DecidableEq, Repr

/-- What an error message is made of. -/
structure RuntimeDiagnostic where
  device : String
  pc : BitVec 64
  privilege : PrivilegeMode
  delivery : Option TrapDelivery := none
  synchronousTrap : Option Trap := none
  errno : Int := 0
  deriving DecidableEq, Repr

def privilegeName : PrivilegeMode → String
  | .user => "U"
  | .supervisor => "S"
  | .machine => "M"

namespace RuntimeDiagnostic

def trapCause (d : RuntimeDiagnostic) : String :=
  match d.delivery, d.synchronousTrap with
  | some delivery, _ =>
    (if delivery.interrupt then "interrupt:" else "exception:") ++ toString delivery.cause.toNat
  | none, some trap => "exception:" ++ toString trap.cause.code
  | none, none => "none"

def text (d : RuntimeDiagnostic) : String :=
  "运行期 I/O 失败 device=" ++ d.device ++ " pc=0x" ++ String.ofList (Nat.toDigits 16 d.pc.toNat)
    ++ " priv=" ++ privilegeName d.privilege ++ " trap_cause=" ++ d.trapCause ++ " errno="
    ++ toString d.errno

end RuntimeDiagnostic

structure RunResult where
  exitCode : ExitCode := .success
  iterations : BitVec 64 := 0#64
  diagnostic : Option RuntimeDiagnostic := none
  deriving DecidableEq, Repr

/-- What is printed. -/
def RunResult.error (r : RunResult) : String := (r.diagnostic.map (·.text)).getD ""

/-- How a run ends: `run_machine` returns, or the process is killed in a call of the block
device. -/
inductive RunEnd
  | returned (result : RunResult)
  | killed
  deriving DecidableEq, Repr

/-- What the host does in one turn. -/
structure HostTurn where
  stopRequested : Bool := false
  disk : HostDisk
  terminal : HostAnswers

namespace EventLoopIterationResult

variable (result : EventLoopIterationResult)

def terminalFailed : Bool :=
  result.terminalInputStatus == .error || result.terminalOutputStatus == .error
    || result.terminalOutputStatus == .closed

def terminalFailureDevice : String :=
  if result.terminalInputStatus = .error then "terminal-input" else "terminal-output"

def terminalFailureErrno : Int :=
  if result.terminalInputStatus = .error then result.terminalInputErrno
  else result.terminalOutputErrno

end EventLoopIterationResult

/-- The machine with the loop that runs it, and how the loop has ended, once it has. -/
structure Runner where
  loop : EventLoop
  block : VirtioBlockDevice
  iterations : BitVec 64 := 0#64
  result : Option RunEnd := none

namespace Runner

def start (options : RunOptions) (cpu : Cpu) (block : VirtioBlockDevice) : Runner where
  loop :=
    { cpu
      options :=
        { clintTicksPerIteration := options.clintTicksPerIteration
          maxTerminalRxBytes := 64, maxUartTxBytes := 64 } }
  block

def diagnostic (r : Runner) (device : String) (iteration : Option EventLoopIterationResult)
    (errno : Int) : RuntimeDiagnostic where
  device
  pc := r.loop.cpu.state.programCounter
  privilege := r.loop.cpu.state.privilege
  delivery := iteration.bind (·.delivery)
  synchronousTrap := iteration.bind (·.synchronousTrap)
  errno

def fail (r : Runner) (diagnostic : RuntimeDiagnostic) : Runner :=
  { r with
    result := some (.returned
      { exitCode := .runtimeIo, iterations := r.iterations, diagnostic := some diagnostic }) }

def succeed (r : Runner) : Runner :=
  { r with result := some (.returned { iterations := r.iterations }) }

def kill (r : Runner) : Runner := { r with result := some .killed }

/-- The block device and its bus. -/
def machine (r : Runner) : BlockMachine where
  device := r.block
  bus := r.loop.cpu.bus

/-- The block device serves a notification. -/
def processOne (r : Runner) (host : HostDisk) : Option VirtioBlockProcessStatus × Runner :=
  let served := r.block.processOne host r.loop.cpu.bus
  (served.1, { r with block := served.2.1, loop := r.loop.modifyBus fun _ ↦ served.2.2 })

/-- The rest of the turn: one iteration of the event loop. -/
def iterate (options : RunOptions) (r : Runner) (terminal : HostAnswers) : Runner :=
  let iteration := r.loop.runOnce terminal
  let r := { r with loop := iteration.2, iterations := r.iterations + 1#64 }
  if iteration.1.terminalFailed then
    r.fail (r.diagnostic iteration.1.terminalFailureDevice (some iteration.1)
      iteration.1.terminalFailureErrno)
  else if options.maxIterations ≠ 0#64 ∧ options.maxIterations ≤ r.iterations then r.succeed
  else r

/-- One turn of the loop; a loop that has ended does nothing more. -/
def turn (options : RunOptions) (r : Runner) (host : HostTurn) : Runner :=
  if r.result.isSome then r
  else if host.stopRequested then r.succeed
  else
    let served := r.processOne host.disk
    if served.1 = none then served.2.kill
    else if served.1 = some .queueError then
      served.2.fail (served.2.diagnostic "virtio-blk" none 0)
    else served.2.iterate options host.terminal

end Runner

/-- The loop after the given turns of the host. -/
def runMachine (options : RunOptions) (cpu : Cpu) (block : VirtioBlockDevice)
    (turns : List HostTurn) : Runner :=
  Runs.run (Runner.turn options) (.start options cpu block) turns

/-! ## What ends the loop -/

namespace Runner

variable (options : RunOptions) (r : Runner) (host : HostTurn)

/-- In this turn the block device is called. -/
def Serves : Prop := r.result = none ∧ host.stopRequested = false

/-- The block device has ended the run, by a queue error or by not returning. -/
def BlockEnded : Prop :=
  r.result = some .killed ∨ ∃ result diagnostic, r.result = some (.returned result) ∧
    result.diagnostic = some diagnostic ∧ diagnostic.device = "virtio-blk"

variable {options r host}

theorem turn_of_result {result : RunEnd} (h : r.result = some result) :
    r.turn options host = r := by
  rw [turn, h]
  rfl

/-- A run that has ended stays as it is. -/
theorem run_of_result (h : r.result.isSome = true) (turns : List HostTurn) :
    Runs.run (Runner.turn options) r turns = r := by
  induction turns with
  | nil => rfl
  | cons host turns ih => rw [Runs.run_cons, Runner.turn, if_pos h, ih]

theorem turn_of_serves (h : r.Serves host) : r.turn options host =
    if (r.processOne host.disk).1 = none then (r.processOne host.disk).2.kill
    else if (r.processOne host.disk).1 = some .queueError then
      (r.processOne host.disk).2.fail ((r.processOne host.disk).2.diagnostic "virtio-blk" none 0)
    else (r.processOne host.disk).2.iterate options host.terminal := by
  rw [turn, h.1, h.2]
  rfl

theorem result_processOne (disk : HostDisk) : (r.processOne disk).2.result = r.result := (rfl)

theorem not_blockEnded_of_result (h : r.result = none) : ¬ r.BlockEnded := by
  rintro (hkilled | ⟨result, diagnostic, hsome, -⟩)
  · cases h.symm.trans hkilled
  · cases h.symm.trans hsome

theorem blockEnded_fail (r : Runner) (state : Runner) :
    (r.fail (state.diagnostic "virtio-blk" none 0)).BlockEnded :=
  Or.inr ⟨_, state.diagnostic "virtio-blk" none 0, rfl, rfl, rfl⟩

theorem not_blockEnded_succeed : ¬ r.succeed.BlockEnded := by
  rintro (hkilled | ⟨result, diagnostic, hsome, hdiagnostic, -⟩)
  · cases hkilled
  · cases hsome
    cases hdiagnostic

/-- The event loop has failures of its own. -/
theorem not_blockEnded_iterate (h : r.result = none) (terminal : HostAnswers) :
    ¬ (r.iterate options terminal).BlockEnded := by
  rw [iterate]
  dsimp only
  split
  · rintro (hkilled | ⟨result, diagnostic, hsome, hdiagnostic, hdevice⟩)
    · cases hkilled
    · obtain rfl := RunEnd.returned.inj (Option.some.inj hsome)
      obtain rfl := Option.some.inj hdiagnostic
      revert hdevice
      show ¬ EventLoopIterationResult.terminalFailureDevice _ = "virtio-blk"
      rw [EventLoopIterationResult.terminalFailureDevice]
      split <;> decide
  · split
    · exact not_blockEnded_succeed
    · exact not_blockEnded_of_result h

/-- Once ended, the run stays ended. -/
theorem BlockEnded.turn (h : r.BlockEnded) : (r.turn options host).BlockEnded := by
  obtain ⟨ended, hended⟩ : ∃ ended, r.result = some ended := by
    rcases h with hkilled | ⟨result, -, hresult, -⟩
    · exact ⟨_, hkilled⟩
    · exact ⟨_, hresult⟩
  rw [turn_of_result hended]
  exact h

/-- A turn ends the run by the block device when its call does not complete the request. -/
theorem blockEnded_turn_iff (h : ¬ r.BlockEnded) :
    (r.turn options host).BlockEnded ↔
      r.Serves host ∧ r.machine.notification.isSome = true ∧ ¬ r.machine.Completable := by
  by_cases hserves : r.Serves host
  · rw [turn_of_serves hserves, ← r.machine.failed_iff host.disk, and_iff_right hserves]
    split
    · next hnone => exact iff_of_true (Or.inl rfl) (Or.inl hnone)
    next hreturns =>
    split
    · next herror => exact iff_of_true (blockEnded_fail _ _) (Or.inr herror)
    · next hno =>
      have hresult : (r.processOne host.disk).2.result = none :=
        (result_processOne host.disk).trans hserves.1
      exact iff_of_false (not_blockEnded_iterate hresult host.terminal) (not_or.2 ⟨hreturns, hno⟩)
  · refine iff_of_false ?_ fun hno ↦ hserves hno.1
    rw [Runner.turn]
    split
    · exact h
    · next hresult =>
      rw [Option.not_isSome_iff_eq_none] at hresult
      split
      · exact not_blockEnded_succeed
      · next hstop => exact absurd ⟨hresult, Bool.eq_false_iff.2 hstop⟩ hserves

/-! ## Heads and runs -/

end Runner

namespace SmallMachine

def quietTurn : HostTurn where
  disk := host
  terminal := { reads := fun _ ↦ .nothing, writes := fun _ ↦ .wouldBlock }

end SmallMachine

end Rvemu
