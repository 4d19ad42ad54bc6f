import Rvemu.Platform.Terminal
import Rvemu.Runtime.Build
import Rvemu.Runtime.HostSignal

/-!
# The program

`main` reads the command line, builds the machine, takes over the signals and the terminal, runs the
machine and gives everything back.  It makes no call that changes the host before the machine is
built.  A stop signal always ends the run, and whenever the program exits with anything but a
failure of the host's resources, the host is as it was before (`mainProgram_spec`).  A process that
is killed in a call of the block device gives nothing back.
-/

set_option autoImplicit false

namespace Rvemu

open HostDialogue

/-- What the host does in one turn of the loop: a signal may arrive, and the disk and the terminal
answer. -/
structure HostEvent where
  signal : Bool := false
  disk : HostDisk
  terminal : HostAnswers

/-- The turns that the loop sees, with the flag that the handler has set. -/
def HostSignals.turns (s : HostSignals) : List HostEvent → List HostTurn
  | [] => []
  | event :: events =>
    let s := if event.signal then s.handleStopSignal else s
    { stopRequested := s.stopRequested, disk := event.disk, terminal := event.terminal } ::
      s.turns events

/-- How far the program has got; an exception that nobody catches terminates it. -/
inductive Process
  | running (runner : Runner)
  | exited (code : ExitCode) (out err : String)
  | terminated (what : String)
  | killed

/-- What comes after the loop: everything is given back before anything is reported. -/
def giveBack (terminal : TerminalBackend) (signals : HostSignals) (result : RunResult) :
    HostDialogue Process := do
  let terminalRestore ← terminal.restore
  let signalRestore ← signals.restore
  -- the destructor of the backend
  let _ ← terminalRestore.2.restore
  if !terminalRestore.1.ok then
    return .exited .resource "" (terminalRestore.1.detail ++ "\n")
  else if !signalRestore.1.success then
    return .exited .resource "" (signalRestore.1.detail ++ "\n")
  else
    return .exited result.exitCode ""
      (if result.exitCode = .success then "" else result.error ++ "\n")

/-- From the handlers to the end. -/
def runProgram (constants : TermiosConstants) (m : BuiltMachine) (events : List HostEvent) :
    HostDialogue Process := do
  let signals ← HostSignals.install {}
  if !signals.1.success then return .exited .resource "" (signals.1.detail ++ "\n")
  else
  let raw ← TerminalBackend.activateRaw constants {}
  if !raw.1.ok then
    let _ ← signals.2.restore
    let _ ← raw.2.restore
    return .exited .resource "" (raw.1.detail ++ "\n")
  else
  let run := runMachine {} m.cpu m.block (signals.2.turns events)
  match run.result with
  | none => return .running run
  | some .killed => return .killed
  | some (.returned result) => giveBack raw.2 signals.2 result

/-- The program, called by a name with arguments. -/
def mainProgram (constants : TermiosConstants) (name : String) (arguments : List String)
    (files : HostFiles) (events : List HostEvent) : HostDialogue Process :=
  let parsed := parseCli arguments
  match parsed.options with
  | none => return .exited .cliUsage "" (parsed.error ++ "\n" ++ cliUsage name)
  | some options =>
    if options.help then return .exited .success (cliUsage name) ""
    else
      match buildMachine { cli := options } files with
      | .error what => return .terminated what
      | .ok built =>
        match built.machine with
        | none => return .exited built.exitCode "" (built.error ++ "\n")
        | some m => runProgram constants m events

/-! ## Stop signals -/

/-- The loop looks at the flag only. -/
theorem turns_congr {s s' : HostSignals} (h : s'.stopRequested = s.stopRequested)
    (events : List HostEvent) : s'.turns events = s.turns events := by
  induction events generalizing s s' with
  | nil => rfl
  | cons event events ih =>
    have hflag (c : Bool) : (if c then s'.handleStopSignal else s').stopRequested =
        (if c then s.handleStopSignal else s).stopRequested := by
      cases c
      · exact h
      · rfl
    rw [HostSignals.turns, HostSignals.turns, hflag, ih (hflag event.signal)]

theorem stopRequested_turns_iff {s : HostSignals} (h : s.stopRequested = false)
    (events : List HostEvent) : (∃ turn ∈ s.turns events, turn.stopRequested = true) ↔
      ∃ event ∈ events, event.signal = true := by
  induction events with
  | nil => exact iff_of_false (by simp [HostSignals.turns]) (by simp)
  | cons event events ih =>
    cases hsignal : event.signal with
    | true =>
      refine iff_of_true ⟨_, List.mem_cons_self, ?_⟩ ⟨event, List.mem_cons_self, hsignal⟩
      rw [hsignal]
      rfl
    | false => simp [HostSignals.turns, hsignal, h, ih]

namespace Runner

variable {options : RunOptions} {r : Runner}

/-- A request to stop ends the run. -/
theorem result_of_stopRequested (r : Runner) {turns : List HostTurn}
    (h : ∃ host ∈ turns, host.stopRequested = true) :
    (Runs.run (turn options) r turns).result.isSome = true := by
  induction turns generalizing r with
  | nil => simp at h
  | cons host turns ih =>
    rw [Runs.run_cons]
    by_cases hlater : ∃ host ∈ turns, host.stopRequested = true
    · exact ih _ hlater
    have hstop : host.stopRequested = true := by
      obtain ⟨other, hother, hstop⟩ := h
      rcases List.mem_cons.1 hother with rfl | hother
      · exact hstop
      · exact absurd ⟨other, hother, hstop⟩ hlater
    have hended : (r.turn options host).result.isSome = true := by
      rw [turn]
      by_cases hsome : r.result.isSome = true
      · rw [if_pos hsome]
        exact hsome
      · rw [if_neg hsome, if_pos hstop]
        rfl
    rw [run_of_result hended]
    exact hended

/-- Without a limit only a request to stop ends a run with success. -/
theorem stopRequested_of_success (hlimit : options.maxIterations = 0#64) {r : Runner}
    (hr : r.result = none) {turns : List HostTurn} {result : RunResult}
    (h : (Runs.run (turn options) r turns).result = some (.returned result))
    (hsuccess : result.exitCode = .success) : ∃ host ∈ turns, host.stopRequested = true := by
  induction turns generalizing r with
  | nil =>
    rw [Runs.run_nil, hr] at h
    cases h
  | cons host turns ih =>
    rw [Runs.run_cons] at h
    cases hturn : (r.turn options host).result with
    | none =>
      obtain ⟨other, hother, hstop⟩ := ih hturn h
      exact ⟨other, List.mem_cons_of_mem _ hother, hstop⟩
    | some ended =>
      rw [run_of_result (by rw [hturn]; rfl), hturn] at h
      obtain rfl := Option.some.inj h
      refine ⟨host, List.mem_cons_self, ?_⟩
      by_contra hno
      rw [turn, if_neg (by simp [hr]), if_neg hno] at hturn
      dsimp only at hturn
      split at hturn
      · cases hturn
      split at hturn
      · obtain rfl := RunEnd.returned.inj (Option.some.inj hturn)
        cases hsuccess
      · rw [iterate] at hturn
        dsimp only at hturn
        split at hturn
        · obtain rfl := RunEnd.returned.inj (Option.some.inj hturn)
          cases hsuccess
        · rw [if_neg (by simp [hlimit])] at hturn
          rw [result_processOne, hr] at hturn
          cases hturn

end Runner

/-! ## The course of the program -/

/-- The command line and the files make up a machine. -/
def Starts (arguments : List String) (files : HostFiles) (m : BuiltMachine) : Prop :=
  ∃ options built, (parseCli arguments).options = some options ∧ options.help = false ∧
    buildMachine { cli := options } files = .ok built ∧ built.machine = some m

/-- The command line is one to run, and building the machine throws. -/
def Throws (arguments : List String) (files : HostFiles) : Prop :=
  ∃ options, (parseCli arguments).options = some options ∧ options.help = false ∧
    MachineConfig.Throws { cli := options } files

/-- The run of the machine. -/
def runOf (m : BuiltMachine) (events : List HostEvent) : Runner :=
  runMachine {} m.cpu m.block (HostSignals.turns {} events)

/-- What becomes of a program with a machine. -/
inductive Course (model : HostModel) (constants : TermiosConstants) (m : BuiltMachine)
    (events : List HostEvent) (original : HostSettings) : Process → Host model → Prop
  | running {h : Host model} (hrun : (runOf m events).result = none)
    (hsettings : h.settings = original.stopping.raw model constants) :
    Course model constants m events original (.running (runOf m events)) h
  | ended {h : Host model} {result : RunResult} (err : String)
    (hrun : (runOf m events).result = some (.returned result))
    (hsettings : h.settings = original) :
    Course model constants m events original (.exited result.exitCode "" err) h
  | killed {h : Host model} (hrun : (runOf m events).result = some .killed)
    (hsettings : h.settings = original.stopping.raw model constants) :
    Course model constants m events original .killed h
  | refused {h : Host model} (err : String) (hrefused : ¬ model.Grants)
    (hsettings : model.TakesTerminal original → model.TakesHandlers original →
      h.settings = original) :
    Course model constants m events original (.exited .resource "" err) h

section Courses

variable {model : HostModel} {constants : TermiosConstants} {m : BuiltMachine}
  {events : List HostEvent} {h : Host model}

theorem giveBack_ensures {terminal : TerminalBackend} {signals : HostSignals} {result : RunResult}
    {original : HostSettings} (hterminal : terminal.Saves original.stopping h.settings)
    (hsettled : model.settle original.attributes = original.attributes)
    (hsignals : signals.Saves original)
    (hrun : (runOf m events).result = some (.returned result)) :
    (giveBack terminal signals result).Ensures Host.answer h
      (Course model constants m events original) := by
  refine .bind (TerminalBackend.restore_ensures hterminal hsettled)
    fun terminalRestore h₁ ⟨hcleared, hterminal⟩ ↦ ?_
  refine .bind (HostSignals.restore_ensures hsignals) fun signalRestore h₂ hsignals ↦ ?_
  rw [hcleared, terminal.idle_cleared.restore_eq]
  have htakesTerminal (htakes : model.TakesTerminal original) : terminalRestore.1.ok = true :=
    hterminal.takes ⟨htakes.attributes, htakes.flags⟩
  change Dialogue.Ensures _ (ite _ _ _) _ _
  split
  · next hno =>
    rw [Bool.not_eq_true'] at hno
    refine .pure (.refused _ (fun hgrants ↦ ?_) fun htakes _ ↦ ?_)
    · exact absurd ((htakesTerminal (hgrants.takesTerminal _)).symm.trans hno) (by simp)
    · exact absurd ((htakesTerminal htakes).symm.trans hno) (by simp)
  next hterminalOk =>
  split
  · next hno =>
    rw [Bool.not_eq_true'] at hno
    refine .pure (.refused _ (fun hgrants ↦ ?_) fun _ htakes ↦ ?_)
    · exact absurd ((hsignals.takes fun time _ ↦ hgrants time _).symm.trans hno) (by simp)
    · exact absurd ((hsignals.takes htakes).symm.trans hno) (by simp)
  next hsignalsOk =>
  refine .pure (.ended _ hrun ?_)
  rw [hsignals.settings (by simpa using hsignalsOk),
    hterminal.settings (by simpa using hterminalOk)]
  rfl

theorem runProgram_ensures : (runProgram constants m events).Ensures Host.answer h
    (Course model constants m events h.settings) := by
  refine .bind (HostSignals.install_ensures rfl) fun signals h₁ hinstalled ↦ ?_
  split
  · next hno =>
    rw [Bool.not_eq_true'] at hno
    refine .pure (.refused _ (fun hgrants ↦ ?_) fun _ htakes ↦ hinstalled.rolledBack hno htakes)
    exact absurd ((hinstalled.grants hgrants).symm.trans hno) (by simp)
  next hyes =>
  have hok : signals.1.success = true := by simpa using hyes
  have hstopping := hinstalled.stopping hok
  have hsaves := hinstalled.saves hok
  refine .bind (TerminalBackend.activateRaw_ensures constants h₁ ⟨rfl, rfl, rfl⟩)
    fun raw h₂ hactivated ↦ ?_
  split
  · next hno =>
    rw [Bool.not_eq_true'] at hno
    refine .bind (HostSignals.restore_ensures hsaves) fun restored h₃ hrestored ↦ ?_
    rw [(hactivated.idle hno).restore_eq]
    refine .pure (.refused _ (fun hgrants ↦ ?_) fun htakes hhandlers ↦ ?_)
    · exact absurd ((hactivated.grants hgrants).symm.trans hno) (by simp)
    · have hback : h₂.settings = h.settings.stopping := by
        rw [hactivated.rolledBack hno, hstopping]
        rw [hstopping]
        exact ⟨htakes.attributes, htakes.flags⟩
      rw [hrestored.settings (hrestored.takes hhandlers), hback]
      rfl
  next hyes =>
  have hactive : raw.1.ok = true := by simpa using hyes
  have hraw := hactivated.raw hactive
  have hrun : runMachine {} m.cpu m.block (signals.2.turns events) = runOf m events := by
    rw [runOf, turns_congr (s := {}) (hinstalled.cleared hok)]
  show ((match (runMachine {} m.cpu m.block (signals.2.turns events)).result with
    | none => return .running (runMachine {} m.cpu m.block (signals.2.turns events))
    | some .killed => return .killed
    | some (.returned result) => giveBack raw.2 signals.2 result) :
    HostDialogue Process).Ensures _ _ _
  rw [hrun]
  match hresult : (runOf m events).result with
  | none =>
    refine .pure (.running hresult ?_)
    rw [hraw, hstopping]
  | some .killed =>
    refine .pure (.killed hresult ?_)
    rw [hraw, hstopping]
  | some (.returned result) =>
    refine giveBack_ensures ?_ h.settled hsaves hresult
    rw [← hstopping]
    exact hactivated.saves hactive

/-- A machine that was not built has failed. -/
theorem exitCode_of_answers {config : MachineConfig} {files : HostFiles} {r : MachineBuildResult}
    (h : config.Answers files r) (hnone : r.machine = none) : r.exitCode ≠ .success := by
  rcases h with ⟨-, hfails⟩ | ⟨-, m, _, _, hm, -⟩
  · generalize r.exitCode = code at hfails
    cases hfails <;> simp
  · rw [hnone] at hm
    cases hm

/-- The command line asks for help. -/
def AsksForHelp (arguments : List String) : Prop :=
  ∃ options, (parseCli arguments).options = some options ∧ options.help = true

theorem Throws.not_starts {arguments : List String} {files : HostFiles}
    (h : Throws arguments files) (m : BuiltMachine) : ¬ Starts arguments files m := by
  rintro ⟨options, built, hoptions, -, hbuilt, -⟩
  obtain ⟨options', hoptions', -, hthrows⟩ := h
  obtain rfl := Option.some.inj (hoptions.symm.trans hoptions')
  obtain ⟨what, hwhat⟩ := (buildMachine_spec { cli := options } files).1.2 hthrows
  cases hbuilt.symm.trans hwhat

/-- A program ends without a call, or it has started. -/
theorem mainProgram_cases (constants : TermiosConstants) (name : String)
    (arguments : List String) (files : HostFiles) (events : List HostEvent) :
    (Throws arguments files ∧ ∃ what,
      mainProgram constants name arguments files events = (return .terminated what)) ∨
    (¬ Throws arguments files ∧ (∀ m, ¬ Starts arguments files m) ∧ ∃ code out err,
      mainProgram constants name arguments files events = (return .exited code out err) ∧
      (code = .success ↔ AsksForHelp arguments)) ∨
    ∃ m, Starts arguments files m ∧
      mainProgram constants name arguments files events = runProgram constants m events := by
  rw [mainProgram]
  cases hparsed : (parseCli arguments).options with
  | none =>
    have hno {options : CliOptions} : (parseCli arguments).options ≠ some options := by
      rw [hparsed]
      simp
    refine Or.inr (Or.inl ⟨fun ⟨_, h, _⟩ ↦ hno h, fun m ⟨_, _, h, _⟩ ↦ hno h, _, _, _, rfl,
      iff_of_false (by simp) fun ⟨_, h, _⟩ ↦ hno h⟩)
  | some options =>
    have hthis {options' : CliOptions} (h : (parseCli arguments).options = some options') :
        options' = options := Option.some.inj (h.symm.trans hparsed)
    dsimp only
    by_cases hhelp : options.help = true
    · rw [if_pos hhelp]
      refine Or.inr (Or.inl ⟨fun ⟨_, h, hno, _⟩ ↦ ?_, fun m ⟨_, _, h, hno, _⟩ ↦ ?_, _, _, _, rfl,
        iff_of_true rfl ⟨options, hparsed, hhelp⟩⟩)
      · rw [hthis h, hhelp] at hno
        cases hno
      · rw [hthis h, hhelp] at hno
        cases hno
    rw [if_neg hhelp]
    rcases MachineConfig.buildMachine_cases { cli := options } files with
      ⟨hthrows, what, hwhat⟩ | ⟨built, hbuilt, hthrows, hanswers⟩
    · rw [hwhat]
      exact Or.inl ⟨⟨options, hparsed, by simpa using hhelp, hthrows⟩, what, rfl⟩
    rw [hbuilt]
    dsimp only
    cases hmachine : built.machine with
    | none =>
      refine Or.inr (Or.inl ⟨fun ⟨_, h, _, hno⟩ ↦ hthrows (hthis h ▸ hno), ?_, _, _, _, rfl,
        iff_of_false (exitCode_of_answers hanswers hmachine) ?_⟩)
      · rintro m ⟨options', built', hoptions, -, hbuilt', hm⟩
        obtain rfl := hthis hoptions
        obtain rfl := Except.ok.inj (hbuilt.symm.trans hbuilt')
        rw [hmachine] at hm
        cases hm
      · rintro ⟨options', hoptions, hasks⟩
        obtain rfl := hthis hoptions
        exact hhelp hasks
    | some m =>
      exact Or.inr (Or.inr
        ⟨m, ⟨options, built, hparsed, by simpa using hhelp, hbuilt, hmachine⟩, rfl⟩)

theorem Starts.unique {arguments : List String} {files : HostFiles} {m m' : BuiltMachine}
    (h : Starts arguments files m) (h' : Starts arguments files m') : m' = m := by
  obtain ⟨options, built, hoptions, -, hbuilt, hm⟩ := h
  obtain ⟨options', built', hoptions', -, hbuilt', hm'⟩ := h'
  obtain rfl := Option.some.inj (hoptions.symm.trans hoptions')
  obtain rfl := Except.ok.inj (hbuilt.symm.trans hbuilt')
  exact Option.some.inj (hm'.symm.trans hm)

end Courses

/-- **The program.**  Without a machine the program has called for nothing: it is terminated by the
exception that building throws, or else exits at once, with success only if it was asked for help.
With one it runs until the machine ends, and it is still running only if no stop signal has arrived,
with the handlers installed and the terminal in raw mode; when the run ends, with success only after
a stop signal, the program exits with the code of the run and the host is as it was before; if the
process is killed in a call of the block device, the terminal is left in raw mode; and if the host
refuses a call, the program exits with a failure of resources, and the host is as it was before if
only it takes that back. -/
theorem mainProgram_spec (constants : TermiosConstants) (name : String) (arguments : List String)
    (files : HostFiles) (events : List HostEvent) {model : HostModel} (h : Host model) :
    let done := (mainProgram constants name arguments files events).run Host.answer h
    ((∀ m, ¬ Starts arguments files m) → done.2 = h ∧
      (Throws arguments files → ∃ what, done.1 = .terminated what) ∧
      (¬ Throws arguments files → ∃ code out err, done.1 = .exited code out err ∧
        (code = .success ↔ AsksForHelp arguments))) ∧
      ∀ m, Starts arguments files m →
        Course model constants m events h.settings done.1 done.2 ∧
        ((runOf m events).result = none → ∀ event ∈ events, event.signal = false) ∧
        ∀ result, (runOf m events).result = some (.returned result) →
          result.exitCode = .success → ∃ event ∈ events, event.signal = true := by
  intro done
  have hends {process : Process}
      (hprogram : mainProgram constants name arguments files events = (return process)) :
      done = (process, h) := by
    rw [← Dialogue.run_pure Host.answer h process, ← hprogram]
  rcases mainProgram_cases constants name arguments files events with
    ⟨hthrows, what, hterminated⟩ | ⟨hno, hnone, code, out, err, hexit, hcode⟩ | ⟨m, hstarts, hrun⟩
  · refine ⟨fun _ ↦ ?_, fun m hstarts ↦ absurd hstarts (hthrows.not_starts m)⟩
    rw [hends hterminated]
    exact ⟨rfl, fun _ ↦ ⟨what, rfl⟩, fun hno ↦ absurd hthrows hno⟩
  · refine ⟨fun _ ↦ ?_, fun m hstarts ↦ absurd hstarts (hnone m)⟩
    rw [hends hexit]
    exact ⟨rfl, fun hthrows ↦ absurd hthrows hno, fun _ ↦ ⟨code, out, err, rfl, hcode⟩⟩
  · refine ⟨fun hno ↦ absurd hstarts (hno m), fun m' hstarts' ↦ ?_⟩
    obtain rfl := hstarts.unique hstarts'
    have hstops := stopRequested_turns_iff (s := {}) rfl events
    refine ⟨?_, fun hrunning event hevent ↦ ?_, fun result hresult hsuccess ↦ ?_⟩
    · have hcourse : (runProgram constants m' events).Ensures Host.answer h
          (Course model constants m' events h.settings) := runProgram_ensures
      rw [← hrun] at hcourse
      exact hcourse
    · by_contra hsignal
      rw [Bool.not_eq_false] at hsignal
      have hended : (runOf m' events).result.isSome = true :=
        Runner.result_of_stopRequested _ (hstops.2 ⟨event, hevent, hsignal⟩)
      rw [hrunning] at hended
      cases hended
    · have hlimit : ({} : RunOptions).maxIterations = 0#64 := rfl
      exact hstops.1 (Runner.stopRequested_of_success hlimit rfl hresult hsuccess)

end Rvemu
