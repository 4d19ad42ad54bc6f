import Rvemu.Platform.HostCalls
import Rvemu.Lib.Runs

/-!
# The terminal guard

`TerminalBackend` saves the attributes of the terminal and the flags of its descriptor before it
changes them, and puts them back when a step of the change fails, when it is asked to and when it is
destroyed.  A failure to put something back is reported by `restore` only, and what was saved is
forgotten with it.

Whatever is done with the backend, the settings are those of raw mode while it is active and the
original ones while it is not, on a host that takes back what it had (`terminal_guarded`).
-/

set_option autoImplicit false

namespace Rvemu

open Dialogue (Ensures)
open HostDialogue

/-! ## The backend -/

inductive TerminalErrorCode
  | none | notTty | termiosFailure | fcntlFailure | ioFailure
  deriving DecidableEq, Repr

structure TerminalResult where
  code : TerminalErrorCode := .none
  errnoValue : Int := 0
  detail : String := ""
  deriving DecidableEq, Repr

namespace TerminalResult

def ok (r : TerminalResult) : Bool := r.code == .none

def success : TerminalResult := {}

def failure (code : TerminalErrorCode) (errno : Int) (detail : String) : TerminalResult :=
  { code, errnoValue := errno, detail }

end TerminalResult

/-- The attributes of raw mode: no line editing, no echo, no signals, no conversions. -/
def makeRaw (constants : TermiosConstants) (value : Termios) : Termios :=
  let k := constants
  { value with
    iflag := value.iflag &&& ~~~(k.brkint ||| k.icrnl ||| k.inpck ||| k.istrip ||| k.ixon)
    oflag := value.oflag &&& ~~~k.opost
    cflag := value.cflag ||| k.cs8
    lflag := value.lflag &&& ~~~(k.echo ||| k.icanon ||| k.iexten ||| k.isig)
    cc := fun i ↦ if i = k.vtime then 0#8 else if i = k.vmin then 0#8 else value.cc i }

structure TerminalBackend where
  termiosSaved : Bool := false
  flagsSaved : Bool := false
  active : Bool := false
  originalFlags : ℕ := 0
  originalTermios : Termios := {}

namespace TerminalBackend

/-- Nothing is saved any more. -/
def cleared (t : TerminalBackend) : TerminalBackend :=
  { t with active := false, termiosSaved := false, flagsSaved := false }

/-- Both parts are tried; the first failure is the result. -/
def restore (t : TerminalBackend) : HostDialogue (TerminalResult × TerminalBackend) := do
  let termios ← requestIf t.termiosSaved (.tcsetattr t.originalTermios)
  let flags ← requestIf t.flagsSaved (.setFlags t.originalFlags)
  match termios, flags with
  | some errno, _ => return (.failure .termiosFailure errno "恢复原始 termios 失败", t.cleared)
  | none, some errno => return (.failure .fcntlFailure errno "恢复 input fd flags 失败", t.cleared)
  | none, none => return (.success, t.cleared)

/-- Restore, whatever comes of it, and report the failure that led here. -/
def rollBack (t : TerminalBackend) (failure : TerminalResult) :
    HostDialogue (TerminalResult × TerminalBackend) := do
  let restored ← t.restore
  return (failure, restored.2)

def activateRaw (constants : TermiosConstants) (t : TerminalBackend) :
    HostDialogue (TerminalResult × TerminalBackend) :=
  if t.active then return (.success, t)
  else do
  match ← request .isatty with
  | some errno => return (.failure .notTty errno "终端 Raw 模式要求 input fd 是 TTY", t)
  | none =>
  match ← query .tcgetattr (·.attributes) with
  | .error errno => return (.failure .termiosFailure errno "读取原始 termios 失败", t)
  | .ok current =>
  let t := { t with originalTermios := current, termiosSaved := true }
  match ← query .getFlags (·.flags) with
  | .error errno => t.rollBack (.failure .fcntlFailure errno "读取 input fd flags 失败")
  | .ok flags =>
  let t := { t with originalFlags := flags, flagsSaved := true }
  match ← request (.tcsetattr (makeRaw constants current)) with
  | some errno => t.rollBack (.failure .termiosFailure errno "切换终端 Raw 模式失败")
  | none =>
  match ← request (.setFlags (flags ||| constants.nonblock)) with
  | some errno => t.rollBack (.failure .fcntlFailure errno "设置 input fd 非阻塞失败")
  | none => return (.success, { t with active := true })

end TerminalBackend

/-! ## What the operations do -/

/-- The settings in raw mode. -/
def HostSettings.raw (model : HostModel) (constants : TermiosConstants) (s : HostSettings) :
    HostSettings :=
  { s with
    attributes := model.settle (makeRaw constants s.attributes)
    flags := s.flags ||| constants.nonblock }

namespace TerminalBackend

/-- What is saved is that of `original`, and what is not saved has not changed. -/
structure Saves (original : HostSettings) (t : TerminalBackend) (s : HostSettings) : Prop where
  termios : t.termiosSaved = true → t.originalTermios = original.attributes
  flags : t.flagsSaved = true → t.originalFlags = original.flags
  attributes_eq : t.termiosSaved = false → s.attributes = original.attributes
  flags_eq : t.flagsSaved = false → s.flags = original.flags
  handlers_eq : s.handlers = original.handlers

/-- Nothing is saved. -/
structure Idle (t : TerminalBackend) : Prop where
  termios : t.termiosSaved = false
  flags : t.flagsSaved = false
  active : t.active = false

theorem idle_cleared (t : TerminalBackend) : t.cleared.Idle := ⟨rfl, rfl, rfl⟩

/-- With nothing saved there is nothing to do. -/
theorem Idle.restore_eq {t : TerminalBackend} (h : t.Idle) :
    t.restore = return (.success, t.cleared) := by
  rw [restore, h.termios, h.flags]
  rfl

/-- The settings are put back, unless the host has refused that. -/
structure Restored (model : HostModel) (original : HostSettings) (ok : Bool)
    (h : Host model) : Prop where
  settings : ok = true → h.settings = original
  handlers : h.settings.handlers = original.handlers
  takes : model.TakesTerminal original → ok = true

section Operations

variable {model : HostModel} {original : HostSettings} {t : TerminalBackend} {h : Host model}
  {constants : TermiosConstants}

theorem restore_ensures (hsaves : t.Saves original h.settings)
    (hsettled : model.settle original.attributes = original.attributes) :
    t.restore.Ensures Host.answer h fun r h' ↦
      r.2 = t.cleared ∧ Restored model original r.1.ok h' := by
  have hattributes : (requestIf t.termiosSaved (.tcsetattr t.originalTermios)).Ensures Host.answer h
      fun errno h' ↦ (errno = none → h'.settings.attributes = original.attributes) ∧
        h'.settings.flags = h.settings.flags ∧ h'.settings.handlers = h.settings.handlers ∧
        (model.TakesTerminal original → errno = none) := by
    refine Host.requestIf_ensures _ _ (fun hno ↦ ?_) (fun hsaved h' hsettings ↦ ?_)
      fun hsaved errno h' hsettings hrefuses ↦ ?_
    · exact ⟨fun _ ↦ hsaves.attributes_eq hno, rfl, rfl, fun _ ↦ rfl⟩
    · rw [hsettings, hsaves.termios hsaved]
      exact ⟨fun _ ↦ hsettled, rfl, rfl, fun _ ↦ rfl⟩
    · rw [hsettings]
      refine ⟨fun h ↦ (by cases h), rfl, rfl, fun htakes ↦ ?_⟩
      obtain ⟨time, hrefuses⟩ := hrefuses
      rw [hsaves.termios hsaved, htakes.attributes] at hrefuses
      cases hrefuses
  refine .bind hattributes fun termios h₁ ⟨hattributes, hflags, hhandlers, htermios⟩ ↦ ?_
  have hdone : (requestIf t.flagsSaved (.setFlags t.originalFlags)).Ensures Host.answer h₁
      fun errno h' ↦ (errno = none → h'.settings.flags = original.flags) ∧
        h'.settings.attributes = h₁.settings.attributes ∧
        h'.settings.handlers = original.handlers ∧
        (model.TakesTerminal original → errno = none) := by
    refine Host.requestIf_ensures _ _ (fun hno ↦ ?_) (fun hsaved h' hsettings ↦ ?_)
      fun hsaved errno h' hsettings hrefuses ↦ ?_
    · exact ⟨fun _ ↦ hflags.trans (hsaves.flags_eq hno), rfl, hhandlers.trans hsaves.handlers_eq,
        fun _ ↦ rfl⟩
    · rw [hsettings, hsaves.flags hsaved]
      exact ⟨fun _ ↦ rfl, rfl, hhandlers.trans hsaves.handlers_eq, fun _ ↦ rfl⟩
    · rw [hsettings]
      refine ⟨fun h ↦ (by cases h), rfl, hhandlers.trans hsaves.handlers_eq, fun htakes ↦ ?_⟩
      obtain ⟨time, hrefuses⟩ := hrefuses
      rw [hsaves.flags hsaved, htakes.flags] at hrefuses
      cases hrefuses
  refine .bind hdone fun flags h₂ ⟨hflags, hsame, hhandlers, hfcntl⟩ ↦ ?_
  match termios, flags with
  | some errno, _ =>
    exact .pure ⟨rfl, fun h ↦ (by cases h), hhandlers, fun htakes ↦ (by cases htermios htakes)⟩
  | none, some errno =>
    exact .pure ⟨rfl, fun h ↦ (by cases h), hhandlers, fun htakes ↦ (by cases hfcntl htakes)⟩
  | none, none =>
    exact .pure ⟨rfl,
      fun _ ↦ HostSettings.ext (hsame.trans (hattributes rfl)) (hflags rfl) hhandlers, hhandlers,
      fun _ ↦ rfl⟩

/-- Raw mode, or what is left of the attempt. -/
structure Activated (model : HostModel) (constants : TermiosConstants) (original : HostSettings)
    (r : TerminalResult × TerminalBackend) (h : Host model) : Prop where
  raw : r.1.ok = true → h.settings = original.raw model constants
  active : r.1.ok = true → r.2.active = true
  saves : r.1.ok = true → r.2.Saves original h.settings
  idle : r.1.ok = false → r.2.Idle
  handlers : h.settings.handlers = original.handlers
  rolledBack : r.1.ok = false → model.TakesTerminal original → h.settings = original
  grants : model.Grants → r.1.ok = true

/-- A step that has failed is followed by a restore. -/
theorem rollBack_ensures (hsaves : t.Saves original h.settings)
    (hsettled : model.settle original.attributes = original.attributes) {failure : TerminalResult}
    (hfailure : failure.ok = false) (hrefuses : ∃ time call errno,
      model.refuses time call = some errno) :
    (t.rollBack failure).Ensures Host.answer h (Activated model constants original) := by
  refine .bind (restore_ensures hsaves hsettled) fun restored h' ⟨hcleared, hrestored⟩ ↦ .pure ?_
  have hno : ¬ failure.ok = true := by simp [hfailure]
  refine ⟨fun h ↦ absurd h hno, fun h ↦ absurd h hno, fun h ↦ absurd h hno, fun _ ↦ ?_,
    hrestored.handlers, fun _ htakes ↦ hrestored.settings (hrestored.takes htakes),
    fun hgrants ↦ ?_⟩
  · show restored.2.Idle
    rw [hcleared]
    exact t.idle_cleared
  · obtain ⟨_, _, _, hrefused⟩ := hrefuses
    exact absurd hgrants (HostModel.not_grants hrefused)

/-- A step that has failed before anything was changed. -/
theorem activated_of_untouched {r : TerminalResult × TerminalBackend} (hfailure : r.1.ok = false)
    (hidle : r.2.Idle) (hsame : h.settings = original)
    (hrefuses : ∃ time call errno, model.refuses time call = some errno) :
    Activated model constants original r h := by
  have hno : ¬ r.1.ok = true := by simp [hfailure]
  refine ⟨fun h ↦ absurd h hno, fun h ↦ absurd h hno, fun h ↦ absurd h hno, fun _ ↦ hidle,
    by rw [hsame], fun _ _ ↦ hsame, fun hgrants ↦ ?_⟩
  obtain ⟨_, _, _, hrefused⟩ := hrefuses
  exact absurd hgrants (HostModel.not_grants hrefused)

theorem activateRaw_ensures (constants : TermiosConstants) (h : Host model) (hidle : t.Idle) :
    (t.activateRaw constants).Ensures Host.answer h (Activated model constants h.settings) := by
  rw [activateRaw, if_neg (by simp [hidle.active])]
  refine .bind (Host.request_ensures _ (fun h₁ hsettings₁ ↦ ?_)
    fun errno h₁ hsettings₁ ⟨time, hrefuses⟩ ↦ ?_) fun _ _ h ↦ h
  swap
  · exact .pure (activated_of_untouched rfl hidle hsettings₁ ⟨time, _, _, hrefuses⟩)
  refine .bind (Host.query_ensures _ _ (fun h₂ hsettings₂ ↦ ?_)
    fun errno h₂ hsettings₂ ⟨time, hrefuses⟩ ↦ ?_) fun _ _ h ↦ h
  swap
  · exact .pure (activated_of_untouched rfl hidle (hsettings₂.trans hsettings₁)
      ⟨time, _, _, hrefuses⟩)
  replace hsettings₂ : h₂.settings = h.settings := hsettings₂.trans hsettings₁
  refine .bind (Host.query_ensures _ _ (fun h₃ hsettings₃ ↦ ?_)
    fun errno h₃ hsettings₃ ⟨time, hrefuses⟩ ↦ ?_) fun _ _ h ↦ h
  swap
  · refine rollBack_ensures ⟨fun _ ↦ congrArg HostSettings.attributes hsettings₁, fun h ↦ ?_,
      fun h ↦ (by cases h), fun _ ↦ ?_, ?_⟩ h.settled rfl ⟨time, _, _, hrefuses⟩
    · exact absurd (h.symm.trans hidle.flags) (by simp)
    · rw [hsettings₃, hsettings₂]
    · rw [hsettings₃, hsettings₂]
  replace hsettings₃ : h₃.settings = h.settings := hsettings₃.trans hsettings₂
  -- from here on everything is saved
  have hsaves (active : Bool) (s : HostSettings) (hhandlers : s.handlers = h.settings.handlers) :
      Saves h.settings
        { active, originalTermios := h₁.settings.attributes, termiosSaved := true
          originalFlags := h₂.settings.flags, flagsSaved := true } s :=
    ⟨fun _ ↦ congrArg HostSettings.attributes hsettings₁,
      fun _ ↦ congrArg HostSettings.flags hsettings₂, fun h ↦ (by cases h), fun h ↦ (by cases h),
      hhandlers⟩
  refine .bind (Host.request_ensures _ (fun h₄ hsettings₄ ↦ ?_)
    fun errno h₄ hsettings₄ ⟨time, hrefuses⟩ ↦ ?_) fun _ _ h ↦ h
  swap
  · exact rollBack_ensures (hsaves _ _ (by rw [hsettings₄, hsettings₃])) h.settled rfl
      ⟨time, _, _, hrefuses⟩
  replace hsettings₄ : h₄.settings =
      { h.settings with
        attributes := model.settle (makeRaw constants h.settings.attributes) } := by
    rw [hsettings₄, hsettings₃, hsettings₁]
    rfl
  refine .bind (Host.request_ensures _ (fun h₅ hsettings₅ ↦ ?_)
    fun errno h₅ hsettings₅ ⟨time, hrefuses⟩ ↦ ?_) fun _ _ h ↦ h
  swap
  · exact rollBack_ensures (hsaves _ _ (by rw [hsettings₅, hsettings₄])) h.settled rfl
      ⟨time, _, _, hrefuses⟩
  replace hsettings₅ : h₅.settings = h.settings.raw model constants := by
    rw [hsettings₅, hsettings₄, hsettings₂]
    rfl
  refine .pure ⟨fun _ ↦ hsettings₅, fun _ ↦ rfl, fun _ ↦ hsaves _ _ (by rw [hsettings₅]; rfl),
    fun h ↦ (by cases h), by rw [hsettings₅]; rfl, fun h ↦ (by cases h), fun _ ↦ rfl⟩

end Operations

/-! ## Any use of the guard -/

inductive Operation
  | activateRaw | restore

/-- The backend and its host after an operation. -/
def perform {model : HostModel} (constants : TermiosConstants)
    (s : TerminalBackend × Host model) : Operation → TerminalBackend × Host model
  | .activateRaw =>
    let done := (s.1.activateRaw constants).run Host.answer s.2
    (done.1.2, done.2)
  | .restore =>
    let done := s.1.restore.run Host.answer s.2
    (done.1.2, done.2)

/-- The backend between two operations. -/
inductive Guarded (model : HostModel) (constants : TermiosConstants) (original : HostSettings) :
    TerminalBackend × Host model → Prop
  | idle {t : TerminalBackend} {h : Host model} (hidle : t.Idle) (hsame : h.settings = original) :
    Guarded model constants original (t, h)
  | raw {t : TerminalBackend} {h : Host model} (hactive : t.active = true)
    (hsaves : t.Saves original h.settings) (hraw : h.settings = original.raw model constants) :
    Guarded model constants original (t, h)

section Guarded

variable {model : HostModel} {constants : TermiosConstants} {original : HostSettings}
  {s : TerminalBackend × Host model}

theorem Guarded.saves (h : Guarded model constants original s) :
    s.1.Saves original s.2.settings := by
  cases h with
  | idle hidle hsame =>
    exact ⟨fun h ↦ absurd (h.symm.trans hidle.termios) (by simp),
      fun h ↦ absurd (h.symm.trans hidle.flags) (by simp), fun _ ↦ congrArg _ hsame,
      fun _ ↦ congrArg _ hsame, congrArg _ hsame⟩
  | raw _ hsaves _ => exact hsaves

theorem Guarded.raw_of_active (h : Guarded model constants original s)
    (hactive : s.1.active = true) : s.2.settings = original.raw model constants := by
  cases h with
  | idle hidle _ => exact absurd (hactive.symm.trans hidle.active) (by simp)
  | raw _ _ hraw => exact hraw

theorem Guarded.same_of_not_active (h : Guarded model constants original s)
    (hno : s.1.active = false) : s.2.settings = original := by
  cases h with
  | idle _ hsame => exact hsame
  | raw hactive _ _ => exact absurd (hactive.symm.trans hno) (by simp)

/-- An attempt at raw mode reports what has become of it. -/
theorem Guarded.ok_activateRaw (h : Guarded model constants original s) :
    ((s.1.activateRaw constants).run Host.answer s.2).1.1.ok =
      (perform constants s .activateRaw).1.active := by
  cases h with
  | @idle t h hidle _ =>
    have hdone := activateRaw_ensures constants h hidle
    rw [Ensures] at hdone
    show _ = ((t.activateRaw constants).run Host.answer h).1.2.active
    cases hok : ((t.activateRaw constants).run Host.answer h).1.1.ok with
    | true => exact (hdone.active hok).symm
    | false => exact (hdone.idle hok).active.symm
  | raw hactive _ _ =>
    rw [perform, activateRaw, if_pos hactive]
    exact hactive.symm

/-- A restore ends with the original settings. -/
theorem Guarded.restored (h : Guarded model constants original s)
    (hsettled : model.settle original.attributes = original.attributes)
    (htakes : model.TakesTerminal original) :
    (perform constants s .restore).1.Idle ∧
      (perform constants s .restore).2.settings = original := by
  obtain ⟨hcleared, hrestored⟩ := restore_ensures h.saves hsettled
  refine ⟨?_, hrestored.settings (hrestored.takes htakes)⟩
  show (s.1.restore.run Host.answer s.2).1.2.Idle
  rw [hcleared]
  exact s.1.idle_cleared

theorem Guarded.perform (h : Guarded model constants original s)
    (hsettled : model.settle original.attributes = original.attributes)
    (htakes : model.TakesTerminal original) (operation : Operation) :
    Guarded model constants original (perform constants s operation) := by
  cases operation with
  | restore =>
    obtain ⟨hidle, hsame⟩ := h.restored hsettled htakes
    exact .idle hidle hsame
  | activateRaw =>
    cases h with
    | @idle t h hidle hsame =>
      obtain rfl := hsame
      have hdone := activateRaw_ensures constants h hidle
      rw [Ensures] at hdone
      cases hok : ((t.activateRaw constants).run Host.answer h).1.1.ok with
      | true => exact .raw (hdone.active hok) (hdone.saves hok) (hdone.raw hok)
      | false => exact .idle (hdone.idle hok) (hdone.rolledBack hok htakes)
    | raw hactive hsaves hraw =>
      rw [TerminalBackend.perform, activateRaw, if_pos hactive]
      exact .raw hactive hsaves hraw

/-- **The terminal guard.**  On a host that takes back the settings of its terminal, after any use
of the backend: the terminal is in raw mode while the backend is active, and as it was in the
beginning while it is not; an attempt at raw mode reports success exactly if the backend is active
then; and the destructor leaves the terminal as it was in the beginning. -/
theorem terminal_guarded (constants : TermiosConstants) (h : Host model)
    (htakes : model.TakesTerminal h.settings) (operations : List Operation) :
    let s := Runs.run (TerminalBackend.perform constants) ({}, h) operations
    (s.1.active = true → s.2.settings = h.settings.raw model constants) ∧
      (s.1.active = false → s.2.settings = h.settings) ∧
      ((s.1.activateRaw constants).run Host.answer s.2).1.1.ok =
        (TerminalBackend.perform constants s .activateRaw).1.active ∧
      (TerminalBackend.perform constants s .restore).2.settings = h.settings := by
  intro s
  have hguarded : Guarded model constants h.settings s :=
    Runs.run_induction (fun _ operation hs ↦ hs.perform h.settled htakes operation)
      (.idle ⟨rfl, rfl, rfl⟩ rfl) operations
  exact ⟨hguarded.raw_of_active, hguarded.same_of_not_active, hguarded.ok_activateRaw,
    (hguarded.restored h.settled htakes).2⟩

end Guarded

/-! ### A host that refuses the last step -/

def someConstants : TermiosConstants where
  brkint := 0x2#64
  icrnl := 0x100#64
  inpck := 0x10#64
  istrip := 0x20#64
  ixon := 0x200#64
  opost := 0x1#64
  cs8 := 0x300#64
  echo := 0x8#64
  icanon := 0x100#64
  iexten := 0x400#64
  isig := 0x80#64
  vmin := 16
  vtime := 17
  nonblock := 4

/-- Descriptors of this host cannot be made non-blocking. -/
def blockingModel : HostModel where
  refuses _
    | .setFlags flags => if flags = 6 then some 25 else none
    | _ => none
  settle := id
  settle_settle _ := rfl

def blockingHost : Host blockingModel where
  settings := { attributes := {}, flags := 2, handlers := fun _ ↦ .default }
  settled := rfl

/-- The attributes have been changed by then, and are put back. -/
theorem terminal_guarded_blocking :
    let s := Runs.run (TerminalBackend.perform someConstants) ({}, blockingHost) [.activateRaw]
    s.1.active = false ∧ s.2.settings = blockingHost.settings := by
  have htakes : blockingModel.TakesTerminal blockingHost.settings := ⟨fun _ ↦ rfl, fun _ ↦ rfl⟩
  obtain ⟨-, hsame, -⟩ := terminal_guarded someConstants blockingHost htakes [.activateRaw]
  exact ⟨rfl, hsame rfl⟩

end TerminalBackend

end Rvemu
