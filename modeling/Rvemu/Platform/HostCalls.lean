import Rvemu.Lib.Ensures
import Mathlib.Data.Nat.Notation

/-!
# The terminal and the signals of the host

What the program changes on its host are the attributes of a terminal, the flags of a descriptor and
the handlers of two signals.  The host may refuse any call, and then it leaves everything as it is.
A terminal may make something else of the attributes that it is asked for; what it has made of them
it takes as they are.
-/

set_option autoImplicit false

namespace Rvemu

/-! ## Settings -/

/-- The constants of the headers of the host. -/
structure TermiosConstants where
  brkint : BitVec 64
  icrnl : BitVec 64
  inpck : BitVec 64
  istrip : BitVec 64
  ixon : BitVec 64
  opost : BitVec 64
  cs8 : BitVec 64
  echo : BitVec 64
  icanon : BitVec 64
  iexten : BitVec 64
  isig : BitVec 64
  vmin : ℕ
  vtime : ℕ
  nonblock : ℕ

structure Termios where
  iflag : BitVec 64 := 0#64
  oflag : BitVec 64 := 0#64
  cflag : BitVec 64 := 0#64
  lflag : BitVec 64 := 0#64
  cc : ℕ → BitVec 8 := fun _ ↦ 0#8
  ispeed : BitVec 64 := 0#64
  ospeed : BitVec 64 := 0#64

/-- The signals that ask the program to stop. -/
inductive StopSignal
  | interrupt | terminate
  deriving DecidableEq, Repr

inductive SignalAction
  | default | ignore | stop | other (handler : BitVec 64)
  deriving DecidableEq, Repr

@[ext] structure HostSettings where
  attributes : Termios
  /-- The status flags of the input, which are not negative. -/
  flags : ℕ
  handlers : StopSignal → SignalAction

inductive HostCall
  | isatty
  | tcgetattr
  | tcsetattr (attributes : Termios)
  | getFlags
  | setFlags (flags : ℕ)
  | sigaction (signal : StopSignal) (action : SignalAction)

/-- A call is refused, or it is granted and has seen the settings in front of it. -/
inductive HostReply
  | refused (errno : Int)
  | granted (seen : HostSettings)

/-- The decisions of a host: which calls it refuses, and what its terminal makes of attributes. -/
structure HostModel where
  refuses : ℕ → HostCall → Option Int
  settle : Termios → Termios
  settle_settle : ∀ attributes, settle (settle attributes) = settle attributes

/-- What a granted call does to the settings. -/
def HostModel.after (model : HostModel) (s : HostSettings) : HostCall → HostSettings
  | .tcsetattr attributes => { s with attributes := model.settle attributes }
  | .setFlags flags => { s with flags }
  | .sigaction signal action =>
    { s with handlers := fun other ↦ if other = signal then action else s.handlers other }
  | _ => s

/-- The settings of a host after a number of calls. -/
structure Host (model : HostModel) where
  settings : HostSettings
  time : ℕ := 0
  settled : model.settle settings.attributes = settings.attributes

namespace Host

variable {model : HostModel}

theorem settled_after (h : Host model) (call : HostCall) :
    model.settle (model.after h.settings call).attributes =
      (model.after h.settings call).attributes := by
  cases call with
  | tcsetattr attributes => exact model.settle_settle attributes
  | _ => exact h.settled

def answer (h : Host model) (call : HostCall) : HostReply × Host model :=
  match model.refuses h.time call with
  | some errno => (.refused errno, { h with time := h.time + 1 })
  | none =>
    (.granted h.settings,
      { settings := model.after h.settings call, time := h.time + 1
        settled := h.settled_after call })

end Host

/-! ## Calls -/

abbrev HostDialogue := Dialogue HostCall HostReply

namespace HostDialogue

/-- A call that returns nothing but an error. -/
def request (call : HostCall) : HostDialogue (Option Int) := do
  match ← Dialogue.ask call with
  | .refused errno => pure (some errno)
  | .granted _ => pure none

/-- A call that is made under a condition, and whose error is looked at only then. -/
def requestIf (condition : Bool) (call : HostCall) : HostDialogue (Option Int) :=
  if condition then request call else return none

/-- A call that returns some of the settings. -/
def query {α : Type} (call : HostCall) (read : HostSettings → α) :
    HostDialogue (Except Int α) := do
  match ← Dialogue.ask call with
  | .refused errno => pure (.error errno)
  | .granted seen => pure (.ok (read seen))

end HostDialogue

namespace HostModel

variable (model : HostModel)

/-- The host takes back the settings that the terminal had. -/
structure TakesTerminal (original : HostSettings) : Prop where
  attributes : ∀ time, model.refuses time (.tcsetattr original.attributes) = none
  flags : ∀ time, model.refuses time (.setFlags original.flags) = none

/-- The host takes back the handlers. -/
def TakesHandlers (original : HostSettings) : Prop :=
  ∀ time signal, model.refuses time (.sigaction signal (original.handlers signal)) = none

/-- The host refuses nothing. -/
def Grants : Prop := ∀ time call, model.refuses time call = none

variable {model}

theorem Grants.takesTerminal (h : model.Grants) (original : HostSettings) :
    model.TakesTerminal original :=
  ⟨fun time ↦ h time _, fun time ↦ h time _⟩

theorem not_grants {time : ℕ} {call : HostCall} {errno : Int}
    (h : model.refuses time call = some errno) : ¬ model.Grants := by
  intro hgrants
  rw [hgrants] at h
  cases h

end HostModel

namespace Host

open Dialogue HostDialogue

variable {model : HostModel} {h : Host model}

/-- A call is granted and done, or refused, and then the settings are as they were. -/
theorem ask_ensures (call : HostCall) {Q : HostReply → Host model → Prop}
    (hgranted : ∀ h' : Host model, h'.settings = model.after h.settings call →
      Q (.granted h.settings) h')
    (hrefused : ∀ (errno : Int) (h' : Host model), h'.settings = h.settings →
      (∃ time, model.refuses time call = some errno) → Q (.refused errno) h') :
    (ask call).Ensures answer h Q := by
  refine .ask ?_
  rw [answer]
  split
  · next errno hrefuses => exact hrefused errno _ rfl ⟨_, hrefuses⟩
  · exact hgranted _ rfl

theorem request_ensures (call : HostCall) {Q : Option Int → Host model → Prop}
    (hgranted : ∀ h' : Host model, h'.settings = model.after h.settings call → Q none h')
    (hrefused : ∀ (errno : Int) (h' : Host model), h'.settings = h.settings →
      (∃ time, model.refuses time call = some errno) → Q (some errno) h') :
    (request call).Ensures answer h Q :=
  .bind (ask_ensures call (fun h' hsettings ↦ .pure (hgranted h' hsettings))
    fun errno h' hsettings hrefuses ↦ .pure (hrefused errno h' hsettings hrefuses)) fun _ _ h ↦ h

theorem requestIf_ensures (condition : Bool) (call : HostCall) {Q : Option Int → Host model → Prop}
    (hskipped : condition = false → Q none h)
    (hgranted : condition = true → ∀ h' : Host model,
      h'.settings = model.after h.settings call → Q none h')
    (hrefused : condition = true → ∀ (errno : Int) (h' : Host model), h'.settings = h.settings →
      (∃ time, model.refuses time call = some errno) → Q (some errno) h') :
    (requestIf condition call).Ensures answer h Q := by
  cases condition with
  | false => exact .pure (hskipped rfl)
  | true => exact request_ensures call (hgranted rfl) (hrefused rfl)

theorem query_ensures {α : Type} (call : HostCall) (read : HostSettings → α)
    {Q : Except Int α → Host model → Prop}
    (hgranted : ∀ h' : Host model, h'.settings = model.after h.settings call →
      Q (.ok (read h.settings)) h')
    (hrefused : ∀ (errno : Int) (h' : Host model), h'.settings = h.settings →
      (∃ time, model.refuses time call = some errno) → Q (.error errno) h') :
    (query call read).Ensures answer h Q :=
  .bind (ask_ensures call (fun h' hsettings ↦ .pure (hgranted h' hsettings))
    fun errno h' hsettings hrefuses ↦ .pure (hrefused errno h' hsettings hrefuses)) fun _ _ h ↦ h

end Host

end Rvemu
