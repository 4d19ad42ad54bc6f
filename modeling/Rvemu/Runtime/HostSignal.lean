import Rvemu.Platform.HostCalls

/-!
# Signals of the host

SIGINT and SIGTERM are turned into a flag that the loop looks at.  The handlers that were there
before are put back when only one of the two can be installed, and at the end.
-/

set_option autoImplicit false

namespace Rvemu

open HostDialogue

structure HostSignalResult where
  success : Bool := true
  errnoValue : Int := 0
  detail : String := ""
  deriving DecidableEq, Repr

def HostSignalResult.failure (errno : Int) (detail : String) : HostSignalResult :=
  { success := false, errnoValue := errno, detail }

/-- The globals of the module. -/
structure HostSignals where
  stopRequested : Bool := false
  installed : Bool := false
  previousInt : SignalAction := .default
  previousTerm : SignalAction := .default
  deriving DecidableEq, Repr

namespace HostSignals

/-- The handler. -/
def handleStopSignal (s : HostSignals) : HostSignals := { s with stopRequested := true }

def clearHostStopRequest (s : HostSignals) : HostSignals := { s with stopRequested := false }

def install (s : HostSignals) : HostDialogue (HostSignalResult × HostSignals) :=
  if s.installed then return ({}, s)
  else do
  let s := s.clearHostStopRequest
  match ← query (.sigaction .interrupt .stop) (·.handlers .interrupt) with
  | .error errno => return (.failure errno "安装 SIGINT handler 失败", s)
  | .ok previous =>
  let s := { s with previousInt := previous }
  match ← query (.sigaction .terminate .stop) (·.handlers .terminate) with
  | .error errno =>
    let _ ← request (.sigaction .interrupt s.previousInt)
    return (.failure errno "安装 SIGTERM handler 失败", s)
  | .ok previous => return ({}, { s with previousTerm := previous, installed := true })

/-- Both handlers are tried; the first failure is the result. -/
def restore (s : HostSignals) : HostDialogue (HostSignalResult × HostSignals) :=
  if !s.installed then return ({}, s)
  else do
  let int ← request (.sigaction .interrupt s.previousInt)
  let term ← request (.sigaction .terminate s.previousTerm)
  let s := { s with installed := false }.clearHostStopRequest
  match int, term with
  | some errno, _ => return (.failure errno "恢复 SIGINT handler 失败", s)
  | none, some errno => return (.failure errno "恢复 SIGTERM handler 失败", s)
  | none, none => return ({}, s)

end HostSignals

/-! ## What the operations do -/

/-- The settings with both handlers installed. -/
def HostSettings.stopping (s : HostSettings) : HostSettings :=
  { s with handlers := fun _ ↦ .stop }

namespace HostSignals

/-- Both handlers are installed, and those of `original` are saved. -/
structure Saves (original : HostSettings) (s : HostSignals) : Prop where
  installed : s.installed = true
  int : s.previousInt = original.handlers .interrupt
  term : s.previousTerm = original.handlers .terminate

/-- The handlers, or what is left of the attempt. -/
structure Installed (model : HostModel) (original : HostSettings)
    (r : HostSignalResult × HostSignals) (h : Host model) : Prop where
  stopping : r.1.success = true → h.settings = original.stopping
  saves : r.1.success = true → r.2.Saves original
  cleared : r.1.success = true → r.2.stopRequested = false
  rolledBack : r.1.success = false → model.TakesHandlers original → h.settings = original
  grants : model.Grants → r.1.success = true

/-- The handlers are put back, unless the host has refused that. -/
structure Restored (model : HostModel) (original before : HostSettings) (ok : Bool)
    (h : Host model) : Prop where
  settings : ok = true → h.settings = { before with handlers := original.handlers }
  attributes : h.settings.attributes = before.attributes
  flags : h.settings.flags = before.flags
  takes : model.TakesHandlers original → ok = true

section Operations

variable {model : HostModel} {original : HostSettings} {s : HostSignals} {h : Host model}

theorem install_ensures (hno : s.installed = false) :
    s.install.Ensures Host.answer h (Installed model h.settings) := by
  rw [install, if_neg (by simp [hno])]
  refine .bind (Host.query_ensures _ _ (fun h₁ hsettings₁ ↦ ?_)
    fun errno h₁ hsettings₁ ⟨time, hrefuses⟩ ↦ ?_) fun _ _ h ↦ h
  swap
  · exact .pure ⟨fun h ↦ (by cases h), fun h ↦ (by cases h), fun h ↦ (by cases h),
      fun _ _ ↦ hsettings₁, fun h ↦ absurd h (HostModel.not_grants hrefuses)⟩
  refine .bind (Host.query_ensures _ _ (fun h₂ hsettings₂ ↦ ?_)
    fun errno h₂ hsettings₂ ⟨time, hrefuses⟩ ↦ ?_) fun _ _ h ↦ h
  · refine .pure ⟨fun _ ↦ ?_, fun _ ↦ ⟨rfl, rfl, ?_⟩, fun _ ↦ rfl, fun h ↦ (by cases h),
      fun _ ↦ rfl⟩
    · rw [hsettings₂, hsettings₁]
      refine HostSettings.ext rfl rfl (funext fun signal ↦ ?_)
      cases signal <;> rfl
    · rw [hsettings₁]
      rfl
  · have hgrants := HostModel.not_grants hrefuses
    -- the handler of SIGINT has to go again
    refine .bind (Host.request_ensures _ (fun h₃ hsettings₃ ↦ ?_)
      fun errno' h₃ _ ⟨time', hrefuses'⟩ ↦ ?_) fun _ _ h ↦ h
    · refine .pure ⟨fun h ↦ (by cases h), fun h ↦ (by cases h), fun h ↦ (by cases h), fun _ _ ↦ ?_,
        fun h ↦ absurd h hgrants⟩
      rw [hsettings₃, hsettings₂, hsettings₁]
      refine HostSettings.ext rfl rfl (funext fun signal ↦ ?_)
      cases signal <;> rfl
    · refine .pure ⟨fun h ↦ (by cases h), fun h ↦ (by cases h), fun h ↦ (by cases h),
        fun _ htakes ↦ ?_, fun h ↦ absurd h hgrants⟩
      have htaken : model.refuses time' (.sigaction .interrupt (h.settings.handlers .interrupt)) =
        none := htakes time' .interrupt
      exact absurd (htaken.symm.trans hrefuses') (by simp)

theorem restore_ensures (hsaves : s.Saves original) :
    s.restore.Ensures Host.answer h fun r h' ↦
      Restored model original h.settings r.1.success h' := by
  have hno (htakes : model.TakesHandlers original) (signal : StopSignal)
      {errno : Int} (hrefuses : ∃ time, model.refuses time
        (.sigaction signal (original.handlers signal)) = some errno) : False := by
    obtain ⟨time, hrefuses⟩ := hrefuses
    exact absurd ((htakes time signal).symm.trans hrefuses) (by simp)
  rw [restore, hsaves.installed, hsaves.int, hsaves.term, if_neg (by simp)]
  refine .bind (Host.request_ensures _ (fun h₁ hsettings₁ ↦ ?_)
    fun errno h₁ hsettings₁ hrefuses ↦ ?_) fun _ _ h ↦ h
  · refine .bind (Host.request_ensures _ (fun h₂ hsettings₂ ↦ ?_)
      fun errno h₂ hsettings₂ hrefuses ↦ ?_) fun _ _ h ↦ h
    · have hboth : h₂.settings = { h.settings with handlers := original.handlers } := by
        rw [hsettings₂, hsettings₁]
        refine HostSettings.ext rfl rfl (funext fun signal ↦ ?_)
        cases signal <;> rfl
      exact .pure ⟨fun _ ↦ hboth, by rw [hboth], by rw [hboth], fun _ ↦ rfl⟩
    · refine .pure ⟨fun h ↦ (by cases h), ?_, ?_, fun htakes ↦ (hno htakes _ hrefuses).elim⟩
      · rw [hsettings₂, hsettings₁]
        rfl
      · rw [hsettings₂, hsettings₁]
        rfl
  · refine .bind (Q := fun _ h' ↦ h'.settings.attributes = h.settings.attributes ∧
      h'.settings.flags = h.settings.flags) (Host.request_ensures _ (fun h₂ hsettings₂ ↦ ?_)
      fun errno h₂ hsettings₂ _ ↦ ?_) fun term h₂ hsame ↦ ?_
    · rw [hsettings₂, hsettings₁]
      exact ⟨rfl, rfl⟩
    · rw [hsettings₂, hsettings₁]
      exact ⟨rfl, rfl⟩
    · exact .pure ⟨fun h ↦ (by cases h), hsame.1, hsame.2,
        fun htakes ↦ (hno htakes _ hrefuses).elim⟩

end Operations

end HostSignals

end Rvemu
