import Rvemu.Core.Step

/-!
# Tracking of the extension contexts

A context (the f registers with `fcsr`, or the v registers with the vector CSRs) is only changed
while its field in `mstatus` is not Off, and the field is Dirty afterwards.  `Tracks` is that
statement about one change, made transitive: a change that leaves the context alone must also leave
the field alone.  CSR instructions and trap returns can move the field itself, so they are compared
with the state before the step directly.
-/

set_option autoImplicit false

namespace Rvemu

open Relation

/-! ## Tracked contexts -/

section Tracks

variable {σ α : Type} {view : σ → α} {on dirty : σ → Bool} {s t u : σ}

/-- The context is untouched, with its field, or it was on and is dirty now. -/
def Tracks (view : σ → α) (on dirty : σ → Bool) (s t : σ) : Prop :=
  (view t = view s ∧ on t = on s ∧ dirty t = dirty s) ∨ (on s = true ∧ dirty t = true)

theorem Tracks.refl (s : σ) : Tracks view on dirty s s := Or.inl ⟨rfl, rfl, rfl⟩

theorem Tracks.trans (h : Tracks view on dirty s t) (h' : Tracks view on dirty t u) :
    Tracks view on dirty s u := by
  rcases h with ⟨hv, ho, hd⟩ | ⟨ho, hd⟩
  · rcases h' with ⟨hv', ho', hd'⟩ | ⟨ho', hd'⟩
    · exact Or.inl ⟨hv'.trans hv, ho'.trans ho, hd'.trans hd⟩
    · exact Or.inr ⟨ho.symm.trans ho', hd'⟩
  · rcases h' with ⟨-, -, hd'⟩ | ⟨-, hd'⟩
    · exact Or.inr ⟨ho, hd'.trans hd⟩
    · exact Or.inr ⟨ho, hd'⟩

theorem Tracks.of_reflTransGen {r : σ → σ → Prop}
    (hstep : ∀ s t, r s t → Tracks view on dirty s t) (h : ReflTransGen r s t) :
    Tracks view on dirty s t := by
  induction h with
  | refl => exact Tracks.refl s
  | tail _ hr ih => exact ih.trans (hstep _ _ hr)

/-- What a change says about the context: it was on before and is dirty after. -/
def Marked (view : σ → α) (on dirty : σ → Bool) (s t : σ) : Prop :=
  view t ≠ view s → on s = true ∧ dirty t = true

theorem Tracks.marked (h : Tracks view on dirty s t) : Marked view on dirty s t := by
  intro hne
  rcases h with ⟨hv, -⟩ | h
  · exact absurd hv hne
  · exact h

/-- A last change that cannot be seen. -/
theorem Marked.of_eq {t' : σ} (h : Marked view on dirty s t) (hv : view t' = view t)
    (hd : dirty t' = dirty t) : Marked view on dirty s t' := by
  intro hne
  rw [hv] at hne
  rw [hd]
  exact h hne

end Tracks

/-! ## The two contexts -/

namespace CsrFile

def floatingStateDirty (c : CsrFile) : Bool := ((c.mstatus >>> 13) &&& 3#64) == 3#64

def vectorStateDirty (c : CsrFile) : Bool := ((c.mstatus >>> 9) &&& 3#64) == 3#64

variable (c : CsrFile)

theorem floatingStateDirty_eq :
    c.floatingStateDirty = (c.mstatus.getLsbD 13 && c.mstatus.getLsbD 14) :=
  Bits.field_two_eq_three _ _

theorem vectorStateDirty_eq :
    c.vectorStateDirty = (c.mstatus.getLsbD 9 && c.mstatus.getLsbD 10) :=
  Bits.field_two_eq_three _ _

theorem floatingStateDirty_mark (h : c.floatingStateEnabled = true) :
    c.markFloatingStateDirty.floatingStateDirty = true := by
  rw [floatingStateDirty_eq, getLsbD_mstatus_markFloatingStateDirty _ (by decide),
    getLsbD_mstatus_markFloatingStateDirty _ (by decide), h]
  simp

theorem vectorStateDirty_mark (h : c.vectorStateEnabled = true) :
    c.markVectorStateDirty.vectorStateDirty = true := by
  rw [vectorStateDirty_eq, getLsbD_mstatus_markVectorStateDirty _ (by decide),
    getLsbD_mstatus_markVectorStateDirty _ (by decide), h]
  simp

theorem floatingStateDirty_markVectorStateDirty :
    c.markVectorStateDirty.floatingStateDirty = c.floatingStateDirty := by
  rw [floatingStateDirty_eq, floatingStateDirty_eq,
    getLsbD_mstatus_markVectorStateDirty _ (by decide),
    getLsbD_mstatus_markVectorStateDirty _ (by decide)]
  simp

theorem vectorStateDirty_markFloatingStateDirty :
    c.markFloatingStateDirty.vectorStateDirty = c.vectorStateDirty := by
  rw [vectorStateDirty_eq, vectorStateDirty_eq,
    getLsbD_mstatus_markFloatingStateDirty _ (by decide),
    getLsbD_mstatus_markFloatingStateDirty _ (by decide)]
  simp

theorem floatingStateEnabled_markVectorStateDirty :
    c.markVectorStateDirty.floatingStateEnabled = c.floatingStateEnabled := by
  rw [floatingStateEnabled_eq, floatingStateEnabled_eq,
    getLsbD_mstatus_markVectorStateDirty _ (by decide),
    getLsbD_mstatus_markVectorStateDirty _ (by decide)]
  simp

end CsrFile

namespace CpuState

/-- The floating context. -/
def floatingContext (s : CpuState) : (BitVec 5 → BitVec 64) × BitVec 8 :=
  (s.floatingRegisters, s.csrs.fcsr)

/-- The vector context: the registers, then `vl`, `vtype`, `vstart`, `vxrm` and `vxsat`. -/
def vectorContext (s : CpuState) :
    VectorState × BitVec 64 × BitVec 64 × BitVec 64 × BitVec 8 × BitVec 8 :=
  (s.vectorState, s.csrs.vl, s.csrs.vtype, s.csrs.vstart, s.csrs.vxrm, s.csrs.vxsat)

end CpuState

abbrev FloatingTracks : CpuState → CpuState → Prop :=
  Tracks CpuState.floatingContext (·.csrs.floatingStateEnabled) (·.csrs.floatingStateDirty)

abbrev VectorTracks : CpuState → CpuState → Prop :=
  Tracks CpuState.vectorContext (·.csrs.vectorStateEnabled) (·.csrs.vectorStateDirty)

/-! ## Updates -/

theorem setInteger_eq (s : CpuState) (index : BitVec 5) (value : BitVec 64) :
    s.setInteger index value =
      { s with integerRegisters := (s.setInteger index value).integerRegisters } := by
  rw [CpuState.setInteger]
  split <;> rfl

/-- Marking the vector state is invisible to the floating context. -/
theorem FloatingTracks.of_markVectorStateDirty {s s' : CpuState} {csrs : CsrFile}
    (hs : s'.floatingRegisters = s.floatingRegisters) (hc : s'.csrs = csrs.markVectorStateDirty)
    (hf : csrs.fcsr = s.csrs.fcsr) (hm : csrs.mstatus = s.csrs.mstatus) : FloatingTracks s s' := by
  refine Or.inl ⟨?_, ?_, ?_⟩
  · rw [CpuState.floatingContext, CpuState.floatingContext, hs, hc,
      csrs.markVectorStateDirty_eq, hf]
  · dsimp only
    rw [hc, CsrFile.floatingStateEnabled_markVectorStateDirty, CsrFile.floatingStateEnabled, hm]
    rfl
  · dsimp only
    rw [hc, CsrFile.floatingStateDirty_markVectorStateDirty, CsrFile.floatingStateDirty, hm]
    rfl

/-- And the other way round. -/
theorem VectorTracks.of_markFloatingStateDirty {s s' : CpuState} {csrs : CsrFile}
    (hs : s'.vectorState = s.vectorState) (hc : s'.csrs = csrs.markFloatingStateDirty)
    (hf : ∃ fcsr, csrs = { s.csrs with fcsr }) : VectorTracks s s' := by
  obtain ⟨fcsr, rfl⟩ := hf
  refine Or.inl ⟨?_, ?_, ?_⟩
  · rw [CpuState.vectorContext, CpuState.vectorContext, hs, hc, CsrFile.markFloatingStateDirty_eq]
  · dsimp only
    rw [hc, CsrFile.vectorStateEnabled_markFloatingStateDirty]
    rfl
  · dsimp only
    rw [hc, CsrFile.vectorStateDirty_markFloatingStateDirty]
    rfl

theorem Update.floatingTracks {s s' : CpuState} (h : Update s s') : FloatingTracks s s' := by
  cases h with
  | integer index value =>
    rw [setInteger_eq]
    exact Or.inl ⟨rfl, rfl, rfl⟩
  | floating hon index value => exact Or.inr ⟨hon, CsrFile.floatingStateDirty_mark _ hon⟩
  | flags flags =>
    rw [CpuState.accrueFlags, CpuState.modifyCsrs, CsrFile.accrueFloatingExceptionFlags]
    split
    · exact Tracks.refl s
    · next hon =>
      rw [Bool.or_eq_true, not_or, Bool.not_eq_true, Bool.not_eq_false'] at hon
      exact Or.inr ⟨hon.1, CsrFile.floatingStateDirty_mark _ hon.1⟩
  | element hon hs =>
    obtain ⟨v, -, rfl⟩ := setVectorElement_eq_some hs
    exact .of_markVectorStateDirty rfl rfl rfl rfl
  | startAt hon element => exact .of_markVectorStateDirty rfl rfl rfl rfl
  | clearStart hon => exact .of_markVectorStateDirty rfl rfl rfl rfl
  | configuration hon hc => exact .of_markVectorStateDirty rfl rfl rfl rfl
  | token token => exact Or.inl ⟨rfl, rfl, rfl⟩
  | waiting value => exact Or.inl ⟨rfl, rfl, rfl⟩
  | jump ht => exact Or.inl ⟨rfl, rfl, rfl⟩

theorem Update.vectorTracks {s s' : CpuState} (h : Update s s') : VectorTracks s s' := by
  cases h with
  | integer index value =>
    rw [setInteger_eq]
    exact Or.inl ⟨rfl, rfl, rfl⟩
  | floating hon index value => exact .of_markFloatingStateDirty rfl rfl ⟨s.csrs.fcsr, rfl⟩
  | flags flags =>
    rw [CpuState.accrueFlags, CpuState.modifyCsrs, CsrFile.accrueFloatingExceptionFlags]
    split
    · exact Tracks.refl s
    · exact .of_markFloatingStateDirty rfl rfl ⟨_, rfl⟩
  | element hon hs =>
    obtain ⟨v, -, rfl⟩ := setVectorElement_eq_some hs
    exact Or.inr ⟨hon, CsrFile.vectorStateDirty_mark _ hon⟩
  | startAt hon element => exact Or.inr ⟨hon, CsrFile.vectorStateDirty_mark _ hon⟩
  | clearStart hon => exact Or.inr ⟨hon, CsrFile.vectorStateDirty_mark _ hon⟩
  | configuration hon hc => exact Or.inr ⟨hon, CsrFile.vectorStateDirty_mark _ hon⟩
  | token token => exact Or.inl ⟨rfl, rfl, rfl⟩
  | waiting value => exact Or.inl ⟨rfl, rfl, rfl⟩
  | jump ht => exact Or.inl ⟨rfl, rfl, rfl⟩

/-! ## CSR instructions -/

namespace CsrFile

variable {c : CsrFile} {address : CsrAddress} {privilege : PrivilegeMode} {write : Bool}

/-- A successful access either reads, or writes what it is allowed to. -/
theorem access_cases {request : CsrAccessRequest} (h : (c.access request).1.success = true) :
    (c.access request).2 = c ∨
    ∃ address value, c.accessAllowed address request.privilege true = true ∧
      (c.access request).2 = c.writeValue address value := by
  rw [access] at h ⊢
  split at h
  · cases h
  · next address _ =>
    split at h
    · cases h
    · next hallowed =>
      rw [Bool.not_eq_true, Bool.not_eq_false'] at hallowed
      rw [if_neg (by rw [hallowed]; decide)]
      cases hw : request.write with
      | false => exact Or.inl rfl
      | true =>
        rw [hw] at hallowed
        exact Or.inr ⟨address, _, hallowed, rfl⟩

theorem floatingStateEnabled_of_allowed (h : c.accessAllowed address privilege write = true)
    (hf : address.isFloating = true) : c.floatingStateEnabled = true := by
  rw [accessAllowed] at h
  by_contra hoff
  rw [Bool.not_eq_true] at hoff
  rw [hf, hoff, if_pos (by decide)] at h
  cases h

theorem vectorStateEnabled_of_allowed (h : c.accessAllowed address privilege write = true)
    (hv : address.isVector = true) : c.vectorStateEnabled = true := by
  have hf : address.isFloating = false := by cases address <;> first | rfl | cases hv
  rw [accessAllowed, hf, Bool.false_and, if_neg (by decide)] at h
  by_contra hoff
  rw [Bool.not_eq_true] at hoff
  rw [hv, hoff, if_pos (by decide)] at h
  cases h

theorem writeValue_floating (hon : address.isFloating = true → c.floatingStateEnabled = true)
    (value : BitVec 64) (h : (c.writeValue address value).fcsr ≠ c.fcsr) :
    c.floatingStateEnabled = true ∧ (c.writeValue address value).floatingStateDirty = true := by
  cases address with
  | fflags => exact ⟨hon rfl, floatingStateDirty_mark _ (hon rfl)⟩
  | frm => exact ⟨hon rfl, floatingStateDirty_mark _ (hon rfl)⟩
  | fcsr => exact ⟨hon rfl, floatingStateDirty_mark _ (hon rfl)⟩
  | vstart | vxsat | vxrm | vcsr =>
    rw [writeValue, markVectorStateDirty_eq] at h
    exact absurd rfl h
  | satp =>
    rw [writeValue] at h
    split at h <;> exact absurd rfl h
  | _ => exact absurd rfl h

/-- The CSRs of the vector context. -/
def vectorView (c : CsrFile) : BitVec 64 × BitVec 64 × BitVec 64 × BitVec 8 × BitVec 8 :=
  (c.vl, c.vtype, c.vstart, c.vxrm, c.vxsat)

theorem writeValue_vector (hon : address.isVector = true → c.vectorStateEnabled = true)
    (value : BitVec 64) (h : (c.writeValue address value).vectorView ≠ c.vectorView) :
    c.vectorStateEnabled = true ∧ (c.writeValue address value).vectorStateDirty = true := by
  cases address with
  | vstart => exact ⟨hon rfl, vectorStateDirty_mark _ (hon rfl)⟩
  | vxsat => exact ⟨hon rfl, vectorStateDirty_mark _ (hon rfl)⟩
  | vxrm => exact ⟨hon rfl, vectorStateDirty_mark _ (hon rfl)⟩
  | vcsr => exact ⟨hon rfl, vectorStateDirty_mark _ (hon rfl)⟩
  | fflags | frm | fcsr =>
    rw [writeValue, markFloatingStateDirty_eq] at h
    exact absurd rfl h
  | satp =>
    rw [writeValue] at h
    split at h <;> exact absurd rfl h
  | _ => exact absurd rfl h

end CsrFile

/-! ## Steps -/

abbrev FloatingMarked : CpuState → CpuState → Prop :=
  Marked CpuState.floatingContext (·.csrs.floatingStateEnabled) (·.csrs.floatingStateDirty)

abbrev VectorMarked : CpuState → CpuState → Prop :=
  Marked CpuState.vectorContext (·.csrs.vectorStateEnabled) (·.csrs.vectorStateDirty)

theorem FloatingMarked.access {s : CpuState} {request : CsrAccessRequest}
    (h : (s.csrs.access request).1.success = true) :
    FloatingMarked s { s with csrs := (s.csrs.access request).2 } := by
  intro hne
  rcases CsrFile.access_cases h with heq | ⟨address, value, hallowed, heq⟩
  · rw [heq] at hne
    exact absurd rfl hne
  · rw [heq] at hne ⊢
    refine CsrFile.writeValue_floating (CsrFile.floatingStateEnabled_of_allowed hallowed) value ?_
    intro hsame
    exact hne (congrArg (Prod.mk s.floatingRegisters) hsame)

theorem VectorMarked.access {s : CpuState} {request : CsrAccessRequest}
    (h : (s.csrs.access request).1.success = true) :
    VectorMarked s { s with csrs := (s.csrs.access request).2 } := by
  intro hne
  rcases CsrFile.access_cases h with heq | ⟨address, value, hallowed, heq⟩
  · rw [heq] at hne
    exact absurd rfl hne
  · rw [heq] at hne ⊢
    refine CsrFile.writeValue_vector (CsrFile.vectorStateEnabled_of_allowed hallowed) value ?_
    intro hsame
    exact hne (congrArg (Prod.mk s.vectorState) hsame)

theorem Retired.floatingMarked {bits : BitVec 32} {s s' : CpuState} (h : Retired bits s s') :
    FloatingMarked s s' := by
  cases h with
  | updates h => exact (Tracks.of_reflTransGen (fun _ _ hu ↦ hu.floatingTracks) h).marked
  | csr hp hs index value ht =>
    rw [setInteger_eq]
    exact (FloatingMarked.access hs).of_eq rfl rfl
  | machineReturn hp => exact fun hne ↦ absurd rfl hne
  | supervisorReturn hp => exact fun hne ↦ absurd rfl hne

theorem Retired.vectorMarked {bits : BitVec 32} {s s' : CpuState} (h : Retired bits s s') :
    VectorMarked s s' := by
  cases h with
  | updates h => exact (Tracks.of_reflTransGen (fun _ _ hu ↦ hu.vectorTracks) h).marked
  | csr hp hs index value ht =>
    rw [setInteger_eq]
    exact (VectorMarked.access hs).of_eq rfl rfl
  | machineReturn hp => exact fun hne ↦ absurd rfl hne
  | supervisorReturn hp => exact fun hne ↦ absurd rfl hne

/-- **Dirty tracking.**  Whatever a step does, retiring or trapping: a floating context that changed
was not Off and is Dirty, and so for the vector context. -/
theorem dirty_tracking (c : Cpu) :
    (c.step.2.state.floatingContext ≠ c.state.floatingContext →
      c.state.csrs.floatingStateEnabled = true ∧ c.step.2.state.csrs.floatingStateDirty = true) ∧
    (c.step.2.state.vectorContext ≠ c.state.vectorContext →
      c.state.csrs.vectorStateEnabled = true ∧ c.step.2.state.csrs.vectorStateDirty = true) := by
  obtain ⟨s, s', bits, cycle, instret, hs, hr, hstep, -⟩ := step_change c
  have hf : FloatingMarked c.state s' := by
    rcases hs with rfl | rfl <;> exact hr.floatingMarked
  have hv : VectorMarked c.state s' := by
    rcases hs with rfl | rfl <;> exact hr.vectorMarked
  rw [hstep]
  exact ⟨hf.of_eq rfl rfl, hv.of_eq rfl rfl⟩

/-- A hart with FS Initial in front of `fmv.d.x f1, x0`. -/
def fmvCpu : Cpu where
  bus :=
    { regions :=
        [.ram
          { range := { base := 0#64, size := 4#64, size_pos := AddressRange.pos_four
                       fits := AddressRange.fits_four }
            bytes := [0xD3#8, 0x00#8, 0x00#8, 0xF2#8], size_eq := by decide }] }
  state := { floatingRegisters := fun _ ↦ 1#64, csrs := { mstatus := 0x2000#64 } }

theorem dirty_tracking_fmv :
    fmvCpu.state.csrs.floatingStateDirty = false ∧
      fmvCpu.step.2.state.csrs.floatingStateDirty = true := by
  refine ⟨by decide, ((dirty_tracking fmvCpu).1 fun h ↦ ?_).2⟩
  exact absurd (congrFun (congrArg Prod.fst h) 1#5) (by decide)

end Rvemu
