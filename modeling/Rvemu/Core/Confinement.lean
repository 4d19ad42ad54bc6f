import Rvemu.Core.DirtyTracking
import Rvemu.Core.Run

/-!
# Confinement of the lower privilege modes

`UserChange` says what an instruction below machine mode may do to the CSRs outside the system
instructions, and with them in user mode; `SupervisorChange` adds the aliased supervisor writes and
SRET.  Both are transitive, so a run of updates is one change.  The last part lifts this to runs:
the privilege only ever rises on entry to a trap handler.
-/

set_option autoImplicit false

namespace Rvemu

open Relation

/-! ## The two kinds of change -/

namespace CsrFile

/-- Everything user mode cannot change. -/
def userFrame (c : CsrFile) : CsrFile :=
  { c with
    mstatus := 0#64, fcsr := 0#8, vstart := 0#64, vxsat := 0#8, vxrm := 0#8, vl := 0#64
    vtype := 0#64, cycle := 0#64, instret := 0#64 }

end CsrFile

/-- The extension bits of `mstatus`. -/
def isExtensionBit (i : ℕ) : Prop := i = 9 ∨ i = 10 ∨ i = 13 ∨ i = 14

/-- The change user mode can make: `fcsr`, the vector CSRs, the counters, and FS and VS to Dirty. -/
structure UserChange (c c' : CsrFile) : Prop where
  frame : c'.userFrame = c.userFrame
  mstatus : ∀ i, ¬ isExtensionBit i → c'.mstatus.getLsbD i = c.mstatus.getLsbD i
  fs : (c'.mstatus >>> 13) &&& 3#64 = (c.mstatus >>> 13) &&& 3#64 ∨ c'.floatingStateDirty = true
  vs : (c'.mstatus >>> 9) &&& 3#64 = (c.mstatus >>> 9) &&& 3#64 ∨ c'.vectorStateDirty = true

/-- The change supervisor mode can make to the machine-level registers. -/
structure SupervisorChange (c c' : CsrFile) : Prop where
  medeleg : c'.medeleg = c.medeleg
  mideleg : c'.mideleg = c.mideleg
  mtvec : c'.mtvec = c.mtvec
  mepc : c'.mepc = c.mepc
  mcause : c'.mcause = c.mcause
  mtval : c'.mtval = c.mtval
  mscratch : c'.mscratch = c.mscratch
  mcounteren : c'.mcounteren = c.mcounteren
  mcountinhibit : c'.mcountinhibit = c.mcountinhibit
  pmpcfg : c'.pmpcfg = c.pmpcfg
  pmpaddr : c'.pmpaddr = c.pmpaddr
  mhpmcounter : c'.mhpmcounter = c.mhpmcounter
  mhpmevent : c'.mhpmevent = c.mhpmevent
  mie : ∀ i, c.mideleg.getLsbD i = false → c'.mie.getLsbD i = c.mie.getLsbD i
  mip : ∀ i, ¬ (i = 1 ∧ c.mideleg.getLsbD 1 = true) → c'.mip.getLsbD i = c.mip.getLsbD i
  mstatus : ∀ i, sstatusWriteMask.getLsbD i = false → i ≠ 17 →
    c'.mstatus.getLsbD i = c.mstatus.getLsbD i
  mprv : c'.mstatus.getLsbD 17 = true → c.mstatus.getLsbD 17 = true

namespace UserChange

variable {c d e : CsrFile}

theorem refl (c : CsrFile) : UserChange c c :=
  ⟨rfl, fun _ _ ↦ rfl, Or.inl rfl, Or.inl rfl⟩

theorem trans (h : UserChange c d) (h' : UserChange d e) : UserChange c e := by
  refine ⟨h'.frame.trans h.frame, fun i hi ↦ (h'.mstatus i hi).trans (h.mstatus i hi), ?_, ?_⟩
  · rcases h'.fs with hsame | hdirty
    · rcases h.fs with hold | hdirty
      · exact Or.inl (hsame.trans hold)
      · right
        rw [CsrFile.floatingStateDirty, hsame]
        exact hdirty
    · exact Or.inr hdirty
  · rcases h'.vs with hsame | hdirty
    · rcases h.vs with hold | hdirty
      · exact Or.inl (hsame.trans hold)
      · right
        rw [CsrFile.vectorStateDirty, hsame]
        exact hdirty
    · exact Or.inr hdirty

/-- A change that leaves `mstatus` alone. -/
theorem of_mstatus (hf : d.userFrame = c.userFrame) (hm : d.mstatus = c.mstatus) :
    UserChange c d :=
  ⟨hf, fun _ _ ↦ by rw [hm], Or.inl (by rw [hm]), Or.inl (by rw [hm])⟩

theorem markFloatingStateDirty (c : CsrFile) : UserChange c c.markFloatingStateDirty := by
  cases hon : c.floatingStateEnabled with
  | false =>
    have hc : c.markFloatingStateDirty = c := by
      rw [CsrFile.markFloatingStateDirty, hon, if_pos (by decide)]
    rw [hc]
    exact refl c
  | true =>
    have hbit : ∀ i, i ≠ 13 → i ≠ 14 →
        c.markFloatingStateDirty.mstatus.getLsbD i = c.mstatus.getLsbD i := by
      intro i h13 h14
      rcases Nat.lt_or_ge i 64 with hi | hi
      · rw [c.getLsbD_mstatus_markFloatingStateDirty hi]
        simp [h13, h14]
      · rw [BitVec.getLsbD_of_ge _ _ hi, BitVec.getLsbD_of_ge _ _ hi]
    refine ⟨?_, fun i hi ↦ ?_, Or.inr (c.floatingStateDirty_mark hon), Or.inl ?_⟩
    · rw [c.markFloatingStateDirty_eq]
      rfl
    · rw [isExtensionBit, not_or, not_or, not_or] at hi
      exact hbit i hi.2.2.1 hi.2.2.2
    · exact Bits.field_two_congr (hbit 9 (by decide) (by decide)) (hbit 10 (by decide) (by decide))

theorem markVectorStateDirty (c : CsrFile) : UserChange c c.markVectorStateDirty := by
  cases hon : c.vectorStateEnabled with
  | false =>
    have hc : c.markVectorStateDirty = c := by
      rw [CsrFile.markVectorStateDirty, hon, if_pos (by decide)]
    rw [hc]
    exact refl c
  | true =>
    have hbit : ∀ i, i ≠ 9 → i ≠ 10 →
        c.markVectorStateDirty.mstatus.getLsbD i = c.mstatus.getLsbD i := by
      intro i h9 h10
      rcases Nat.lt_or_ge i 64 with hi | hi
      · rw [c.getLsbD_mstatus_markVectorStateDirty hi]
        simp [h9, h10]
      · rw [BitVec.getLsbD_of_ge _ _ hi, BitVec.getLsbD_of_ge _ _ hi]
    refine ⟨?_, fun i hi ↦ ?_, Or.inl ?_, Or.inr (c.vectorStateDirty_mark hon)⟩
    · rw [c.markVectorStateDirty_eq]
      rfl
    · rw [isExtensionBit, not_or, not_or, not_or] at hi
      exact hbit i hi.1 hi.2.1
    · exact Bits.field_two_congr (hbit 13 (by decide) (by decide))
        (hbit 14 (by decide) (by decide))

theorem of_mark_floating (hf : d.userFrame = c.userFrame) (hm : d.mstatus = c.mstatus) :
    UserChange c d.markFloatingStateDirty :=
  (of_mstatus hf hm).trans (markFloatingStateDirty d)

theorem of_mark_vector (hf : d.userFrame = c.userFrame) (hm : d.mstatus = c.mstatus) :
    UserChange c d.markVectorStateDirty :=
  (of_mstatus hf hm).trans (markVectorStateDirty d)

end UserChange

/-- The updates of an instruction are within the reach of user mode. -/
theorem Update.userChange {s s' : CpuState} (h : Update s s') :
    s'.privilege = s.privilege ∧ UserChange s.csrs s'.csrs := by
  cases h with
  | integer index value =>
    rw [setInteger_eq]
    exact ⟨rfl, .refl _⟩
  | floating hon index value => exact ⟨rfl, .markFloatingStateDirty _⟩
  | flags flags =>
    rw [CpuState.accrueFlags, CpuState.modifyCsrs, CsrFile.accrueFloatingExceptionFlags]
    refine ⟨rfl, ?_⟩
    dsimp only
    split
    · exact .refl _
    · exact .of_mark_floating rfl rfl
  | element hon hs =>
    obtain ⟨v, -, rfl⟩ := setVectorElement_eq_some hs
    exact ⟨rfl, .markVectorStateDirty _⟩
  | startAt hon element => exact ⟨rfl, .of_mark_vector rfl rfl⟩
  | clearStart hon => exact ⟨rfl, .of_mark_vector rfl rfl⟩
  | configuration hon hc =>
    exact ⟨rfl, .of_mark_vector rfl rfl⟩
  | token token => exact ⟨rfl, .refl _⟩
  | waiting value => exact ⟨rfl, .refl _⟩
  | jump ht => exact ⟨rfl, .refl _⟩

theorem Updates.userChange {s s' : CpuState} (h : Updates s s') :
    s'.privilege = s.privilege ∧ UserChange s.csrs s'.csrs := by
  induction h with
  | refl => exact ⟨rfl, .refl _⟩
  | tail _ hu ih => exact ⟨hu.userChange.1.trans ih.1, ih.2.trans hu.userChange.2⟩

/-! ## CSR writes -/

namespace CsrFile

variable {c : CsrFile} {address : CsrAddress} {privilege : PrivilegeMode}

/-- The least privilege an address needs. -/
def required (address : CsrAddress) : ℕ := ((address.raw >>> 8) &&& 3#12).toNat

theorem required_le_of_allowed (h : c.accessAllowed address privilege true = true) :
    required address ≤ privilege.rank := by
  rw [accessAllowed] at h
  split at h
  · cases h
  split at h
  · cases h
  split at h
  · cases h
  · next hr =>
    rw [not_or, Nat.not_lt] at hr
    exact hr.2

/-- The user-level views of the counters and of the vector configuration are read-only. -/
theorem writable_of_allowed (h : c.accessAllowed address privilege true = true) :
    (address.raw &&& 0xC00#12) ≠ 0xC00#12 := by
  rw [accessAllowed] at h
  intro hro
  rw [hro] at h
  split at h
  · cases h
  split at h
  · cases h
  split at h
  · cases h
  rw [if_pos (by decide)] at h
  cases h

theorem required_arrays :
    (∀ i, required (.pmpcfg i) = 3) ∧ (∀ i, required (.pmpaddr i) = 3) ∧
      (∀ i, required (.mhpmcounter i) = 3) ∧ ∀ i, required (.mhpmevent i) = 3 := by
  decide

/-- What user mode can write. -/
theorem userChange_writeValue (h : c.accessAllowed address .user true = true) (value : BitVec 64) :
    UserChange c (c.writeValue address value) := by
  have hreq : required address ≤ 0 := required_le_of_allowed h
  have hro := writable_of_allowed h
  cases address with
  | fflags | frm | fcsr => exact .of_mark_floating rfl rfl
  | vstart | vxsat | vxrm | vcsr => exact .of_mark_vector rfl rfl
  | cycle | time | instret | vl | vtype | vlenb => exact absurd rfl hro
  | pmpcfg i => simp [required_arrays] at hreq
  | pmpaddr i => simp [required_arrays] at hreq
  | mhpmcounter i => simp [required_arrays] at hreq
  | mhpmevent i => simp [required_arrays] at hreq
  | _ => exact absurd hreq (by decide)

end CsrFile

namespace SupervisorChange

variable {c d : CsrFile}

theorem of_userChange (h : UserChange c d) : SupervisorChange c d := by
  have hframe : ∀ {α : Type} (f : CsrFile → α), (∀ c : CsrFile, f c.userFrame = f c) →
      f d = f c := by
    intro α f hf
    rw [← hf d, ← hf c, h.frame]
  have hext : ∀ i, isExtensionBit i → sstatusWriteMask.getLsbD i = true := by
    rintro i (rfl | rfl | rfl | rfl) <;> decide
  exact
    { medeleg := hframe (·.medeleg) fun _ ↦ rfl
      mideleg := hframe (·.mideleg) fun _ ↦ rfl
      mtvec := hframe (·.mtvec) fun _ ↦ rfl
      mepc := hframe (·.mepc) fun _ ↦ rfl
      mcause := hframe (·.mcause) fun _ ↦ rfl
      mtval := hframe (·.mtval) fun _ ↦ rfl
      mscratch := hframe (·.mscratch) fun _ ↦ rfl
      mcounteren := hframe (·.mcounteren) fun _ ↦ rfl
      mcountinhibit := hframe (·.mcountinhibit) fun _ ↦ rfl
      pmpcfg := hframe (·.pmpcfg) fun _ ↦ rfl
      pmpaddr := hframe (·.pmpaddr) fun _ ↦ rfl
      mhpmcounter := hframe (·.mhpmcounter) fun _ ↦ rfl
      mhpmevent := hframe (·.mhpmevent) fun _ ↦ rfl
      mie := fun i _ ↦ congrArg (·.getLsbD i) (hframe (·.mie) fun _ ↦ rfl)
      mip := fun i _ ↦ congrArg (·.getLsbD i) (hframe (·.mip) fun _ ↦ rfl)
      mstatus := fun i hi _ ↦ h.mstatus i fun he ↦ by
        rw [hext i he] at hi
        cases hi
      mprv := fun h17 ↦ (h.mstatus 17 (by rw [isExtensionBit]; decide)).symm.trans h17 }

/-- A change of `mie`, `mip` and `mstatus`, and of the registers of the supervisor. -/
theorem of_fields {mie mip mstatus stvec sscratch sepc scause stval scounteren satp : BitVec 64}
    (hd : d = { c with
      mie, mip, mstatus, stvec, sscratch, sepc, scause, stval, scounteren, satp })
    (hmie : ∀ i, c.mideleg.getLsbD i = false → mie.getLsbD i = c.mie.getLsbD i)
    (hmip : ∀ i, ¬ (i = 1 ∧ c.mideleg.getLsbD 1 = true) → mip.getLsbD i = c.mip.getLsbD i)
    (hmstatus : ∀ i, sstatusWriteMask.getLsbD i = false → i ≠ 17 →
      mstatus.getLsbD i = c.mstatus.getLsbD i)
    (hmprv : mstatus.getLsbD 17 = true → c.mstatus.getLsbD 17 = true) : SupervisorChange c d := by
  subst hd
  exact ⟨rfl, rfl, rfl, rfl, rfl, rfl, rfl, rfl, rfl, rfl, rfl, rfl, rfl, hmie, hmip, hmstatus,
    hmprv⟩

/-- A masked write leaves the bits outside its mask. -/
theorem getLsbD_maskedWrite (old value mask : BitVec 64) {i : ℕ} (h : mask.getLsbD i = false) :
    ((old &&& ~~~mask) ||| (value &&& mask)).getLsbD i = old.getLsbD i := by
  rcases Nat.lt_or_ge i 64 with hi | hi
  · rw [BitVec.getLsbD_or, BitVec.getLsbD_and, BitVec.getLsbD_and, BitVec.getLsbD_not, h]
    simp [hi]
  · rw [BitVec.getLsbD_of_ge _ _ hi, BitVec.getLsbD_of_ge _ _ hi]

theorem sstatus (c : CsrFile) (value : BitVec 64) :
    SupervisorChange c (c.writeValue .sstatus value) :=
  of_fields rfl (fun _ _ ↦ rfl) (fun _ _ ↦ rfl)
    (fun _ hi _ ↦ getLsbD_maskedWrite _ _ _ hi)
    fun h ↦ (getLsbD_maskedWrite _ _ _ (by decide)).symm.trans h

theorem sie (c : CsrFile) (value : BitVec 64) : SupervisorChange c (c.writeValue .sie value) := by
  refine of_fields rfl (fun i hi ↦ getLsbD_maskedWrite _ _ _ ?_) (fun _ _ ↦ rfl)
    (fun _ _ _ ↦ rfl) id
  rw [BitVec.getLsbD_and, hi, Bool.false_and]

theorem sip (c : CsrFile) (value : BitVec 64) : SupervisorChange c (c.writeValue .sip value) := by
  refine of_fields rfl (fun _ _ ↦ rfl) (fun i hi ↦ getLsbD_maskedWrite _ _ _ ?_)
    (fun _ _ _ ↦ rfl) id
  have hmask : ∀ i, softwareWritablePendingMask.getLsbD i = decide (i = 1) :=
    Bits.getLsbD_const (by decide) (by simp; omega)
  rw [BitVec.getLsbD_and, hmask]
  by_cases h1 : i = 1
  · subst h1
    rw [Bool.eq_false_iff.2 fun h ↦ hi ⟨rfl, h⟩, Bool.false_and]
  · simp [h1]

end SupervisorChange

/-- What supervisor mode can write. -/
theorem CsrFile.supervisorChange_writeValue {c : CsrFile} {address : CsrAddress}
    (h : c.accessAllowed address .supervisor true = true) (value : BitVec 64) :
    SupervisorChange c (c.writeValue address value) := by
  have hreq : required address ≤ 1 := required_le_of_allowed h
  have hro := writable_of_allowed h
  cases address with
  | fflags | frm | fcsr => exact .of_userChange (.of_mark_floating rfl rfl)
  | vstart | vxsat | vxrm | vcsr => exact .of_userChange (.of_mark_vector rfl rfl)
  | cycle | time | instret | vl | vtype | vlenb => exact absurd rfl hro
  | sstatus => exact .sstatus c value
  | sie => exact .sie c value
  | sip => exact .sip c value
  | stvec | scounteren | sscratch | sepc | scause | stval =>
    exact .of_fields rfl (fun _ _ ↦ rfl) (fun _ _ ↦ rfl) (fun _ _ _ ↦ rfl) id
  | satp =>
    rw [writeValue]
    split <;> exact .of_fields rfl (fun _ _ ↦ rfl) (fun _ _ ↦ rfl) (fun _ _ _ ↦ rfl) id
  | pmpcfg i => simp [required_arrays] at hreq
  | pmpaddr i => simp [required_arrays] at hreq
  | mhpmcounter i => simp [required_arrays] at hreq
  | mhpmevent i => simp [required_arrays] at hreq
  | _ => exact absurd hreq (by decide)

/-! ## Steps -/

theorem SupervisorChange.returnFromSupervisor (c : CsrFile) :
    SupervisorChange c c.returnFromSupervisor.2 := by
  refine of_fields rfl (fun _ _ ↦ rfl) (fun _ _ ↦ rfl) (fun i hi h17 ↦ ?_) fun h17 ↦ ?_
  · have hin : ∀ j, j = 1 ∨ j = 5 ∨ j = 8 → sstatusWriteMask.getLsbD j = true := by
      rintro j (rfl | rfl | rfl) <;> decide
    have hne : ∀ j, j = 1 ∨ j = 5 ∨ j = 8 → i ≠ j := by
      rintro j hj rfl
      rw [hin i hj] at hi
      cases hi
    refine (c.getLsbD_mstatus_returnFromSupervisor i).trans ?_
    rw [if_neg (hne 1 (by decide)), if_neg (hne 5 (by decide)),
      if_neg (not_or.2 ⟨hne 8 (by decide), h17⟩)]
  · have h := (c.getLsbD_mstatus_returnFromSupervisor 17).symm.trans h17
    simp at h

/-- SRET never ends in machine mode. -/
theorem CsrFile.returnFromSupervisor_privilege (c : CsrFile) :
    c.returnFromSupervisor.1.privilege = .supervisor ∨
    c.returnFromSupervisor.1.privilege = .user := by
  rw [returnFromSupervisor]
  dsimp only
  split
  · exact Or.inl rfl
  · exact Or.inr rfl

theorem Retired.userChange {bits : BitVec 32} {s s' : CpuState} (h : Retired bits s s')
    (hu : s.privilege = .user) :
    s'.privilege = .user ∧ UserChange s.csrs s'.csrs := by
  cases h with
  | updates h => exact ⟨h.userChange.1.trans hu, h.userChange.2⟩
  | csr hp hs index value ht =>
    rw [setInteger_eq]
    refine ⟨hu, ?_⟩
    rcases CsrFile.access_cases hs with heq | ⟨address, value, hallowed, heq⟩
    · exact heq.symm ▸ UserChange.refl _
    · rw [hp.privilege, hu] at hallowed
      exact heq.symm ▸ CsrFile.userChange_writeValue hallowed value
  | machineReturn hp =>
    rw [hu] at hp
    cases hp
  | supervisorReturn hp =>
    rw [hu] at hp
    exact absurd hp (by simp [CsrFile.supervisorReturnAllowed, PrivilegeMode.rank])

theorem Retired.supervisorChange {bits : BitVec 32} {s s' : CpuState} (h : Retired bits s s')
    (hu : s.privilege = .supervisor) :
    (s'.privilege = .supervisor ∨ s'.privilege = .user) ∧ SupervisorChange s.csrs s'.csrs := by
  cases h with
  | updates h => exact ⟨Or.inl (h.userChange.1.trans hu), .of_userChange h.userChange.2⟩
  | csr hp hs index value ht =>
    rw [setInteger_eq]
    refine ⟨Or.inl hu, ?_⟩
    rcases CsrFile.access_cases hs with heq | ⟨address, value, hallowed, heq⟩
    · exact heq.symm ▸ SupervisorChange.of_userChange (.refl _)
    · rw [hp.privilege, hu] at hallowed
      exact heq.symm ▸ CsrFile.supervisorChange_writeValue hallowed value
  | machineReturn hp =>
    rw [hu] at hp
    cases hp
  | supervisorReturn hp =>
    exact ⟨s.csrs.returnFromSupervisor_privilege, .returnFromSupervisor s.csrs⟩

theorem step_userChange (c : Cpu) (hu : c.state.privilege = .user) :
    c.step.2.state.privilege = .user ∧ UserChange c.state.csrs c.step.2.state.csrs := by
  obtain ⟨s, s', bits, cycle, instret, hs, hr, hstep, -⟩ := step_change c
  have hchange : s'.privilege = .user ∧ UserChange c.state.csrs s'.csrs := by
    rcases hs with rfl | rfl <;> exact hr.userChange hu
  rw [hstep]
  exact ⟨hchange.1, hchange.2.trans (.of_mstatus rfl rfl)⟩

theorem step_supervisorChange (c : Cpu) (hu : c.state.privilege = .supervisor) :
    (c.step.2.state.privilege = .supervisor ∨ c.step.2.state.privilege = .user) ∧
      SupervisorChange c.state.csrs c.step.2.state.csrs := by
  obtain ⟨s, s', bits, cycle, instret, hs, hr, hstep, -⟩ := step_change c
  have hchange : (s'.privilege = .supervisor ∨ s'.privilege = .user) ∧
      SupervisorChange c.state.csrs s'.csrs := by
    rcases hs with rfl | rfl <;> exact hr.supervisorChange hu
  rw [hstep]
  obtain ⟨hp, h⟩ := hchange
  exact ⟨hp, { h with }⟩

/-- A step does not raise the privilege. -/
theorem step_rank_le (c : Cpu) : c.step.2.state.privilege.rank ≤ c.state.privilege.rank := by
  cases hu : c.state.privilege with
  | user => exact Nat.le_of_eq (congrArg PrivilegeMode.rank (step_userChange c hu).1)
  | supervisor =>
    rcases (step_supervisorChange c hu).1 with h | h
    · exact Nat.le_of_eq (congrArg PrivilegeMode.rank h)
    · exact h ▸ by decide
  | machine => cases c.step.2.state.privilege <;> decide

/-- **Privilege confinement.** -/
theorem privilege_confined (c : Cpu) :
    (c.state.privilege = .user → c.step.1.retired = true →
      c.step.2.state.privilege = .user ∧ UserChange c.state.csrs c.step.2.state.csrs) ∧
    (c.state.privilege = .supervisor → c.step.1.retired = true →
      (c.step.2.state.privilege = .supervisor ∨ c.step.2.state.privilege = .user) ∧
        SupervisorChange c.state.csrs c.step.2.state.csrs) ∧
    ∀ events, (∀ e ∈ events, HartEvent.entersHandler e = false) →
      (c.run events).state.privilege.rank ≤ c.state.privilege.rank := by
  refine ⟨fun hu _ ↦ step_userChange c hu, fun hu _ ↦ step_supervisorChange c hu, ?_⟩
  intro events hno
  refine Cpu.run_induction (I := fun c' ↦ c'.state.privilege.rank ≤ c.state.privilege.rank)
    (p := fun e ↦ e.entersHandler = false) ?_ (Nat.le_refl _) hno
  intro c' e he hle
  cases e with
  | step => exact Nat.le_trans (step_rank_le c') hle
  | takeTrap trap => cases he
  | takePendingInterrupt => cases he
  | setInterruptPending cause pending => exact hle
  | memory bus => exact hle

/-- The hart in front of `fmv.d.x`, in user mode. -/
def userFmvCpu : Cpu := fmvCpu.modifyState (·.setPrivilege .user)

theorem privilege_confined_fmv :
    userFmvCpu.step.1.retired = true ∧ userFmvCpu.step.2.state.privilege = .user ∧
      userFmvCpu.step.2.state.csrs.userFrame = userFmvCpu.state.csrs.userFrame := by
  have hretired : userFmvCpu.step.1.retired = true := by decide
  obtain ⟨hp, hchange⟩ := (privilege_confined userFmvCpu).1 rfl hretired
  exact ⟨hretired, hp, hchange.frame⟩

end Rvemu
