import Rvemu.Core.CsrRuns

/-!
# Views of the CSR file

Several addresses show the same state.  The supervisor registers are views of the machine registers
through masks, one of which is a register itself; `fflags` and `frm` are fields of `fcsr`, and
`vxsat` and `vxrm` fields of `vcsr`.  The views agree after every run, a write through an alias
stays inside its view, and every register takes the value it shows.
-/

set_option autoImplicit false

namespace Rvemu

namespace CsrFile

variable (c : CsrFile)

/-! ## What the views show -/

/-- Every alias shows its part of the register behind it. -/
structure ViewsAgree : Prop where
  sstatus : c.readValue .sstatus = c.readValue .mstatus &&& sstatusReadMask
  sd : (c.readValue .mstatus).getLsbD 63 = true ↔
    (c.readValue .mstatus >>> 13) &&& 3#64 = 3#64 ∨ (c.readValue .mstatus >>> 9) &&& 3#64 = 3#64
  sie : c.readValue .sie = c.readValue .mie &&& c.readValue .mideleg &&& supervisorInterruptMask
  sip : c.readValue .sip = c.readValue .mip &&& c.readValue .mideleg &&& supervisorInterruptMask
  fflags : c.readValue .fflags = c.readValue .fcsr &&& 0x1F#64
  frm : c.readValue .frm = (c.readValue .fcsr >>> 5) &&& 7#64
  vxsat : c.readValue .vxsat = c.readValue .vcsr &&& 1#64
  vxrm : c.readValue .vxrm = (c.readValue .vcsr >>> 1) &&& 3#64

/-- Outside a mask, two words are the same. -/
def SameOutside {n : ℕ} (mask x y : BitVec n) : Prop := ∀ i,
    mask.getLsbD i = false → x.getLsbD i = y.getLsbD i

/-- A write through an alias changes the register behind it, inside the view, and nothing else but
the dirty fields. -/
structure AliasesConfined : Prop where
  sstatus : ∀ value, ∃ mstatus, c.writeValue .sstatus value = { c with mstatus } ∧
    SameOutside sstatusWriteMask mstatus c.mstatus
  sie : ∀ value, ∃ mie, c.writeValue .sie value = { c with mie } ∧
    SameOutside (c.mideleg &&& supervisorInterruptMask) mie c.mie
  sip : ∀ value, ∃ mip, c.writeValue .sip value = { c with mip } ∧
    SameOutside (c.mideleg &&& softwareWritablePendingMask) mip c.mip
  fflags : ∀ value, ∃ fcsr, c.writeValue .fflags value =
    ({ c with fcsr } : CsrFile).markFloatingStateDirty ∧
    SameOutside 0x1F#8 fcsr c.fcsr
  frm : ∀ value, ∃ fcsr, c.writeValue .frm value =
    ({ c with fcsr } : CsrFile).markFloatingStateDirty ∧
    SameOutside 0xE0#8 fcsr c.fcsr
  vxsat : ∀ value, ∃ vxsat, c.writeValue .vxsat value =
    ({ c with vxsat } : CsrFile).markVectorStateDirty
  vxrm : ∀ value, ∃ vxrm, c.writeValue .vxrm value =
    ({ c with vxrm } : CsrFile).markVectorStateDirty

/-- The file with the extension field of a floating or vector register made dirty. -/
def dirtied (address : CsrAddress) : CsrFile :=
  if address.isFloating then { c with mstatus := c.mstatus ||| (3#64 <<< 13) }
  else if address.isVector then { c with mstatus := c.mstatus ||| (3#64 <<< 9) }
  else c

/-- A register that is written with what it shows keeps its value. -/
def WriteBackStable : Prop :=
  ∀ (address : CsrAddress) (privilege : PrivilegeMode) (read : Bool),
    c.accessAllowed address privilege true = true →
      (c.access
        { address := address.raw, privilege, read, write := true, operation := .replace,
          operand := c.readValue address }).2 = c.dirtied address

/-! ## The views -/

theorem and_one_cases : ∀ x : BitVec 8, x &&& 1#8 = x → x = 0#8 ∨ x = 1#8 := by decide

theorem and_three_cases :
    ∀ x : BitVec 8, x &&& 3#8 = x → x = 0#8 ∨ x = 1#8 ∨ x = 2#8 ∨ x = 3#8 := by decide

/-- The stored part of `mstatus` as it reads. -/
theorem getLsbD_mstatusView {i : ℕ} (hi : i < 63) (hx : xlenFields.getLsbD i = false) :
    c.mstatusView.getLsbD i = c.mstatus.getLsbD i := by
  have hvalue : ((c.mstatus &&& ~~~(bit 63)) ||| xlenFields).getLsbD i = c.mstatus.getLsbD i := by
    rw [BitVec.getLsbD_or, hx, Bool.or_false, getLsbD_and_not_bit _ (by decide), if_neg (by omega)]
  rw [mstatusView]
  split
  · rw [getLsbD_or_bit _ (by decide), if_neg (by omega), hvalue]
  · exact hvalue

theorem getLsbD_mstatusView_sd :
    c.mstatusView.getLsbD 63 = true ↔
      (c.mstatusView >>> 13) &&& 3#64 = 3#64 ∨ (c.mstatusView >>> 9) &&& 3#64 = 3#64 := by
  rw [mstatusView]
  set value := (c.mstatus &&& ~~~(bit 63)) ||| xlenFields with hvalue
  have hsd : value.getLsbD 63 = false := by
    rw [hvalue, BitVec.getLsbD_or, getLsbD_and_not_bit _ (by decide), if_pos rfl]
    decide
  -- the derived bit is in neither field
  have hfield (k : ℕ) (hk : k + 1 < 63) :
      ((value ||| bit 63) >>> k) &&& 3#64 = (value >>> k) &&& 3#64 := by
    refine Bits.field_two_congr ?_ ?_ <;> rw [getLsbD_or_bit _ (by decide), if_neg (by omega)]
  split
  · next hdirty =>
    rw [hfield 13 (by decide), hfield 9 (by decide), getLsbD_or_bit _ (by decide), if_pos rfl]
    exact iff_of_true rfl hdirty
  · next hclean =>
    rw [hsd]
    exact iff_of_false (by decide) hclean

theorem Legal.viewsAgree {c : CsrFile} (h : c.Legal) : c.ViewsAgree where
  sstatus := rfl
  sd := c.getLsbD_mstatusView_sd
  sie := rfl
  sip := rfl
  fflags := by
    have hall : ∀ f : BitVec 8, (f &&& floatingExceptionMask).setWidth 64 =
        f.setWidth 64 &&& 0x1F#64 := by
      decide
    exact hall c.fcsr
  frm := by
    have hall : ∀ f : BitVec 8, (((f >>> 5) &&& 7#8).setWidth 3).setWidth 64 =
        (f.setWidth 64 >>> 5) &&& 7#64 := by
      decide
    exact hall c.fcsr
  vxsat := by
    rw [readValue, readValue]
    rcases and_one_cases _ h.vxsat with hs | hs <;>
      rcases and_three_cases _ h.vxrm with hr | hr | hr | hr <;> rw [hs, hr] <;> decide
  vxrm := by
    rw [readValue, readValue]
    rcases and_one_cases _ h.vxsat with hs | hs <;>
      rcases and_three_cases _ h.vxrm with hr | hr | hr | hr <;> rw [hs, hr] <;> decide

/-! ## Writes through an alias -/

theorem sameOutside_maskedWrite (old value mask : BitVec 64) :
    SameOutside mask ((old &&& ~~~mask) ||| (value &&& mask)) old :=
  fun _ hi ↦ SupervisorChange.getLsbD_maskedWrite old value mask hi

theorem aliasesConfined : c.AliasesConfined where
  sstatus value := ⟨_, rfl, sameOutside_maskedWrite _ _ _⟩
  sie value := ⟨_, rfl, sameOutside_maskedWrite _ _ _⟩
  sip value := ⟨_, rfl, sameOutside_maskedWrite _ _ _⟩
  fflags value := by
    refine ⟨_, rfl, fun i hi ↦ ?_⟩
    have hmask : ∀ i < 8, (0x1F#8).getLsbD i = false → (0xE0#8).getLsbD i = true := by decide
    rcases Nat.lt_or_ge i 8 with hlt | hge
    · rw [BitVec.getLsbD_or, BitVec.getLsbD_and, BitVec.getLsbD_and, hmask i hlt hi, Bool.and_true,
        show floatingExceptionMask.getLsbD i = false from hi, Bool.and_false, Bool.or_false]
    · rw [BitVec.getLsbD_of_ge _ _ hge, BitVec.getLsbD_of_ge _ _ hge]
  frm value := by
    refine ⟨_, rfl, fun i hi ↦ ?_⟩
    have hmask : ∀ i < 8, (0xE0#8).getLsbD i = false →
        floatingExceptionMask.getLsbD i = true ∧ i < 5 := by decide
    rcases Nat.lt_or_ge i 8 with hlt | hge
    · obtain ⟨hflag, hfive⟩ := hmask i hlt hi
      rw [BitVec.getLsbD_or, BitVec.getLsbD_and, hflag, Bool.and_true, BitVec.getLsbD_shiftLeft,
        decide_eq_true hfive, Bool.not_true, Bool.and_false, Bool.false_and, Bool.or_false]
    · rw [BitVec.getLsbD_of_ge _ _ hge, BitVec.getLsbD_of_ge _ _ hge]
  vxsat value := ⟨_, rfl⟩
  vxrm value := ⟨_, rfl⟩

/-! ## Writing back -/

/-- A masked write of the bits that are there. -/
theorem maskedWrite_self {x y mask : BitVec 64}
    (h : ∀ i, mask.getLsbD i = true → y.getLsbD i = x.getLsbD i) :
    (x &&& ~~~mask) ||| (y &&& mask) = x := by
  apply BitVec.eq_of_getLsbD_eq
  intro i hi
  rw [BitVec.getLsbD_or, BitVec.getLsbD_and, BitVec.getLsbD_and, BitVec.getLsbD_not,
    decide_eq_true hi]
  cases hm : mask.getLsbD i with
  | false => simp
  | true => simp [h i hm]

/-- The masks of the status registers leave the derived fields alone. -/
theorem writeMask_cases :
    ∀ i < 64, mstatusWriteMask.getLsbD i = true ∨ sstatusWriteMask.getLsbD i = true →
    i < 63 ∧ xlenFields.getLsbD i = false := by decide

theorem mstatusView_of_mask {mask : BitVec 64}
    (hmask : ∀ i, mask.getLsbD i = true →
      mstatusWriteMask.getLsbD i = true ∨ sstatusWriteMask.getLsbD i = true) {i : ℕ}
    (hi : mask.getLsbD i = true) : c.mstatusView.getLsbD i = c.mstatus.getLsbD i := by
  have hlt : i < 64 := by
    by_contra hge
    rw [BitVec.getLsbD_of_ge _ _ (Nat.le_of_not_lt hge)] at hi
    cases hi
  obtain ⟨h63, hxlen⟩ := writeMask_cases i hlt (hmask i hi)
  exact c.getLsbD_mstatusView h63 hxlen

theorem legalizeMstatus_self {c : CsrFile} (h : StatusLegal c.mstatus) :
    legalizeMstatus c.mstatus c.mstatusView = c.mstatus := by
  have hwrite : (c.mstatus &&& ~~~mstatusWriteMask) ||| (c.mstatusView &&& mstatusWriteMask) =
      c.mstatus :=
    maskedWrite_self fun i hi ↦ c.mstatusView_of_mask (fun i hi ↦ Or.inl hi) hi
  rw [legalizeMstatus, hwrite, if_neg h.mpp]
  -- the XLEN fields are there already
  have hbits := statusLegal_iff.1 h
  have hxlen : ∀ i < 64, xlenFields.getLsbD i = true → i = 33 ∨ i = 35 := by decide
  apply BitVec.eq_of_getLsbD_eq
  intro i hi
  rw [BitVec.getLsbD_or]
  cases hx : xlenFields.getLsbD i with
  | false => rw [Bool.or_false]
  | true =>
    rw [Bool.or_true]
    rcases hxlen i hi hx with rfl | rfl
    · exact hbits.2.1.2.symm
    · exact hbits.2.2.2.symm

theorem legalizeTvec_self {value : BitVec 64} (h : value.getLsbD 1 = false) :
    legalizeTvec value = value := by
  have hmode : value &&& 3#64 ≤ 1#64 := by
    rcases and_three_le_one value h with h | h <;> rw [h] <;> decide
  rw [legalizeTvec, if_pos hmode]
  apply BitVec.eq_of_getLsbD_eq
  intro i hi
  rw [BitVec.getLsbD_or, BitVec.getLsbD_and, BitVec.getLsbD_and, BitVec.getLsbD_not,
    decide_eq_true hi]
  cases (3#64).getLsbD i <;> simp

theorem setWidth_setWidth_eight (x : BitVec 8) : (x.setWidth 64).setWidth 8 = x := by
  revert x
  decide

theorem maskedWrite_of_and (x m n : BitVec 64) :
    (x &&& ~~~(m &&& n)) ||| ((x &&& m &&& n) &&& (m &&& n)) = x := by
  refine maskedWrite_self fun i hi ↦ ?_
  rw [BitVec.getLsbD_and, Bool.and_eq_true] at hi
  rw [BitVec.getLsbD_and, BitVec.getLsbD_and, hi.1, hi.2, Bool.and_true, Bool.and_true]

/-- Up to the dirty fields, a register that is written with what it shows keeps its value. -/
theorem Legal.writeValue_readValue {c : CsrFile} (h : c.Legal) {address : CsrAddress}
    (hwritable : (address.raw &&& 0xC00#12) ≠ 0xC00#12) :
    c.writeValue address (c.readValue address) =
      if address.isFloating then c.markFloatingStateDirty
      else if address.isVector then c.markVectorStateDirty
      else c := by
  cases address with
  | pmpcfg i | pmpaddr i | mhpmcounter i | mhpmevent i =>
    simp only [CsrFile.writeValue, readValue, Function.update_eq_self]
    rfl
  | fflags =>
    have hall : ∀ f : BitVec 8, (f &&& 0xE0#8) |||
        (((f &&& floatingExceptionMask).setWidth 64).setWidth 8 &&& floatingExceptionMask) = f := by
      decide
    simp only [CsrFile.writeValue, readValue, floatingExceptionFlags, hall]
    rfl
  | frm =>
    have hall : ∀ f : BitVec 8, (f &&& floatingExceptionMask) |||
        ((((((f >>> 5) &&& 7#8).setWidth 3).setWidth 64).setWidth 8 &&& 7#8) <<< 5) = f := by
      decide
    simp only [CsrFile.writeValue, readValue, floatingRoundingMode, hall]
    rfl
  | fcsr =>
    simp only [CsrFile.writeValue, readValue, setWidth_setWidth_eight]
    rfl
  | vstart =>
    simp only [CsrFile.writeValue, readValue, h.vstart.and_eq]
    rfl
  | vxsat =>
    simp only [CsrFile.writeValue, readValue, setWidth_setWidth_eight, h.vxsat]
    rfl
  | vxrm =>
    simp only [CsrFile.writeValue, readValue, setWidth_setWidth_eight, h.vxrm]
    rfl
  | vcsr =>
    have hfields : ((c.vxrm.setWidth 64 <<< 1) ||| c.vxsat.setWidth 64).setWidth 8 &&&
        1#8 = c.vxsat ∧
        (((c.vxrm.setWidth 64 <<< 1) ||| c.vxsat.setWidth 64) >>> 1).setWidth 8 &&& 3#8 =
          c.vxrm := by
      rcases and_one_cases _ h.vxsat with hs | hs <;>
        rcases and_three_cases _ h.vxrm with hr | hr | hr | hr <;> rw [hs, hr] <;> decide
    simp only [CsrFile.writeValue, readValue, hfields.1, hfields.2]
    rfl
  | sstatus =>
    have hwrite : (c.mstatus &&& ~~~sstatusWriteMask) |||
        (c.mstatusView &&& sstatusReadMask &&& sstatusWriteMask) = c.mstatus := by
      refine maskedWrite_self fun i hi ↦ ?_
      have hread : sstatusReadMask.getLsbD i = true := by
        rw [sstatusReadMask, BitVec.getLsbD_or, BitVec.getLsbD_or, hi]
        rfl
      rw [BitVec.getLsbD_and, hread, Bool.and_true]
      exact c.mstatusView_of_mask (fun i hi ↦ Or.inr hi) hi
    simp only [CsrFile.writeValue, readValue, hwrite]
    rfl
  | mstatus =>
    simp only [CsrFile.writeValue, readValue, legalizeMstatus_self h.mstatus]
    rfl
  | sie =>
    simp only [CsrFile.writeValue, readValue, maskedWrite_of_and]
    rfl
  | sip =>
    have hwrite : (c.mip &&& ~~~(c.mideleg &&& softwareWritablePendingMask)) |||
        (c.mip &&& c.mideleg &&& supervisorInterruptMask &&&
          (c.mideleg &&& softwareWritablePendingMask)) = c.mip := by
      refine maskedWrite_self fun i hi ↦ ?_
      have hmask : ∀ i < 64, softwareWritablePendingMask.getLsbD i = true →
          supervisorInterruptMask.getLsbD i = true := by decide
      rw [BitVec.getLsbD_and, Bool.and_eq_true] at hi
      have hlt : i < 64 := by
        by_contra hge
        rw [BitVec.getLsbD_of_ge _ _ (Nat.le_of_not_lt hge)] at hi
        cases hi.1
      rw [BitVec.getLsbD_and, BitVec.getLsbD_and, hi.1, hmask i hlt hi.2, Bool.and_true,
        Bool.and_true]
    simp only [CsrFile.writeValue, readValue, hwrite]
    rfl
  | mip =>
    have hwrite : (c.mip &&& ~~~softwareWritablePendingMask) |||
        (c.mip &&& softwareWritablePendingMask) =
        c.mip := maskedWrite_self fun _ _ ↦ rfl
    simp only [CsrFile.writeValue, readValue, hwrite]
    rfl
  | stvec =>
    simp only [CsrFile.writeValue, readValue, legalizeTvec_self h.stvec]
    rfl
  | mtvec =>
    simp only [CsrFile.writeValue, readValue, legalizeTvec_self h.mtvec]
    rfl
  | sepc =>
    simp only [CsrFile.writeValue, readValue, and_epcAlignmentMask h.sepc]
    rfl
  | mepc =>
    simp only [CsrFile.writeValue, readValue, and_epcAlignmentMask h.mepc]
    rfl
  | scounteren =>
    simp only [CsrFile.writeValue, readValue, h.scounteren.and_eq]
    rfl
  | mcounteren =>
    simp only [CsrFile.writeValue, readValue, h.mcounteren.and_eq]
    rfl
  | mcountinhibit =>
    simp only [CsrFile.writeValue, readValue, h.mcountinhibit.and_eq]
    rfl
  | medeleg =>
    simp only [CsrFile.writeValue, readValue, h.medeleg.and_eq]
    rfl
  | mideleg =>
    simp only [CsrFile.writeValue, readValue, h.mideleg.and_eq]
    rfl
  | mie =>
    simp only [CsrFile.writeValue, readValue, h.mie.and_eq]
    rfl
  | satp =>
    rw [CsrFile.writeValue]
    split <;> rfl
  | vl | vtype | vlenb => exact absurd (by decide) hwritable
  | _ => rfl

theorem setMask_eq (x mask : BitVec 64) : (x &&& ~~~mask) ||| mask = x ||| mask := by
  apply BitVec.eq_of_getLsbD_eq
  intro i hi
  rw [getLsbD_setMask _ _ hi, BitVec.getLsbD_or]

theorem Legal.writeBackStable {c : CsrFile} (h : c.Legal) : c.WriteBackStable := by
  intro address privilege read hallowed
  have haccess : (c.access
      { address := address.raw, privilege, read, write := true, operation := .replace,
        operand := c.readValue address }).2 = c.writeValue address (c.readValue address) := by
    rw [access, CsrAddress.ofRaw_raw]
    dsimp only
    rw [hallowed]
    rfl
  rw [haccess, h.writeValue_readValue (writable_of_allowed hallowed), dirtied]
  split
  · next hfloating =>
    have hon := floatingStateEnabled_of_allowed hallowed hfloating
    rw [CsrFile.markFloatingStateDirty, hon, setMask_eq]
    rfl
  · split
    · next hvector =>
      have hon := vectorStateEnabled_of_allowed hallowed hvector
      rw [CsrFile.markVectorStateDirty, hon, setMask_eq]
      rfl
    · rfl

/-- **The views never fork, and WARL writes are stable.** -/
theorem csr_views (events : List CsrEvent) :
    let c := Runs.run event {} events
    c.ViewsAgree ∧ c.AliasesConfined ∧ c.WriteBackStable := by
  intro c
  have hlegal : c.Legal := Runs.run_induction (fun _ e h ↦ h.event e) legal_reset events
  exact ⟨hlegal.viewsAgree, c.aliasesConfined, hlegal.writeBackStable⟩

end CsrFile

end Rvemu
