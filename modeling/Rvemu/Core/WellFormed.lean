import Rvemu.Core.Confinement
import Rvemu.Core.Precise

/-!
# Well-formed machine states

The WARL fields of the CSRs never leave their legal values and every address the hart continues at
is even.  The part about CSRs is a predicate of the CSR file alone, so each way a CSR can change is
one lemma; `CpuState.WellFormed` adds the program counter.
-/

set_option autoImplicit false

namespace Rvemu

open Relation

/-! ## Words inside a mask -/

/-- No bit outside the mask is set. -/
def Within (mask x : BitVec 64) : Prop := x &&& ~~~mask = 0#64

instance (mask x : BitVec 64) : Decidable (Within mask x) :=
  inferInstanceAs (Decidable (x &&& ~~~mask = 0#64))

theorem within_iff {mask x : BitVec 64} :
    Within mask x ↔ ∀ i, mask.getLsbD i = false → x.getLsbD i = false := by
  constructor
  · intro h i hi
    rcases Nat.lt_or_ge i 64 with hlt | hge
    · have hbit : (x &&& ~~~mask).getLsbD i = false := by rw [h, BitVec.getLsbD_zero]
      rw [BitVec.getLsbD_and, BitVec.getLsbD_not, hi, decide_eq_true hlt, Bool.not_false,
        Bool.and_self, Bool.and_true] at hbit
      exact hbit
    · exact BitVec.getLsbD_of_ge _ _ hge
  · intro h
    apply BitVec.eq_of_getLsbD_eq
    intro i hi
    rw [BitVec.getLsbD_and, BitVec.getLsbD_not, BitVec.getLsbD_zero]
    cases hm : mask.getLsbD i with
    | false => rw [h i hm, Bool.false_and]
    | true => simp

theorem within_zero (mask : BitVec 64) : Within mask 0#64 := BitVec.zero_and

theorem within_and (mask value : BitVec 64) : Within mask (value &&& mask) :=
  within_iff.2 fun i hi ↦ by rw [BitVec.getLsbD_and, hi, Bool.and_false]

theorem Within.and_eq {mask x : BitVec 64} (h : Within mask x) : x &&& mask = x := by
  rw [within_iff] at h
  apply BitVec.eq_of_getLsbD_eq
  intro i hi
  rw [BitVec.getLsbD_and]
  cases hm : mask.getLsbD i with
  | false => rw [h i hm, Bool.and_false]
  | true => rw [Bool.and_true]

theorem Within.maskedWrite {mask x part : BitVec 64} (h : Within mask x) (hp : Within mask part)
    (value : BitVec 64) : Within mask ((x &&& ~~~part) ||| (value &&& part)) := by
  rw [within_iff] at h hp ⊢
  intro i hi
  rw [BitVec.getLsbD_or, BitVec.getLsbD_and, BitVec.getLsbD_and, h i hi, hp i hi, Bool.false_and,
    Bool.and_false, Bool.or_false]

theorem Within.or {mask x y : BitVec 64} (h : Within mask x) (h' : Within mask y) :
    Within mask (x ||| y) := by
  rw [within_iff] at h h' ⊢
  intro i hi
  rw [BitVec.getLsbD_or, h i hi, h' i hi, Bool.or_false]

theorem Within.and {mask x : BitVec 64} (h : Within mask x) (y : BitVec 64) :
    Within mask (x &&& y) := by
  rw [within_iff] at h ⊢
  intro i hi
  rw [BitVec.getLsbD_and, h i hi, Bool.false_and]

/-! ## The invariant -/

/-- `vtype` is illegal with `vl` zero, or legal with `vl` below its VLMAX. -/
def CsrFile.VectorLegal (c : CsrFile) : Prop :=
  (c.vtype = vtypeVill ∧ c.vl = 0#64) ∨
  ((decodeVectorConfiguration c.vtype).valid = true ∧
    c.vl.toNat ≤ (decodeVectorConfiguration c.vtype).vlmax)

/-- The fields of `mstatus` that have illegal values. -/
structure StatusLegal (mstatus : BitVec 64) : Prop where
  mpp : (mstatus >>> 11) &&& 3#64 ≠ 2#64
  uxl : (mstatus >>> 32) &&& 3#64 = 2#64
  sxl : (mstatus >>> 34) &&& 3#64 = 2#64

structure CsrFile.WellFormed (c : CsrFile) : Prop where
  mepc : c.mepc.getLsbD 0 = false
  sepc : c.sepc.getLsbD 0 = false
  mstatus : StatusLegal c.mstatus
  medeleg : Within delegatableExceptionMask c.medeleg
  mideleg : Within supervisorInterruptMask c.mideleg
  mie : Within implementedInterruptMask c.mie
  mip : Within implementedInterruptMask c.mip
  mtvec : c.mtvec &&& 3#64 = 0#64 ∨ c.mtvec &&& 3#64 = 1#64
  stvec : c.stvec &&& 3#64 = 0#64 ∨ c.stvec &&& 3#64 = 1#64
  satp : c.satp &&& satpModeMask = 0#64 ∨ c.satp &&& satpModeMask = satpSv39Mode
  vstart : c.vstart.toNat < 256
  vector : c.VectorLegal

structure CpuState.WellFormed (s : CpuState) : Prop where
  programCounter : s.programCounter.getLsbD 0 = false
  csrs : s.csrs.WellFormed

/-! ## `mstatus` -/

theorem statusLegal_iff {m : BitVec 64} :
    StatusLegal m ↔ (m.getLsbD 12 = true → m.getLsbD 11 = true) ∧
      (m.getLsbD 32 = false ∧ m.getLsbD 33 = true) ∧ m.getLsbD 34 = false ∧
      m.getLsbD 35 = true := by
  have hmpp : (m >>> 11) &&& 3#64 ≠ 2#64 ↔ (m.getLsbD 12 = true → m.getLsbD 11 = true) := by
    rw [ne_eq, Bits.field_two_eq_two]
    cases m.getLsbD 11 <;> cases m.getLsbD 12 <;> decide
  constructor
  · intro h
    exact ⟨hmpp.1 h.mpp, (Bits.field_two_eq_two _ _).1 h.uxl, (Bits.field_two_eq_two _ _).1 h.sxl⟩
  · rintro ⟨h, hu, hs⟩
    exact ⟨hmpp.2 h, (Bits.field_two_eq_two _ _).2 hu, (Bits.field_two_eq_two _ _).2 hs⟩

/-- Only MPP and the XLEN fields matter. -/
theorem StatusLegal.of_bits {m m' : BitVec 64} (h : StatusLegal m)
    (hbits : ∀ i, i = 11 ∨ i = 12 ∨ 32 ≤ i → m'.getLsbD i = m.getLsbD i) : StatusLegal m' := by
  rw [statusLegal_iff] at h ⊢
  rwa [hbits 11 (by omega), hbits 12 (by omega), hbits 32 (by omega), hbits 33 (by omega),
    hbits 34 (by omega), hbits 35 (by omega)]

theorem StatusLegal.enterMachineTrap {c : CsrFile} (h : StatusLegal c.mstatus) (p : PrivilegeMode)
    (pc cause value : BitVec 64) :
    StatusLegal (c.enterMachineTrap p pc cause value).mstatus := by
  rw [statusLegal_iff] at h ⊢
  have hbit := c.getLsbD_mstatus_enterMachineTrap p pc cause value
  refine ⟨?_, ?_, ?_⟩
  · rw [hbit 12, hbit 11]
    cases p <;> simp
  · rw [hbit 32, hbit 33]
    simpa using h.2.1
  · rw [hbit 34, hbit 35]
    simpa using h.2.2

theorem StatusLegal.enterSupervisorTrap {c : CsrFile} (h : StatusLegal c.mstatus)
    (p : PrivilegeMode) (pc cause value : BitVec 64) :
    StatusLegal (c.enterSupervisorTrap p pc cause value).mstatus := by
  refine h.of_bits fun i hi ↦ ?_
  rw [c.getLsbD_mstatus_enterSupervisorTrap, if_neg (by omega), if_neg (by omega),
    if_neg (by omega)]

theorem StatusLegal.returnFromSupervisor {c : CsrFile} (h : StatusLegal c.mstatus) :
    StatusLegal c.returnFromSupervisor.2.mstatus := by
  refine h.of_bits fun i hi ↦ ?_
  rw [c.getLsbD_mstatus_returnFromSupervisor, if_neg (by omega), if_neg (by omega),
    if_neg (by omega)]

theorem StatusLegal.returnFromMachine {c : CsrFile} (h : StatusLegal c.mstatus) :
    StatusLegal c.returnFromMachine.2.mstatus := by
  rw [statusLegal_iff] at h ⊢
  have hbit := c.getLsbD_mstatus_returnFromMachine
  refine ⟨?_, ?_, ?_⟩
  · rw [hbit 12, hbit 11]
    simp
  · rw [hbit 32, hbit 33]
    simpa using h.2.1
  · rw [hbit 34, hbit 35]
    simpa using h.2.2

theorem StatusLegal.sstatus {m : BitVec 64} (h : StatusLegal m) (value : BitVec 64) :
    StatusLegal ((m &&& ~~~sstatusWriteMask) ||| (value &&& sstatusWriteMask)) := by
  refine h.of_bits fun i hi ↦ SupervisorChange.getLsbD_maskedWrite _ _ _ ?_
  have hmask : ∀ i < 64, i = 11 ∨ i = 12 ∨ 32 ≤ i → sstatusWriteMask.getLsbD i = false := by
    decide
  rcases Nat.lt_or_ge i 64 with hlt | hge
  · exact hmask i hlt hi
  · exact BitVec.getLsbD_of_ge _ _ hge

/-- The XLEN fields are put back by every write. -/
theorem statusLegal_or_xlen {x : BitVec 64} (h : x.getLsbD 12 = true → x.getLsbD 11 = true)
    (h32 : x.getLsbD 32 = false) (h34 : x.getLsbD 34 = false) : StatusLegal (x ||| xlenFields) := by
  have hbit : ∀ i < 64, (x ||| xlenFields).getLsbD i =
      (x.getLsbD i || (decide (i = 33) || decide (i = 35))) := by
    have hx : ∀ i < 64, xlenFields.getLsbD i = (decide (i = 33) || decide (i = 35)) := by decide
    intro i hi
    rw [BitVec.getLsbD_or, hx i hi]
  rw [statusLegal_iff, hbit 11 (by decide), hbit 12 (by decide), hbit 32 (by decide),
    hbit 33 (by decide), hbit 34 (by decide), hbit 35 (by decide), h32, h34]
  exact ⟨by simpa using h, ⟨rfl, by simp⟩, rfl, by simp⟩

theorem StatusLegal.legalize {m : BitVec 64} (h : StatusLegal m) (value : BitVec 64) :
    StatusLegal (CsrFile.legalizeMstatus m value) := by
  have hkeep : ∀ i, mstatusWriteMask.getLsbD i = false →
      ((m &&& ~~~mstatusWriteMask) ||| (value &&& mstatusWriteMask)).getLsbD i = m.getLsbD i :=
    fun i hi ↦ SupervisorChange.getLsbD_maskedWrite _ _ _ hi
  rw [statusLegal_iff] at h
  rw [CsrFile.legalizeMstatus]
  generalize (m &&& ~~~mstatusWriteMask) ||| (value &&& mstatusWriteMask) = desired at hkeep
  have h32 : desired.getLsbD 32 = false := (hkeep 32 (by decide)).trans h.2.1.1
  have h34 : desired.getLsbD 34 = false := (hkeep 34 (by decide)).trans h.2.2.1
  split
  · have hset := fun i hi ↦ CsrFile.getLsbD_setMask desired (3#64 <<< 11) (i := i) hi
    refine statusLegal_or_xlen (fun _ ↦ ?_) ?_ ?_
    · rw [hset 11 (by decide), show (3#64 <<< 11).getLsbD 11 = true by decide, Bool.or_true]
    · rw [hset 32 (by decide), h32]
      decide
    · rw [hset 34 (by decide), h34]
      decide
  · next hmpp =>
    rw [Bits.field_two_eq_two] at hmpp
    refine statusLegal_or_xlen (fun h12 ↦ ?_) h32 h34
    by_contra h11
    rw [Bool.not_eq_true] at h11
    exact hmpp ⟨h11, h12⟩

/-! ## CSR writes -/

theorem epc_even (value : BitVec 64) : (value &&& epcAlignmentMask).getLsbD 0 = false := by
  rw [BitVec.getLsbD_and, show epcAlignmentMask.getLsbD 0 = false by decide, Bool.and_false]

theorem and_epcAlignmentMask {pc : BitVec 64} (h : pc.getLsbD 0 = false) :
    pc &&& epcAlignmentMask = pc := by
  have hmask : ∀ i < 64, epcAlignmentMask.getLsbD i = decide (i ≠ 0) := by decide
  apply BitVec.eq_of_getLsbD_eq
  intro i hi
  rw [BitVec.getLsbD_and, hmask i hi]
  by_cases h0 : i = 0
  · rw [h0, h, Bool.false_and]
  · simp [h0]

/-- The lowest two bits of a word. -/
theorem and_three_le_one (x : BitVec 64) (h : x.getLsbD 1 = false) :
    x &&& 3#64 = 0#64 ∨ x &&& 3#64 = 1#64 := by
  have hfield := Bits.field_two_eq_iff x 0 (v := 0#64) (Bits.getLsbD_small (by decide))
  have hfield' := Bits.field_two_eq_iff x 0 (v := 1#64) (Bits.getLsbD_small (by decide))
  rw [BitVec.ushiftRight_zero] at hfield hfield'
  cases h0 : x.getLsbD 0 with
  | false => exact Or.inl (hfield.2 ⟨h0, h⟩)
  | true => exact Or.inr (hfield'.2 ⟨h0, h⟩)

theorem legalizeTvec_mode (value : BitVec 64) :
    CsrFile.legalizeTvec value &&& 3#64 = 0#64 ∨ CsrFile.legalizeTvec value &&& 3#64 = 1#64 := by
  refine and_three_le_one _ ?_
  rw [CsrFile.legalizeTvec, BitVec.getLsbD_or, BitVec.getLsbD_and,
    show (~~~3#64).getLsbD 1 = false by decide, Bool.and_false, Bool.false_or]
  split
  · next hle =>
    rcases Nat.le_one_iff_eq_zero_or_eq_one.1 (BitVec.le_def.1 hle) with h | h
    · rw [BitVec.eq_of_toNat_eq (y := 0#64) h, BitVec.getLsbD_zero]
    · rw [BitVec.eq_of_toNat_eq (y := 1#64) h]
      decide
  · exact BitVec.getLsbD_zero

theorem and_ff_lt (value : BitVec 64) : (value &&& 0xFF#64).toNat < 256 := by
  rw [BitVec.toNat_and]
  exact Nat.lt_of_le_of_lt Nat.and_le_right (by decide)

namespace CsrFile.WellFormed

variable {c d : CsrFile}

/-- What user mode can do keeps the file well formed, given the vector registers are. -/
theorem of_userChange (h : c.WellFormed) (hu : UserChange c d) (hstart : d.vstart.toNat < 256)
    (hvector : d.VectorLegal) : d.WellFormed := by
  have hframe : ∀ {α : Type} (f : CsrFile → α), (∀ c : CsrFile, f c.userFrame = f c) →
      f d = f c := by
    intro α f hf
    rw [← hf d, ← hf c, hu.frame]
  have hmstatus : StatusLegal d.mstatus := by
    refine h.mstatus.of_bits fun i hi ↦ hu.mstatus i ?_
    rw [isExtensionBit]
    omega
  refine ⟨?_, ?_, hmstatus, ?_, ?_, ?_, ?_, ?_, ?_, ?_, hstart, hvector⟩
  · rw [hframe (·.mepc) fun _ ↦ rfl]; exact h.mepc
  · rw [hframe (·.sepc) fun _ ↦ rfl]; exact h.sepc
  · rw [hframe (·.medeleg) fun _ ↦ rfl]; exact h.medeleg
  · rw [hframe (·.mideleg) fun _ ↦ rfl]; exact h.mideleg
  · rw [hframe (·.mie) fun _ ↦ rfl]; exact h.mie
  · rw [hframe (·.mip) fun _ ↦ rfl]; exact h.mip
  · rw [hframe (·.mtvec) fun _ ↦ rfl]; exact h.mtvec
  · rw [hframe (·.stvec) fun _ ↦ rfl]; exact h.stvec
  · rw [hframe (·.satp) fun _ ↦ rfl]; exact h.satp

theorem writeValue (h : c.WellFormed) (address : CsrAddress) (value : BitVec 64) :
    (c.writeValue address value).WellFormed := by
  cases address with
  | fflags | frm | fcsr =>
    refine h.of_userChange (.of_mark_floating rfl rfl) ?_ ?_
    · rw [CsrFile.writeValue, markFloatingStateDirty_eq]
      exact h.vstart
    · rw [CsrFile.writeValue, markFloatingStateDirty_eq]
      exact h.vector
  | vstart =>
    refine h.of_userChange (.of_mark_vector rfl rfl) ?_ ?_
    · rw [CsrFile.writeValue, markVectorStateDirty_eq]
      exact and_ff_lt value
    · rw [CsrFile.writeValue, markVectorStateDirty_eq]
      exact h.vector
  | vxsat | vxrm | vcsr =>
    refine h.of_userChange (.of_mark_vector rfl rfl) ?_ ?_
    · rw [CsrFile.writeValue, markVectorStateDirty_eq]
      exact h.vstart
    · rw [CsrFile.writeValue, markVectorStateDirty_eq]
      exact h.vector
  | sstatus => exact { h with mstatus := h.mstatus.sstatus value }
  | mstatus => exact { h with mstatus := h.mstatus.legalize value }
  | sie =>
    have hpart : Within implementedInterruptMask (c.mideleg &&& supervisorInterruptMask) := by
      rw [BitVec.and_comm]
      exact Within.and (by decide) _
    exact { h with mie := h.mie.maskedWrite hpart value }
  | sip =>
    have hpart : Within implementedInterruptMask (c.mideleg &&& softwareWritablePendingMask) := by
      rw [BitVec.and_comm]
      exact Within.and (by decide) _
    exact { h with mip := h.mip.maskedWrite hpart value }
  | mip => exact { h with mip := h.mip.maskedWrite (by decide) value }
  | mie => exact { h with mie := within_and _ value }
  | medeleg => exact { h with medeleg := within_and _ value }
  | mideleg => exact { h with mideleg := within_and _ value }
  | mtvec => exact { h with mtvec := legalizeTvec_mode value }
  | stvec => exact { h with stvec := legalizeTvec_mode value }
  | mepc => exact { h with mepc := epc_even value }
  | sepc => exact { h with sepc := epc_even value }
  | satp =>
    rw [CsrFile.writeValue]
    split
    · next hmode => exact { h with satp := hmode }
    · exact h
  | _ => exact { h with }

theorem access (h : c.WellFormed) {request : CsrAccessRequest}
    (hs : (c.access request).1.success = true) : (c.access request).2.WellFormed := by
  rcases access_cases hs with heq | ⟨address, value, -, heq⟩
  · rw [heq]
    exact h
  · rw [heq]
    exact h.writeValue address value

theorem enterTrap (h : c.WellFormed) (target source : PrivilegeMode) (pc cause value : BitVec 64) :
    (Cpu.enterTrap c target source pc cause value).WellFormed := by
  rw [Cpu.enterTrap]
  split
  · exact { h with mstatus := h.mstatus.enterSupervisorTrap _ _ _ _, sepc := epc_even pc }
  · exact { h with mstatus := h.mstatus.enterMachineTrap _ _ _ _, mepc := epc_even pc }

theorem setInterruptPending (h : c.WellFormed) (cause : InterruptCause) (pending : Bool) :
    (c.setInterruptPending cause pending).WellFormed := by
  refine { h with mip := ?_ }
  rw [CsrFile.setInterruptPending]
  cases pending with
  | true => exact h.mip.or (within_and _ _)
  | false => exact h.mip.and _

/-- The new value of the vector registers is legal after any update. -/
theorem update {s s' : CpuState} (h : s.csrs.WellFormed) (hu : Update s s') :
    s'.csrs.WellFormed := by
  have hmark : ∀ d : CsrFile, d.vstart.toNat < 256 → d.VectorLegal →
      d.markVectorStateDirty.vstart.toNat < 256 ∧ d.markVectorStateDirty.VectorLegal := by
    intro d hstart hvector
    rw [d.markVectorStateDirty_eq]
    exact ⟨hstart, hvector⟩
  suffices hv : s'.csrs.vstart.toNat < 256 ∧ s'.csrs.VectorLegal from
    h.of_userChange hu.userChange.2 hv.1 hv.2
  cases hu with
  | integer index value =>
    rw [setInteger_eq]
    exact ⟨h.vstart, h.vector⟩
  | floating hon index value =>
    rw [CpuState.setFloating, CsrFile.markFloatingStateDirty_eq]
    exact ⟨h.vstart, h.vector⟩
  | flags flags =>
    rw [CpuState.accrueFlags, CpuState.modifyCsrs, CsrFile.accrueFloatingExceptionFlags]
    split
    · exact ⟨h.vstart, h.vector⟩
    · rw [CsrFile.markFloatingStateDirty_eq]
      exact ⟨h.vstart, h.vector⟩
  | element hon hs =>
    obtain ⟨v, -, rfl⟩ := setVectorElement_eq_some hs
    exact hmark _ h.vstart h.vector
  | startAt hon element => exact hmark _ (and_ff_lt element) h.vector
  | clearStart hon => exact hmark _ (by decide : (0#64).toNat < 256) h.vector
  | configuration hon hc =>
    refine hmark _ (by decide : (0#64).toNat < 256) ?_
    rcases hc with hvill | hlegal | ⟨hold, hnew, hsame, rfl⟩
    · exact Or.inl hvill
    · exact Or.inr hlegal
    · rcases h.vector with ⟨hvill, -⟩ | ⟨-, hle⟩
      · rw [hvill] at hold
        exact absurd hold (by decide)
      · exact Or.inr ⟨hnew, hsame ▸ hle⟩
  | token token => exact ⟨h.vstart, h.vector⟩
  | waiting value => exact ⟨h.vstart, h.vector⟩
  | jump ht => exact ⟨h.vstart, h.vector⟩

end CsrFile.WellFormed

theorem CsrFile.wellFormed_reset : ({} : CsrFile).WellFormed where
  mepc := by decide
  sepc := by decide
  mstatus := ⟨by decide, by decide, by decide⟩
  medeleg := by decide
  mideleg := by decide
  mie := by decide
  mip := by decide
  mtvec := by decide
  stvec := by decide
  satp := by decide
  vstart := by decide
  vector := Or.inl ⟨by decide, rfl⟩

/-! ## The hart -/

theorem Update.programCounter_even {s s' : CpuState} (hu : Update s s')
    (h : s.programCounter.getLsbD 0 = false) : s'.programCounter.getLsbD 0 = false := by
  cases hu with
  | integer index value =>
    rw [setInteger_eq]
    exact h
  | element hon hs =>
    obtain ⟨v, -, rfl⟩ := setVectorElement_eq_some hs
    exact h
  | jump ht => exact ht
  | _ => exact h

/-- A multiple of four added to an aligned base. -/
theorem trapVector_even (c : CsrFile) (target : PrivilegeMode) (interrupt : Bool)
    (cause : BitVec 64) : (c.trapVector target interrupt cause).getLsbD 0 = false := by
  have hbase : ∀ vector : BitVec 64, (vector &&& ~~~3#64).getLsbD 0 = false := by
    intro vector
    rw [BitVec.getLsbD_and, show (~~~3#64).getLsbD 0 = false by decide, Bool.and_false]
  rw [CsrFile.trapVector]
  generalize (if target = .machine then c.mtvec else c.stvec) = vector
  split
  · rw [Bits.getLsbD_zero_add, hbase, Bool.false_xor, Bits.getLsbD_zero_eq, BitVec.toNat_mul,
      show (4#64).toNat = 4 from rfl, decide_eq_false_iff_not]
    omega
  · exact hbase _

namespace CpuState.WellFormed

variable {s s' : CpuState}

theorem updates (h : s.WellFormed) (hu : Updates s s') : s'.WellFormed := by
  induction hu with
  | refl => exact h
  | tail _ hu ih => exact ⟨hu.programCounter_even ih.programCounter, ih.csrs.update hu⟩

theorem retired {bits : BitVec 32} (h : s.WellFormed) (hr : Retired bits s s') : s'.WellFormed := by
  cases hr with
  | updates hu => exact h.updates hu
  | csr hp hs index value ht =>
    rw [setInteger_eq]
    exact ⟨ht, h.csrs.access hs⟩
  | machineReturn hp =>
    exact ⟨h.csrs.mepc, { h.csrs with mstatus := h.csrs.mstatus.returnFromMachine }⟩
  | supervisorReturn hp =>
    exact ⟨h.csrs.sepc, { h.csrs with mstatus := h.csrs.mstatus.returnFromSupervisor }⟩

theorem step {c : Cpu} (h : c.state.WellFormed) : c.step.2.state.WellFormed := by
  obtain ⟨s, s', bits, cycle, instret, hs, hr, hstep, -⟩ := step_change c
  have hs' : s'.WellFormed := by
    rcases hs with rfl | rfl
    · exact h.retired hr
    · exact retired (s := c.awake.state) ⟨h.programCounter, h.csrs⟩ hr
  rw [hstep]
  exact ⟨hs'.programCounter, { hs'.csrs with }⟩

theorem takeTrap {c : Cpu} (h : c.state.WellFormed) (trap : Trap) :
    (c.takeTrap trap).2.state.WellFormed :=
  ⟨trapVector_even _ _ _ _, h.csrs.enterTrap _ _ _ _ _⟩

theorem takePendingInterrupt {c : Cpu} (h : c.state.WellFormed) :
    c.takePendingInterrupt.2.state.WellFormed := by
  rw [Cpu.takePendingInterrupt]
  split
  · exact h
  · exact ⟨trapVector_even _ _ _ _, h.csrs.enterTrap _ _ _ _ _⟩

theorem apply {c : Cpu} (h : c.state.WellFormed) (e : HartEvent) :
    (e.apply c).state.WellFormed := by
  cases e with
  | step => exact h.step
  | takeTrap trap => exact h.takeTrap trap
  | takePendingInterrupt => exact h.takePendingInterrupt
  | setInterruptPending cause pending =>
    exact ⟨h.programCounter, h.csrs.setInterruptPending cause pending⟩
  | memory bus => exact h

theorem reset {resetPc : BitVec 64} (h : resetPc.getLsbD 0 = false) :
    (CpuState.reset resetPc).WellFormed :=
  ⟨h, CsrFile.wellFormed_reset⟩

end CpuState.WellFormed

/-- With an even program counter the misaligned fetch exception is not raised. -/
theorem step_cause {c : Cpu} (h : c.state.programCounter.getLsbD 0 = false) {trap : Trap}
    (ht : c.step.1.trap = some trap) : trap.cause ≠ .instructionAddressMisaligned := by
  have hstep := stepped c
  generalize c.step = r at ht hstep
  cases hstep with
  | stalled hs hb => cases ht
  | faulted hpc hcause hs hb =>
    obtain rfl := Option.some.inj ht
    intro hmis
    rw [hcause hmis] at h
    cases h
  | executed hf hpc hs hb he hr htrap =>
    obtain ⟨t, hdone, -, hc⟩ := htrap trap ht
    rw [hc]
    cases he with
    | retired h => cases hdone
    | trapped hof hstate hbus =>
      obtain rfl := Option.some.inj hdone
      exact hof.cause
    | interrupted hvec hof hup =>
      obtain rfl := Option.some.inj hdone
      exact hof.cause

/-- **Every run from reset stays well formed**, and no step of it raises a misaligned fetch. -/
theorem run_wellFormed {c : Cpu} {resetPc : BitVec 64} (hreset : c.state = .reset resetPc)
    (heven : resetPc.getLsbD 0 = false) (events : List HartEvent) :
    (c.run events).state.WellFormed ∧
      ∀ trap, (c.run events).step.1.trap = some trap →
        trap.cause ≠ .instructionAddressMisaligned := by
  have hrun : (c.run events).state.WellFormed := by
    refine Cpu.run_induction (I := fun c ↦ c.state.WellFormed) (p := fun _ ↦ True)
      (fun c e _ h ↦ h.apply e) ?_ (fun _ _ ↦ trivial)
    rw [hreset]
    exact .reset heven
  exact ⟨hrun, fun trap ht ↦ step_cause hrun.programCounter ht⟩

theorem run_wellFormed_zeroed :
    (zeroedCpu.run [.step, .takeTrap (illegalTrap {}), .step]).state.WellFormed :=
  (run_wellFormed (show zeroedCpu.state = .reset 0#64 from rfl) (by decide)
    [.step, .takeTrap (illegalTrap {}), .step]).1

end Rvemu
