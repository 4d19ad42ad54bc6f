import Rvemu.Core.VectorElements

/-!
# `vadd.vi` and `vadd.vx`

The immediate of `vadd.vi` is extended to eight bits and then cut to SEW, so a negative one loses
the bits above the eighth when the elements are wider.  The main result says when the instruction is
`vadd.vx` with the extended immediate.
-/

set_option autoImplicit false

namespace Rvemu

open Packed

/-- `vadd.vi vd, vs2, imm` -/
def vaddVi (masked : Bool) (vd vs2 imm : BitVec 5) : VectorIntegerInstruction where
  operation := .add
  form := .vectorImmediate
  masked
  destination := vd
  source2 := vs2
  source1 := imm

/-- `vadd.vx vd, vs2, rs1` -/
def vaddVx (masked : Bool) (vd vs2 rs1 : BitVec 5) : VectorIntegerInstruction where
  operation := .add
  form := .vectorScalar
  masked
  destination := vd
  source2 := vs2
  source1 := rs1

/-- The checks in front of an instruction with one vector source. -/
structure Cpu.Accepts (c : Cpu) (masked : Bool) (vd vs2 : BitVec 5) : Prop where
  enabled : c.state.csrs.vectorStateEnabled = true
  groups : (Cpu.arithmeticGroups c.configuration vd vs2 0#5 false).isSome = true
  mask : (masked && vd == 0#5) = false
  length : (c.state.csrs.readValue .vl).toNat ≤ c.configuration.vlmax

/-- The two extensions of the immediate. -/
theorem immediate_eq_iff {sew : ℕ} (hsew : sew = 8 ∨ sew = 16 ∨ sew = 32 ∨ sew = 64)
    (imm : BitVec 5) :
    (signExtendVectorImmediate imm sew).setWidth sew = (imm.signExtend 64).setWidth sew ↔
      sew = 8 ∨ imm.msb = false := by
  rcases hsew with rfl | rfl | rfl | rfl
  · revert imm
    decide
  · revert imm
    decide
  · revert imm
    decide
  · revert imm
    decide

section Single

variable {c : Cpu} (packet : InstructionPacket) (instruction : VectorIntegerInstruction)
  (sequentialPc : BitVec 64)

theorem arithmeticGroups_single {instruction : VectorIntegerInstruction}
    (hform : instruction.form ≠ .vectorVector) :
    Cpu.arithmeticGroups c.configuration instruction.destination instruction.source2
        instruction.source1 (instruction.form == .vectorVector) =
      Cpu.arithmeticGroups c.configuration instruction.destination instruction.source2 0#5
        false := by
  rw [beq_false_of_ne hform]
  rfl

theorem executeVectorInteger_rejected (hform : instruction.form ≠ .vectorVector)
    (h : ¬c.Accepts instruction.masked instruction.destination instruction.source2) :
    (c.executeVectorInteger packet instruction sequentialPc).2 = c := by
  rw [Cpu.executeVectorInteger]
  split
  · rfl
  · next hvs =>
    dsimp only
    split
    · rfl
    · next destination source2 source1 hgroups =>
      split
      · rfl
      · next hchecks =>
        rw [Bool.not_eq_true, Bool.or_eq_false_iff, decide_eq_false_iff_not, Nat.not_lt] at hchecks
        refine absurd ⟨by simpa using hvs, ?_, hchecks.1, hchecks.2⟩ h
        rw [← arithmeticGroups_single hform, Cpu.configuration, hgroups]
        rfl

/-- The registers after an instruction with one vector source. -/
theorem executeVectorInteger_single (hform : instruction.form ≠ .vectorVector)
    (h : c.Accepts instruction.masked instruction.destination instruction.source2) :
    ∃ destination source2,
      VectorRegisterGroup.create c.configuration instruction.destination = some destination ∧
      VectorRegisterGroup.create c.configuration instruction.source2 = some source2 ∧
      (c.executeVectorInteger packet instruction sequentialPc).2.state.vectorState.byte =
        if c.state.csrs.vstart.toNat < (c.state.csrs.readValue .vl).toNat then
          fill c.state.vectorState.byte destination.offset destination.widthBytes
            (integerElementAt c.state instruction
              (c.state.csrs.readValue .vtype) destination source2
              none (c.state.csrs.readValue .vl).toNat)
            c.state.csrs.vstart.toNat
            (if tailAgnostic (c.state.csrs.readValue .vtype) then c.configuration.vlmax
              else (c.state.csrs.readValue .vl).toNat)
        else c.state.vectorState.byte := by
  obtain ⟨⟨destination, source2, source1⟩, hgroups⟩ := Option.isSome_iff_exists.1 h.groups
  rw [← arithmeticGroups_single hform] at hgroups
  obtain ⟨hd, h2, -⟩ := arithmeticGroups_create hgroups
  have hnone : source1 = none := by
    have hsingle := hgroups
    rw [arithmeticGroups_single hform, Cpu.arithmeticGroups, hd, h2] at hsingle
    cases hsingle
    rfl
  subst hnone
  refine ⟨destination, source2, hd, h2, ?_⟩
  rw [(vectorState_executeVectorInteger (integerLoop_none hgroups h.length)
    (executeVectorInteger_of_checks h.enabled hgroups h.mask h.length sequentialPc)).1]
  split
  · next hlt => exact (integerLoop_filled packet hgroups h.mask h.length hlt).bytes
  · next hge => rw [Cpu.integerLoop, runElements, if_neg hge]

/-- Two instructions whose active lanes have the same operands. -/
theorem integerElementAt_congr {s : CpuState} {vtype : BitVec 64}
    {destination source2 : VectorRegisterGroup} {vl i : ℕ}
    (instruction instruction' : VectorIntegerInstruction)
    (hoperation : instruction.operation = instruction'.operation)
    (hmasked : instruction.masked = instruction'.masked)
    (hl : (decodeVectorConfiguration vtype).Legal)
    (hoperand : i < vl → s.laneActive instruction.masked i = true →
      (integerOperandAt s instruction (decodeVectorConfiguration vtype).sewBits none i).setWidth
          (decodeVectorConfiguration vtype).sewBits =
        (integerOperandAt s instruction' (decodeVectorConfiguration vtype).sewBits none i).setWidth
          (decodeVectorConfiguration vtype).sewBits) :
    integerElementAt s instruction vtype destination source2 none vl i =
      integerElementAt s instruction' vtype destination source2 none vl i := by
  have hsew : 0 < (decodeVectorConfiguration vtype).sewBits ∧
      (decodeVectorConfiguration vtype).sewBits ≤ 64 := by
    have h := hl.sew
    omega
  rw [integerElementAt, integerElementAt, ← hoperation, ← hmasked]
  split
  · rfl
  · next hbody =>
    split
    · rfl
    · next hon =>
      have hactive : s.laneActive instruction.masked i = true := by
        rw [maskedOff_iff, Bool.not_eq_false] at hon
        exact hon
      rw [executeVectorIntegerOperation_eq hsew.2 hsew.1,
        executeVectorIntegerOperation_eq hsew.2 hsew.1, hoperand (by omega) hactive]

end Single

/-! ## The comparison -/

/-- **When `vadd.vi` is `vadd.vx`** with the immediate extended to 64 bits: the elements are bytes,
the immediate is not negative, or no element is computed. -/
theorem vadd_vi_eq_vadd_vx_iff (c : Cpu) (masked : Bool) (vd vs2 imm rs1 : BitVec 5)
    (packet packet' : InstructionPacket) (sequentialPc : BitVec 64)
    (hrs1 : c.state.integer rs1 = imm.signExtend 64) :
    (c.executeVectorInteger packet (vaddVi masked vd vs2 imm) sequentialPc).2.state.vectorState =
        (c.executeVectorInteger packet' (vaddVx masked vd vs2 rs1)
          sequentialPc).2.state.vectorState ↔
      c.configuration.sewBits = 8 ∨ imm.msb = false ∨ ¬c.Accepts masked vd vs2 ∨
        ∀ i, c.state.csrs.vstart.toNat ≤ i → i < (c.state.csrs.readValue .vl).toNat →
          c.state.laneActive masked i = false := by
  by_cases haccepts : c.Accepts masked vd vs2
  swap
  · refine iff_of_true ?_ (Or.inr (Or.inr (Or.inl haccepts)))
    rw [executeVectorInteger_rejected packet _ sequentialPc VectorIntegerOperandForm.noConfusion
        haccepts, executeVectorInteger_rejected packet' _ sequentialPc
        VectorIntegerOperandForm.noConfusion haccepts]
  obtain ⟨destination, source2, hd, h2, hbytes⟩ := executeVectorInteger_single packet
    (vaddVi masked vd vs2 imm) sequentialPc VectorIntegerOperandForm.noConfusion haccepts
  obtain ⟨destination', source2', hd', h2', hbytes'⟩ := executeVectorInteger_single packet'
    (vaddVx masked vd vs2 rs1) sequentialPc VectorIntegerOperandForm.noConfusion haccepts
  obtain rfl : destination = destination' := Option.some.inj (hd.symm.trans hd')
  obtain rfl : source2 = source2' := Option.some.inj (h2.symm.trans h2')
  have hl : c.configuration.Legal :=
    (legal_of_valid (VectorRegisterGroup.configuration_create hd).2).1
  have hfits := fits_of_create hl hd
  have hcd := (VectorRegisterGroup.configuration_create hd).1
  have hlength := haccepts.length
  generalize hlast : (if tailAgnostic (c.state.csrs.readValue .vtype) then c.configuration.vlmax
    else (c.state.csrs.readValue .vl).toNat) = last at hbytes hbytes'
  have hle : (c.state.csrs.readValue .vl).toNat ≤ last := by
    rw [← hlast]
    split <;> omega
  constructor
  · -- an active element of more than eight bits tells the two immediates apart
    intro hsame
    by_contra hcon
    simp only [not_or, not_not, not_forall, Bool.not_eq_false] at hcon
    obtain ⟨hsew, hneg, -, i, hi, hi', hactive⟩ := hcon
    rw [if_pos (by omega)] at hbytes hbytes'
    rw [hsame, hbytes'] at hbytes
    have hsew64 : c.configuration.sewBits ≤ 64 := by
      have h := hl.sew
      omega
    have hbits : destination.widthBytes * 8 = c.configuration.sewBits := by rw [← hcd, hfits.sew]
    have helement : ∀ E, (element (fill c.state.vectorState.byte destination.offset
        destination.widthBytes E c.state.csrs.vstart.toNat last) destination.offset
          destination.widthBytes i).setWidth c.configuration.sewBits =
        (E i).setWidth c.configuration.sewBits := by
      intro E
      rw [element_fill _ _ _ hfits.le_eight hi (by omega), hbits, setWidth_setWidth_sew hsew64]
    have hsum := helement (integerElementAt c.state (vaddVx masked vd vs2 rs1)
      (c.state.csrs.readValue .vtype) destination source2 none (c.state.csrs.readValue .vl).toNat)
    have hvi : (integerElementAt c.state (vaddVi masked vd vs2 imm) (c.state.csrs.readValue .vtype)
        destination source2 none (c.state.csrs.readValue .vl).toNat i).setWidth
          c.configuration.sewBits =
        c.state.lane c.configuration.sewBits vs2 i +
          (signExtendVectorImmediate imm c.configuration.sewBits).setWidth
            c.configuration.sewBits :=
      integerElementAt_active h2 hl hi' hactive
    have hvx : (integerElementAt c.state (vaddVx masked vd vs2 rs1) (c.state.csrs.readValue .vtype)
        destination source2 none (c.state.csrs.readValue .vl).toNat i).setWidth
          c.configuration.sewBits =
        c.state.lane c.configuration.sewBits vs2 i +
          (c.state.integer rs1).setWidth c.configuration.sewBits :=
      integerElementAt_active h2 hl hi' hactive
    rw [hbytes, helement, hvi, hvx, BitVec.add_right_inj, hrs1, immediate_eq_iff hl.sew] at hsum
    rcases hsum with h | h
    · exact hsew h
    · rw [h] at hneg
      cases hneg
  · intro hcases
    refine VectorState.ext_byte fun k ↦ ?_
    rw [hbytes, hbytes']
    split
    · refine congrFun (fill_congr _ _ _ fun i hi hi' ↦ ?_) k
      refine integerElementAt_congr (vaddVi masked vd vs2 imm) (vaddVx masked vd vs2 rs1) rfl rfl hl
        fun hbody hactive ↦ ?_
      have himmediate : c.configuration.sewBits = 8 ∨ imm.msb = false := by
        rcases hcases with h | h | h | h
        · exact Or.inl h
        · exact Or.inr h
        · exact absurd haccepts h
        · exact absurd (hactive.symm.trans (h i hi hbody)) (by decide)
      have heq := (immediate_eq_iff hl.sew imm).2 himmediate
      rw [← hrs1] at heq
      exact heq
    · rfl

/-- A hart with one element of sixteen bits in force and minus one in `x1`. -/
def halfWordLane : Cpu :=
  { zeroedCpu with
    state :=
      { integerRegisters := fun r ↦ if r = 1#5 then BitVec.allOnes 64 else 0#64
        csrs := { mstatus := 0x600#64, vtype := 8#64, vl := 1#64 } } }

theorem vadd_vi_eq_vadd_vx_zero :
    (halfWordLane.executeVectorInteger {} (vaddVi false 6#5 2#5 0#5) 4#64).2.state.vectorState =
      (halfWordLane.executeVectorInteger {} (vaddVx false 6#5 2#5 2#5) 4#64).2.state.vectorState :=
  (vadd_vi_eq_vadd_vx_iff halfWordLane false 6#5 2#5 0#5 2#5 {} {} 4#64 (by decide)).2
    (Or.inr (Or.inl (by decide)))

/-- `vadd.vi v6, v2, -1` on zero gives 255. -/
theorem vadd_vi_negative :
    halfWordLane.state.integer 1#5 = (31#5).signExtend 64 ∧
      (halfWordLane.executeVectorInteger {} (vaddVi false 6#5 2#5 31#5) 4#64).2.state.vectorState ≠
        (halfWordLane.executeVectorInteger {} (vaddVx false 6#5 2#5 1#5)
          4#64).2.state.vectorState := by
  refine ⟨by decide, fun h ↦ ?_⟩
  have hbyte := congrArg (fun v ↦ v.registers 6 1) h
  revert hbyte
  decide

end Rvemu
