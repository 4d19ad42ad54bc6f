import Rvemu.Core.Perform
import Rvemu.Isa.Rv64fd
import Rvemu.Lib.Fields

/-!
# Executing a floating-point instruction of the manual

`Cpu.performFloating` carries out an `Isa.FloatingInstruction` on the hart, and the dispatcher does
the same with every encoding of F and D (`executeStandard_eq_performFloating`).  The operands of the
reference are unboxed from the registers, its results are boxed, and its flags accrue.
-/

set_option autoImplicit false

namespace Rvemu

open Isa

/-- Write an outcome to the hart. -/
def CpuState.settle (s : CpuState) (o : Outcome) : CpuState :=
  (match o.written with
    | .floating rd value => s.setFloating rd value
    | .integer rd value => s.setInteger rd value).accrueFlags o.flags

def accessWidth : FloatingFormat → AccessWidth
  | .single => .word
  | .double => .doubleWord

namespace Cpu

/-- Nothing floating is executed while FS is off. -/
def performFloating (c : Cpu) (packet : InstructionPacket) (i : FloatingInstruction) :
    StepResult × Cpu :=
  let x := c.state.integer
  let f := c.state.floating
  let nextPc := packet.programCounter + BitVec.ofNat 64 packet.length
  if !c.state.csrs.floatingStateEnabled then c.illegal packet
  else
    match i with
    | .load format rd rs1 offset =>
      afterAccess packet (c.guestRead packet (x rs1 + offset) (accessWidth format) .load .load)
        fun loaded c ↦
          (c.modifyState (·.setFloating rd (boxed loaded.access.value format))).retire packet nextPc
    | .store format rs1 rs2 offset =>
      afterAccess packet (c.guestWrite packet (x rs1 + offset) (accessWidth format) (f rs2) .store)
        fun _ c ↦ c.retire packet nextPc
    | .compute computation =>
      match computation.outcome x f c.state.csrs.floatingRoundingMode with
      | none => c.illegal packet
      | some o => (c.modifyState (·.settle o)).retire packet nextPc

end Cpu

section Perform

variable {c : Cpu} {packet : InstructionPacket}

theorem performFloating_off (h : c.state.csrs.floatingStateEnabled = false)
    (i : FloatingInstruction) : c.performFloating packet i = c.illegal packet := by
  rw [Cpu.performFloating.eq_def, h]
  rfl

theorem performFloating_on (h : c.state.csrs.floatingStateEnabled = true)
    (i : FloatingInstruction) :
    c.performFloating packet i =
      match i with
      | .load format rd rs1 offset =>
        Cpu.afterAccess packet
          (c.guestRead packet (c.state.integer rs1 + offset) (accessWidth format) .load .load)
          fun loaded c ↦
            (c.modifyState (·.setFloating rd (boxed loaded.access.value format))).retire packet
              (packet.programCounter + BitVec.ofNat 64 packet.length)
      | .store format rs1 rs2 offset =>
        Cpu.afterAccess packet
          (c.guestWrite packet (c.state.integer rs1 + offset) (accessWidth format)
            (c.state.floating rs2) .store)
          fun _ c ↦ c.retire packet (packet.programCounter + BitVec.ofNat 64 packet.length)
      | .compute computation =>
        match computation.outcome c.state.integer c.state.floating
          c.state.csrs.floatingRoundingMode with
        | none => c.illegal packet
        | some o =>
          (c.modifyState (·.settle o)).retire packet
            (packet.programCounter + BitVec.ofNat 64 packet.length) := by
  rw [Cpu.performFloating.eq_def, h]
  rfl

end Perform

/-! ## Registers -/

theorem unboxSinglePrecision_eq (bits : BitVec 64) :
    (unboxSinglePrecision bits).setWidth 64 = operand bits .single := by
  have hhigh : bits >>> 32 = (bits.extractLsb' 32 32).setWidth 64 := by
    refine BitVec.eq_of_toNat_eq ?_
    have hlt := bits.isLt
    rw [BitVec.toNat_setWidth, BitVec.extractLsb'_toNat, BitVec.toNat_ushiftRight,
      Nat.shiftRight_eq_div_pow]
    omega
  have hones : bits >>> 32 = 0xFFFFFFFF#64 ↔ bits.extractLsb' 32 32 = BitVec.allOnes 32 := by
    rw [hhigh, ← BitVec.toNat_inj, ← BitVec.toNat_inj, BitVec.toNat_setWidth,
      Nat.mod_eq_of_lt (Nat.lt_trans (BitVec.isLt _) (by decide))]
    rfl
  rw [unboxSinglePrecision, operand]
  by_cases h : bits >>> 32 = 0xFFFFFFFF#64
  · rw [if_pos h, if_pos (hones.1 h)]
    rfl
  · rw [if_neg h, if_neg (mt hones.2 h)]
    rfl

theorem boxSinglePrecision_eq (value : BitVec 32) :
    boxSinglePrecision value = BitVec.allOnes 32 ++ value := by
  rw [boxSinglePrecision, ← BitVec.setWidth_eq (BitVec.allOnes 32 ++ value),
    BitVec.setWidth_append_eq_shiftLeft_setWidth_or]
  rfl

section Hart

variable (s : CpuState) (format : FloatingFormat)

theorem readComputationalOperand_eq (index : BitVec 5) :
    s.readComputationalOperand format index = operand (s.floating index) format := by
  cases format with
  | single => exact unboxSinglePrecision_eq _
  | double => rfl

theorem setFloatingBits_eq (index : BitVec 5) (bits : BitVec 64) :
    s.setFloatingBits format index bits = s.setFloating index (boxed bits format) := by
  cases format with
  | single => exact congrArg (s.setFloating index) (boxSinglePrecision_eq _)
  | double => rfl

theorem writeFloatingResult_eq (rd : BitVec 5) (result : FloatingResult) :
    s.writeFloatingResult format rd result = s.settle (.ofResult format rd result) := by
  rw [CpuState.writeFloatingResult, setFloatingBits_eq]
  rfl

theorem resolveRounding_eq (bits : BitVec 32) :
    s.resolveRounding (decode bits) =
      rounding (bits.extractLsb' 12 3) s.csrs.floatingRoundingMode := by
  have hresolve : ∀ rm frm : BitVec 3, resolveFloatingRoundingMode rm frm = rounding rm frm := by
    decide
  exact hresolve _ _

theorem accrueFlags_zero : s.accrueFlags 0#8 = s := by
  rw [CpuState.accrueFlags, CpuState.modifyCsrs, CsrFile.accrueFloatingExceptionFlags,
    if_pos (by simp [normalizeFloatingExceptionFlags])]

end Hart

/-! ## Computations -/

section Computations

variable {bits : BitVec 32} (s : CpuState) {format : FloatingFormat} {computation : Computation}

/-- The state a computation leaves, if its rounding mode is not reserved. -/
def CpuState.compute (s : CpuState) (computation : Computation) : Option CpuState :=
  (computation.outcome s.integer s.floating s.csrs.floatingRoundingMode).map s.settle

theorem integerFormat_eq (rs2 : BitVec 5) : CpuState.integerFormat rs2 = Isa.integerFormat rs2 := by
  revert rs2
  decide

theorem signExtend_word (value : BitVec 64) :
    signExtend (value &&& 0xFFFFFFFF#64) 32 = (value.setWidth 32).signExtend 64 := by
  rw [signExtend_eq _ (by decide) (by decide), BitVec.setWidth_and]
  exact congrArg (BitVec.signExtend 64) BitVec.and_allOnes

theorem fusedCommit_eq {fmt : FloatingFormat} {negateProduct negateAddend : Bool}
    (hformat : Isa.format (bits.extractLsb' 25 2) = some fmt)
    (hproduct : ((decode bits).opcode == 0x4B#7 || (decode bits).opcode == 0x4F#7) = negateProduct)
    (haddend : ((decode bits).opcode == 0x47#7 || (decode bits).opcode == 0x4F#7) = negateAddend) :
    s.fusedCommit (decode bits) = s.compute (.fused fmt negateProduct negateAddend
      (bits.extractLsb' 7 5) (bits.extractLsb' 15 5) (bits.extractLsb' 20 5) (bits.extractLsb' 27 5)
      (bits.extractLsb' 12 3)) := by
  have hdecode : decodeFormat ((decode bits).bits.extractLsb' 25 2) = some fmt := hformat
  rw [CpuState.fusedCommit, hdecode, resolveRounding_eq, hproduct, haddend, CpuState.compute,
    Computation.outcome]
  simp only [readComputationalOperand_eq, writeFloatingResult_eq]
  cases rounding (bits.extractLsb' 12 3) s.csrs.floatingRoundingMode with
  | none => rfl
  | some mode => rfl

theorem arithmeticCommit_eq {operation : FloatingOperation} {function5 : BitVec 5}
    (h : ∀ a b mode, (if function5 = 0#5 then floatingAdd format a b mode
      else if function5 = 1#5 then floatingSubtract format a b mode
      else if function5 = 2#5 then floatingMultiply format a b mode
      else floatingDivide format a b mode) = operation.result format a b mode) :
    s.arithmeticCommit (decode bits) format function5 = s.compute (.arithmetic operation format
      (bits.extractLsb' 7 5) (bits.extractLsb' 15 5) (bits.extractLsb' 20 5)
      (bits.extractLsb' 12 3)) := by
  rw [CpuState.arithmeticCommit, resolveRounding_eq, CpuState.compute, Computation.outcome,
    Option.map_map]
  simp only [readComputationalOperand_eq, writeFloatingResult_eq, h]
  rfl

theorem squareRootCommit_eq (h : bits.extractLsb' 20 5 = 0#5) :
    s.squareRootCommit (decode bits) format = s.compute (.squareRoot format (bits.extractLsb' 7 5)
      (bits.extractLsb' 15 5) (bits.extractLsb' 12 3)) := by
  rw [CpuState.squareRootCommit, if_neg (not_not.2 (show (decode bits).source2 = 0#5 from h)),
    resolveRounding_eq, CpuState.compute, Computation.outcome, Option.map_map]
  simp only [readComputationalOperand_eq, writeFloatingResult_eq]
  rfl

theorem toIntegerCommit_eq {integer : IntegerWidth × Bool}
    (h : Isa.integerFormat (bits.extractLsb' 20 5) = some integer) :
    s.toIntegerCommit (decode bits) format = s.compute (.toInteger format integer.1 integer.2
      (bits.extractLsb' 7 5) (bits.extractLsb' 15 5) (bits.extractLsb' 12 3)) := by
  rw [CpuState.toIntegerCommit, integerFormat_eq,
    show (decode bits).source2 = bits.extractLsb' 20 5 from rfl, h, resolveRounding_eq,
    CpuState.compute, Computation.outcome, Option.map_map]
  simp only [readComputationalOperand_eq, signExtend_word]
  cases rounding (bits.extractLsb' 12 3) s.csrs.floatingRoundingMode with
  | none => rfl
  | some mode => rfl

theorem fromIntegerCommit_eq {integer : IntegerWidth × Bool}
    (h : Isa.integerFormat (bits.extractLsb' 20 5) = some integer) :
    s.fromIntegerCommit (decode bits) format = s.compute (.fromInteger format integer.1 integer.2
      (bits.extractLsb' 7 5) (bits.extractLsb' 15 5) (bits.extractLsb' 12 3)) := by
  rw [CpuState.fromIntegerCommit, integerFormat_eq,
    show (decode bits).source2 = bits.extractLsb' 20 5 from rfl, h, resolveRounding_eq,
    CpuState.compute, Computation.outcome, Option.map_map]
  simp only [writeFloatingResult_eq]
  cases rounding (bits.extractLsb' 12 3) s.csrs.floatingRoundingMode with
  | none => rfl
  | some mode => rfl

theorem convertFormatCommit_eq {destination source : FloatingFormat}
    (h : (decode bits).function7 = 0x20#7 ∧ (decode bits).source2 = 1#5 ∧ destination = .single ∧
        source = .double ∨
      (decode bits).function7 = 0x21#7 ∧ (decode bits).source2 = 0#5 ∧ destination = .double ∧
        source = .single) :
    s.convertFormatCommit (decode bits) = s.compute (.convert destination source
      (bits.extractLsb' 7 5) (bits.extractLsb' 15 5) (bits.extractLsb' 12 3)) := by
  rw [CpuState.convertFormatCommit, resolveRounding_eq, CpuState.compute, Computation.outcome,
    Option.map_map]
  simp only [readComputationalOperand_eq, writeFloatingResult_eq]
  rcases h with ⟨h7, h2, rfl, rfl⟩ | ⟨h7, h2, rfl, rfl⟩
  · rw [h7, h2]
    rfl
  · rw [h7, h2]
    rfl

theorem signInjectCommit_eq (h : bits.extractLsb' 12 3 = 0#3 ∨ bits.extractLsb' 12 3 = 1#3 ∨
      bits.extractLsb' 12 3 = 2#3) :
    s.signInjectCommit (decode bits) format = s.compute (.signInject format (bits.extractLsb' 12 3)
      (bits.extractLsb' 7 5) (bits.extractLsb' 15 5) (bits.extractLsb' 20 5)) := by
  have hle : ∀ f3 : BitVec 3, f3 = 0#3 ∨ f3 = 1#3 ∨ f3 = 2#3 → ¬ f3 > 2#3 := by decide
  rw [CpuState.signInjectCommit, if_neg (show ¬ (decode bits).function3 > 2#3 from hle _ h)]
  simp only [readComputationalOperand_eq, writeFloatingResult_eq]
  rfl

theorem minimumMaximumCommit_eq {maximum : Bool}
    (h : bits.extractLsb' 12 3 = 0#3 ∧ maximum = false ∨
      bits.extractLsb' 12 3 = 1#3 ∧ maximum = true) :
    s.minimumMaximumCommit (decode bits) format = s.compute (.minimumMaximum format maximum
      (bits.extractLsb' 7 5) (bits.extractLsb' 15 5) (bits.extractLsb' 20 5)) := by
  rw [CpuState.minimumMaximumCommit,
    show (decode bits).function3 = bits.extractLsb' 12 3 from rfl]
  simp only [readComputationalOperand_eq, writeFloatingResult_eq]
  rcases h with ⟨h3, rfl⟩ | ⟨h3, rfl⟩
  · rw [h3]
    rfl
  · rw [h3]
    rfl

theorem compareCommit_eq {comparison : FloatingComparison}
    (h : Isa.comparison (bits.extractLsb' 12 3) = some comparison) :
    s.compareCommit (decode bits) format = s.compute (.compare comparison format
      (bits.extractLsb' 7 5) (bits.extractLsb' 15 5) (bits.extractLsb' 20 5)) := by
  have hdecode : CpuState.decodeComparison (decode bits).function3 = some comparison := h
  rw [CpuState.compareCommit, hdecode]
  simp only [readComputationalOperand_eq]
  rfl

theorem classifyCommit_eq (h : bits.extractLsb' 12 3 = 1#3) :
    s.moveToIntegerCommit (decode bits) format = s.compute (.classify format
      (bits.extractLsb' 7 5) (bits.extractLsb' 15 5)) := by
  rw [CpuState.moveToIntegerCommit, if_pos (show (decode bits).function3 = 1#3 from h)]
  simp only [readComputationalOperand_eq]
  exact congrArg some (accrueFlags_zero _).symm

theorem moveToIntegerCommit_eq (h : bits.extractLsb' 12 3 = 0#3) :
    s.moveToIntegerCommit (decode bits) format = s.compute (.moveToInteger format
      (bits.extractLsb' 7 5) (bits.extractLsb' 15 5)) := by
  rw [CpuState.moveToIntegerCommit, show (decode bits).function3 = 0#3 from h, if_neg (by decide),
    if_pos rfl]
  simp only [signExtend_word]
  cases format with
  | single => exact congrArg some (accrueFlags_zero _).symm
  | double => exact congrArg some (accrueFlags_zero _).symm

theorem moveFromIntegerCommit_eq :
    some (s.setFloatingBits format (bits.extractLsb' 7 5) (s.integer (bits.extractLsb' 15 5))) =
      s.compute (.moveFromInteger format (bits.extractLsb' 7 5) (bits.extractLsb' 15 5)) := by
  rw [setFloatingBits_eq]
  exact congrArg some (accrueFlags_zero _).symm

/-- OP-FP. -/
theorem opFpCommit_eq (hformat : Isa.format (bits.extractLsb' 25 2) = some format)
    (h : Computation.decode bits format = some computation) :
    s.opFpCommit (decode bits) = s.compute computation := by
  have h5 : (decode bits).function7.extractLsb' 2 5 = bits.extractLsb' 27 5 :=
    Fields.extractLsb'_extractLsb' bits 25 (by decide)
  have h2 : decodeFormat ((decode bits).function7.extractLsb' 0 2) = some format := by
    rw [show (decode bits).function7.extractLsb' 0 2 = bits.extractLsb' 25 2 from
      Fields.extractLsb'_extractLsb' bits 25 (by decide)]
    exact hformat
  rw [CpuState.opFpCommit, h2, h5]
  unfold Computation.decode at h
  refine of_ite_eq h (fun hop h ↦ ?_) fun _ h ↦ ?_
  · cases h
    rw [hop]
    exact arithmeticCommit_eq s fun _ _ _ ↦ rfl
  refine of_ite_eq h (fun hop h ↦ ?_) fun _ h ↦ ?_
  · cases h
    rw [hop]
    exact arithmeticCommit_eq s fun _ _ _ ↦ rfl
  refine of_ite_eq h (fun hop h ↦ ?_) fun _ h ↦ ?_
  · cases h
    rw [hop]
    exact arithmeticCommit_eq s fun _ _ _ ↦ rfl
  refine of_ite_eq h (fun hop h ↦ ?_) fun _ h ↦ ?_
  · cases h
    rw [hop]
    exact arithmeticCommit_eq s fun _ _ _ ↦ rfl
  refine of_ite_eq h (fun hop h ↦ ?_) fun _ h ↦ ?_
  · refine of_ite_eq h (fun hrs2 h ↦ ?_) fun _ h ↦ by cases h
    cases h
    rw [hop]
    exact squareRootCommit_eq s hrs2
  refine of_ite_eq h (fun hop h ↦ ?_) fun _ h ↦ ?_
  · refine of_ite_eq h (fun hrm h ↦ ?_) fun _ h ↦ by cases h
    cases h
    rw [hop]
    exact signInjectCommit_eq s hrm
  refine of_ite_eq h (fun hop h ↦ ?_) fun _ h ↦ ?_
  · rw [hop]
    refine of_ite_eq h (fun hrm h ↦ ?_) fun _ h ↦ ?_
    · cases h
      exact minimumMaximumCommit_eq s (Or.inl ⟨hrm, rfl⟩)
    · refine of_ite_eq h (fun hrm h ↦ ?_) fun _ h ↦ by cases h
      cases h
      exact minimumMaximumCommit_eq s (Or.inr ⟨hrm, rfl⟩)
  refine of_ite_eq h (fun hop h ↦ ?_) fun _ h ↦ ?_
  · obtain ⟨comparison, hcomparison, rfl⟩ := Option.map_eq_some_iff.1 h
    rw [hop]
    exact compareCommit_eq s hcomparison
  refine of_ite_eq h (fun hop h ↦ ?_) fun _ h ↦ ?_
  · obtain ⟨integer, hinteger, rfl⟩ := Option.map_eq_some_iff.1 h
    rw [hop]
    exact toIntegerCommit_eq s hinteger
  refine of_ite_eq h (fun hop h ↦ ?_) fun _ h ↦ ?_
  · obtain ⟨integer, hinteger, rfl⟩ := Option.map_eq_some_iff.1 h
    rw [hop]
    exact fromIntegerCommit_eq s hinteger
  refine of_ite_eq h (fun hop h ↦ ?_) fun _ h ↦ ?_
  · refine of_ite_eq h (fun _ h ↦ by cases h) fun hrs2 h ↦ ?_
    rw [hop, show (decode bits).source2 = 0#5 from not_not.1 hrs2]
    refine of_ite_eq h (fun hrm h ↦ ?_) fun _ h ↦ ?_
    · cases h
      exact moveToIntegerCommit_eq s hrm
    · refine of_ite_eq h (fun hrm h ↦ ?_) fun _ h ↦ by cases h
      cases h
      exact classifyCommit_eq s hrm
  refine of_ite_eq h (fun hop h ↦ ?_) fun _ h ↦ ?_
  · refine of_ite_eq h (fun hmove h ↦ ?_) fun _ h ↦ by cases h
    cases h
    rw [hop, show (decode bits).source2 = 0#5 from hmove.1,
      show (decode bits).function3 = 0#3 from hmove.2]
    exact moveFromIntegerCommit_eq s
  refine of_ite_eq h (fun hop h ↦ ?_) fun _ h ↦ by cases h
  · have h7 : ∀ f7 : BitVec 7, f7.extractLsb' 2 5 = 0x08#5 →
        (f7.extractLsb' 0 2 = 0#2 → f7 = 0x20#7) ∧ (f7.extractLsb' 0 2 = 1#2 → f7 = 0x21#7) := by
      decide
    obtain ⟨hsingle, hdouble⟩ := h7 (decode bits).function7 (h5.trans hop)
    have hfmt : Isa.format ((decode bits).function7.extractLsb' 0 2) = some format := h2
    rw [hop]
    cases format with
    | single =>
      refine of_ite_eq h (fun hrs2 h ↦ ?_) fun _ h ↦ by cases h
      cases h
      refine convertFormatCommit_eq s (Or.inl ⟨hsingle ?_, hrs2, rfl, rfl⟩)
      exact of_ite_eq hfmt (fun hfmt _ ↦ hfmt) fun _ h ↦
        of_ite_eq h (fun _ h ↦ by cases h) fun _ h ↦ by cases h
    | double =>
      refine of_ite_eq h (fun hrs2 h ↦ ?_) fun _ h ↦ by cases h
      cases h
      refine convertFormatCommit_eq s (Or.inr ⟨hdouble ?_, hrs2, rfl, rfl⟩)
      exact of_ite_eq hfmt (fun _ h ↦ by cases h) fun _ h ↦
        of_ite_eq h (fun hfmt _ ↦ hfmt) fun _ h ↦ by cases h

end Computations

/-! ## The dispatcher -/

section Dispatch

variable {c : Cpu} {packet : InstructionPacket}

theorem commit_compute (c : Cpu) (packet : InstructionPacket) (nextPc : BitVec 64)
    (computation : Computation) :
    c.commit packet nextPc (c.state.compute computation) =
      match computation.outcome c.state.integer c.state.floating
        c.state.csrs.floatingRoundingMode with
      | none => c.illegal packet
      | some o => (c.modifyState (·.settle o)).retire packet nextPc := by
  rw [CpuState.compute]
  cases computation.outcome c.state.integer c.state.floating c.state.csrs.floatingRoundingMode with
  | none => rfl
  | some o => rfl

/-- Vector loads and stores have other widths. -/
theorem decodeVectorMemoryOperation_of_format {bits : BitVec 32} {format : FloatingFormat}
    (h : accessFormat (bits.extractLsb' 12 3) = some format) (load : Bool) :
    decodeVectorMemoryOperation bits load = none := by
  have hwidth : ∀ f3 : BitVec 3, accessFormat f3 ≠ none → decodeElementWidth f3 = none := by decide
  rw [decodeVectorMemoryOperation, hwidth _ (by rw [h]; exact nofun)]
  rfl

theorem floatingAccess_of_format {function3 : BitVec 3} {format : FloatingFormat}
    (h : accessFormat function3 = some format) :
    Cpu.floatingAccess function3 = some (accessWidth format, format) := by
  have haccess : ∀ f3 : BitVec 3, Cpu.floatingAccess f3 =
      (accessFormat f3).map fun format ↦ (accessWidth format, format) := by decide
  rw [haccess, h]
  rfl

theorem executeFloating_eq {i : FloatingInstruction}
    (h : FloatingInstruction.decode packet.bits = some i) :
    c.executeFloating packet (decode packet.bits)
        (packet.programCounter + BitVec.ofNat 64 packet.length) = c.performFloating packet i := by
  rw [Cpu.executeFloating]
  cases hon : c.state.csrs.floatingStateEnabled with
  | false => exact (performFloating_off hon i).symm
  | true =>
    rw [if_neg (by decide), performFloating_on hon]
    rw [FloatingInstruction.decode] at h
    refine of_ite_eq h (fun hop h ↦ ?_) fun _ h ↦ ?_
    · obtain ⟨format, hformat, rfl⟩ := Option.map_eq_some_iff.1 h
      rw [if_pos (show (decode packet.bits).opcode = 0x07#7 from hop), Cpu.executeFloatingLoad,
        show (decode packet.bits).function3 = packet.bits.extractLsb' 12 3 from rfl,
        floatingAccess_of_format hformat, immediateI_eq]
      simp only [setFloatingBits_eq]
      rfl
    refine of_ite_eq h (fun hop h ↦ ?_) fun _ h ↦ ?_
    · obtain ⟨format, hformat, rfl⟩ := Option.map_eq_some_iff.1 h
      rw [show (decode packet.bits).opcode = 0x27#7 from hop, if_neg (by decide), if_pos rfl,
        Cpu.executeFloatingStore,
        show (decode packet.bits).function3 = packet.bits.extractLsb' 12 3 from rfl,
        floatingAccess_of_format hformat, immediateS_eq]
      rfl
    have hfused : ∀ negateProduct negateAddend,
        ((decode packet.bits).opcode == 0x4B#7 || (decode packet.bits).opcode == 0x4F#7) =
          negateProduct →
        ((decode packet.bits).opcode == 0x47#7 || (decode packet.bits).opcode == 0x4F#7) =
          negateAddend →
        ((Isa.format (packet.bits.extractLsb' 25 2)).map fun format ↦
          FloatingInstruction.compute (.fused format negateProduct negateAddend
            (packet.bits.extractLsb' 7 5) (packet.bits.extractLsb' 15 5)
            (packet.bits.extractLsb' 20 5) (packet.bits.extractLsb' 27 5)
            (packet.bits.extractLsb' 12 3))) = some i →
        ∃ computation, i = .compute computation ∧
          c.state.fusedCommit (decode packet.bits) = c.state.compute computation := by
      intro negateProduct negateAddend hproduct haddend h
      obtain ⟨format, hformat, rfl⟩ := Option.map_eq_some_iff.1 h
      exact ⟨_, rfl, fusedCommit_eq c.state hformat hproduct haddend⟩
    refine of_ite_eq h (fun hop h ↦ ?_) fun _ h ↦ ?_
    · have hop' : (decode packet.bits).opcode = 0x43#7 := hop
      obtain ⟨computation, rfl, hcommit⟩ := hfused false false (by rw [hop']; rfl)
        (by rw [hop']; rfl) h
      rw [hcommit, hop', commit_compute]
      rfl
    refine of_ite_eq h (fun hop h ↦ ?_) fun _ h ↦ ?_
    · have hop' : (decode packet.bits).opcode = 0x47#7 := hop
      obtain ⟨computation, rfl, hcommit⟩ := hfused false true (by rw [hop']; rfl)
        (by rw [hop']; rfl) h
      rw [hcommit, hop', commit_compute]
      rfl
    refine of_ite_eq h (fun hop h ↦ ?_) fun _ h ↦ ?_
    · have hop' : (decode packet.bits).opcode = 0x4B#7 := hop
      obtain ⟨computation, rfl, hcommit⟩ := hfused true false (by rw [hop']; rfl)
        (by rw [hop']; rfl) h
      rw [hcommit, hop', commit_compute]
      rfl
    refine of_ite_eq h (fun hop h ↦ ?_) fun _ h ↦ ?_
    · have hop' : (decode packet.bits).opcode = 0x4F#7 := hop
      obtain ⟨computation, rfl, hcommit⟩ := hfused true true (by rw [hop']; rfl)
        (by rw [hop']; rfl) h
      rw [hcommit, hop', commit_compute]
      rfl
    refine of_ite_eq h (fun hop h ↦ ?_) fun _ h ↦ by cases h
    · obtain ⟨format, hformat, h⟩ := Option.bind_eq_some_iff.1 h
      obtain ⟨computation, hcomputation, rfl⟩ := Option.map_eq_some_iff.1 h
      rw [show (decode packet.bits).opcode = 0x53#7 from hop,
        opFpCommit_eq c.state hformat hcomputation, commit_compute]
      rfl

theorem opcode_of_decode {bits : BitVec 32} {i : FloatingInstruction}
    (h : FloatingInstruction.decode bits = some i) :
    ((bits.extractLsb' 0 7 = 0x07#7 ∨ bits.extractLsb' 0 7 = 0x27#7) ∧
      ∃ format, accessFormat (bits.extractLsb' 12 3) = some format) ∨
    bits.extractLsb' 0 7 = 0x43#7 ∨ bits.extractLsb' 0 7 = 0x47#7 ∨ bits.extractLsb' 0 7 = 0x4B#7 ∨
    bits.extractLsb' 0 7 = 0x4F#7 ∨ bits.extractLsb' 0 7 = 0x53#7 := by
  rw [FloatingInstruction.decode] at h
  refine of_ite_eq h (fun hop h ↦ ?_) fun _ h ↦ of_ite_eq h (fun hop h ↦ ?_) fun _ h ↦ ?_
  · obtain ⟨format, hformat, -⟩ := Option.map_eq_some_iff.1 h
    exact Or.inl ⟨Or.inl hop, format, hformat⟩
  · obtain ⟨format, hformat, -⟩ := Option.map_eq_some_iff.1 h
    exact Or.inl ⟨Or.inr hop, format, hformat⟩
  refine Or.inr (of_ite_eq h (fun hop _ ↦ Or.inl hop) fun _ h ↦ Or.inr ?_)
  refine of_ite_eq h (fun hop _ ↦ Or.inl hop) fun _ h ↦ Or.inr ?_
  refine of_ite_eq h (fun hop _ ↦ Or.inl hop) fun _ h ↦ Or.inr ?_
  refine of_ite_eq h (fun hop _ ↦ Or.inl hop) fun _ h ↦ Or.inr ?_
  exact of_ite_eq h (fun hop _ ↦ hop) fun _ h ↦ nomatch h

/-- **The dispatcher performs the floating-point instruction an encoding stands for.** -/
theorem executeStandard_eq_performFloating {i : FloatingInstruction}
    (h : FloatingInstruction.decode packet.bits = some i) :
    c.executeStandard packet = c.performFloating packet i := by
  rw [← executeFloating_eq h]
  rcases opcode_of_decode h with ⟨hop | hop, format, hformat⟩ | hop | hop | hop | hop | hop
  · rw [Cpu.executeStandard, show (decode packet.bits).opcode = 0x07#7 from hop]
    show c.executeLoadStoreFp _ _ _ = _
    rw [Cpu.executeLoadStoreFp, decodeVectorMemoryOperation_of_format hformat]
  · rw [Cpu.executeStandard, show (decode packet.bits).opcode = 0x27#7 from hop]
    show c.executeLoadStoreFp _ _ _ = _
    rw [Cpu.executeLoadStoreFp, decodeVectorMemoryOperation_of_format hformat]
  all_goals
    rw [Cpu.executeStandard, show (decode packet.bits).opcode = _ from hop]
    rfl

end Dispatch

end Rvemu
