import Rvemu.Core.DirtyTracking
import Rvemu.Core.VectorElements

/-!
# Vector floating-point, element by element

The loop writes results in place, as the integer one does, and collects the exception flags of the
elements it computes.  `FloatingFilled` extends `Filled` by the flags collected so far: the elements
that are masked off, and those in front of `vstart` and behind `vl`, contribute nothing to them.
-/

set_option autoImplicit false

namespace Rvemu

open Packed SoftFloat

/-! ## Operands of single precision

The soft-float core looks at the low half of a single-precision operand only, so a scalar operand
may be handed to it with whatever is above. -/

section Single

/-- The raw bits of an operand that an operation of the format looks at. -/
def rawOperand : FloatingFormat → BitVec 64 → BitVec 64
  | .single, bits => (bits.setWidth 32).setWidth 64
  | .double, bits => bits

variable (format : FloatingFormat) (bits : BitVec 64)

theorem rawOperand_and {mask : BitVec 64} (h : mask &&& 0xFFFFFFFF#64 = mask) :
    rawOperand .single bits &&& mask = bits &&& mask := by
  have hlow : rawOperand .single bits = bits &&& 0xFFFFFFFF#64 :=
    (and_maskFor (by decide) bits).symm
  rw [hlow, BitVec.and_assoc, BitVec.and_comm 0xFFFFFFFF#64, h]

theorem unpack_rawOperand : unpack format (rawOperand format bits) = unpack format bits := by
  cases format with
  | double => rfl
  | single =>
    have hsign : rawOperand .single bits &&& (formatOf .single).signMask =
        bits &&& (formatOf .single).signMask := rawOperand_and bits (by decide)
    have hexponent : rawOperand .single bits &&& (formatOf .single).exponentMask =
        bits &&& (formatOf .single).exponentMask := rawOperand_and bits (by decide)
    have hfraction : rawOperand .single bits &&& (formatOf .single).fractionMask =
        bits &&& (formatOf .single).fractionMask := rawOperand_and bits (by decide)
    rw [unpack, unpack, hsign, hexponent, hfraction]

theorem rawOperand_xor_signMask :
    rawOperand format bits ^^^ (formatOf format).signMask =
      rawOperand format (bits ^^^ (formatOf format).signMask) := by
  cases format with
  | double => rfl
  | single =>
    rw [rawOperand, rawOperand, BitVec.setWidth_xor, BitVec.setWidth_xor]
    rfl

theorem executeVectorFloatingOperation_rawOperand (operation : VectorFloatingOperation)
    (lhs rhs : BitVec 64) (rounding : FloatingRoundingMode) :
    executeVectorFloatingOperation operation format (rawOperand format lhs) (rawOperand format rhs)
        rounding =
      executeVectorFloatingOperation operation format lhs rhs rounding := by
  cases operation with
  | add => simp only [executeVectorFloatingOperation, floatingAdd, unpack_rawOperand]
  | subtract =>
    simp only [executeVectorFloatingOperation, floatingSubtract, floatingAdd,
      rawOperand_xor_signMask, unpack_rawOperand]
  | multiply => simp only [executeVectorFloatingOperation, floatingMultiply, unpack_rawOperand]
  | divide => simp only [executeVectorFloatingOperation, floatingDivide, unpack_rawOperand]

end Single

/-! ## The state in front of an element -/

/-- The elements from `start` up to `i` have got the values `E`, and the flags `F` of them have been
collected. -/
structure FloatingFilled (s₀ : CpuState) (g : VectorRegisterGroup) (E : ℕ → BitVec 64)
    (F : ℕ → BitVec 8) (start i : ℕ) (s : CpuState × BitVec 8) : Prop where
  filled : Filled s₀ g E start i s.1
  csrs : ∃ mstatus, s.1.csrs = { s₀.csrs with mstatus }
  enabled : s.1.csrs.floatingStateEnabled = s₀.csrs.floatingStateEnabled
  flags : ∀ k, s.2.getLsbD k = true ↔ ∃ j, start ≤ j ∧ j < i ∧ (F j).getLsbD k = true

namespace FloatingFilled

variable {s₀ : CpuState} {s : CpuState × BitVec 8} {g : VectorRegisterGroup} {E : ℕ → BitVec 64}
  {F : ℕ → BitVec 8} {start i : ℕ}

theorem start_self (s₀ : CpuState) (g : VectorRegisterGroup) (E : ℕ → BitVec 64)
    (F : ℕ → BitVec 8) (start : ℕ) : FloatingFilled s₀ g E F start start (s₀, 0#8) where
  filled := Filled.start_self s₀ g E start
  csrs := ⟨s₀.csrs.mstatus, rfl⟩
  enabled := rfl
  flags k := by
    rw [BitVec.getLsbD_zero]
    refine iff_of_false Bool.false_ne_true ?_
    rintro ⟨j, hj, hj', -⟩
    omega

/-- The flags of one more element. -/
theorem flags_succ (h : FloatingFilled s₀ g E F start i s) (hstart : start ≤ i) (k : ℕ) :
    (s.2 ||| F i).getLsbD k = true ↔ ∃ j, start ≤ j ∧ j < i + 1 ∧ (F j).getLsbD k = true := by
  rw [BitVec.getLsbD_or, Bool.or_eq_true, h.flags]
  constructor
  · rintro (⟨j, hj, hj', hflag⟩ | hflag)
    · exact ⟨j, hj, by omega, hflag⟩
    · exact ⟨i, hstart, by omega, hflag⟩
  · rintro ⟨j, hj, hj', hflag⟩
    rcases Nat.lt_succ_iff_lt_or_eq.1 hj' with hlt | rfl
    · exact Or.inl ⟨j, hj, hlt, hflag⟩
    · exact Or.inr hflag

/-- Computing the element. -/
theorem put (h : FloatingFilled s₀ g E F start i s) (hg : g.Fits) (hstart : start ≤ i)
    (hi : i < g.configuration.vlmax) (packet : InstructionPacket) :
    (s.1.putElement packet g (E i) i).1 = none ∧
      FloatingFilled s₀ g E F start (i + 1)
        ((s.1.putElement packet g (E i) i).2, s.2 ||| F i) := by
  obtain ⟨hnone, hfilled⟩ := h.filled.put hg hstart hi packet
  obtain ⟨v, hwrite, -⟩ := VectorRegisterGroup.writeElement_eq hg s.1.vectorState hi (E i)
  have hcsrs : (s.1.putElement packet g (E i) i).2.csrs = s.1.csrs.markVectorStateDirty := by
    rw [CpuState.putElement, CpuState.setVectorElement, hwrite]
    rfl
  obtain ⟨mstatus, hm⟩ := h.csrs
  refine ⟨hnone, hfilled, ?_, ?_, h.flags_succ hstart⟩
  · rw [hcsrs, CsrFile.markVectorStateDirty_eq, hm]
    exact ⟨_, rfl⟩
  · rw [hcsrs, CsrFile.floatingStateEnabled_markVectorStateDirty, h.enabled]

/-- Filling an element that is not computed. -/
theorem fill (h : FloatingFilled s₀ g E F start i s) (hg : g.Fits) (hstart : start ≤ i)
    (hi : i < g.configuration.vlmax) (hF : F i = 0#8) (packet : InstructionPacket) :
    (s.1.putElement packet g (E i) i).1 = none ∧
      FloatingFilled s₀ g E F start (i + 1) ((s.1.putElement packet g (E i) i).2, s.2) := by
  have hput := h.put hg hstart hi packet
  rwa [hF, BitVec.or_zero] at hput

/-- Keeping the element. -/
theorem keep (h : FloatingFilled s₀ g E F start i s) (hg : g.Fits) (hstart : start ≤ i)
    (hE : E i = element s₀.vectorState.byte g.offset g.widthBytes i) (hF : F i = 0#8) :
    FloatingFilled s₀ g E F start (i + 1) s where
  filled := h.filled.keep hg hstart hE
  csrs := h.csrs
  enabled := h.enabled
  flags k := by
    have hsucc := h.flags_succ hstart k
    rwa [hF, BitVec.or_zero] at hsucc

theorem floating_eq (h : FloatingFilled s₀ g E F start i s) (r : BitVec 5) :
    s.1.floating r = s₀.floating r := by
  rw [h.filled.others]
  rfl

end FloatingFilled

/-! ## The loop -/

section Loop

/-- The second operand of an element. -/
def floatingOperandAt (s : CpuState) (instruction : VectorFloatingInstruction)
    (source1 : Option VectorRegisterGroup) (i : ℕ) : BitVec 64 :=
  match instruction.form with
  | .vectorVector => source1.elim 0#64 fun g ↦ element s.vectorState.byte g.offset g.widthBytes i
  | .vectorScalarFloating => s.floating instruction.source1

def floatingFormatOf (configuration : VectorConfiguration) : FloatingFormat :=
  if configuration.sewBits = 32 then .single else .double

def floatingAgnosticValue (configuration : VectorConfiguration) : BitVec 64 :=
  if configuration.sewBits = 64 then BitVec.allOnes 64 else 0xFFFFFFFF#64

/-- What the soft-float core makes of element `i`, from the state in front of the instruction. -/
def floatingResultAt (s : CpuState) (instruction : VectorFloatingInstruction) (vtype : BitVec 64)
    (rounding : FloatingRoundingMode) (source2 : VectorRegisterGroup)
    (source1 : Option VectorRegisterGroup) (i : ℕ) : FloatingResult :=
  executeVectorFloatingOperation instruction.operation
    (floatingFormatOf (decodeVectorConfiguration vtype))
    (element s.vectorState.byte source2.offset source2.widthBytes i)
    (floatingOperandAt s instruction source1 i) rounding

def floatingElementAt (s : CpuState) (instruction : VectorFloatingInstruction) (vtype : BitVec 64)
    (rounding : FloatingRoundingMode) (destination source2 : VectorRegisterGroup)
    (source1 : Option VectorRegisterGroup) (vl i : ℕ) : BitVec 64 :=
  if vl ≤ i then floatingAgnosticValue (decodeVectorConfiguration vtype)
  else if instruction.masked && !s.vectorState.maskBit i then
    if maskAgnostic vtype then floatingAgnosticValue (decodeVectorConfiguration vtype)
    else element s.vectorState.byte destination.offset destination.widthBytes i
  else (floatingResultAt s instruction vtype rounding source2 source1 i).bits

/-- The flags element `i` raises. -/
def floatingFlagsAt (s : CpuState) (instruction : VectorFloatingInstruction) (vtype : BitVec 64)
    (rounding : FloatingRoundingMode) (source2 : VectorRegisterGroup)
    (source1 : Option VectorRegisterGroup) (vl i : ℕ) : BitVec 8 :=
  if vl ≤ i then 0#8
  else if instruction.masked && !s.vectorState.maskBit i then 0#8
  else (floatingResultAt s instruction vtype rounding source2 source1 i).flags

variable {s₀ : CpuState} {s : CpuState × BitVec 8} {packet : InstructionPacket}
  {instruction : VectorFloatingInstruction} {vtype : BitVec 64} {rounding : FloatingRoundingMode}
  {destination source2 : VectorRegisterGroup} {source1 : Option VectorRegisterGroup}
  {start vl i : ℕ}

/-- One body element. -/
theorem floatingElement_filled
    (hg : Cpu.arithmeticGroups (decodeVectorConfiguration vtype) instruction.destination
      instruction.source2 instruction.source1 (instruction.form == .vectorVector) =
        some (destination, source2, source1))
    (hl : (decodeVectorConfiguration vtype).Legal)
    (hmask : (instruction.masked && instruction.destination == 0#5) = false)
    (hstart : start ≤ i) (hvl : i < vl) (hvlmax : vl ≤ (decodeVectorConfiguration vtype).vlmax)
    (h : FloatingFilled s₀ destination
      (floatingElementAt s₀ instruction vtype rounding destination source2 source1 vl)
      (floatingFlagsAt s₀ instruction vtype rounding source2 source1 vl) start i s) :
    (CpuState.floatingElement packet instruction vtype
        (floatingFormatOf (decodeVectorConfiguration vtype)) rounding
        (floatingAgnosticValue (decodeVectorConfiguration vtype)) destination source2
          source1 s i).1 =
          none ∧
      FloatingFilled s₀ destination
        (floatingElementAt s₀ instruction vtype rounding destination source2 source1 vl)
        (floatingFlagsAt s₀ instruction vtype rounding source2 source1 vl) start (i + 1)
        (CpuState.floatingElement packet instruction vtype
          (floatingFormatOf (decodeVectorConfiguration vtype)) rounding
          (floatingAgnosticValue (decodeVectorConfiguration vtype)) destination source2 source1 s
          i).2 := by
  obtain ⟨hd, h2, h1⟩ := arithmeticGroups_create hg
  have hcd := (VectorRegisterGroup.configuration_create hd).1
  have hc2 := (VectorRegisterGroup.configuration_create h2).1
  have hfits := fits_of_create hl hd
  have hbound := hl.vlmax_le
  have hroom : i < destination.configuration.vlmax := by rw [hcd]; omega
  have hoffset : instruction.masked = true → 32 ≤ destination.offset := by
    intro hm
    have hne : instruction.destination ≠ 0#5 := by
      rw [hm, Bool.true_and] at hmask
      exact beq_eq_false_iff_ne.1 hmask
    have hpos : instruction.destination.toNat ≠ 0 := fun hz ↦ hne (BitVec.eq_of_toNat_eq hz)
    rw [VectorRegisterGroup.offset, (VectorRegisterGroup.baseRegister_create hd).1]
    omega
  rw [CpuState.floatingElement, h.filled.maskedOff_eq (by omega) hoffset]
  split
  · next hoff =>
    have hflags : floatingFlagsAt s₀ instruction vtype rounding source2 source1 vl i = 0#8 := by
      rw [floatingFlagsAt, if_neg (by omega), if_pos hoff]
    dsimp only
    rw [CpuState.skipElement]
    split
    · next hagnostic =>
      have hvalue : floatingElementAt s₀ instruction vtype rounding destination source2
          source1 vl i =
          floatingAgnosticValue (decodeVectorConfiguration vtype) := by
        rw [floatingElementAt, if_neg (by omega), if_pos hoff, if_pos hagnostic]
      rw [← hvalue]
      exact h.fill hfits hstart hroom hflags packet
    · next hagnostic =>
      refine ⟨rfl, h.keep hfits hstart ?_ hflags⟩
      rw [floatingElementAt, if_neg (by omega), if_pos hoff, if_neg hagnostic]
  · next hon =>
    have hlhs := h.filled.vectorElement_eq (fits_of_create hl h2) (by rw [hc2]; omega)
      (by rw [hcd]; omega) (source_or_apart hl hd h2)
    have hrhs : s.1.floatingOperand instruction source1 i =
        some (floatingOperandAt s₀ instruction source1 i) := by
      rw [CpuState.floatingOperand, floatingOperandAt]
      cases hform : instruction.form with
      | vectorVector =>
        obtain ⟨g, rfl, hcreate⟩ := h1 (by rw [hform]; rfl)
        have hc1 := (VectorRegisterGroup.configuration_create hcreate).1
        exact h.filled.vectorElement_eq (fits_of_create hl hcreate) (by rw [hc1]; omega)
          (by rw [hcd]; omega) (source_or_apart hl hd hcreate)
      | vectorScalarFloating => exact congrArg some (h.floating_eq _)
    have hvalue : floatingElementAt s₀ instruction vtype rounding destination source2 source1 vl i =
        (floatingResultAt s₀ instruction vtype rounding source2 source1 i).bits := by
      rw [floatingElementAt, if_neg (by omega), if_neg hon]
    have hflags : floatingFlagsAt s₀ instruction vtype rounding source2 source1 vl i =
        (floatingResultAt s₀ instruction vtype rounding source2 source1 i).flags := by
      rw [floatingFlagsAt, if_neg (by omega), if_neg hon]
    have hput := h.put hfits hstart hroom packet
    rw [hvalue, hflags] at hput
    rw [hlhs, hrhs]
    exact hput

/-- **The floating loop**: every element from `vstart` on gets its value, and the flags are those of
the active elements. -/
theorem floatingLoop_filled {c : Cpu} (packet : InstructionPacket)
    (rounding : FloatingRoundingMode)
    (hg : Cpu.arithmeticGroups c.configuration instruction.destination instruction.source2
      instruction.source1 (instruction.form == .vectorVector) =
        some (destination, source2, source1))
    (hmask : (instruction.masked && instruction.destination == 0#5) = false)
    (hvl : (c.state.csrs.readValue .vl).toNat ≤ c.configuration.vlmax)
    (hstart : c.state.csrs.vstart.toNat < (c.state.csrs.readValue .vl).toNat) :
    FloatingFilled c.state destination
      (floatingElementAt c.state instruction (c.state.csrs.readValue .vtype) rounding destination
        source2 source1 (c.state.csrs.readValue .vl).toNat)
      (floatingFlagsAt c.state instruction (c.state.csrs.readValue .vtype) rounding source2 source1
        (c.state.csrs.readValue .vl).toNat)
      c.state.csrs.vstart.toNat
      (if tailAgnostic (c.state.csrs.readValue .vtype) then c.configuration.vlmax
        else (c.state.csrs.readValue .vl).toNat)
      (c.floatingLoop packet instruction rounding destination source2 source1).2 := by
  have hl : (decodeVectorConfiguration (c.state.csrs.readValue .vtype)).Legal :=
    (legal_of_valid (arithmeticGroups_eq_some hg).valid).1
  obtain ⟨hd, -, -⟩ := arithmeticGroups_create hg
  have hcd := (VectorRegisterGroup.configuration_create hd).1
  refine (runElements_range hstart hvl ?_ ?_ (FloatingFilled.start_self _ _ _ _ _)).2
  · intro i s hi hi' h
    exact floatingElement_filled hg hl hmask hi hi' hvl h
  · intro i s hi hi' h
    have hvalue : floatingElementAt c.state instruction (c.state.csrs.readValue .vtype) rounding
        destination source2 source1 (c.state.csrs.readValue .vl).toNat i =
          floatingAgnosticValue (decodeVectorConfiguration (c.state.csrs.readValue .vtype)) := by
      rw [floatingElementAt, if_pos hi]
    have hflags : floatingFlagsAt c.state instruction (c.state.csrs.readValue .vtype) rounding
        source2 source1 (c.state.csrs.readValue .vl).toNat i = 0#8 := by
      rw [floatingFlagsAt, if_pos hi]
    have hfill := h.fill (fits_of_create hl hd) (by omega) (by rw [hcd]; exact hi') hflags packet
    rw [hvalue] at hfill
    exact hfill

end Loop

/-! ## Lanes -/

namespace CpuState

variable (s : CpuState) (sew : ℕ)

/-- The second operand of element `i`; of a scalar register the low bits are taken as they are. -/
def floatingLaneOperand (instruction : VectorFloatingInstruction) (i : ℕ) : BitVec sew :=
  match instruction.form with
  | .vectorVector => s.lane sew instruction.source1 i
  | .vectorScalarFloating => (s.floating instruction.source1).setWidth sew

/-- The scalar operation on the operands of element `i`. -/
def floatingLane (instruction : VectorFloatingInstruction) (rounding : FloatingRoundingMode)
    (i : ℕ) : FloatingResult :=
  executeVectorFloatingOperation instruction.operation (if sew = 32 then .single else .double)
    ((s.lane sew instruction.source2 i).setWidth 64)
    ((s.floatingLaneOperand sew instruction i).setWidth 64) rounding

end CpuState

/-- A floating instruction on the elements from `start` on, `vl` of them in all, where `result` is
what the operands of an element in the state before it give. -/
structure FloatingLanes (instruction : VectorFloatingInstruction) (sew vlmax start vl : ℕ)
    (maskAgnostic tailAgnostic : Bool) (result : ℕ → FloatingResult) (before after : CpuState) :
    Prop where
  prestart : ∀ i < start,
    after.lane sew instruction.destination i = before.lane sew instruction.destination i
  active : ∀ i, start ≤ i → i < vl → before.laneActive instruction.masked i = true →
    after.lane sew instruction.destination i = (result i).bits.setWidth sew
  inactive : ∀ i, start ≤ i → i < vl → before.laneActive instruction.masked i = false →
    after.lane sew instruction.destination i =
      if maskAgnostic then BitVec.allOnes sew else before.lane sew instruction.destination i
  tail : ∀ i, vl ≤ i → i < vlmax →
    after.lane sew instruction.destination i =
      if tailAgnostic then BitVec.allOnes sew else before.lane sew instruction.destination i
  outside : ∀ k, k < instruction.destination.toNat * 32 ∨
      instruction.destination.toNat * 32 + vlmax * (sew / 8) ≤ k →
    after.vectorState.byte k = before.vectorState.byte k
  /-- The low five bits of `fcsr` are the flags. -/
  flags : ∀ k, after.csrs.fcsr.getLsbD k = true ↔
    before.csrs.fcsr.getLsbD k = true ∨
      (k < 5 ∧ ∃ i, start ≤ i ∧ i < vl ∧ before.laneActive instruction.masked i = true ∧
        (result i).flags.getLsbD k = true)

/-! ## The scalar instructions -/

/-- The operation field of FADD, FSUB, FMUL and FDIV. -/
def scalarFunction5 : VectorFloatingOperation → BitVec 5
  | .add => 0#5
  | .subtract => 1#5
  | .multiply => 2#5
  | .divide => 3#5

/-- A scalar instruction that reads these operands, with this rounding mode, commits the result. -/
def ScalarResult (operation : VectorFloatingOperation) (format : FloatingFormat)
    (rounding : FloatingRoundingMode) (lhs rhs : BitVec 64) (result : FloatingResult) : Prop :=
  ∀ (s : CpuState) (instruction : DecodedInstruction),
    s.readComputationalOperand format instruction.source1 = lhs →
    s.readComputationalOperand format instruction.source2 = rhs →
    s.resolveRounding instruction = some rounding →
      s.arithmeticCommit instruction format (scalarFunction5 operation) =
        some (s.writeFloatingResult format instruction.destination result)

theorem scalarResult_executeVectorFloatingOperation (operation : VectorFloatingOperation)
    (format : FloatingFormat) (rounding : FloatingRoundingMode) (lhs rhs : BitVec 64) :
    ScalarResult operation format rounding lhs rhs
      (executeVectorFloatingOperation operation format lhs rhs rounding) := by
  rintro s instruction rfl rfl hrounding
  rw [CpuState.arithmeticCommit, hrounding, Option.map_some]
  cases operation <;> rfl

/-! ## The instruction -/

section Instruction

variable {c : Cpu} {packet : InstructionPacket} {instruction : VectorFloatingInstruction}
  {sequentialPc : BitVec 64}

/-- A floating instruction that retires has passed its checks. -/
theorem executeVectorFloating_retired
    (h : (c.executeVectorFloating packet instruction sequentialPc).1.retired = true) :
    c.state.csrs.floatingStateEnabled = true ∧
    (c.configuration.sewBits = 32 ∨ c.configuration.sewBits = 64) ∧
    ∃ rounding, resolveFloatingRoundingMode 7#3 c.state.csrs.floatingRoundingMode = some rounding ∧
      ∃ destination source2 source1,
        Cpu.arithmeticGroups c.configuration instruction.destination instruction.source2
          instruction.source1 (instruction.form == .vectorVector) =
            some (destination, source2, source1) ∧
        (instruction.masked && instruction.destination == 0#5) = false ∧
        (c.state.csrs.readValue .vl).toNat ≤ c.configuration.vlmax ∧
        c.executeVectorFloating packet instruction sequentialPc =
          Cpu.finishVector packet sequentialPc (c.onFloatingState
            (c.floatingLoop packet instruction rounding destination source2 source1)) := by
  have hunfold := h
  rw [Cpu.executeVectorFloating] at hunfold
  split at hunfold
  · cases hunfold
  · next hon =>
    have hon' : c.state.csrs.vectorStateEnabled = true ∧
        c.state.csrs.floatingStateEnabled = true := by
      simpa using hon
    dsimp only at hunfold
    split at hunfold
    · cases hunfold
    · next hsew =>
      have hsew' : c.configuration.sewBits = 32 ∨ c.configuration.sewBits = 64 := by
        simp only [Bool.or_eq_true, Bool.and_eq_true, not_or, not_and, Bool.not_eq_true,
          bne_iff_ne, ne_eq] at hsew
        exact or_iff_not_imp_left.2 fun hne ↦ not_not.1 (hsew.2 hne)
      split at hunfold
      · next destination source2 source1 rounding hgroups hrounding =>
        split at hunfold
        · cases hunfold
        · next hchecks =>
          rw [Bool.not_eq_true, Bool.or_eq_false_iff, decide_eq_false_iff_not,
            Nat.not_lt] at hchecks
          exact ⟨hon'.2, hsew', rounding, hrounding, destination, source2, source1, hgroups,
            hchecks.1, hchecks.2, executeVectorFloating_of_checks hon'.1 hon'.2 hsew'
            hrounding hgroups
              hchecks.1 hchecks.2 sequentialPc⟩
      · cases hunfold

/-- The checks in front of the first write. -/
theorem executeVectorFloating_rejected
    (h : c.state.csrs.vectorStateEnabled = false ∨ c.state.csrs.floatingStateEnabled = false ∨
      c.configuration.valid = false ∨
      (c.configuration.sewBits ≠ 32 ∧ c.configuration.sewBits ≠ 64) ∨
      resolveFloatingRoundingMode 7#3 c.state.csrs.floatingRoundingMode = none) :
    c.executeVectorFloating packet instruction sequentialPc = c.illegal packet := by
  rw [Cpu.configuration] at h
  rw [Cpu.executeVectorFloating]
  split
  · rfl
  · next hon =>
    have hon' : c.state.csrs.vectorStateEnabled = true ∧
        c.state.csrs.floatingStateEnabled = true := by
      simpa using hon
    rw [hon'.1, hon'.2] at h
    dsimp only
    split
    · rfl
    · next hsew =>
      have hrounding : resolveFloatingRoundingMode 7#3 c.state.csrs.floatingRoundingMode =
          none := by
        rcases h with h | h | h | h | h
        · cases h
        · cases h
        · exact absurd (by rw [h]; rfl) hsew
        · exact absurd (by simp [h.1, h.2]) hsew
        · exact h
      rw [hrounding]
      split
      · next hsome => cases hsome
      · rfl

/-- What a retiring instruction leaves, from its loop. -/
theorem executeVectorFloating_of_loop {rounding : FloatingRoundingMode}
    {destination source2 : VectorRegisterGroup} {source1 : Option VectorRegisterGroup}
    (hnone : (c.floatingLoop packet instruction rounding destination source2 source1).1 = none)
    (hexecute : c.executeVectorFloating packet instruction sequentialPc =
      Cpu.finishVector packet sequentialPc (c.onFloatingState
        (c.floatingLoop packet instruction rounding destination source2 source1))) :
    let loop := c.floatingLoop packet instruction rounding destination source2 source1
    let after := (c.executeVectorFloating packet instruction sequentialPc).2.state
    after.vectorState = loop.2.1.vectorState ∧ after.csrs.vstart = 0#64 ∧
      after.csrs.fcsr = (loop.2.1.csrs.accrueFloatingExceptionFlags loop.2.2).fcsr := by
  rw [hexecute]
  generalize c.floatingLoop packet instruction rounding destination source2 source1 =
    loop at hnone ⊢
  obtain ⟨exit, s, flags⟩ := loop
  obtain rfl : exit = none := hnone
  have hmark := CsrFile.markVectorStateDirty_eq
    { s.csrs.accrueFloatingExceptionFlags flags with vstart := 0#64 }
  have hvstart := congrArg CsrFile.vstart hmark
  have hfcsr := congrArg CsrFile.fcsr hmark
  exact ⟨rfl, hvstart, hfcsr⟩

theorem getLsbD_floatingExceptionMask {k : ℕ} :
    floatingExceptionMask.getLsbD k = decide (k < 5) := by
  rcases Nat.lt_or_ge k 8 with hk | hk
  · have h : ∀ i : Fin 8, floatingExceptionMask.getLsbD i = decide (i.val < 5) := by decide
    exact h ⟨k, hk⟩
  · rw [BitVec.getLsbD_of_ge _ _ hk, decide_eq_false (by omega)]

/-- Accrued flags are or-ed into the low five bits of `fcsr`. -/
theorem getLsbD_fcsr_accrue {csrs : CsrFile} (h : csrs.floatingStateEnabled = true)
    (flags : BitVec 8) (k : ℕ) :
    (csrs.accrueFloatingExceptionFlags flags).fcsr.getLsbD k = true ↔
      csrs.fcsr.getLsbD k = true ∨ (k < 5 ∧ flags.getLsbD k = true) := by
  have hbit : (csrs.fcsr ||| normalizeFloatingExceptionFlags flags).getLsbD k = true ↔
      csrs.fcsr.getLsbD k = true ∨ (k < 5 ∧ flags.getLsbD k = true) := by
    rw [BitVec.getLsbD_or, Bool.or_eq_true, normalizeFloatingExceptionFlags, BitVec.getLsbD_and,
      getLsbD_floatingExceptionMask, Bool.and_eq_true, decide_eq_true_iff, and_comm (a := k < 5)]
  rw [← hbit, CsrFile.accrueFloatingExceptionFlags, h]
  split
  · next hzero =>
    rw [Bool.not_true, Bool.false_or, beq_iff_eq] at hzero
    rw [hzero, BitVec.or_zero]
  · rw [CsrFile.markFloatingStateDirty_eq]

/-- Elements and lanes hold the same operands. -/
theorem rawOperand_lane {sew : ℕ} (h : sew = 32 ∨ sew = 64) (bits : BitVec 64) :
    rawOperand (if sew = 32 then .single else .double) bits = (bits.setWidth sew).setWidth 64 := by
  rcases h with rfl | rfl
  · rfl
  · rw [BitVec.setWidth_eq, BitVec.setWidth_eq]
    rfl

theorem floatingResultAt_eq {s : CpuState} {vtype : BitVec 64}
    {destination source2 : VectorRegisterGroup} {source1 : Option VectorRegisterGroup}
    (hg : Cpu.arithmeticGroups (decodeVectorConfiguration vtype) instruction.destination
      instruction.source2 instruction.source1 (instruction.form == .vectorVector) =
        some (destination, source2, source1))
    (hsew : (decodeVectorConfiguration vtype).sewBits = 32 ∨
      (decodeVectorConfiguration vtype).sewBits = 64) (rounding : FloatingRoundingMode) (i : ℕ) :
    floatingResultAt s instruction vtype rounding source2 source1 i =
      s.floatingLane (decodeVectorConfiguration vtype).sewBits instruction rounding i := by
  obtain ⟨-, h2, h1⟩ := arithmeticGroups_create hg
  have hoperand : (floatingOperandAt s instruction source1 i).setWidth
      (decodeVectorConfiguration vtype).sewBits =
        s.floatingLaneOperand (decodeVectorConfiguration vtype).sewBits instruction i := by
    rw [floatingOperandAt, CpuState.floatingLaneOperand]
    cases hform : instruction.form with
    | vectorVector =>
      obtain ⟨g, rfl, hcreate⟩ := h1 (by rw [hform]; rfl)
      exact lane_of_create hcreate s i
    | vectorScalarFloating => rfl
  rw [CpuState.floatingLane, ← lane_of_create h2 s i, ← hoperand, ← rawOperand_lane hsew,
    ← rawOperand_lane hsew, executeVectorFloatingOperation_rawOperand]
  rfl

theorem floatingAgnosticValue_setWidth {configuration : VectorConfiguration}
    (h : configuration.sewBits = 32 ∨ configuration.sewBits = 64) :
    (floatingAgnosticValue configuration).setWidth configuration.sewBits =
      BitVec.allOnes configuration.sewBits := by
  rw [floatingAgnosticValue]
  rcases h with h | h <;> rw [h] <;> decide

end Instruction

/-- **Floating instructions, element by element.**  One that retires gives every active element the
result of the scalar operation on the operands in the state before it, in the rounding mode of
`frm`, and collects the flags of these elements and of no others; one that is refused changes
nothing. -/
theorem vector_floating_elements (c : Cpu) (packet : InstructionPacket)
    (instruction : VectorFloatingInstruction) (sequentialPc : BitVec 64) :
    let after := (c.executeVectorFloating packet instruction sequentialPc).2.state
    let vtype := c.state.csrs.readValue .vtype
    let vl := (c.state.csrs.readValue .vl).toNat
    let start := c.state.csrs.vstart.toNat
    let sew := c.configuration.sewBits
    ((c.executeVectorFloating packet instruction sequentialPc).1.retired = true →
      (sew = 32 ∨ sew = 64) ∧ ∃ rounding,
        resolveFloatingRoundingMode 7#3 c.state.csrs.floatingRoundingMode = some rounding ∧
        (∀ i, ScalarResult instruction.operation (if sew = 32 then .single else .double) rounding
          ((c.state.lane sew instruction.source2 i).setWidth 64)
          ((c.state.floatingLaneOperand sew instruction i).setWidth 64)
          (c.state.floatingLane sew instruction rounding i)) ∧
        after.csrs.vstart = 0#64 ∧
        (vl ≤ start →
          after.vectorState = c.state.vectorState ∧ after.csrs.fcsr = c.state.csrs.fcsr) ∧
        (start < vl → FloatingLanes instruction sew c.configuration.vlmax start vl
          (maskAgnostic vtype) (tailAgnostic vtype)
          (c.state.floatingLane sew instruction rounding) c.state after)) ∧
    (c.state.csrs.vectorStateEnabled = false ∨ c.state.csrs.floatingStateEnabled = false ∨
        c.configuration.valid = false ∨ (sew ≠ 32 ∧ sew ≠ 64) ∨
        resolveFloatingRoundingMode 7#3 c.state.csrs.floatingRoundingMode = none →
      c.executeVectorFloating packet instruction sequentialPc =
        (.failure (illegalTrap packet) packet.length, c)) := by
  refine ⟨?_, executeVectorFloating_rejected⟩
  intro hretired
  obtain ⟨hfs, hsew, rounding, hrounding, destination, source2, source1, hg, hmask, hvl,
      hexecute⟩ :=
    executeVectorFloating_retired hretired
  obtain ⟨hstate, hvstart, hfcsr⟩ :=
    executeVectorFloating_of_loop (floatingLoop_none hg hvl rounding) hexecute
  refine ⟨hsew, rounding, hrounding,
    fun i ↦ scalarResult_executeVectorFloatingOperation _ _ _ _ _, hvstart, ?_, ?_⟩
  · intro hle
    have hloop : c.floatingLoop packet instruction rounding destination source2 source1 =
        (none, c.state, 0#8) := by
      rw [Cpu.floatingLoop, runElements, if_neg (Nat.not_lt.2 hle)]
    rw [hloop] at hstate hfcsr
    refine ⟨hstate, ?_⟩
    rw [hfcsr, CsrFile.accrueFloatingExceptionFlags,
      if_pos (by simp [normalizeFloatingExceptionFlags])]
  · intro hlt
    have hfilled := floatingLoop_filled packet rounding hg hmask hvl hlt
    obtain ⟨hd, h2, -⟩ := arithmeticGroups_create hg
    have hl : c.configuration.Legal := (legal_of_valid (arithmeticGroups_eq_some hg).valid).1
    have hcd := (VectorRegisterGroup.configuration_create hd).1
    have hbase := (VectorRegisterGroup.baseRegister_create hd).1
    have hbytes := hfilled.filled.bytes
    have hlane := hfilled.filled.lane_eq (fits_of_create hl hd) hbase
    rw [hcd] at hlane
    have hafter : ∀ i, (c.executeVectorFloating packet instruction sequentialPc).2.state.lane
        c.configuration.sewBits instruction.destination i =
          (c.floatingLoop packet instruction rounding destination source2 source1).2.1.lane
            c.configuration.sewBits instruction.destination i := by
      intro i
      rw [CpuState.lane, hstate]
      rfl
    have hagnostic : (floatingAgnosticValue c.configuration).setWidth c.configuration.sewBits =
        BitVec.allOnes c.configuration.sewBits := floatingAgnosticValue_setWidth hsew
    have hflags := hfilled.flags
    have hmstatus := hfilled.csrs
    have henabled := hfilled.enabled
    generalize hlast : (if tailAgnostic (c.state.csrs.readValue .vtype) then c.configuration.vlmax
      else (c.state.csrs.readValue .vl).toNat) = last at hlane hbytes hflags
    have hlast' : (c.state.csrs.readValue .vl).toNat ≤ last ∧ last ≤ c.configuration.vlmax := by
      rw [← hlast]
      split <;> omega
    refine ⟨?_, ?_, ?_, ?_, ?_, ?_⟩
    · intro i hi
      rw [hafter, hlane, if_neg (by omega)]
    · intro i hi hi' hactive
      have hon : ¬(instruction.masked && !c.state.vectorState.maskBit i) = true := by
        rw [maskedOff_iff, hactive]
        decide
      rw [hafter, hlane, if_pos (by omega), floatingElementAt, if_neg (by omega), if_neg hon,
        floatingResultAt_eq hg hsew]
      rfl
    · intro i hi hi' hinactive
      rw [hafter, hlane, if_pos (by omega), floatingElementAt, if_neg (by omega),
        if_pos (maskedOff_iff.2 hinactive)]
      split
      · exact hagnostic
      · exact lane_of_create hd c.state i
    · intro i hi hi'
      rw [hafter, hlane]
      cases hta : tailAgnostic (c.state.csrs.readValue .vtype) with
      | true =>
        rw [hta, if_pos rfl] at hlast
        rw [if_pos (by omega), floatingElementAt, if_pos hi, if_pos rfl]
        exact hagnostic
      | false =>
        rw [hta, if_neg Bool.false_ne_true] at hlast
        rw [if_neg (by omega), if_neg Bool.false_ne_true]
    · intro k hk
      have hfirst := Nat.zero_le (c.state.csrs.vstart.toNat * destination.widthBytes)
      have hend := Nat.mul_le_mul_right destination.widthBytes hlast'.2
      rw [hstate, hbytes]
      refine fill_eq_of_outside _ _ _ ?_
      rw [VectorRegisterGroup.offset, hbase, VectorRegisterGroup.widthBytes, hcd] at *
      omega
    · intro k
      obtain ⟨mstatus, hcsrs⟩ := hmstatus
      rw [hfcsr, getLsbD_fcsr_accrue (henabled.trans hfs), hflags, hcsrs]
      refine or_congr_right (and_congr_right fun _ ↦ ⟨?_, ?_⟩)
      · rintro ⟨i, hi, hi', hflag⟩
        rw [floatingFlagsAt] at hflag
        split at hflag
        · exact absurd hflag (by rw [BitVec.getLsbD_zero]; decide)
        · next hbody =>
          split at hflag
          · exact absurd hflag (by rw [BitVec.getLsbD_zero]; decide)
          · next hon =>
            rw [maskedOff_iff, Bool.not_eq_false] at hon
            rw [floatingResultAt_eq hg hsew] at hflag
            exact ⟨i, hi, by omega, hon, hflag⟩
      · rintro ⟨i, hi, hi', hactive, hflag⟩
        have hon : ¬(instruction.masked && !c.state.vectorState.maskBit i) = true := by
          rw [maskedOff_iff, hactive]
          decide
        refine ⟨i, hi, by omega, ?_⟩
        rw [floatingFlagsAt, if_neg (by omega), if_neg hon, floatingResultAt_eq hg hsew]
        exact hflag

/-- A hart with two elements of a word in force, and both the vector and the floating unit on. -/
def twoWordLanes : Cpu :=
  { zeroedCpu with state := { csrs := { mstatus := 0x6600#64, vtype := 0x10#64, vl := 2#64 } } }

/-- `vfdiv.vv v6, v2, v4` on zeros. -/
theorem vector_floating_elements_divide :
    let packet : InstructionPacket := { programCounter := 0#64, bits := 0x82221357#32, length := 4 }
    let instruction : VectorFloatingInstruction :=
      { operation := .divide, form := .vectorVector, masked := false, destination := 6#5,
        source2 := 2#5, source1 := 4#5 }
    (twoWordLanes.executeVectorFloating packet instruction 4#64).1.retired = true ∧
      ∃ rounding,
        (twoWordLanes.executeVectorFloating packet instruction 4#64).2.state.lane 32 6#5 1 =
          (twoWordLanes.state.floatingLane 32 instruction rounding 1).bits.setWidth 32 ∧
        (zeroedCpu.executeVectorFloating packet instruction 4#64).2.state = zeroedCpu.state := by
  intro packet instruction
  have hretired : (twoWordLanes.executeVectorFloating packet instruction 4#64).1.retired =
      true := by
    decide
  obtain ⟨-, rounding, -, -, -, -, hlanes⟩ :=
    (vector_floating_elements twoWordLanes packet instruction 4#64).1 hretired
  have hrefused := (vector_floating_elements zeroedCpu packet instruction 4#64).2
    (Or.inl (by decide))
  exact ⟨hretired, rounding, (hlanes (by decide)).active 1 (by decide) (by decide) (by decide),
    congrArg (fun r ↦ r.2.state) hrefused⟩

end Rvemu
