import Rvemu.Core.Precise
import Rvemu.Vector.IntegerOperations
import Rvemu.Vector.Layout

/-!
# What vector arithmetic leaves in the registers

The loops write the elements of the destination in place while they read the sources and the mask.
Groups of one configuration are the same or apart and the mask is outside a masked destination, so
every element is computed from what was there before the instruction: `Filled` says so of the state
in front of an element, and each element keeps it.
-/

set_option autoImplicit false

namespace Rvemu

open Packed

/-! ## The state in front of an element -/

/-- Of the state `s₀`, the elements from `start` up to `i` have got the values `E`. -/
structure Filled (s₀ : CpuState) (g : VectorRegisterGroup) (E : ℕ → BitVec 64) (start i : ℕ)
    (s : CpuState) : Prop where
  others : s = { s₀ with vectorState := s.vectorState, csrs := s.csrs }
  bytes : s.vectorState.byte = fill s₀.vectorState.byte g.offset g.widthBytes E start i

namespace Filled

variable {s₀ s : CpuState} {g : VectorRegisterGroup} {E : ℕ → BitVec 64} {start i : ℕ}

theorem start_self (s₀ : CpuState) (g : VectorRegisterGroup) (E : ℕ → BitVec 64) (start : ℕ) :
    Filled s₀ g E start start s₀ :=
  ⟨rfl, (fill_of_le _ _ _ (Nat.le_refl start)).symm⟩

/-- Writing the element. -/
theorem put (h : Filled s₀ g E start i s) (hg : g.Fits) (hstart : start ≤ i)
    (hi : i < g.configuration.vlmax) (packet : InstructionPacket) :
    (s.putElement packet g (E i) i).1 = none ∧
      Filled s₀ g E start (i + 1) (s.putElement packet g (E i) i).2 := by
  obtain ⟨v, hwrite, hbytes⟩ := VectorRegisterGroup.writeElement_eq hg s.vectorState hi (E i)
  rw [CpuState.putElement, CpuState.setVectorElement, hwrite]
  refine ⟨rfl, ?_, ?_⟩
  · have hothers := h.others
    rw [hothers]
    rfl
  · funext k
    show v.byte k = _
    rw [hbytes, fill_succ _ _ _ hstart, ← h.bytes]

/-- Keeping the element. -/
theorem keep (h : Filled s₀ g E start i s) (hg : g.Fits) (hstart : start ≤ i)
    (hE : E i = element s₀.vectorState.byte g.offset g.widthBytes i) :
    Filled s₀ g E start (i + 1) s := by
  refine ⟨h.others, ?_⟩
  funext k
  rw [fill_succ _ _ _ hstart, h.bytes]
  split
  · next hk =>
    have hsplit := Bytes.splitByte_composeBytes
      (fun j ↦ s₀.vectorState.byte (g.offset + i * g.widthBytes + j)) hg.le_eight
      (show k - (g.offset + i * g.widthBytes) < g.widthBytes by omega)
    rw [fill_eq_of_outside _ _ _ (Or.inr hk.1), hE, element, hsplit]
    congr 1
    omega
  · rfl

theorem integer_eq (h : Filled s₀ g E start i s) (r : BitVec 5) : s.integer r = s₀.integer r := by
  rw [h.others]
  rfl

/-- The element is still to come, in a source that is the destination or apart from it. -/
theorem vectorElement_eq (h : Filled s₀ g E start i s) {g' : VectorRegisterGroup} (hg : g'.Fits)
    (hi : i < g'.configuration.vlmax) (hi' : i ≤ g.configuration.vlmax)
    (hsame : g' = g ∨ g.offset + g.configuration.vlmax * g.widthBytes ≤ g'.offset ∨
      g'.offset + g'.configuration.vlmax * g'.widthBytes ≤ g.offset) :
    s.vectorElement g' i =
      some (element s₀.vectorState.byte g'.offset g'.widthBytes i) := by
  rw [CpuState.vectorElement, VectorRegisterGroup.readElement_eq hg _ hi, h.bytes]
  congr 1
  rcases hsame with rfl | habove | hbelow
  · exact element_fill_of_outside _ _ _ (Or.inr (Nat.le_refl i))
  · have hle := Nat.mul_le_mul_right g.widthBytes hi'
    refine element_congr _ _ _ fun j hj ↦ fill_eq_of_outside _ _ _ (Or.inr (by omega))
  · have hle := Nat.mul_le_mul_right g'.widthBytes (Nat.succ_le_of_lt hi)
    rw [Nat.succ_mul] at hle
    refine element_congr _ _ _ fun j hj ↦ fill_eq_of_outside _ _ _ (Or.inl (by omega))

/-- The mask is not touched. -/
theorem maskedOff_eq (h : Filled s₀ g E start i s) (hi : i < 256) {masked : Bool}
    (hmask : masked = true → 32 ≤ g.offset) :
    s.maskedOff masked i = (masked && !s₀.vectorState.maskBit i) := by
  rw [CpuState.maskedOff, CpuState.vectorMaskBit, VectorRegisterGroup.maskBit_eq _ hi]
  cases masked with
  | false => rfl
  | true =>
    have hoff := hmask rfl
    have hbit : s.vectorState.maskBit i = s₀.vectorState.maskBit i := by
      rw [VectorState.maskBit, VectorState.maskBit, h.bytes,
        fill_eq_of_outside _ _ _ (Or.inl (by omega))]
    rw [hbit]
    rfl

end Filled

/-! ## The groups of an arithmetic instruction -/

theorem arithmeticGroups_create {configuration : VectorConfiguration} {rd rs2 rs1 : BitVec 5}
    {vectorVector : Bool} {destination source2 : VectorRegisterGroup}
    {source1 : Option VectorRegisterGroup}
    (h : Cpu.arithmeticGroups configuration rd rs2 rs1 vectorVector =
      some (destination, source2, source1)) :
    VectorRegisterGroup.create configuration rd = some destination ∧
      VectorRegisterGroup.create configuration rs2 = some source2 ∧
      (vectorVector = true →
        ∃ g, source1 = some g ∧ VectorRegisterGroup.create configuration rs1 = some g) := by
  rw [Cpu.arithmeticGroups] at h
  simp only [Option.bind_eq_bind, Option.bind_eq_some_iff] at h
  obtain ⟨d, hd, g2, h2, h⟩ := h
  split at h
  · obtain ⟨g1, h1, h⟩ := Option.bind_eq_some_iff.1 h
    simp only [Option.some.injEq, Prod.mk.injEq] at h
    obtain ⟨rfl, rfl, rfl⟩ := h
    exact ⟨hd, h2, fun _ ↦ ⟨g1, rfl, h1⟩⟩
  · next hvv =>
    simp only [Option.some.injEq, Prod.mk.injEq] at h
    obtain ⟨rfl, rfl, rfl⟩ := h
    exact ⟨hd, h2, fun hc ↦ absurd hc hvv⟩

section Groups

variable {configuration : VectorConfiguration} {base base' : BitVec 5} {g g' : VectorRegisterGroup}

theorem fits_of_create (hl : configuration.Legal)
    (h : VectorRegisterGroup.create configuration base = some g) : g.Fits := by
  rw [← (VectorRegisterGroup.configuration_create h).1] at hl
  exact VectorRegisterGroup.fits_of_legal hl

/-- A source is the destination, or no element of it is. -/
theorem source_or_apart (hl : configuration.Legal)
    (h : VectorRegisterGroup.create configuration base = some g)
    (h' : VectorRegisterGroup.create configuration base' = some g') :
    g' = g ∨ g.offset + g.configuration.vlmax * g.widthBytes ≤ g'.offset ∨
      g'.offset + g'.configuration.vlmax * g'.widthBytes ≤ g.offset := by
  have hroom := (fits_of_create hl h).room
  have hroom' := (fits_of_create hl h').room
  have hc := (VectorRegisterGroup.configuration_create h).1
  have hc' := (VectorRegisterGroup.configuration_create h').1
  rw [hc] at hroom ⊢
  rw [hc'] at hroom' ⊢
  rcases VectorRegisterGroup.same_or_apart h h' with heq | habove | hbelow
  · exact Or.inl heq.symm
  · exact Or.inr (Or.inl (by omega))
  · exact Or.inr (Or.inr (by omega))

end Groups

/-! ## The integer loop -/

section Integer

/-- The second operand of an element. -/
def integerOperandAt (s : CpuState) (instruction : VectorIntegerInstruction) (sewBits : ℕ)
    (source1 : Option VectorRegisterGroup) (i : ℕ) : BitVec 64 :=
  match instruction.form with
  | .vectorVector => source1.elim 0#64 fun g ↦ element s.vectorState.byte g.offset g.widthBytes i
  | .vectorScalar => s.integer instruction.source1
  | .vectorImmediate => signExtendVectorImmediate instruction.source1 sewBits

/-- What element `i` of the destination becomes, from the state in front of the instruction. -/
def integerElementAt (s : CpuState) (instruction : VectorIntegerInstruction) (vtype : BitVec 64)
    (destination source2 : VectorRegisterGroup) (source1 : Option VectorRegisterGroup)
    (vl i : ℕ) : BitVec 64 :=
  let sewBits := (decodeVectorConfiguration vtype).sewBits
  if vl ≤ i then agnosticValue sewBits
  else if instruction.masked && !s.vectorState.maskBit i then
    if maskAgnostic vtype then agnosticValue sewBits
    else element s.vectorState.byte destination.offset destination.widthBytes i
  else
    executeVectorIntegerOperation instruction.operation
      (element s.vectorState.byte source2.offset source2.widthBytes i)
      (integerOperandAt s instruction sewBits source1 i) sewBits

variable {s₀ s : CpuState} {packet : InstructionPacket} {instruction : VectorIntegerInstruction}
  {vtype : BitVec 64} {destination source2 : VectorRegisterGroup}
  {source1 : Option VectorRegisterGroup} {start vl i : ℕ}

/-- One body element. -/
theorem integerElement_filled
    (hg : Cpu.arithmeticGroups (decodeVectorConfiguration vtype) instruction.destination
      instruction.source2 instruction.source1 (instruction.form == .vectorVector) =
        some (destination, source2, source1))
    (hl : (decodeVectorConfiguration vtype).Legal)
    (hmask : (instruction.masked && instruction.destination == 0#5) = false)
    (hstart : start ≤ i) (hvl : i < vl) (hvlmax : vl ≤ (decodeVectorConfiguration vtype).vlmax)
    (h : Filled s₀ destination
      (integerElementAt s₀ instruction vtype destination source2 source1 vl) start i s) :
    (CpuState.integerElement packet instruction vtype (decodeVectorConfiguration vtype) destination
        source2 source1 s i).1 = none ∧
      Filled s₀ destination (integerElementAt s₀ instruction vtype destination source2 source1 vl)
        start (i + 1)
        (CpuState.integerElement packet instruction vtype (decodeVectorConfiguration vtype)
          destination source2 source1 s i).2 := by
  obtain ⟨hd, h2, h1⟩ := arithmeticGroups_create hg
  have hcd := (VectorRegisterGroup.configuration_create hd).1
  have hc2 := (VectorRegisterGroup.configuration_create h2).1
  have hfits := fits_of_create hl hd
  have hbound := hl.vlmax_le
  have hoffset : instruction.masked = true → 32 ≤ destination.offset := by
    intro hm
    have hne : instruction.destination ≠ 0#5 := by
      rw [hm, Bool.true_and] at hmask
      exact beq_eq_false_iff_ne.1 hmask
    have hpos : instruction.destination.toNat ≠ 0 := fun hz ↦ hne (BitVec.eq_of_toNat_eq hz)
    rw [VectorRegisterGroup.offset, (VectorRegisterGroup.baseRegister_create hd).1]
    omega
  have hbody : ∀ {v}, v = integerElementAt s₀ instruction vtype destination source2 source1 vl i →
      (s.putElement packet destination v i).1 = none ∧
        Filled s₀ destination (integerElementAt s₀ instruction vtype destination source2 source1 vl)
          start (i + 1) (s.putElement packet destination v i).2 := by
    rintro v rfl
    exact h.put hfits hstart (by rw [hcd]; omega) packet
  rw [CpuState.integerElement, h.maskedOff_eq (by omega) hoffset]
  split
  · next hoff =>
    rw [CpuState.skipElement]
    split
    · next hagnostic =>
      refine hbody ?_
      rw [integerElementAt, if_neg (by omega), if_pos hoff, if_pos hagnostic]
    · next hagnostic =>
      refine ⟨rfl, h.keep hfits hstart ?_⟩
      rw [integerElementAt, if_neg (by omega), if_pos hoff, if_neg hagnostic]
  · next hon =>
    have hlhs := h.vectorElement_eq (fits_of_create hl h2) (by rw [hc2]; omega) (by rw [hcd]; omega)
      (source_or_apart hl hd h2)
    have hrhs : s.integerOperand instruction (decodeVectorConfiguration vtype).sewBits source1 i =
        some (integerOperandAt s₀ instruction (decodeVectorConfiguration vtype).sewBits
          source1 i) := by
      rw [CpuState.integerOperand, integerOperandAt]
      cases hform : instruction.form with
      | vectorVector =>
        obtain ⟨g, rfl, hcreate⟩ := h1 (by rw [hform]; rfl)
        have hc1 := (VectorRegisterGroup.configuration_create hcreate).1
        exact h.vectorElement_eq (fits_of_create hl hcreate) (by rw [hc1]; omega)
          (by rw [hcd]; omega) (source_or_apart hl hd hcreate)
      | vectorScalar => exact congrArg some (h.integer_eq _)
      | vectorImmediate => rfl
    rw [hlhs, hrhs]
    refine hbody ?_
    rw [integerElementAt, if_neg (by omega), if_neg hon]

/-- **The integer loop**: every element from `vstart` on gets its value. -/
theorem integerLoop_filled {c : Cpu} (packet : InstructionPacket)
    (hg : Cpu.arithmeticGroups c.configuration instruction.destination instruction.source2
      instruction.source1 (instruction.form == .vectorVector) =
        some (destination, source2, source1))
    (hmask : (instruction.masked && instruction.destination == 0#5) = false)
    (hvl : (c.state.csrs.readValue .vl).toNat ≤ c.configuration.vlmax)
    (hstart : c.state.csrs.vstart.toNat < (c.state.csrs.readValue .vl).toNat) :
    Filled c.state destination
      (integerElementAt c.state instruction (c.state.csrs.readValue .vtype) destination source2
        source1 (c.state.csrs.readValue .vl).toNat)
      c.state.csrs.vstart.toNat
      (if tailAgnostic (c.state.csrs.readValue .vtype) then c.configuration.vlmax
        else (c.state.csrs.readValue .vl).toNat)
      (c.integerLoop packet instruction destination source2 source1).2 := by
  have hl : (decodeVectorConfiguration (c.state.csrs.readValue .vtype)).Legal :=
    (legal_of_valid (arithmeticGroups_eq_some hg).valid).1
  obtain ⟨hd, -, -⟩ := arithmeticGroups_create hg
  have hcd := (VectorRegisterGroup.configuration_create hd).1
  refine (runElements_range hstart hvl ?_ ?_ (Filled.start_self _ _ _ _)).2
  · intro i s hi hi' h
    exact integerElement_filled hg hl hmask hi hi' hvl h
  · intro i s hi hi' h
    have hvalue : integerElementAt c.state instruction (c.state.csrs.readValue .vtype) destination
        source2 source1 (c.state.csrs.readValue .vl).toNat i =
        agnosticValue (decodeVectorConfiguration (c.state.csrs.readValue .vtype)).sewBits := by
      rw [integerElementAt, if_pos hi]
    rw [← hvalue]
    exact h.put (fits_of_create hl hd) (by omega) (by rw [hcd]; exact hi') packet

end Integer

/-! ## Lanes -/

namespace CpuState

variable (s : CpuState) (sew : ℕ)

/-- Element `i` of the group at a register. -/
def lane (register : BitVec 5) (i : ℕ) : BitVec sew :=
  (element s.vectorState.byte (register.toNat * 32) (sew / 8) i).setWidth sew

def laneActive (masked : Bool) (i : ℕ) : Bool := !masked || s.vectorState.maskBit i

/-- The second operand of element `i`. -/
def laneOperand (instruction : VectorIntegerInstruction) (i : ℕ) : BitVec sew :=
  match instruction.form with
  | .vectorVector => s.lane sew instruction.source1 i
  | .vectorScalar => (s.integer instruction.source1).setWidth sew
  | .vectorImmediate => instruction.source1.signExtend sew

end CpuState

/-- An integer instruction on the elements from `start` on, `vl` of them in all: all operands are
those of the state before it. -/
structure IntegerLanes (instruction : VectorIntegerInstruction) (sew vlmax start vl : ℕ)
    (maskAgnostic tailAgnostic : Bool) (before after : CpuState) : Prop where
  prestart : ∀ i < start,
    after.lane sew instruction.destination i = before.lane sew instruction.destination i
  active : ∀ i, start ≤ i → i < vl → before.laneActive instruction.masked i = true →
    after.lane sew instruction.destination i =
      Rvv.result instruction.operation (before.lane sew instruction.source2 i)
        (before.laneOperand sew instruction i)
  inactive : ∀ i, start ≤ i → i < vl → before.laneActive instruction.masked i = false →
    after.lane sew instruction.destination i =
      if maskAgnostic then BitVec.allOnes sew else before.lane sew instruction.destination i
  tail : ∀ i, vl ≤ i → i < vlmax →
    after.lane sew instruction.destination i =
      if tailAgnostic then BitVec.allOnes sew else before.lane sew instruction.destination i
  outside : ∀ k, k < instruction.destination.toNat * 32 ∨
      instruction.destination.toNat * 32 + vlmax * (sew / 8) ≤ k →
    after.vectorState.byte k = before.vectorState.byte k

section Lanes

variable {c : Cpu} {packet : InstructionPacket} {instruction : VectorIntegerInstruction}
  {sequentialPc : BitVec 64}

/-- An integer instruction that retires has passed its checks. -/
theorem executeVectorInteger_retired
    (h : (c.executeVectorInteger packet instruction sequentialPc).1.retired = true) :
    ∃ destination source2 source1,
      Cpu.arithmeticGroups c.configuration instruction.destination instruction.source2
        instruction.source1 (instruction.form == .vectorVector) =
          some (destination, source2, source1) ∧
      (instruction.masked && instruction.destination == 0#5) = false ∧
      (c.state.csrs.readValue .vl).toNat ≤ c.configuration.vlmax ∧
      c.executeVectorInteger packet instruction sequentialPc =
        Cpu.finishVector packet sequentialPc
          (c.onState (c.integerLoop packet instruction destination source2 source1)) := by
  have hunfold := h
  rw [Cpu.executeVectorInteger] at hunfold
  split at hunfold
  · cases hunfold
  · next hvs =>
    have hon : c.state.csrs.vectorStateEnabled = true := by simpa using hvs
    dsimp only at hunfold
    split at hunfold
    · cases hunfold
    · next destination source2 source1 hgroups =>
      split at hunfold
      · cases hunfold
      · next hchecks =>
        rw [Bool.not_eq_true, Bool.or_eq_false_iff, decide_eq_false_iff_not, Nat.not_lt] at hchecks
        exact ⟨destination, source2, source1, hgroups, hchecks.1, hchecks.2,
          executeVectorInteger_of_checks hon hgroups hchecks.1 hchecks.2 sequentialPc⟩

theorem agnosticValue_setWidth {sew : ℕ} (hle : sew ≤ 64) :
    (agnosticValue sew).setWidth sew = BitVec.allOnes sew := by
  rw [show agnosticValue sew = maskFor sew from rfl, maskFor_eq hle, setWidth_setWidth_sew hle]

/-- The lanes of a group whose elements were written. -/
theorem Filled.lane_eq {s₀ s : CpuState} {g : VectorRegisterGroup} {E : ℕ → BitVec 64}
    {start last : ℕ} (h : Filled s₀ g E start last s) (hg : g.Fits) {register : BitVec 5}
    (hregister : g.baseRegister = register.toNat) (i : ℕ) :
    s.lane g.configuration.sewBits register i =
      if start ≤ i ∧ i < last then (E i).setWidth g.configuration.sewBits
      else s₀.lane g.configuration.sewBits register i := by
  have hle := hg.le_eight
  rw [CpuState.lane, CpuState.lane, ← hregister, h.bytes]
  change (element (fill _ g.offset g.widthBytes E start last) g.offset g.widthBytes
    i).setWidth _ = _
  split
  · next hin =>
    rw [element_fill _ _ _ hle hin.1 hin.2, hg.sew, BitVec.setWidth_setWidth_of_le _ (by omega),
      BitVec.setWidth_eq]
  · next hout =>
    rw [element_fill_of_outside _ _ _ (by omega)]
    rfl

theorem vectorState_executeVectorInteger {destination source2 : VectorRegisterGroup}
    {source1 : Option VectorRegisterGroup}
    (hnone : (c.integerLoop packet instruction destination source2 source1).1 = none)
    (hexecute : c.executeVectorInteger packet instruction sequentialPc =
      Cpu.finishVector packet sequentialPc
        (c.onState (c.integerLoop packet instruction destination source2 source1))) :
    (c.executeVectorInteger packet instruction sequentialPc).2.state.vectorState =
        (c.integerLoop packet instruction destination source2 source1).2.vectorState ∧
      (c.executeVectorInteger packet instruction sequentialPc).2.state.csrs.vstart = 0#64 := by
  rw [hexecute]
  generalize c.integerLoop packet instruction destination source2 source1 = loop at hnone ⊢
  obtain ⟨exit, s⟩ := loop
  obtain rfl : exit = none := hnone
  exact ⟨rfl, congrArg CsrFile.vstart (CsrFile.markVectorStateDirty_eq _)⟩

/-- The bytes of a group are its lanes. -/
theorem lane_of_create {configuration : VectorConfiguration} {register : BitVec 5}
    {g : VectorRegisterGroup} (h : VectorRegisterGroup.create configuration register = some g)
    (s : CpuState) (i : ℕ) :
    (element s.vectorState.byte g.offset g.widthBytes i).setWidth configuration.sewBits =
      s.lane configuration.sewBits register i := by
  rw [VectorRegisterGroup.offset, VectorRegisterGroup.widthBytes,
    (VectorRegisterGroup.baseRegister_create h).1, (VectorRegisterGroup.configuration_create h).1]
  rfl

theorem maskedOff_iff {s : CpuState} {masked : Bool} {i : ℕ} :
    (masked && !s.vectorState.maskBit i) = true ↔ s.laneActive masked i = false := by
  rw [CpuState.laneActive]
  cases masked <;> cases s.vectorState.maskBit i <;> decide

/-- What an active lane gets. -/
theorem integerElementAt_active {s : CpuState} {vtype : BitVec 64}
    {destination source2 : VectorRegisterGroup} {source1 : Option VectorRegisterGroup} {vl i : ℕ}
    (h2 : VectorRegisterGroup.create (decodeVectorConfiguration vtype) instruction.source2 =
      some source2)
    (hl : (decodeVectorConfiguration vtype).Legal) (hi : i < vl)
    (hactive : s.laneActive instruction.masked i = true) :
    (integerElementAt s instruction vtype destination source2 source1 vl i).setWidth
        (decodeVectorConfiguration vtype).sewBits =
      Rvv.result instruction.operation
        (s.lane (decodeVectorConfiguration vtype).sewBits instruction.source2 i)
        ((integerOperandAt s instruction (decodeVectorConfiguration vtype).sewBits source1
          i).setWidth
          (decodeVectorConfiguration vtype).sewBits) := by
  have hsew : 0 < (decodeVectorConfiguration vtype).sewBits ∧
      (decodeVectorConfiguration vtype).sewBits ≤ 64 := by
    have h := hl.sew
    omega
  have hon : ¬(instruction.masked && !s.vectorState.maskBit i) = true := by
    rw [maskedOff_iff, hactive]
    decide
  rw [integerElementAt, if_neg (by omega), if_neg hon,
    executeVectorIntegerOperation_eq hsew.2 hsew.1, setWidth_setWidth_sew hsew.2, lane_of_create h2]

/-- The second operand in the terms of the manual. -/
theorem integerOperandAt_eq {s : CpuState} {configuration : VectorConfiguration}
    {destination source2 : VectorRegisterGroup} {source1 : Option VectorRegisterGroup}
    (hg : Cpu.arithmeticGroups configuration instruction.destination instruction.source2
      instruction.source1 (instruction.form == .vectorVector) =
      some (destination, source2, source1))
    (hform : instruction.form ≠ .vectorImmediate) (i : ℕ) :
    (integerOperandAt s instruction configuration.sewBits source1 i).setWidth
        configuration.sewBits = s.laneOperand configuration.sewBits instruction i := by
  rw [integerOperandAt, CpuState.laneOperand]
  cases hf : instruction.form with
  | vectorVector =>
    obtain ⟨-, -, h1⟩ := arithmeticGroups_create hg
    obtain ⟨g, rfl, hcreate⟩ := h1 (by rw [hf]; rfl)
    exact lane_of_create hcreate s i
  | vectorScalar => rfl
  | vectorImmediate => exact absurd hf hform

/-- **Integer instructions, element by element.** -/
theorem vector_integer_elements (c : Cpu) (packet : InstructionPacket)
    (instruction : VectorIntegerInstruction) (sequentialPc : BitVec 64)
    (hform : instruction.form ≠ .vectorImmediate)
    (hretired : (c.executeVectorInteger packet instruction sequentialPc).1.retired = true) :
    let after := (c.executeVectorInteger packet instruction sequentialPc).2.state
    let vtype := c.state.csrs.readValue .vtype
    let vl := (c.state.csrs.readValue .vl).toNat
    let start := c.state.csrs.vstart.toNat
    after.csrs.vstart = 0#64 ∧
      (vl ≤ start → after.vectorState = c.state.vectorState) ∧
      (start < vl → IntegerLanes instruction c.configuration.sewBits c.configuration.vlmax start vl
        (maskAgnostic vtype) (tailAgnostic vtype) c.state after) := by
  obtain ⟨destination, source2, source1, hg, hmask, hvl, hexecute⟩ :=
    executeVectorInteger_retired hretired
  obtain ⟨hstate, hvstart⟩ := vectorState_executeVectorInteger (integerLoop_none hg hvl) hexecute
  obtain ⟨hd, h2, -⟩ := arithmeticGroups_create hg
  have hl : c.configuration.Legal := (legal_of_valid (arithmeticGroups_eq_some hg).valid).1
  have hcd := (VectorRegisterGroup.configuration_create hd).1
  have hbase := (VectorRegisterGroup.baseRegister_create hd).1
  have hfits := fits_of_create hl hd
  have hsew : c.configuration.sewBits ≤ 64 := by
    have h := hl.sew
    omega
  refine ⟨hvstart, ?_, ?_⟩
  · intro hle
    rw [hstate, Cpu.integerLoop, runElements, if_neg (Nat.not_lt.2 hle)]
  · intro hlt
    have hfilled := integerLoop_filled packet hg hmask hvl hlt
    have hbytes := hfilled.bytes
    have hlane := hfilled.lane_eq hfits hbase
    rw [hcd] at hlane
    have hafter : ∀ i, (c.executeVectorInteger packet instruction sequentialPc).2.state.lane
        c.configuration.sewBits instruction.destination i =
          (c.integerLoop packet instruction destination source2 source1).2.lane
            c.configuration.sewBits instruction.destination i := by
      intro i
      rw [CpuState.lane, hstate]
      rfl
    generalize hlast : (if tailAgnostic (c.state.csrs.readValue .vtype) then c.configuration.vlmax
      else (c.state.csrs.readValue .vl).toNat) = last at hlane hbytes
    have hlast' : (c.state.csrs.readValue .vl).toNat ≤ last ∧ last ≤ c.configuration.vlmax := by
      rw [← hlast]
      split <;> omega
    refine ⟨?_, ?_, ?_, ?_, ?_⟩
    · intro i hi
      rw [hafter, hlane, if_neg (by omega)]
    · intro i hi hi' hactive
      rw [hafter, hlane, if_pos (by omega)]
      rw [← integerOperandAt_eq hg hform]
      exact integerElementAt_active h2 hl hi' hactive
    · intro i hi hi' hinactive
      rw [hafter, hlane, if_pos (by omega), integerElementAt, if_neg (by omega),
        if_pos (maskedOff_iff.2 hinactive)]
      split
      · exact agnosticValue_setWidth hsew
      · exact lane_of_create hd c.state i
    · intro i hi hi'
      rw [hafter, hlane]
      cases hta : tailAgnostic (c.state.csrs.readValue .vtype) with
      | true =>
        rw [hta, if_pos rfl] at hlast
        rw [if_pos (by omega), integerElementAt, if_pos hi, if_pos rfl]
        exact agnosticValue_setWidth hsew
      | false =>
        rw [hta, if_neg Bool.false_ne_true] at hlast
        rw [if_neg (by omega), if_neg Bool.false_ne_true]
    · intro k hk
      have hfirst := Nat.zero_le (c.state.csrs.vstart.toNat * destination.widthBytes)
      have hend := Nat.mul_le_mul_right destination.widthBytes hlast'.2
      rw [hstate, hbytes]
      refine fill_eq_of_outside _ _ _ ?_
      rw [VectorRegisterGroup.offset, hbase, VectorRegisterGroup.widthBytes, hcd] at *
      omega

end Lanes

/-- A hart with two elements of a byte in force and the vector unit on. -/
def twoByteLanes : Cpu :=
  { zeroedCpu with state := { csrs := { mstatus := 0x600#64, vtype := 0#64, vl := 2#64 } } }

/-- `vsub.vx v6, v2, x1` -/
theorem vector_integer_elements_subtract :
    ((twoByteLanes.executeVectorInteger { programCounter := 0#64, bits := 0x0A20C357#32,
                                          length := 4 }
      { operation := .subtract, form := .vectorScalar, masked := false, destination := 6#5,
        source2 := 2#5, source1 := 1#5 } 4#64).2.state.lane 8 6#5 1) =
      twoByteLanes.state.lane 8 2#5 1 - (twoByteLanes.state.integer 1#5).setWidth 8 :=
  ((vector_integer_elements twoByteLanes _ _ _ (by decide) (by decide)).2.2 (by decide)).active 1
    (by decide) (by decide) (by decide)

end Rvemu
