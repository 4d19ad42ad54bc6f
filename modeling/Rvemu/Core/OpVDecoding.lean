import Rvemu.Core.VectorElements

/-!
# The decoding of OP-V

The dispatcher tries the floating decoder, then the integer decoder, and leaves the rest to the
configuration instructions.  The integer decoder knows the categories OPIVV, OPIVX and OPIVI only
and takes the multiplications and divisions, which RVV puts into OPMVV and OPMVX, for encodings of
those.  The main result says for which words the dispatcher follows the manual.
-/

set_option autoImplicit false

namespace Rvemu

/-! ## Executing what the manual decodes -/

namespace Cpu

/-- The vector length that is asked for: the largest one for `rs1 = x0`, the present one if `rd` is
`x0` as well. -/
def applicationVectorLength (c : Cpu) (rd rs1 : BitVec 5) : Option (BitVec 64) :=
  if rs1 ≠ 0#5 then some (c.state.integer rs1)
  else if rd ≠ 0#5 then some (BitVec.allOnes 64)
  else none

/-- The `vtype` and vector length a configuration instruction asks for. -/
def configurationRequest (c : Cpu) (rd rs1 : BitVec 5) :
    Rvv.Configuration → BitVec 64 × Option (BitVec 64)
  | .vsetvli zimm => (zimm.setWidth 64, c.applicationVectorLength rd rs1)
  | .vsetivli uimm zimm => (zimm.setWidth 64, some (uimm.setWidth 64))
  | .vsetvl rs2 => (c.state.integer rs2, c.applicationVectorLength rd rs1)

/-- Commit a request. -/
def configure (c : Cpu) (packet : InstructionPacket) (rd : BitVec 5) (sequentialPc : BitVec 64) :
    BitVec 64 × Option (BitVec 64) → StepResult × Cpu
  | (requested, none) =>
    if !canPreserveVectorLength (c.state.csrs.readValue .vtype) requested then c.illegal packet
    else
      (c.commitConfiguration (decodeVectorConfiguration requested).vtype
        (c.state.csrs.readValue .vl)).retire packet sequentialPc
  | (requested, some applicationVectorLength) =>
    let configuration := decodeVectorConfiguration requested
    if configuration.valid then
      let vectorLength := selectVectorLength applicationVectorLength configuration.vlmax
      (c.commitConfiguration configuration.vtype vectorLength).writeAndRetire packet rd vectorLength
        sequentialPc
    else (c.commitConfiguration vtypeVill 0#64).writeAndRetire packet rd 0#64 sequentialPc

/-- The execution of an OP-V word by what it encodes. -/
def executeRvv (c : Cpu) (packet : InstructionPacket) (sequentialPc : BitVec 64) :
    Option Rvv.Instruction → StepResult × Cpu
  | some (.integer instruction) => c.executeVectorInteger packet instruction sequentialPc
  | some (.floating instruction) => c.executeVectorFloating packet instruction sequentialPc
  | some (.configuration kind) =>
    c.configure packet (packet.bits.extractLsb' 7 5) sequentialPc
      (c.configurationRequest (packet.bits.extractLsb' 7 5) (packet.bits.extractLsb' 15 5) kind)
  | none => c.illegal packet

end Cpu

/-- What the dispatcher takes a word for. -/
def dispatched (word : BitVec 32) : Option Rvv.Instruction :=
  match decodeVectorFloatingInstruction word with
  | some floating => some (.floating floating)
  | none =>
    match decodeVectorIntegerInstruction word with
    | some integer => some (.integer integer)
    | none =>
      if word.extractLsb' 12 3 = 7#3 then (Rvv.configuration word).map .configuration else none

/-- The funct6 of the multiplications and divisions. -/
def multiplicativeFunct6 : List (BitVec 6) := [0x20#6, 0x21#6, 0x22#6, 0x23#6, 0x25#6]

/-- The words with a multiplicative funct6 in the categories OPIVV, OPMVV, OPIVX and OPMVX. -/
def misplaced (word : BitVec 32) : Bool :=
  multiplicativeFunct6.contains (word.extractLsb' 26 6) &&
    [0#3, 2#3, 4#3, 6#3].contains (word.extractLsb' 12 3)

/-- The registers, the mask and the vector length of a word in a category of integer instructions
pass the checks in front of the elements. -/
def Cpu.admitsOperands (c : Cpu) (word : BitVec 32) : Bool :=
  (arithmeticGroups c.configuration (word.extractLsb' 7 5) (word.extractLsb' 20 5)
      (word.extractLsb' 15 5) ([0#3, 2#3].contains (word.extractLsb' 12 3))).isSome &&
    !(!word.getLsbD 25 && word.extractLsb' 7 5 == 0#5) &&
    decide ((c.state.csrs.readValue .vl).toNat ≤ c.configuration.vlmax)

section Decoders

variable (word : BitVec 32)

theorem masked_eq : ((word &&& (1#32 <<< 25)) == 0#32) = !word.getLsbD 25 := by
  rw [show 1#32 <<< 25 = BitVec.twoPow 32 25 from rfl, BitVec.and_twoPow]
  cases word.getLsbD 25 <;> rfl

/-- The fields that are common to all instructions of the categories. -/
def integerFields (operation : VectorIntegerOperation) (form : VectorIntegerOperandForm) :
    VectorIntegerInstruction where
  operation
  form
  masked := !word.getLsbD 25
  destination := word.extractLsb' 7 5
  source2 := word.extractLsb' 20 5
  source1 := word.extractLsb' 15 5

@[inherit_doc integerFields]
def floatingFields (operation : VectorFloatingOperation) (form : VectorFloatingOperandForm) :
    VectorFloatingInstruction where
  operation
  form
  masked := !word.getLsbD 25
  destination := word.extractLsb' 7 5
  source2 := word.extractLsb' 20 5
  source1 := word.extractLsb' 15 5

theorem decodeVectorIntegerInstruction_eq {form : VectorIntegerOperandForm}
    (hform : decodeVectorIntegerForm (word.extractLsb' 12 3) = some form) :
    decodeVectorIntegerInstruction word =
      (decodeVectorIntegerOperation (word.extractLsb' 26 6)).bind fun operation ↦
        if form = .vectorImmediate ∧ operation ≠ .add then none
        else some (integerFields word operation form) := by
  rw [decodeVectorIntegerInstruction, hform, masked_eq]
  rfl

theorem decodeVectorIntegerInstruction_none
    (hform : decodeVectorIntegerForm (word.extractLsb' 12 3) = none) :
    decodeVectorIntegerInstruction word = none := by
  rw [decodeVectorIntegerInstruction, hform]
  rfl

theorem decodeVectorFloatingInstruction_none
    (hform : decodeVectorFloatingForm (word.extractLsb' 12 3) = none) :
    decodeVectorFloatingInstruction word = none := by
  rw [decodeVectorFloatingInstruction, hform]
  rfl

theorem decodeVectorFloatingInstruction_eq {form : VectorFloatingOperandForm}
    (hform : decodeVectorFloatingForm (word.extractLsb' 12 3) = some form) :
    decodeVectorFloatingInstruction word =
      (decodeVectorFloatingOperation (word.extractLsb' 26 6)).map (floatingFields word · form) := by
  rw [decodeVectorFloatingInstruction, hform, masked_eq]
  cases decodeVectorFloatingOperation (word.extractLsb' 26 6) <;> rfl

end Decoders

section Dispatch

variable {c : Cpu} {packet : InstructionPacket} {sequentialPc : BitVec 64}

/-- Outside the configuration category nothing is left for the last decoder. -/
theorem executeVectorConfiguration_illegal (h : packet.bits.extractLsb' 12 3 ≠ 7#3) :
    c.executeVectorConfiguration packet (decode packet.bits) sequentialPc = c.illegal packet := by
  exact if_pos (Or.inl h)

/-- The elements of an integer instruction do not trap, so only its checks raise an exception. -/
theorem executeVectorInteger_eq_illegal_iff (hvs : c.state.csrs.vectorStateEnabled = true)
    {operation : VectorIntegerOperation} {form : VectorIntegerOperandForm}
    (hform : (form == .vectorVector) = [0#3, 2#3].contains (packet.bits.extractLsb' 12 3)) :
    c.executeVectorInteger packet (integerFields packet.bits operation form) sequentialPc =
        c.illegal packet ↔ c.admitsOperands packet.bits = false := by
  rw [Cpu.admitsOperands, ← hform]
  constructor
  · intro h
    by_contra hadmits
    rw [Bool.not_eq_false, Bool.and_eq_true, Bool.and_eq_true, Bool.not_eq_true', decide_eq_true_eq]
      at hadmits
    obtain ⟨⟨hgroups, hmask⟩, hlength⟩ := hadmits
    obtain ⟨⟨destination, source2, source1⟩, hgroups⟩ := Option.isSome_iff_exists.1 hgroups
    have hchecked : c.executeVectorInteger packet (integerFields packet.bits operation form)
        sequentialPc = _ :=
      executeVectorInteger_of_checks hvs hgroups hmask hlength sequentialPc
    have hnone : (c.integerLoop packet (integerFields packet.bits operation form)
        destination source2
        source1).1 = none := integerLoop_none hgroups hlength
    rw [h, Cpu.finishVector.eq_def, Cpu.onState, hnone] at hchecked
    have hretired := congrArg (·.1.retired) hchecked
    cases hretired
  · intro h
    rw [Cpu.executeVectorInteger]
    split
    · rfl
    · dsimp only
      split
      · rfl
      · next destination source2 source1 hgroups =>
        refine if_pos ?_
        by_contra hchecks
        rw [Bool.not_eq_true, Bool.or_eq_false_iff, decide_eq_false_iff_not, Nat.not_lt] at hchecks
        have hsome : Cpu.arithmeticGroups c.configuration (packet.bits.extractLsb' 7 5)
            (packet.bits.extractLsb' 20 5) (packet.bits.extractLsb' 15 5) (form == .vectorVector) =
              some (destination, source2, source1) := hgroups
        have hmask : (!packet.bits.getLsbD 25 && packet.bits.extractLsb' 7 5 == 0#5) = false :=
          hchecks.1
        have hlength : (c.state.csrs.readValue .vl).toNat ≤ c.configuration.vlmax := hchecks.2
        rw [hsome, hmask, decide_eq_true hlength] at h
        cases h

/-- The vector length of the dispatcher, which asks for the two zero registers at once. -/
theorem applicationVectorLength_eq (rd rs1 : BitVec 5) :
    c.applicationVectorLength rd rs1 =
      if rs1 = 0#5 ∧ rd = 0#5 then none
      else some (if rs1 = 0#5 then BitVec.allOnes 64 else c.state.integer rs1) := by
  rw [Cpu.applicationVectorLength]
  by_cases h1 : rs1 = 0#5 <;> by_cases h2 : rd = 0#5 <;> simp [h1, h2]

/-- The three configuration instructions, told apart by the two highest bits. -/
theorem requestedConfiguration_eq (word : BitVec 32) :
    Cpu.requestedConfiguration (decode word) (c.state.integer (word.extractLsb' 15 5))
        (c.state.integer (word.extractLsb' 20 5)) =
      (Rvv.configuration word).map
        (c.configurationRequest (word.extractLsb' 7 5) (word.extractLsb' 15 5)) := by
  have hlow : word &&& (1#32 <<< 31) = 0#32 ↔ word.getLsbD 31 = false := by
    rw [show 1#32 <<< 31 = BitVec.twoPow 32 31 from rfl, BitVec.and_twoPow]
    cases word.getLsbD 31 <;> decide
  have hhigh : word &&& (3#32 <<< 30) = 3#32 <<< 30 ↔
      word.getLsbD 31 = true ∧ word.getLsbD 30 = true := by
    rw [show 3#32 <<< 30 = BitVec.twoPow 32 31 ||| BitVec.twoPow 32 30 by decide,
      BitVec.and_or_distrib_left, BitVec.and_twoPow, BitVec.and_twoPow]
    cases word.getLsbD 31 <;> cases word.getLsbD 30 <;> decide
  have hseven : word.extractLsb' 25 7 = 0x40#7 →
      word.getLsbD 31 = true ∧ word.getLsbD 30 = false := by
    intro heq
    have hbit : ∀ j < 7, word.getLsbD (25 + j) = (0x40#7).getLsbD j := by
      intro j hj
      rw [← heq, BitVec.getLsbD_extractLsb', decide_eq_true hj, Bool.true_and]
    exact ⟨hbit 6 (by decide), hbit 5 (by decide)⟩
  simp only [Cpu.requestedConfiguration, Rvv.configuration, decode, hlow, hhigh]
  by_cases hvl : word.extractLsb' 25 7 = 0x40#7
  · obtain ⟨h31, h30⟩ := hseven hvl
    simp only [hvl, h31, h30, if_true, if_false, reduceCtorEq, Option.map_some,
      Cpu.configurationRequest, applicationVectorLength_eq]
    rfl
  · cases h31 : word.getLsbD 31 with
    | false =>
      simp only [hvl, if_true, if_false, Option.map_some, Cpu.configurationRequest,
        applicationVectorLength_eq]
      rfl
    | true =>
      cases h30 : word.getLsbD 30 <;>
        simp only [hvl, if_true, if_false, reduceCtorEq, and_false, and_self, Option.map_some,
          Option.map_none, Cpu.configurationRequest]

/-- The configuration instructions. -/
theorem executeVectorConfiguration_eq (h : packet.bits.extractLsb' 12 3 = 7#3)
    (hvs : c.state.csrs.vectorStateEnabled = true) :
    c.executeVectorConfiguration packet (decode packet.bits) sequentialPc =
      c.executeRvv packet sequentialPc
        ((Rvv.configuration packet.bits).map .configuration) := by
  have hthird : (decode packet.bits).function3 = 7#3 := h
  have hrequest : Cpu.requestedConfiguration (decode packet.bits)
      (c.state.integer (decode packet.bits).source1)
      (c.state.integer (decode packet.bits).source2) =
      _ := requestedConfiguration_eq packet.bits
  rw [Cpu.executeVectorConfiguration, hthird, hvs, if_neg (by decide)]
  dsimp only
  rw [hrequest]
  cases Rvv.configuration packet.bits with
  | none => rfl
  | some kind =>
    rw [Option.map_some, Option.map_some, Cpu.executeRvv]
    generalize c.configurationRequest _ _ kind = request
    obtain ⟨vtype, avl⟩ := request
    cases avl <;> rfl

theorem executeOpV_eq (hvs : c.state.csrs.vectorStateEnabled = true) :
    c.executeOpV packet (decode packet.bits) sequentialPc =
      c.executeRvv packet sequentialPc (dispatched packet.bits) := by
  rw [Cpu.executeOpV, dispatched]
  cases decodeVectorFloatingInstruction packet.bits with
  | some floating => rfl
  | none =>
    cases decodeVectorIntegerInstruction packet.bits with
    | some integer => rfl
    | none =>
      by_cases h : packet.bits.extractLsb' 12 3 = 7#3
      · dsimp only
        rw [if_pos h, executeVectorConfiguration_eq h hvs]
      · dsimp only
        rw [if_neg h, executeVectorConfiguration_illegal h]
        rfl

end Dispatch

/-! ## The partition of the encodings -/

section Partition

variable (word : BitVec 32)

theorem multiplicativeFunct6_contains (funct6 : BitVec 6) :
    multiplicativeFunct6.contains funct6 = (Rvv.integerOperation.multiplicative funct6).isSome := by
  revert funct6
  decide

/-- Outside the multiplicative values the operations of the dispatcher are those of OPIVV and
OPIVX. -/
theorem decodeVectorIntegerOperation_additive (funct6 : BitVec 6)
    (h : multiplicativeFunct6.contains funct6 = false) :
    Rvv.integerOperation .opivv funct6 =
        (decodeVectorIntegerOperation funct6).map (·, .vectorVector) ∧
      Rvv.integerOperation .opivx funct6 =
        (decodeVectorIntegerOperation funct6).map (·, .vectorScalar) := by
  revert funct6
  decide

theorem decodeVectorIntegerOperation_multiplicative (funct6 : BitVec 6)
    (h : multiplicativeFunct6.contains funct6 = true) :
    decodeVectorIntegerOperation funct6 = Rvv.integerOperation.multiplicative funct6 ∧
      Rvv.integerOperation .opivv funct6 = none ∧ Rvv.integerOperation .opivx funct6 = none := by
  revert funct6
  decide

theorem decodeVectorIntegerOperation_immediate (funct6 : BitVec 6) :
    Rvv.integerOperation .opivi funct6 =
      (decodeVectorIntegerOperation funct6).bind fun operation ↦
        if operation ≠ .add then none else some (operation, .vectorImmediate) := by
  revert funct6
  decide

theorem decodeVectorFloatingOperation_eq (funct6 : BitVec 6) :
    decodeVectorFloatingOperation funct6 = Rvv.floatingOperation.arithmetic funct6 := by
  revert funct6
  decide

/-- What the manual has in a category of integer instructions. -/
theorem decode_integer (category : Rvv.Category)
    (hcategory : Rvv.category (word.extractLsb' 12 3) = category)
    (hinteger : category = .opivv ∨ category = .opivx ∨ category = .opivi ∨ category = .opmvv ∨
      category = .opmvx) :
    Rvv.decode word =
      (Rvv.integerOperation category (word.extractLsb' 26 6)).map fun operation ↦
        .integer (integerFields word operation.1 operation.2) := by
  subst hcategory
  rw [Rvv.decode]
  rcases hinteger with h | h | h | h | h <;>
  · rw [h]
    rfl

theorem decode_floating (category : Rvv.Category)
    (hcategory : Rvv.category (word.extractLsb' 12 3) = category)
    (hfloating : category = .opfvv ∨ category = .opfvf) :
    Rvv.decode word =
      (Rvv.floatingOperation category (word.extractLsb' 26 6)).map fun operation ↦
        .floating (floatingFields word operation.1 operation.2) := by
  subst hcategory
  rw [Rvv.decode]
  rcases hfloating with h | h <;>
  · rw [h]
    rfl

/-- What the dispatcher has in a category of integer instructions. -/
theorem dispatched_integer {form : VectorIntegerOperandForm} (h7 : word.extractLsb' 12 3 ≠ 7#3)
    (hfloating : decodeVectorFloatingForm (word.extractLsb' 12 3) = none)
    (hform : decodeVectorIntegerForm (word.extractLsb' 12 3) = some form) :
    dispatched word =
      (decodeVectorIntegerOperation (word.extractLsb' 26 6)).bind fun operation ↦
        if form = .vectorImmediate ∧ operation ≠ .add then none
        else some (.integer (integerFields word operation form)) := by
  rw [dispatched, decodeVectorFloatingInstruction_none word hfloating,
    decodeVectorIntegerInstruction_eq word hform]
  cases decodeVectorIntegerOperation (word.extractLsb' 26 6) with
  | none => exact if_neg h7
  | some operation =>
    rw [Option.bind_some, Option.bind_some]
    by_cases himmediate : form = .vectorImmediate ∧ operation ≠ .add
    · rw [if_pos himmediate, if_pos himmediate]
      exact if_neg h7
    · rw [if_neg himmediate, if_neg himmediate]

theorem dispatched_floating {form : VectorFloatingOperandForm} (h7 : word.extractLsb' 12 3 ≠ 7#3)
    (hform : decodeVectorFloatingForm (word.extractLsb' 12 3) = some form)
    (hinteger : decodeVectorIntegerForm (word.extractLsb' 12 3) = none) :
    dispatched word =
      (decodeVectorFloatingOperation (word.extractLsb' 26 6)).map fun operation ↦
        .floating (floatingFields word operation form) := by
  rw [dispatched, decodeVectorFloatingInstruction_eq word hform,
    decodeVectorIntegerInstruction_none word hinteger]
  cases decodeVectorFloatingOperation (word.extractLsb' 26 6) with
  | none => exact if_neg h7
  | some operation => rfl

theorem dispatched_other
    (hfloating : decodeVectorFloatingForm (word.extractLsb' 12 3) = none)
    (hinteger : decodeVectorIntegerForm (word.extractLsb' 12 3) = none) :
    dispatched word =
      if word.extractLsb' 12 3 = 7#3 then (Rvv.configuration word).map .configuration
      else none := by
  rw [dispatched, decodeVectorFloatingInstruction_none word hfloating,
    decodeVectorIntegerInstruction_none word hinteger]

theorem funct3_cases (funct3 : BitVec 3) :
    funct3 = 0#3 ∨ funct3 = 1#3 ∨ funct3 = 2#3 ∨ funct3 = 3#3 ∨ funct3 = 4#3 ∨ funct3 = 5#3 ∨
      funct3 = 6#3 ∨ funct3 = 7#3 := by
  revert funct3
  decide

/-- The dispatcher agrees with the manual off the misplaced words. -/
theorem dispatched_eq_decode (h : misplaced word = false) : dispatched word = Rvv.decode word := by
  rcases funct3_cases (word.extractLsb' 12 3) with h3 | h3 | h3 | h3 | h3 | h3 | h3 | h3
  · -- OPIVV
    rw [misplaced, h3, show [0#3, 2#3, 4#3, 6#3].contains 0#3 = true by decide, Bool.and_true] at h
    rw [decode_integer word .opivv (by rw [h3]; rfl) (by decide),
      dispatched_integer word (by rw [h3]; decide) (by rw [h3]; rfl) (by rw [h3]; rfl),
      (decodeVectorIntegerOperation_additive _ h).1]
    cases decodeVectorIntegerOperation (word.extractLsb' 26 6) <;> rfl
  · -- OPFVV
    rw [decode_floating word .opfvv (by rw [h3]; rfl) (by decide),
      dispatched_floating word (by rw [h3]; decide) (by rw [h3]; rfl) (by rw [h3]; rfl),
      decodeVectorFloatingOperation_eq, Rvv.floatingOperation, Option.map_map]
    rfl
  · -- OPMVV
    rw [misplaced, h3, show [0#3, 2#3, 4#3, 6#3].contains 2#3 = true by decide, Bool.and_true,
      multiplicativeFunct6_contains, Option.isSome_eq_false_iff, Option.isNone_iff_eq_none] at h
    rw [decode_integer word .opmvv (by rw [h3]; rfl) (by decide),
      dispatched_other word (by rw [h3]; rfl) (by rw [h3]; rfl), h3, Rvv.integerOperation, h]
    rfl
  · -- OPIVI
    rw [decode_integer word .opivi (by rw [h3]; rfl) (by decide),
      dispatched_integer word (by rw [h3]; decide) (by rw [h3]; rfl) (by rw [h3]; rfl),
      decodeVectorIntegerOperation_immediate]
    rcases decodeVectorIntegerOperation (word.extractLsb' 26 6) with - | ⟨⟨⟩⟩ <;> rfl
  · -- OPIVX
    rw [misplaced, h3, show [0#3, 2#3, 4#3, 6#3].contains 4#3 = true by decide, Bool.and_true] at h
    rw [decode_integer word .opivx (by rw [h3]; rfl) (by decide),
      dispatched_integer word (by rw [h3]; decide) (by rw [h3]; rfl) (by rw [h3]; rfl),
      (decodeVectorIntegerOperation_additive _ h).2]
    cases decodeVectorIntegerOperation (word.extractLsb' 26 6) <;> rfl
  · -- OPFVF
    rw [decode_floating word .opfvf (by rw [h3]; rfl) (by decide),
      dispatched_floating word (by rw [h3]; decide) (by rw [h3]; rfl) (by rw [h3]; rfl),
      decodeVectorFloatingOperation_eq, Rvv.floatingOperation, Option.map_map]
    rfl
  · -- OPMVX
    rw [misplaced, h3, show [0#3, 2#3, 4#3, 6#3].contains 6#3 = true by decide, Bool.and_true,
      multiplicativeFunct6_contains, Option.isSome_eq_false_iff, Option.isNone_iff_eq_none] at h
    rw [decode_integer word .opmvx (by rw [h3]; rfl) (by decide),
      dispatched_other word (by rw [h3]; rfl) (by rw [h3]; rfl), h3, Rvv.integerOperation, h]
    rfl
  · -- OPCFG
    rw [dispatched_other word (by rw [h3]; rfl) (by rw [h3]; rfl), if_pos h3, Rvv.decode, h3]
    rfl

/-- On a misplaced word one of the two finds an integer instruction and the other one nothing. -/
theorem dispatched_of_misplaced (h : misplaced word = true) :
    ∃ operation form,
      (form == VectorIntegerOperandForm.vectorVector) =
          [0#3, 2#3].contains (word.extractLsb' 12 3) ∧
        (dispatched word = some (.integer (integerFields word operation form)) ∧
            Rvv.decode word = none ∨
          dispatched word = none ∧
            Rvv.decode word = some (.integer (integerFields word operation form))) := by
  rw [misplaced, Bool.and_eq_true] at h
  obtain ⟨hsix, hthree⟩ := h
  obtain ⟨hcode, hvv, hvx⟩ := decodeVectorIntegerOperation_multiplicative _ hsix
  rw [multiplicativeFunct6_contains] at hsix
  obtain ⟨operation, hop⟩ := Option.isSome_iff_exists.1 hsix
  rw [hop] at hcode
  simp only [List.contains_cons, List.contains_nil, Bool.or_false, Bool.or_eq_true, beq_iff_eq]
    at hthree
  rcases hthree with h3 | h3 | h3 | h3
  · refine ⟨operation, .vectorVector, by rw [h3]; rfl, Or.inl ⟨?_, ?_⟩⟩
    · rw [dispatched_integer word (by rw [h3]; decide) (by rw [h3]; rfl) (by rw [h3]; rfl), hcode]
      rfl
    · rw [decode_integer word .opivv (by rw [h3]; rfl) (by decide), hvv]
      rfl
  · refine ⟨operation, .vectorVector, by rw [h3]; rfl, Or.inr ⟨?_, ?_⟩⟩
    · rw [dispatched_other word (by rw [h3]; rfl) (by rw [h3]; rfl), h3]
      rfl
    · rw [decode_integer word .opmvv (by rw [h3]; rfl) (by decide), Rvv.integerOperation, hop]
      rfl
  · refine ⟨operation, .vectorScalar, by rw [h3]; rfl, Or.inl ⟨?_, ?_⟩⟩
    · rw [dispatched_integer word (by rw [h3]; decide) (by rw [h3]; rfl) (by rw [h3]; rfl), hcode]
      rfl
    · rw [decode_integer word .opivx (by rw [h3]; rfl) (by decide), hvx]
      rfl
  · refine ⟨operation, .vectorScalar, by rw [h3]; rfl, Or.inr ⟨?_, ?_⟩⟩
    · rw [dispatched_other word (by rw [h3]; rfl) (by rw [h3]; rfl), h3]
      rfl
    · rw [decode_integer word .opmvx (by rw [h3]; rfl) (by decide), Rvv.integerOperation, hop]
      rfl

end Partition

/-- **The decoding of OP-V** follows RVV 1.0 on a word unless it is misplaced and its operands are
admitted.  The floating unit and `vtype` enter both sides alike. -/
theorem op_v_decoding_iff (c : Cpu) (packet : InstructionPacket)
    (hopcode : packet.bits.extractLsb' 0 7 = 0x57#7)
    (hvs : c.state.csrs.vectorStateEnabled = true) :
    c.executeStandard packet =
        c.executeRvv packet (packet.programCounter + BitVec.ofNat 64 packet.length)
          (Rvv.decode packet.bits) ↔
      misplaced packet.bits = false ∨ c.admitsOperands packet.bits = false := by
  have hdispatch : c.executeStandard packet = c.executeRvv packet _ (dispatched packet.bits) :=
    (if_pos hopcode).trans (executeOpV_eq hvs)
  rw [hdispatch]
  cases hplace : misplaced packet.bits with
  | false =>
    rw [dispatched_eq_decode packet.bits hplace]
    exact iff_of_true rfl (Or.inl rfl)
  | true =>
    rw [or_iff_right (by decide)]
    obtain ⟨operation, form, hform, ⟨hcode, hmanual⟩ | ⟨hcode, hmanual⟩⟩ :=
      dispatched_of_misplaced packet.bits hplace
    · rw [hcode, hmanual]
      exact executeVectorInteger_eq_illegal_iff hvs hform
    · rw [hcode, hmanual, eq_comm]
      exact executeVectorInteger_eq_illegal_iff hvs hform

/-- `vadd.vv v6, v2, v1` -/
theorem op_v_decoding_vadd :
    twoByteLanes.executeStandard { programCounter := 0#64, bits := 0x02208357#32, length := 4 } =
      twoByteLanes.executeVectorInteger
        { programCounter := 0#64, bits := 0x02208357#32, length := 4 }
        (integerFields 0x02208357#32 .add .vectorVector) 4#64 :=
  (op_v_decoding_iff twoByteLanes { programCounter := 0#64, bits := 0x02208357#32, length := 4 }
    (by decide) (by decide)).2 (Or.inl (by decide))

/-- A hart with the vector and the floating unit on and elements of a byte. -/
def byteLanesIdle : Cpu :=
  { zeroedCpu with state := { csrs := { mstatus := 0x6600#64, vtype := 0#64, vl := 0#64 } } }

/-- `vmul.vv v6, v2, v1` raises illegal instruction. -/
theorem vmul_illegal :
    byteLanesIdle.state.csrs.vectorStateEnabled = true ∧
      byteLanesIdle.state.csrs.floatingStateEnabled = true ∧
      byteLanesIdle.configuration.valid = true ∧
      Rvv.decode 0x9620A357#32 =
        some (.integer (integerFields 0x9620A357#32 .multiply .vectorVector)) ∧
      (byteLanesIdle.executeStandard
          { programCounter := 0#64, bits := 0x9620A357#32, length := 4 }).1.retired = false ∧
      (byteLanesIdle.executeVectorInteger
          { programCounter := 0#64, bits := 0x9620A357#32, length := 4 }
          (integerFields 0x9620A357#32 .multiply .vectorVector) 4#64).1.retired = true := by
  decide

end Rvemu
