import Rvemu.Core.Arithmetic
import Rvemu.Core.Compressed
import Rvemu.Isa.Rv64c
import Rvemu.Lib.Fields

/-!
# Expansion of compressed instructions is correct

The expanded word of a compressed encoding is put together by one function per format, and taken
apart again by the decoder.  Both directions are concatenations of fields: the encoders are written
in that form first, decoding them is then a matter of picking fields, and the expansion of every
encoding stands for the instruction that `Isa.Compressed.decode` gives it.
-/

set_option autoImplicit false

namespace Rvemu

open Isa Compressed

/-! ## The encoders as concatenations -/

section Encoders

variable (opcode : BitVec 7) (destination : BitVec 5) (function3 : BitVec 3)
  (source source1 source2 : BitVec 5) (function7 : BitVec 7) (immediate : BitVec 64)

theorem encodeI_eq : encodeI opcode destination function3 source immediate =
    immediate.extractLsb' 0 12 ++ source ++ function3 ++ destination ++ opcode := by
  have himmediate : (immediate &&& 0xFFF#64).setWidth 32 =
      (immediate.extractLsb' 0 12).setWidth 32 := Fields.setWidth_and_mask 32 immediate 0 rfl
  rw [encodeI, himmediate, ← BitVec.setWidth_eq (immediate.extractLsb' 0 12 ++ _ ++ _ ++ _ ++ _)]
  simp only [BitVec.setWidth_append_eq_shiftLeft_setWidth_or, BitVec.shiftLeft_or_distrib,
    ← BitVec.shiftLeft_add]

theorem encodeR_eq : encodeR opcode destination function3 source1 source2 function7 =
    function7 ++ source2 ++ source1 ++ function3 ++ destination ++ opcode := by
  rw [encodeR, ← BitVec.setWidth_eq (function7 ++ _ ++ _ ++ _ ++ _ ++ _)]
  simp only [BitVec.setWidth_append_eq_shiftLeft_setWidth_or, BitVec.shiftLeft_or_distrib,
    ← BitVec.shiftLeft_add]

theorem encodeS_eq : encodeS opcode function3 source1 source2 immediate =
    immediate.extractLsb' 5 7 ++ source2 ++ source1 ++ function3 ++ immediate.extractLsb' 0 5
      ++ opcode := by
  have hhigh : (immediate &&& 0xFFF#64).setWidth 32 >>> 5 =
      (immediate.extractLsb' 5 7).setWidth 32 :=
    Fields.setWidth_and_mask_shiftRight immediate rfl (by decide)
  have hlow : (immediate &&& 0xFFF#64).setWidth 32 &&& 0x1F#32 =
      (immediate.extractLsb' 0 5).setWidth 32 := by
    rw [← BitVec.ushiftRight_zero ((immediate &&& 0xFFF#64).setWidth 32)]
    exact Fields.field_and_mask (n := 12) rfl rfl (by decide) (by decide)
  rw [encodeS, hhigh, hlow, ← BitVec.setWidth_eq
    (immediate.extractLsb' 5 7 ++ _ ++ _ ++ _ ++ _ ++ _)]
  simp only [BitVec.setWidth_append_eq_shiftLeft_setWidth_or, BitVec.shiftLeft_or_distrib,
    ← BitVec.shiftLeft_add]

theorem encodeB_eq : encodeB function3 source1 source2 immediate =
    immediate.extractLsb' 12 1 ++ immediate.extractLsb' 5 6 ++ source2 ++ source1 ++ function3
      ++ immediate.extractLsb' 1 4 ++ immediate.extractLsb' 11 1 ++ 0x63#7 := by
  have hfield : ∀ (s n : ℕ) (mask : BitVec 32), mask.toNat = 2 ^ n - 1 → s + n ≤ 13 →
      ((immediate &&& 0x1FFF#64).setWidth 32 >>> s) &&& mask =
        (immediate.extractLsb' s n).setWidth 32 := by
    intro s n mask hmask hs
    exact Fields.field_and_mask (n := 13) rfl hmask hs (by omega)
  rw [encodeB, hfield 12 1 _ rfl (by decide), hfield 5 6 _ rfl (by decide),
    hfield 1 4 _ rfl (by decide), hfield 11 1 _ rfl (by decide),
    ← BitVec.setWidth_eq (immediate.extractLsb' 12 1 ++ _ ++ _ ++ _ ++ _ ++ _ ++ _ ++ _)]
  simp only [BitVec.setWidth_append_eq_shiftLeft_setWidth_or, BitVec.shiftLeft_or_distrib,
    ← BitVec.shiftLeft_add]
  rfl

theorem encodeJ_eq : encodeJ immediate =
    immediate.extractLsb' 20 1 ++ immediate.extractLsb' 1 10 ++ immediate.extractLsb' 11 1
      ++ immediate.extractLsb' 12 8 ++ 0#5 ++ 0x6F#7 := by
  have hfield : ∀ (s n : ℕ) (mask : BitVec 32), mask.toNat = 2 ^ n - 1 → s + n ≤ 21 →
      ((immediate &&& 0x1FFFFF#64).setWidth 32 >>> s) &&& mask =
        (immediate.extractLsb' s n).setWidth 32 := by
    intro s n mask hmask hs
    exact Fields.field_and_mask (n := 21) rfl hmask hs (by omega)
  rw [encodeJ, hfield 20 1 _ rfl (by decide), hfield 1 10 _ rfl (by decide),
    hfield 11 1 _ rfl (by decide), hfield 12 8 _ rfl (by decide),
    ← BitVec.setWidth_eq (immediate.extractLsb' 20 1 ++ _ ++ _ ++ _ ++ _ ++ _)]
  simp only [BitVec.setWidth_append_eq_shiftLeft_setWidth_or, BitVec.shiftLeft_or_distrib,
    ← BitVec.shiftLeft_add]
  rw [BitVec.setWidth_zero, BitVec.zero_shiftLeft, BitVec.or_zero]
  rfl

/-- C.LUI puts its word together itself. -/
theorem encodeLui_eq :
    ((immediate <<< 12) &&& 0xFFFFF000#64).setWidth 32 ||| (destination.setWidth 32 <<< 7)
      ||| 0x37#32 = immediate.extractLsb' 0 20 ++ destination ++ 0x37#7 := by
  have himmediate : ((immediate <<< 12) &&& 0xFFFFF000#64).setWidth 32 =
      (immediate.extractLsb' 0 20).setWidth 32 <<< 12 := by
    have hmask : ∀ i : Fin 32, (0xFFFFF000#64).getLsbD i = decide (12 ≤ i.val) := by decide
    refine BitVec.eq_of_getLsbD_eq fun i hi ↦ ?_
    rw [BitVec.getLsbD_setWidth, BitVec.getLsbD_and, hmask ⟨i, hi⟩]
    by_cases h : i < 12
    · simp [h]
    · simp [h, hi, show 12 ≤ i by omega, show i < 64 by omega, show i - 12 < 20 by omega,
        show i - 12 < 32 by omega, -BitVec.getLsbD_eq_getElem]
  rw [himmediate, ← BitVec.setWidth_eq (immediate.extractLsb' 0 20 ++ _ ++ _)]
  simp only [BitVec.setWidth_append_eq_shiftLeft_setWidth_or, BitVec.shiftLeft_or_distrib,
    ← BitVec.shiftLeft_add]
  rfl

end Encoders

/-! ## Decoding what was encoded -/

section RoundTrips

variable (opcode : BitVec 7) (destination : BitVec 5) (function3 : BitVec 3)
  (source source1 source2 : BitVec 5) (function7 : BitVec 7) (immediate : BitVec 64)

/-- The fields of the word that `encodeI` builds. -/
structure FieldsI (bits : BitVec 32) : Prop where
  opcode : bits.extractLsb' 0 7 = opcode
  destination : bits.extractLsb' 7 5 = destination
  function3 : bits.extractLsb' 12 3 = function3
  source : bits.extractLsb' 15 5 = source
  amount : bits.extractLsb' 20 6 = immediate.extractLsb' 0 6
  function6 : bits.extractLsb' 26 6 = immediate.extractLsb' 6 6
  immediate : Isa.immediateI bits = (immediate.setWidth 12).signExtend 64

theorem fieldsI_encodeI : FieldsI opcode destination function3 source immediate
    (encodeI opcode destination function3 source immediate) := by
  rw [encodeI_eq]
  constructor
  all_goals
    simp (disch := decide) only [Isa.immediateI, BitVec.extractLsb'_append_eq_of_le,
      BitVec.extractLsb'_append_eq_right, BitVec.extractLsb'_extractLsb'_of_le, Nat.reduceSub]
  rfl

structure FieldsR (bits : BitVec 32) : Prop where
  opcode : bits.extractLsb' 0 7 = opcode
  destination : bits.extractLsb' 7 5 = destination
  function3 : bits.extractLsb' 12 3 = function3
  source1 : bits.extractLsb' 15 5 = source1
  source2 : bits.extractLsb' 20 5 = source2
  function7 : bits.extractLsb' 25 7 = function7

theorem fieldsR_encodeR : FieldsR opcode destination function3 source1 source2 function7
    (encodeR opcode destination function3 source1 source2 function7) := by
  rw [encodeR_eq]
  constructor
  all_goals
    simp (disch := decide) only [BitVec.extractLsb'_append_eq_of_le,
      BitVec.extractLsb'_append_eq_right, BitVec.extractLsb'_eq_self, Nat.reduceSub]

structure FieldsS (bits : BitVec 32) : Prop where
  opcode : bits.extractLsb' 0 7 = opcode
  function3 : bits.extractLsb' 12 3 = function3
  source1 : bits.extractLsb' 15 5 = source1
  source2 : bits.extractLsb' 20 5 = source2
  immediate : Isa.immediateS bits = (immediate.setWidth 12).signExtend 64

theorem fieldsS_encodeS : FieldsS opcode function3 source1 source2 immediate
    (encodeS opcode function3 source1 source2 immediate) := by
  rw [encodeS_eq]
  constructor
  all_goals
    simp (disch := decide) only [Isa.immediateS, BitVec.extractLsb'_append_eq_of_le,
      BitVec.extractLsb'_append_eq_right, BitVec.extractLsb'_eq_self, Nat.reduceSub]
  exact congrArg (BitVec.signExtend 64) (Fields.extractLsb'_append immediate rfl)

structure FieldsB (bits : BitVec 32) : Prop where
  opcode : bits.extractLsb' 0 7 = 0x63#7
  function3 : bits.extractLsb' 12 3 = function3
  source1 : bits.extractLsb' 15 5 = source1
  source2 : bits.extractLsb' 20 5 = source2
  immediate : Isa.immediateB bits = (immediate.setWidth 13).signExtend 64

theorem fieldsB_encodeB (heven : immediate.getLsbD 0 = false) :
    FieldsB function3 source1 source2 immediate (encodeB function3 source1 source2 immediate) := by
  rw [encodeB_eq]
  constructor
  all_goals
    simp (disch := decide) only [Isa.immediateB, BitVec.extractLsb'_append_eq_of_le,
      BitVec.extractLsb'_append_eq_right, BitVec.extractLsb'_eq_self, Nat.reduceSub]
  rw [Fields.extractLsb'_append immediate (show 12 = 11 + 1 from rfl),
    Fields.extractLsb'_append immediate (show 11 = 5 + 6 from rfl),
    Fields.extractLsb'_append immediate (show 5 = 1 + 4 from rfl)]
  exact congrArg (BitVec.signExtend 64) (Fields.extractLsb'_append_zero heven)

structure FieldsJ (bits : BitVec 32) : Prop where
  opcode : bits.extractLsb' 0 7 = 0x6F#7
  destination : bits.extractLsb' 7 5 = 0#5
  immediate : Isa.immediateJ bits = (immediate.setWidth 21).signExtend 64

theorem fieldsJ_encodeJ (heven : immediate.getLsbD 0 = false) :
    FieldsJ immediate (encodeJ immediate) := by
  rw [encodeJ_eq]
  constructor
  all_goals
    simp (disch := decide) only [Isa.immediateJ, BitVec.extractLsb'_append_eq_of_le,
      BitVec.extractLsb'_append_eq_right, BitVec.extractLsb'_eq_self, Nat.reduceSub]
  rw [Fields.extractLsb'_append immediate (show 20 = 12 + 8 from rfl),
    Fields.extractLsb'_append immediate (show 12 = 11 + 1 from rfl),
    Fields.extractLsb'_append immediate (show 11 = 1 + 10 from rfl)]
  exact congrArg (BitVec.signExtend 64) (Fields.extractLsb'_append_zero heven)

end RoundTrips

/-! ## Expanded words -/

/-- An expanded word stands for the instruction that the manual gives a compressed one. -/
def Stands (expanded : BitVec 32) : Isa.Compressed → Prop
  | .base i => Isa.decode expanded = some i
  | .loadDouble rd rs1 offset =>
    expanded.extractLsb' 0 7 = 0x07#7 ∧ expanded.extractLsb' 7 5 = rd ∧
      expanded.extractLsb' 12 3 = 3#3 ∧ expanded.extractLsb' 15 5 = rs1 ∧
      Isa.immediateI expanded = offset
  | .storeDouble rs1 rs2 offset =>
    expanded.extractLsb' 0 7 = 0x27#7 ∧ expanded.extractLsb' 12 3 = 3#3 ∧
      expanded.extractLsb' 15 5 = rs1 ∧ expanded.extractLsb' 20 5 = rs2 ∧
      Isa.immediateS expanded = offset
  | .breakpoint => expanded = ebreak
  | .hint => expanded = nop

/-- An immediate that a field of `n` bits can hold. -/
def Survives (n : ℕ) (immediate : BitVec 64) : Prop :=
  (immediate.setWidth n).signExtend 64 = immediate

section Formats

variable {destination source source1 source2 : BitVec 5} {function3 : BitVec 3}
  {function7 : BitVec 7} {immediate : BitVec 64}

theorem stands_load (h : Survives 12 immediate) {width : AccessWidth}
    (hwidth : Isa.width (function3.setWidth 2) = width) (h3 : function3.getLsbD 2 = false) :
    Stands (encodeI 0x03#7 destination function3 source immediate)
      (.base (.load width true destination source immediate)) := by
  have hf := fieldsI_encodeI 0x03#7 destination function3 source immediate
  have h7 : function3 ≠ 7#3 := by
    rintro rfl
    cases h3
  rw [Stands, Isa.decode]
  simp only [hf.opcode, hf.destination, hf.function3, hf.source, hf.immediate.trans h, hwidth, h3,
    if_neg h7]
  rfl

theorem stands_store (h : Survives 12 immediate) {width : AccessWidth}
    (hwidth : Isa.width (function3.setWidth 2) = width) (h3 : function3.getLsbD 2 = false) :
    Stands (encodeS 0x23#7 function3 source1 source2 immediate)
      (.base (.store width source1 source2 immediate)) := by
  have hf := fieldsS_encodeS 0x23#7 function3 source1 source2 immediate
  rw [Stands, Isa.decode]
  simp only [hf.opcode, hf.function3, hf.source1, hf.source2, hf.immediate.trans h, hwidth, h3]
  rfl

theorem stands_immediate (h : Survives 12 immediate) {operation : Operation}
    (hoperation : immediateOperation function3 = some operation) :
    Stands (encodeI 0x13#7 destination function3 source immediate)
      (.base (.compute operation destination source (.immediate immediate))) := by
  have hf := fieldsI_encodeI 0x13#7 destination function3 source immediate
  rw [Stands, Isa.decode]
  simp only [hf.opcode, hf.destination, hf.function3, hf.source, hf.immediate.trans h, hoperation]
  rfl

/-- Shifts have a function code above the shift amount. -/
theorem stands_shift {operation : Operation} {amount : BitVec 64}
    (hnone : immediateOperation function3 = none)
    (hoperation : shiftOperation function3 (immediate.extractLsb' 6 6) = some operation)
    (hamount : (immediate.extractLsb' 0 6).setWidth 64 = amount) :
    Stands (encodeI 0x13#7 destination function3 source immediate)
      (.base (.compute operation destination source (.immediate amount))) := by
  have hf := fieldsI_encodeI 0x13#7 destination function3 source immediate
  rw [Stands, Isa.decode]
  simp only [hf.opcode, hf.destination, hf.function3, hf.source, hf.amount, hf.function6, hnone,
    hoperation, hamount]
  rfl

theorem stands_addiw (h : Survives 12 immediate) :
    Stands (encodeI 0x1B#7 destination 0#3 source immediate)
      (.base (.computeWord .add destination source (.immediate immediate))) := by
  have hf := fieldsI_encodeI 0x1B#7 destination 0#3 source immediate
  rw [Stands, Isa.decode]
  simp only [hf.opcode, hf.destination, hf.function3, hf.source, hf.immediate.trans h]
  rfl

theorem stands_jalr (h : Survives 12 immediate) :
    Stands (encodeI 0x67#7 destination 0#3 source immediate)
      (.base (.jalr destination source immediate)) := by
  have hf := fieldsI_encodeI 0x67#7 destination 0#3 source immediate
  rw [Stands, Isa.decode]
  simp only [hf.opcode, hf.destination, hf.function3, hf.source, hf.immediate.trans h]
  rfl

theorem stands_loadDouble (h : Survives 12 immediate) :
    Stands (encodeI 0x07#7 destination 3#3 source immediate)
      (.loadDouble destination source immediate) := by
  have hf := fieldsI_encodeI 0x07#7 destination 3#3 source immediate
  exact ⟨hf.opcode, hf.destination, hf.function3, hf.source, hf.immediate.trans h⟩

theorem stands_storeDouble (h : Survives 12 immediate) :
    Stands (encodeS 0x27#7 3#3 source1 source2 immediate)
      (.storeDouble source1 source2 immediate) := by
  have hf := fieldsS_encodeS 0x27#7 3#3 source1 source2 immediate
  exact ⟨hf.opcode, hf.function3, hf.source1, hf.source2, hf.immediate.trans h⟩

theorem stands_register {operation : Operation}
    (hoperation : registerOperation function3 function7 = some operation) :
    Stands (encodeR 0x33#7 destination function3 source1 source2 function7)
      (.base (.compute operation destination source1 (.register source2))) := by
  have hf := fieldsR_encodeR 0x33#7 destination function3 source1 source2 function7
  rw [Stands, Isa.decode]
  simp only [hf.opcode, hf.destination, hf.function3, hf.source1, hf.source2, hf.function7,
    hoperation]
  rfl

theorem stands_registerWord {operation : WordOperation}
    (hoperation : registerWordOperation function3 function7 = some operation) :
    Stands (encodeR 0x3B#7 destination function3 source1 source2 function7)
      (.base (.computeWord operation destination source1 (.register source2))) := by
  have hf := fieldsR_encodeR 0x3B#7 destination function3 source1 source2 function7
  rw [Stands, Isa.decode]
  simp only [hf.opcode, hf.destination, hf.function3, hf.source1, hf.source2, hf.function7,
    hoperation]
  rfl

theorem stands_branch (h : Survives 13 immediate) (heven : immediate.getLsbD 0 = false)
    {condition : Condition} (hcondition : Isa.condition function3 = some condition) :
    Stands (encodeB function3 source1 source2 immediate)
      (.base (.branch condition source1 source2 immediate)) := by
  have hf := fieldsB_encodeB function3 source1 source2 immediate heven
  rw [Stands, Isa.decode]
  simp only [hf.opcode, hf.function3, hf.source1, hf.source2, hf.immediate.trans h, hcondition]
  rfl

theorem stands_jal (h : Survives 21 immediate) (heven : immediate.getLsbD 0 = false) :
    Stands (encodeJ immediate) (.base (.jal 0#5 immediate)) := by
  have hf := fieldsJ_encodeJ immediate heven
  rw [Stands, Isa.decode]
  simp only [hf.opcode, hf.destination, hf.immediate.trans h]
  rfl

theorem stands_lui {amount : BitVec 64}
    (hamount : (immediate.extractLsb' 0 20 ++ 0#12).signExtend 64 = amount) :
    Stands (((immediate <<< 12) &&& 0xFFFFF000#64).setWidth 32 ||| (destination.setWidth 32 <<< 7)
      ||| 0x37#32) (.base (.lui destination amount)) := by
  have hopcode : (immediate.extractLsb' 0 20 ++ destination ++ 0x37#7).extractLsb' 0 7 = 0x37#7 :=
    BitVec.extractLsb'_append_eq_right
  have hdestination :
      (immediate.extractLsb' 0 20 ++ destination ++ 0x37#7).extractLsb' 7 5 = destination := by
    rw [BitVec.extractLsb'_append_eq_of_le (by decide)]
    exact BitVec.extractLsb'_append_eq_right
  have himmediate : (immediate.extractLsb' 0 20 ++ destination ++ 0x37#7).extractLsb' 12 20 =
      immediate.extractLsb' 0 20 := by
    rw [BitVec.extractLsb'_append_eq_of_le (by decide)]
    exact BitVec.extractLsb'_append_eq_left
  rw [encodeLui_eq, Stands, Isa.decode]
  simp only [hopcode, hdestination, Isa.immediateU, himmediate, hamount]
  rfl

end Formats

/-! ## The fields of compressed encodings -/

section Immediates

open Isa.Compressed

variable (bits : BitVec 16)

theorem part_one (s : ℕ) : part bits s 1#16 = (bits.extractLsb' s 1).setWidth 64 :=
  Fields.setWidth_and_mask 64 bits s rfl

theorem part_three (s : ℕ) : part bits s 3#16 = (bits.extractLsb' s 2).setWidth 64 :=
  Fields.setWidth_and_mask 64 bits s rfl

theorem part_seven (s : ℕ) : part bits s 7#16 = (bits.extractLsb' s 3).setWidth 64 :=
  Fields.setWidth_and_mask 64 bits s rfl

theorem part_fifteen (s : ℕ) : part bits s 0xF#16 = (bits.extractLsb' s 4).setWidth 64 :=
  Fields.setWidth_and_mask 64 bits s rfl

theorem compactRegister_eq (s : ℕ) : compactRegister (bits >>> s) = shortRegister bits s := by
  have hadd : ∀ x : BitVec 3, 8#5 + x.setWidth 5 = 1#2 ++ x := by decide
  rw [compactRegister, Fields.setWidth_and_mask 5 bits s (n := 3) rfl, hadd]
  rfl

theorem fullRegister_eq (s : ℕ) : fullRegister bits s = bits.extractLsb' s 5 := by
  rw [fullRegister, Fields.setWidth_and_mask 5 bits s (n := 5) rfl, BitVec.setWidth_eq]

theorem ciField_eq : ciField bits = Compressed.shiftAmount bits := by
  have hhigh : ((bits >>> 7) &&& 0x20#16).setWidth 64 =
      (bits.extractLsb' 12 1).setWidth 64 <<< 5 := by
    have hbit : bits.extractLsb' 12 1 = BitVec.ofBool (bits.getLsbD 12) := by
      refine BitVec.eq_of_getLsbD_eq fun i hi ↦ ?_
      obtain rfl : i = 0 := by omega
      simp
    rw [show 0x20#16 = BitVec.twoPow 16 5 from rfl, BitVec.and_twoPow, BitVec.getLsbD_ushiftRight,
      hbit]
    cases bits.getLsbD 12 with
    | false => rfl
    | true => rfl
  rw [ciField, BitVec.setWidth_or, hhigh, Fields.setWidth_and_mask 64 bits 2 (n := 5) rfl,
    Compressed.shiftAmount, sixBits, BitVec.setWidth_append_eq_shiftLeft_setWidth_or]

theorem ciImmediate_eq : ciImmediate bits = Compressed.immediate bits := by
  rw [ciImmediate, ciField_eq, Compressed.shiftAmount,
    setWidth_signExtend _ (by decide) (by decide)]
  rfl

/-- The offsets, without the zeros below them, one field after the other. -/
theorem doubleImmediate_eq :
    (part bits 5 3#16 <<< 6) ||| (part bits 10 7#16 <<< 3) = doubleOffset bits := by
  simp only [part_three, part_seven, doubleOffset, BitVec.setWidth_append_eq_shiftLeft_setWidth_or,
    BitVec.shiftLeft_or_distrib, ← BitVec.shiftLeft_add]
  rw [BitVec.setWidth_zero, BitVec.or_zero]

theorem wordImmediate_eq :
    (part bits 5 1#16 <<< 6) ||| (part bits 10 7#16 <<< 3) ||| (part bits 6 1#16 <<< 2) =
      wordOffset bits := by
  simp only [part_one, part_seven, wordOffset, BitVec.setWidth_append_eq_shiftLeft_setWidth_or,
    BitVec.shiftLeft_or_distrib, ← BitVec.shiftLeft_add]
  rw [BitVec.setWidth_zero, BitVec.or_zero]

theorem stackDoubleImmediate_eq :
    (part bits 2 7#16 <<< 6) ||| (part bits 12 1#16 <<< 5) ||| (part bits 5 3#16 <<< 3) =
      stackDoubleOffset bits := by
  simp only [part_one, part_three, part_seven, stackDoubleOffset,
    BitVec.setWidth_append_eq_shiftLeft_setWidth_or, BitVec.shiftLeft_or_distrib,
    ← BitVec.shiftLeft_add]
  rw [BitVec.setWidth_zero, BitVec.or_zero]

theorem stackWordImmediate_eq :
    (part bits 2 3#16 <<< 6) ||| (part bits 12 1#16 <<< 5) ||| (part bits 4 7#16 <<< 2) =
      stackWordOffset bits := by
  simp only [part_one, part_three, part_seven, stackWordOffset,
    BitVec.setWidth_append_eq_shiftLeft_setWidth_or, BitVec.shiftLeft_or_distrib,
    ← BitVec.shiftLeft_add]
  rw [BitVec.setWidth_zero, BitVec.or_zero]

theorem stackDoubleStoreImmediate_eq :
    (part bits 7 7#16 <<< 6) ||| (part bits 10 7#16 <<< 3) = stackDoubleStoreOffset bits := by
  simp only [part_seven, stackDoubleStoreOffset, BitVec.setWidth_append_eq_shiftLeft_setWidth_or,
    BitVec.shiftLeft_or_distrib, ← BitVec.shiftLeft_add]
  rw [BitVec.setWidth_zero, BitVec.or_zero]

theorem stackWordStoreImmediate_eq :
    (part bits 7 3#16 <<< 6) ||| (part bits 9 0xF#16 <<< 2) = stackWordStoreOffset bits := by
  simp only [part_three, part_fifteen, stackWordStoreOffset,
    BitVec.setWidth_append_eq_shiftLeft_setWidth_or, BitVec.shiftLeft_or_distrib,
    ← BitVec.shiftLeft_add]
  rw [BitVec.setWidth_zero, BitVec.or_zero]

theorem addi4spnImmediate_eq :
    (part bits 7 0xF#16 <<< 6) ||| (part bits 11 3#16 <<< 4) ||| (part bits 5 1#16 <<< 3)
      ||| (part bits 6 1#16 <<< 2) = addi4spnImmediate bits := by
  simp only [part_one, part_three, part_fifteen, addi4spnImmediate,
    BitVec.setWidth_append_eq_shiftLeft_setWidth_or, BitVec.shiftLeft_or_distrib,
    ← BitVec.shiftLeft_add]
  rw [BitVec.setWidth_zero, BitVec.or_zero]

/-- The signed ones come in another order than their bits. -/
theorem addi16spImmediate_eq :
    signExtend
        ((part bits 12 1#16 <<< 9) ||| (part bits 6 1#16 <<< 4) ||| (part bits 5 1#16 <<< 6)
          ||| (part bits 3 3#16 <<< 7) ||| (part bits 2 1#16 <<< 5)) 10 =
      addi16spImmediate bits := by
  have horder : ∀ a b c d e : BitVec 64, a ||| b ||| c ||| d ||| e = a ||| d ||| c ||| e ||| b := by
    intros
    ac_rfl
  rw [addi16spImmediate, ← setWidth_signExtend _ (by decide) (by decide)]
  simp only [part_one, part_three, BitVec.setWidth_append_eq_shiftLeft_setWidth_or,
    BitVec.shiftLeft_or_distrib, ← BitVec.shiftLeft_add]
  rw [BitVec.setWidth_zero, BitVec.or_zero, horder]

theorem jumpImmediate_eq : jumpImmediate bits = jumpOffset bits := by
  have horder : ∀ a b c d e f g h : BitVec 64,
      a ||| b ||| c ||| d ||| e ||| f ||| g ||| h =
      a ||| d ||| c ||| f ||| e ||| h ||| b ||| g := by
    intros
    ac_rfl
  rw [jumpImmediate, jumpOffset, ← setWidth_signExtend _ (by decide) (by decide)]
  simp only [part_one, part_three, part_seven, BitVec.setWidth_append_eq_shiftLeft_setWidth_or,
    BitVec.shiftLeft_or_distrib, ← BitVec.shiftLeft_add]
  rw [BitVec.setWidth_zero, BitVec.or_zero, horder]

theorem branchImmediate_eq : branchImmediate bits = branchOffset bits := by
  have horder : ∀ a b c d e : BitVec 64, a ||| b ||| c ||| d ||| e = a ||| c ||| e ||| b ||| d := by
    intros
    ac_rfl
  rw [branchImmediate, branchOffset, ← setWidth_signExtend _ (by decide) (by decide)]
  simp only [part_one, part_three, BitVec.setWidth_append_eq_shiftLeft_setWidth_or,
    BitVec.shiftLeft_or_distrib, ← BitVec.shiftLeft_add]
  rw [BitVec.setWidth_zero, BitVec.or_zero, horder]

end Immediates

/-! ## Every encoding -/

theorem survives_unsigned {n m : ℕ} (x : BitVec n) (h : n < m) (hm : m ≤ 64) :
    Survives m (x.setWidth 64) :=
  Fields.signExtend_setWidth_setWidth x h hm

theorem survives_signed {n m : ℕ} (x : BitVec n) (h : n ≤ m) (hm : m ≤ 64) :
    Survives m (x.signExtend 64) :=
  Fields.signExtend_setWidth_signExtend x h hm

theorem getLsbD_zero_append_zero {n : ℕ} (x : BitVec n) :
    ((x ++ 0#1).signExtend 64).getLsbD 0 = false := by
  rw [BitVec.getLsbD_signExtend, if_pos (by omega), BitVec.getLsbD_append]
  rfl

theorem rel_ite {p : Prop} [Decidable p] {a b : Option (BitVec 32)} {a' b' : Option Isa.Compressed}
    (ha : p → Option.Rel Stands a a') (hb : ¬ p → Option.Rel Stands b b') :
    Option.Rel Stands (if p then a else b) (if p then a' else b') := by
  by_cases h : p
  · rw [if_pos h, if_pos h]
    exact ha h
  · rw [if_neg h, if_neg h]
    exact hb h

section Encodings

open Isa.Compressed

variable (bits : BitVec 16)

theorem stands_quadrant0 (function3 : BitVec 3) :
    Option.Rel Stands (decompressQuadrant0 bits function3) (quadrant0 bits function3) := by
  rw [decompressQuadrant0, quadrant0]
  simp only [compactRegister_eq, doubleImmediate_eq, wordImmediate_eq, addi4spnImmediate_eq]
  rcases function3_cases function3 with rfl | rfl | rfl | rfl | rfl | rfl | rfl | rfl <;>
    simp +decide only [reduceIte]
  · exact rel_ite (fun _ ↦ .none) fun _ ↦
      .some (stands_immediate (survives_unsigned _ (by decide) (by decide)) rfl)
  · exact .some (stands_loadDouble (survives_unsigned _ (by decide) (by decide)))
  · exact .some (stands_load (survives_unsigned _ (by decide) (by decide)) rfl rfl)
  · exact .some (stands_load (survives_unsigned _ (by decide) (by decide)) rfl rfl)
  · exact .none
  · exact .some (stands_storeDouble (survives_unsigned _ (by decide) (by decide)))
  · exact .some (stands_store (survives_unsigned _ (by decide) (by decide)) rfl rfl)
  · exact .some (stands_store (survives_unsigned _ (by decide) (by decide)) rfl rfl)

/-! ### Arithmetic between the eight registers -/

theorem selector_eq (s : ℕ) : (bits >>> s) &&& 3#16 = (bits.extractLsb' s 2).setWidth 16 := by
  rw [← BitVec.setWidth_eq (_ &&& 3#16)]
  exact Fields.setWidth_and_mask 16 bits s rfl

theorem highBit_eq : (((bits >>> 12) &&& 1#16) != 0#16) = !(bits.extractLsb' 12 1 == 0#1) := by
  have hbit : (bits >>> 12) &&& 1#16 = (bits.extractLsb' 12 1).setWidth 16 := by
    rw [← BitVec.setWidth_eq (_ &&& 1#16)]
    exact Fields.setWidth_and_mask 16 bits 12 rfl
  have hzero : ∀ b : BitVec 1, (b.setWidth 16 != 0#16) = !(b == 0#1) := by decide
  rw [hbit, hzero]

theorem function2_cases (f : BitVec 2) : f = 0#2 ∨ f = 1#2 ∨ f = 2#2 ∨ f = 3#2 := by
  revert f
  decide

theorem bit_cases (b : BitVec 1) : b = 0#1 ∨ b = 1#1 := by
  revert b
  decide

/-- The shift amount sits below a function code that is zero, or marks SRAI. -/
theorem extractLsb'_shiftAmount : (Compressed.shiftAmount bits).extractLsb' 6 6 = 0x00#6 ∧
    (0x400#64 ||| Compressed.shiftAmount bits).extractLsb' 6 6 = 0x10#6 ∧
    ((Compressed.shiftAmount bits).extractLsb' 0 6).setWidth 64 = Compressed.shiftAmount bits ∧
    ((0x400#64 ||| Compressed.shiftAmount bits).extractLsb' 0 6).setWidth 64 =
      Compressed.shiftAmount bits := by
  have hsix : ∀ x : BitVec 6, (x.setWidth 64).extractLsb' 6 6 = 0x00#6 ∧
      (0x400#64 ||| x.setWidth 64).extractLsb' 6 6 = 0x10#6 ∧
      ((x.setWidth 64).extractLsb' 0 6).setWidth 64 = x.setWidth 64 ∧
      ((0x400#64 ||| x.setWidth 64).extractLsb' 0 6).setWidth 64 = x.setWidth 64 := by decide
  exact hsix (sixBits bits)

theorem stands_registerArithmetic :
    Option.Rel Stands (decompressMiscAlu bits) (arithmetic bits (bits.extractLsb' 10 2)) := by
  obtain ⟨hsrl, hsra, hlow, hlow'⟩ := extractLsb'_shiftAmount bits
  rw [decompressMiscAlu, arithmetic, registerArithmetic]
  simp only [compactRegister_eq, ciField_eq, ciImmediate_eq, selector_eq, highBit_eq]
  rcases function2_cases (bits.extractLsb' 10 2) with h | h | h | h <;> rw [h] <;>
    simp +decide only [reduceIte]
  · exact rel_ite (fun _ ↦ .some rfl) fun _ ↦ .some (stands_shift rfl (by rw [hsrl]; rfl) hlow)
  · exact rel_ite (fun _ ↦ .some rfl) fun _ ↦ .some (stands_shift rfl (by rw [hsra]; rfl) hlow')
  · exact .some (stands_immediate (survives_signed _ (by decide) (by decide)) rfl)
  · rcases bit_cases (bits.extractLsb' 12 1) with hword | hword <;> rw [hword] <;>
      rcases function2_cases (bits.extractLsb' 5 2) with h2 | h2 | h2 | h2 <;> rw [h2]
    · exact .some (stands_register rfl)
    · exact .some (stands_register rfl)
    · exact .some (stands_register rfl)
    · exact .some (stands_register rfl)
    · exact .some (stands_registerWord rfl)
    · exact .some (stands_registerWord rfl)
    · exact .none
    · exact .none

/-! ### The second and third quadrant -/

/-- C.LUI shifts its immediate into place. -/
theorem luiImmediate_eq :
    ((Compressed.immediate bits).extractLsb' 0 20 ++ 0#12).signExtend 64 = luiImmediate bits := by
  have hlow : (Compressed.immediate bits).extractLsb' 0 20 = (sixBits bits).signExtend 20 := by
    rw [← BitVec.setWidth_eq_extractLsb' (by decide), Compressed.immediate,
      Fields.setWidth_signExtend_of_le _ (by decide)]
  refine BitVec.eq_of_toInt_eq ?_
  rw [hlow, luiImmediate, BitVec.toInt_signExtend_of_le (by decide),
    BitVec.toInt_signExtend_of_le (by decide), BitVec.toInt_append_zero, BitVec.toInt_append_zero,
    BitVec.toInt_signExtend_of_le (by decide)]

theorem luiImmediate_eq_zero : luiImmediate bits = 0#64 ↔ Compressed.immediate bits = 0#64 := by
  rw [← BitVec.toInt_inj, ← BitVec.toInt_inj, luiImmediate, Compressed.immediate,
    BitVec.toInt_signExtend_of_le (by decide), BitVec.toInt_signExtend_of_le (by decide),
    BitVec.toInt_append_zero, BitVec.toInt_zero]
  omega

theorem stands_quadrant1 (function3 : BitVec 3) :
    Option.Rel Stands (decompressQuadrant1 bits function3) (quadrant1 bits function3) := by
  rw [decompressQuadrant1, quadrant1]
  simp only [compactRegister_eq, fullRegister_eq, ciImmediate_eq, addi16spImmediate_eq,
    jumpImmediate_eq, branchImmediate_eq, luiImmediate_eq_zero]
  rcases function3_cases function3 with rfl | rfl | rfl | rfl | rfl | rfl | rfl | rfl <;>
    simp +decide only [reduceIte]
  · exact rel_ite (fun _ ↦ .some rfl) fun _ ↦
      .some (stands_immediate (survives_signed _ (by decide) (by decide)) rfl)
  · exact rel_ite (fun _ ↦ .none) fun _ ↦
      .some (stands_addiw (survives_signed _ (by decide) (by decide)))
  · exact rel_ite (fun _ ↦ .some rfl) fun _ ↦
      .some (stands_immediate (survives_signed _ (by decide) (by decide)) rfl)
  · refine rel_ite (fun _ ↦ rel_ite (fun _ ↦ .none) fun _ ↦ ?_) fun _ ↦
      rel_ite (fun _ ↦ .none) fun _ ↦ rel_ite (fun _ ↦ .some rfl) fun _ ↦ ?_
    · exact .some (stands_immediate (survives_signed _ (by decide) (by decide)) rfl)
    · exact .some (stands_lui (luiImmediate_eq bits))
  · exact stands_registerArithmetic bits
  · exact .some (stands_jal (survives_signed _ (by decide) (by decide))
      (getLsbD_zero_append_zero _))
  · exact .some (stands_branch (survives_signed _ (by decide) (by decide))
      (getLsbD_zero_append_zero _) rfl)
  · exact .some (stands_branch (survives_signed _ (by decide) (by decide))
      (getLsbD_zero_append_zero _) rfl)

theorem stands_registerFormat : Option.Rel Stands (decompressCr bits) (registerFormat bits) := by
  rw [decompressCr, registerFormat]
  simp only [fullRegister_eq, highBit_eq]
  have hzero : Survives 12 0#64 := rfl
  rcases bit_cases (bits.extractLsb' 12 1) with hbit | hbit <;> rw [hbit]
  · by_cases hsource : bits.extractLsb' 2 5 = 0#5
    · simp +decide only [hsource, reduceIte]
      exact rel_ite (fun _ ↦ .none) fun _ ↦ .some (stands_jalr hzero)
    · simp +decide only [beq_false_of_ne hsource, hsource, reduceIte]
      exact rel_ite (fun _ ↦ .some rfl) fun _ ↦ .some (stands_register rfl)
  · have hbranch : (!!(1#1 == 0#1)) = false := rfl
    simp +decide only [hbranch, Bool.false_and, reduceIte]
    refine rel_ite (fun _ ↦ rel_ite (fun _ ↦ .some rfl) fun _ ↦ ?_) fun _ ↦
      rel_ite (fun _ ↦ .some rfl) fun _ ↦ ?_
    · exact .some (stands_jalr hzero)
    · exact .some (stands_register rfl)

theorem stands_quadrant2 (function3 : BitVec 3) :
    Option.Rel Stands (decompressQuadrant2 bits function3) (quadrant2 bits function3) := by
  obtain ⟨hsll, -, hlow, -⟩ := extractLsb'_shiftAmount bits
  rw [decompressQuadrant2, quadrant2]
  simp only [fullRegister_eq, ciField_eq, stackDoubleImmediate_eq, stackWordImmediate_eq,
    stackDoubleStoreImmediate_eq, stackWordStoreImmediate_eq]
  rcases function3_cases function3 with rfl | rfl | rfl | rfl | rfl | rfl | rfl | rfl <;>
    simp +decide only [true_and, false_and, reduceIte]
  · exact rel_ite (fun _ ↦ .some rfl) fun _ ↦ .some (stands_shift rfl (by rw [hsll]; rfl) hlow)
  · exact .some (stands_loadDouble (survives_unsigned _ (by decide) (by decide)))
  · exact rel_ite (fun _ ↦ .none) fun _ ↦
      .some (stands_load (survives_unsigned _ (by decide) (by decide)) rfl rfl)
  · exact rel_ite (fun _ ↦ .none) fun _ ↦
      .some (stands_load (survives_unsigned _ (by decide) (by decide)) rfl rfl)
  · exact stands_registerFormat bits
  · exact .some (stands_storeDouble (survives_unsigned _ (by decide) (by decide)))
  · exact .some (stands_store (survives_unsigned _ (by decide) (by decide)) rfl rfl)
  · exact .some (stands_store (survives_unsigned _ (by decide) (by decide)) rfl rfl)

/-- **Expansion.**  An encoding is expanded exactly if the manual defines it, to a word that stands
for the instruction the manual gives it. -/
theorem stands_decompressRv64c :
    Option.Rel Stands (decompressRv64c bits) (Isa.Compressed.decode bits) :=
  rel_ite (fun _ ↦ stands_quadrant0 bits _) fun _ ↦
    rel_ite (fun _ ↦ stands_quadrant1 bits _) fun _ ↦
      rel_ite (fun _ ↦ stands_quadrant2 bits _) fun _ ↦ .none

end Encodings

end Rvemu
