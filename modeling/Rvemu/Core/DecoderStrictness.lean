import Rvemu.Core.Step

/-!
# Which words the hart executes

The encodings of RV64IMAFD, Zicsr, Zifencei and the privileged instructions are written down as a
table of fixed fields, with no reference to the dispatcher.  A word that matches no row is compared
with what the dispatcher does to it: it raises an illegal instruction, with one exception.  The test
for SFENCE.VMA masks the destination field out, so the instruction is executed whatever `rd` holds.
-/

set_option autoImplicit false

namespace Rvemu

/-! ## The table -/

/-- A field of an instruction that holds one value. -/
structure FixedField where
  start : ℕ
  width : ℕ
  value : ℕ
  deriving DecidableEq, Repr

def FixedField.holds (f : FixedField) (bits : BitVec 32) : Bool :=
  (bits.extractLsb' f.start f.width).toNat == f.value

/-- A row of the table.  Where an instruction rounds, its `rm` field is any mode but the two
reserved ones. -/
structure Encoding where
  fields : List FixedField
  rounds : Bool := false
  deriving DecidableEq, Repr

def roundingField (bits : BitVec 32) : Bool :=
  let rm := (bits.extractLsb' 12 3).toNat
  decide (rm ≤ 4) || rm == 7

def Encoding.describes (e : Encoding) (bits : BitVec 32) : Bool :=
  e.fields.all (·.holds bits) && (!e.rounds || roundingField bits)

namespace Encoding

/-- The opcode alone, and with `funct3`, `funct7`, `funct6` or the `funct5` of the atomics. -/
def opcode (op : ℕ) : Encoding := { fields := [⟨0, 7, op⟩] }

def function3 (op f3 : ℕ) : Encoding := { fields := [⟨0, 7, op⟩, ⟨12, 3, f3⟩] }

def function7 (op f7 f3 : ℕ) : Encoding := { fields := [⟨0, 7, op⟩, ⟨12, 3, f3⟩, ⟨25, 7, f7⟩] }

def function6 (op f6 f3 : ℕ) : Encoding := { fields := [⟨0, 7, op⟩, ⟨12, 3, f3⟩, ⟨26, 6, f6⟩] }

def function5 (f5 f3 : ℕ) : Encoding := { fields := [⟨0, 7, 0x2F⟩, ⟨12, 3, f3⟩, ⟨27, 5, f5⟩] }

/-- LR has no second source. -/
def loadReserved (f3 : ℕ) : Encoding :=
  { fields := [⟨0, 7, 0x2F⟩, ⟨12, 3, f3⟩, ⟨27, 5, 0x02⟩, ⟨20, 5, 0⟩] }

/-- Instructions without any operand. -/
def word (bits : ℕ) : Encoding := { fields := [⟨0, 32, bits⟩] }

/-- SFENCE.VMA: two sources, no destination. -/
def sfenceVma : Encoding := { fields := [⟨0, 7, 0x73⟩, ⟨7, 5, 0⟩, ⟨12, 3, 0⟩, ⟨25, 7, 0x09⟩] }

/-- FMADD and its relatives. -/
def fused (op fmt : ℕ) : Encoding := { fields := [⟨0, 7, op⟩, ⟨25, 2, fmt⟩], rounds := true }

/-- OP-FP with two sources: rounding, or with `funct3` selecting the operation. -/
def rounded (f5 fmt : ℕ) : Encoding :=
  { fields := [⟨0, 7, 0x53⟩, ⟨25, 2, fmt⟩, ⟨27, 5, f5⟩], rounds := true }

def selected (f5 fmt f3 : ℕ) : Encoding :=
  { fields := [⟨0, 7, 0x53⟩, ⟨25, 2, fmt⟩, ⟨27, 5, f5⟩, ⟨12, 3, f3⟩] }

/-- OP-FP with one source, the second source field selecting the operation. -/
def unaryRounded (f5 fmt rs2 : ℕ) : Encoding :=
  { fields := [⟨0, 7, 0x53⟩, ⟨25, 2, fmt⟩, ⟨27, 5, f5⟩, ⟨20, 5, rs2⟩], rounds := true }

def unarySelected (f5 fmt rs2 f3 : ℕ) : Encoding :=
  { fields := [⟨0, 7, 0x53⟩, ⟨25, 2, fmt⟩, ⟨27, 5, f5⟩, ⟨20, 5, rs2⟩, ⟨12, 3, f3⟩] }

/-- LUI, AUIPC, JAL, JALR, the branches, loads and stores. -/
def base : List Encoding :=
  [opcode 0x37, opcode 0x17, opcode 0x6F, function3 0x67 0]
    ++ [0, 1, 4, 5, 6, 7].map (function3 0x63)
    ++ (List.range 7).map (function3 0x03)
    ++ (List.range 4).map (function3 0x23)

/-- The computational instructions of I and M. -/
def computational : List Encoding :=
  [0, 2, 3, 4, 6, 7].map (function3 0x13)
    ++ [function6 0x13 0x00 1, function6 0x13 0x00 5, function6 0x13 0x10 5]
    ++ [function3 0x1B 0, function7 0x1B 0x00 1, function7 0x1B 0x00 5, function7 0x1B 0x20 5]
    ++ (List.range 8).map (function7 0x33 0x00)
    ++ [function7 0x33 0x20 0, function7 0x33 0x20 5]
    ++ (List.range 8).map (function7 0x33 0x01)
    ++ [0, 1, 5].map (function7 0x3B 0x00)
    ++ [function7 0x3B 0x20 0, function7 0x3B 0x20 5]
    ++ [0, 4, 5, 6, 7].map (function7 0x3B 0x01)

/-- A: LR, SC and the nine AMOs, on words and double words. -/
def atomic : List Encoding :=
  [2, 3].flatMap fun f3 ↦
    loadReserved f3 ::
      [0x03, 0x01, 0x00, 0x04, 0x0C, 0x08, 0x10, 0x14, 0x18, 0x1C].map (function5 · f3)

/-- F and D: loads, stores, the fused operations and OP-FP in one format. -/
def floatingFormat (fmt : ℕ) : List Encoding :=
  [0x43, 0x47, 0x4B, 0x4F].map (fused · fmt)
    ++ [0x00, 0x01, 0x02, 0x03].map (rounded · fmt)
    ++ [unaryRounded 0x0B fmt 0]
    ++ [0, 1, 2].map (selected 0x04 fmt)
    ++ [0, 1].map (selected 0x05 fmt)
    ++ [0, 1, 2].map (selected 0x14 fmt)
    ++ (List.range 4).map (unaryRounded 0x18 fmt)
    ++ (List.range 4).map (unaryRounded 0x1A fmt)
    ++ [unarySelected 0x1C fmt 0 0, unarySelected 0x1C fmt 0 1, unarySelected 0x1E fmt 0 0]

def floating : List Encoding :=
  [function3 0x07 2, function3 0x07 3, function3 0x27 2, function3 0x27 3]
    ++ floatingFormat 0 ++ floatingFormat 1
    ++ [unaryRounded 0x08 0 1, unaryRounded 0x08 1 0]

/-- FENCE and FENCE.I with whatever in their reserved fields, Zicsr, ECALL, EBREAK, MRET, SRET, WFI
and SFENCE.VMA. -/
def system : List Encoding :=
  [function3 0x0F 0, function3 0x0F 1]
    ++ [1, 2, 3, 5, 6, 7].map (function3 0x73)
    ++ [0x00000073, 0x00100073, 0x30200073, 0x10200073, 0x10500073].map word
    ++ [sfenceVma]

/-- Every instruction the hart is meant to implement outside the vector extension. -/
def scalar : List Encoding := base ++ computational ++ atomic ++ floating ++ system

end Encoding

/-- The word is an instruction. -/
def Defined (bits : BitVec 32) : Prop := ∃ e ∈ Encoding.scalar, e.describes bits = true

/-- The words of the vector extension: OP-V, and the loads and stores of the vector widths. -/
def VectorEncoding (bits : BitVec 32) : Prop :=
  bits.extractLsb' 0 7 = 0x57#7 ∨
    (bits.extractLsb' 0 7 = 0x07#7 ∨ bits.extractLsb' 0 7 = 0x27#7) ∧
      (bits.extractLsb' 12 3 = 0#3 ∨ bits.extractLsb' 12 3 = 5#3 ∨ bits.extractLsb' 12 3 = 6#3 ∨
        bits.extractLsb' 12 3 = 7#3)

/-! ## Rows by shape -/

namespace Defined

variable {bits : BitVec 32} {op f7 : BitVec 7} {f6 : BitVec 6} {f5 rs2 : BitVec 5} {f3 : BitVec 3}
  {fmt : BitVec 2}

theorem of_fields {e : Encoding} (he : e ∈ Encoding.scalar)
    (hf : ∀ f ∈ e.fields, (bits.extractLsb' f.start f.width).toNat = f.value)
    (hr : e.rounds = true → roundingField bits = true) : Defined bits := by
  refine ⟨e, he, ?_⟩
  rw [Encoding.describes, Bool.and_eq_true, List.all_eq_true, Bool.or_eq_true, Bool.not_eq_true']
  refine ⟨fun f hmem ↦ beq_iff_eq.2 (hf f hmem), ?_⟩
  cases h : e.rounds with
  | false => exact Or.inl rfl
  | true => exact Or.inr (hr h)

theorem opcode (hop : bits.extractLsb' 0 7 = op)
    (h : Encoding.opcode op.toNat ∈ Encoding.scalar) : Defined bits :=
  of_fields h (by simp only [Encoding.opcode, List.forall_mem_cons, hop]; simp) nofun

theorem function3 (hop : bits.extractLsb' 0 7 = op) (h3 : bits.extractLsb' 12 3 = f3)
    (h : Encoding.function3 op.toNat f3.toNat ∈ Encoding.scalar) : Defined bits :=
  of_fields h (by simp only [Encoding.function3, List.forall_mem_cons, hop, h3]; simp) nofun

theorem function7 (hop : bits.extractLsb' 0 7 = op) (h7 : bits.extractLsb' 25 7 = f7)
    (h3 : bits.extractLsb' 12 3 = f3)
    (h : Encoding.function7 op.toNat f7.toNat f3.toNat ∈ Encoding.scalar) : Defined bits :=
  of_fields h (by simp only [Encoding.function7, List.forall_mem_cons, hop, h3, h7]; simp) nofun

theorem function6 (hop : bits.extractLsb' 0 7 = op) (h6 : bits.extractLsb' 26 6 = f6)
    (h3 : bits.extractLsb' 12 3 = f3)
    (h : Encoding.function6 op.toNat f6.toNat f3.toNat ∈ Encoding.scalar) : Defined bits :=
  of_fields h (by simp only [Encoding.function6, List.forall_mem_cons, hop, h3, h6]; simp) nofun

theorem function5 (hop : bits.extractLsb' 0 7 = 0x2F#7) (h5 : bits.extractLsb' 27 5 = f5)
    (h3 : bits.extractLsb' 12 3 = f3)
    (h : Encoding.function5 f5.toNat f3.toNat ∈ Encoding.scalar) : Defined bits :=
  of_fields h (by simp only [Encoding.function5, List.forall_mem_cons, hop, h3, h5]; simp) nofun

theorem loadReserved (hop : bits.extractLsb' 0 7 = 0x2F#7) (h5 : bits.extractLsb' 27 5 = 0x02#5)
    (h2 : bits.extractLsb' 20 5 = 0#5) (h3 : bits.extractLsb' 12 3 = f3)
    (h : Encoding.loadReserved f3.toNat ∈ Encoding.scalar) : Defined bits :=
  of_fields h (by simp only [Encoding.loadReserved, List.forall_mem_cons, hop, h3, h5, h2]; simp)
    nofun

theorem word {w : BitVec 32} (hw : bits = w) (h : Encoding.word w.toNat ∈ Encoding.scalar) :
    Defined bits := by
  refine of_fields h ?_ nofun
  simp only [Encoding.word, List.forall_mem_cons, BitVec.extractLsb'_eq_self, hw]
  simp

theorem sfenceVma (hop : bits.extractLsb' 0 7 = 0x73#7) (hrd : bits.extractLsb' 7 5 = 0#5)
    (h3 : bits.extractLsb' 12 3 = 0#3) (h7 : bits.extractLsb' 25 7 = 0x09#7) : Defined bits :=
  of_fields (e := .sfenceVma) (by decide)
    (by simp only [Encoding.sfenceVma, List.forall_mem_cons, hop, hrd, h3, h7]; simp) nofun

theorem fused (hop : bits.extractLsb' 0 7 = op) (hfmt : bits.extractLsb' 25 2 = fmt)
    (hr : roundingField bits = true)
    (h : Encoding.fused op.toNat fmt.toNat ∈ Encoding.scalar) : Defined bits :=
  of_fields h (by simp only [Encoding.fused, List.forall_mem_cons, hop, hfmt]; simp) fun _ ↦ hr

theorem rounded (hop : bits.extractLsb' 0 7 = 0x53#7) (hfmt : bits.extractLsb' 25 2 = fmt)
    (h5 : bits.extractLsb' 27 5 = f5) (hr : roundingField bits = true)
    (h : Encoding.rounded f5.toNat fmt.toNat ∈ Encoding.scalar) : Defined bits :=
  of_fields h (by simp only [Encoding.rounded, List.forall_mem_cons, hop, hfmt, h5]; simp)
    fun _ ↦ hr

theorem selected (hop : bits.extractLsb' 0 7 = 0x53#7) (hfmt : bits.extractLsb' 25 2 = fmt)
    (h5 : bits.extractLsb' 27 5 = f5) (h3 : bits.extractLsb' 12 3 = f3)
    (h : Encoding.selected f5.toNat fmt.toNat f3.toNat ∈ Encoding.scalar) : Defined bits :=
  of_fields h (by simp only [Encoding.selected, List.forall_mem_cons, hop, hfmt, h5, h3]; simp)
    nofun

theorem unaryRounded (hop : bits.extractLsb' 0 7 = 0x53#7) (hfmt : bits.extractLsb' 25 2 = fmt)
    (h5 : bits.extractLsb' 27 5 = f5) (h2 : bits.extractLsb' 20 5 = rs2)
    (hr : roundingField bits = true)
    (h : Encoding.unaryRounded f5.toNat fmt.toNat rs2.toNat ∈ Encoding.scalar) : Defined bits :=
  of_fields h (by simp only [Encoding.unaryRounded, List.forall_mem_cons, hop, hfmt, h5, h2]; simp)
    fun _ ↦ hr

theorem unarySelected (hop : bits.extractLsb' 0 7 = 0x53#7) (hfmt : bits.extractLsb' 25 2 = fmt)
    (h5 : bits.extractLsb' 27 5 = f5) (h2 : bits.extractLsb' 20 5 = rs2)
    (h3 : bits.extractLsb' 12 3 = f3)
    (h : Encoding.unarySelected f5.toNat fmt.toNat rs2.toNat f3.toNat ∈ Encoding.scalar) :
    Defined bits :=
  of_fields h
    (by simp only [Encoding.unarySelected, List.forall_mem_cons, hop, hfmt, h5, h2, h3]; simp) nofun

/-- The moves and FCLASS come in both formats. -/
theorem unarySelected_format (hop : bits.extractLsb' 0 7 = 0x53#7)
    (hfmt : bits.extractLsb' 25 2 = 0#2 ∨ bits.extractLsb' 25 2 = 1#2)
    (h5 : bits.extractLsb' 27 5 = f5) (h2 : bits.extractLsb' 20 5 = rs2)
    (h3 : bits.extractLsb' 12 3 = f3)
    (h : Encoding.unarySelected f5.toNat 0 rs2.toNat f3.toNat ∈ Encoding.scalar ∧
      Encoding.unarySelected f5.toNat 1 rs2.toNat f3.toNat ∈ Encoding.scalar) : Defined bits := by
  rcases hfmt with hfmt | hfmt
  · exact unarySelected hop hfmt h5 h2 h3 h.1
  · exact unarySelected hop hfmt h5 h2 h3 h.2

end Defined

/-! ## The integer opcodes -/

/-- A chain of tests that does not end in `none` stopped at one of them. -/
theorem of_ite_ne_none {α : Type} {p : Prop} [Decidable p] {a b : Option α} {Q : Prop}
    (h : (if p then a else b) ≠ none) (ha : p → a ≠ none → Q) (hb : ¬ p → b ≠ none → Q) : Q := by
  split at h
  · next hp => exact ha hp h
  · next hp => exact hb hp h

section Integer

variable {bits : BitVec 32}

theorem defined_of_opImm (hop : bits.extractLsb' 0 7 = 0x13#7) {source1 : BitVec 64}
    (h : opImmResult bits (bits.extractLsb' 12 3) source1 ≠ none) : Defined bits := by
  rw [opImmResult] at h
  refine of_ite_ne_none h (fun h3 _ ↦ .function3 hop h3 (by decide)) fun h0 h ↦ ?_
  refine of_ite_ne_none h (fun h3 _ ↦ .function3 hop h3 (by decide)) fun h2 h ↦ ?_
  refine of_ite_ne_none h (fun h3 _ ↦ .function3 hop h3 (by decide)) fun h3 h ↦ ?_
  refine of_ite_ne_none h (fun h3 _ ↦ .function3 hop h3 (by decide)) fun h4 h ↦ ?_
  refine of_ite_ne_none h (fun h3 _ ↦ .function3 hop h3 (by decide)) fun h6 h ↦ ?_
  refine of_ite_ne_none h (fun h3 _ ↦ .function3 hop h3 (by decide)) fun h7 h ↦ ?_
  refine of_ite_ne_none h (fun h3 h ↦ ?_) fun h1 h ↦ ?_
  · exact of_ite_ne_none h (fun _ h ↦ absurd rfl h)
      fun hupper _ ↦ .function6 hop (not_not.1 hupper) h3 (by decide)
  · have h5 : bits.extractLsb' 12 3 = 5#3 := by
      generalize bits.extractLsb' 12 3 = f3 at *
      bv_omega
    refine of_ite_ne_none h (fun hupper _ ↦ .function6 hop hupper h5 (by decide)) fun _ h ↦ ?_
    exact of_ite_ne_none h (fun hupper _ ↦ .function6 hop hupper h5 (by decide))
      fun _ h ↦ absurd rfl h

theorem defined_of_opImm32 (hop : bits.extractLsb' 0 7 = 0x1B#7) {source1 : BitVec 64}
    (h : opImm32Result bits (decode bits) source1 ≠ none) : Defined bits := by
  rw [opImm32Result, ne_eq, Option.map_eq_none_iff] at h
  refine of_ite_ne_none h (fun h3 _ ↦ .function3 hop h3 (by decide)) fun _ h ↦ ?_
  refine of_ite_ne_none h (fun h3 h ↦ ?_) fun _ h ↦ ?_
  · exact of_ite_ne_none h (fun _ h ↦ absurd rfl h)
      fun hupper _ ↦ .function7 hop (not_not.1 hupper) h3 (by decide)
  · refine of_ite_ne_none h (fun h3 h ↦ ?_) fun _ h ↦ absurd rfl h
    refine of_ite_ne_none h (fun hupper _ ↦ .function7 hop hupper h3 (by decide)) fun _ h ↦ ?_
    exact of_ite_ne_none h (fun hupper _ ↦ .function7 hop hupper h3 (by decide))
      fun _ h ↦ absurd rfl h

theorem defined_of_op (hop : bits.extractLsb' 0 7 = 0x33#7) {source1 source2 : BitVec 64}
    (h : opResult (decode bits) source1 source2 ≠ none) : Defined bits := by
  have hrow : ∀ f3 : Fin 8, Encoding.function7 0x33 0x00 f3 ∈ Encoding.scalar ∧
      Encoding.function7 0x33 0x01 f3 ∈ Encoding.scalar := by decide
  rw [opResult] at h
  refine of_ite_ne_none h
    (fun h7 _ ↦ .function7 hop h7 rfl (hrow (bits.extractLsb' 12 3).toFin).2) fun _ h ↦ ?_
  refine of_ite_ne_none h
    (fun h7 _ ↦ .function7 hop h7 rfl (hrow (bits.extractLsb' 12 3).toFin).1) fun _ h ↦ ?_
  refine of_ite_ne_none h (fun hsub _ ↦ .function7 hop hsub.1 hsub.2 (by decide)) fun _ h ↦ ?_
  exact of_ite_ne_none h (fun hsra _ ↦ .function7 hop hsra.1 hsra.2 (by decide))
    fun _ h ↦ absurd rfl h

theorem defined_of_op32 (hop : bits.extractLsb' 0 7 = 0x3B#7) {source1 source2 : BitVec 64}
    (h : op32Result (decode bits) source1 source2 ≠ none) : Defined bits := by
  rw [op32Result] at h
  refine of_ite_ne_none h (fun h7 h ↦ ?_) fun _ h ↦ ?_
  · rw [executeIntegerM, if_pos rfl, executeWord] at h
    refine of_ite_ne_none h (fun h3 _ ↦ .function7 hop h7 h3 (by decide)) fun _ h ↦ ?_
    refine of_ite_ne_none h (fun h3 _ ↦ .function7 hop h7 h3 (by decide)) fun _ h ↦ ?_
    refine of_ite_ne_none h (fun h3 _ ↦ .function7 hop h7 h3 (by decide)) fun _ h ↦ ?_
    refine of_ite_ne_none h (fun h3 _ ↦ .function7 hop h7 h3 (by decide)) fun _ h ↦ ?_
    exact of_ite_ne_none h (fun h3 _ ↦ .function7 hop h7 h3 (by decide)) fun _ h ↦ absurd rfl h
  · refine of_ite_ne_none h (fun hadd _ ↦ .function7 hop hadd.1 hadd.2 (by decide)) fun _ h ↦ ?_
    refine of_ite_ne_none h (fun hsub _ ↦ .function7 hop hsub.1 hsub.2 (by decide)) fun _ h ↦ ?_
    refine of_ite_ne_none h (fun hsll _ ↦ .function7 hop hsll.1 hsll.2 (by decide)) fun _ h ↦ ?_
    refine of_ite_ne_none h (fun hsrl _ ↦ .function7 hop hsrl.1 hsrl.2 (by decide)) fun _ h ↦ ?_
    exact of_ite_ne_none h (fun hsra _ ↦ .function7 hop hsra.1 hsra.2 (by decide))
      fun _ h ↦ absurd rfl h

theorem defined_of_branch (hop : bits.extractLsb' 0 7 = 0x63#7) {source1 source2 : BitVec 64}
    (h : branchTaken (bits.extractLsb' 12 3) source1 source2 ≠ none) : Defined bits := by
  have hrow : ∀ f3 ∈ [0#3, 1#3, 4#3, 5#3, 6#3, 7#3],
      Encoding.function3 0x63 f3.toNat ∈ Encoding.scalar := by
    simp only [List.forall_mem_cons]
    decide
  have hnone : ∀ f3 ∉ [0#3, 1#3, 4#3, 5#3, 6#3, 7#3], branchTaken f3 source1 source2 = none := by
    intro f3 hmem
    simp only [List.mem_cons, List.not_mem_nil, or_false, not_or] at hmem
    obtain ⟨h0, h1, h4, h5, h6, h7⟩ := hmem
    rw [branchTaken, if_neg h0, if_neg h1, if_neg h4, if_neg h5, if_neg h6, if_neg h7]
  exact .function3 hop rfl (hrow _ (Classical.not_not.1 fun hmem ↦ h (hnone _ hmem)))

theorem defined_of_load (hop : bits.extractLsb' 0 7 = 0x03#7)
    (h : loadFormat (bits.extractLsb' 12 3) ≠ none) : Defined bits := by
  have hrow : ∀ f3 : BitVec 3, loadFormat f3 ≠ none →
      Encoding.function3 0x03 f3.toNat ∈ Encoding.scalar := by decide
  exact .function3 hop rfl (hrow _ h)

theorem defined_of_store (hop : bits.extractLsb' 0 7 = 0x23#7)
    (h : storeWidth (bits.extractLsb' 12 3) ≠ none) : Defined bits := by
  have hrow : ∀ f3 : BitVec 3, storeWidth f3 ≠ none →
      Encoding.function3 0x23 f3.toNat ∈ Encoding.scalar := by decide
  exact .function3 hop rfl (hrow _ h)

theorem defined_of_atomic (hop : bits.extractLsb' 0 7 = 0x2F#7)
    (h3 : bits.extractLsb' 12 3 = 2#3 ∨ bits.extractLsb' 12 3 = 3#3)
    (h : decodeAtomicOperation (bits.extractLsb' 27 5) ≠ none) : Defined bits := by
  have hrow : ∀ f5 : BitVec 5, decodeAtomicOperation f5 ≠ none →
      Encoding.function5 f5.toNat 2 ∈ Encoding.scalar ∧
        Encoding.function5 f5.toNat 3 ∈ Encoding.scalar := by decide
  rcases h3 with h3 | h3
  · exact .function5 hop rfl h3 (hrow _ h).1
  · exact .function5 hop rfl h3 (hrow _ h).2

theorem defined_of_csr (hop : bits.extractLsb' 0 7 = 0x73#7)
    (h : csrOperation (bits.extractLsb' 12 3) ≠ none) : Defined bits := by
  have hrow : ∀ f3 : BitVec 3, csrOperation f3 ≠ none →
      Encoding.function3 0x73 f3.toNat ∈ Encoding.scalar := by decide
  exact .function3 hop rfl (hrow _ h)

end Integer

/-! ## The floating opcodes -/

section Floating

variable {bits : BitVec 32} {s : CpuState}

theorem roundingField_of_resolve {rounding : FloatingRoundingMode}
    (h : s.resolveRounding (decode bits) = some rounding) : roundingField bits = true := by
  have hmode : ∀ rm : BitVec 3, rm = 7#3 ∨ decodeRoundingMode rm ≠ none →
      (decide (rm.toNat ≤ 4) || rm.toNat == 7) = true := by decide
  refine hmode _ ?_
  rw [CpuState.resolveRounding, resolveFloatingRoundingMode] at h
  split at h
  · next h7 => exact Or.inl h7
  · exact Or.inr fun hnone ↦ by cases hnone.symm.trans h

theorem format_of_decode {fmt : BitVec 2} {format : FloatingFormat}
    (h : decodeFormat fmt = some format) : fmt = 0#2 ∨ fmt = 1#2 := by
  rw [decodeFormat] at h
  split_ifs at h with h0 h1
  · exact Or.inl h0
  · exact Or.inr h1

theorem defined_of_fused (hop : bits.extractLsb' 0 7 = 0x43#7 ∨ bits.extractLsb' 0 7 = 0x47#7 ∨
    bits.extractLsb' 0 7 = 0x4B#7 ∨ bits.extractLsb' 0 7 = 0x4F#7)
    (h : s.fusedCommit (decode bits) ≠ none) : Defined bits := by
  rw [CpuState.fusedCommit] at h
  split at h
  · next format rounding hf hr =>
    have hrm := roundingField_of_resolve hr
    have hrow : ∀ op ∈ [0x43#7, 0x47#7, 0x4B#7, 0x4F#7], ∀ fmt ∈ [0#2, 1#2],
        Encoding.fused op.toNat fmt.toNat ∈ Encoding.scalar := by
      simp only [List.forall_mem_cons, List.not_mem_nil, false_imp_iff, implies_true, and_true]
      decide
    have hfmt : bits.extractLsb' 25 2 = 0#2 ∨ bits.extractLsb' 25 2 = 1#2 := format_of_decode hf
    exact .fused rfl rfl hrm (hrow _ (by simpa using hop) _ (by simpa using hfmt))
  · exact absurd rfl h

section OpFp

variable {format : FloatingFormat} (hop : bits.extractLsb' 0 7 = 0x53#7)
  (hfmt : bits.extractLsb' 25 2 = 0#2 ∨ bits.extractLsb' 25 2 = 1#2)

include hop hfmt

theorem defined_of_arithmetic (h5 : bits.extractLsb' 27 5 ≤ 3#5)
    (h : s.arithmeticCommit (decode bits) format (bits.extractLsb' 27 5) ≠ none) :
    Defined bits := by
  have hrow : ∀ f5 : BitVec 5, f5 ≤ 3#5 → Encoding.rounded f5.toNat 0 ∈ Encoding.scalar ∧
      Encoding.rounded f5.toNat 1 ∈ Encoding.scalar := by decide
  obtain ⟨rounding, hr⟩ : ∃ rounding, s.resolveRounding (decode bits) = some rounding :=
    Option.ne_none_iff_exists'.1 fun hnone ↦ h (by rw [CpuState.arithmeticCommit, hnone]; rfl)
  have hrm := roundingField_of_resolve hr
  rcases hfmt with hfmt | hfmt
  · exact .rounded hop hfmt rfl hrm (hrow _ h5).1
  · exact .rounded hop hfmt rfl hrm (hrow _ h5).2

theorem defined_of_squareRoot (h5 : bits.extractLsb' 27 5 = 0x0B#5)
    (h : s.squareRootCommit (decode bits) format ≠ none) : Defined bits := by
  rw [CpuState.squareRootCommit] at h
  split at h
  · exact absurd rfl h
  · next h2 =>
    obtain ⟨rounding, hr⟩ : ∃ rounding, s.resolveRounding (decode bits) = some rounding :=
      Option.ne_none_iff_exists'.1 fun hnone ↦ h (by rw [hnone]; rfl)
    have hrm := roundingField_of_resolve hr
    rcases hfmt with hfmt | hfmt
    · exact .unaryRounded hop hfmt h5 (not_not.1 h2) hrm (by decide)
    · exact .unaryRounded hop hfmt h5 (not_not.1 h2) hrm (by decide)

theorem defined_of_selected {f5 : BitVec 5} (bound : ℕ) (h5 : bits.extractLsb' 27 5 = f5)
    (h3 : (bits.extractLsb' 12 3).toNat < bound)
    (hrow : ∀ f3 < bound, Encoding.selected f5.toNat 0 f3 ∈ Encoding.scalar ∧
      Encoding.selected f5.toNat 1 f3 ∈ Encoding.scalar) : Defined bits := by
  rcases hfmt with hfmt | hfmt
  · exact .selected hop hfmt h5 rfl (hrow _ h3).1
  · exact .selected hop hfmt h5 rfl (hrow _ h3).2

theorem defined_of_integer {f5 : BitVec 5} {integer : IntegerWidth × Bool}
    {rounding : FloatingRoundingMode} (h5 : bits.extractLsb' 27 5 = f5)
    (h2 : CpuState.integerFormat (decode bits).source2 = some integer)
    (hr : s.resolveRounding (decode bits) = some rounding)
    (hrow : ∀ rs2 < 4, Encoding.unaryRounded f5.toNat 0 rs2 ∈ Encoding.scalar ∧
      Encoding.unaryRounded f5.toNat 1 rs2 ∈ Encoding.scalar) : Defined bits := by
  have hrm := roundingField_of_resolve hr
  have hrs2 : (bits.extractLsb' 20 5).toNat < 4 := by
    rw [CpuState.integerFormat] at h2
    split at h2
    · cases h2
    · next hle =>
      rw [gt_iff_lt, BitVec.lt_def, Nat.not_lt] at hle
      exact Nat.lt_succ_of_le hle
  rcases hfmt with hfmt | hfmt
  · exact .unaryRounded hop hfmt h5 rfl hrm (hrow _ hrs2).1
  · exact .unaryRounded hop hfmt h5 rfl hrm (hrow _ hrs2).2

end OpFp

theorem function5_eq (bits : BitVec 32) :
    (bits.extractLsb' 25 7).extractLsb' 2 5 = bits.extractLsb' 27 5 ∧
      (bits.extractLsb' 25 7).extractLsb' 0 2 = bits.extractLsb' 25 2 := by
  constructor
  · ext i hi
    simp only [BitVec.getElem_extractLsb', BitVec.getLsbD_extractLsb']
    rw [decide_eq_true (show 2 + i < 7 by omega), Bool.true_and, ← Nat.add_assoc]
  · ext i hi
    simp only [BitVec.getElem_extractLsb', BitVec.getLsbD_extractLsb']
    rw [decide_eq_true (show 0 + i < 7 by omega), Bool.true_and, Nat.zero_add]

theorem function7_split {f7 : BitVec 7} (h : bits.extractLsb' 25 7 = f7) :
    bits.extractLsb' 25 2 = f7.extractLsb' 0 2 ∧ bits.extractLsb' 27 5 = f7.extractLsb' 2 5 := by
  rw [← h, (function5_eq bits).1, (function5_eq bits).2]
  exact ⟨rfl, rfl⟩

theorem defined_of_convertFormat (hop : bits.extractLsb' 0 7 = 0x53#7)
    (h : s.convertFormatCommit (decode bits) ≠ none) : Defined bits := by
  rw [CpuState.convertFormatCommit] at h
  split at h
  · next hsource =>
    obtain ⟨rounding, hr⟩ : ∃ rounding, s.resolveRounding (decode bits) = some rounding :=
      Option.ne_none_iff_exists'.1 fun hnone ↦ h (by rw [hnone]; rfl)
    have hrm := roundingField_of_resolve hr
    rcases hsource with ⟨h7, h2⟩ | ⟨h7, h2⟩
    · obtain ⟨hfmt, h5⟩ := function7_split h7
      exact .unaryRounded hop hfmt h5 h2 hrm (by decide)
    · obtain ⟨hfmt, h5⟩ := function7_split h7
      exact .unaryRounded hop hfmt h5 h2 hrm (by decide)
  · exact absurd rfl h

theorem defined_of_opFp (hop : bits.extractLsb' 0 7 = 0x53#7)
    (h : s.opFpCommit (decode bits) ≠ none) : Defined bits := by
  rw [CpuState.opFpCommit, show (decode bits).function7.extractLsb' 2 5 = bits.extractLsb' 27 5 from
    (function5_eq bits).1, show (decode bits).function7.extractLsb' 0 2 = bits.extractLsb' 25 2 from
    (function5_eq bits).2] at h
  split at h
  · exact defined_of_convertFormat hop h
  · next format hf =>
    have hfmt := format_of_decode hf
    refine of_ite_ne_none h (fun h5 h ↦ defined_of_arithmetic hop hfmt h5 h) fun _ h ↦ ?_
    refine of_ite_ne_none h (fun h5 h ↦ defined_of_squareRoot hop hfmt h5 h) fun _ h ↦ ?_
    refine of_ite_ne_none h (fun h5 h ↦ ?_) fun _ h ↦ ?_
    · refine of_ite_ne_none h (fun _ h ↦ absurd rfl h) fun h3 _ ↦ ?_
      exact defined_of_selected hop hfmt 3 h5 (Nat.lt_succ_of_le (Nat.not_lt.1 h3))
        (by decide)
    refine of_ite_ne_none h (fun h5 h ↦ ?_) fun _ h ↦ ?_
    · refine of_ite_ne_none h (fun _ h ↦ absurd rfl h) fun h3 _ ↦ ?_
      exact defined_of_selected hop hfmt 2 h5 (Nat.lt_succ_of_le (Nat.not_lt.1 h3))
        (by decide)
    refine of_ite_ne_none h (fun h5 h ↦ ?_) fun _ h ↦ ?_
    · have h3 : ∀ f3 : BitVec 3, CpuState.decodeComparison f3 ≠ none → f3.toNat < 3 := by decide
      refine defined_of_selected hop hfmt 3 h5 (h3 _ fun hnone ↦ h ?_) (by decide)
      rw [CpuState.compareCommit, show (decode bits).function3 = bits.extractLsb' 12 3 from rfl,
        hnone]
      rfl
    refine of_ite_ne_none h (fun h5 h ↦ ?_) fun _ h ↦ ?_
    · rw [CpuState.toIntegerCommit] at h
      split at h
      · next h2 hr => exact defined_of_integer hop hfmt h5 h2 hr (by decide)
      · exact absurd rfl h
    refine of_ite_ne_none h (fun h5 h ↦ ?_) fun _ h ↦ ?_
    · rw [CpuState.fromIntegerCommit] at h
      split at h
      · next h2 hr => exact defined_of_integer hop hfmt h5 h2 hr (by decide)
      · exact absurd rfl h
    refine of_ite_ne_none h (fun h5 h ↦ ?_) fun _ h ↦ ?_
    · refine of_ite_ne_none h
        (fun h3 _ ↦ .unarySelected_format hop hfmt h5.1 h5.2 h3 (by decide)) fun _ h ↦ ?_
      exact of_ite_ne_none h
        (fun h3 _ ↦ .unarySelected_format hop hfmt h5.1 h5.2 h3 (by decide))
        fun _ h ↦ absurd rfl h
    exact of_ite_ne_none h
      (fun h5 _ ↦ .unarySelected_format hop hfmt h5.1 h5.2.1 h5.2.2 (by decide))
      fun _ h ↦ defined_of_convertFormat hop h

end Floating

/-! ## Dispatch -/

/-- SFENCE.VMA as the hart recognises it. -/
def FencesAddresses (bits : BitVec 32) : Prop := bits &&& 0xFE00707F#32 = 0x12000073#32

/-- SFENCE.VMA may be executed. -/
def CpuState.fenceAllowed (s : CpuState) : Bool :=
  !(s.privilege == .user ||
    (s.privilege == .supervisor && (s.csrs.readValue .mstatus &&& (1#64 <<< 20)) != 0#64))

theorem fields_of_fences {bits : BitVec 32} (h : FencesAddresses bits) :
    bits.extractLsb' 0 7 = 0x73#7 ∧ bits.extractLsb' 12 3 = 0#3 ∧
      bits.extractLsb' 25 7 = 0x09#7 := by
  have hfield : ∀ start width, (0xFE00707F#32).extractLsb' start width = BitVec.allOnes width →
      bits.extractLsb' start width = (0x12000073#32).extractLsb' start width := by
    intro start width hmask
    rw [← h, BitVec.extractLsb'_and, hmask, BitVec.and_allOnes]
  exact ⟨hfield 0 7 rfl, hfield 12 3 rfl, hfield 25 7 rfl⟩

/-- The outcome of a word that is no instruction. -/
def Rejects (packet : InstructionPacket) (c : Cpu) (r : StepResult × Cpu) : Prop :=
  Defined packet.bits ∨ r = c.illegal packet

namespace Rejects

variable {packet : InstructionPacket} {c : Cpu}

theorem ite {p : Prop} [Decidable p] {r r' : StepResult × Cpu} (h : p → Rejects packet c r)
    (h' : Rejects packet c r') : Rejects packet c (if p then r else r') := by
  split
  · next hp => exact h hp
  · exact h'

theorem executeComputed {o : Option (BitVec 64)} (h : o ≠ none → Defined packet.bits)
    (destination : BitVec 5) (sequentialPc : BitVec 64) :
    Rejects packet c (c.executeComputed packet destination sequentialPc o) := by
  cases o with
  | none => exact Or.inr rfl
  | some a => exact Or.inl (h nofun)

theorem commit {o : Option CpuState} (h : o ≠ none → Defined packet.bits)
    (sequentialPc : BitVec 64) : Rejects packet c (c.commit packet sequentialPc o) := by
  cases o with
  | none => exact Or.inr rfl
  | some a => exact Or.inl (h nofun)

theorem executeBranch (hop : packet.bits.extractLsb' 0 7 = 0x63#7)
    (source1 source2 sequentialPc : BitVec 64) :
    Rejects packet c
      (c.executeBranch packet (decode packet.bits) source1 source2 sequentialPc) := by
  cases h : branchTaken (decode packet.bits).function3 source1 source2 with
  | none => exact Or.inr (by rw [Cpu.executeBranch, h])
  | some taken => exact Or.inl (defined_of_branch hop fun hnone ↦ by cases hnone.symm.trans h)

theorem executeLoad (hop : packet.bits.extractLsb' 0 7 = 0x03#7)
    (source1 sequentialPc : BitVec 64) :
    Rejects packet c (c.executeLoad packet (decode packet.bits) source1 sequentialPc) := by
  cases h : loadFormat (decode packet.bits).function3 with
  | none => exact Or.inr (by rw [Cpu.executeLoad, h])
  | some format => exact Or.inl (defined_of_load hop fun hnone ↦ by cases hnone.symm.trans h)

theorem executeStore (hop : packet.bits.extractLsb' 0 7 = 0x23#7)
    (source1 source2 sequentialPc : BitVec 64) :
    Rejects packet c (c.executeStore packet (decode packet.bits) source1 source2 sequentialPc) := by
  cases h : storeWidth (decode packet.bits).function3 with
  | none => exact Or.inr (by rw [Cpu.executeStore, h])
  | some width => exact Or.inl (defined_of_store hop fun hnone ↦ by cases hnone.symm.trans h)

theorem executeAtomic (hop : packet.bits.extractLsb' 0 7 = 0x2F#7)
    (source1 source2 sequentialPc : BitVec 64) :
    Rejects packet c
      (c.executeAtomic packet (decode packet.bits) source1 source2 sequentialPc) := by
  have hwidth : ∀ f3 : BitVec 3, ¬ (!(f3 == 2#3) && f3 != 3#3) = true → f3 = 2#3 ∨ f3 = 3#3 := by
    decide
  rw [Cpu.executeAtomic]
  split
  · exact Or.inr rfl
  · next h3 =>
    replace h3 := hwidth _ h3
    refine ite (fun h5 ↦ ?_) (ite (fun h5 ↦ ?_) ?_)
    · rw [Cpu.executeLoadReserved]
      split
      · exact Or.inr rfl
      · next h2 =>
        refine Or.inl ?_
        rcases h3 with h3 | h3
        · exact .loadReserved hop h5 (not_not.1 h2) h3 (by decide)
        · exact .loadReserved hop h5 (not_not.1 h2) h3 (by decide)
    · refine Or.inl ?_
      rcases h3 with h3 | h3
      · exact .function5 hop h5 h3 (by decide)
      · exact .function5 hop h5 h3 (by decide)
    · cases h : decodeAtomicOperation (packet.bits.extractLsb' 27 5) with
      | none => exact Or.inr rfl
      | some operation =>
        exact Or.inl (defined_of_atomic hop h3 fun hnone ↦ by cases hnone.symm.trans h)

theorem executeFloating {instruction : DecodedInstruction} (hi : instruction = decode packet.bits)
    (sequentialPc : BitVec 64) :
    Rejects packet c (c.executeFloating packet instruction sequentialPc) := by
  subst hi
  have haccess : ∀ op f3, (op = 0x07#7 ∨ op = 0x27#7) → Cpu.floatingAccess f3 ≠ none →
      Encoding.function3 op.toNat f3.toNat ∈ Encoding.scalar := by
    rintro op f3 (rfl | rfl) <;> revert f3 <;> decide
  rw [Cpu.executeFloating]
  refine ite (fun _ ↦ Or.inr rfl) ?_
  refine ite (fun hop ↦ ?_) ?_
  · cases h : Cpu.floatingAccess (decode packet.bits).function3 with
    | none => exact Or.inr (by rw [Cpu.executeFloatingLoad, h])
    | some access =>
      exact Or.inl (.function3 hop rfl (haccess _ _ (Or.inl rfl) fun hnone ↦
        by cases hnone.symm.trans h))
  refine ite (fun hop ↦ ?_) ?_
  · cases h : Cpu.floatingAccess (decode packet.bits).function3 with
    | none => exact Or.inr (by rw [Cpu.executeFloatingStore, h])
    | some access =>
      exact Or.inl (.function3 hop rfl (haccess _ _ (Or.inr rfl) fun hnone ↦
        by cases hnone.symm.trans h))
  refine ite (fun hop ↦ commit (defined_of_fused hop) _) ?_
  split
  · exact Or.inr rfl
  · next hop => exact commit (defined_of_opFp (not_not.1 hop)) _

theorem executeLoadStoreFp (hvector : ¬ VectorEncoding packet.bits)
    (hop : packet.bits.extractLsb' 0 7 = 0x07#7 ∨ packet.bits.extractLsb' 0 7 = 0x27#7)
    (sequentialPc : BitVec 64) :
    Rejects packet c (c.executeLoadStoreFp packet (decode packet.bits) sequentialPc) := by
  have hnone : decodeElementWidth (packet.bits.extractLsb' 12 3) = none := by
    have hwidth : ∀ f3 : BitVec 3, ¬ (f3 = 0#3 ∨ f3 = 5#3 ∨ f3 = 6#3 ∨ f3 = 7#3) →
        decodeElementWidth f3 = none := by decide
    exact hwidth _ fun h ↦ hvector (Or.inr ⟨hop, h⟩)
  rw [Cpu.executeLoadStoreFp, decodeVectorMemoryOperation, hnone]
  exact executeFloating rfl _

/-- All that is left open is an SFENCE.VMA that may be executed and has a destination. -/
theorem executePrivileged (hop : packet.bits.extractLsb' 0 7 = 0x73#7)
    (h3 : packet.bits.extractLsb' 12 3 = 0#3)
    (hfence : FencesAddresses packet.bits → packet.bits.extractLsb' 7 5 = 0#5 ∨
      c.state.fenceAllowed = false) (source1 sequentialPc : BitVec 64) :
    Rejects packet c (c.executePrivileged packet (decode packet.bits) source1 sequentialPc) := by
  rw [Cpu.executePrivileged]
  refine ite (fun hf ↦ ?_) ?_
  · rcases hfence hf with hrd | hallowed
    · exact Or.inl (.sfenceVma hop hrd h3 (fields_of_fences hf).2.2)
    · refine Or.inr ?_
      rw [CpuState.fenceAllowed, Bool.not_eq_false'] at hallowed
      rw [Cpu.executeSfenceVma, if_pos hallowed]
  refine ite (fun hw ↦ Or.inl (.word hw (by decide))) ?_
  refine ite (fun hw ↦ Or.inl (.word hw (by decide))) ?_
  refine ite (fun hw ↦ Or.inl (.word hw (by decide))) ?_
  refine ite (fun hw ↦ Or.inl (.word hw (by decide))) ?_
  exact ite (fun hw ↦ Or.inl (.word hw (by decide))) (Or.inr rfl)

theorem executeSystem (hop : packet.bits.extractLsb' 0 7 = 0x73#7)
    (hfence : FencesAddresses packet.bits → packet.bits.extractLsb' 7 5 = 0#5 ∨
      c.state.fenceAllowed = false) (source1 sequentialPc : BitVec 64) :
    Rejects packet c (c.executeSystem packet (decode packet.bits) source1 sequentialPc) := by
  rw [Cpu.executeSystem]
  refine ite (fun h3 ↦ executePrivileged hop h3 hfence _ _) ?_
  cases h : csrOperation (decode packet.bits).function3 with
  | none => exact Or.inr rfl
  | some operation => exact Or.inl (defined_of_csr hop fun hnone ↦ by cases hnone.symm.trans h)

theorem executeStandard (hvector : ¬ VectorEncoding packet.bits)
    (hfence : FencesAddresses packet.bits → packet.bits.extractLsb' 7 5 = 0#5 ∨
      c.state.fenceAllowed = false) : Rejects packet c (c.executeStandard packet) := by
  rw [Cpu.executeStandard]
  refine ite (fun hop ↦ absurd (Or.inl hop) hvector) ?_
  refine ite (fun hop ↦ Or.inl (.opcode hop (by decide))) ?_
  refine ite (fun hop ↦ Or.inl (.opcode hop (by decide))) ?_
  refine ite (fun hop ↦ Or.inl (.opcode hop (by decide))) ?_
  refine ite (fun hop ↦ ?_) ?_
  · rw [Cpu.executeJalr]
    split
    · exact Or.inr rfl
    · next h3 => exact Or.inl (.function3 hop (not_not.1 h3) (by decide))
  refine ite (fun hop ↦ executeBranch hop _ _ _) ?_
  refine ite (fun hop ↦ executeLoad hop _ _) ?_
  refine ite (fun hop ↦ executeStore hop _ _ _) ?_
  refine ite (fun hop ↦ executeComputed (defined_of_opImm hop) _ _) ?_
  refine ite (fun hop ↦ executeComputed (defined_of_opImm32 hop) _ _) ?_
  refine ite (fun hop ↦ executeComputed (defined_of_op hop) _ _) ?_
  refine ite (fun hop ↦ executeComputed (defined_of_op32 hop) _ _) ?_
  refine ite (fun hop ↦ executeAtomic hop _ _ _) ?_
  refine ite (fun hop ↦ executeLoadStoreFp hvector hop _) ?_
  refine ite (fun _ ↦ executeFloating rfl _) ?_
  refine ite (fun hop ↦ ite (fun h3 ↦ Or.inl ?_) (Or.inr rfl)) ?_
  · rcases h3 with h3 | h3
    · exact .function3 hop h3 (by decide)
    · exact .function3 hop h3 (by decide)
  exact ite (fun hop ↦ executeSystem hop hfence _ _) (Or.inr rfl)

end Rejects

/-! ## An SFENCE.VMA with a destination -/

/-- No row describes it. -/
theorem not_defined_of_fences {bits : BitVec 32} (hf : FencesAddresses bits)
    (hrd : bits.extractLsb' 7 5 ≠ 0#5) : ¬ Defined bits := by
  have hrow : ∀ e ∈ Encoding.scalar, ∃ f ∈ e.fields,
      (f.start = 0 ∧ f.width = 7 ∧ f.value ≠ 0x73) ∨ (f.start = 12 ∧ f.width = 3 ∧ f.value ≠ 0) ∨
        (f.start = 0 ∧ f.width = 32 ∧ f.value / 2 ^ 25 ≠ 0x09) ∨ f = ⟨7, 5, 0⟩ := by decide +kernel
  obtain ⟨hop, h3, h7⟩ := fields_of_fences hf
  rintro ⟨e, he, hdescribes⟩
  obtain ⟨⟨start, width, value⟩, hmem, hcases⟩ := hrow e he
  rw [Encoding.describes, Bool.and_eq_true, List.all_eq_true] at hdescribes
  have hholds := beq_iff_eq.1 (hdescribes.1 _ hmem)
  dsimp only at hcases hholds
  rcases hcases with ⟨rfl, rfl, hne⟩ | ⟨rfl, rfl, hne⟩ | ⟨rfl, rfl, hne⟩ | heq
  · rw [hop] at hholds
    exact hne hholds.symm
  · rw [h3] at hholds
    exact hne hholds.symm
  · have h7' := congrArg BitVec.toNat h7
    have hlt := bits.isLt
    rw [BitVec.extractLsb'_toNat, Nat.shiftRight_eq_div_pow] at h7'
    rw [BitVec.extractLsb'_eq_self] at hholds
    rw [← hholds] at hne
    refine hne (Eq.trans (Nat.mod_eq_of_lt ?_).symm h7')
    omega
  · cases heq
    exact hrd (BitVec.eq_of_toNat_eq hholds)

/-! ## Steps -/

/-- The step ends in an illegal instruction. -/
def StepResult.RaisesIllegal (r : StepResult) : Prop :=
  ∃ trap, r.trap = some trap ∧ trap.cause = .illegalInstruction

theorem not_raisesIllegal_of_fences {c : Cpu} {packet : InstructionPacket}
    (hf : FencesAddresses packet.bits) (hallowed : c.state.fenceAllowed = true) :
    ¬ (c.executeStandard packet).1.RaisesIllegal := by
  obtain ⟨hop, h3, -⟩ := fields_of_fences hf
  rw [CpuState.fenceAllowed, Bool.not_eq_true', Bool.eq_false_iff] at hallowed
  rw [FencesAddresses] at hf
  rw [Cpu.executeStandard, show (decode packet.bits).opcode = 0x73#7 from hop]
  simp only [BitVec.reduceEq, if_false, if_true, or_false]
  rw [Cpu.executeSystem, if_pos (show (decode packet.bits).function3 = 0#3 from h3),
    Cpu.executePrivileged, if_pos hf, Cpu.executeSfenceVma, if_neg hallowed]
  rintro ⟨trap, htrap, -⟩
  cases htrap

/-- **The scalar decoder is strict up to one field.**  A word outside the vector encodings that does
not end in an illegal instruction is a row of the table, unless it is an SFENCE.VMA that names a
destination and is executed where the instruction is allowed. -/
theorem scalar_decoder_strict_iff {c f : Cpu} {packet : InstructionPacket}
    (h : Fetches c packet f) (hlength : packet.length = 4)
    (hvector : ¬ VectorEncoding packet.bits) :
    (¬ c.step.1.RaisesIllegal → Defined packet.bits) ↔
      ¬ (FencesAddresses packet.bits ∧ packet.bits.extractLsb' 7 5 ≠ 0#5 ∧
        c.state.fenceAllowed = true) := by
  have hallowed : f.state.fenceAllowed = c.state.fenceAllowed := by
    rw [h.state]
    rfl
  have hstep : c.step.1 = (f.executeStandard packet).1 := by
    rw [h.step_eq, Cpu.execute, InstructionPacket.compressed, hlength, if_neg (by decide)]
  rw [hstep]
  constructor
  · rintro hstrict ⟨hf, hrd, ha⟩
    exact not_defined_of_fences hf hrd
      (hstrict (not_raisesIllegal_of_fences hf (hallowed.trans ha)))
  · intro hcondition hlegal
    have hfence : FencesAddresses packet.bits → packet.bits.extractLsb' 7 5 = 0#5 ∨
        f.state.fenceAllowed = false := by
      intro hf
      rw [or_iff_not_imp_left, hallowed, ← Bool.not_eq_true]
      exact fun hrd ha ↦ hcondition ⟨hf, hrd, ha⟩
    rcases Rejects.executeStandard hvector hfence with hdefined | hillegal
    · exact hdefined
    · exact absurd ⟨illegalTrap packet, by rw [hillegal]; rfl, rfl⟩ hlegal

theorem length_instructionBytes (instruction : BitVec 32) :
    ((List.range 4).map (Bytes.splitByte (instruction.setWidth 64))).length = (4#64).toNat := by
  simp

/-- A hart in machine mode, with FS on, in front of one instruction. -/
def wordCpu (instruction : BitVec 32) : Cpu where
  bus :=
    { regions :=
        [.ram
          { range := { base := 0#64, size := 4#64, size_pos := AddressRange.pos_four
                       fits := AddressRange.fits_four }
            bytes := (List.range 4).map (Bytes.splitByte (instruction.setWidth 64))
            size_eq := length_instructionBytes instruction }]
      apart := by simp }
  state := { csrs := { mstatus := 0x6000#64 } }

theorem not_raisesIllegal_addi : ¬ (wordCpu 0x00100093#32).step.1.RaisesIllegal := by
  rintro ⟨trap, htrap, -⟩
  have hnone : (wordCpu 0x00100093#32).step.1.trap = none := by decide
  rw [hnone] at htrap
  cases htrap

theorem scalar_decoder_strict_addi :
    ¬ (wordCpu 0x00100093#32).step.1.RaisesIllegal ∧ Defined 0x00100093#32 := by
  have hfetch : Fetches (wordCpu 0x00100093#32)
      { programCounter := 0#64, bits := 0x00100093#32, length := 4 }
      (wordCpu 0x00100093#32).awake.fetch.2 := ⟨rfl, Prod.ext (by decide) rfl⟩
  have hstrict := (scalar_decoder_strict_iff hfetch rfl (by rw [VectorEncoding]; decide)).2
    fun h ↦ absurd h.1 (by rw [FencesAddresses]; decide)
  exact ⟨not_raisesIllegal_addi, hstrict not_raisesIllegal_addi⟩

/-- `sfence.vma` with `x1` in the destination field. -/
theorem sfence_destination_accepted :
    (wordCpu 0x120000F3#32).state.csrs.floatingStateEnabled = true ∧
      ∃ packet f, Fetches (wordCpu 0x120000F3#32) packet f ∧ packet.length = 4 ∧
        ¬ VectorEncoding packet.bits ∧ ¬ (wordCpu 0x120000F3#32).step.1.RaisesIllegal ∧
        ¬ Defined packet.bits := by
  refine ⟨by decide, { programCounter := 0#64, bits := 0x120000F3#32, length := 4 }, _,
    ⟨rfl, Prod.ext (by decide) rfl⟩, rfl, by rw [VectorEncoding]; decide, ?_, ?_⟩
  · rintro ⟨trap, htrap, -⟩
    have hnone : (wordCpu 0x120000F3#32).step.1.trap = none := by decide
    rw [hnone] at htrap
    cases htrap
  · exact not_defined_of_fences (by rw [FencesAddresses]; decide) (by decide)

end Rvemu
