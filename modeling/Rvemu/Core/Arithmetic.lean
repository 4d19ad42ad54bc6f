import Rvemu.Core.ExecuteInteger
import Rvemu.Isa.Rv64i
import Rvemu.Lib.Fields
import Mathlib.Algebra.Group.Int.Defs

/-!
# Sign bits

The implementation extends, compares and shifts signed numbers with unsigned operations on their
sign bit.  Each of these tricks is shown to be the operation of two's-complement numbers it stands
for.
-/

set_option autoImplicit false

namespace Rvemu

theorem signBit_eq (w : ℕ) (k : ℕ) : 1#w <<< k = BitVec.twoPow w k := rfl

/-- Flipping the sign bit shifts the signed range to the unsigned one. -/
theorem toNat_xor_signBit {w : ℕ} (hw : 0 < w) (x : BitVec w) :
    ((x ^^^ BitVec.twoPow w (w - 1)).toNat : Int) = x.toInt + 2 ^ (w - 1) := by
  obtain ⟨k, rfl⟩ : ∃ k, w = k + 1 := ⟨w - 1, by omega⟩
  rw [Nat.add_sub_cancel]
  have hlt := x.isLt
  have hpow : 2 ^ (k + 1) = 2 * 2 ^ k := Nat.pow_succ'
  have htwo : (BitVec.twoPow (k + 1) k).toNat = 2 ^ k := BitVec.toNat_twoPow_of_lt (by omega)
  have hmsb : x.getLsbD k = decide (2 ^ k ≤ x.toNat) := by
    have h := BitVec.msb_eq_decide x
    rw [BitVec.msb_eq_getLsbD_last, Nat.add_sub_cancel] at h
    exact h
  rw [Bits.xor_twoPow x (by omega), BitVec.toInt_eq_toNat_cond, hmsb]
  by_cases h : 2 ^ k ≤ x.toNat
  · rw [decide_eq_true h, if_pos rfl, if_neg (by omega), BitVec.toNat_sub, htwo]
    rw [show 2 ^ (k + 1) - 2 ^ k + x.toNat = x.toNat - 2 ^ k + 2 ^ (k + 1) by omega,
      Nat.add_mod_right, Nat.mod_eq_of_lt (by omega)]
    push_cast [h]
    rw [Int.pow_succ]
    omega
  · rw [decide_eq_false h, if_neg (by decide), if_pos (by omega), BitVec.toNat_add, htwo,
      Nat.mod_eq_of_lt (by omega)]
    push_cast
    rfl

theorem signedLess_eq {w : ℕ} (hw : 0 < w) (x y : BitVec w) :
    signedLess x y = decide (x.toInt < y.toInt) := by
  have hx := toNat_xor_signBit hw x
  have hy := toNat_xor_signBit hw y
  rw [signedLess, decide_eq_decide, signBit_eq, BitVec.lt_def]
  omega

theorem signExtend_eq (value : BitVec 64) {n : ℕ} (hn : 0 < n) (hn' : n ≤ 64) :
    signExtend value n = (value.setWidth n).signExtend 64 := by
  rcases Nat.lt_or_eq_of_le hn' with hlt | rfl
  · have hnarrow : value &&& ((1#64 <<< n) - 1#64) = (value.setWidth n).setWidth 64 := by
      refine BitVec.eq_of_toNat_eq ?_
      rw [Bits.toNat_and_mask _ hlt, BitVec.toNat_setWidth, BitVec.toNat_setWidth]
      refine (Nat.mod_eq_of_lt ?_).symm
      exact Nat.lt_of_lt_of_le (Nat.mod_lt _ (Nat.two_pow_pos n))
        (Nat.pow_le_pow_right (by decide) hn')
    rw [signExtend, if_neg (by omega)]
    dsimp only
    rw [hnarrow, signBit_eq]
    generalize value.setWidth n = x
    have hbit : (x.setWidth 64).getLsbD (n - 1) = x.msb := by
      rw [BitVec.getLsbD_setWidth, decide_eq_true (show n - 1 < 64 by omega), Bool.true_and,
        BitVec.msb_eq_getLsbD_last]
    have hx := x.isLt
    have hpow : 2 ^ n = 2 * 2 ^ (n - 1) := by
      rw [← Nat.pow_succ', Nat.succ_eq_add_one, Nat.sub_add_cancel hn]
    have hle : 2 ^ n ≤ 2 ^ 63 := Nat.pow_le_pow_right (by decide) (by omega)
    have htwo : (BitVec.twoPow 64 (n - 1)).toNat = 2 ^ (n - 1) := by
      rw [BitVec.toNat_twoPow]
      exact Nat.mod_eq_of_lt (Nat.pow_lt_pow_right (by decide) (by omega))
    rw [Bits.xor_twoPow _ (by omega), hbit]
    refine BitVec.eq_of_toNat_eq ?_
    rw [BitVec.toNat_signExtend]
    cases x.msb with
    | false =>
      simp only [Bool.false_eq_true, if_false, BitVec.add_sub_cancel, Nat.add_zero]
    | true =>
      simp only [if_true]
      rw [BitVec.toNat_sub, BitVec.toNat_sub, htwo, BitVec.toNat_setWidth,
        Nat.mod_eq_of_lt (show x.toNat < 2 ^ 64 by omega)]
      omega
  · rw [signExtend, if_pos (Or.inr (Nat.le_refl _)), BitVec.setWidth_eq, BitVec.signExtend_eq]

/-- The bits that an arithmetic shift fills in. -/
theorem sshiftRight_eq_fill {w : ℕ} (value : BitVec w) {n : ℕ} (hn : n ≤ w) :
    value.sshiftRight n =
      if value.msb then (value >>> n) ||| (BitVec.allOnes w <<< (w - n)) else value >>> n := by
  ext i hi
  rw [BitVec.getElem_sshiftRight]
  cases value.msb with
  | false =>
    simp only [Bool.false_eq_true, if_false, BitVec.getElem_ushiftRight]
    split
    · next h => exact BitVec.getLsbD_eq_getElem h
    · next h => exact (BitVec.getLsbD_of_ge _ _ (by omega)).symm
  | true =>
    simp only [if_true, BitVec.getElem_or, BitVec.getElem_ushiftRight, BitVec.getElem_shiftLeft,
      BitVec.getElem_allOnes]
    split
    · next h =>
      rw [BitVec.getLsbD_eq_getElem h]
      simp [show i < w - n by omega]
    · next h => simp [show ¬ i < w - n by omega]

theorem signBit_and {w : ℕ} (value : BitVec (w + 1)) :
    ((value &&& (1#(w + 1) <<< w)) != 0#(w + 1)) = value.msb := by
  rw [signBit_eq, BitVec.and_twoPow, BitVec.msb_eq_getLsbD_last, Nat.add_sub_cancel]
  cases value.getLsbD w with
  | false => rfl
  | true =>
    rw [if_pos rfl, bne_iff_ne]
    intro hzero
    have hbit := congrArg (·.getLsbD w) hzero
    simp at hbit

theorem arithmeticShiftRight64_eq (value : BitVec 64) {n : ℕ} (hn : n < 64) :
    arithmeticShiftRight64 value n = value.sshiftRight n := by
  rw [arithmeticShiftRight64]
  split
  · next hzero => rw [hzero, BitVec.sshiftRight_zero]
  · rw [signBit_and, sshiftRight_eq_fill value (Nat.le_of_lt hn)]

theorem arithmeticShiftRight32_eq (value : BitVec 32) {n : ℕ} (hn : n < 32) :
    arithmeticShiftRight32 value n = value.sshiftRight n := by
  rw [arithmeticShiftRight32]
  split
  · next hzero => rw [hzero, BitVec.sshiftRight_zero]
  · rw [signBit_and, sshiftRight_eq_fill value (Nat.le_of_lt hn)]

theorem signExtendWord_eq (value : BitVec 32) :
    signExtendWord (value.setWidth 64) = value.signExtend 64 := by
  have hlow : (value.setWidth 64 &&& 0xFFFFFFFF#64).setWidth 32 = value := by
    rw [BitVec.setWidth_and, BitVec.setWidth_setWidth_of_le _ (by decide), BitVec.setWidth_eq]
    exact BitVec.and_allOnes
  rw [signExtendWord, signExtend_eq _ (by decide) (by decide), hlow]

/-! ## Immediates -/

section Immediates

variable (bits : BitVec 32)

theorem field_eq {shift n : ℕ} {mask : BitVec 32} (hmask : mask.toNat = 2 ^ n - 1) :
    field bits shift mask = (bits.extractLsb' shift n).setWidth 64 :=
  Fields.setWidth_and_mask 64 bits shift hmask

theorem immediateI_eq : immediateI bits = Isa.immediateI bits := by
  rw [immediateI, signExtend_eq _ (by decide) (by decide), Isa.immediateI,
    BitVec.setWidth_setWidth_of_le _ (by decide)]
  rfl

theorem immediateU_eq : immediateU bits = Isa.immediateU bits := by
  have hmask : ∀ i : Fin 32, (0xFFFFF000#32).getLsbD i = decide (12 ≤ i.val) := by decide
  rw [immediateU, signExtend_eq _ (by decide) (by decide), Isa.immediateU,
    BitVec.setWidth_setWidth_of_le _ (by decide), BitVec.setWidth_eq]
  congr 1
  refine BitVec.eq_of_getLsbD_eq fun i hi ↦ ?_
  rw [BitVec.getLsbD_and, hmask ⟨i, hi⟩, BitVec.getLsbD_append, BitVec.getLsbD_extractLsb']
  by_cases h : i < 12
  · simp [h]
  · simp [h, show i - 12 < 20 by omega, show 12 + (i - 12) = i by omega, show 12 ≤ i by omega]

/-- Placing fields one above the other, and cutting off what is above them. -/
theorem setWidth_signExtend {n : ℕ} (x : BitVec n) (hn : 0 < n) (hn' : n ≤ 64) :
    signExtend (x.setWidth 64) n = x.signExtend 64 := by
  rw [signExtend_eq _ hn hn', BitVec.setWidth_setWidth_of_le _ hn', BitVec.setWidth_eq]

theorem immediateS_eq : immediateS bits = Isa.immediateS bits := by
  rw [Isa.immediateS, ← setWidth_signExtend _ (by decide) (by decide),
    BitVec.setWidth_append_eq_shiftLeft_setWidth_or, immediateS, field_eq bits (n := 7) rfl,
    field_eq bits (n := 5) rfl]

theorem immediateB_eq : immediateB bits = Isa.immediateB bits := by
  rw [Isa.immediateB, ← setWidth_signExtend _ (by decide) (by decide), immediateB,
    field_eq bits (n := 1) rfl, field_eq bits (n := 1) rfl, field_eq bits (n := 6) rfl,
    field_eq bits (n := 4) rfl, BitVec.setWidth_append_eq_shiftLeft_setWidth_or,
    BitVec.setWidth_append_append_append_eq_shiftLeft_setWidth_or]
  simp only [BitVec.shiftLeft_or_distrib, ← BitVec.shiftLeft_add]
  rw [BitVec.setWidth_zero, BitVec.or_zero]

theorem immediateJ_eq : immediateJ bits = Isa.immediateJ bits := by
  rw [Isa.immediateJ, ← setWidth_signExtend _ (by decide) (by decide), immediateJ,
    field_eq bits (n := 1) rfl, field_eq bits (n := 8) rfl, field_eq bits (n := 1) rfl,
    field_eq bits (n := 10) rfl, BitVec.setWidth_append_eq_shiftLeft_setWidth_or,
    BitVec.setWidth_append_append_append_eq_shiftLeft_setWidth_or]
  simp only [BitVec.shiftLeft_or_distrib, ← BitVec.shiftLeft_add]
  rw [BitVec.setWidth_zero, BitVec.or_zero]

end Immediates

/-! ## Results -/

section Results

variable {bits : BitVec 32} {function3 : BitVec 3} (source1 source2 : BitVec 64)

theorem flag_signedLess (a b : BitVec 64) :
    flag (signedLess a b) = Isa.Operation.slt.result a b := by
  rw [signedLess_eq (by decide), flag, Isa.Operation.result]
  by_cases h : a.toInt < b.toInt
  · rw [decide_eq_true h, if_pos rfl, if_pos h]
  · rw [decide_eq_false h, if_neg (by decide), if_neg h]

theorem flag_lt (a b : BitVec 64) : flag (a < b) = Isa.Operation.sltu.result a b := by
  rw [flag, Isa.Operation.result]
  by_cases h : a.toNat < b.toNat
  · rw [decide_eq_true (BitVec.lt_def.2 h), if_pos rfl, if_pos h]
  · rw [decide_eq_false fun hlt ↦ h (BitVec.lt_def.1 hlt), if_neg (by decide), if_neg h]

theorem toNat_and_shiftMask (b : BitVec 64) : (b &&& 0x3F#64).toNat = b.toNat % 64 :=
  Bits.toNat_and_mask b (show 6 < 64 by decide)

theorem toNat_and_wordShiftMask (b : BitVec 32) : (b &&& 0x1F#32).toNat = b.toNat % 32 := by
  rw [BitVec.toNat_and]
  exact Nat.and_two_pow_sub_one_eq_mod _ 5

theorem function3_cases (f : BitVec 3) : f = 0#3 ∨ f = 1#3 ∨ f = 2#3 ∨ f = 3#3 ∨ f = 4#3 ∨ f = 5#3 ∨
    f = 6#3 ∨ f = 7#3 := by
  revert f
  decide

theorem opImmResult_of_operation {operation : Isa.Operation}
    (h : Isa.immediateOperation function3 = some operation) :
    opImmResult bits function3 source1 =
      some (operation.result source1 (Isa.immediateI bits)) := by
  rw [opImmResult, immediateI_eq, flag_signedLess, flag_lt]
  rcases function3_cases function3 with rfl | rfl | rfl | rfl | rfl | rfl | rfl | rfl <;>
    cases h <;> rfl

theorem opImmResult_of_shift {operation : Isa.Operation}
    (h : Isa.shiftOperation function3 (bits.extractLsb' 26 6) = some operation) :
    opImmResult bits function3 source1 =
      some (operation.result source1 ((bits.extractLsb' 20 6).setWidth 64)) := by
  have hamount : ((bits.extractLsb' 20 6).setWidth 64).toNat % 64 = shiftAmount64 bits := by
    have hlt := (bits.extractLsb' 20 6).isLt
    rw [shiftAmount64, BitVec.toNat_setWidth]
    omega
  have hlt : shiftAmount64 bits < 64 := (bits.extractLsb' 20 6).isLt
  rw [Isa.shiftOperation] at h
  split_ifs at h with hsll hsrl hsra
  · obtain ⟨rfl, h6⟩ := hsll
    cases h
    rw [opImmResult, Isa.Operation.result, hamount, function6, h6]
    rfl
  · obtain ⟨rfl, h6⟩ := hsrl
    cases h
    rw [opImmResult, Isa.Operation.result, hamount, function6, h6]
    rfl
  · obtain ⟨rfl, h6⟩ := hsra
    cases h
    rw [opImmResult, Isa.Operation.result, hamount, function6, h6,
      ← arithmeticShiftRight64_eq _ hlt]
    rfl

theorem toNat_wordAmount (bits : BitVec 32) :
    (((bits.extractLsb' 20 5).setWidth 64).setWidth 32).toNat % 32 = shiftAmount32 bits := by
  have hlt := (bits.extractLsb' 20 5).isLt
  rw [shiftAmount32, BitVec.toNat_setWidth, BitVec.toNat_setWidth]
  omega

theorem opImm32Result_add (h : bits.extractLsb' 12 3 = 0#3) :
    opImm32Result bits (decode bits) source1 =
      some (Isa.WordOperation.add.result source1 (Isa.immediateI bits)) := by
  rw [opImm32Result, if_pos (show (decode bits).function3 = 0#3 from h), Option.map_some,
    signExtendWord_eq, immediateI_eq]
  rfl

theorem opImm32Result_of_shift {operation : Isa.WordOperation}
    (h : Isa.wordShiftOperation (bits.extractLsb' 12 3) (bits.extractLsb' 25 7) = some operation) :
    opImm32Result bits (decode bits) source1 =
      some (operation.result source1 ((bits.extractLsb' 20 5).setWidth 64)) := by
  have hlt : shiftAmount32 bits < 32 := (bits.extractLsb' 20 5).isLt
  rw [opImm32Result, show (decode bits).function3 = bits.extractLsb' 12 3 from rfl,
    show (decode bits).function7 = bits.extractLsb' 25 7 from rfl]
  rw [Isa.wordShiftOperation] at h
  split_ifs at h with hsll hsrl hsra
  · cases h
    rw [hsll.1, hsll.2, Isa.WordOperation.result, Isa.WordOperation.word, toNat_wordAmount,
      ← signExtendWord_eq]
    rfl
  · cases h
    rw [hsrl.1, hsrl.2, Isa.WordOperation.result, Isa.WordOperation.word, toNat_wordAmount,
      ← signExtendWord_eq]
    rfl
  · cases h
    rw [hsra.1, hsra.2, Isa.WordOperation.result, Isa.WordOperation.word, toNat_wordAmount,
      ← signExtendWord_eq, ← arithmeticShiftRight32_eq _ hlt]
    rfl

theorem opResult_of_operation {operation : Isa.Operation}
    (h : Isa.registerOperation (bits.extractLsb' 12 3) (bits.extractLsb' 25 7) = some operation) :
    opResult (decode bits) source1 source2 = some (operation.result source1 source2) := by
  have hlt : source2.toNat % 64 < 64 := Nat.mod_lt _ (by decide)
  rw [opResult, toNat_and_shiftMask, flag_signedLess, flag_lt, arithmeticShiftRight64_eq _ hlt,
    show (decode bits).function3 = bits.extractLsb' 12 3 from rfl,
    show (decode bits).function7 = bits.extractLsb' 25 7 from rfl]
  rw [Isa.registerOperation] at h
  generalize bits.extractLsb' 12 3 = function3 at h ⊢
  generalize bits.extractLsb' 25 7 = function7 at h ⊢
  split at h
  · next h7 =>
    subst h7
    rcases function3_cases function3 with rfl | rfl | rfl | rfl | rfl | rfl | rfl | rfl <;>
      cases h <;> rfl
  · split at h
    · next h7 =>
      subst h7
      rcases function3_cases function3 with rfl | rfl | rfl | rfl | rfl | rfl | rfl | rfl <;>
        cases h <;> rfl
    · cases h

theorem op32Result_of_operation {operation : Isa.WordOperation}
    (h : Isa.registerWordOperation (bits.extractLsb' 12 3) (bits.extractLsb' 25 7) =
      some operation) :
    op32Result (decode bits) source1 source2 = some (operation.result source1 source2) := by
  have hlt : (source2.setWidth 32).toNat % 32 < 32 := Nat.mod_lt _ (by decide)
  rw [op32Result, toNat_and_wordShiftMask, arithmeticShiftRight32_eq _ hlt]
  simp only [signExtendWord_eq]
  rw [show (decode bits).function3 = bits.extractLsb' 12 3 from rfl,
    show (decode bits).function7 = bits.extractLsb' 25 7 from rfl]
  rw [Isa.registerWordOperation, Isa.wordShiftOperation] at h
  generalize bits.extractLsb' 12 3 = function3 at h ⊢
  generalize bits.extractLsb' 25 7 = function7 at h ⊢
  split_ifs at h with hadd hsub hsll hsrl hsra
  · obtain ⟨rfl, rfl⟩ := hadd
    cases h
    rfl
  · obtain ⟨rfl, rfl⟩ := hsub
    cases h
    rfl
  · obtain ⟨rfl, rfl⟩ := hsll
    cases h
    rfl
  · obtain ⟨rfl, rfl⟩ := hsrl
    cases h
    rfl
  · obtain ⟨rfl, rfl⟩ := hsra
    cases h
    rfl

theorem branchTaken_of_condition {condition : Isa.Condition}
    (h : Isa.condition function3 = some condition) :
    branchTaken function3 source1 source2 = some (condition.holds source1 source2) := by
  rw [branchTaken, signedLess_eq (by decide)]
  rcases function3_cases function3 with rfl | rfl | rfl | rfl | rfl | rfl | rfl | rfl <;>
    cases h
  · rfl
  · exact congrArg some (by simp [Isa.Condition.holds, bne, Bool.beq_eq_decide_eq])
  · rfl
  · exact congrArg some (by rw [Isa.Condition.holds, ← decide_not, decide_eq_decide, Int.not_lt])
  · exact congrArg some (by simp [Isa.Condition.holds, BitVec.lt_def])
  · exact congrArg some (by simp [Isa.Condition.holds, BitVec.le_def])

end Results

end Rvemu
