import Rvemu.Core.Csr
import Rvemu.Lib.Bits

/-!
# Bits of the status registers

The extension fields of `mstatus` and what marking them dirty changes, bit by bit.
-/

set_option autoImplicit false

namespace Rvemu

/-! ## Single bits -/

theorem getLsbD_bit {k : ℕ} (hk : k < 64) (i : ℕ) : (bit k).getLsbD i = decide (i = k) := by
  rw [bit, BitVec.getLsbD_shiftLeft]
  rcases Nat.lt_trichotomy i k with h | rfl | h
  · have hne : i ≠ k := by omega
    simp [h, hne]
  · simp [hk]
  · have hne : i ≠ k := by omega
    have hsub : i - k ≠ 0 := by omega
    simp [hne, hsub]

/-- Masking with one bit tests it. -/
theorem and_bit_ne_zero (x : BitVec 64) {k : ℕ} (hk : k < 64) :
    ((x &&& bit k) != 0#64) = x.getLsbD k := by
  rw [Bool.eq_iff_iff, bne_iff_ne]
  constructor
  · intro hne
    by_contra hno
    rw [Bool.not_eq_true] at hno
    apply hne
    apply BitVec.eq_of_getLsbD_eq
    intro i hi
    rw [BitVec.getLsbD_and, getLsbD_bit hk, BitVec.getLsbD_zero]
    by_cases h : i = k
    · rw [h, hno, Bool.false_and]
    · simp [h]
  · intro h heq
    have hk' := congrArg (·.getLsbD k) heq
    rw [BitVec.getLsbD_and, getLsbD_bit hk, h, BitVec.getLsbD_zero] at hk'
    simp at hk'

theorem getLsbD_or_bit (x : BitVec 64) {k : ℕ} (hk : k < 64) (i : ℕ) :
    (x ||| bit k).getLsbD i = if i = k then true else x.getLsbD i := by
  rw [BitVec.getLsbD_or, getLsbD_bit hk]
  by_cases h : i = k
  · rw [if_pos h, decide_eq_true h, Bool.or_true]
  · rw [if_neg h, decide_eq_false h, Bool.or_false]

theorem getLsbD_and_not_bit (x : BitVec 64) {k : ℕ} (hk : k < 64) (i : ℕ) :
    (x &&& ~~~(bit k)).getLsbD i = if i = k then false else x.getLsbD i := by
  rcases Nat.lt_or_ge i 64 with hi | hi
  · rw [BitVec.getLsbD_and, BitVec.getLsbD_not, getLsbD_bit hk]
    by_cases h : i = k
    · rw [if_pos h, decide_eq_true h, Bool.not_true, Bool.and_false, Bool.and_false]
    · rw [if_neg h, decide_eq_false h, decide_eq_true hi, Bool.not_false, Bool.and_self,
        Bool.and_true]
  · have h : i ≠ k := by omega
    rw [if_neg h, BitVec.getLsbD_of_ge _ _ hi, BitVec.getLsbD_of_ge _ _ hi]

namespace CsrFile

theorem getLsbD_assign (x : BitVec 64) {k : ℕ} (hk : k < 64) (on : Bool) (i : ℕ) :
    (assign x (bit k) on).getLsbD i = if i = k then on else x.getLsbD i := by
  cases on with
  | true =>
    rw [assign, if_pos rfl]
    exact getLsbD_or_bit x hk i
  | false =>
    rw [assign, if_neg (by decide)]
    exact getLsbD_and_not_bit x hk i

/-! ## The extension fields -/

variable (c : CsrFile)

theorem floatingStateEnabled_eq :
    c.floatingStateEnabled = (c.mstatus.getLsbD 13 || c.mstatus.getLsbD 14) :=
  Bits.field_two_ne_zero _ _

theorem vectorStateEnabled_eq :
    c.vectorStateEnabled = (c.mstatus.getLsbD 9 || c.mstatus.getLsbD 10) :=
  Bits.field_two_ne_zero _ _

theorem getLsbD_floatingMask (i : ℕ) :
    (3#64 <<< 13).getLsbD i = (decide (i = 13) || decide (i = 14)) :=
  Bits.getLsbD_const (p := fun i ↦ decide (i = 13) || decide (i = 14)) (by decide)
    (by intro i hi; simp; omega) i

theorem getLsbD_vectorMask (i : ℕ) : (3#64 <<< 9).getLsbD i = (decide (i = 9) || decide (i = 10)) :=
  Bits.getLsbD_const (p := fun i ↦ decide (i = 9) || decide (i = 10)) (by decide)
    (by intro i hi; simp; omega) i

/-- Setting a mask leaves every other bit. -/
theorem getLsbD_setMask (x mask : BitVec 64) {i : ℕ} (hi : i < 64) :
    ((x &&& ~~~mask) ||| mask).getLsbD i = (x.getLsbD i || mask.getLsbD i) := by
  rw [BitVec.getLsbD_or, BitVec.getLsbD_and, BitVec.getLsbD_not]
  cases x.getLsbD i <;> cases mask.getLsbD i <;> simp [hi]

/-- Marking changes `mstatus` only. -/
theorem markFloatingStateDirty_eq :
    c.markFloatingStateDirty = { c with mstatus := c.markFloatingStateDirty.mstatus } := by
  rw [markFloatingStateDirty]
  split <;> rfl

theorem markVectorStateDirty_eq :
    c.markVectorStateDirty = { c with mstatus := c.markVectorStateDirty.mstatus } := by
  rw [markVectorStateDirty]
  split <;> rfl

theorem getLsbD_mstatus_markFloatingStateDirty {i : ℕ} (hi : i < 64) :
    c.markFloatingStateDirty.mstatus.getLsbD i =
      (c.mstatus.getLsbD i || (c.floatingStateEnabled &&
        (decide (i = 13) || decide (i = 14)))) := by
  rw [markFloatingStateDirty]
  cases h : c.floatingStateEnabled with
  | false => simp
  | true =>
    rw [if_neg (by simp)]
    dsimp only
    rw [getLsbD_setMask _ _ hi, getLsbD_floatingMask, Bool.true_and]

theorem getLsbD_mstatus_markVectorStateDirty {i : ℕ} (hi : i < 64) :
    c.markVectorStateDirty.mstatus.getLsbD i =
      (c.mstatus.getLsbD i || (c.vectorStateEnabled && (decide (i = 9) || decide (i = 10)))) := by
  rw [markVectorStateDirty]
  cases h : c.vectorStateEnabled with
  | false => simp
  | true =>
    rw [if_neg (by simp)]
    dsimp only
    rw [getLsbD_setMask _ _ hi, getLsbD_vectorMask, Bool.true_and]

@[simp] theorem vectorStateEnabled_markVectorStateDirty :
    c.markVectorStateDirty.vectorStateEnabled = c.vectorStateEnabled := by
  rw [vectorStateEnabled_eq, getLsbD_mstatus_markVectorStateDirty _ (by decide),
    getLsbD_mstatus_markVectorStateDirty _ (by decide)]
  rw [vectorStateEnabled_eq]
  cases c.mstatus.getLsbD 9 <;> cases c.mstatus.getLsbD 10 <;> rfl

@[simp] theorem floatingStateEnabled_markFloatingStateDirty :
    c.markFloatingStateDirty.floatingStateEnabled = c.floatingStateEnabled := by
  rw [floatingStateEnabled_eq, getLsbD_mstatus_markFloatingStateDirty _ (by decide),
    getLsbD_mstatus_markFloatingStateDirty _ (by decide)]
  rw [floatingStateEnabled_eq]
  cases c.mstatus.getLsbD 13 <;> cases c.mstatus.getLsbD 14 <;> rfl

@[simp] theorem vectorStateEnabled_markFloatingStateDirty :
    c.markFloatingStateDirty.vectorStateEnabled = c.vectorStateEnabled := by
  rw [vectorStateEnabled_eq, getLsbD_mstatus_markFloatingStateDirty _ (by decide),
    getLsbD_mstatus_markFloatingStateDirty _ (by decide)]
  rw [vectorStateEnabled_eq]
  simp

theorem vectorStateEnabled_accrueFloatingExceptionFlags (flags : BitVec 8) :
    (c.accrueFloatingExceptionFlags flags).vectorStateEnabled = c.vectorStateEnabled := by
  rw [accrueFloatingExceptionFlags]
  split
  · rfl
  · rw [vectorStateEnabled_markFloatingStateDirty]
    rfl

theorem vectorStateEnabled_setVectorStartForTrap (element : BitVec 64) :
    (c.setVectorStartForTrap element).vectorStateEnabled = c.vectorStateEnabled := by
  rw [setVectorStartForTrap, vectorStateEnabled_markVectorStateDirty]
  rfl

/-! ## The trap stacks -/

theorem getLsbD_mppMask (i : ℕ) : (3#64 <<< 11).getLsbD i = (decide (i = 11) || decide (i = 12)) :=
  Bits.getLsbD_const (p := fun i ↦ decide (i = 11) || decide (i = 12)) (by decide)
    (by intro i hi; simp; omega) i

theorem getLsbD_and_not_mpp (x : BitVec 64) (i : ℕ) :
    (x &&& ~~~(3#64 <<< 11)).getLsbD i = if i = 11 ∨ i = 12 then false else x.getLsbD i := by
  rcases Nat.lt_or_ge i 64 with hi | hi
  · rw [BitVec.getLsbD_and, BitVec.getLsbD_not, getLsbD_mppMask]
    by_cases h : i = 11 ∨ i = 12
    · rw [if_pos h]
      rcases h with rfl | rfl <;> simp
    · rw [if_neg h]
      rw [not_or] at h
      simp [h.1, h.2, hi]
  · rw [if_neg (by omega), BitVec.getLsbD_of_ge _ _ hi, BitVec.getLsbD_of_ge _ _ hi]

/-- The encoding of a mode in MPP. -/
theorem getLsbD_rank (p : PrivilegeMode) (i : ℕ) :
    (BitVec.ofNat 64 p.rank <<< 11).getLsbD i =
      ((decide (i = 11) && p != .user) || (decide (i = 12) && p == .machine)) := by
  refine Bits.getLsbD_const
    (p := fun i ↦ (decide (i = 11) && p != .user) || (decide (i = 12) && p == .machine)) ?_ ?_ i
  · cases p <;> decide
  · intro i hi
    have h11 : i ≠ 11 := by omega
    have h12 : i ≠ 12 := by omega
    simp [h11, h12]

theorem getLsbD_mstatus_enterMachineTrap (p : PrivilegeMode) (pc cause value : BitVec 64) (i : ℕ) :
    (c.enterMachineTrap p pc cause value).mstatus.getLsbD i =
      if i = 3 then false else if i = 7 then c.mstatus.getLsbD 3
      else if i = 11 then p != .user else if i = 12 then p == .machine
      else c.mstatus.getLsbD i := by
  rw [enterMachineTrap]
  dsimp only
  rw [BitVec.getLsbD_or, getLsbD_and_not_mpp, getLsbD_rank, getLsbD_and_not_bit _ (by decide),
    getLsbD_assign _ (by decide), and_bit_ne_zero _ (by decide)]
  by_cases h3 : i = 3
  · simp [h3]
  by_cases h7 : i = 7
  · simp [h7]
  by_cases h11 : i = 11
  · simp [h11]
  by_cases h12 : i = 12
  · simp [h12]
  · simp [h3, h7, h11, h12]

theorem getLsbD_mstatus_enterSupervisorTrap (p : PrivilegeMode) (pc cause value : BitVec 64)
    (i : ℕ) :
    (c.enterSupervisorTrap p pc cause value).mstatus.getLsbD i =
      if i = 1 then false else if i = 5 then c.mstatus.getLsbD 1
      else if i = 8 then p != .user else c.mstatus.getLsbD i := by
  rw [enterSupervisorTrap]
  dsimp only
  rw [getLsbD_assign _ (by decide), getLsbD_and_not_bit _ (by decide),
    getLsbD_assign _ (by decide), and_bit_ne_zero _ (by decide)]
  by_cases h1 : i = 1
  · simp [h1]
  by_cases h5 : i = 5
  · simp [h5]
  · simp [h1, h5]

theorem getLsbD_mstatus_returnFromSupervisor (i : ℕ) :
    c.returnFromSupervisor.2.mstatus.getLsbD i =
      if i = 1 then c.mstatus.getLsbD 5 else if i = 5 then true
      else if i = 8 ∨ i = 17 then false else c.mstatus.getLsbD i := by
  rw [returnFromSupervisor]
  dsimp only
  rw [getLsbD_and_not_bit _ (by decide), getLsbD_and_not_bit _ (by decide),
    getLsbD_or_bit _ (by decide), getLsbD_assign _ (by decide), and_bit_ne_zero _ (by decide)]
  by_cases h1 : i = 1
  · simp [h1]
  by_cases h5 : i = 5
  · simp [h5]
  by_cases h8 : i = 8
  · simp [h8]
  · simp [h1, h5, h8]

theorem getLsbD_mstatus_returnFromMachine (i : ℕ) :
    c.returnFromMachine.2.mstatus.getLsbD i =
      if i = 3 then c.mstatus.getLsbD 7 else if i = 7 then true
      else if i = 11 ∨ i = 12 then false
      else if i = 17 ∧ c.returnFromMachine.1.privilege ≠ .machine then false
      else c.mstatus.getLsbD i := by
  generalize hp : c.returnFromMachine.1.privilege = p
  rw [returnFromMachine] at hp ⊢
  dsimp only at hp ⊢
  rw [hp]
  have hbase : ∀ i, ((assign c.mstatus (bit 3) (c.mstatus &&& bit 7 != 0#64) ||| bit 7) &&&
      ~~~(3#64 <<< 11)).getLsbD i =
        if i = 3 then c.mstatus.getLsbD 7 else if i = 7 then true
        else if i = 11 ∨ i = 12 then false else c.mstatus.getLsbD i := by
    intro i
    rw [getLsbD_and_not_mpp, getLsbD_or_bit _ (by decide), getLsbD_assign _ (by decide),
      and_bit_ne_zero _ (by decide)]
    by_cases h3 : i = 3
    · simp [h3]
    by_cases h7 : i = 7
    · simp [h7]
    · simp [h3, h7]
  by_cases hm : p ≠ .machine
  · rw [if_pos hm, getLsbD_and_not_bit _ (by decide), hbase]
    by_cases h17 : i = 17
    · simp [h17, hm]
    · simp [h17]
  · rw [if_neg hm, hbase]
    simp [hm]

end CsrFile

end Rvemu
