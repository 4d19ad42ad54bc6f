import Mathlib.Tactic.Common
import Mathlib.Algebra.Group.Nat.Defs
import Mathlib.Data.Nat.Size

/-!
# Fixed-width integers made of 64-bit limbs

A number is a list of limbs, least significant first; its length is fixed by whoever uses it.  The
operations are the schoolbook ones: ripple carry and borrow, word-and-bit shifts, comparison from
the top.  Each of them has one lemma that says what it does to `value`, modulo the width of the
list.
-/

set_option autoImplicit false

namespace Limbs

/-- The number a list of limbs stands for. -/
def value : List (BitVec 64) → ℕ
  | [] => 0
  | x :: l => x.toNat + 2 ^ 64 * value l

/-- A limb by position; positions past the end read as zero. -/
def limb (l : List (BitVec 64)) (i : ℕ) : BitVec 64 := l.getD i 0#64

/-! ## Operations -/

def isZero (l : List (BitVec 64)) : Bool := l.all (· == 0#64)

/-- The number of significant bits of one limb, by shifting it down. -/
def limbBits : ℕ → BitVec 64 → ℕ
  | 0, _ => 0
  | fuel + 1, x => if x = 0#64 then 0 else limbBits fuel (x >>> 1) + 1

/-- The number of significant bits, from the highest non-zero limb down. -/
def bitLength : List (BitVec 64) → ℕ
  | [] => 0
  | x :: l =>
    match bitLength l with
    | 0 => limbBits 64 x
    | n + 1 => 64 + (n + 1)

def bit (l : List (BitVec 64)) (i : ℕ) : Bool :=
  decide (i < l.length * 64) && (((limb l (i / 64)) >>> (i % 64)) &&& 1#64) != 0#64

def setBit (l : List (BitVec 64)) (i : ℕ) : List (BitVec 64) :=
  if i < l.length * 64 then l.set (i / 64) (limb l (i / 64) ||| (1#64 <<< (i % 64))) else l

def shiftLeft (l : List (BitVec 64)) (amount : ℕ) : List (BitVec 64) :=
  if amount = 0 then l
  else if amount ≥ l.length * 64 then List.replicate l.length 0#64
  else
    let words := amount / 64
    let bits := amount % 64
    (List.range l.length).map fun index ↦
      if index ≥ words then
        let v := limb l (index - words) <<< bits
        if bits ≠ 0 ∧ index > words then v ||| (limb l (index - words - 1) >>> (64 - bits)) else v
      else 0#64

def shiftRight (l : List (BitVec 64)) (amount : ℕ) : List (BitVec 64) :=
  if amount = 0 then l
  else if amount ≥ l.length * 64 then List.replicate l.length 0#64
  else
    let words := amount / 64
    let bits := amount % 64
    (List.range l.length).map fun index ↦
      if index + words < l.length then
        let v := limb l (index + words) >>> bits
        if bits ≠ 0 ∧ index + words + 1 < l.length then
          v ||| (limb l (index + words + 1) <<< (64 - bits))
        else v
      else 0#64

def anyLowBits (l : List (BitVec 64)) (count : ℕ) : Bool :=
  let bounded := min count (l.length * 64)
  let wholeWords := bounded / 64
  if (l.take wholeWords).any (· != 0#64) then true
  else
    let remainder := bounded % 64
    if remainder ≠ 0 ∧ wholeWords < l.length then
      (limb l wholeWords &&& ((1#64 <<< remainder) - 1#64)) != 0#64
    else false

/-- Compare from the highest limb down. -/
def compare : List (BitVec 64) → List (BitVec 64) → Ordering
  | x :: l, y :: k =>
    match compare l k with
    | .eq => if x ≠ y then (if x < y then .lt else .gt) else .eq
    | o => o
  | _, _ => .eq

def addCarry : List (BitVec 64) → List (BitVec 64) → BitVec 64 → List (BitVec 64)
  | x :: l, y :: k, carry =>
    let first := x + y
    let carryFirst := decide (first < x)
    let result := first + carry
    let carrySecond := decide (result < first)
    result :: addCarry l k (if carryFirst || carrySecond then 1#64 else 0#64)
  | _, _, _ => []

def subBorrow : List (BitVec 64) → List (BitVec 64) → BitVec 64 → List (BitVec 64)
  | x :: l, y :: k, borrow =>
    let subtrahend := y + borrow
    let wrapped := decide (subtrahend < y)
    let nextBorrow := wrapped || decide (x < subtrahend)
    (x - subtrahend) :: subBorrow l k (if nextBorrow then 1#64 else 0#64)
  | _, _, _ => []

/-! ## Values and bits -/

theorem value_lt (l : List (BitVec 64)) : value l < 2 ^ (64 * l.length) := by
  induction l with
  | nil => simp [value]
  | cons x l ih =>
    have hx := x.isLt
    rw [value, List.length_cons, show 64 * (l.length + 1) = 64 + 64 * l.length by omega,
      Nat.pow_add]
    calc x.toNat + 2 ^ 64 * value l < 2 ^ 64 + 2 ^ 64 * value l := by omega
      _ = 2 ^ 64 * (value l + 1) := by omega
      _ ≤ 2 ^ 64 * 2 ^ (64 * l.length) := Nat.mul_le_mul_left _ ih

theorem testBit_value (l : List (BitVec 64)) (i : ℕ) :
    (value l).testBit i = (limb l (i / 64)).getLsbD (i % 64) := by
  induction l generalizing i with
  | nil => simp [value, limb]
  | cons x l ih =>
    rw [value, Nat.add_comm, Nat.testBit_two_pow_mul_add _ x.isLt]
    by_cases hi : i < 64
    · rw [if_pos hi, Nat.div_eq_of_lt hi, Nat.mod_eq_of_lt hi]
      rfl
    · rw [if_neg hi, ih]
      have hdiv : i / 64 = (i - 64) / 64 + 1 := by omega
      have hmod : i % 64 = (i - 64) % 64 := by omega
      rw [hdiv, hmod]
      rfl

/-- Two numbers of the same bits are equal. -/
theorem value_eq_of_bits {l : List (BitVec 64)} {n : ℕ}
    (h : ∀ i, (limb l (i / 64)).getLsbD (i % 64) = n.testBit i) : value l = n :=
  Nat.eq_of_testBit_eq fun i ↦ (testBit_value l i).trans (h i)

/-- The limbs of a number, as many as the width holds. -/
def ofNat : ℕ → ℕ → List (BitVec 64)
  | 0, _ => []
  | n + 1, m => BitVec.ofNat 64 m :: ofNat n (m / 2 ^ 64)

theorem length_ofNat (n m : ℕ) : (ofNat n m).length = n := by
  induction n generalizing m with
  | zero => rfl
  | succ n ih => rw [ofNat, List.length_cons, ih]

theorem value_ofNat {n m : ℕ} (h : m < 2 ^ (64 * n)) : value (ofNat n m) = m := by
  induction n generalizing m with
  | zero =>
    rw [Nat.mul_zero, Nat.pow_zero, Nat.lt_one_iff] at h
    rw [ofNat, value, h]
  | succ n ih =>
    rw [show 64 * (n + 1) = 64 + 64 * n by omega, Nat.pow_add, Nat.mul_comm] at h
    rw [ofNat, value, ih (Nat.div_lt_of_lt_mul (by rwa [Nat.mul_comm])), BitVec.toNat_ofNat]
    omega

theorem value_injective {l k : List (BitVec 64)} (h : l.length = k.length)
    (hv : value l = value k) : l = k := by
  induction l generalizing k with
  | nil => exact (by simpa using h.symm : k = []).symm
  | cons x l ih =>
    cases k with
    | nil => simp at h
    | cons y k =>
      have hx := x.isLt
      have hy := y.isLt
      rw [value, value] at hv
      have hxy : x = y := BitVec.eq_of_toNat_eq (by omega)
      rw [hxy, ih (by simpa using h) (by omega)]

theorem value_replicate_zero (n : ℕ) : value (List.replicate n 0#64) = 0 := by
  induction n with
  | zero => rfl
  | succ n ih => simp [List.replicate_succ, value, ih]

theorem limb_of_length_le {l : List (BitVec 64)} {i : ℕ} (h : l.length ≤ i) : limb l i = 0#64 := by
  rw [limb, List.getD_eq_getElem?_getD, List.getElem?_eq_none h]
  rfl

theorem limb_map_range (f : ℕ → BitVec 64) (n i : ℕ) :
    limb ((List.range n).map f) i = if i < n then f i else 0#64 := by
  rw [limb, List.getD_eq_getElem?_getD, List.getElem?_map]
  by_cases h : i < n
  · rw [List.getElem?_range h, if_pos h]
    rfl
  · rw [List.getElem?_eq_none (by simpa using h), if_neg h]
    rfl

theorem isZero_iff (l : List (BitVec 64)) : isZero l = true ↔ value l = 0 := by
  induction l with
  | nil => simp [isZero, value]
  | cons x l ih =>
    have hx : x = 0#64 ↔ x.toNat = 0 :=
      ⟨fun h ↦ by rw [h]; rfl, fun h ↦ BitVec.eq_of_toNat_eq h⟩
    have hall : isZero (x :: l) = (x == 0#64 && isZero l) := rfl
    rw [hall, Bool.and_eq_true, ih, beq_iff_eq, hx, value]
    constructor
    · rintro ⟨h₁, h₂⟩
      rw [h₁, h₂, Nat.mul_zero]
    · intro h
      have : value l = 0 := by omega
      exact ⟨by omega, this⟩

theorem bit_eq (l : List (BitVec 64)) (i : ℕ) : bit l i = (value l).testBit i := by
  rw [testBit_value, bit]
  have hone : ∀ (x : BitVec 64) (k : ℕ), k < 64 → (((x >>> k) &&& 1#64) != 0#64) = x.getLsbD k := by
    intro x k hk
    rw [BitVec.and_one_eq_setWidth_ofBool_getLsbD, BitVec.getLsbD_ushiftRight, Nat.add_zero]
    cases x.getLsbD k <;> rfl
  rw [hone _ _ (Nat.mod_lt _ (by decide))]
  by_cases hi : i < l.length * 64
  · simp [hi]
  · rw [limb_of_length_le (by omega)]
    simp

theorem limbBits_eq (fuel : ℕ) (x : BitVec 64) (h : x.toNat < 2 ^ fuel) :
    limbBits fuel x = x.toNat.size := by
  induction fuel generalizing x with
  | zero =>
    rw [Nat.pow_zero, Nat.lt_one_iff] at h
    simp [limbBits, h]
  | succ fuel ih =>
    rw [limbBits]
    split
    · next hx => simp [hx]
    · next hx =>
      have hne : x.toNat ≠ 0 := fun h ↦ hx (BitVec.eq_of_toNat_eq h)
      have hshift : (x >>> 1).toNat = x.toNat / 2 := by
        rw [BitVec.toNat_ushiftRight, Nat.shiftRight_eq_div_pow]
      rw [ih _ (by rw [hshift, Nat.div_lt_iff_lt_mul (by decide), ← Nat.pow_succ]; exact h), hshift]
      apply Nat.le_antisymm
      · rw [Nat.succ_le_iff, Nat.lt_size]
        rcases Nat.eq_zero_or_pos (x.toNat / 2).size with hz | hp
        · rw [hz]
          omega
        · have := Nat.lt_size.1 (Nat.sub_lt hp Nat.one_pos)
          have hpow : 2 ^ (x.toNat / 2).size = 2 * 2 ^ ((x.toNat / 2).size - 1) := by
            rw [← Nat.pow_succ']
            congr 1
            omega
          omega
      · rw [Nat.size_le, Nat.pow_succ]
        have := Nat.lt_size_self (x.toNat / 2)
        omega

theorem bitLength_eq (l : List (BitVec 64)) : bitLength l = (value l).size := by
  induction l with
  | nil => simp [bitLength, value]
  | cons x l ih =>
    have hx := x.isLt
    rw [bitLength, value, ih]
    split
    · next h =>
      rw [Nat.size_eq_zero] at h
      rw [limbBits_eq 64 x hx, h]
      simp
    · next n h =>
      apply Nat.le_antisymm
      · rw [show 64 + (n + 1) = (64 + n) + 1 by omega, Nat.succ_le_iff, Nat.lt_size, Nat.pow_add]
        have hn : 2 ^ n ≤ value l := Nat.lt_size.1 (by omega)
        have := Nat.mul_le_mul_left (2 ^ 64) hn
        omega
      · rw [Nat.size_le, Nat.pow_add]
        have hn : value l < 2 ^ (n + 1) := Nat.size_le.1 (by omega)
        have := Nat.mul_le_mul_left (2 ^ 64) (Nat.succ_le_of_lt hn)
        omega

theorem length_setBit (l : List (BitVec 64)) (i : ℕ) : (setBit l i).length = l.length := by
  rw [setBit]
  split
  · rw [List.length_set]
  · rfl

theorem testBit_setBit {l : List (BitVec 64)} {i : ℕ} (hi : i < l.length * 64) (j : ℕ) :
    (value (setBit l i)).testBit j = ((value l).testBit j || decide (j = i)) := by
  rw [testBit_value, testBit_value, setBit, if_pos hi, limb, List.getD_eq_getElem?_getD,
    List.getElem?_set]
  by_cases hw : i / 64 = j / 64
  · rw [if_pos hw, if_pos (by omega), Option.getD_some, BitVec.getLsbD_or, hw,
      BitVec.getLsbD_shiftLeft]
    have hj : j % 64 < 64 := Nat.mod_lt _ (by decide)
    by_cases hji : j = i
    · subst hji
      simp [hj]
    · have hne : j % 64 ≠ i % 64 := by omega
      rcases Nat.lt_or_ge (j % 64) (i % 64) with hlt | hge
      · simp [hlt, hji]
      · have hz : (1#64).getLsbD (j % 64 - i % 64) = false := by
          rw [BitVec.getLsbD_one]
          simp
          omega
        rw [hz]
        simp [hji]
  · rw [if_neg hw, ← List.getD_eq_getElem?_getD, ← limb]
    have hji : j ≠ i := fun h ↦ hw (by rw [h])
    simp [hji]

/-! ## Shifts -/

theorem length_shiftLeft (l : List (BitVec 64)) (amount : ℕ) :
    (shiftLeft l amount).length = l.length := by
  rw [shiftLeft]
  split
  · rfl
  · split <;> simp

theorem length_shiftRight (l : List (BitVec 64)) (amount : ℕ) :
    (shiftRight l amount).length = l.length := by
  rw [shiftRight]
  split
  · rfl
  · split <;> simp

/-- A left shift multiplies, modulo the width. -/
theorem value_shiftLeft (l : List (BitVec 64)) (amount : ℕ) :
    value (shiftLeft l amount) = value l * 2 ^ amount % 2 ^ (64 * l.length) := by
  rw [shiftLeft]
  split
  · next h =>
    rw [h, Nat.pow_zero, Nat.mul_one, Nat.mod_eq_of_lt (value_lt l)]
  · split
    · next h =>
      rw [value_replicate_zero, eq_comm]
      apply Nat.mod_eq_zero_of_dvd
      exact Nat.dvd_mul_left_of_dvd (Nat.pow_dvd_pow 2 (by omega)) _
    · next h0 h =>
      apply value_eq_of_bits
      intro i
      rw [limb_map_range, Nat.testBit_mod_two_pow, Nat.testBit_mul_two_pow, testBit_value]
      dsimp only
      -- bit `i` of the result comes from bit `i - amount`, in one of two limbs
      by_cases hi : i / 64 < l.length
      · rw [if_pos hi]
        have hi' : decide (i < 64 * l.length) = true := by simpa using by omega
        rw [hi', Bool.true_and]
        by_cases hw : i / 64 ≥ amount / 64
        · rw [if_pos hw]
          by_cases hb : i % 64 ≥ amount % 64
          · have hd : (i - amount) / 64 = i / 64 - amount / 64 := by omega
            have hm : (i - amount) % 64 = i % 64 - amount % 64 := by omega
            have hge : amount ≤ i := by omega
            have hlow : (limb l (i / 64 - amount / 64) <<< (amount % 64)).getLsbD (i % 64) =
                (limb l (i / 64 - amount / 64)).getLsbD (i % 64 - amount % 64) := by
              rw [BitVec.getLsbD_shiftLeft]
              simp [hb, Nat.mod_lt]
            have hhigh :
                (limb l (i / 64 - amount / 64 - 1) >>> (64 - amount % 64)).getLsbD (i % 64) =
                false ∨ amount % 64 = 0 := by
              by_cases hz : amount % 64 = 0
              · exact Or.inr hz
              · refine Or.inl ?_
                rw [BitVec.getLsbD_ushiftRight, BitVec.getLsbD_of_ge _ _ (by omega)]
            rw [hd, hm]
            split
            · next hc =>
              rw [BitVec.getLsbD_or, hlow, hhigh.resolve_right hc.1]
              simp [hge]
            · rw [hlow]
              simp [hge]
          · -- the bit comes from the limb below
            have hlow : (limb l (i / 64 - amount / 64) <<< (amount % 64)).getLsbD (i % 64) =
                false := by
              rw [BitVec.getLsbD_shiftLeft]
              simp [show i % 64 < amount % 64 by omega]
            split
            · next hc =>
              have hd : (i - amount) / 64 = i / 64 - amount / 64 - 1 := by omega
              have hm : (i - amount) % 64 = 64 - amount % 64 + i % 64 := by omega
              have hge : amount ≤ i := by omega
              rw [BitVec.getLsbD_or, hlow, BitVec.getLsbD_ushiftRight, hd, hm]
              simp [hge]
            · next hc =>
              rw [hlow]
              simp [show ¬ amount ≤ i by omega]
        · rw [if_neg hw]
          simp [show ¬ amount ≤ i by omega]
      · rw [if_neg hi]
        simp [show ¬ i < 64 * l.length by omega]

/-- A right shift divides. -/
theorem value_shiftRight (l : List (BitVec 64)) (amount : ℕ) :
    value (shiftRight l amount) = value l / 2 ^ amount := by
  rw [shiftRight]
  split
  · next h => rw [h, Nat.pow_zero, Nat.div_one]
  · split
    · next h =>
      rw [value_replicate_zero, eq_comm]
      apply Nat.div_eq_of_lt
      exact Nat.lt_of_lt_of_le (value_lt l) (Nat.pow_le_pow_right (by decide) (by omega))
    · next h0 h =>
      apply value_eq_of_bits
      intro i
      rw [limb_map_range, Nat.testBit_div_two_pow, testBit_value]
      dsimp only
      by_cases hi : i / 64 < l.length
      · rw [if_pos hi]
        by_cases hb : i % 64 + amount % 64 < 64
        · have hd : (i + amount) / 64 = i / 64 + amount / 64 := by omega
          have hm : (i + amount) % 64 = amount % 64 + i % 64 := by omega
          have hlow : (limb l (i / 64 + amount / 64) >>> (amount % 64)).getLsbD (i % 64) =
              (limb l (i / 64 + amount / 64)).getLsbD (amount % 64 + i % 64) :=
            BitVec.getLsbD_ushiftRight _ _ _
          rw [hd, hm]
          split
          · split
            · next hc =>
              rw [BitVec.getLsbD_or, hlow, BitVec.getLsbD_shiftLeft]
              simp [show i % 64 < 64 - amount % 64 by omega]
            · exact hlow
          · next hc => rw [limb_of_length_le (by omega)]; simp
        · have hd : (i + amount) / 64 = i / 64 + amount / 64 + 1 := by omega
          have hm : (i + amount) % 64 = i % 64 - (64 - amount % 64) := by omega
          have hlow : (limb l (i / 64 + amount / 64) >>> (amount % 64)).getLsbD (i % 64) =
              false := by
            rw [BitVec.getLsbD_ushiftRight, BitVec.getLsbD_of_ge _ _ (by omega)]
          rw [hd, hm]
          split
          · split
            · next hc =>
              rw [BitVec.getLsbD_or, hlow, BitVec.getLsbD_shiftLeft]
              simp [show ¬ i % 64 < 64 - amount % 64 by omega, Nat.mod_lt]
            · next hc =>
              rw [hlow, limb_of_length_le (by omega)]
              simp
          · next hc =>
            rw [limb_of_length_le (by omega)]
            simp
      · rw [if_neg hi, limb_of_length_le (by omega)]
        simp

/-! ## Low bits and comparison -/

theorem limb_ne_zero_iff (x : BitVec 64) : x ≠ 0#64 ↔ ∃ j, j < 64 ∧ x.getLsbD j = true := by
  constructor
  · intro h
    by_contra hno
    refine h (BitVec.eq_of_getLsbD_eq fun j hj ↦ ?_)
    rw [BitVec.getLsbD_zero]
    by_contra hb
    exact hno ⟨j, hj, by simpa using hb⟩
  · rintro ⟨j, -, hj⟩ rfl
    simp at hj

theorem mod_two_pow_ne_zero_iff (n c : ℕ) : n % 2 ^ c ≠ 0 ↔ ∃ i, i < c ∧ n.testBit i = true := by
  constructor
  · intro h
    obtain ⟨i, hi⟩ := Nat.exists_testBit_of_ne_zero h
    rw [Nat.testBit_mod_two_pow, Bool.and_eq_true, decide_eq_true_iff] at hi
    exact ⟨i, hi⟩
  · rintro ⟨i, hi, hb⟩ h
    have := congrArg (·.testBit i) h
    simp [Nat.testBit_mod_two_pow, hi, hb] at this

/-- The sticky bit: is anything set below position `count`? -/
theorem anyLowBits_eq (l : List (BitVec 64)) (count : ℕ) :
    anyLowBits l count = decide (value l % 2 ^ count ≠ 0) := by
  have hiff : anyLowBits l count = true ↔ ∃ i, i < count ∧ (value l).testBit i = true := by
    rw [anyLowBits]
    dsimp only
    set bounded := min count (l.length * 64) with hb
    constructor
    · intro h
      split at h
      · next hany =>
        obtain ⟨x, hx, hne⟩ := List.any_eq_true.1 hany
        obtain ⟨k, hk, rfl⟩ := List.getElem_of_mem hx
        rw [List.length_take] at hk
        have hne' : (l.take (bounded / 64))[k] ≠ 0#64 := by simpa using hne
        obtain ⟨j, hj, hbit⟩ := (limb_ne_zero_iff _).1 hne'
        refine ⟨k * 64 + j, by omega, ?_⟩
        rw [testBit_value, show (k * 64 + j) / 64 = k by omega, show (k * 64 + j) % 64 = j by omega,
          limb, List.getD_eq_getElem?_getD, List.getElem?_eq_getElem (by omega), Option.getD_some]
        rwa [List.getElem_take] at hbit
      · split at h
        · next hrem =>
          have hne := by simpa using h
          obtain ⟨j, hj, hbit⟩ := (limb_ne_zero_iff _).1 hne
          rw [BitVec.getLsbD_and, Bool.and_eq_true] at hbit
          have hmask : j < bounded % 64 := by
            have hm := hbit.2
            rw [BitVec.getLsbD, BitVec.toNat_sub, BitVec.toNat_shiftLeft, Nat.shiftLeft_eq] at hm
            have hp : 2 ^ (bounded % 64) < 2 ^ 64 :=
              Nat.pow_lt_pow_right (by decide) (Nat.mod_lt _ (by decide))
            have hpos : 0 < 2 ^ (bounded % 64) := Nat.two_pow_pos _
            rw [show (2 ^ 64 - (1#64).toNat + (1#64).toNat * 2 ^ (bounded % 64) % 2 ^ 64) % 2 ^ 64 =
              2 ^ (bounded % 64) - 1 by
                rw [show (1#64).toNat = 1 from rfl, Nat.one_mul, Nat.mod_eq_of_lt hp]
                omega, Nat.testBit_two_pow_sub_one] at hm
            simpa using hm
          refine ⟨bounded / 64 * 64 + j, by omega, ?_⟩
          rw [testBit_value, show (bounded / 64 * 64 + j) / 64 = bounded / 64 by omega,
            show (bounded / 64 * 64 + j) % 64 = j by omega]
          exact hbit.1
        · cases h
    · rintro ⟨i, hi, hbit⟩
      rw [testBit_value] at hbit
      have hlen : i / 64 < l.length := by
        by_contra hno
        rw [limb_of_length_le (by omega)] at hbit
        simp at hbit
      have hget : limb l (i / 64) = l[i / 64] := by
        rw [limb, List.getD_eq_getElem?_getD, List.getElem?_eq_getElem hlen, Option.getD_some]
      have hne : limb l (i / 64) ≠ 0#64 :=
        (limb_ne_zero_iff _).2 ⟨i % 64, Nat.mod_lt _ (by decide), hbit⟩
      split
      · rfl
      · next hany =>
        have hword : i / 64 = bounded / 64 := by
          by_contra hno
          refine hany (List.any_eq_true.2 ⟨l[i / 64], ?_, by simpa [hget] using hne⟩)
          exact List.mem_take_iff_getElem.2 ⟨i / 64, by omega, rfl⟩
        have hlt : i % 64 < bounded % 64 := by omega
        rw [if_pos (by omega)]
        simp only [bne_iff_ne, ne_eq]
        refine (limb_ne_zero_iff _).2 ⟨i % 64, Nat.mod_lt _ (by decide), ?_⟩
        rw [BitVec.getLsbD_and, ← hword, hbit, Bool.true_and, BitVec.getLsbD, BitVec.toNat_sub,
          BitVec.toNat_shiftLeft, Nat.shiftLeft_eq]
        have hp : 2 ^ (bounded % 64) < 2 ^ 64 :=
          Nat.pow_lt_pow_right (by decide) (Nat.mod_lt _ (by decide))
        have hpos : 0 < 2 ^ (bounded % 64) := Nat.two_pow_pos _
        rw [show (2 ^ 64 - (1#64).toNat + (1#64).toNat * 2 ^ (bounded % 64) % 2 ^ 64) % 2 ^ 64 =
          2 ^ (bounded % 64) - 1 by
            rw [show (1#64).toNat = 1 from rfl, Nat.one_mul, Nat.mod_eq_of_lt hp]
            omega, Nat.testBit_two_pow_sub_one]
        simpa using hlt
  rw [Bool.eq_iff_iff, hiff, decide_eq_true_iff, mod_two_pow_ne_zero_iff]

theorem compare_eq {l k : List (BitVec 64)} (h : l.length = k.length) :
    compare l k = Ord.compare (value l) (value k) := by
  induction l generalizing k with
  | nil =>
    obtain rfl : k = [] := by simpa using h.symm
    rfl
  | cons x l ih =>
    cases k with
    | nil => simp at h
    | cons y k =>
      have hx := x.isLt
      have hy := y.isLt
      rw [compare, value, value, ih (by simpa using h)]
      rcases Nat.lt_trichotomy (value l) (value k) with hlt | heq | hgt
      · rw [Nat.compare_eq_lt.2 hlt, eq_comm, Nat.compare_eq_lt]
        omega
      · rw [Nat.compare_eq_eq.2 heq, heq]
        dsimp only
        split
        · next hne =>
          have hne' : x.toNat ≠ y.toNat := fun h ↦ hne (BitVec.eq_of_toNat_eq h)
          split
          · next hlt =>
            rw [BitVec.lt_def] at hlt
            rw [eq_comm, Nat.compare_eq_lt]
            omega
          · next hlt =>
            rw [BitVec.lt_def] at hlt
            rw [eq_comm, Nat.compare_eq_gt]
            omega
        · next hne =>
          have hxy : x = y := by simpa using hne
          rw [hxy, eq_comm, Nat.compare_eq_eq]
      · rw [Nat.compare_eq_gt.2 hgt, eq_comm, Nat.compare_eq_gt]
        omega

/-! ## Addition and subtraction -/

theorem length_addCarry {l k : List (BitVec 64)} (h : l.length = k.length) (c : BitVec 64) :
    (addCarry l k c).length = l.length := by
  induction l generalizing k c with
  | nil => cases k <;> rfl
  | cons x l ih =>
    cases k with
    | nil => simp at h
    | cons y k => simp only [addCarry, List.length_cons, ih (by simpa using h)]

theorem length_subBorrow {l k : List (BitVec 64)} (h : l.length = k.length) (c : BitVec 64) :
    (subBorrow l k c).length = l.length := by
  induction l generalizing k c with
  | nil => cases k <;> rfl
  | cons x l ih =>
    cases k with
    | nil => simp at h
    | cons y k => simp only [subBorrow, List.length_cons, ih (by simpa using h)]

/-- Ripple-carry addition: the digits and the carry out of the top limb are the sum. -/
theorem exists_value_addCarry {l k : List (BitVec 64)} (h : l.length = k.length) {c : BitVec 64}
    (hc : c.toNat ≤ 1) :
    ∃ q ≤ 1, value (addCarry l k c) + 2 ^ (64 * l.length) * q =
      value l + value k + c.toNat := by
  induction l generalizing k c with
  | nil =>
    obtain rfl : k = [] := by simpa using h.symm
    exact ⟨c.toNat, hc, by simp [addCarry, value]⟩
  | cons x l ih =>
    cases k with
    | nil => simp at h
    | cons y k =>
      have hx := x.isLt
      have hy := y.isLt
      simp only [addCarry, value, List.length_cons]
      set carry : BitVec 64 :=
        if decide (x + y < x) || decide (x + y + c < x + y) then 1#64 else 0#64 with hcarry
      -- the digit and the carry out together are the sum of the digits and the carry in
      have hdigit : (x + y + c).toNat + 2 ^ 64 * carry.toNat = x.toNat + y.toNat + c.toNat := by
        have h₁ : (x + y).toNat = (x.toNat + y.toNat) % 2 ^ 64 := BitVec.toNat_add _ _
        have h₂ : (x + y + c).toNat = ((x + y).toNat + c.toNat) % 2 ^ 64 := BitVec.toNat_add _ _
        rw [hcarry]
        simp only [Bool.or_eq_true, decide_eq_true_iff, BitVec.lt_def]
        split
        · rw [show (1#64).toNat = 1 from rfl]
          omega
        · rw [show (0#64).toNat = 0 from rfl]
          omega
      have hc' : carry.toNat ≤ 1 := by
        rw [hcarry]
        split <;> decide
      obtain ⟨q, hq, hrest⟩ := ih (k := k) (by simpa using h) hc'
      refine ⟨q, hq, ?_⟩
      rw [show 64 * (l.length + 1) = 64 + 64 * l.length by omega, Nat.pow_add, Nat.mul_assoc]
      omega

theorem value_addCarry_mod {l k : List (BitVec 64)} (h : l.length = k.length) {c : BitVec 64}
    (hc : c.toNat ≤ 1) :
    value (addCarry l k c) = (value l + value k + c.toNat) % 2 ^ (64 * l.length) := by
  obtain ⟨q, -, hq⟩ := exists_value_addCarry h hc
  have hlt := value_lt (addCarry l k c)
  rw [length_addCarry h] at hlt
  rw [← hq, Nat.add_mul_mod_self_left, Nat.mod_eq_of_lt hlt]

/-- Ripple-borrow subtraction: what is borrowed at the top makes up for the difference. -/
theorem exists_value_subBorrow {l k : List (BitVec 64)} (h : l.length = k.length) {c : BitVec 64}
    (hc : c.toNat ≤ 1) :
    ∃ q ≤ 1, value (subBorrow l k c) + value k + c.toNat =
      value l + 2 ^ (64 * l.length) * q := by
  induction l generalizing k c with
  | nil =>
    obtain rfl : k = [] := by simpa using h.symm
    exact ⟨c.toNat, hc, by simp [subBorrow, value]⟩
  | cons x l ih =>
    cases k with
    | nil => simp at h
    | cons y k =>
      have hx := x.isLt
      have hy := y.isLt
      simp only [subBorrow, value, List.length_cons]
      set borrow : BitVec 64 :=
        if decide (y + c < y) || decide (x < y + c) then 1#64 else 0#64 with hborrow
      have hdigit : (x - (y + c)).toNat + y.toNat + c.toNat = x.toNat + 2 ^ 64 * borrow.toNat := by
        have h₁ : (y + c).toNat = (y.toNat + c.toNat) % 2 ^ 64 := BitVec.toNat_add _ _
        have h₂ : (x - (y + c)).toNat = (2 ^ 64 - (y + c).toNat + x.toNat) % 2 ^ 64 :=
          BitVec.toNat_sub _ _
        rw [hborrow]
        simp only [Bool.or_eq_true, decide_eq_true_iff, BitVec.lt_def]
        split
        · rw [show (1#64).toNat = 1 from rfl]
          omega
        · rw [show (0#64).toNat = 0 from rfl]
          omega
      have hc' : borrow.toNat ≤ 1 := by
        rw [hborrow]
        split <;> decide
      obtain ⟨q, hq, hrest⟩ := ih (k := k) (by simpa using h) hc'
      refine ⟨q, hq, ?_⟩
      rw [show 64 * (l.length + 1) = 64 + 64 * l.length by omega, Nat.pow_add, Nat.mul_assoc]
      omega

theorem value_subBorrow_mod {l k : List (BitVec 64)} (h : l.length = k.length) {c : BitVec 64}
    (hc : c.toNat ≤ 1) : value (subBorrow l k c) =
      (value l + 2 ^ (64 * l.length) - (value k + c.toNat)) % 2 ^ (64 * l.length) := by
  obtain ⟨q, hq, hsum⟩ := exists_value_subBorrow h hc
  have hlt := value_lt (subBorrow l k c)
  rw [length_subBorrow h] at hlt
  have hk := value_lt k
  rw [← h] at hk
  obtain rfl | rfl : q = 0 ∨ q = 1 := by omega
  · rw [show value l + 2 ^ (64 * l.length) - (value k + c.toNat) =
      value (subBorrow l k c) + 2 ^ (64 * l.length) by omega, Nat.add_mod_right,
      Nat.mod_eq_of_lt hlt]
  · rw [show value l + 2 ^ (64 * l.length) - (value k + c.toNat) = value (subBorrow l k c) by omega,
      Nat.mod_eq_of_lt hlt]

/-- Setting a bit: the bit of the number is set, or nothing happens beyond the width. -/
theorem value_setBit (l : List (BitVec 64)) (i : ℕ) :
    value (setBit l i) = if i < 64 * l.length then value l ||| 2 ^ i else value l := by
  split
  · next hi =>
    refine Nat.eq_of_testBit_eq fun j ↦ ?_
    rw [testBit_setBit (by omega), Nat.testBit_or, Nat.testBit_two_pow, decide_eq_decide.2 eq_comm]
  · next hi => rw [setBit, if_neg (by omega)]

end Limbs
