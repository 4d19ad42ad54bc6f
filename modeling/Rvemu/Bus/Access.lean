import Mathlib.Tactic.Common
import Mathlib.Algebra.Group.Nat.Defs

/-!
# Physical accesses and address ranges

The vocabulary every bus master and every region shares: access widths and sources, structured
errors, the one result type of reads, writes and compare-exchanges, the reservation token of LR/SC,
and the half-open address range a region occupies.
-/

set_option autoImplicit false

namespace Rvemu

/-- The four access widths of the physical bus. -/
inductive AccessWidth
  | byte | halfWord | word | doubleWord
  deriving DecidableEq, Repr

def widthInBytes : AccessWidth → ℕ
  | .byte => 1
  | .halfWord => 2
  | .word => 4
  | .doubleWord => 8

theorem widthInBytes_pos (w : AccessWidth) : 0 < widthInBytes w := by cases w <;> decide

theorem widthInBytes_le (w : AccessWidth) : widthInBytes w ≤ 8 := by cases w <;> decide

theorem toNat_widthInBytes (w : AccessWidth) :
    (BitVec.ofNat 64 (widthInBytes w)).toNat = widthInBytes w := by cases w <;> rfl

/-- Who is accessing the bus and why. -/
inductive AccessType
  | instructionFetch | load | store | atomic | dmaRead | dmaWrite | initialization
  deriving DecidableEq, Repr

inductive BusErrorCode
  | none | invalidWidth | addressOverflow | unmapped | outOfBounds | readOnly | regionOverlap
  | invalidRegion | backendFailure
  deriving DecidableEq, Repr

structure BusError where
  code : BusErrorCode := .none
  address : BitVec 64 := 0#64
  length : BitVec 64 := 0#64
  region : String := ""
  detail : String := ""
  deriving DecidableEq, Repr

/-- The result of a read, a write or a compare-exchange: a read returns `value`, an atomic operation
also returns `exchanged`. -/
structure AccessResult where
  error : BusError := {}
  value : BitVec 64 := 0#64
  exchanged : Bool := false
  deriving DecidableEq, Repr

namespace AccessResult

def ok (r : AccessResult) : Bool := r.error.code == .none

def success (value : BitVec 64 := 0#64) (exchanged : Bool := false) : AccessResult :=
  { value, exchanged }

def failure (error : BusError) : AccessResult := { error }

@[simp] theorem ok_success (v : BitVec 64) (e : Bool) : (success v e).ok = true := rfl

@[simp] theorem value_success (v : BitVec 64) (e : Bool) : (success v e).value = v := rfl

@[simp] theorem exchanged_success (v : BitVec 64) (e : Bool) : (success v e).exchanged = e := rfl

theorem ok_failure (e : BusError) : (failure e).ok = (e.code == .none) := rfl

end AccessResult

/-- Ties an LR to a later SC; the zero value never names a reservation. -/
structure ReservationToken where
  value : BitVec 64 := 0#64
  deriving DecidableEq, Repr

def ReservationToken.valid (t : ReservationToken) : Bool := t.value != 0#64

structure LoadReservedResult where
  access : AccessResult
  token : ReservationToken
  deriving DecidableEq, Repr

/-! ## Address ranges -/

/-- A non-empty half-open range whose exclusive end is still a 64-bit number. -/
structure AddressRange where
  base : BitVec 64
  size : BitVec 64
  size_pos : 0 < size.toNat
  fits : base.toNat + size.toNat < 2 ^ 64

namespace AddressRange

/-- The checked constructor: the range that covers the last address of the space is refused too. -/
def create (base size : BitVec 64) : Option AddressRange :=
  if hz : size = 0#64 then none
  else if hb : base > BitVec.allOnes 64 - size then none
  else some
    { base, size
      size_pos := by
        rcases Nat.eq_zero_or_pos size.toNat with h | h
        · exact absurd (BitVec.eq_of_toNat_eq (by simpa using h)) hz
        · exact h
      fits := by
        have h₁ : size.toNat < 2 ^ 64 := size.isLt
        have h₂ : ¬ (BitVec.allOnes 64 - size).toNat < base.toNat := hb
        rw [BitVec.toNat_sub, BitVec.toNat_allOnes] at h₂
        omega }

def endExclusive (r : AddressRange) : BitVec 64 := r.base + r.size

def contains (r : AddressRange) (address : BitVec 64) : Bool :=
  r.base ≤ address && address < r.endExclusive

/-- The range holds all of `length` bytes from `address`; the remaining room is computed by a
subtraction so that nothing can wrap. -/
def containsSpan (r : AddressRange) (address length : BitVec 64) : Bool :=
  if length = 0#64 || !r.contains address then false
  else length ≤ r.endExclusive - address

def overlaps (r other : AddressRange) : Bool :=
  r.base < other.endExclusive && other.base < r.endExclusive

def offsetOf (r : AddressRange) (address : BitVec 64) : BitVec 64 := address - r.base

theorem toNat_endExclusive (r : AddressRange) :
    r.endExclusive.toNat = r.base.toNat + r.size.toNat := by
  rw [endExclusive, BitVec.toNat_add, Nat.mod_eq_of_lt r.fits]

/-! The bounds of the small ranges at the bottom of the address space. -/

theorem pos_four : 0 < (4#64).toNat := by decide

theorem pos_eight : 0 < (8#64).toNat := by decide

theorem pos_sixteen : 0 < (16#64).toNat := by decide

theorem fits_four : (0#64).toNat + (4#64).toNat < 2 ^ 64 := by decide

theorem fits_sixteen : (0#64).toNat + (16#64).toNat < 2 ^ 64 := by decide

theorem contains_iff (r : AddressRange) (a : BitVec 64) :
    r.contains a = true ↔
      r.base.toNat ≤ a.toNat ∧ a.toNat < r.base.toNat + r.size.toNat := by
  rw [contains, Bool.and_eq_true, decide_eq_true_iff, decide_eq_true_iff, BitVec.le_def,
    BitVec.lt_def, toNat_endExclusive]

theorem containsSpan_iff_of_pos (r : AddressRange) (a : BitVec 64) {length : BitVec 64}
    (hpos : 0 < length.toNat) : r.containsSpan a length = true ↔
      r.base.toNat ≤ a.toNat ∧ a.toNat + length.toNat ≤ r.base.toNat + r.size.toNat := by
  have hne : length ≠ 0#64 := by
    rintro rfl
    exact absurd hpos (by decide)
  have hfit := r.fits
  rw [containsSpan]
  by_cases hc : r.contains a = true
  · have hc' := (contains_iff r a).1 hc
    rw [if_neg (by simp [hne, hc]), decide_eq_true_iff, BitVec.le_def, BitVec.toNat_sub,
      toNat_endExclusive]
    omega
  · have hc' : ¬ _ := fun h ↦ hc ((contains_iff r a).2 h)
    rw [if_pos (by simp [hc])]
    simp only [Bool.false_eq_true, false_iff]
    omega

theorem containsSpan_iff (r : AddressRange) (a : BitVec 64) (w : AccessWidth) :
    r.containsSpan a (BitVec.ofNat 64 (widthInBytes w)) = true ↔
      r.base.toNat ≤ a.toNat ∧ a.toNat + widthInBytes w ≤ r.base.toNat + r.size.toNat := by
  rw [containsSpan_iff_of_pos r a (by rw [toNat_widthInBytes]; exact widthInBytes_pos w),
    toNat_widthInBytes]

theorem toNat_offsetOf (r : AddressRange) {a : BitVec 64} (h : r.base.toNat ≤ a.toNat) :
    (r.offsetOf a).toNat = a.toNat - r.base.toNat := by
  rw [offsetOf, BitVec.toNat_sub]
  have := a.isLt
  omega

end AddressRange

end Rvemu
