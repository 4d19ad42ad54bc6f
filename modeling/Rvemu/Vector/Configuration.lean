import Mathlib.Tactic.Common
import Mathlib.Algebra.Group.Nat.Defs

/-!
# Vector configurations

The decoding of `vtype` for VLEN = 256 and ELEN = 64, the choice of `vl` and the effective
configuration of a vector access whose element width differs from SEW.
-/

set_option autoImplicit false

namespace Rvemu

def vectorLengthBits : ℕ := 256

def vtypeVill : BitVec 64 := 1#64 <<< 63

def vtypeImplementedMask : BitVec 64 := 0xFF#64

def maximumElementLengthBits : ℕ := 64

/-- A decoded `vtype`; the default value is the illegal configuration. -/
structure VectorConfiguration where
  valid : Bool := false
  vtype : BitVec 64 := vtypeVill
  sewBits : ℕ := 0
  lmulNumerator : ℕ := 0
  lmulDenominator : ℕ := 1
  vlmax : ℕ := 0
  deriving DecidableEq, Repr

/-- LMUL as numerator and denominator; the encoding 4 is reserved. -/
def decodeLmul (encoding : BitVec 3) : Option (ℕ × ℕ) :=
  if encoding = 0#3 then some (1, 1)
  else if encoding = 1#3 then some (2, 1)
  else if encoding = 2#3 then some (4, 1)
  else if encoding = 3#3 then some (8, 1)
  else if encoding = 5#3 then some (1, 8)
  else if encoding = 6#3 then some (1, 4)
  else if encoding = 7#3 then some (1, 2)
  else none

/-- The configuration of a given SEW encoding and LMUL, if it is supported. -/
def configurationOf (vtype : BitVec 64) (vsew : BitVec 3) (lmul : Option (ℕ × ℕ)) :
    VectorConfiguration :=
  if vsew > 3#3 then {}
  else
    let sewBits := 8 <<< vsew.toNat
    match lmul with
    | none => {}
    | some (numerator, denominator) =>
      if sewBits > maximumElementLengthBits * numerator / denominator then {}
      else
        let vlmax := vectorLengthBits / sewBits * numerator / denominator
        if vlmax = 0 then {}
        else
          { valid := true, vtype, sewBits, lmulNumerator := numerator,
            lmulDenominator := denominator, vlmax }

def decodeVectorConfiguration (vtype : BitVec 64) : VectorConfiguration :=
  if (vtype &&& vtypeVill) != 0#64 || (vtype &&& ~~~vtypeImplementedMask) != 0#64 then {}
  else configurationOf vtype (vtype.extractLsb' 3 3) (decodeLmul (vtype.extractLsb' 0 3))

def selectVectorLength (applicationVectorLength : BitVec 64) (vlmax : ℕ) : BitVec 64 :=
  if vlmax = 0 then 0#64
  else if applicationVectorLength.toNat < vlmax then applicationVectorLength
  else BitVec.ofNat 64 vlmax

def canPreserveVectorLength (previousVtype requestedVtype : BitVec 64) : Bool :=
  let previous := decodeVectorConfiguration previousVtype
  let requested := decodeVectorConfiguration requestedVtype
  previous.valid && requested.valid && previous.vlmax == requested.vlmax

/-- Halve both while both are even; 64-bit values allow at most 64 rounds. -/
def reduceFraction (numerator denominator : ℕ) : ℕ → ℕ × ℕ
  | 0 => (numerator, denominator)
  | rounds + 1 =>
    if numerator % 2 = 0 ∧ denominator % 2 = 0 then
      reduceFraction (numerator / 2) (denominator / 2) rounds
    else (numerator, denominator)

def supportedLmul (lmul : ℕ × ℕ) : Bool :=
  [0#3, 1#3, 2#3, 3#3, 4#3, 5#3, 6#3, 7#3].any fun encoding ↦ decodeLmul encoding == some lmul

def deriveMemoryConfiguration (current : VectorConfiguration) (elementWidthBits : ℕ) :
    Option VectorConfiguration :=
  if !current.valid || elementWidthBits < 8 || elementWidthBits > 64
      || (elementWidthBits &&& (elementWidthBits - 1)) != 0 then none
  else
    let lmul := reduceFraction (current.lmulNumerator * elementWidthBits)
      (current.lmulDenominator * current.sewBits) 64
    if !supportedLmul lmul then none
    else
      some
        { valid := true, vtype := current.vtype, sewBits := elementWidthBits,
          lmulNumerator := lmul.1, lmulDenominator := lmul.2, vlmax := current.vlmax }

/-! ## Legal configurations -/

/-- The combinations of SEW and LMUL that exist. -/
structure VectorConfiguration.Legal (c : VectorConfiguration) : Prop where
  valid : c.valid = true
  sew : c.sewBits = 8 ∨ c.sewBits = 16 ∨ c.sewBits = 32 ∨ c.sewBits = 64
  lmul : (c.lmulNumerator, c.lmulDenominator) ∈
    [(1, 1), (2, 1), (4, 1), (8, 1), (1, 8), (1, 4), (1, 2)]
  vlmax : c.vlmax = vectorLengthBits / c.sewBits * c.lmulNumerator / c.lmulDenominator
  pos : 0 < c.vlmax

theorem decodeLmul_mem {encoding : BitVec 3} {lmul : ℕ × ℕ} (h : decodeLmul encoding = some lmul) :
    lmul ∈ [(1, 1), (2, 1), (4, 1), (8, 1), (1, 8), (1, 4), (1, 2)] := by
  have hall : ∀ e : BitVec 3, ∀ l ∈ decodeLmul e,
      l ∈ [(1, 1), (2, 1), (4, 1), (8, 1), (1, 8), (1, 4), (1, 2)] := by decide
  exact hall encoding lmul h

theorem configurationOf_cases (vtype : BitVec 64) (vsew : BitVec 3) (e : BitVec 3) :
    configurationOf vtype vsew (decodeLmul e) = {} ∨
      ((configurationOf vtype vsew (decodeLmul e)).Legal ∧
        (configurationOf vtype vsew (decodeLmul e)).vtype = vtype) := by
  rw [configurationOf]
  split
  · exact Or.inl rfl
  · next hsew =>
    have hbits : 8 <<< vsew.toNat = 8 ∨ 8 <<< vsew.toNat = 16 ∨ 8 <<< vsew.toNat = 32 ∨
        8 <<< vsew.toNat = 64 := by
      revert hsew
      revert vsew
      decide
    cases hl : decodeLmul e with
    | none => exact Or.inl rfl
    | some lmul =>
      obtain ⟨n, d⟩ := lmul
      dsimp only
      split
      · exact Or.inl rfl
      · split
        · exact Or.inl rfl
        · next hpos =>
          exact Or.inr ⟨⟨rfl, hbits, decodeLmul_mem hl, rfl, Nat.pos_of_ne_zero hpos⟩, rfl⟩

/-- Decoding gives the illegal configuration, or a legal one with the `vtype` it was given. -/
theorem decodeVectorConfiguration_cases (vtype : BitVec 64) :
    decodeVectorConfiguration vtype = {} ∨
      ((decodeVectorConfiguration vtype).Legal ∧
        (decodeVectorConfiguration vtype).vtype = vtype) := by
  rw [decodeVectorConfiguration]
  split
  · exact Or.inl rfl
  · exact configurationOf_cases _ _ _

theorem legal_of_valid {vtype : BitVec 64}
    (h : (decodeVectorConfiguration vtype).valid = true) :
    (decodeVectorConfiguration vtype).Legal ∧ (decodeVectorConfiguration vtype).vtype = vtype := by
  rcases decodeVectorConfiguration_cases vtype with he | hl
  · rw [he] at h
    cases h
  · exact hl

theorem VectorConfiguration.Legal.vlmax_le {c : VectorConfiguration} (h : c.Legal) :
    c.vlmax ≤ 256 := by
  rw [h.vlmax]
  have hl := h.lmul
  simp only [List.mem_cons, Prod.mk.injEq, List.mem_nil_iff, or_false] at hl
  rcases h.sew with hs | hs | hs | hs <;> rw [hs] <;>
    rcases hl with ⟨hn, hd⟩ | ⟨hn, hd⟩ | ⟨hn, hd⟩ | ⟨hn, hd⟩ | ⟨hn, hd⟩ | ⟨hn, hd⟩ | ⟨hn, hd⟩ <;>
      rw [hn, hd] <;> decide

/-! ## Effective configurations -/

theorem elementWidth_cases {w : ℕ} (h8 : 8 ≤ w) (h64 : w ≤ 64) (hpow : w &&& (w - 1) = 0) :
    w = 8 ∨ w = 16 ∨ w = 32 ∨ w = 64 := by
  have hall : ∀ w ≤ 64, 8 ≤ w → w &&& (w - 1) = 0 → w = 8 ∨ w = 16 ∨ w = 32 ∨ w = 64 := by decide
  exact hall w h64 h8 hpow

/-- EMUL in lowest terms, as far as halving gets it there. -/
def effectiveLmul (current : VectorConfiguration) (elementWidthBits : ℕ) : ℕ × ℕ :=
  reduceFraction (current.lmulNumerator * elementWidthBits)
    (current.lmulDenominator * current.sewBits) 64

/-- An access has an effective configuration when its element width and its EMUL exist. -/
theorem deriveMemoryConfiguration_eq_some_iff {c c' : VectorConfiguration} {width : ℕ} :
    deriveMemoryConfiguration c width = some c' ↔
      c.valid = true ∧ (width = 8 ∨ width = 16 ∨ width = 32 ∨ width = 64) ∧
        supportedLmul (effectiveLmul c width) = true ∧
        c' = { valid := true, vtype := c.vtype, sewBits := width,
               lmulNumerator := (effectiveLmul c width).1,
               lmulDenominator := (effectiveLmul c width).2, vlmax := c.vlmax } := by
  rw [deriveMemoryConfiguration, ← effectiveLmul]
  constructor
  · intro h
    split at h
    · cases h
    · next hwidth =>
      simp only [Bool.or_eq_true, Bool.not_eq_true', decide_eq_true_eq, bne_iff_ne, not_or,
        Bool.not_eq_false, Nat.not_lt, not_not] at hwidth
      obtain ⟨⟨⟨hvalid, h8⟩, h64⟩, hpow⟩ := hwidth
      dsimp only at h
      split at h
      · cases h
      · next hsupported =>
        rw [Bool.not_eq_true, Bool.not_eq_false'] at hsupported
        exact ⟨hvalid, elementWidth_cases h8 h64 hpow, hsupported, (Option.some.inj h).symm⟩
  · rintro ⟨hvalid, hwidth, hsupported, rfl⟩
    have hchecks : (!c.valid || decide (width < 8) || decide (width > 64) ||
        (width &&& (width - 1)) != 0) = false := by
      rw [hvalid]
      rcases hwidth with rfl | rfl | rfl | rfl <;> rfl
    simp [hchecks, hsupported]

/-- The effective LMUL keeps the elements in their registers: VLMAX is the one that EEW and EMUL
have. -/
theorem vlmax_effectiveLmul :
    ∀ sew ∈ [8, 16, 32, 64],
      ∀ lmul ∈ [(1, 1), (2, 1), (4, 1), (8, 1), (1, 8), (1, 4), (1, 2)],
        ∀ width ∈ [8, 16, 32, 64],
          let derived := reduceFraction (lmul.1 * width) (lmul.2 * sew) 64
          let vlmax := vectorLengthBits / sew * lmul.1 / lmul.2
          0 < vlmax → supportedLmul derived = true →
            derived ∈ [(1, 1), (2, 1), (4, 1), (8, 1), (1, 8), (1, 4), (1, 2)] ∧
              vlmax = vectorLengthBits / width * derived.1 / derived.2 := by
  decide

/-- An effective configuration is one that exists. -/
theorem VectorConfiguration.Legal.derive {c c' : VectorConfiguration} (h : c.Legal) {width : ℕ}
    (hderive : deriveMemoryConfiguration c width = some c') : c'.Legal := by
  obtain ⟨-, hwidth, hsupported, rfl⟩ := deriveMemoryConfiguration_eq_some_iff.1 hderive
  have hpos := h.pos
  rw [h.vlmax] at hpos
  obtain ⟨hlmul, hvlmax⟩ := vlmax_effectiveLmul c.sewBits (by simpa using h.sew) _ h.lmul width
    (by simpa using hwidth) hpos hsupported
  exact ⟨rfl, hwidth, hlmul, h.vlmax.trans hvlmax, h.pos⟩

/-- The chosen `vl` fits. -/
theorem selectVectorLength_le (avl : BitVec 64) {vlmax : ℕ} (h : vlmax ≤ 256) :
    (selectVectorLength avl vlmax).toNat ≤ vlmax := by
  rw [selectVectorLength]
  split
  · simp
  · split
    · omega
    · rw [BitVec.toNat_ofNat]
      omega

end Rvemu
