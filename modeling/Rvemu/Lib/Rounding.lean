import Mathlib.Algebra.Order.Field.Power
import Mathlib.Algebra.Order.AbsoluteValue.Basic
import Mathlib.Order.WithBot
import Mathlib.Tactic.Linarith
import Mathlib.Tactic.Ring
import Mathlib.Data.Int.ConditionallyCompleteOrder
import Mathlib.Order.WithBotTop

/-!
# Rounding to floating-point numbers

The rounding directions of IEEE 754, as relations between a number and a member of a set of
representable numbers, and the sets they are used with: the numbers of a given precision, with or
without a least exponent.

A number is rounded by finding its two neighbours in the set.  `Bracket` says what these are, and
`Bracket.isRounding` which of them each mode picks; `Grid.bracket` finds them among the multiples of
a power of two.
-/

set_option autoImplicit false

namespace Rounding

inductive Mode
  | nearestEven | nearestAway | towardZero | down | up
  deriving DecidableEq, Repr

/-- The mode that rounds `-x` to `-y` if this one rounds `x` to `y`. -/
def Mode.negate : Mode → Mode
  | nearestEven => nearestEven
  | nearestAway => nearestAway
  | towardZero => towardZero
  | down => up
  | up => down

@[simp] theorem Mode.negate_negate (mode : Mode) : mode.negate.negate = mode := by
  cases mode <;> rfl

section Definition

variable {K : Type*} [Field K] [LinearOrder K] (S : Set K) (even : K → Prop)

/-- No member of `S` is closer to `x`. -/
def Nearest (x y : K) : Prop := y ∈ S ∧ ∀ z ∈ S, |x - y| ≤ |x - z|

/-- `x` rounds to `y` among the members of `S`; `even` are those with an even last digit. -/
def IsRounding (x y : K) : Mode → Prop
  | .nearestEven => Nearest S x y ∧ ∀ z ∈ S, z ≠ y → |x - z| = |x - y| → even y
  | .nearestAway => Nearest S x y ∧ ∀ z ∈ S, |x - z| = |x - y| → |z| ≤ |y|
  | .towardZero => y ∈ S ∧ |y| ≤ |x| ∧ ∀ z ∈ S, |z| ≤ |x| → |x - y| ≤ |x - z|
  | .down => y ∈ S ∧ y ≤ x ∧ ∀ z ∈ S, z ≤ x → z ≤ y
  | .up => y ∈ S ∧ x ≤ y ∧ ∀ z ∈ S, x ≤ z → y ≤ z

end Definition

/-! ## Negation -/

theorem abs_neg_sub_neg {K : Type*} [Field K] [LinearOrder K] (x y : K) :
    |-x - -y| = |x - y| := by
  rw [← abs_neg, neg_sub_neg, neg_sub]

theorem Nearest.neg {K : Type*} [Field K] [LinearOrder K] {S : Set K} {x y : K}
    (hS : ∀ z ∈ S, -z ∈ S) (h : Nearest S x y) : Nearest S (-x) (-y) := by
  refine ⟨hS y h.1, fun z hz ↦ ?_⟩
  have hle := h.2 (-z) (hS z hz)
  rwa [← abs_neg_sub_neg x y, ← abs_neg_sub_neg x (-z), neg_neg] at hle

section Order

variable {K : Type*} [Field K] [LinearOrder K] [IsStrictOrderedRing K] {S : Set K}
  {even : K → Prop} {x y a b : K}

/-- Rounding the opposite of a number. -/
theorem IsRounding.neg (hS : ∀ z ∈ S, -z ∈ S) (heven : ∀ z, even z → even (-z)) {mode : Mode}
    (h : IsRounding S even x y mode) : IsRounding S even (-x) (-y) mode.negate := by
  have hback : ∀ z, |-x - z| = |x - -z| := by
    intro z
    rw [← abs_neg_sub_neg x (-z), neg_neg]
  cases mode with
  | nearestEven =>
    refine ⟨h.1.neg hS, fun z hz hne heq ↦ heven y (h.2 (-z) (hS z hz) ?_ ?_)⟩
    · rintro rfl
      exact hne (neg_neg z).symm
    · rwa [hback, abs_neg_sub_neg] at heq
  | nearestAway =>
    refine ⟨h.1.neg hS, fun z hz heq ↦ ?_⟩
    rw [hback, abs_neg_sub_neg] at heq
    have hle := h.2 (-z) (hS z hz) heq
    rwa [abs_neg] at hle ⊢
  | towardZero =>
    refine ⟨hS y h.1, by rw [abs_neg, abs_neg]; exact h.2.1, fun z hz hle ↦ ?_⟩
    rw [abs_neg_sub_neg, hback]
    exact h.2.2 (-z) (hS z hz) (by rwa [abs_neg] at hle ⊢)
  | down =>
    refine ⟨hS y h.1, neg_le_neg h.2.1, fun z hz hle ↦ ?_⟩
    have := h.2.2 (-z) (hS z hz) (by linarith)
    linarith
  | up =>
    refine ⟨hS y h.1, neg_le_neg h.2.1, fun z hz hle ↦ ?_⟩
    have := h.2.2 (-z) (hS z hz) (by linarith)
    linarith

/-! ## Neighbours -/

/-- `a` and `b` are the members of `S` next to `x`. -/
structure Bracket (S : Set K) (x a b : K) : Prop where
  lower_mem : a ∈ S
  upper_mem : b ∈ S
  nonneg : 0 ≤ a
  le : a ≤ x
  lt : x < b
  gap : ∀ z ∈ S, z ≤ a ∨ b ≤ z

/-- Where a number lies between its neighbours. -/
inductive Position
  | exact | below | half | above
  deriving DecidableEq, Repr

def Located (x a b : K) : Position → Prop
  | .exact => x = a
  | .below => a < x ∧ 2 * x < a + b
  | .half => 2 * x = a + b
  | .above => a + b < 2 * x

/-- Does the mode pick the upper neighbour?  `lowerOdd` is the parity of the lower one. -/
def Mode.increments (position : Position) (lowerOdd : Bool) : Mode → Bool
  | nearestEven => position = .above || (position = .half && lowerOdd)
  | nearestAway => position = .above || position = .half
  | towardZero | down => false
  | up => position ≠ .exact

/-- A member of `S` rounds to itself. -/
theorem isRounding_self (hx : x ∈ S) (mode : Mode) : IsRounding S even x x mode := by
  have hnearest : Nearest S x x := by
    refine ⟨hx, fun z _ ↦ ?_⟩
    rw [sub_self, abs_zero]
    exact abs_nonneg _
  have hzero : ∀ z, |x - z| = |x - x| → z = x := by
    intro z hz
    rw [sub_self, abs_zero, abs_eq_zero, sub_eq_zero] at hz
    exact hz.symm
  cases mode with
  | nearestEven => exact ⟨hnearest, fun z _ hne hz ↦ absurd (hzero z hz) hne⟩
  | nearestAway => exact ⟨hnearest, fun z _ hz ↦ by rw [hzero z hz]⟩
  | towardZero => exact ⟨hx, le_refl _, fun z hz _ ↦ hnearest.2 z hz⟩
  | down => exact ⟨hx, le_refl _, fun _ _ hz ↦ hz⟩
  | up => exact ⟨hx, le_refl _, fun _ _ hz ↦ hz⟩

/-- Rounding does not pass a member of `S`. -/
theorem IsRounding.le_of_le {mode : Mode} (h : IsRounding S even x y mode) (hx : 0 ≤ x) {z : K}
    (hz : z ∈ S) (hxz : x ≤ z) : y ≤ z := by
  have hnearest : Nearest S x y → y ≤ z := by
    rintro ⟨-, hnear⟩
    have hle := hnear z hz
    by_contra hlt
    rw [abs_of_nonpos (by linarith), abs_of_nonpos (by linarith)] at hle
    linarith
  cases mode with
  | nearestEven => exact hnearest h.1
  | nearestAway => exact hnearest h.1
  | towardZero =>
    have hle := h.2.1
    rw [abs_of_nonneg hx] at hle
    exact (le_abs_self y).trans (hle.trans hxz)
  | down => exact h.2.1.trans hxz
  | up => exact h.2.2 z hz hxz

theorem IsRounding.ge_of_ge {mode : Mode} (h : IsRounding S even x y mode) {z : K} (hz : z ∈ S)
    (hnonneg : 0 ≤ z) (hzx : z ≤ x) : z ≤ y := by
  have hnearest : (|x - y| ≤ |x - z|) → z ≤ y := by
    intro hle
    by_contra hlt
    rw [abs_of_nonneg (by linarith), abs_of_nonneg (by linarith)] at hle
    linarith
  cases mode with
  | nearestEven => exact hnearest (h.1.2 z hz)
  | nearestAway => exact hnearest (h.1.2 z hz)
  | towardZero =>
    refine hnearest (h.2.2 z hz ?_)
    rwa [abs_of_nonneg hnonneg, abs_of_nonneg (hnonneg.trans hzx)]
  | down => exact h.2.2 z hz hzx
  | up => exact hzx.trans h.2.1

/-- A member of `S` is its own rounding. -/
theorem IsRounding.eq_of_mem {mode : Mode} (h : IsRounding S even x y mode) (hx : x ∈ S) :
    y = x := by
  have hnearest : |x - y| ≤ |x - x| → y = x := by
    intro hle
    rw [sub_self, abs_zero] at hle
    exact (sub_eq_zero.1 (abs_nonpos_iff.1 hle)).symm
  cases mode with
  | nearestEven => exact hnearest (h.1.2 x hx)
  | nearestAway => exact hnearest (h.1.2 x hx)
  | towardZero => exact hnearest (h.2.2 x hx le_rfl)
  | down => exact le_antisymm h.2.1 (h.2.2 x hx le_rfl)
  | up => exact le_antisymm (h.2.2 x hx le_rfl) h.2.1

/-- Rounding keeps the order of two numbers. -/
theorem IsRounding.mono {mode : Mode} {x' y' : K} (hzero : 0 ∈ S) (h : IsRounding S even x y mode)
    (h' : IsRounding S even x' y' mode) (hlt : x < x') : y ≤ y' := by
  -- if `y' < y`, then `x` is above their midpoint and `x'` below it
  have hnearest : |x - y| ≤ |x - y'| → |x' - y'| ≤ |x' - y| → y ≤ y' := by
    intro hle hle'
    by_contra hgt
    have hsquares := add_le_add (sq_le_sq.2 hle) (sq_le_sq.2 hle')
    have hproduct := mul_pos (sub_pos.2 hlt) (sub_pos.2 (not_le.1 hgt))
    linarith
  cases mode with
  | nearestEven => exact hnearest (h.1.2 y' h'.1.1) (h'.1.2 y h.1.1)
  | nearestAway => exact hnearest (h.1.2 y' h'.1.1) (h'.1.2 y h.1.1)
  | towardZero =>
    obtain ⟨hy, hle, hnear⟩ := h
    obtain ⟨hy', hle', hnear'⟩ := h'
    rcases le_or_gt 0 x with hx | hx
    · rw [abs_of_nonneg hx] at hle
      rw [abs_of_pos (hx.trans_lt hlt)] at hle' hnear'
      have hcloser := hnear' y hy (hle.trans hlt.le)
      rw [abs_of_nonneg (sub_nonneg.2 ((le_abs_self y').trans hle')),
        abs_of_nonneg (sub_nonneg.2 ((le_abs_self y).trans (hle.trans hlt.le)))] at hcloser
      linarith
    · have hbelow : y ≤ 0 := by
        have hcloser := (le_abs_self _).trans ((abs_sub_comm y x).le.trans
          (hnear 0 hzero (by rw [abs_zero]; exact abs_nonneg x)))
        rw [sub_zero, abs_of_neg hx] at hcloser
        linarith
      rcases le_or_gt 0 x' with hx' | hx'
      · have habove : 0 ≤ y' := by
          have hcloser := (le_abs_self _).trans
            (hnear' 0 hzero (by rw [abs_zero]; exact abs_nonneg x'))
          rw [sub_zero, abs_of_nonneg hx'] at hcloser
          linarith
        exact hbelow.trans habove
      · rw [abs_of_neg hx] at hle hnear
        rw [abs_of_neg hx'] at hle'
        have hbound := neg_le_of_abs_le hle
        have hbound' := neg_le_of_abs_le hle'
        have hcloser := hnear y' hy' (hle'.trans (neg_le_neg hlt.le))
        rw [abs_of_nonpos (by linarith), abs_of_nonpos (by linarith)] at hcloser
        linarith
  | down => exact h'.2.2 y h.1 (h.2.1.trans hlt.le)
  | up => exact h.2.2 y' h'.1 (hlt.le.trans h'.2.1)

namespace Bracket

variable (h : Bracket S x a b)

include h

/-- Every member of `S` is at least as far away as the neighbour on its side. -/
theorem distance {z : K} (hz : z ∈ S) :
    (z ≤ a ∧ x - a ≤ |x - z|) ∨ (b ≤ z ∧ b - x ≤ |x - z|) := by
  have := h.le
  have := h.lt
  rcases h.gap z hz with hle | hle
  · exact Or.inl ⟨hle, le_trans (by linarith) (le_abs_self _)⟩
  · exact Or.inr ⟨hle, le_trans (by linarith) (neg_le_abs _)⟩

theorem abs_sub_lower : |x - a| = x - a := abs_of_nonneg (sub_nonneg.2 h.le)

theorem abs_sub_upper : |x - b| = b - x := by
  rw [abs_sub_comm]
  exact abs_of_nonneg (sub_nonneg.2 h.lt.le)

theorem nearest_lower (hle : 2 * x ≤ a + b) : Nearest S x a := by
  refine ⟨h.lower_mem, fun z hz ↦ ?_⟩
  rw [h.abs_sub_lower]
  rcases h.distance hz with ⟨-, hd⟩ | ⟨-, hd⟩
  · exact hd
  · linarith

theorem nearest_upper (hle : a + b ≤ 2 * x) : Nearest S x b := by
  refine ⟨h.upper_mem, fun z hz ↦ ?_⟩
  rw [h.abs_sub_upper]
  rcases h.distance hz with ⟨-, hd⟩ | ⟨-, hd⟩
  · linarith
  · exact hd

/-- A member of `S` that is as far away as the lower neighbour is that neighbour or above. -/
theorem eq_lower {z : K} (hz : z ∈ S) (heq : |x - z| = |x - a|) : z = a ∨ b ≤ z := by
  rw [h.abs_sub_lower] at heq
  rcases h.distance hz with ⟨hle, -⟩ | ⟨hle, -⟩
  · refine Or.inl ?_
    rw [abs_of_nonneg (by linarith [h.le])] at heq
    linarith
  · exact Or.inr hle

theorem eq_upper {z : K} (hz : z ∈ S) (heq : |x - z| = |x - b|) : z = b ∨ z ≤ a := by
  rw [h.abs_sub_upper] at heq
  rcases h.distance hz with ⟨hle, -⟩ | ⟨hle, -⟩
  · exact Or.inr hle
  · refine Or.inl ?_
    rw [abs_of_nonpos (by linarith [h.lt])] at heq
    linarith

theorem isRounding_nearestEven {position : Position} (hp : Located x a b position)
    (hne : position ≠ .exact) {lowerOdd : Bool} (heven : even (if lowerOdd then b else a)) :
    IsRounding S even x (if Mode.nearestEven.increments position lowerOdd then b else a)
      .nearestEven := by
  have hlt := h.lt
  cases position with
  | exact => exact absurd rfl hne
  | below =>
    show IsRounding S even x a .nearestEven
    refine ⟨h.nearest_lower hp.2.le, fun z hz hza heq ↦ ?_⟩
    rcases h.eq_lower hz heq with rfl | hle
    · exact absurd rfl hza
    · rw [h.abs_sub_lower, abs_of_nonpos (by linarith)] at heq
      linarith [hp.2]
  | half =>
    have hhalf : 2 * x = a + b := hp
    cases lowerOdd with
    | false => exact ⟨h.nearest_lower hhalf.le, fun _ _ _ _ ↦ heven⟩
    | true => exact ⟨h.nearest_upper hhalf.ge, fun _ _ _ _ ↦ heven⟩
  | above =>
    have habove : a + b < 2 * x := hp
    show IsRounding S even x b .nearestEven
    refine ⟨h.nearest_upper habove.le, fun z hz hzb heq ↦ ?_⟩
    rcases h.eq_upper hz heq with rfl | hle
    · exact absurd rfl hzb
    · rw [h.abs_sub_upper, abs_of_nonneg (by linarith [h.le])] at heq
      linarith

theorem isRounding_nearestAway {position : Position} (hp : Located x a b position)
    (hne : position ≠ .exact) (lowerOdd : Bool) :
    IsRounding S even x (if Mode.nearestAway.increments position lowerOdd then b else a)
      .nearestAway := by
  have hlt := h.lt
  have hle := h.le
  have hnonneg := h.nonneg
  have hupper : a + b ≤ 2 * x → IsRounding S even x b .nearestAway := by
    intro habove
    refine ⟨h.nearest_upper habove, fun z hz heq ↦ ?_⟩
    rcases h.eq_upper hz heq with rfl | hza
    · exact le_refl _
    · -- as far below as `b` is above, so this is `a`
      rw [h.abs_sub_upper, abs_of_nonneg (by linarith)] at heq
      rw [abs_of_nonneg (by linarith), abs_of_nonneg (by linarith)]
      linarith
  cases position with
  | exact => exact absurd rfl hne
  | below =>
    show IsRounding S even x a .nearestAway
    refine ⟨h.nearest_lower hp.2.le, fun z hz heq ↦ ?_⟩
    rcases h.eq_lower hz heq with rfl | hbz
    · exact le_refl _
    · rw [h.abs_sub_lower, abs_of_nonpos (by linarith)] at heq
      linarith [hp.2]
  | half => exact hupper (Eq.ge hp)
  | above => exact hupper (le_of_lt hp)

/-- **Rounding between two neighbours.** -/
theorem isRounding {position : Position} (hp : Located x a b position) {lowerOdd : Bool}
    (heven : even (if lowerOdd then b else a)) (mode : Mode) :
    IsRounding S even x (if mode.increments position lowerOdd then b else a) mode := by
  have hlt := h.lt
  have hle := h.le
  have hnonneg := h.nonneg
  by_cases hne : position = .exact
  · subst hne
    have hself : IsRounding S even a a mode := isRounding_self h.lower_mem mode
    rw [show x = a from hp]
    cases mode with
    | _ => exact hself
  cases mode with
  | nearestEven => exact h.isRounding_nearestEven hp hne heven
  | nearestAway => exact h.isRounding_nearestAway hp hne lowerOdd
  | towardZero =>
    refine ⟨h.lower_mem, ?_, fun z hz hzx ↦ ?_⟩
    · show |a| ≤ |x|
      rw [abs_of_nonneg hnonneg, abs_of_nonneg (by linarith)]
      exact hle
    · show |x - a| ≤ _
      rw [abs_of_nonneg (show 0 ≤ x by linarith)] at hzx
      rw [h.abs_sub_lower]
      rcases h.distance hz with ⟨-, hd⟩ | ⟨hbz, -⟩
      · exact hd
      · linarith [le_abs_self z]
  | down =>
    refine ⟨h.lower_mem, hle, fun z hz hzx ↦ ?_⟩
    rcases h.gap z hz with hza | hbz
    · exact hza
    · linarith
  | up =>
    have hax : a < x := by
      cases position with
      | exact => exact absurd rfl hne
      | below => exact hp.1
      | half => linarith [show 2 * x = a + b from hp]
      | above => linarith [show a + b < 2 * x from hp]
    have hincrements : Mode.up.increments position lowerOdd = true := by
      rw [Mode.increments]
      exact decide_eq_true hne
    rw [hincrements, if_pos rfl]
    refine ⟨h.upper_mem, hlt.le, fun z hz hxz ↦ ?_⟩
    rcases h.gap z hz with hza | hbz
    · linarith
    · exact hbz

end Bracket

end Order

/-! ## Numbers of a given precision -/

section Grid

variable {K : Type*} [Field K] (p : ℕ) (q : WithBot ℤ)

/-- The numbers of at most `p` digits, multiples of the power of two with the least exponent `q` if
there is one. -/
def Grid : Set K := {y | ∃ n k : ℤ, |n| < 2 ^ p ∧ q ≤ k ∧ y = n * 2 ^ k}

/-- Those whose last digit is even, written with as many digits as possible. -/
def EvenIn (y : K) : Prop :=
  ∃ n k : ℤ, Even n ∧ |n| < 2 ^ p ∧ q ≤ k ∧ (q = k ∨ 2 ^ (p - 1) ≤ |n|) ∧ y = n * 2 ^ k

variable {p q}

theorem Grid.neg {y : K} (h : y ∈ Grid (K := K) p q) : -y ∈ Grid (K := K) p q := by
  obtain ⟨n, k, hn, hk, rfl⟩ := h
  exact ⟨-n, k, by rwa [abs_neg], hk, by rw [Int.cast_neg, neg_mul]⟩

theorem Grid.mono {p p' : ℕ} {q q' : WithBot ℤ} (hp : p ≤ p') (hq : q' ≤ q) :
    Grid (K := K) p q ⊆ Grid p' q' := by
  rintro y ⟨n, k, hn, hk, rfl⟩
  exact ⟨n, k, hn.trans_le (pow_le_pow_right₀ (by norm_num) hp), hq.trans hk, rfl⟩

theorem EvenIn.neg {y : K} (h : EvenIn p q y) : EvenIn p q (-y) := by
  obtain ⟨n, k, heven, hn, hk, hnormal, rfl⟩ := h
  exact ⟨-n, k, heven.neg, by rwa [abs_neg], hk, by rwa [abs_neg], by rw [Int.cast_neg, neg_mul]⟩

variable {n : ℕ} {k : ℤ}

theorem Grid.mem (hn : n < 2 ^ p) (hk : q ≤ k) : (n : K) * 2 ^ k ∈ Grid p q := by
  refine ⟨n, k, ?_, hk, by rw [Int.cast_natCast]⟩
  rw [Nat.abs_cast]
  exact_mod_cast hn

theorem Grid.zero_mem (p : ℕ) (q : WithBot ℤ) : (0 : K) ∈ Grid p q := by
  obtain ⟨k, hk⟩ : ∃ k : ℤ, q ≤ k := by
    cases q with
    | bot => exact ⟨0, bot_le⟩
    | coe k => exact ⟨k, le_rfl⟩
  have h := Grid.mem (K := K) (Nat.two_pow_pos p) hk
  rwa [Nat.cast_zero, zero_mul] at h

variable [LinearOrder K] [IsStrictOrderedRing K]

/-- The upper end of a binade is a number of the next one. -/
theorem two_pow_mul_zpow (hp : 2 ≤ p) (k : ℤ) :
    ((2 : K) ^ p) * 2 ^ k = ((2 : ℤ) ^ (p - 1) : ℤ) * 2 ^ (k + 1) := by
  rw [zpow_add₀ (by norm_num), Int.cast_pow, Int.cast_ofNat, zpow_one,
    show p = p - 1 + 1 from (Nat.sub_add_cancel (by omega)).symm, Nat.add_sub_cancel, pow_succ]
  ring

theorem Grid.mem_succ (hp : 2 ≤ p) (hn : n < 2 ^ p) (hk : q ≤ k) :
    ((n + 1 : ℕ) : K) * 2 ^ k ∈ Grid p q := by
  rcases Nat.lt_or_ge (n + 1) (2 ^ p) with hlt | hge
  · exact Grid.mem hlt hk
  · have hpow : n + 1 = 2 ^ p := by omega
    refine ⟨2 ^ (p - 1), k + 1, ?_, hk.trans ?_, ?_⟩
    · rw [abs_of_nonneg (by positivity)]
      exact pow_lt_pow_right₀ (by norm_num) (by omega)
    · exact_mod_cast (by omega : k ≤ k + 1)
    · rw [hpow, ← two_pow_mul_zpow hp, Nat.cast_pow, Nat.cast_ofNat]

/-- One of two neighbours has an even last digit. -/
theorem EvenIn.of_neighbours (hp : 2 ≤ p) (hn : n < 2 ^ p) (hk : q ≤ k)
    (hnormal : q = k ∨ 2 ^ (p - 1) ≤ n) :
    EvenIn (K := K) p q (if n % 2 = 1 then ((n + 1 : ℕ) : K) * 2 ^ k else (n : K) * 2 ^ k) := by
  have hlarge : ∀ m : ℕ, n ≤ m → q = k ∨ 2 ^ (p - 1) ≤ |(m : ℤ)| := by
    intro m hm
    refine hnormal.imp_right fun hle ↦ ?_
    rw [Nat.abs_cast]
    exact_mod_cast hle.trans hm
  split
  · next hodd =>
    rcases Nat.lt_or_ge (n + 1) (2 ^ p) with hlt | hge
    · refine ⟨(n + 1 : ℕ), k, ?_, ?_, hk, hlarge _ (Nat.le_succ n), by rw [Int.cast_natCast]⟩
      · exact_mod_cast Nat.even_iff.2 (by omega)
      · rw [Nat.abs_cast]
        exact_mod_cast hlt
    · have hpow : n + 1 = 2 ^ p := by omega
      refine ⟨2 ^ (p - 1), k + 1, ?_, ?_, hk.trans ?_, Or.inr ?_, ?_⟩
      · exact (even_two : Even (2 : ℤ)).pow_of_ne_zero (by omega)
      · rw [abs_of_nonneg (by positivity)]
        exact pow_lt_pow_right₀ (by norm_num) (by omega)
      · exact_mod_cast (by omega : k ≤ k + 1)
      · rw [abs_of_nonneg (by positivity)]
      · rw [hpow, ← two_pow_mul_zpow hp, Nat.cast_pow, Nat.cast_ofNat]
  · next hodd =>
    refine ⟨n, k, ?_, ?_, hk, hlarge n le_rfl, by rw [Int.cast_natCast]⟩
    · exact_mod_cast Nat.even_iff.2 (by omega)
    · rw [Nat.abs_cast]
      exact_mod_cast hn

/-- A number with more digits is a multiple of the quantum. -/
theorem exists_mul_zpow {k' : ℤ} (j : ℤ) (h : k ≤ k') : ∃ i : ℤ, (j : K) * 2 ^ k' = i * 2 ^ k := by
  refine ⟨j * 2 ^ (k' - k).toNat, ?_⟩
  rw [Int.cast_mul, Int.cast_pow, Int.cast_ofNat, mul_assoc, ← zpow_natCast,
    Int.toNat_of_nonneg (by omega), ← zpow_add₀ (by norm_num), Int.sub_add_cancel]

/-- **Neighbours on the grid.**  Between `n` and `n + 1` times the quantum there is no other number,
if `n` has all its digits or the exponent is the least one. -/
theorem Grid.bracket (hp : 2 ≤ p) (hn : n < 2 ^ p) (hk : q ≤ k)
    (hnormal : q = k ∨ 2 ^ (p - 1) ≤ n) {x : K} (hle : (n : K) * 2 ^ k ≤ x)
    (hlt : x < ((n + 1 : ℕ) : K) * 2 ^ k) :
    Bracket (Grid p q) x ((n : K) * 2 ^ k) (((n + 1 : ℕ) : K) * 2 ^ k) := by
  have htwo : (0 : K) < 2 ^ k := zpow_pos (by norm_num) k
  refine ⟨Grid.mem hn hk, Grid.mem_succ hp hn hk, by positivity, hle, hlt, fun z hz ↦ ?_⟩
  obtain ⟨j, k', hj, hk', rfl⟩ := hz
  rcases le_or_gt k k' with hkk | hkk
  · obtain ⟨i, hi⟩ := exists_mul_zpow (K := K) j hkk
    rw [hi]
    rcases le_or_gt i n with hin | hin
    · exact Or.inl (mul_le_mul_of_nonneg_right (by exact_mod_cast hin) htwo.le)
    · exact Or.inr (mul_le_mul_of_nonneg_right (by exact_mod_cast hin) htwo.le)
  · -- a finer quantum, so the number is below the binade
    have hlarge : 2 ^ (p - 1) ≤ n := by
      refine hnormal.resolve_left fun hqk ↦ ?_
      rw [hqk] at hk'
      exact absurd (WithBot.coe_le_coe.1 hk') (by omega)
    have hbound : (j : K) ≤ 2 ^ p := by
      have hlt : j < 2 ^ p := lt_of_le_of_lt (le_abs_self j) hj
      exact_mod_cast hlt.le
    refine Or.inl ?_
    calc (j : K) * 2 ^ k' ≤ 2 ^ p * 2 ^ k' :=
          mul_le_mul_of_nonneg_right hbound (zpow_pos (by norm_num) k').le
      _ = ((2 : ℤ) ^ (p - 1) : ℤ) * 2 ^ (k' + 1) := two_pow_mul_zpow hp k'
      _ ≤ (n : K) * 2 ^ (k' + 1) :=
          mul_le_mul_of_nonneg_right (by exact_mod_cast hlarge) (zpow_pos (by norm_num) _).le
      _ ≤ (n : K) * 2 ^ k :=
          mul_le_mul_of_nonneg_left (zpow_le_zpow_right₀ (by norm_num) (by omega)) (by positivity)

end Grid

/-! ## Dropping digits -/

/-- Where `m` lies between the multiples of `2 ^ s` around it. -/
def position (m s : ℕ) : Position :=
  if m % 2 ^ s = 0 then .exact
  else if 2 * (m % 2 ^ s) < 2 ^ s then .below
  else if 2 * (m % 2 ^ s) = 2 ^ s then .half
  else .above

/-- `m / 2 ^ s`, rounded. -/
def Mode.shift (mode : Mode) (m s : ℕ) : ℕ :=
  m / 2 ^ s + if mode.increments (position m s) (m / 2 ^ s % 2 = 1) then 1 else 0

theorem Mode.shift_bounds (mode : Mode) (m s : ℕ) :
    m / 2 ^ s ≤ mode.shift m s ∧ mode.shift m s ≤ m / 2 ^ s + 1 := by
  rw [Mode.shift]
  split <;> omega

/-- Nothing is lost exactly if the dropped digits are zero. -/
theorem Mode.shift_mul_eq_iff (mode : Mode) (m s : ℕ) :
    mode.shift m s * 2 ^ s = m ↔ m % 2 ^ s = 0 := by
  constructor
  · intro h
    rw [← h, Nat.mul_mod_left]
  · intro h
    have hincrements : ∀ odd, mode.increments .exact odd = false := by
      intro odd
      cases mode <;> rfl
    rw [Mode.shift, position, if_pos h, hincrements, if_neg (by decide), Nat.add_zero]
    exact Nat.div_mul_cancel (Nat.dvd_of_mod_eq_zero h)

/-- The mode for the magnitude of a number. -/
def Mode.magnitude (mode : Mode) (negative : Bool) : Mode := if negative then mode.negate else mode

/-- A magnitude with its sign. -/
def signed {K : Type*} [Neg K] (negative : Bool) (x : K) : K := if negative then -x else x

section Shift

variable {K : Type*} [Field K] [LinearOrder K] [IsStrictOrderedRing K] {p : ℕ} {q : WithBot ℤ}

/-- Signs do not matter on a grid, but for the direction of the mode. -/
theorem IsRounding.signed {x y : K} {mode : Mode} {negative : Bool}
    (h : IsRounding (Grid p q) (EvenIn p q) x y (mode.magnitude negative)) :
    IsRounding (Grid p q) (EvenIn p q) (signed negative x) (Rounding.signed negative y) mode := by
  cases negative with
  | false => exact h
  | true =>
    have hneg := h.neg (fun _ hz ↦ Grid.neg hz) fun _ hz ↦ hz.neg
    rwa [Mode.magnitude, if_pos rfl, Mode.negate_negate] at hneg

/-- Comparing multiples of one number. -/
theorem located_mul {c : K} (hc : 0 < c) {x a b : ℕ} {position : Position}
    (h : Located (x : K) a b position) :
    Located ((x : K) * c) ((a : K) * c) ((b : K) * c) position := by
  cases position with
  | exact =>
    have hxa : (x : K) = a := h
    exact congrArg (· * c) hxa
  | below =>
    obtain ⟨hax, hx⟩ := h
    refine ⟨mul_lt_mul_of_pos_right hax hc, ?_⟩
    have := mul_lt_mul_of_pos_right hx hc
    linarith
  | half =>
    have hx : 2 * (x : K) = a + b := h
    show 2 * ((x : K) * c) = a * c + b * c
    rw [← mul_assoc, hx, add_mul]
  | above =>
    have hx : (a : K) + b < 2 * x := h
    show (a : K) * c + b * c < 2 * (x * c)
    have := mul_lt_mul_of_pos_right hx hc
    linarith

theorem located_position (m s : ℕ) :
    Located (m : K) ((m / 2 ^ s * 2 ^ s : ℕ) : K) (((m / 2 ^ s + 1) * 2 ^ s : ℕ) : K)
      (position m s) := by
  have hdiv : m / 2 ^ s * 2 ^ s + m % 2 ^ s = m := Nat.div_add_mod' m (2 ^ s)
  have hsucc : (m / 2 ^ s + 1) * 2 ^ s = m / 2 ^ s * 2 ^ s + 2 ^ s := Nat.succ_mul _ _
  rw [hsucc, position]
  generalize m / 2 ^ s * 2 ^ s = a at hdiv ⊢
  generalize m % 2 ^ s = r at hdiv ⊢
  generalize 2 ^ s = d
  subst hdiv
  split
  · next hzero => exact congrArg Nat.cast (show a + r = a by omega)
  · split
    · next hzero hlt =>
      refine ⟨?_, ?_⟩
      · exact_mod_cast (show a < a + r by omega)
      · exact_mod_cast (show 2 * (a + r) < a + (a + d) by omega)
    · split
      · next hhalf =>
        show 2 * ((a + r : ℕ) : K) = a + (a + d : ℕ)
        exact_mod_cast (show 2 * (a + r) = a + (a + d) by omega)
      · next hlt hhalf =>
        show (a : K) + (a + d : ℕ) < 2 * ((a + r : ℕ) : K)
        exact_mod_cast (show a + (a + d) < 2 * (a + r) by omega)

/-- A multiple of `2 ^ s` in units of `2 ^ e`. -/
theorem cast_mul_zpow_add (n s : ℕ) (e : ℤ) :
    (n : K) * 2 ^ (e + s) = ((n * 2 ^ s : ℕ) : K) * 2 ^ e := by
  rw [zpow_add₀ (by norm_num), zpow_natCast]
  push_cast
  ring

/-- `m * 2 ^ e` stands for `x`: it is `x`, or the last digit of `m` is a one in place of what
follows. -/
def Sticky (x : K) (m : ℕ) (e : ℤ) : Prop :=
  x = m * 2 ^ e ∨ m % 2 = 1 ∧ ((m - 1 : ℕ) : K) * 2 ^ e < x ∧ x < ((m + 1 : ℕ) : K) * 2 ^ e

variable {x : K} {m s : ℕ} {e : ℤ}

/-- A number cut off after the digit before the last, with a digit that says whether anything
was. -/
theorem Sticky.of_truncated {q : ℕ} {rest : Bool} (hle : (q : K) * 2 ^ (e + 1) ≤ x)
    (hlt : x < ((q + 1 : ℕ) : K) * 2 ^ (e + 1)) (hrest : rest = true ↔ x ≠ q * 2 ^ (e + 1)) :
    Sticky x (2 * q + rest.toNat) e := by
  have hdouble : ∀ n : ℕ, (n : K) * 2 ^ (e + 1) = ((2 * n : ℕ) : K) * 2 ^ e := by
    intro n
    rw [Nat.mul_comm]
    exact cast_mul_zpow_add n 1 e
  rw [hdouble] at hle hlt hrest
  cases rest with
  | false =>
    have heq : x = ((2 * q : ℕ) : K) * 2 ^ e := by
      by_contra hne
      exact Bool.false_ne_true (hrest.2 hne)
    exact Or.inl heq
  | true => exact Or.inr ⟨by simp, lt_of_le_of_ne hle (hrest.1 rfl).symm, hlt⟩

/-- The neighbours of `m` are those of what it stands for, and so is its place between them. -/
theorem Sticky.located (h : Sticky x m e) (hs : x = m * 2 ^ e ∨ 2 ≤ s) :
    Located x (((m / 2 ^ s : ℕ) : K) * 2 ^ (e + s)) (((m / 2 ^ s + 1 : ℕ) : K) * 2 ^ (e + s))
      (position m s) := by
  have htwo : (0 : K) < 2 ^ e := zpow_pos (by norm_num) e
  have hexact := located_mul htwo (located_position (K := K) m s)
  rw [← cast_mul_zpow_add, ← cast_mul_zpow_add] at hexact
  rcases h with rfl | ⟨hodd, hlt, hgt⟩
  · exact hexact
  rcases hs with rfl | hs
  · exact hexact
  -- the neighbours and the middle between them are even, so none of them is passed
  obtain ⟨t, rfl⟩ := Nat.exists_eq_add_of_le hs
  have hpow : 2 ^ (2 + t) = 4 * 2 ^ t := by rw [Nat.pow_add]
  have hdiv : m / 2 ^ (2 + t) * 2 ^ (2 + t) + m % 2 ^ (2 + t) = m := Nat.div_add_mod' m _
  have hsucc : (m / 2 ^ (2 + t) + 1) * 2 ^ (2 + t) = m / 2 ^ (2 + t) * 2 ^ (2 + t) + 2 ^ (2 + t) :=
    Nat.succ_mul _ _
  have hmod : m % 2 ^ (2 + t) % 2 = 1 := by
    rw [Nat.mod_mod_of_dvd _ (Dvd.intro_left (2 * 2 ^ t) (by rw [hpow]; ring)), hodd]
  rw [cast_mul_zpow_add, cast_mul_zpow_add, hsucc, position]
  generalize m / 2 ^ (2 + t) * 2 ^ (2 + t) = a at hdiv ⊢
  generalize m % 2 ^ (2 + t) = r at hdiv hmod ⊢
  generalize 2 ^ (2 + t) = d at hpow ⊢
  subst hpow hdiv
  have hmul : ∀ {i j : ℕ}, i ≤ j → (i : K) * 2 ^ e ≤ j * 2 ^ e := fun hij ↦
    mul_le_mul_of_nonneg_right (by exact_mod_cast hij) htwo.le
  rw [if_neg (by omega)]
  split
  · next hbelow =>
    have hmiddle := hmul (show 2 * (a + r + 1) ≤ a + (a + 4 * 2 ^ t) by omega)
    refine ⟨(hmul (show a ≤ a + r - 1 by omega)).trans_lt hlt, ?_⟩
    push_cast at hmiddle hgt ⊢
    linarith
  · next habove =>
    rw [if_neg (by omega)]
    have hmiddle := hmul (show a + (a + 4 * 2 ^ t) ≤ 2 * (a + r - 1) by omega)
    show _ < _
    push_cast at hmiddle hlt ⊢
    linarith

theorem Sticky.bounds (h : Sticky x m e) (hs : x = m * 2 ^ e ∨ 2 ≤ s) :
    ((m / 2 ^ s : ℕ) : K) * 2 ^ (e + s) ≤ x ∧ x < ((m / 2 ^ s + 1 : ℕ) : K) * 2 ^ (e + s) := by
  have htwo : (0 : K) < 2 ^ e := zpow_pos (by norm_num) e
  have hmul : ∀ {i j : ℕ}, i ≤ j → (i : K) * 2 ^ e ≤ j * 2 ^ e := fun hij ↦
    mul_le_mul_of_nonneg_right (by exact_mod_cast hij) htwo.le
  have hle : m / 2 ^ s * 2 ^ s ≤ m := Nat.div_mul_le_self m _
  have hlt : m < (m / 2 ^ s + 1) * 2 ^ s := by
    rw [Nat.mul_comm]
    exact Nat.lt_mul_div_succ m (Nat.two_pow_pos s)
  have hexact : ((m / 2 ^ s * 2 ^ s : ℕ) : K) * 2 ^ e ≤ m * 2 ^ e ∧
      (m : K) * 2 ^ e < (((m / 2 ^ s + 1) * 2 ^ s : ℕ) : K) * 2 ^ e :=
    ⟨hmul hle, mul_lt_mul_of_pos_right (by exact_mod_cast hlt) htwo⟩
  rw [cast_mul_zpow_add, cast_mul_zpow_add]
  rcases h with rfl | ⟨hodd, hbelow, habove⟩
  · exact hexact
  rcases hs with rfl | hs
  · exact hexact
  have heven : ∀ n, n * 2 ^ s % 2 = 0 := by
    intro n
    rw [Nat.mul_mod, Nat.pow_mod, Nat.mod_self, Nat.zero_pow (by omega), Nat.zero_mod, Nat.mul_zero,
      Nat.zero_mod]
  have hlow := heven (m / 2 ^ s)
  have hhigh := heven (m / 2 ^ s + 1)
  exact ⟨(hmul (by omega)).trans hbelow.le, habove.trans_le (hmul (by omega))⟩

/-- **Dropping digits rounds.**  What is left has to have all its digits, or the least exponent. -/
theorem Grid.isRounding_shift (hp : 2 ≤ p) (h : Sticky x m e) (hs : x = m * 2 ^ e ∨ 2 ≤ s)
    (hn : m / 2 ^ s < 2 ^ p) (hk : q ≤ ((e + s : ℤ) : WithBot ℤ))
    (hnormal : q = ((e + s : ℤ) : WithBot ℤ) ∨ 2 ^ (p - 1) ≤ m / 2 ^ s) (mode : Mode) :
    IsRounding (Grid p q) (EvenIn p q) x ((mode.shift m s : K) * 2 ^ (e + s)) mode := by
  obtain ⟨hle, hlt⟩ := h.bounds hs
  have heven : EvenIn (K := K) p q (if decide (m / 2 ^ s % 2 = 1) = true then
      ((m / 2 ^ s + 1 : ℕ) : K) * 2 ^ (e + s) else ((m / 2 ^ s : ℕ) : K) * 2 ^ (e + s)) := by
    simpa only [decide_eq_true_eq] using EvenIn.of_neighbours (K := K) hp hn hk hnormal
  have hround := (Grid.bracket hp hn hk hnormal hle hlt).isRounding (h.located hs) heven mode
  rw [Mode.shift]
  split
  · next hup =>
    rw [if_pos hup] at hround
    exact hround
  · next hdown =>
    rw [if_neg hdown] at hround
    exact hround

/-- Nothing is lost exactly if the dropped digits are zero. -/
theorem Sticky.shift_eq_iff (h : Sticky x m e) (hs : x = m * 2 ^ e ∨ 2 ≤ s) (mode : Mode) :
    (mode.shift m s : K) * 2 ^ (e + s) = x ↔ m % 2 ^ s = 0 := by
  have htwo : (0 : K) < 2 ^ e := zpow_pos (by norm_num) e
  have hexact : (mode.shift m s : K) * 2 ^ (e + s) = m * 2 ^ e ↔ m % 2 ^ s = 0 := by
    rw [cast_mul_zpow_add, mul_left_inj' htwo.ne', Nat.cast_inj, Mode.shift_mul_eq_iff]
  rcases h with rfl | ⟨hodd, hbelow, habove⟩
  · exact hexact
  rcases hs with rfl | hs
  · exact hexact
  have hpow : 2 ^ s = 2 * 2 ^ (s - 1) := by
    rw [Nat.mul_comm, ← Nat.pow_succ, Nat.succ_eq_add_one, Nat.sub_add_cancel (by omega)]
  refine iff_of_false ?_ ?_
  · rw [cast_mul_zpow_add]
    rintro rfl
    have hlt := lt_of_mul_lt_mul_right hbelow htwo.le
    have hgt := lt_of_mul_lt_mul_right habove htwo.le
    rw [Nat.cast_lt] at hlt hgt
    rw [hpow, ← Nat.mul_assoc, Nat.mul_right_comm] at hlt hgt
    omega
  · intro hzero
    have hdvd : 2 ∣ m := (Dvd.intro _ hpow.symm).trans (Nat.dvd_of_mod_eq_zero hzero)
    omega

end Shift

/-! ## Integers -/

section Integers

variable {K : Type*} [Field K]

/-- The integers of a field, and the even ones. -/
def Integers (K : Type*) [Field K] : Set K := Set.range Int.cast

def EvenInteger (y : K) : Prop := ∃ n : ℤ, Even n ∧ y = n

variable [LinearOrder K] [IsStrictOrderedRing K]

/-- Rounding to an integer. -/
theorem Integers.isRounding_shift (m s : ℕ) (mode : Mode) :
    IsRounding (Integers K) EvenInteger ((m : K) * 2 ^ (-s : ℤ)) (mode.shift m s) mode := by
  have hsticky : Sticky ((m : K) * 2 ^ (-s : ℤ)) m (-s) := Or.inl rfl
  obtain ⟨hle, hlt⟩ := hsticky.bounds (s := s) (Or.inl rfl)
  have hlocated := hsticky.located (s := s) (Or.inl rfl)
  simp only [neg_add_cancel, zpow_zero, mul_one] at hle hlt hlocated
  have hbracket : Bracket (Integers K) ((m : K) * 2 ^ (-s : ℤ)) ((m / 2 ^ s : ℕ) : K)
      ((m / 2 ^ s + 1 : ℕ) : K) := by
    refine ⟨⟨(m / 2 ^ s : ℕ), Int.cast_natCast _⟩, ⟨(m / 2 ^ s + 1 : ℕ), Int.cast_natCast _⟩,
      Nat.cast_nonneg _, hle, hlt, ?_⟩
    rintro - ⟨n, rfl⟩
    rw [← Int.cast_natCast, ← Int.cast_natCast (m / 2 ^ s + 1), Int.cast_le, Int.cast_le]
    omega
  have heven : EvenInteger (if decide (m / 2 ^ s % 2 = 1) = true then ((m / 2 ^ s + 1 : ℕ) : K)
      else ((m / 2 ^ s : ℕ) : K)) := by
    simp only [decide_eq_true_eq]
    split
    · next hodd =>
      exact ⟨(m / 2 ^ s + 1 : ℕ), by exact_mod_cast Nat.even_iff.2 (by omega),
        (Int.cast_natCast _).symm⟩
    · next hodd =>
      exact ⟨(m / 2 ^ s : ℕ), by exact_mod_cast Nat.even_iff.2 (by omega),
        (Int.cast_natCast _).symm⟩
  have hround := hbracket.isRounding hlocated heven mode
  rw [Mode.shift]
  split
  · next hup =>
    rw [if_pos hup] at hround
    exact hround
  · next hdown =>
    rw [if_neg hdown] at hround
    exact hround

theorem Integers.signed {x y : K} {mode : Mode} {negative : Bool}
    (h : IsRounding (Integers K) EvenInteger x y (mode.magnitude negative)) :
    IsRounding (Integers K) EvenInteger (signed negative x) (Rounding.signed negative y) mode := by
  cases negative with
  | false => exact h
  | true =>
    have hneg := h.neg ?_ ?_
    · rwa [Mode.magnitude, if_pos rfl, Mode.negate_negate] at hneg
    · rintro - ⟨n, rfl⟩
      exact ⟨-n, Int.cast_neg n⟩
    · rintro - ⟨n, hn, rfl⟩
      exact ⟨-n, hn.neg, (Int.cast_neg n).symm⟩

end Integers

/-! ## Binades -/

section Binade

variable {K : Type*} [Field K] [LinearOrder K] [IsStrictOrderedRing K] {n p : ℕ} {k : ℤ}

/-- A number with `p` digits is below a power of two if its first digit is. -/
theorem binade_lt_iff (hle : 2 ^ (p - 1) ≤ n) (hlt : n < 2 ^ p) (e : ℤ) :
    (n : K) * 2 ^ k < 2 ^ e ↔ k + p - 1 < e := by
  have hone : (1 : K) < 2 := by norm_num
  have htwo : (0 : K) < 2 ^ k := zpow_pos (by norm_num) k
  have hp : p ≠ 0 := by
    rintro rfl
    rw [Nat.pow_zero] at hle hlt
    omega
  constructor
  · intro h
    have hfirst : (2 : K) ^ (k + p - 1) ≤ n * 2 ^ k := by
      rw [show k + p - 1 = ((p - 1 : ℕ) : ℤ) + k by omega, zpow_add₀ (by norm_num), zpow_natCast]
      exact mul_le_mul_of_nonneg_right (by exact_mod_cast hle) htwo.le
    exact (zpow_lt_zpow_iff_right₀ hone).1 (hfirst.trans_lt h)
  · intro h
    calc (n : K) * 2 ^ k < ((2 ^ p : ℕ) : K) * 2 ^ k :=
          mul_lt_mul_of_pos_right (by exact_mod_cast hlt) htwo
      _ = 2 ^ (p + k : ℤ) := by
          rw [zpow_add₀ (by norm_num), zpow_natCast, Nat.cast_pow, Nat.cast_ofNat]
      _ ≤ 2 ^ e := zpow_le_zpow_right₀ hone.le (by omega)

/-- The largest number with `p` digits and exponent `e` is passed only by a larger exponent. -/
theorem largest_lt_iff (hle : 2 ^ (p - 1) ≤ n) (hlt : n < 2 ^ p) (e : ℤ) :
    ((2 ^ p - 1 : ℕ) : K) * 2 ^ e < n * 2 ^ k ↔ e < k := by
  have hone : (1 : K) < 2 := by norm_num
  have hbelow : ((2 ^ p - 1 : ℕ) : K) * 2 ^ e < 2 ^ (p + e : ℤ) := by
    rw [zpow_add₀ (by norm_num), zpow_natCast]
    refine mul_lt_mul_of_pos_right ?_ (zpow_pos (by norm_num) e)
    exact_mod_cast Nat.sub_lt (Nat.two_pow_pos p) (by decide)
  constructor
  · intro h
    by_contra hnot
    refine absurd h (not_lt.2 ?_)
    exact mul_le_mul (by exact_mod_cast (show n ≤ 2 ^ p - 1 by omega))
      (zpow_le_zpow_right₀ hone.le (by omega)) (zpow_pos (by norm_num) k).le (Nat.cast_nonneg _)
  · intro h
    have hnot := (binade_lt_iff (K := K) (k := k) hle hlt (p + e)).not.2 (by omega)
    exact hbelow.trans_le (not_lt.1 hnot)

end Binade

end Rounding
