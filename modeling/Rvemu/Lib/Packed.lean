import Rvemu.Lib.Bytes

/-!
# Arrays of elements in a sequence of bytes

Elements of `w` bytes lie one after the other from a byte position on.  `fill` is the sequence after
the elements of an interval got new values: it is what a loop over the interval leaves behind, and a
step of such a loop extends the interval by one (`fill_succ`).
-/

set_option autoImplicit false

namespace Packed

open Bytes

variable (f : ℕ → BitVec 8) (off w : ℕ)

/-- Element `i` of the array at `off`. -/
def element (i : ℕ) : BitVec 64 := composeBytes (fun j ↦ f (off + i * w + j)) w

/-- The elements `first`, ..., `last - 1` of the array at `off` are those of `E`. -/
def fill (E : ℕ → BitVec 64) (first last k : ℕ) : BitVec 8 :=
  if off + first * w ≤ k ∧ k < off + last * w then
    splitByte (E ((k - off) / w)) ((k - off) % w)
  else f k

section Fill

variable {E : ℕ → BitVec 64} {first last : ℕ}

theorem fill_of_le (h : last ≤ first) : fill f off w E first last = f := by
  have hle := Nat.mul_le_mul_right w h
  funext k
  rw [fill, if_neg (by omega)]

/-- One more element. -/
theorem fill_succ (h : first ≤ last) (k : ℕ) :
    fill f off w E first (last + 1) k =
      if off + last * w ≤ k ∧ k < off + last * w + w then splitByte (E last) (k - (off + last * w))
      else fill f off w E first last k := by
  have hle := Nat.mul_le_mul_right w h
  rw [fill, fill, Nat.succ_mul]
  split
  · next hk =>
    split
    · next hin =>
      have hk' : k - off = k - (off + last * w) + last * w := by omega
      rw [hk', Nat.add_mul_div_right _ _ (by omega), Nat.add_mul_mod_self_right,
        Nat.div_eq_of_lt (by omega), Nat.mod_eq_of_lt (by omega), Nat.zero_add]
    · rw [if_pos (by omega)]
  · next hk => rw [if_neg (by omega), if_neg (by omega)]

/-- Two arrays of new values give the same bytes if they agree. -/
theorem fill_congr {E' : ℕ → BitVec 64} (h : ∀ i, first ≤ i → i < last → E i = E' i) :
    fill f off w E first last = fill f off w E' first last := by
  funext k
  rw [fill, fill]
  split
  · next hk =>
    have hw : 0 < w := by
      rcases Nat.eq_zero_or_pos w with rfl | hpos
      · omega
      · exact hpos
    have hfirst : first ≤ (k - off) / w := (Nat.le_div_iff_mul_le hw).2 (by omega)
    have hlast : (k - off) / w < last := (Nat.div_lt_iff_lt_mul hw).2 (by omega)
    rw [h _ hfirst hlast]
  · rfl

theorem fill_eq_of_outside {k : ℕ} (h : k < off + first * w ∨ off + last * w ≤ k) :
    fill f off w E first last k = f k := by
  rw [fill, if_neg (by omega)]

/-- An interval that is filled in two parts. -/
theorem fill_append {middle : ℕ} (h : first ≤ middle) (h' : middle ≤ last) :
    fill (fill f off w E first middle) off w E middle last = fill f off w E first last := by
  have hle := Nat.mul_le_mul_right w h
  have hle' := Nat.mul_le_mul_right w h'
  funext k
  rw [fill, fill, fill]
  split
  · rw [if_pos (by omega)]
  · next hupper =>
    split
    · rw [if_pos (by omega)]
    · rw [if_neg (by omega)]

theorem element_congr {g : ℕ → BitVec 8} {i : ℕ}
    (h : ∀ j < w, f (off + i * w + j) = g (off + i * w + j)) :
    element f off w i = element g off w i :=
  composeBytes_congr h

/-- The elements of the interval have the new values, cut to their size. -/
theorem element_fill (hw : w ≤ 8) {i : ℕ} (hfirst : first ≤ i) (hlast : i < last) :
    element (fill f off w E first last) off w i = ((E i).setWidth (w * 8)).setWidth 64 := by
  have hle := Nat.mul_le_mul_right w hfirst
  have hlt := Nat.mul_le_mul_right w (Nat.succ_le_of_lt hlast)
  rw [Nat.succ_mul] at hlt
  rw [← composeBytes_splitByte _ _ hw]
  refine composeBytes_congr fun j hj ↦ ?_
  have hk : off + i * w + j - off = j + i * w := by omega
  rw [fill, if_pos (by omega), hk, Nat.add_mul_div_right _ _ (by omega), Nat.add_mul_mod_self_right,
    Nat.div_eq_of_lt hj, Nat.mod_eq_of_lt hj, Nat.zero_add]

/-- The other elements keep theirs. -/
theorem element_fill_of_outside {i : ℕ} (h : i < first ∨ last ≤ i) :
    element (fill f off w E first last) off w i = element f off w i := by
  refine element_congr _ _ _ fun j hj ↦ fill_eq_of_outside f off w ?_
  rcases h with hlt | hge
  · have hle := Nat.mul_le_mul_right w (Nat.succ_le_of_lt hlt)
    rw [Nat.succ_mul] at hle
    omega
  · have hle := Nat.mul_le_mul_right w hge
    omega

end Fill

end Packed
