import Rvemu.Bus.Dma
import Rvemu.Lib.Monitor

/-!
# The reservation

The bus keeps the record of a reservation and the hart the token that came with it; each of them can
be cleared without the other.  Together they are a monitor: `Mirrors` says that they hold what the
history of accesses leaves reserved, or that no store-conditional can succeed.

Here is one lemma for each operation of the bus.
-/

set_option autoImplicit false

namespace Rvemu

/-- A write that a reservation may not survive. -/
structure MemoryWrite where
  address : BitVec 64
  width : AccessWidth
  deriving DecidableEq, Repr

/-- The write touches the granule of the reserved address. -/
def MemoryWrite.touches (write : MemoryWrite) (place : BitVec 64) : Bool :=
  decide (write.address.toNat < (reservationBase place).toNat + 8 ∧
    (reservationBase place).toNat < write.address.toNat + widthInBytes write.width)

/-- The monitor sees successful load-reserveds, store-conditionals of any outcome, and the
successful writes of other masters and of compare-exchanges. -/
abbrev BusNote := Monitor.Note (BitVec 64) MemoryWrite

/-- The record that a load-reserved leaves. -/
def reservationAt (token : ReservationToken) (place : BitVec 64) : ReservationRecord :=
  { token, loadAddress := place, reservedBase := reservationBase place,
    length := reservationGranuleBytes }

theorem reservationBase_add_le (place : BitVec 64) :
    (reservationBase place).toNat + 8 ≤ 2 ^ 64 := by
  have hlow : (reservationBase place).setWidth 3 = 0#3 := by
    rw [reservationBase, BitVec.setWidth_and, show (~~~(reservationGranuleBytes -
      1#64)).setWidth 3 = 0#3
      by decide, BitVec.and_zero]
  have hmod := congrArg BitVec.toNat hlow
  rw [BitVec.toNat_setWidth, BitVec.toNat_ofNat] at hmod
  have hlt := (reservationBase place).isLt
  omega

namespace Bus

theorem reservation_invalidate_of_none {b : Bus} (h : b.reservation = none) (a n : BitVec 64) :
    (b.invalidateReservationLocked a n).reservation = none := by
  rw [invalidateReservationLocked, h]
  exact h

/-- What a write does to the reservation. -/
theorem reservation_invalidate {b : Bus} {token : ReservationToken} {place : BitVec 64}
    (h : b.reservation = some (reservationAt token place)) {a : BitVec 64} {w : AccessWidth}
    (hfit : a.toNat + widthInBytes w ≤ 2 ^ 64) :
    (b.invalidateReservationLocked a (BitVec.ofNat 64 (widthInBytes w))).reservation =
      if MemoryWrite.touches ⟨a, w⟩ place then none else some (reservationAt token place) := by
  have hpos := widthInBytes_pos w
  have hlength := toNat_widthInBytes w
  have hne : BitVec.ofNat 64 (widthInBytes w) ≠ 0#64 := by cases w <;> decide
  have hwidth := widthInBytes_le w
  have hbase := reservationBase_add_le place
  have hwriteLast : (a + BitVec.ofNat 64 (widthInBytes w) - 1#64).toNat =
      a.toNat + widthInBytes w - 1 := by
    rw [BitVec.toNat_sub, BitVec.toNat_add, hlength]
    simp only [BitVec.toNat_ofNat]
    omega
  have hreservedLast : (reservationBase place + reservationGranuleBytes - 1#64).toNat =
      (reservationBase place).toNat + 7 := by
    rw [BitVec.toNat_sub, BitVec.toNat_add, show reservationGranuleBytes.toNat = 8 from rfl]
    simp only [BitVec.toNat_ofNat]
    omega
  have htouches : (decide (a ≤ reservationBase place + reservationGranuleBytes - 1#64) &&
      decide (reservationBase place ≤ a + BitVec.ofNat 64 (widthInBytes w) - 1#64)) =
      MemoryWrite.touches ⟨a, w⟩ place := by
    rw [MemoryWrite.touches, ← Bool.decide_and, decide_eq_decide, BitVec.le_def, BitVec.le_def,
      hwriteLast, hreservedLast]
    dsimp only
    omega
  rw [invalidateReservationLocked, h]
  dsimp only [reservationAt]
  rw [if_neg hne, htouches]
  split
  · rfl
  · exact h

theorem reservation_onRegion (b : Bus) (a : BitVec 64) (w : AccessWidth) (op : RegionOp) :
    (b.onRegion a w op).2.reservation = b.reservation := by
  rcases onRegion_cases b a w op with ⟨e, -, he⟩ | ⟨i, o, r, -, -, -, -, hreservation, -⟩
  · rw [he]
  · exact hreservation

/-- An access that succeeds does not run over the end of the address space. -/
theorem fits_of_ok {b : Bus} {a : BitVec 64} {w : AccessWidth} {op : RegionOp}
    (h : (b.onRegion a w op).1.ok = true) : a.toNat + widthInBytes w ≤ 2 ^ 64 := by
  rcases onRegion_cases b a w op with ⟨e, hl, he⟩ | ⟨i, o, r, hl, -⟩
  · rw [he, locate_error hl] at h
    cases h
  · obtain ⟨r', -, -, hend, -⟩ := locate_ok hl
    have := r'.range.fits
    omega

end Bus

/-! ## The two halves of the monitor -/

/-- The hart's token and the bus's record hold the reservation, or no store-conditional can
succeed. -/
def Mirrors (token : ReservationToken) (b : Bus) : Option (BitVec 64) → Prop
  | some place => token.valid = true ∧ b.reservation = some (reservationAt token place)
  | none => token.valid = false ∨ b.reservation = none

namespace Mirrors

open Monitor

variable {token : ReservationToken} {b b' : Bus} {held : Option (BitVec 64)}

theorem of_reservation (h : Mirrors token b held) (hsame : b'.reservation = b.reservation) :
    Mirrors token b' held := by
  cases held with
  | none => exact h.imp_right hsame.trans
  | some place => exact ⟨h.1, hsame.trans h.2⟩

theorem written (h : Mirrors token b held) {a : BitVec 64} {w : AccessWidth}
    (hfit : a.toNat + widthInBytes w ≤ 2 ^ 64)
    (hwrite : b'.reservation =
      (b.invalidateReservationLocked a (BitVec.ofNat 64 (widthInBytes w))).reservation) :
    Mirrors token b' (observe MemoryWrite.touches held (.written ⟨a, w⟩)) := by
  cases held with
  | none =>
    exact h.imp_right fun hnone ↦ hwrite.trans (Bus.reservation_invalidate_of_none hnone _ _)
  | some place =>
    rw [Bus.reservation_invalidate h.2 hfit] at hwrite
    rw [observe, Option.filter_some]
    cases htouches : MemoryWrite.touches ⟨a, w⟩ place with
    | true =>
      rw [htouches, if_pos rfl] at hwrite
      exact Or.inr hwrite
    | false =>
      rw [htouches, if_neg Bool.false_ne_true] at hwrite
      exact ⟨h.1, hwrite⟩

/-! ### One lemma for each operation of the bus -/

theorem read (h : Mirrors token b held) (a : BitVec 64) (w : AccessWidth) (t : AccessType) :
    Mirrors token (b.read a w t).2 held :=
  h.of_reservation (b.reservation_onRegion a w _)

/-- The hart's own stores leave the reservation alone. -/
theorem write (h : Mirrors token b held) (a : BitVec 64) (w : AccessWidth) (v : BitVec 64)
    {t : AccessType} (ht : t ≠ .dmaWrite) : Mirrors token (b.write a w v t).2 held := by
  rw [Bus.write_eq, beq_eq_false_iff_ne.2 ht, Bool.and_false, if_neg Bool.false_ne_true]
  exact h.of_reservation (b.reservation_onRegion a w _)

end Mirrors

/-- A write by another master. -/
def dmaNotes (b : Bus) (a : BitVec 64) (w : AccessWidth) (v : BitVec 64) : List BusNote :=
  if (b.write a w v .dmaWrite).1.ok then [.written ⟨a, w⟩] else []

def exchangeNotes (w : AccessWidth) (e d : BitVec 64) (b : Bus) (a : BitVec 64) : List BusNote :=
  if (b.compareExchange a w e d).1.ok && (b.compareExchange a w e d).1.exchanged then
    [.written ⟨a, w⟩]
  else []

def loadReservedNotes (w : AccessWidth) (b : Bus) (a : BitVec 64) : List BusNote :=
  if (b.loadReserved a w).1.access.ok then [.reserved a] else []

namespace Mirrors

open Monitor

variable {token : ReservationToken} {b : Bus} {held : Option (BitVec 64)}

theorem dmaWrite (h : Mirrors token b held) (a : BitVec 64) (w : AccessWidth) (v : BitVec 64) :
    Mirrors token (b.write a w v .dmaWrite).2
      ((dmaNotes b a w v).foldl (observe MemoryWrite.touches) held) := by
  rw [dmaNotes]
  cases hok : (b.write a w v .dmaWrite).1.ok with
  | false =>
    rw [if_neg Bool.false_ne_true, Bus.write_of_not_ok hok]
    exact h
  | true =>
    rw [if_pos rfl]
    rw [Bus.write_result] at hok
    refine h.written (Bus.fits_of_ok hok) ?_
    rw [Bus.write_eq, hok]
    exact Bus.reservation_invalidateReservationLocked_congr (b.reservation_onRegion a w _) _ _

theorem compareExchange (h : Mirrors token b held) (a : BitVec 64) (w : AccessWidth)
    (e d : BitVec 64) :
    Mirrors token (b.compareExchange a w e d).2
      ((exchangeNotes w e d b a).foldl (observe MemoryWrite.touches) held) := by
  rw [exchangeNotes]
  rcases b.compareExchange_cases a w e d .atomic with ⟨hno, hb⟩ |
    ⟨hok, hyes, hstored, hreservation, -⟩
  · rw [hno, Bool.and_false, if_neg Bool.false_ne_true, hb]
    exact h
  · rw [hok, hyes, Bool.and_true, if_pos rfl]
    exact h.written (Nat.le_of_lt hstored.inRam.lt) hreservation

end Mirrors

/-- The token of a load-reserved that succeeds is never the invalid one. -/
theorem Bus.valid_loadReserved {b : Bus} {a : BitVec 64} {w : AccessWidth}
    (h : (b.loadReserved a w).1.access.ok = true) : (b.loadReserved a w).1.token.valid = true := by
  rw [loadReserved] at h ⊢
  dsimp only at h ⊢
  generalize b.onRegion a w (readOp w) = loaded at h ⊢
  cases hok : loaded.1.ok with
  | false =>
    rw [if_pos (by rw [hok]; rfl), hok] at h
    cases h
  | true =>
    rw [if_neg (by simp), nextReservationTokenLocked]
    dsimp only
    split
    · next hzero =>
      -- the counter wrapped around, and the token after zero is one
      rw [ReservationToken.valid, Bool.not_eq_true', bne_eq_false_iff_eq] at hzero
      rw [show loaded.2.nextReservationToken = 0#64 from hzero]
      rfl
    · next hvalid =>
      rw [Bool.not_eq_true, Bool.not_eq_false'] at hvalid
      exact hvalid

end Rvemu
