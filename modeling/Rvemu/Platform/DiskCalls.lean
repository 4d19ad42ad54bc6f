import Rvemu.Platform.DiskBackend
import Mathlib.Data.Int.Notation
import Mathlib.Algebra.GroupWithZero.Nat

/-!
# The calls to the host

The loops of `DiskBackend::read` and `DiskBackend::write` again, with each `pread` and `pwrite` they
make: where it starts, how much it asks for, and how much it moved.  Here the host may move any part
of what it is asked for, or fail.  The calls continue one another (`Successive`), and what a loop
has done when it stops is what its calls have moved (`readFrom_moved`, `writeFrom_moved`), so a loop
that reports success has covered its range once.
-/

set_option autoImplicit false

namespace Rvemu

/-- One `pread` or `pwrite`: the position and the size it is called with, and how much it moved. -/
structure DiskCall where
  position : BitVec 64
  size : BitVec 64
  moved : ℕ
  deriving DecidableEq, Repr

namespace DiskBackend

/-- The calls of either loop; the sum is that of the code, in 64 bits. -/
def callsFrom (d : DiskBackend) (replies : ℕ → HostIo) (offset : BitVec 64) (size : ℕ) :
    ℕ → ℕ → ℕ → List DiskCall
  | 0, _, _ => []
  | fuel + 1, call, done =>
    if done < size then
      let moved := d.transferred (offset.toNat + done) (size - done) (replies call)
      { position := offset + BitVec.ofNat 64 done
        size := BitVec.ofNat 64 (size - done), moved } ::
        if 0 < moved then d.callsFrom replies offset size fuel (call + 1) (done + moved) else []
    else []

def readCalls (d : DiskBackend) (replies : ℕ → HostIo) (sector : BitVec 64) (size : ℕ) :
    List DiskCall :=
  if !(d.checkRange sector (BitVec.ofNat 64 size)).ok then []
  else d.callsFrom replies (sector * sectorSize) size size 0 0

def writeCalls (d : DiskBackend) (replies : ℕ → HostIo) (sector : BitVec 64) (size : ℕ) :
    List DiskCall :=
  if d.writable = false then [] else d.readCalls replies sector size

def moved (calls : List DiskCall) : ℕ := (calls.map (·.moved)).sum

@[simp] theorem moved_nil : moved [] = 0 := rfl

@[simp] theorem moved_cons (call : DiskCall) (rest : List DiskCall) :
    moved (call :: rest) = call.moved + moved rest := rfl

/-- Each call starts where the one before it stopped and asks for all that is left up to `stop`; the
positions are those of an `off_t`. -/
def Successive (stop : ℕ) : ℕ → List DiskCall → Prop
  | _, [] => True
  | start, call :: rest =>
    call.position.toInt = start ∧ start + call.size.toNat = stop ∧ call.moved ≤ call.size.toNat ∧
      Successive stop (start + call.moved) rest

/-- Calls that continue one another stay in their range. -/
theorem Successive.within {start stop : ℕ} {calls : List DiskCall}
    (h : Successive stop start calls) :
    ∀ call ∈ calls, (start : ℤ) ≤ call.position.toInt ∧
      call.position.toInt + call.size.toNat = stop := by
  induction calls generalizing start with
  | nil => intro call hcall; cases hcall
  | cons first rest ih =>
    obtain ⟨hposition, hsize, -, hrest⟩ := h
    intro call hcall
    rcases List.mem_cons.1 hcall with rfl | hcall
    · omega
    · have := ih hrest call hcall
      omega

/-! ## The loops -/

section Loops

variable {d : DiskBackend} {replies : ℕ → HostIo} {offset : BitVec 64} {size : ℕ}

@[simp] theorem length_withBytes (d : DiskBackend) (position : ℕ) (bytes : List (BitVec 8)) :
    (d.withBytes position bytes).image.length = d.image.length := length_overwrite _ _ _

/-- The host looks only at the length of the file. -/
theorem transferred_withBytes (d : DiskBackend) (start : ℕ) (bytes : List (BitVec 8))
    (position remaining : ℕ) (reply : HostIo) :
    (d.withBytes start bytes).transferred position remaining reply =
      d.transferred position remaining reply := by
  cases reply <;> simp [transferred]

theorem callsFrom_withBytes (d : DiskBackend) (position : ℕ) (bytes : List (BitVec 8))
    (fuel call done : ℕ) :
    (d.withBytes position bytes).callsFrom replies offset size fuel call done =
      d.callsFrom replies offset size fuel call done := by
  induction fuel generalizing call done with
  | zero => rfl
  | succ fuel ih => simp only [callsFrom, transferred_withBytes, ih]

theorem transferred_le (d : DiskBackend) (position remaining : ℕ) (reply : HostIo) :
    d.transferred position remaining reply ≤ remaining := by
  cases reply with
  | failed => exact Nat.zero_le _
  | bytes count =>
    rw [transferred]
    omega

theorem successive_callsFrom (hfit : offset.toNat + size < 2 ^ 63) (fuel call done : ℕ) :
    Successive (offset.toNat + size) (offset.toNat + done)
      (d.callsFrom replies offset size fuel call done) := by
  induction fuel generalizing call done with
  | zero => trivial
  | succ fuel ih =>
    rw [callsFrom]
    split
    · next hlt =>
      have hmoved := d.transferred_le (offset.toNat + done) (size - done) (replies call)
      have hposition : (offset + BitVec.ofNat 64 done).toNat = offset.toNat + done := by
        rw [BitVec.toNat_add, BitVec.toNat_ofNat]
        omega
      have hsize : (BitVec.ofNat 64 (size - done)).toNat = size - done := by
        rw [BitVec.toNat_ofNat]
        omega
      refine ⟨?_, ?_, ?_, ?_⟩
      · show (offset + BitVec.ofNat 64 done).toInt = _
        rw [BitVec.toInt_eq_toNat_of_lt (by omega), hposition]
      · dsimp only
        omega
      · dsimp only
        omega
      · dsimp only
        split
        · rw [Nat.add_assoc]
          exact ih _ _
        · trivial
    · trivial

section Moved

variable {fuel call done : ℕ}

theorem moved_callsFrom_of_le (h : size ≤ done) :
    moved (d.callsFrom replies offset size fuel call done) = 0 := by
  cases fuel with
  | zero => rfl
  | succ fuel => rw [callsFrom, if_neg (Nat.not_lt.2 h), moved_nil]

/-- A call that moves nothing is the last. -/
theorem moved_callsFrom_of_zero
    (h : d.transferred (offset.toNat + done) (size - done) (replies call) = 0) :
    moved (d.callsFrom replies offset size (fuel + 1) call done) = 0 := by
  rw [callsFrom]
  split <;> simp [h]

theorem moved_callsFrom_of_pos (hlt : done < size) {count : ℕ}
    (hcount : d.transferred (offset.toNat + done) (size - done) (replies call) = count)
    (hpos : 0 < count) : moved (d.callsFrom replies offset size (fuel + 1) call done) =
      count + moved (d.callsFrom replies offset size fuel (call + 1) (done + count)) := by
  simp [callsFrom, hlt, hcount, hpos]

theorem ok_ioFailure (detail : String) (reply : HostIo) : (ioFailure detail reply).ok = false := by
  cases reply <;> rfl

end Moved

/-- What the loop of `write` leaves is what its calls have moved, and it reports success when that
is all. -/
theorem writeFrom_moved (buffer : List (BitVec 8)) (fuel call done : ℕ)
    (hfuel : buffer.length ≤ done + fuel) (hdone : done ≤ buffer.length) :
    let calls := d.callsFrom replies offset buffer.length fuel call done
    let written := writeFrom replies offset.toNat buffer fuel call done d
    written.2 = d.withBytes (offset.toNat + done) ((buffer.drop done).take (moved calls)) ∧
      (written.1.ok = true ↔ moved calls = buffer.length - done) := by
  induction fuel generalizing d call done with
  | zero =>
    refine ⟨?_, ?_⟩
    · rw [writeFrom, callsFrom, moved_nil, List.take_zero, withBytes_nil]
    · exact iff_of_true rfl (by rw [callsFrom, moved_nil]; omega)
  | succ fuel ih =>
    intro calls written
    rcases Nat.lt_or_ge done buffer.length with hlt | hge
    · have hle := d.transferred_le (offset.toNat + done) (buffer.length - done) (replies call)
      generalize hcount :
        d.transferred (offset.toNat + done) (buffer.length - done) (replies call) = count at hle
      rcases Nat.eq_zero_or_pos count with rfl | hpos
      · have hwritten : written = (ioFailure "磁盘镜像短写或写入失败" (replies call), d) := by
          simp [written, writeFrom, hlt, hcount]
        rw [moved_callsFrom_of_zero hcount, hwritten, List.take_zero, withBytes_nil]
        exact ⟨rfl, iff_of_false (by simp [ok_ioFailure]) (by omega)⟩
      · have hwritten : written = writeFrom replies offset.toNat buffer fuel (call + 1)
            (done + count)
            (d.withBytes (offset.toNat + done) ((buffer.drop done).take count)) := by
          simp [written, writeFrom, hlt, hcount, hpos]
        obtain ⟨himage, hok⟩ := ih (d := d.withBytes (offset.toNat + done)
          ((buffer.drop done).take count)) (call + 1) (done + count) (by omega) (by omega)
        rw [callsFrom_withBytes] at himage hok
        have hlen : ((buffer.drop done).take count).length = count := by
          rw [List.length_take, List.length_drop]
          omega
        have happend := withBytes_append d (offset.toNat + done) ((buffer.drop done).take count)
          ((buffer.drop (done + count)).take
            (moved (d.callsFrom replies offset buffer.length fuel (call + 1) (done + count))))
        rw [hlen, ← List.drop_drop, ← List.take_add] at happend
        rw [hwritten, moved_callsFrom_of_pos hlt hcount hpos]
        refine ⟨?_, hok.trans (by omega)⟩
        rw [himage, ← Nat.add_assoc, ← List.drop_drop, happend]
    · have hwritten : written = ({}, d) := by
        simp [written, writeFrom, Nat.not_lt.2 hge]
      rw [moved_callsFrom_of_le hge, hwritten, List.take_zero, withBytes_nil]
      exact ⟨rfl, iff_of_true rfl (by omega)⟩

/-- The loop of `read` in the same way. -/
theorem readFrom_moved (fuel call done : ℕ) (buffer : List (BitVec 8))
    (hfuel : buffer.length ≤ done + fuel) (hdone : done ≤ buffer.length)
    (hfit : offset.toNat + buffer.length ≤ d.image.length) :
    let calls := d.callsFrom replies offset buffer.length fuel call done
    let read := d.readFrom replies offset.toNat fuel call done buffer
    read.2 = overwrite buffer done ((d.image.drop (offset.toNat + done)).take (moved calls)) ∧
      (read.1.ok = true ↔ moved calls = buffer.length - done) := by
  induction fuel generalizing call done buffer with
  | zero =>
    refine ⟨?_, ?_⟩
    · rw [readFrom, callsFrom, moved_nil, List.take_zero, overwrite_nil]
    · exact iff_of_true rfl (by rw [callsFrom, moved_nil]; omega)
  | succ fuel ih =>
    intro calls read
    rcases Nat.lt_or_ge done buffer.length with hlt | hge
    · have hle := d.transferred_le (offset.toNat + done) (buffer.length - done) (replies call)
      generalize hcount :
        d.transferred (offset.toNat + done) (buffer.length - done) (replies call) = count at hle
      rcases Nat.eq_zero_or_pos count with rfl | hpos
      · have hread : read = (ioFailure "磁盘镜像短读或读取失败" (replies call), buffer) := by
          simp [read, readFrom, hlt, hcount]
        rw [moved_callsFrom_of_zero hcount, hread, List.take_zero, overwrite_nil]
        exact ⟨rfl, iff_of_false (by simp [ok_ioFailure]) (by omega)⟩
      · have hread : read = d.readFrom replies offset.toNat fuel (call + 1) (done + count)
            (overwrite buffer done ((d.image.drop (offset.toNat + done)).take count)) := by
          simp [read, readFrom, hlt, hcount, hpos]
        obtain ⟨hbuffer, hok⟩ := ih (call + 1) (done + count)
          (overwrite buffer done ((d.image.drop (offset.toNat + done)).take count))
          (by rw [length_overwrite]; omega) (by rw [length_overwrite]; omega)
          (by rw [length_overwrite]; exact hfit)
        rw [length_overwrite] at hbuffer hok
        have hlen : ((d.image.drop (offset.toNat + done)).take count).length = count := by
          rw [List.length_take, List.length_drop]
          omega
        have happend := overwrite_append buffer done
          ((d.image.drop (offset.toNat + done)).take count)
          (((d.image.drop (offset.toNat + done)).drop count).take
            (moved (d.callsFrom replies offset buffer.length fuel (call + 1) (done + count))))
        rw [hlen, ← List.take_add] at happend
        rw [hread, moved_callsFrom_of_pos hlt hcount hpos]
        refine ⟨?_, hok.trans (by omega)⟩
        have hdrop : d.image.drop (offset.toNat + (done + count)) =
            (d.image.drop (offset.toNat + done)).drop count := by
          rw [List.drop_drop, Nat.add_assoc]
        rw [hbuffer, hdrop, happend]
    · have hread : read = ({}, buffer) := by
        simp [read, readFrom, Nat.not_lt.2 hge]
      rw [moved_callsFrom_of_le hge, hread, List.take_zero, overwrite_nil]
      exact ⟨rfl, iff_of_true rfl (by omega)⟩

end Loops

/-! ## Whole accesses -/

section Accesses

variable {d : DiskBackend} {replies : ℕ → HostIo} {sector : BitVec 64} {size : ℕ}

/-- An access that calls the host is in the range of an open image. -/
theorem fits_of_readCalls (hsize : size < 2 ^ 64) (h : d.readCalls replies sector size ≠ []) :
    d.isOpen = true ∧ sector.toNat * 512 + size ≤ d.image.length := by
  rw [readCalls] at h
  split at h
  · exact absurd rfl h
  · next hok =>
    rw [Bool.not_eq_true', Bool.not_eq_false] at hok
    refine ⟨((d.ok_checkRange_iff _ _).1 hok).1, ?_⟩
    rcases fits_of_checkRange hsize hok with rfl | hfit
    · exact absurd rfl h
    · exact hfit

theorem successive_readCalls (hsize : size < 2 ^ 64) :
    Successive (sector.toNat * 512 + size) (sector.toNat * 512)
    (d.readCalls replies sector size) := by
  by_cases hnil : d.readCalls replies sector size = []
  · rw [hnil]
    trivial
  · have hfit := (fits_of_readCalls hsize hnil).2
    have hfits := d.fits
    rw [readCalls] at hnil ⊢
    split
    · trivial
    · have := @successive_callsFrom d replies (sector * sectorSize) size
        (by rw [toNat_offset hfit]; omega) size 0 0
      rwa [toNat_offset hfit, Nat.add_zero] at this

theorem writeCalls_eq (d : DiskBackend) (replies : ℕ → HostIo) (sector : BitVec 64) (size : ℕ) :
    d.writeCalls replies sector size = [] ∨
      d.writeCalls replies sector size = d.readCalls replies sector size := by
  rw [writeCalls]
  split
  · exact Or.inl rfl
  · exact Or.inr rfl

/-- A write leaves what its calls have moved; it reports success when that is the whole buffer, and
does not when the image is read-only or the range is refused. -/
theorem write_moved (buffer : List (BitVec 8)) (hlen : buffer.length < 2 ^ 64) :
    (d.write replies sector buffer).2 = d.withBytes (sector.toNat * 512)
        (buffer.take (moved (d.writeCalls replies sector buffer.length))) ∧
      ((d.write replies sector buffer).1.ok = true ↔
        d.writable = true ∧ (d.checkRange sector (BitVec.ofNat 64 buffer.length)).ok = true ∧
          moved (d.writeCalls replies sector buffer.length) = buffer.length) := by
  cases hw : d.writable with
  | false =>
    simp [write, writeCalls, hw, withBytes_nil, DiskResult.ok]
  | true =>
    cases hok : (d.checkRange sector (BitVec.ofNat 64 buffer.length)).ok with
    | false => simp [write, writeCalls, readCalls, hw, hok, withBytes_nil]
    | true =>
      have hcalls : d.writeCalls replies sector buffer.length =
          d.callsFrom replies (sector * sectorSize) buffer.length buffer.length 0 0 := by
        simp [writeCalls, readCalls, hw, hok]
      have hwrite : d.write replies sector buffer =
          writeFrom replies (sector * sectorSize).toNat buffer buffer.length 0 0 d := by
        simp [write, hw, hok]
      obtain ⟨himage, hdone⟩ := @writeFrom_moved d replies (sector * sectorSize) buffer
        buffer.length 0 0 (by omega) (Nat.zero_le _)
      rw [hwrite, hcalls]
      refine ⟨?_, by simpa using hdone⟩
      rw [himage, List.drop_zero, Nat.add_zero]
      rcases fits_of_checkRange hlen hok with hz | hfit
      · rw [List.eq_nil_of_length_eq_zero hz]
        simp [withBytes_nil]
      · rw [toNat_offset hfit]

/-- A read reports success when its calls have moved the whole buffer. -/
theorem read_moved {buffer : List (BitVec 8)} (hlen : buffer.length < 2 ^ 64) :
    (d.read replies sector buffer).1.ok = true ↔
      (d.checkRange sector (BitVec.ofNat 64 buffer.length)).ok = true ∧
        moved (d.readCalls replies sector buffer.length) = buffer.length := by
  cases hok : (d.checkRange sector (BitVec.ofNat 64 buffer.length)).ok with
  | false => simp [read, readCalls, hok]
  | true =>
    have hcalls : d.readCalls replies sector buffer.length =
        d.callsFrom replies (sector * sectorSize) buffer.length buffer.length 0 0 := by
      simp [readCalls, hok]
    have hread : d.read replies sector buffer =
        d.readFrom replies (sector * sectorSize).toNat buffer.length 0 0 buffer := by
      simp [read, hok]
    rw [hread, hcalls]
    rcases fits_of_checkRange hlen hok with hz | hfit
    · rw [List.eq_nil_of_length_eq_zero hz]
      simp [readFrom, callsFrom, DiskResult.ok]
    · have hdone := (@readFrom_moved d replies (sector * sectorSize) buffer.length 0 0 buffer
        (by omega) (Nat.zero_le _)
        (by rw [toNat_offset hfit]; exact hfit)).2
      simpa using hdone

end Accesses

end DiskBackend

end Rvemu
