import Mathlib.Data.List.GetD
import Mathlib.Tactic.Common
import Mathlib.Algebra.Group.Nat.Defs

/-!
# The disk image

`DiskBackend` is a host file opened as a disk: whether it is open and writable, the capacity that
was frozen when it was opened, and the bytes of the file.  The host decides how many bytes one
`pread` or `pwrite` transfers, so its answers are arguments, numbered by the calls of the loop.
-/

set_option autoImplicit false

namespace Rvemu

inductive DiskErrorCode
  | none | openFailure | statFailure | invalidFileType | invalidSize | readOnly | outOfRange
  | ioFailure
  deriving DecidableEq, Repr

structure DiskResult where
  code : DiskErrorCode := .none
  errnoValue : Int := 0
  detail : String := ""
  deriving DecidableEq, Repr

def DiskResult.ok (r : DiskResult) : Bool := r.code == .none

inductive DiskOpenMode
  | readOnly | readWrite
  deriving DecidableEq, Repr

/-- The host's answer to `open` and `fstat`. -/
inductive HostOpen
  | openFailed (errno : Int)
  | statFailed (errno : Int)
  | opened (regular : Bool) (image : List (BitVec 8)) (fits : image.length < 2 ^ 63)

/-- The host's answer to one `pread` or `pwrite`: how much it was willing to transfer. -/
inductive HostIo
  | bytes (count : ℕ)
  | failed (errno : Int)
  deriving DecidableEq, Repr

def sectorSize : BitVec 64 := 512#64

/-- Replace bytes from a position on; a list does not grow. -/
def overwrite (image : List (BitVec 8)) (position : ℕ) (bytes : List (BitVec 8)) :
    List (BitVec 8) :=
  image.mapIdx fun i old ↦
    if position ≤ i ∧ i < position + bytes.length then bytes.getD (i - position) 0#8 else old

@[simp] theorem length_overwrite (image : List (BitVec 8)) (position : ℕ)
    (bytes : List (BitVec 8)) :
    (overwrite image position bytes).length = image.length := by
  simp [overwrite]

theorem getD_overwrite (image : List (BitVec 8)) (position : ℕ) (bytes : List (BitVec 8)) {i : ℕ}
    (hi : i < image.length) :
    (overwrite image position bytes).getD i 0#8 =
      if position ≤ i ∧ i < position + bytes.length then bytes.getD (i - position) 0#8
      else image.getD i 0#8 := by
  simp [overwrite, List.getD_eq_getElem?_getD, hi]

/-- Lists of bytes of one length are equal when their entries are. -/
theorem eq_of_getD {l l' : List (BitVec 8)} (hlen : l.length = l'.length)
    (h : ∀ i, i < l.length → l.getD i 0#8 = l'.getD i 0#8) : l = l' := by
  apply List.ext_getElem hlen
  intro i h₁ h₂
  simpa [List.getD_eq_getElem?_getD, h₁, h₂] using h i h₁

@[simp] theorem overwrite_nil (image : List (BitVec 8)) (position : ℕ) :
    overwrite image position [] = image := by
  refine eq_of_getD (length_overwrite _ _ _) fun i hi ↦ ?_
  rw [length_overwrite] at hi
  rw [getD_overwrite _ _ _ hi, List.length_nil, if_neg (by omega)]

/-- Two adjacent pieces are one. -/
theorem overwrite_append (image : List (BitVec 8)) (position : ℕ) (xs ys : List (BitVec 8)) :
    overwrite (overwrite image position xs) (position + xs.length) ys =
      overwrite image position (xs ++ ys) := by
  refine eq_of_getD (by simp) fun i hi ↦ ?_
  rw [length_overwrite, length_overwrite] at hi
  rw [getD_overwrite _ _ _ (by rwa [length_overwrite]), getD_overwrite _ _ _ hi,
    getD_overwrite _ _ _ hi, List.length_append]
  by_cases hx : position ≤ i ∧ i < position + xs.length
  · rw [if_neg (by omega), if_pos hx, if_pos (by omega), List.getD_append _ _ _ _ (by omega)]
  · by_cases hy : position + xs.length ≤ i ∧ i < position + xs.length + ys.length
    · rw [if_pos hy, if_pos (by omega), List.getD_append_right _ _ _ _ (by omega)]
      congr 1
      omega
    · rw [if_neg hy, if_neg hx, if_neg (by omega)]

/-- Bytes for the whole list replace it. -/
theorem overwrite_self_length {image bytes : List (BitVec 8)} (h : bytes.length = image.length) :
    overwrite image 0 bytes = bytes := by
  refine eq_of_getD (by simp [h]) fun i hi ↦ ?_
  rw [length_overwrite] at hi
  rw [getD_overwrite _ _ _ hi, if_pos (by omega), Nat.sub_zero]

structure DiskBackend where
  isOpen : Bool := false
  writable : Bool := false
  capacitySectors : BitVec 64 := 0#64
  image : List (BitVec 8) := []
  size_eq : isOpen = true → image.length = capacitySectors.toNat * 512 := by
    intro h; cases h
  fits : image.length < 2 ^ 63 := by decide

namespace DiskBackend

def closed : DiskBackend := {}

def openExisting (mode : DiskOpenMode) : HostOpen → DiskResult × DiskBackend
  | .openFailed errno => ({ code := .openFailure, errnoValue := errno,
                            detail := "打开磁盘镜像失败" }, closed)
  | .statFailed errno =>
    ({ code := .statFailure, errnoValue := errno, detail := "读取磁盘镜像 stat 失败" }, closed)
  | .opened regular image fits =>
    if regular = false then
      ({ code := .invalidFileType, detail := "磁盘镜像必须是普通文件" }, closed)
    else if h : image.length = 0 ∨ image.length % 512 ≠ 0 then
      ({ code := .invalidSize, detail := "磁盘镜像大小必须是 512 字节正整数倍" }, closed)
    else
      ({}, { isOpen := true
             writable := mode == .readWrite
             capacitySectors := BitVec.ofNat 64 (image.length / 512)
             image, fits
             size_eq := fun _ ↦ by rw [BitVec.toNat_ofNat]; omega })

def offTMax : BitVec 64 := 0x7FFFFFFFFFFFFFFF#64

def checkRange (d : DiskBackend) (sector byteCount : BitVec 64) : DiskResult :=
  if d.isOpen = false then { code := .ioFailure, errnoValue := 9, detail := "磁盘镜像尚未打开" }
  else if byteCount = 0#64 then {}
  else
    let sectorOffset := sector * sectorSize
    if sector ≠ 0#64 ∧ sectorOffset / sectorSize ≠ sector then
      { code := .outOfRange, detail := "sector * 512 发生溢出" }
    else
      let capacityBytes := d.capacitySectors * sectorSize
      if capacityBytes < sectorOffset ∨ capacityBytes - sectorOffset < byteCount then
        { code := .outOfRange, detail := "磁盘 I/O 超出冻结 capacity" }
      else if offTMax < sectorOffset ∨ offTMax - sectorOffset < byteCount then
        { code := .outOfRange, detail := "宿主 off_t 无法表示该磁盘偏移" }
      else {}

/-- What one call transfers: no more than was asked for, and nothing past the end of the file, where
the range check lets no call go. -/
def transferred (d : DiskBackend) (position remaining : ℕ) : HostIo → ℕ
  | .bytes count => min count (min remaining (d.image.length - position))
  | .failed _ => 0

def ioFailure (detail : String) : HostIo → DiskResult
  | .bytes _ => { code := .ioFailure, errnoValue := 5, detail }
  | .failed errno => { code := .ioFailure, errnoValue := errno, detail }

/-- The loop of `read`; every turn that goes on transfers something, so `fuel` is the size of the
buffer. -/
def readFrom (d : DiskBackend) (replies : ℕ → HostIo) (offset : ℕ) :
    ℕ → ℕ → ℕ → List (BitVec 8) → DiskResult × List (BitVec 8)
  | 0, _, _, buffer => ({}, buffer)
  | fuel + 1, call, done, buffer =>
    if done < buffer.length then
      let position := offset + done
      let count := d.transferred position (buffer.length - done) (replies call)
      if 0 < count then
        d.readFrom replies offset fuel (call + 1) (done + count)
          (overwrite buffer done ((d.image.drop position).take count))
      else (ioFailure "磁盘镜像短读或读取失败" (replies call), buffer)
    else ({}, buffer)

def read (d : DiskBackend) (replies : ℕ → HostIo) (sector : BitVec 64) (buffer : List (BitVec 8)) :
    DiskResult × List (BitVec 8) :=
  let range := d.checkRange sector (BitVec.ofNat 64 buffer.length)
  if !range.ok then (range, buffer)
  else d.readFrom replies (sector * sectorSize).toNat buffer.length 0 0 buffer

/-- A buffer keeps its length, however much of it is filled. -/
theorem length_readFrom (d : DiskBackend) (replies : ℕ → HostIo) (offset fuel call done : ℕ)
    (buffer : List (BitVec 8)) :
    (d.readFrom replies offset fuel call done buffer).2.length = buffer.length := by
  induction fuel generalizing call done buffer with
  | zero => rfl
  | succ fuel ih =>
    rw [readFrom]
    split
    · dsimp only
      split
      · rw [ih, length_overwrite]
      · rfl
    · rfl

theorem length_read (d : DiskBackend) (replies : ℕ → HostIo) (sector : BitVec 64)
    (buffer : List (BitVec 8)) : (d.read replies sector buffer).2.length = buffer.length := by
  rw [read]
  split
  · rfl
  · exact d.length_readFrom replies _ _ _ _ _

/-- The file after bytes of it were replaced. -/
def withBytes (d : DiskBackend) (position : ℕ) (bytes : List (BitVec 8)) : DiskBackend :=
  { d with
    image := overwrite d.image position bytes
    size_eq := fun h ↦ by rw [length_overwrite, d.size_eq h]
    fits := by rw [length_overwrite]; exact d.fits }

def writeFrom (replies : ℕ → HostIo) (offset : ℕ) (buffer : List (BitVec 8)) :
    ℕ → ℕ → ℕ → DiskBackend → DiskResult × DiskBackend
  | 0, _, _, d => ({}, d)
  | fuel + 1, call, done, d =>
    if done < buffer.length then
      let position := offset + done
      let count := d.transferred position (buffer.length - done) (replies call)
      if 0 < count then
        writeFrom replies offset buffer fuel (call + 1) (done + count)
          (d.withBytes position ((buffer.drop done).take count))
      else (ioFailure "磁盘镜像短写或写入失败" (replies call), d)
    else ({}, d)

def write (d : DiskBackend) (replies : ℕ → HostIo) (sector : BitVec 64) (buffer : List (BitVec 8)) :
    DiskResult × DiskBackend :=
  if d.writable = false then ({ code := .readOnly, detail := "只读磁盘镜像拒绝写入" }, d)
  else
    let range := d.checkRange sector (BitVec.ofNat 64 buffer.length)
    if !range.ok then (range, d)
    else writeFrom replies (sector * sectorSize).toNat buffer buffer.length 0 0 d

/-! ## What the loops do

The host serves every call when it transfers something each time; then a request in range is served
completely, however it is cut into calls. -/

def Serves (replies : ℕ → HostIo) : Prop := ∀ call, ∃ count, 0 < count ∧ replies call = .bytes count

theorem transferred_pos {replies : ℕ → HostIo} (hserves : Serves replies) (d : DiskBackend)
    (position remaining call : ℕ) (hr : 0 < remaining)
    (hfit : position + remaining ≤ d.image.length) :
    0 < d.transferred position remaining (replies call) ∧
      d.transferred position remaining (replies call) ≤ remaining := by
  obtain ⟨count, hpos, hreply⟩ := hserves call
  rw [hreply, transferred]
  omega

theorem readFrom_eq {replies : ℕ → HostIo} (hserves : Serves replies) (d : DiskBackend) {offset : ℕ}
    (fuel call : ℕ) {done : ℕ} {buffer : List (BitVec 8)} (hfuel : buffer.length ≤ done + fuel)
    (hdone : done ≤ buffer.length) (hfit : offset + buffer.length ≤ d.image.length) :
    d.readFrom replies offset fuel call done buffer =
      ({}, overwrite buffer done ((d.image.drop (offset + done)).take (buffer.length - done))) := by
  induction fuel generalizing call done buffer with
  | zero =>
    rw [readFrom, show buffer.length - done = 0 by omega, List.take_zero, overwrite_nil]
  | succ fuel ih =>
    rw [readFrom]
    rcases Nat.lt_or_ge done buffer.length with hlt | hge
    · obtain ⟨hpos, hle⟩ := transferred_pos hserves d (offset + done) (buffer.length - done) call
        (by omega) (by omega)
      set count := d.transferred (offset + done) (buffer.length - done) (replies call) with hcount
      have hlen : ((d.image.drop (offset + done)).take count).length = count := by
        rw [List.length_take, List.length_drop]
        omega
      rw [if_pos hlt, if_pos hpos, ih (call + 1) (by rw [length_overwrite]; omega)
        (by rw [length_overwrite]; omega) (by rw [length_overwrite]; exact hfit), length_overwrite]
      refine congrArg (Prod.mk _) ?_
      have happend := overwrite_append buffer done ((d.image.drop (offset + done)).take count)
        ((d.image.drop (offset + (done + count))).take (buffer.length - (done + count)))
      rw [hlen] at happend
      have hdrop : d.image.drop (offset + (done + count)) =
          (d.image.drop (offset + done)).drop count := by
        rw [List.drop_drop, Nat.add_assoc]
      rw [happend, hdrop, ← List.take_add,
        show count + (buffer.length - (done + count)) = buffer.length - done by omega]
    · rw [if_neg (by omega), show buffer.length - done = 0 by omega, List.take_zero, overwrite_nil]

theorem withBytes_nil (d : DiskBackend) (position : ℕ) : d.withBytes position [] = d := by
  cases d
  simp [withBytes]

theorem withBytes_append (d : DiskBackend) (position : ℕ) (xs ys : List (BitVec 8)) :
    (d.withBytes position xs).withBytes (position + xs.length) ys =
      d.withBytes position (xs ++ ys) := by
  cases d
  simp [withBytes, overwrite_append]

theorem writeFrom_eq {replies : ℕ → HostIo} (hserves : Serves replies) {offset : ℕ}
    {buffer : List (BitVec 8)} (fuel call : ℕ) {done : ℕ} {d : DiskBackend}
    (hfuel : buffer.length ≤ done + fuel) (hdone : done ≤ buffer.length)
    (hfit : offset + buffer.length ≤ d.image.length) :
    writeFrom replies offset buffer fuel call done d =
      ({}, d.withBytes (offset + done) (buffer.drop done)) := by
  induction fuel generalizing call done d with
  | zero => rw [writeFrom, List.drop_eq_nil_of_le (by omega), withBytes_nil]
  | succ fuel ih =>
    rw [writeFrom]
    rcases Nat.lt_or_ge done buffer.length with hlt | hge
    · obtain ⟨hpos, hle⟩ := transferred_pos hserves d (offset + done) (buffer.length - done) call
        (by omega) (by omega)
      set count := d.transferred (offset + done) (buffer.length - done) (replies call) with hcount
      have hlen : ((buffer.drop done).take count).length = count := by
        rw [List.length_take, List.length_drop]
        omega
      rw [if_pos hlt, if_pos hpos, ih (call + 1) (by omega) (by omega)
        (by simpa [withBytes] using hfit)]
      refine congrArg (Prod.mk _) ?_
      have happend := withBytes_append d (offset + done) ((buffer.drop done).take count)
        (buffer.drop (done + count))
      rw [hlen] at happend
      rw [← Nat.add_assoc, happend, ← List.drop_drop, List.take_append_drop]
    · rw [if_neg (by omega), List.drop_eq_nil_of_le hge, withBytes_nil]

/-- The range check, without the arithmetic of machine words. -/
theorem ok_checkRange_iff (d : DiskBackend) (sector byteCount : BitVec 64) :
    (d.checkRange sector byteCount).ok = true ↔
      d.isOpen = true ∧ (byteCount = 0#64 ∨
        sector.toNat * 512 + byteCount.toNat ≤ d.image.length) := by
  rw [checkRange]
  cases hopen : d.isOpen with
  | false => simp [DiskResult.ok]
  | true =>
    have hsize := d.size_eq hopen
    have hfits := d.fits
    have hs := sector.isLt
    have hn := byteCount.isLt
    by_cases hz : byteCount = 0#64
    · simp [hz, DiskResult.ok]
    · have hne : byteCount.toNat ≠ 0 := fun h ↦ hz (BitVec.eq_of_toNat_eq h)
      have hcap : (d.capacitySectors * sectorSize).toNat = d.image.length := by
        rw [sectorSize, BitVec.toNat_mul, hsize]
        exact Nat.mod_eq_of_lt (Nat.lt_trans (hsize ▸ hfits) (by decide))
      have hoffset : (sector * sectorSize).toNat = sector.toNat * 512 % 2 ^ 64 := by
        rw [sectorSize, BitVec.toNat_mul]
        rfl
      have hmax : offTMax.toNat = 2 ^ 63 - 1 := rfl
      have hoverflow : (sector * sectorSize) / sectorSize = sector ↔
          sector.toNat * 512 < 2 ^ 64 := by
        rw [← BitVec.toNat_inj, BitVec.toNat_udiv, hoffset,
          show sectorSize.toNat = 512 from rfl]
        omega
      have hroom : ∀ m x : BitVec 64, ¬ m < x → (m - x).toNat = m.toNat - x.toNat := by
        intro m x hx
        rw [BitVec.lt_def] at hx
        exact BitVec.toNat_sub_of_le (BitVec.le_def.2 (Nat.le_of_not_lt hx))
      rw [if_neg (by simp), if_neg hz]
      simp only [hz, true_and, false_or]
      by_cases hs512 : sector.toNat * 512 < 2 ^ 64
      · rw [Nat.mod_eq_of_lt hs512] at hoffset
        rw [if_neg fun h ↦ h.2 (hoverflow.2 hs512)]
        by_cases hc : d.image.length < sector.toNat * 512
        · rw [if_pos (Or.inl (by rw [BitVec.lt_def, hcap, hoffset]; exact hc))]
          simp only [DiskResult.ok, show (DiskErrorCode.outOfRange == .none) = false by decide,
            Bool.false_eq_true, false_iff]
          omega
        · have hnot : ¬ d.capacitySectors * sectorSize < sector * sectorSize := by
            rw [BitVec.lt_def, hcap, hoffset]
            exact hc
          have hnot' : ¬ offTMax < sector * sectorSize := by
            rw [BitVec.lt_def, hmax, hoffset]
            omega
          simp only [hnot, hnot', false_or, BitVec.lt_def, hroom _ _ hnot, hroom _ _ hnot', hcap,
            hoffset, hmax]
          split_ifs with h₁ h₂
          · simp only [DiskResult.ok, show (DiskErrorCode.outOfRange == .none) = false by decide,
              Bool.false_eq_true, false_iff]
            omega
          · omega
          · simp only [DiskResult.ok, show (DiskErrorCode.none == .none) = true by decide, true_iff]
            omega
      · have hs0 : sector ≠ 0#64 := by
          rintro rfl
          exact hs512 (by decide)
        rw [if_pos ⟨hs0, by rw [Ne, hoverflow]; exact hs512⟩]
        simp only [DiskResult.ok, show (DiskErrorCode.outOfRange == .none) = false by decide,
          Bool.false_eq_true, false_iff]
        omega

/-- An open disk reads nothing from every sector. -/
theorem ok_read_nil_iff (d : DiskBackend) {replies : ℕ → HostIo} {sector : BitVec 64} :
    (d.read replies sector []).1.ok = true ↔ d.isOpen = true := by
  have hrange := d.ok_checkRange_iff sector 0#64
  rw [eq_self_iff_true, true_or, and_true] at hrange
  rw [← hrange, read]
  cases hok : (d.checkRange sector 0#64).ok with
  | false => simp [hok]
  | true => simp [readFrom, DiskResult.ok]

theorem toNat_offset {d : DiskBackend} {sector : BitVec 64} {n : ℕ}
    (h : sector.toNat * 512 + n ≤ d.image.length) :
    (sector * sectorSize).toNat = sector.toNat * 512 := by
  have hfits := d.fits
  rw [sectorSize, BitVec.toNat_mul]
  exact Nat.mod_eq_of_lt (show sector.toNat * 512 < 2 ^ 64 by omega)

/-- A range that passes the check is empty or lies in the file. -/
theorem fits_of_checkRange {d : DiskBackend} {sector : BitVec 64} {n : ℕ} (hn : n < 2 ^ 64)
    (h : (d.checkRange sector (BitVec.ofNat 64 n)).ok = true) :
    n = 0 ∨ sector.toNat * 512 + n ≤ d.image.length := by
  have hrange := ((d.ok_checkRange_iff _ _).1 h).2
  rwa [← BitVec.toNat_inj, BitVec.toNat_ofNat, BitVec.toNat_ofNat, Nat.mod_eq_of_lt hn,
    Nat.zero_mod] at hrange

/-- The bytes of the file from a sector on. -/
def bytesAt (d : DiskBackend) (sector : BitVec 64) (n : ℕ) : List (BitVec 8) :=
  (d.image.drop (sector.toNat * 512)).take n

theorem length_bytesAt {d : DiskBackend} {sector : BitVec 64} {n : ℕ}
    (h : n = 0 ∨ sector.toNat * 512 + n ≤ d.image.length) : (d.bytesAt sector n).length = n := by
  rw [bytesAt, List.length_take, List.length_drop]
  omega

section Served

variable {replies : ℕ → HostIo} (hserves : Serves replies) {d : DiskBackend} {sector : BitVec 64}
  {buffer : List (BitVec 8)} (hlen : buffer.length < 2 ^ 64)

include hserves hlen

/-- A read in range fills the buffer with the bytes of the file. -/
theorem read_eq (hok : (d.checkRange sector (BitVec.ofNat 64 buffer.length)).ok = true) :
    d.read replies sector buffer = ({}, d.bytesAt sector buffer.length) := by
  rw [read, hok, if_neg (by simp)]
  rcases fits_of_checkRange hlen hok with hz | hfit
  · obtain rfl := List.eq_nil_of_length_eq_zero hz
    simp [readFrom, bytesAt]
  · rw [toNat_offset hfit, readFrom_eq hserves d _ _ (by omega) (Nat.zero_le _) hfit, Nat.add_zero,
      Nat.sub_zero, bytesAt, overwrite_self_length]
    rw [List.length_take, List.length_drop]
    omega

/-- A write in range puts the buffer into the file. -/
theorem write_eq (hw : d.writable = true)
    (hok : (d.checkRange sector (BitVec.ofNat 64 buffer.length)).ok = true) :
    d.write replies sector buffer = ({}, d.withBytes (sector.toNat * 512) buffer) := by
  rw [write, if_neg (by simp [hw])]
  dsimp only
  rw [hok, if_neg (by simp)]
  rcases fits_of_checkRange hlen hok with hz | hfit
  · obtain rfl := List.eq_nil_of_length_eq_zero hz
    rw [List.length_nil, writeFrom, withBytes_nil]
  · rw [toNat_offset hfit, writeFrom_eq hserves _ _ (by omega) (Nat.zero_le _) hfit, Nat.add_zero,
      List.drop_zero]

/-- A write is done completely or not at all. -/
theorem write_cases :
    (d.writable = true ∧ (d.checkRange sector (BitVec.ofNat 64 buffer.length)).ok = true ∧
      d.write replies sector buffer = ({}, d.withBytes (sector.toNat * 512) buffer)) ∨
    (¬ (d.writable = true ∧ (d.checkRange sector (BitVec.ofNat 64 buffer.length)).ok = true) ∧
      (d.write replies sector buffer).1.ok = false ∧ (d.write replies sector buffer).2 = d) := by
  by_cases hw : d.writable = true
  · by_cases hok : (d.checkRange sector (BitVec.ofNat 64 buffer.length)).ok = true
    · exact Or.inl ⟨hw, hok, write_eq hserves hlen hw hok⟩
    · refine Or.inr ⟨fun h ↦ hok h.2, ?_⟩
      rw [write, if_neg (by simp [hw])]
      dsimp only
      rw [if_pos (by simpa using hok)]
      exact ⟨by simpa using hok, rfl⟩
  · refine Or.inr ⟨fun h ↦ hw h.1, ?_⟩
    rw [write, if_pos (by simpa using hw)]
    exact ⟨rfl, rfl⟩

/-- A read is done completely or fails. -/
theorem read_cases :
    ((d.checkRange sector (BitVec.ofNat 64 buffer.length)).ok = true ∧
      d.read replies sector buffer = ({}, d.bytesAt sector buffer.length)) ∨
    ((d.checkRange sector (BitVec.ofNat 64 buffer.length)).ok = false ∧
      (d.read replies sector buffer).1.ok = false) := by
  cases hok : (d.checkRange sector (BitVec.ofNat 64 buffer.length)).ok with
  | true => exact Or.inl ⟨rfl, read_eq hserves hlen hok⟩
  | false =>
    refine Or.inr ⟨rfl, ?_⟩
    rw [read, hok, if_pos (by rfl), hok]

end Served

/-- The bytes just written are there. -/
theorem bytesAt_withBytes {d : DiskBackend} {sector : BitVec 64} {bytes : List (BitVec 8)}
    (h : bytes.length = 0 ∨ sector.toNat * 512 + bytes.length ≤ d.image.length) :
    (d.withBytes (sector.toNat * 512) bytes).bytesAt sector bytes.length = bytes := by
  have hlen : ((d.withBytes (sector.toNat * 512) bytes).bytesAt sector bytes.length).length =
      bytes.length := length_bytesAt (by simpa [withBytes] using h)
  rcases h with hz | h
  · rw [List.eq_nil_of_length_eq_zero hz]
    simp [bytesAt]
  · refine eq_of_getD hlen fun i hi ↦ ?_
    rw [hlen] at hi
    have hget : ((d.withBytes (sector.toNat * 512) bytes).bytesAt sector bytes.length).getD i 0#8 =
        (overwrite d.image (sector.toNat * 512) bytes).getD (sector.toNat * 512 + i) 0#8 := by
      simp [bytesAt, withBytes, List.getD_eq_getElem?_getD, hi]
    rw [hget, getD_overwrite _ _ _ (by omega), if_pos (by omega)]
    congr 1
    omega

end DiskBackend

end Rvemu
