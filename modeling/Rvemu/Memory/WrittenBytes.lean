import Rvemu.Lib.Runs
import Rvemu.Lib.StoreLog
import Rvemu.Memory.PhysicalMemory

/-!
# RAM as the bytes written to it

What RAM is for: a byte is what the latest store that covers it wrote, and a word is the number its
bytes stand for.  `WrittenBytes` keeps the log of the stores and nothing else, and every run of
reads, writes and compare-exchanges is answered by `PhysicalMemory` as the log answers it.
-/

set_option autoImplicit false

namespace Rvemu

open Bytes StoreLog

/-- An access to RAM, as the bus passes it on. -/
inductive RamAccess
  | read (offset : BitVec 64) (width : AccessWidth)
  | write (offset : BitVec 64) (width : AccessWidth) (value : BitVec 64)
  | compareExchange (offset : BitVec 64) (width : AccessWidth) (expected desired : BitVec 64)
  deriving DecidableEq, Repr

/-! ## The log -/

/-- The bytes of a RAM of `size` bytes: the initial ones and the stores since then, the latest of
them first. -/
structure WrittenBytes where
  size : ℕ
  initial : ℕ → BitVec 8
  log : List Store := []

namespace WrittenBytes

def byte (b : WrittenBytes) : ℕ → BitVec 8 := latest b.initial b.log

def word (b : WrittenBytes) (offset : BitVec 64) (w : AccessWidth) : ℕ :=
  StoreLog.word b.byte offset.toNat (widthInBytes w)

/-- The access stays inside the RAM; nothing wraps. -/
def InRange (b : WrittenBytes) (offset : BitVec 64) (w : AccessWidth) : Prop :=
  offset.toNat + widthInBytes w ≤ b.size

instance (b : WrittenBytes) (offset : BitVec 64) (w : AccessWidth) :
    Decidable (b.InRange offset w) := inferInstanceAs (Decidable (_ ≤ _))

/-- The store an access makes, if it makes one: the expected word counts as far as the access is
wide. -/
def stored (b : WrittenBytes) : RamAccess → Option Store
  | .read _ _ => none
  | .write offset w value =>
    if b.InRange offset w then some ⟨offset.toNat, widthInBytes w, value.toNat⟩ else none
  | .compareExchange offset w expected desired =>
    if b.InRange offset w ∧ b.word offset w = expected.toNat % 256 ^ widthInBytes w then
      some ⟨offset.toNat, widthInBytes w, desired.toNat⟩
    else none

/-- The word an access returns and whether it exchanged it. -/
def answer (b : WrittenBytes) : RamAccess → Option (ℕ × Bool)
  | .read offset w => if b.InRange offset w then some (b.word offset w, false) else none
  | .write offset w _ => if b.InRange offset w then some (0, false) else none
  | .compareExchange offset w expected _ =>
    if b.InRange offset w then
      some (b.word offset w, decide (b.word offset w = expected.toNat % 256 ^ widthInBytes w))
    else none

def step (b : WrittenBytes) (access : RamAccess) : WrittenBytes :=
  match b.stored access with
  | none => b
  | some store => { b with log := store :: b.log }

end WrittenBytes

namespace PhysicalMemory

def byte (m : PhysicalMemory) (p : ℕ) : BitVec 8 := m.bytes.getD p 0#8

/-- The result of an access. -/
def result (m : PhysicalMemory) : RamAccess → AccessResult
  | .read offset w => m.read offset w
  | .write offset w value => (m.write offset w value).1
  | .compareExchange offset w expected desired => (m.compareExchange offset w expected desired).1

/-- The RAM after an access. -/
def step (m : PhysicalMemory) : RamAccess → PhysicalMemory
  | .read _ _ => m
  | .write offset w value => (m.write offset w value).2
  | .compareExchange offset w expected desired => (m.compareExchange offset w expected desired).2

/-- What a result says: nothing if the access was refused. -/
def answer (m : PhysicalMemory) (access : RamAccess) : Option (ℕ × Bool) :=
  let result := m.result access
  if result.ok then some (result.value.toNat, result.exchanged) else none

/-- The log of a RAM nothing has been stored to yet. -/
def unwritten (m : PhysicalMemory) : WrittenBytes where
  size := m.range.size.toNat
  initial := m.byte

/-! ## One access -/

/-- The log tells the bytes of the RAM. -/
structure Tells (m : PhysicalMemory) (b : WrittenBytes) : Prop where
  size : b.size = m.bytes.length
  byte : b.byte = m.byte

theorem tells_unwritten (m : PhysicalMemory) : m.Tells m.unwritten := ⟨m.size_eq.symm, rfl⟩

theorem toNat_and_valueMask (v : BitVec 64) (w : AccessWidth) :
    (v &&& valueMask w).toNat = v.toNat % 256 ^ widthInBytes w := by
  have hmask : (valueMask w).toNat = 2 ^ (8 * widthInBytes w) - 1 := by cases w <;> decide
  rw [BitVec.toNat_and, hmask, Nat.and_two_pow_sub_one_eq_mod, Nat.pow_mul]

theorem toNat_readUnlocked (m : PhysicalMemory) (o : BitVec 64) (w : AccessWidth) :
    (m.readUnlocked o w).toNat = StoreLog.word m.byte o.toNat (widthInBytes w) :=
  toNat_composeBytes m.byte o.toNat (widthInBytes_le w)

theorem byte_writeUnlocked (m : PhysicalMemory) {o : BitVec 64} {w : AccessWidth} (v : BitVec 64)
    (h : o.toNat + widthInBytes w ≤ m.bytes.length) :
    (m.writeUnlocked o w v).byte = Store.apply ⟨o.toNat, widthInBytes w, v.toNat⟩ m.byte := by
  funext p
  rw [byte, writeUnlocked, getD_storeBytes _ _ _ _ _ h, Store.apply, splitByte_eq_digit]
  rfl

/-- Only the digits that the width covers are stored. -/
theorem apply_and_valueMask (o : BitVec 64) (w : AccessWidth) (v : BitVec 64) :
    Store.apply ⟨o.toNat, widthInBytes w, (v &&& valueMask w).toNat⟩ =
      Store.apply ⟨o.toNat, widthInBytes w, v.toNat⟩ := by
  rw [toNat_and_valueMask]
  exact Store.apply_congr fun i hi ↦ digit_mod v.toNat hi

theorem ok_validate_eq_false {m : PhysicalMemory} {o : BitVec 64} {w : AccessWidth}
    (h : ¬o.toNat + widthInBytes w ≤ m.bytes.length) : (m.validate o w).ok = false :=
  Bool.eq_false_iff.2 fun hok ↦ h ((m.ok_validate_iff o w).1 hok)

theorem write_eq {m : PhysicalMemory} {o : BitVec 64} {w : AccessWidth} (v : BitVec 64)
    (h : o.toNat + widthInBytes w ≤ m.bytes.length) :
    m.write o w v = (.success, m.writeUnlocked o w v) := by
  rw [write, (m.ok_validate_iff o w).2 h]
  rfl

theorem fields_step (m : PhysicalMemory) (access : RamAccess) :
    (m.step access).name = m.name ∧ (m.step access).range = m.range := by
  cases access with
  | read o w => exact ⟨rfl, rfl⟩
  | write o w v =>
    rw [step, write]
    split <;> exact ⟨rfl, rfl⟩
  | compareExchange o w e d =>
    rw [step, compareExchange]
    dsimp only
    split
    · exact ⟨rfl, rfl⟩
    · split <;> exact ⟨rfl, rfl⟩

/-- What the log says of an access, the RAM does. -/
structure Follows (m : PhysicalMemory) (b : WrittenBytes) (access : RamAccess) : Prop where
  answer : m.answer access = b.answer access
  unchanged : b.stored access = none → m.step access = m
  changed : ∀ store, b.stored access = some store → (m.step access).byte = store.apply m.byte

section Access

variable {m : PhysicalMemory} {b : WrittenBytes} (h : m.Tells b) (o : BitVec 64) (w : AccessWidth)

include h

theorem Tells.inRange_iff : b.InRange o w ↔ o.toNat + widthInBytes w ≤ m.bytes.length := by
  rw [WrittenBytes.InRange, h.size]

theorem Tells.word_eq : b.word o w = (m.readUnlocked o w).toNat := by
  rw [WrittenBytes.word, h.byte, toNat_readUnlocked]

theorem Tells.follows_read : m.Follows b (.read o w) := by
  refine ⟨?_, fun _ ↦ rfl, fun _ hstore ↦ by cases hstore⟩
  rw [answer, result, WrittenBytes.answer, h.word_eq]
  by_cases hin : o.toNat + widthInBytes w ≤ m.bytes.length
  · rw [read_eq hin, if_pos ((h.inRange_iff o w).2 hin)]
    rfl
  · rw [read, ok_validate_eq_false hin, if_neg (mt (h.inRange_iff o w).1 hin)]
    simp [ok_validate_eq_false hin]

theorem Tells.follows_write (v : BitVec 64) : m.Follows b (.write o w v) := by
  by_cases hin : o.toNat + widthInBytes w ≤ m.bytes.length
  · have hb := (h.inRange_iff o w).2 hin
    refine ⟨?_, fun hnone ↦ ?_, fun store hstore ↦ ?_⟩
    · rw [answer, result, WrittenBytes.answer, write_eq v hin, if_pos hb]
      rfl
    · rw [WrittenBytes.stored, if_pos hb] at hnone
      cases hnone
    · rw [WrittenBytes.stored, if_pos hb, Option.some.injEq] at hstore
      rw [step, write_eq v hin, ← hstore]
      exact m.byte_writeUnlocked v hin
  · have hb := mt (h.inRange_iff o w).1 hin
    have hok := ok_validate_eq_false hin
    refine ⟨?_, fun _ ↦ ?_, fun store hstore ↦ ?_⟩
    · rw [answer, result, WrittenBytes.answer, write, hok, if_neg hb]
      simp [hok]
    · rw [step, write, hok]
      rfl
    · rw [WrittenBytes.stored, if_neg hb] at hstore
      cases hstore

theorem Tells.follows_compareExchange (e d : BitVec 64) :
    m.Follows b (.compareExchange o w e d) := by
  have hword : b.word o w = e.toNat % 256 ^ widthInBytes w ↔
      m.readUnlocked o w = e &&& valueMask w := by
    rw [h.word_eq, ← toNat_and_valueMask, BitVec.toNat_inj]
  by_cases hin : o.toNat + widthInBytes w ≤ m.bytes.length
  · have hb := (h.inRange_iff o w).2 hin
    by_cases heq : m.readUnlocked o w = e &&& valueMask w
    · refine ⟨?_, fun hnone ↦ ?_, fun store hstore ↦ ?_⟩
      · rw [answer, result, WrittenBytes.answer, compareExchange_eq e d hin, if_pos heq, if_pos hb,
          decide_eq_true (hword.2 heq), h.word_eq]
        rfl
      · rw [WrittenBytes.stored, if_pos ⟨hb, hword.2 heq⟩] at hnone
        cases hnone
      · rw [WrittenBytes.stored, if_pos ⟨hb, hword.2 heq⟩, Option.some.injEq] at hstore
        rw [step, compareExchange_eq e d hin, if_pos heq, ← hstore, ← apply_and_valueMask]
        exact m.byte_writeUnlocked _ hin
    · refine ⟨?_, fun _ ↦ ?_, fun store hstore ↦ ?_⟩
      · rw [answer, result, WrittenBytes.answer, compareExchange_eq e d hin, if_neg heq, if_pos hb,
          decide_eq_false (mt hword.1 heq), h.word_eq]
        rfl
      · rw [step, compareExchange_eq e d hin, if_neg heq]
      · rw [WrittenBytes.stored, if_neg fun hand ↦ heq (hword.1 hand.2)] at hstore
        cases hstore
  · have hb := mt (h.inRange_iff o w).1 hin
    have hok := ok_validate_eq_false hin
    refine ⟨?_, fun _ ↦ ?_, fun store hstore ↦ ?_⟩
    · rw [answer, result, WrittenBytes.answer, compareExchange, hok, if_neg hb]
      simp [hok]
    · rw [step, compareExchange, hok]
      rfl
    · rw [WrittenBytes.stored, if_neg fun hand ↦ hb hand.1] at hstore
      cases hstore

theorem Tells.follows (access : RamAccess) : m.Follows b access := by
  cases access with
  | read o w => exact h.follows_read o w
  | write o w v => exact h.follows_write o w v
  | compareExchange o w e d => exact h.follows_compareExchange o w e d

/-- The log keeps telling the bytes. -/
theorem Tells.step (access : RamAccess) : (m.step access).Tells (b.step access) := by
  have hfollows := h.follows access
  obtain ⟨-, hrange⟩ := m.fields_step access
  have hlength : (m.step access).bytes.length = m.bytes.length := by
    rw [(m.step access).size_eq, m.size_eq, hrange]
  rw [WrittenBytes.step]
  cases hstored : b.stored access with
  | none =>
    rw [hfollows.unchanged hstored]
    exact h
  | some store =>
    refine ⟨h.size.trans hlength.symm, ?_⟩
    rw [hfollows.changed store hstored, ← h.byte]
    rfl

end Access

/-! ## Runs -/

/-- Every run is answered as the log of its stores answers it: a word that is read is made of the
latest bytes written. -/
theorem tells_run (m : PhysicalMemory) (accesses : List RamAccess) :
    Runs.outputs WrittenBytes.step WrittenBytes.answer m.unwritten accesses =
        Runs.outputs step answer m accesses ∧
      (Runs.run step m accesses).Tells (Runs.run WrittenBytes.step m.unwritten accesses) := by
  refine Runs.run_simulation (R := fun _ _ ↦ True) (fun m b access h _ ↦ ?_) m.tells_unwritten
    (Runs.along_of_forall (fun _ _ _ ↦ trivial) m)
  exact ⟨(h.follows access).answer.symm, h.step access⟩

theorem fields_run (m : PhysicalMemory) (accesses : List RamAccess) :
    (Runs.run step m accesses).name = m.name ∧ (Runs.run step m accesses).range = m.range := by
  refine Runs.run_induction (I := fun s : PhysicalMemory ↦ s.name = m.name ∧ s.range = m.range)
    (fun s access hs ↦ ?_) ⟨rfl, rfl⟩ accesses
  obtain ⟨hname, hrange⟩ := s.fields_step access
  exact ⟨hname.trans hs.1, hrange.trans hs.2⟩

/-- RAM is a little-endian array of bytes.  Every run is answered as the log of its stores answers
it, the bytes are the latest written, and after any run an access changes the bytes of the store the
log has for it and no others, or nothing at all. -/
theorem littleEndian_run (m : PhysicalMemory) (accesses : List RamAccess) :
    let ram := Runs.run step m accesses
    let written := Runs.run WrittenBytes.step m.unwritten accesses
    Runs.outputs step answer m accesses =
        Runs.outputs WrittenBytes.step WrittenBytes.answer m.unwritten accesses ∧
      (ram.name = m.name ∧ ram.range = m.range ∧ ram.byte = written.byte) ∧
      ∀ access, match written.stored access with
        | none => ram.step access = ram
        | some store => (ram.step access).byte = store.apply ram.byte := by
  intro ram written
  obtain ⟨houtputs, htells⟩ := m.tells_run accesses
  obtain ⟨hname, hrange⟩ := m.fields_run accesses
  refine ⟨houtputs.symm, ⟨hname, hrange, htells.byte.symm⟩, fun access ↦ ?_⟩
  have hfollows := htells.follows access
  cases hstored : written.stored access with
  | none => exact hfollows.unchanged hstored
  | some store => exact hfollows.changed store hstored

end PhysicalMemory

end Rvemu
