import Rvemu.Bus.Pages
import Rvemu.Core.Arithmetic
import Rvemu.Core.AtomicDevices
import Rvemu.Memory.SamePage

/-!
# Scalar accesses that cross a page

A scalar load or store translates the address of its first byte and hands the whole access to the
bus.  The vector accesses go byte by byte; here the other bytes are taken to follow the first one,
in physical memory as in virtual memory.  The main result says when the bytes that are read and
written are the right ones.
-/

set_option autoImplicit false

namespace Rvemu

open Bytes

/-! ## The scalar loads and stores -/

/-- The access of a scalar load, or of a store of a value. -/
structure ScalarAccess where
  address : BitVec 64
  width : AccessWidth
  store : Option (BitVec 64)
  deriving DecidableEq, Repr

namespace ScalarAccess

/-- Stores are translated as atomics. -/
def kind (a : ScalarAccess) : MmuAccessKind := if a.store.isSome then .atomic else .load

def run (a : ScalarAccess) (c : Cpu) (packet : InstructionPacket) : GuestAccessResult × Cpu :=
  match a.store with
  | none => c.guestRead packet a.address a.width .load .load
  | some value => c.guestWrite packet a.address a.width value .store

/-- The bus operation of the access. -/
def operation (a : ScalarAccess) : BusOperation :=
  match a.store with
  | none => readOperation a.width .load
  | some value => writeOperation a.width value .store

def accessFault (a : ScalarAccess) : ExceptionCause := accessFaultCause a.kind

theorem run_eq (a : ScalarAccess) (c : Cpu) (packet : InstructionPacket) :
    a.run c packet =
      c.guestAccess packet a.address a.width a.kind c.dataContext a.accessFault a.operation := by
  obtain ⟨address, width, store⟩ := a
  cases store <;> rfl

end ScalarAccess

/-- The access an encoding stands for, if it is a scalar load or store. -/
def scalarAccess (s : CpuState) (bits : BitVec 32) : Option ScalarAccess :=
  let instruction := decode bits
  let source1 := s.integer instruction.source1
  if instruction.opcode = 0x03#7 then
    (loadFormat instruction.function3).map fun format ↦
      { address := source1 + immediateI bits, width := format.1, store := none }
  else if instruction.opcode = 0x23#7 then
    (storeWidth instruction.function3).map fun width ↦
      { address := source1 + immediateS bits, width
        store := some (s.integer instruction.source2) }
  else if isVectorMemory bits || !s.csrs.floatingStateEnabled then none
  else if instruction.opcode = 0x07#7 then
    (Cpu.floatingAccess instruction.function3).map fun access ↦
      { address := source1 + immediateI bits, width := access.1, store := none }
  else if instruction.opcode = 0x27#7 then
    (Cpu.floatingAccess instruction.function3).map fun access ↦
      { address := source1 + immediateS bits, width := access.1
        store := some (s.floating instruction.source2) }
  else none

/-- What follows a scalar access retires and leaves memory alone. -/
structure Retires (next : GuestAccessResult → Cpu → StepResult × Cpu) : Prop where
  retired : ∀ g c, (next g c).1.retired = true
  trap : ∀ g c, (next g c).1.trap = none
  bus : ∀ g c, (next g c).2.bus = c.bus

/-! ## The register of a load -/

/-- The register that a load writes; `x0` keeps nothing. -/
def loadedRegister (s : CpuState) (bits : BitVec 32) : Option (BitVec 64) :=
  let instruction := decode bits
  if instruction.opcode = 0x07#7 then some (s.floating instruction.destination)
  else if instruction.destination = 0#5 then none
  else some (s.integer instruction.destination)

/-- The low bytes of a word determine the low bits. -/
theorem splitByte_congr {x y : BitVec 64} {n : ℕ}
    (h : ∀ k < 8 * n, x.getLsbD k = y.getLsbD k) {i : ℕ} (hi : i < n) :
    splitByte x i = splitByte y i := by
  refine BitVec.eq_of_getLsbD_eq fun j hj ↦ ?_
  rw [getLsbD_splitByte, getLsbD_splitByte, h (i * 8 + j) (by omega)]

theorem splitByte_signExtend (value : BitVec 64) (w : AccessWidth) {i : ℕ}
    (hi : i < widthInBytes w) :
    splitByte (signExtend value (8 * widthInBytes w)) i = splitByte value i := by
  have hpos := widthInBytes_pos w
  have hle := widthInBytes_le w
  refine splitByte_congr (fun k hk ↦ ?_) hi
  rw [signExtend_eq value (by omega) (by omega), BitVec.getLsbD_signExtend,
    BitVec.getLsbD_setWidth]
  simp [hk, show k < 64 by omega]

theorem splitByte_boxSinglePrecision (value : BitVec 64) {i : ℕ} (hi : i < 4) :
    splitByte (boxSinglePrecision (value.setWidth 32)) i = splitByte value i := by
  have hbox : ∀ k < 32, (0xFFFFFFFF00000000#64).getLsbD k = false := by decide
  refine splitByte_congr (fun k hk ↦ ?_) hi
  rw [boxSinglePrecision, BitVec.getLsbD_or, hbox k (by omega), Bool.false_or,
    BitVec.getLsbD_setWidth, BitVec.getLsbD_setWidth]
  simp [show k < 32 by omega, show k < 64 by omega]

/-- A load that extends the sign takes the bits of its width. -/
theorem loadFormat_sign {function3 : BitVec 3} {width : AccessWidth} {bits : ℕ}
    (h : loadFormat function3 = some (width, some bits)) : bits = 8 * widthInBytes width := by
  rw [loadFormat] at h
  repeat' split at h
  all_goals cases h
  all_goals rfl

theorem loadedRegister_setInteger {s : CpuState} {bits : BitVec 32} {value r : BitVec 64}
    (hop : (decode bits).opcode = 0x03#7)
    (h : loadedRegister (s.setInteger (decode bits).destination value) bits = some r) :
    r = value := by
  rw [loadedRegister, if_neg (by rw [hop]; decide)] at h
  split at h
  · cases h
  · next hd =>
    simp only [CpuState.setInteger, CpuState.integer, hd, if_false, Function.update_self,
      Option.some.injEq] at h
    exact h.symm

theorem loadedRegister_setFloating {s : CpuState} {bits : BitVec 32} {value r : BitVec 64}
    (hop : (decode bits).opcode = 0x07#7)
    (h : loadedRegister (s.setFloating (decode bits).destination value) bits = some r) :
    r = value := by
  rw [loadedRegister, if_pos hop] at h
  simp only [CpuState.setFloating, CpuState.floating, Function.update_self, Option.some.injEq] at h
  exact h.symm

section Dispatch

variable {c : Cpu} {packet : InstructionPacket}

/-- LOAD-FP and STORE-FP that are not vector accesses, with the floating-point unit on. -/
theorem executeStandard_floating {opcode : BitVec 7}
    (hor : opcode = 0x07#7 ∨ opcode = 0x27#7) (h : (decode packet.bits).opcode = opcode)
    (hv : isVectorMemory packet.bits = false) (hfs : c.state.csrs.floatingStateEnabled = true) :
    c.executeStandard packet =
      if opcode = 0x07#7 then
        c.executeFloatingLoad packet (decode packet.bits)
          (packet.programCounter + BitVec.ofNat 64 packet.length)
      else
        c.executeFloatingStore packet (decode packet.bits)
          (packet.programCounter + BitVec.ofNat 64 packet.length) := by
  have hne : ∀ {other : BitVec 7}, 0x07#7 ≠ other → 0x27#7 ≠ other →
      (decode packet.bits).opcode ≠ other := by
    rintro other h7 h27 rfl
    rcases hor with rfl | rfl
    · exact h7 h.symm
    · exact h27 h.symm
  have hboth : (decode packet.bits).opcode = 0x07#7 ∨ (decode packet.bits).opcode = 0x27#7 := by
    rw [h]
    exact hor
  have hnone : decodeVectorMemoryOperation packet.bits ((decode packet.bits).opcode == 0x07#7) =
      none := by
    have hboth' : ((decode packet.bits).opcode == 0x07#7 || (decode packet.bits).opcode == 0x27#7) =
        true := by
      rw [Bool.or_eq_true, beq_iff_eq, beq_iff_eq]
      exact hboth
    rw [isVectorMemory, hboth', Bool.true_and] at hv
    exact Option.not_isSome_iff_eq_none.1 (by rw [hv]; decide)
  rw [Cpu.executeStandard, if_neg (hne (by decide) (by decide)),
    if_neg (hne (by decide) (by decide)), if_neg (hne (by decide) (by decide)),
    if_neg (hne (by decide) (by decide)), if_neg (hne (by decide) (by decide)),
    if_neg (hne (by decide) (by decide)), if_neg (hne (by decide) (by decide)),
    if_neg (hne (by decide) (by decide)), if_neg (hne (by decide) (by decide)),
    if_neg (hne (by decide) (by decide)), if_neg (hne (by decide) (by decide)),
    if_neg (hne (by decide) (by decide)), if_neg (hne (by decide) (by decide)), if_pos hboth,
    Cpu.executeLoadStoreFp, hnone]
  rw [Cpu.executeFloating, hfs, if_neg (by decide), h]
  rcases hor with rfl | rfl
  · rfl
  · rfl

/-- The register of a load gets the bytes of the value that was read. -/
def LoadsBytes (bits : BitVec 32) (w : AccessWidth)
    (next : GuestAccessResult → Cpu → StepResult × Cpu) : Prop :=
  ∀ g c r, loadedRegister (next g c).2.state bits = some r →
    ∀ i < widthInBytes w, splitByte r i = splitByte g.access.value i

theorem executeLoad_of_loadFormat {width : AccessWidth} {signWidth : Option ℕ}
    (hop : (decode packet.bits).opcode = 0x03#7)
    (hformat : loadFormat (decode packet.bits).function3 = some (width, signWidth)) :
    ∃ next, Retires next ∧ LoadsBytes packet.bits width next ∧
      c.executeStandard packet = Cpu.afterAccess packet
        (c.guestRead packet (c.state.integer (decode packet.bits).source1 + immediateI packet.bits)
          width .load .load) next := by
  rw [executeStandard_load hop, Cpu.executeLoad, hformat]
  refine ⟨_, ⟨fun _ _ ↦ rfl, fun _ _ ↦ rfl, fun _ _ ↦ rfl⟩, fun g c r hr i hi ↦ ?_, rfl⟩
  obtain rfl := loadedRegister_setInteger hop hr
  cases signWidth with
  | none => rfl
  | some bits =>
    obtain rfl := loadFormat_sign hformat
    exact splitByte_signExtend _ width hi

theorem executeFloatingLoad_of_floatingAccess {width : AccessWidth} {format : FloatingFormat}
    (hop : (decode packet.bits).opcode = 0x07#7) (hv : isVectorMemory packet.bits = false)
    (hfs : c.state.csrs.floatingStateEnabled = true)
    (hformat : Cpu.floatingAccess (decode packet.bits).function3 = some (width, format)) :
    ∃ next, Retires next ∧ LoadsBytes packet.bits width next ∧
      c.executeStandard packet = Cpu.afterAccess packet
        (c.guestRead packet (c.state.integer (decode packet.bits).source1 + immediateI packet.bits)
          width .load .load) next := by
  rw [executeStandard_floating (Or.inl rfl) hop hv hfs, if_pos rfl, Cpu.executeFloatingLoad,
    hformat]
  refine ⟨_, ⟨fun _ _ ↦ rfl, fun _ _ ↦ rfl, fun _ _ ↦ rfl⟩, fun g c r hr i hi ↦ ?_, rfl⟩
  rw [Cpu.floatingAccess] at hformat
  split at hformat
  · cases hformat
    obtain rfl := loadedRegister_setFloating hop hr
    exact splitByte_boxSinglePrecision _ hi
  · split at hformat
    · cases hformat
      obtain rfl := loadedRegister_setFloating hop hr
      rfl
    · cases hformat

/-- A scalar load or store is its access, and what follows it. -/
theorem executeStandard_of_scalarAccess {a : ScalarAccess}
    (h : scalarAccess c.state packet.bits = some a) :
    (∃ next, Retires next ∧ (a.store = none → LoadsBytes packet.bits a.width next) ∧
      c.executeStandard packet = Cpu.afterAccess packet (a.run c packet) next) ∧
      packet.bits.setWidth 16 &&& 3#16 = 3#16 := by
  rw [scalarAccess] at h
  split at h
  · next hop =>
    obtain ⟨⟨width, signWidth⟩, hformat, rfl⟩ := Option.map_eq_some_iff.1 h
    obtain ⟨next, hretires, hbytes, hexecute⟩ := executeLoad_of_loadFormat hop hformat
    exact ⟨⟨next, hretires, fun _ ↦ hbytes, hexecute⟩, standard_of_opcode hop (by decide)⟩
  · split at h
    · next hop =>
      obtain ⟨width, hwidth, rfl⟩ := Option.map_eq_some_iff.1 h
      refine ⟨?_, standard_of_opcode hop (by decide)⟩
      rw [executeStandard_store hop, Cpu.executeStore, hwidth]
      refine ⟨_, ?_, ?_, rfl⟩
      · exact ⟨fun _ _ ↦ rfl, fun _ _ ↦ rfl, fun _ _ ↦ rfl⟩
      · intro hload
        cases hload
    · split at h
      · cases h
      · next hoff =>
        rw [Bool.or_eq_true, not_or, Bool.not_eq_true, Bool.not_eq_true', Bool.not_eq_false] at hoff
        split at h
        · next hop =>
          obtain ⟨⟨width, format⟩, hformat, rfl⟩ := Option.map_eq_some_iff.1 h
          obtain ⟨next, hretires, hbytes, hexecute⟩ :=
            executeFloatingLoad_of_floatingAccess hop hoff.1 hoff.2 hformat
          exact ⟨⟨next, hretires, fun _ ↦ hbytes, hexecute⟩, standard_of_opcode hop (by decide)⟩
        · split at h
          · next hop =>
            obtain ⟨⟨width, format⟩, hformat, rfl⟩ := Option.map_eq_some_iff.1 h
            refine ⟨?_, standard_of_opcode hop (by decide)⟩
            rw [executeStandard_floating (Or.inr rfl) hop hoff.1 hoff.2, if_neg (by decide),
              Cpu.executeFloatingStore, hformat]
            refine ⟨_, ?_, ?_, rfl⟩
            · exact ⟨fun _ _ ↦ rfl, fun _ _ ↦ rfl, fun _ _ ↦ rfl⟩
            · intro hload
              cases hload
          · cases h

end Dispatch

/-! ## Bytes and their translations -/

namespace ScalarAccess

variable (a : ScalarAccess) (c : Cpu)

/-- The translation of the address, with what it leaves behind. -/
def translated : TranslationResult × Mmu × Bus :=
  c.mmu.translate c.bus a.address a.width a.kind c.dataContext

/-- The translation of one byte of the access, on its own. -/
def translateByte (i : ℕ) : TranslationResult :=
  (c.mmu.translate c.bus (a.address + BitVec.ofNat 64 i) .byte a.kind c.dataContext).1

/-- The bus refuses the access at the address of its first byte. -/
def BusRefuses : Prop :=
  ∃ pa m b, a.translated c = (.ok pa, m, b) ∧ (a.operation b pa).1.1.ok = false

/-- Byte `i` follows the first byte at `pa` in physical memory; or nobody can tell, because memory
holds the same byte at both addresses, which for a store is the one to be stored. -/
def Follows (pa : BitVec 64) (i : ℕ) : Prop :=
  ∃ q, a.translateByte c i = .ok q ∧ (q = pa + BitVec.ofNat 64 i ∨
    match a.store with
    | none => (a.translated c).2.2.byteAt q =
        (a.translated c).2.2.byteAt (pa + BitVec.ofNat 64 i)
    | some value => (a.translated c).2.2.ramByte q.toNat = some (splitByte value i) ∧
        (a.translated c).2.2.ramByte (pa + BitVec.ofNat 64 i).toNat = some (splitByte value i))

/-- Every byte moves at the physical address that it translates to: a load returns what is there
and puts it into its register, a store leaves it there and changes no other byte of RAM. -/
structure Moves (packet : InstructionPacket) (after : Cpu) : Prop where
  bytes : ∀ i < widthInBytes a.width, ∃ q, a.translateByte c i = .ok q ∧
    match a.store with
    | none => after.bus.byteAt q = some (splitByte (a.run c packet).1.access.value i)
    | some value => after.bus.ramByte q.toNat = some (splitByte value i)
  register : a.store = none → ∀ r, loadedRegister after.state packet.bits = some r →
    ∀ i < widthInBytes a.width, splitByte r i = splitByte (a.run c packet).1.access.value i
  others : ∀ x,
    (a.store ≠ none → ∀ i < widthInBytes a.width, ∀ q, a.translateByte c i = .ok q → x ≠ q.toNat) →
      after.bus.ramByte x = (a.translated c).2.2.ramByte x

end ScalarAccess

/-- The step of `c` executes the scalar access `a`, which crosses a page, on the hart `f` the fetch
leaves behind. -/
structure ScalarStep (c : Cpu) (packet : InstructionPacket) (f : Cpu) (a : ScalarAccess) :
    Prop where
  fetches : Fetches c packet f
  decoded : scalarAccess f.state packet.standard.bits = some a
  crosses : CrossesPage a.address a.width
  devices : f.bus.DevicesOnPages

/-- An access respects the page tables if each of its bytes does: when it retires, the bytes move at
the addresses they translate to; when some byte does not translate, it raises the page fault of the
access.  Besides, only A and D bits change in RAM. -/
structure RespectsPages (c f : Cpu) (packet : InstructionPacket) (a : ScalarAccess) : Prop where
  retires : c.step.1.retired = true →
    a.Moves f packet.standard c.step.2 ∧ AdUpdated c.root c.bus (a.translated f).2.2
  faults : (∃ i < widthInBytes a.width, ∃ fault, a.translateByte f i = .error fault) →
    (∃ trap, c.step.1.trap = some trap ∧ trap.cause = pageFaultCause a.kind) ∧
      AdUpdated c.root c.bus c.step.2.bus

theorem translateByte_zero (a : ScalarAccess) (c : Cpu) :
    a.translateByte c 0 = (a.translated c).1 := by
  rw [ScalarAccess.translateByte, BitVec.add_zero]
  rfl

theorem toNat_translateByte {a : ScalarAccess} {c : Cpu} {i : ℕ} {q : BitVec 64}
    (h : a.translateByte c i = .ok q) :
    q.toNat % 2 ^ 12 = (a.address + BitVec.ofNat 64 i).toNat % 2 ^ 12 :=
  toNat_translate_mod (Prod.ext h rfl)

/-- No two bytes of an access lie at one address, whatever the pages. -/
theorem translateByte_ne {a : ScalarAccess} {c : Cpu} {i j : ℕ} {p q : BitVec 64}
    (hi : i < 8) (hj : j < 8) (hne : i ≠ j)
    (hp : p.toNat % 2 ^ 12 = (a.address + BitVec.ofNat 64 i).toNat % 2 ^ 12)
    (hq : a.translateByte c j = .ok q) : p ≠ q := by
  rintro rfl
  rw [toNat_translateByte hq, BitVec.toNat_add, BitVec.toNat_add, BitVec.toNat_ofNat,
    BitVec.toNat_ofNat] at hp
  omega

theorem pageFaultCause_ne_accessFaultCause (kind : MmuAccessKind) :
    pageFaultCause kind ≠ accessFaultCause kind := by
  cases kind <;> decide

theorem registers_countStep (result : StepResult) (c : Cpu) (bits : BitVec 32) :
    loadedRegister (Cpu.countStep result c).state bits = loadedRegister c.state bits := by
  rw [Cpu.countStep]
  split <;> split <;> rfl

theorem Fetches.loadedRegister_step {c f : Cpu} {packet : InstructionPacket}
    (h : Fetches c packet f) (hbits : packet.standard.bits.setWidth 16 &&& 3#16 = 3#16)
    (bits : BitVec 32) :
    loadedRegister c.step.2.state bits =
      loadedRegister (f.executeStandard packet.standard).2.state bits := by
  rw [h.step_eq, registers_countStep, Cpu.execute]
  cases hc : packet.compressed with
  | false => rw [if_neg (by decide), InstructionPacket.standard, hc, if_neg (by decide)]
  | true =>
    rw [if_pos rfl]
    cases hx : decompressRv64c (packet.bits.setWidth 16) with
    | none =>
      have hp : packet.standard = packet := by
        rw [InstructionPacket.standard, hc, if_pos rfl, hx]
        rfl
      rw [hp] at hbits
      exact absurd hbits (fetch_bits h.fetch (beq_iff_eq.1 hc))
    | some expanded =>
      rw [InstructionPacket.standard, hc, if_pos rfl, hx]
      rfl

section Moves

variable {a : ScalarAccess} {f after : Cpu} {packet : InstructionPacket} {pa : BitVec 64} {m : Mmu}
  {b : Bus}

/-- The bytes that a load across a page returns are those that follow the first one. -/
theorem moves_load_iff (hdevices : b.DevicesOnPages) (hcross : CrossesPage pa a.width)
    (hstore : a.store = none) (ht : a.translated f = (.ok pa, m, b))
    (hok : (b.read pa a.width .load).1.ok = true)
    (haccess : (a.run f packet).1.access = (b.read pa a.width .load).1)
    (hbus : after.bus = (b.read pa a.width .load).2)
    (hregister : ∀ r, loadedRegister after.state packet.bits = some r →
      ∀ i < widthInBytes a.width, splitByte r i = splitByte (a.run f packet).1.access.value i) :
    a.Moves f packet after ↔ ∀ i < widthInBytes a.width, a.Follows f pa i := by
  obtain ⟨hsame, hbytes⟩ := Bus.read_of_crossesPage hdevices hcross hok
  rw [hsame] at hbus
  have hmoved : ∀ i < widthInBytes a.width, ∀ q,
      after.bus.byteAt q = some (splitByte (a.run f packet).1.access.value i) ↔
        (a.translated f).2.2.byteAt q =
          (a.translated f).2.2.byteAt (pa + BitVec.ofNat 64 i) := by
    intro i hi q
    rw [ht, hbus, haccess, hbytes i hi]
  constructor
  · intro h i hi
    obtain ⟨q, hq, hbyte⟩ := h.bytes i hi
    simp only [hstore] at hbyte
    refine ⟨q, hq, Or.inr ?_⟩
    simp only [hstore]
    exact (hmoved i hi q).1 hbyte
  · intro h
    refine ⟨fun i hi ↦ ?_, fun _ ↦ hregister, fun x _ ↦ by rw [hbus, ht]⟩
    obtain ⟨q, hq, hplace⟩ := h i hi
    refine ⟨q, hq, ?_⟩
    simp only [hstore] at hplace ⊢
    refine (hmoved i hi q).2 ?_
    rcases hplace with rfl | hbyte
    · rfl
    · exact hbyte

/-! A store puts its bytes at consecutive addresses.  By their offsets in the page, an address of
byte `i` is that of no other byte. -/

theorem Bus.Stored.toNat_next {b b' : Bus} {w : AccessWidth} {value : BitVec 64}
    (h : Bus.Stored b b' pa w value) {i : ℕ} (hi : i < widthInBytes w) :
    (pa + BitVec.ofNat 64 i).toNat = pa.toNat + i := by
  have hlt := h.inRam.lt
  rw [BitVec.toNat_add, BitVec.toNat_ofNat]
  omega

theorem Bus.Stored.ramByte_next {b b' : Bus} {w : AccessWidth} {value : BitVec 64}
    (h : Bus.Stored b b' pa w value) {i : ℕ} (hi : i < widthInBytes w) :
    b'.ramByte (pa + BitVec.ofNat 64 i).toNat = some (splitByte value i) := by
  rw [h.ramByte_eq, h.toNat_next hi, if_pos (by omega), Nat.add_sub_cancel_left]

theorem translated_next_mod (ht : a.translated f = (.ok pa, m, b)) (i : ℕ) :
    (pa + BitVec.ofNat 64 i).toNat % 2 ^ 12 =
      (a.address + BitVec.ofNat 64 i).toNat % 2 ^ 12 := by
  have hmod := toNat_translate_mod ht
  rw [BitVec.toNat_add, BitVec.toNat_add, BitVec.toNat_ofNat]
  omega

theorem ramByte_of_elsewhere {b' : Bus} {value q : BitVec 64} {i : ℕ}
    (ht : a.translated f = (.ok pa, m, b)) (hstored : Bus.Stored b b' pa a.width value)
    (hi : i < widthInBytes a.width) (hq : a.translateByte f i = .ok q)
    (hne : q ≠ pa + BitVec.ofNat 64 i) : b'.ramByte q.toNat = b.ramByte q.toNat := by
  have hw := widthInBytes_le a.width
  rw [hstored.ramByte_eq]
  refine if_neg fun hin ↦ ?_
  have hj : q = pa + BitVec.ofNat 64 (q.toNat - pa.toNat) := by
    refine BitVec.eq_of_toNat_eq ?_
    rw [hstored.toNat_next (by omega)]
    omega
  by_cases hij : i = q.toNat - pa.toNat
  · exact hne (hij ▸ hj)
  · exact translateByte_ne (by omega) (by omega) (Ne.symm hij) (translated_next_mod ht _) hq hj.symm

/-- A byte of a store that belongs somewhere else is there already, and where it goes, too. -/
theorem follows_of_moves_store {value : BitVec 64} (hstore : a.store = some value)
    (ht : a.translated f = (.ok pa, m, b)) (hstored : Bus.Stored b after.bus pa a.width value)
    (h : a.Moves f packet after) {i : ℕ} (hi : i < widthInBytes a.width) : a.Follows f pa i := by
  have hw := widthInBytes_le a.width
  obtain ⟨q, hq, hbyte⟩ := h.bytes i hi
  simp only [hstore] at hbyte
  refine ⟨q, hq, ?_⟩
  by_cases hne : q = pa + BitVec.ofNat 64 i
  · exact Or.inl hne
  · refine Or.inr ?_
    simp only [hstore, ht]
    rw [← ramByte_of_elsewhere ht hstored hi hq hne]
    refine ⟨hbyte, ?_⟩
    have hothers := h.others (pa + BitVec.ofNat 64 i).toNat fun _ j hj p hp ↦ ?_
    · rw [ht] at hothers
      rw [← hothers]
      exact hstored.ramByte_next hi
    · intro heq
      by_cases hij : i = j
      · subst hij
        obtain rfl := Except.ok.inj (hq.symm.trans hp)
        exact hne (BitVec.eq_of_toNat_eq heq).symm
      · exact translateByte_ne (by omega) (by omega) hij (translated_next_mod ht i) hp
          (BitVec.eq_of_toNat_eq heq)

/-- A store across a page writes the bytes that follow the first one. -/
theorem moves_store_iff {value : BitVec 64} (hstore : a.store = some value)
    (ht : a.translated f = (.ok pa, m, b))
    (hstored : Bus.Stored b after.bus pa a.width value) :
    a.Moves f packet after ↔ ∀ i < widthInBytes a.width, a.Follows f pa i := by
  refine ⟨fun h i hi ↦ follows_of_moves_store hstore ht hstored h hi,
    fun h ↦ ⟨fun i hi ↦ ?_, fun hload ↦ ?_, fun x hx ↦ ?_⟩⟩
  · obtain ⟨q, hq, hplace⟩ := h i hi
    refine ⟨q, hq, ?_⟩
    simp only [hstore, ht] at hplace ⊢
    by_cases hne : q = pa + BitVec.ofNat 64 i
    · rw [hne]
      exact hstored.ramByte_next hi
    · rw [ramByte_of_elsewhere ht hstored hi hq hne]
      exact (hplace.resolve_left hne).1
  · rw [hstore] at hload
    cases hload
  · rw [ht]
    have hx' := hx (by rw [hstore]; simp)
    by_cases hin : pa.toNat ≤ x ∧ x < pa.toNat + widthInBytes a.width
    · obtain ⟨q, hq, hplace⟩ := h (x - pa.toNat) (by omega)
      simp only [hstore, ht] at hplace
      have heq : (pa + BitVec.ofNat 64 (x - pa.toNat)).toNat = x := by
        rw [hstored.toNat_next (by omega)]
        omega
      have hne : q ≠ pa + BitVec.ofNat 64 (x - pa.toNat) := by
        intro hqeq
        exact hx' _ (by omega) q hq (by rw [hqeq, heq])
      have hold := (hplace.resolve_left hne).2
      have hnew := hstored.ramByte_next (i := x - pa.toNat) (by omega)
      rw [heq] at hold hnew
      rw [hold, hnew]
    · rw [hstored.ramByte_eq, if_neg hin]

end Moves

/-- The bytes move where they should if each of them follows the first one. -/
theorem moves_iff {a : ScalarAccess} {f after : Cpu} {packet : InstructionPacket} {pa : BitVec 64}
    {m : Mmu} {b : Bus} (hdevices : f.bus.DevicesOnPages) (hcross : CrossesPage a.address a.width)
    (ht : a.translated f = (.ok pa, m, b)) (hok : (a.operation b pa).1.1.ok = true)
    (haccess : (a.run f packet).1.access = (a.operation b pa).1.1)
    (hbus : after.bus = (a.operation b pa).2)
    (hregister : a.store = none → ∀ r, loadedRegister after.state packet.bits = some r →
      ∀ i < widthInBytes a.width, splitByte r i = splitByte (a.run f packet).1.access.value i) :
    a.Moves f packet after ↔ ∀ i < widthInBytes a.width, a.Follows f pa i := by
  have hdevices' : b.DevicesOnPages := by
    refine hdevices.of_devices ?_
    have hsame := devices_translate f.mmu f.bus a.address a.width a.kind f.dataContext
    rw [ScalarAccess.translated] at ht
    rw [ht] at hsame
    exact hsame
  have hcross' : CrossesPage pa a.width := hcross.congr (toNat_translate_mod ht)
  cases hstore : a.store with
  | none =>
    have hop : a.operation = readOperation a.width .load := by
      rw [ScalarAccess.operation, hstore]
    rw [hop] at hok haccess hbus
    exact moves_load_iff hdevices' hcross' hstore ht hok haccess hbus (hregister hstore)
  | some value =>
    have hop : a.operation = writeOperation a.width value .store := by
      rw [ScalarAccess.operation, hstore]
    rw [hop] at hok hbus
    refine moves_store_iff hstore ht ?_
    have hram := Bus.inRam_of_crossesPage (v := value) hdevices' hcross' ?_
    · rw [hbus]
      exact (hram.write value .store).2
    · rw [writeOperation, Bus.write] at hok
      simpa using hok

section Steps

variable {c f : Cpu} {packet : InstructionPacket} {a : ScalarAccess}

/-- The step ends as the access does, with what follows it. -/
theorem ScalarStep.expanded (h : ScalarStep c packet f a) :
    ∃ next, Retires next ∧ (a.store = none → LoadsBytes packet.standard.bits a.width next) ∧
      let done := Cpu.afterAccess packet.standard (a.run f packet.standard) next
      c.step.1.retired = done.1.retired ∧
        c.step.1.trap.map (·.cause) = done.1.trap.map (·.cause) ∧
        c.step.2.bus = done.2.bus ∧
        loadedRegister c.step.2.state packet.standard.bits =
          loadedRegister done.2.state packet.standard.bits := by
  obtain ⟨⟨next, hnext, hbytes, hexecute⟩, hbits⟩ := executeStandard_of_scalarAccess h.decoded
  obtain ⟨hretired, hcause, hbus⟩ := h.fetches.step_expanded hbits
  have hregister := h.fetches.loadedRegister_step hbits packet.standard.bits
  rw [hexecute] at hretired hcause hbus hregister
  exact ⟨next, hnext, hbytes, hretired, hcause, hbus, hregister⟩

/-- The fetch and the translation change A and D bits only. -/
theorem ScalarStep.adUpdated (h : ScalarStep c packet f a) :
    AdUpdated c.root c.bus (a.translated f).2.2 := by
  have hfetch : AdUpdated c.root c.bus f.bus := by
    have hb := (fetch_fetched c.awake).bus
    rw [h.fetches.fetch] at hb
    exact hb
  have hroot : satpRootPpn f.dataContext.satp = c.root := by
    rw [Cpu.dataContext, h.fetches.state]
    rfl
  rw [← hroot] at hfetch ⊢
  exact hfetch.trans (translate_adUpdated _ _ _ _ _ _)

/-- The first byte does not translate: the walk has faulted, and nothing else happens. -/
theorem ScalarStep.step_of_error (h : ScalarStep c packet f a) {fault : MmuFault}
    (hfault : (a.translated f).1 = .error fault) :
    c.step.1.retired = false ∧
      (∃ trap, c.step.1.trap = some trap ∧ trap.cause = pageFaultCause a.kind) ∧
      c.step.2.bus = (a.translated f).2.2 := by
  obtain ⟨next, -, -, hretired, hcause, hbus, -⟩ := h.expanded
  obtain ⟨t, m, b, ht⟩ : ∃ t m b, a.translated f = (t, m, b) := ⟨_, _, _, rfl⟩
  rw [ht] at hfault ⊢
  obtain rfl : t = .error fault := hfault
  have hg : f.guestAccess packet.standard a.address a.width a.kind f.dataContext a.accessFault
      a.operation = ({ trap := some (makeTrap packet.standard fault.cause fault.value) },
        { f with mmu := m, bus := b }) := by
    rw [Cpu.guestAccess, ← ScalarAccess.translated, ht]
    rfl
  rw [a.run_eq, hg, Cpu.afterAccess] at hretired hcause hbus
  refine ⟨hretired, ?_, hbus⟩
  obtain ⟨trap, htrap, hc⟩ := Option.map_eq_some_iff.1 hcause
  refine ⟨trap, htrap, hc.trans ?_⟩
  rw [translate_error (congrArg Prod.fst ht)]
  rfl

/-- The bus refuses: an access fault. -/
theorem ScalarStep.step_of_refused (h : ScalarStep c packet f a) (hrefuses : a.BusRefuses f) :
    c.step.1.retired = false ∧ c.step.1.trap.map (·.cause) = some a.accessFault := by
  obtain ⟨pa, m, b, ht, hno⟩ := hrefuses
  obtain ⟨next, -, -, hretired, hcause, -, -⟩ := h.expanded
  rcases guestAccess_of_translate ht packet.standard a.accessFault a.operation with
    ⟨-, hg⟩ | ⟨hyes, -⟩
  · rw [a.run_eq, hg, Cpu.afterAccess] at hretired hcause
    exact ⟨hretired, hcause⟩
  · exact absurd (hyes.symm.trans hno) (by decide)

/-- The bus accepts: the access retires, and the bytes move where they should if each of them
follows the first one. -/
theorem ScalarStep.step_of_accepted (h : ScalarStep c packet f a) {pa : BitVec 64} {m : Mmu}
    {b : Bus} (ht : a.translated f = (.ok pa, m, b)) (hok : (a.operation b pa).1.1.ok = true) :
    c.step.1.retired = true ∧
      (a.Moves f packet.standard c.step.2 ↔ ∀ i < widthInBytes a.width, a.Follows f pa i) := by
  obtain ⟨next, hnext, hbytes, hretired, -, hbus, hregister⟩ := h.expanded
  rcases guestAccess_of_translate ht packet.standard a.accessFault a.operation with
    ⟨hno, -⟩ | ⟨-, hg⟩
  · exact absurd (hok.symm.trans hno) (by decide)
  · rw [← a.run_eq] at hg
    rw [hg, Cpu.afterAccess] at hretired hbus hregister
    refine ⟨hretired.trans (hnext.retired _ _), moves_iff h.devices h.crosses ht hok (by rw [hg])
      (hbus.trans (hnext.bus _ _)) fun hload r hr ↦ ?_⟩
    rw [hregister] at hr
    rw [hg]
    exact hbytes hload _ _ r hr

/-- **When a scalar access across a page respects the page tables**: its first byte does not
translate; every byte follows the first one in physical memory; or the bus refuses it and all bytes
translate. -/
theorem respectsPages_iff (h : ScalarStep c packet f a) :
    RespectsPages c f packet a ↔
      (∃ fault, a.translateByte f 0 = .error fault) ∨
        (∃ pa, a.translateByte f 0 = .ok pa ∧ ∀ i < widthInBytes a.width, a.Follows f pa i) ∨
        (a.BusRefuses f ∧ ∀ i < widthInBytes a.width, ∃ pa, a.translateByte f i = .ok pa) := by
  have hzero := translateByte_zero a f
  have hnone {fault : MmuFault} {i : ℕ} (hfault : a.translateByte f i = .error fault) :
      ¬ ∃ pa, a.translateByte f i = .ok pa := by
    rintro ⟨pa, hpa⟩
    rw [hfault] at hpa
    cases hpa
  obtain ⟨t, m, b, ht⟩ : ∃ t m b, a.translated f = (t, m, b) := ⟨_, _, _, rfl⟩
  cases t with
  | error fault =>
    obtain ⟨hretired, htrap, hbus⟩ := h.step_of_error (congrArg Prod.fst ht)
    refine iff_of_true ⟨fun hyes ↦ ?_, fun _ ↦ ⟨htrap, ?_⟩⟩
      (Or.inl ⟨fault, hzero.trans (congrArg Prod.fst ht)⟩)
    · rw [hretired] at hyes
      cases hyes
    · rw [hbus]
      exact h.adUpdated
  | ok pa =>
    have hpa : a.translateByte f 0 = .ok pa := hzero.trans (congrArg Prod.fst ht)
    have hsome : ¬ ∃ fault, a.translateByte f 0 = .error fault := by
      rintro ⟨fault, hfault⟩
      exact hnone hfault ⟨pa, hpa⟩
    rw [or_iff_right hsome]
    cases hok : (a.operation b pa).1.1.ok with
    | false =>
      -- an access fault is right unless a page fault was due
      have hrefuses : a.BusRefuses f := ⟨pa, m, b, ht, hok⟩
      obtain ⟨hretired, hcause⟩ := h.step_of_refused hrefuses
      constructor
      · refine fun hp ↦ Or.inr ⟨hrefuses, fun i hi ↦ ?_⟩
        cases hbyte : a.translateByte f i with
        | ok q => exact ⟨q, rfl⟩
        | error fault =>
          obtain ⟨⟨trap, htrap, hpage⟩, -⟩ := hp.faults ⟨i, hi, fault, hbyte⟩
          rw [htrap, Option.map_some, hpage] at hcause
          exact absurd (Option.some.inj hcause) (pageFaultCause_ne_accessFaultCause a.kind)
      · intro hright
        refine ⟨fun hyes ↦ ?_, ?_⟩
        · rw [hretired] at hyes
          cases hyes
        · rintro ⟨i, hi, fault, hfault⟩
          rcases hright with ⟨pa', -, hfollows⟩ | ⟨-, hall⟩
          · obtain ⟨q, hq, -⟩ := hfollows i hi
            exact absurd ⟨q, hq⟩ (hnone hfault)
          · exact absurd (hall i hi) (hnone hfault)
    | true =>
      -- retiring is right if the bytes are where it takes them to be
      have haccepts : ¬ a.BusRefuses f := by
        rintro ⟨pa', m', b', ht', hno⟩
        obtain ⟨rfl, -, rfl⟩ : pa = pa' ∧ m = m' ∧ b = b' := by
          simpa using ht.symm.trans ht'
        exact absurd (hok.symm.trans hno) (by decide)
      obtain ⟨hretired, hmoves⟩ := h.step_of_accepted ht hok
      rw [or_iff_left fun hr ↦ haccepts hr.1]
      constructor
      · exact fun hp ↦ ⟨pa, hpa, hmoves.1 (hp.retires hretired).1⟩
      · rintro ⟨pa', hpa', hfollows⟩
        obtain rfl := Except.ok.inj (hpa.symm.trans hpa')
        refine ⟨fun _ ↦ ⟨hmoves.2 hfollows, h.adUpdated⟩, ?_⟩
        rintro ⟨i, hi, fault, hfault⟩
        obtain ⟨q, hq, -⟩ := hfollows i hi
        exact absurd ⟨q, hq⟩ (hnone hfault)

end Steps

/-! ## Two gigapages -/

/-- A hart in machine mode that loads as supervisor, in front of `lw x2, 0(x1)`.  The word lies
across the end of a gigapage that is mapped; the entry of the next one is `second`. -/
def straddleCpu (second : BitVec 64) : Cpu where
  bus :=
    { regions :=
        [.ram
          { range := { base := 0#64, size := 28#64, size_pos := by decide, fits := by decide }
            bytes := (List.range 28).map fun i ↦
              if i < 8 then 0#8
              else if i < 16 then Bytes.splitByte 0x20000007#64 (i - 8)
              else if i < 24 then Bytes.splitByte second (i - 16)
              else Bytes.splitByte 0x0000A103#64 (i - 24)
            size_eq := by simp },
        .ram
          { range :=
              { base := 0xBFFFFFFE#64, size := 4#64, size_pos := AddressRange.pos_four
                fits := by decide }
            bytes := [1#8, 2#8, 3#8, 4#8], size_eq := by decide }]
      apart := by simp [AddressRegion.Apart, AddressRegion.range, AddressRange.overlaps,
        AddressRange.endExclusive] }
  state :=
    { integerRegisters := fun i ↦ if i = 1#5 then 0x7FFFFFFE#64 else 0#64
      csrs := { mstatus := 0x20800#64, satp := 0x8000000000000000#64 }
      programCounter := 24#64 }

def straddleAccess : ScalarAccess where
  address := 0x7FFFFFFE#64
  width := .word
  store := none

theorem straddleCpu_scalarStep {second : BitVec 64}
    (hfetch : (straddleCpu second).awake.fetch.1 =
      .ok { programCounter := 24#64, bits := 0x0000A103#32, length := 4 }) :
    ScalarStep (straddleCpu second)
      { programCounter := 24#64, bits := 0x0000A103#32, length := 4 }
      (straddleCpu second).awake.fetch.2 straddleAccess := by
  have hstate := (fetch_fetched (straddleCpu second).awake).state
  have hdevices : (straddleCpu second).awake.bus.DevicesOnPages := by
    intro r hr
    simp only [Cpu.awake, straddleCpu] at hr
    rcases List.mem_cons.1 hr with rfl | hr'
    · intro hdevice
      cases hdevice
    · rw [List.mem_singleton] at hr'
      subst hr'
      intro hdevice
      cases hdevice
  refine ⟨⟨rfl, Prod.ext hfetch rfl⟩, ?_, ?_, ?_⟩
  · rw [hstate]
    show scalarAccess (straddleCpu 0#64).awake.state _ = some straddleAccess
    decide
  · rw [CrossesPage]
    decide
  · exact hdevices.of_devices (fetch_devices _).1

/-- The data accesses go through the page tables. -/
theorem straddleCpu_paged {second : BitVec 64} :
    Paged straddleAccess.address (straddleCpu second).awake.fetch.2.dataContext := by
  rw [Cpu.dataContext, (fetch_fetched (straddleCpu second).awake).state]
  show Paged straddleAccess.address (straddleCpu 0#64).awake.dataContext
  exact ⟨by decide, by decide⟩

theorem respectsPages_adjacent :
    Paged straddleAccess.address (straddleCpu 0x30000007#64).awake.fetch.2.dataContext ∧
    RespectsPages (straddleCpu 0x30000007#64) (straddleCpu 0x30000007#64).awake.fetch.2
      { programCounter := 24#64, bits := 0x0000A103#32, length := 4 } straddleAccess := by
  refine ⟨straddleCpu_paged, (respectsPages_iff (straddleCpu_scalarStep (by decide))).2
    (Or.inr (Or.inl ⟨0xBFFFFFFE#64, by decide, fun i hi ↦ ⟨_, ?_, Or.inl rfl⟩⟩))⟩
  have hbytes : ∀ i < 4, straddleAccess.translateByte
      (straddleCpu 0x30000007#64).awake.fetch.2 i = .ok (0xBFFFFFFE#64 + BitVec.ofNat 64 i) := by
    decide
  exact hbytes i hi

theorem load_into_unmapped_page :
    ∃ packet f, ScalarStep (straddleCpu 0#64) packet f straddleAccess ∧
      Paged straddleAccess.address f.dataContext ∧
      ¬ RespectsPages (straddleCpu 0#64) f packet straddleAccess := by
  refine ⟨_, _, straddleCpu_scalarStep (by decide), straddleCpu_paged, fun h ↦ ?_⟩
  obtain ⟨q, hq, -⟩ := (h.retires (by decide)).1.bytes 2 (by decide)
  have hlast : straddleAccess.translateByte (straddleCpu 0#64).awake.fetch.2 2 =
      .error (pageFault .load 0x80000000#64) := by decide
  rw [hq] at hlast
  cases hlast

end Rvemu
