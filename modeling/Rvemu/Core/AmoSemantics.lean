import Rvemu.Bus.Dma
import Rvemu.Core.AtomicDevices
import Rvemu.Core.IntegerSemantics

/-!
# What an AMO does to memory

An AMO is a read and a loop of compare-exchanges.  On its own the first exchange wins.  Other
masters on the bus may write between the read and the exchange, and between two exchanges; whatever
they do, the exchange that wins stores the update of the word that it finds.

The loop is run here with the other masters as functions on the bus, one before every translation
and one before every exchange; the loop of the hart is the one in which they do nothing.
-/

set_option autoImplicit false

namespace Rvemu

open Isa Bytes

/-! ## The operations -/

namespace AtomicOperation

/-- The word that an AMO leaves in memory. -/
def result {w : ℕ} (old operand : BitVec w) : AtomicOperation → BitVec w
  | swap => operand
  | add => old + operand
  | xor => old ^^^ operand
  | and => old &&& operand
  | or => old ||| operand
  | minimumSigned => BitVec.ofInt w (min old.toInt operand.toInt)
  | maximumSigned => BitVec.ofInt w (max old.toInt operand.toInt)
  | minimumUnsigned => BitVec.ofNat w (min old.toNat operand.toNat)
  | maximumUnsigned => BitVec.ofNat w (max old.toNat operand.toNat)

/-- The update of a word of the given width; the operand is truncated to it. -/
def update (operation : AtomicOperation) (width : AccessWidth) (old operand : BitVec 64) :
    BitVec 64 :=
  (operation.result (old.setWidth (8 * widthInBytes width))
    (operand.setWidth (8 * widthInBytes width))).setWidth 64

end AtomicOperation

theorem calculate_eq {w : ℕ} (hw : 0 < w) (operation : AtomicOperation) (old operand : BitVec w) :
    calculate operation old operand = operation.result old operand := by
  have hsigned := signedLess_eq hw old operand
  cases operation with
  | minimumSigned =>
    rw [calculate, hsigned, AtomicOperation.result]
    by_cases h : old.toInt < operand.toInt
    · rw [decide_eq_true h, if_pos rfl, Int.min_eq_left (Int.le_of_lt h), BitVec.ofInt_toInt]
    · rw [decide_eq_false h, if_neg (by decide), Int.min_eq_right (Int.not_lt.1 h),
        BitVec.ofInt_toInt]
  | maximumSigned =>
    rw [calculate, hsigned, AtomicOperation.result]
    by_cases h : old.toInt < operand.toInt
    · rw [decide_eq_true h, if_pos rfl, Int.max_eq_right (Int.le_of_lt h), BitVec.ofInt_toInt]
    · rw [decide_eq_false h, if_neg (by decide), Int.max_eq_left (Int.not_lt.1 h),
        BitVec.ofInt_toInt]
  | minimumUnsigned =>
    rw [calculate, AtomicOperation.result]
    by_cases h : old < operand
    · rw [if_pos h, Nat.min_eq_left (Nat.le_of_lt (BitVec.lt_def.1 h)), BitVec.ofNat_toNat,
        BitVec.setWidth_eq]
    · rw [if_neg h, Nat.min_eq_right (BitVec.not_lt.1 h), BitVec.ofNat_toNat, BitVec.setWidth_eq]
  | maximumUnsigned =>
    rw [calculate, AtomicOperation.result]
    by_cases h : old < operand
    · rw [if_pos h, Nat.max_eq_right (Nat.le_of_lt (BitVec.lt_def.1 h)), BitVec.ofNat_toNat,
        BitVec.setWidth_eq]
    · rw [if_neg h, Nat.max_eq_left (BitVec.not_lt.1 h), BitVec.ofNat_toNat, BitVec.setWidth_eq]
  | _ => rfl

/-- Masking a value keeps the bits of its width. -/
theorem and_valueMask (v : BitVec 64) (width : AccessWidth) :
    v &&& valueMask width = (v.setWidth (8 * widthInBytes width)).setWidth 64 := by
  have hmask : ∀ k < 64, (valueMask width).getLsbD k = decide (k < 8 * widthInBytes width) := by
    cases width <;> decide
  refine BitVec.eq_of_getLsbD_eq fun k hk ↦ ?_
  rw [BitVec.getLsbD_and, hmask k hk, BitVec.getLsbD_setWidth, BitVec.getLsbD_setWidth,
    decide_eq_true hk, Bool.true_and, Bool.and_comm]

/-- The value the loop asks to be stored, and what is stored of it. -/
theorem executeAtomicOperation_eq {width : AccessWidth} (hw : width = .word ∨ width = .doubleWord)
    (operation : AtomicOperation) (old operand : BitVec 64) :
    executeAtomicOperation operation old operand (width == .word) &&& valueMask width =
      operation.update width old operand := by
  rw [executeAtomicOperation, AtomicOperation.update, and_valueMask]
  rcases hw with rfl | rfl
  · rw [if_pos (by decide), calculate_eq (by decide)]
    exact congrArg _ (BitVec.setWidth_setWidth_of_le _ (by decide))
  · rw [if_neg (by decide), calculate_eq (by decide)]
    simp [widthInBytes]

/-- The update looks at the bits of the width only. -/
theorem update_and_valueMask (operation : AtomicOperation) (width : AccessWidth)
    (old operand : BitVec 64) :
    operation.update width (old &&& valueMask width) operand =
      operation.update width old operand := by
  have hle : 8 * widthInBytes width ≤ 64 := by cases width <;> decide
  rw [AtomicOperation.update, AtomicOperation.update, and_valueMask,
    BitVec.setWidth_setWidth_of_le _ hle, BitVec.setWidth_eq]

/-- The value of the destination register. -/
theorem extend_and_valueMask {width : AccessWidth} (hw : width = .word ∨ width = .doubleWord)
    (old : BitVec 64) :
    (if (width == .word) = true then signExtendWord old else old) =
      extend width true (old &&& valueMask width) := by
  have hle : 8 * widthInBytes width ≤ 64 := by cases width <;> decide
  rw [extend, and_valueMask, BitVec.setWidth_setWidth_of_le _ hle, BitVec.setWidth_eq, if_pos rfl]
  rcases hw with rfl | rfl
  · rw [if_pos (by decide), signExtendWord, signExtend_eq _ (by decide) (by decide),
      BitVec.setWidth_and]
    exact congrArg _ BitVec.and_allOnes
  · rw [if_neg (by decide)]
    simp [widthInBytes]

/-! ## One exchange -/

/-- A compare-exchange wins against the word it expects only, and stores the desired one. -/
theorem exchanged_iff {b : Bus} {pa : BitVec 64} {width : AccessWidth}
    {expected desired : BitVec 64}
    {t : AccessType} (h : (b.compareExchange pa width expected desired t).1.exchanged = true) :
    b.ramWord pa.toNat width = expected &&& valueMask width ∧
      Bus.Stored b (b.compareExchange pa width expected desired t).2 pa width
        (desired &&& valueMask width) := by
  rcases b.compareExchange_cases pa width expected desired t with ⟨hno, -⟩ | ⟨-, -, hstored, -⟩
  · exact absurd (hno.symm.trans h) (by decide)
  refine ⟨?_, hstored⟩
  have hram := hstored.inRam
  obtain ⟨i, o, m, hl, hm, -, hfit⟩ := hram.locate
  have hword : b.ramWord pa.toNat width = m.readUnlocked o width := by
    have hread := Bus.read_eq_of_locate t hl hm
    rw [hram.read_eq t] at hread
    exact congrArg AccessResult.value (hread.trans (PhysicalMemory.read_eq hfit))
  have hres : (b.compareExchange pa width expected desired t).1 =
      (m.compareExchange o width expected desired).1 := by
    have hfirst : (b.compareExchange pa width expected desired t).1 =
      (b.onRegion pa width (Bus.compareExchangeOp width expected desired)).1 := Bus.fst_ite_mk _ _ _
    rw [hfirst, Bus.onRegion, hl, Bus.onLocated, hm]
    rfl
  rw [hres, PhysicalMemory.compareExchange_eq _ _ hfit] at h
  rw [hword]
  by_contra hne
  rw [if_neg hne] at h
  cases h

/-- A compare-exchange that the bus takes and that does not win has found another word than the one
it expects; it returns that word and changes nothing. -/
theorem not_exchanged_iff {b : Bus} {pa : BitVec 64} {width : AccessWidth}
    {expected desired : BitVec 64} {t : AccessType}
    (hok : (b.compareExchange pa width expected desired t).1.ok = true)
    (h : (b.compareExchange pa width expected desired t).1.exchanged = false) :
    b.ramWord pa.toNat width ≠ expected &&& valueMask width ∧
      (b.compareExchange pa width expected desired t).1.value = b.ramWord pa.toNat width ∧
      (b.compareExchange pa width expected desired t).2 = b := by
  have hfirst : (b.compareExchange pa width expected desired t).1 =
      (b.onRegion pa width (Bus.compareExchangeOp width expected desired)).1 := Bus.fst_ite_mk _ _ _
  have hbus : (b.compareExchange pa width expected desired t).2 = b := by
    rcases b.compareExchange_cases pa width expected desired t with ⟨-, hb⟩ | ⟨-, hyes, -⟩
    · exact hb
    · exact absurd (h.symm.trans hyes) (by decide)
  rw [hfirst] at hok h ⊢
  rcases Bus.onRegion_cases b pa width (Bus.compareExchangeOp width expected desired) with
    ⟨e, he, hrun⟩ | ⟨i, o, r, hl, hr, hresult, -⟩
  · rw [hrun, Bus.locate_error he] at hok
    cases hok
  rw [hresult] at hok h ⊢
  cases r with
  | ram m =>
    obtain ⟨r, hr', hlow, hhigh, ho⟩ := Bus.locate_ok hl
    obtain rfl := Option.some.inj (hr.symm.trans hr')
    have hfit : o.toNat + widthInBytes width ≤ m.bytes.length := by
      rw [m.size_eq]
      simp only [AddressRegion.range] at hlow hhigh ho
      omega
    have hram : b.InRam pa.toNat (widthInBytes width) :=
      ⟨m, List.mem_of_getElem? hr, hlow, hhigh⟩
    have hword : b.ramWord pa.toNat width = m.readUnlocked o width := by
      have hread := Bus.read_eq_of_locate t hl hr
      rw [hram.read_eq t] at hread
      exact congrArg AccessResult.value (hread.trans (PhysicalMemory.read_eq hfit))
    have hrun : ((Bus.compareExchangeOp width expected desired).run (.ram m) o).1 =
        (m.compareExchange o width expected desired).1 := rfl
    rw [hrun, PhysicalMemory.compareExchange_eq _ _ hfit] at h ⊢
    rw [hword]
    by_cases hsame : m.readUnlocked o width = expected &&& valueMask width
    · rw [if_pos hsame] at h
      cases h
    · rw [if_neg hsame]
      exact ⟨hsame, rfl, hbus⟩
  | _ => cases hok

/-- The compare-exchange of the hart with other masters at work before its translation and before
its access. -/
def Cpu.guestCompareExchangeAmong (c : Cpu) (before after : Bus → Bus) (packet : InstructionPacket)
    (virtualAddress : BitVec 64) (width : AccessWidth) (expected desired : BitVec 64) :
    GuestAccessResult × Cpu :=
  let translated := c.mmu.translate (before c.bus) virtualAddress width .store c.dataContext
  ({ c with mmu := translated.2.1, bus := after translated.2.2 } : Cpu).accessTranslated packet
    virtualAddress .storeAccessFault (compareExchangeOperation width expected desired) translated.1

/-- The loop of an AMO among other masters, for as many attempts as they are given. -/
def Cpu.exchangeLoopAmong (c : Cpu) (packet : InstructionPacket) (operation : AtomicOperation)
    (address source2 : BitVec 64) (width : AccessWidth) (wordOperation : Bool)
    (original : BitVec 64) :
    List ((Bus → Bus) × (Bus → Bus)) → Option ((GuestAccessResult × BitVec 64) × Cpu)
  | [] => none
  | (before, after) :: others =>
    let desired := executeAtomicOperation operation original source2 wordOperation
    let exchanged :=
      c.guestCompareExchangeAmong before after packet address width original desired
    if exchanged.1.trap.isSome || exchanged.1.access.exchanged then
      some ((exchanged.1, original), exchanged.2)
    else
      exchanged.2.exchangeLoopAmong packet operation address source2 width wordOperation
        exchanged.1.access.value others

/-- How the attempts of an AMO come to the one that wins, at `pa` on the bus `present`, from an MMU,
a bus and the word seen last.  In each attempt the other masters have a turn, the address is
translated, and they have another turn.  An attempt that then finds another word than the one seen
leaves everything so and has seen that word; the one that finds the word it has seen wins. -/
inductive Attempts (context : MmuContext) (address : BitVec 64) (width : AccessWidth)
    (pa : BitVec 64) (present : Bus) :
    Mmu → Bus → BitVec 64 → List ((Bus → Bus) × (Bus → Bus)) → Prop
  | wins {before after : Bus → Bus} {mmu m : Mmu} {bus b : Bus} {seen : BitVec 64}
    {others : List ((Bus → Bus) × (Bus → Bus))}
    (ht : mmu.translate (before bus) address width .store context = (.ok pa, m, b))
    (hpresent : present = after b)
    (hword : present.ramWord pa.toNat width = seen &&& valueMask width) :
    Attempts context address width pa present mmu bus seen ((before, after) :: others)
  | loses {before after : Bus → Bus} {mmu m : Mmu} {bus b : Bus} {seen pa' : BitVec 64}
    {others : List ((Bus → Bus) × (Bus → Bus))}
    (ht : mmu.translate (before bus) address width .store context = (.ok pa', m, b))
    (hword : (after b).ramWord pa'.toNat width ≠ seen &&& valueMask width)
    (hrest : Attempts context address width pa present m (after b)
      ((after b).ramWord pa'.toNat width) others) :
    Attempts context address width pa present mmu bus seen ((before, after) :: others)

/-- The winning exchange finds the word at `pa` in `present`: the attempts start where the read has
left the MMU and the bus, with the word it has read. -/
def FoundAt (f : Cpu) (others : List ((Bus → Bus) × (Bus → Bus))) (address : BitVec 64)
    (width : AccessWidth) (pa : BitVec 64) (present : Bus) : Prop :=
  ∃ pa' m b, f.mmu.translate f.bus address width .atomic f.dataContext = (.ok pa', m, b) ∧
    Attempts f.dataContext address width pa present m (b.read pa' width .atomic).2
      (b.read pa' width .atomic).1.value others

/-- An attempt of the loop is refused, loses without a trace but that of its translation, or stores
the update of the word it finds. -/
theorem guestCompareExchangeAmong_cases (c : Cpu) (before after : Bus → Bus)
    (packet : InstructionPacket) (address : BitVec 64) (width : AccessWidth)
    (expected desired : BitVec 64) :
    let r := c.guestCompareExchangeAmong before after packet address width expected desired
    r.2.state = c.state ∧
      (r.1.trap.isSome = true ∨ r.1.trap = none ∧ ∃ pa m b,
        c.mmu.translate (before c.bus) address width .store c.dataContext = (.ok pa, m, b) ∧
        (r.1.access.exchanged = false ∧
            (after b).ramWord pa.toNat width ≠ expected &&& valueMask width ∧
            r.1.access.value = (after b).ramWord pa.toNat width ∧ r.2.mmu = m ∧ r.2.bus = after b ∨
          r.1.access.exchanged = true ∧
            (after b).ramWord pa.toNat width = expected &&& valueMask width ∧
            Bus.Stored (after b) r.2.bus pa width (desired &&& valueMask width))) := by
  intro r
  have hr : r = c.guestCompareExchangeAmong before after packet address width expected
      desired := rfl
  obtain ⟨t, m, b, ht⟩ : ∃ t m b,
      c.mmu.translate (before c.bus) address width .store c.dataContext = (t, m, b) :=
      ⟨_, _, _, rfl⟩
  rw [Cpu.guestCompareExchangeAmong, ht] at hr
  rcases accessTranslated_cases ({ c with mmu := m, bus := after b } : Cpu) packet address
    .storeAccessFault (compareExchangeOperation width expected desired) t with
    ⟨fault, -, hdone⟩ | ⟨pa, rfl, hcpu, haccess, ⟨-, htrap⟩ | ⟨hok, htrap, -⟩⟩
  · rw [hr, hdone]
    exact ⟨rfl, Or.inl rfl⟩
  · rw [hr, hcpu, htrap]
    exact ⟨rfl, Or.inl rfl⟩
  · rw [hr, hcpu, htrap, haccess]
    refine ⟨rfl, Or.inr ⟨rfl, pa, m, b, ht, ?_⟩⟩
    cases hx : ((after b).compareExchange pa width expected desired).1.exchanged with
    | false =>
      obtain ⟨hword, hvalue, hbus⟩ := not_exchanged_iff hok hx
      exact Or.inl ⟨hx, hword, hvalue, rfl, hbus⟩
    | true => exact Or.inr ⟨hx, exchanged_iff hx⟩

/-- **A loop that ends without a trap** has stored the update of the word that its winning attempt
found. -/
theorem exchangeLoopAmong_stored {f : Cpu} {packet : InstructionPacket}
    {operation : AtomicOperation} {address source2 : BitVec 64} {width : AccessWidth}
    {wordOperation : Bool} {others : List ((Bus → Bus) × (Bus → Bus))} {c c' : Cpu}
    {original old : BitVec 64} {exchanged : GuestAccessResult} (hstate : c.state = f.state)
    (h : c.exchangeLoopAmong packet operation address source2 width wordOperation original others =
      some ((exchanged, old), c')) (htrap : exchanged.trap = none) :
    ∃ pa present,
      Attempts f.dataContext address width pa present c.mmu c.bus original others ∧
      present.ramWord pa.toNat width = old &&& valueMask width ∧
      Bus.Stored present c'.bus pa width
        (executeAtomicOperation operation old source2 wordOperation &&& valueMask width) ∧
      c'.state = f.state := by
  induction others generalizing c original with
  | nil => cases h
  | cons other others ih =>
    obtain ⟨before, after⟩ := other
    rw [Cpu.exchangeLoopAmong] at h
    obtain ⟨hkeep, hcases⟩ := guestCompareExchangeAmong_cases c before after packet address width
      original (executeAtomicOperation operation original source2 wordOperation)
    have hcontext : c.dataContext = f.dataContext := by
      rw [Cpu.dataContext, Cpu.dataContext, hstate]
    rcases hcases with hsome | ⟨hnone, pa, m, b, ht, ⟨hno, hother, hvalue, hm, hb⟩ |
      ⟨hyes, hword, hstored⟩⟩
    · rw [hsome, Bool.true_or, if_pos rfl, Option.some.injEq, Prod.mk.injEq, Prod.mk.injEq] at h
      rw [h.1.1, htrap] at hsome
      cases hsome
    · rw [hnone, hno, Option.isSome_none, Bool.false_or, if_neg (by decide), hvalue] at h
      obtain ⟨pa', present, hattempts, hrest⟩ := ih (hkeep.trans hstate) h
      rw [hm, hb] at hattempts
      rw [hcontext] at ht
      exact ⟨pa', present, .loses ht hother hattempts, hrest⟩
    · rw [hyes, Bool.or_true, if_pos rfl, Option.some.injEq, Prod.mk.injEq, Prod.mk.injEq] at h
      obtain ⟨⟨-, rfl⟩, rfl⟩ := h
      rw [hcontext] at ht
      exact ⟨pa, after b, .wins ht rfl hword, hword, hstored, hkeep.trans hstate⟩

/-! ## The instruction -/

/-- An AMO at an aligned address, among other masters. -/
def Cpu.executeAmoAmong (c : Cpu) (packet : InstructionPacket) (operation : AtomicOperation)
    (width : AccessWidth) (others : List ((Bus → Bus) × (Bus → Bus))) : Option (StepResult × Cpu) :=
  let instruction := decode packet.bits
  let address := c.state.integer instruction.source1
  let source2 := c.state.integer instruction.source2
  let observed := c.guestRead packet address width .atomic .atomic
  match observed.1.trap with
  | some trap => some (.failure trap packet.length, observed.2)
  | none =>
    (observed.2.exchangeLoopAmong packet operation address source2 width (width == .word)
      observed.1.access.value others).map fun ended ↦
        observed.2.finishAmo packet instruction.destination (width == .word)
          (packet.programCounter + BitVec.ofNat 64 packet.length) (some ended)

/-- What an AMO has done when it retires, where `present` is the bus that the winning exchange
found: one word has been updated, the destination has its old value, and execution goes on behind
the instruction. -/
structure AmoCommitted (f : Cpu) (packet : InstructionPacket) (operation : AtomicOperation)
    (width : AccessWidth) (present : Bus) (pa : BitVec 64) (done : StepResult × Cpu) : Prop where
  inRam : present.InRam pa.toNat (widthInBytes width)
  result : done.1 = .success packet.length
  word : done.2.bus.ramWord pa.toNat width = operation.update width
    (present.ramWord pa.toNat width) (f.state.integer (decode packet.bits).source2)
  bytes : ∀ x, x < pa.toNat ∨ pa.toNat + widthInBytes width ≤ x →
    done.2.bus.ramByte x = present.ramByte x
  devices : done.2.bus.devices = present.devices
  state : done.2.state = (f.state.writeRegister
    (some ((decode packet.bits).destination,
      extend width true (present.ramWord pa.toNat width)))).setProgramCounter
    (packet.programCounter + BitVec.ofNat 64 packet.length)

theorem committed_of_stored {f c c' : Cpu} {packet : InstructionPacket}
    {operation : AtomicOperation}
    {width : AccessWidth} {present : Bus} {pa old : BitVec 64} {exchanged : GuestAccessResult}
    (hw : width = .word ∨ width = .doubleWord) (htrap : exchanged.trap = none)
    (hold : present.ramWord pa.toNat width = old &&& valueMask width)
    (hstored : Bus.Stored present c'.bus pa width
      (executeAtomicOperation operation old (f.state.integer (decode packet.bits).source2)
        (width == .word) &&& valueMask width)) (hstate : c'.state = f.state) :
    AmoCommitted f packet operation width present pa
      (c.finishAmo packet (decode packet.bits).destination (width == .word)
        (packet.programCounter + BitVec.ofNat 64 packet.length) (some ((exchanged, old), c'))) := by
  rw [Cpu.finishAmo, Cpu.afterAccess, htrap]
  refine ⟨hstored.inRam, rfl, ?_, ?_, hstored.devices_eq, ?_⟩
  · have hself := hstored.ramWord_self
    rw [executeAtomicOperation_eq hw, composeBytes_splitByte _ _ (widthInBytes_le width)] at hself
    refine Eq.trans hself ?_
    rw [hold, update_and_valueMask]
    rw [Nat.mul_comm, ← and_valueMask, ← executeAtomicOperation_eq hw, BitVec.and_assoc,
      BitVec.and_self]
  · intro x hx
    exact (hstored.ramByte_eq x).trans (if_neg (by omega))
  · rw [hold, ← extend_and_valueMask hw]
    show (c'.state.setInteger _ _).setProgramCounter _ = _
    rw [hstate]
    rfl

/-- **The winning exchange.**  Whatever the other masters do, an AMO that retires has updated the
word that its last exchange found. -/
theorem executeAmoAmong_committed {f : Cpu} {packet : InstructionPacket}
    {operation : AtomicOperation} {width : AccessWidth} (hw : width = .word ∨ width = .doubleWord)
    {others : List ((Bus → Bus) × (Bus → Bus))} {done : StepResult × Cpu}
    (h : f.executeAmoAmong packet operation width others = some done)
    (hretired : done.1.retired = true) :
    ∃ pa present, FoundAt f others (f.state.integer (decode packet.bits).source1) width pa present ∧
      AmoCommitted f packet operation width present pa done := by
  rw [Cpu.executeAmoAmong] at h
  have hread := accessed_guestRead f packet (f.state.integer (decode packet.bits).source1) width
    .atomic .atomic
  cases ht : (f.guestRead packet (f.state.integer (decode packet.bits).source1) width .atomic
      .atomic).1.trap with
  | some trap =>
    rw [ht] at h
    obtain rfl := Option.some.inj h
    cases hretired
  | none =>
    rw [ht] at h
    obtain ⟨⟨⟨exchanged, old⟩, c'⟩, hloop, rfl⟩ := Option.map_eq_some_iff.1 h
    have htrap : exchanged.trap = none := by
      cases htrap : exchanged.trap with
      | none => rfl
      | some trap =>
        rw [Cpu.finishAmo, Cpu.afterAccess, htrap] at hretired
        cases hretired
    obtain ⟨pa, present, hattempts, hword, hstored, hstate⟩ :=
      exchangeLoopAmong_stored hread.state hloop htrap
    obtain ⟨pa', m, b, htranslate, -, hg⟩ := guestAccess_of_no_trap ht
    refine ⟨pa, present, ⟨pa', m, b, htranslate, ?_⟩,
      committed_of_stored hw htrap hword hstored hstate⟩
    rw [Cpu.guestRead] at hattempts
    rwa [hg] at hattempts

/-- One attempt on its own that ends the loop ends the loop of the hart. -/
theorem exchangeLoop_of_alone {c : Cpu} {packet : InstructionPacket} {operation : AtomicOperation}
    {address source2 original : BitVec 64} {width : AccessWidth} {wordOperation : Bool}
    {ended : (GuestAccessResult × BitVec 64) × Cpu}
    (h : c.exchangeLoopAmong packet operation address source2 width wordOperation original
      [(id, id)] = some ended) (attempts : ℕ) :
    c.exchangeLoop packet operation address source2 width wordOperation original (attempts + 1) =
      some ended := by
  rw [Cpu.exchangeLoopAmong] at h
  rw [Cpu.exchangeLoop]
  split at h
  · next hdone => exact (if_pos hdone).trans h
  · cases h

theorem executeForm_of_alone {f : Cpu} {packet : InstructionPacket} {operation : AtomicOperation}
    {width : AccessWidth} {done : StepResult × Cpu}
    (haligned : Cpu.misaligned (f.state.integer (decode packet.bits).source1) width = false)
    (h : f.executeAmoAmong packet operation width [(id, id)] = some done) :
    f.executeForm packet width (.amo operation) = done := by
  rw [Cpu.executeAmoAmong] at h
  simp only [Cpu.executeForm]
  rw [Cpu.executeAmo, haligned, if_neg (by decide), Cpu.afterAccess]
  cases ht : (f.guestRead packet (f.state.integer (decode packet.bits).source1) width .atomic
      .atomic).1.trap with
  | some trap =>
    rw [ht] at h
    exact Option.some.inj h
  | none =>
    rw [ht] at h
    obtain ⟨ended, hloop, rfl⟩ := Option.map_eq_some_iff.1 h
    rw [Cpu.exchangeAttempts]
    exact congrArg (Cpu.finishAmo _ _ _ _ _) (exchangeLoop_of_alone hloop 1)

/-- **On its own** an AMO in RAM retires with its first exchange, which finds the memory that the
translation of the read has left. -/
theorem executeAmoAmong_alone {f : Cpu} {packet : InstructionPacket} {operation : AtomicOperation}
    {width : AccessWidth} {pa : BitVec 64} {m : Mmu} {b : Bus}
    (hw : width = .word ∨ width = .doubleWord) (hm : f.mmu.Consistent)
    (ht : f.mmu.translate f.bus (f.state.integer (decode packet.bits).source1) width .atomic
      f.dataContext = (.ok pa, m, b)) (hram : b.InRam pa.toNat (widthInBytes width)) :
    ∃ done, f.executeAmoAmong packet operation width [(id, id)] = some done ∧
      AmoCommitted f packet operation width b pa done := by
  have hread := hram.read_eq .atomic
  have hok : (b.read pa width .atomic).1.ok = true := by rw [hread]; rfl
  set address := f.state.integer (decode packet.bits).source1
  set old := b.ramWord pa.toNat width with hold
  set desired := executeAtomicOperation operation old (f.state.integer (decode packet.bits).source2)
    (width == .word)
  set c : Cpu := { f with mmu := m, bus := b }
  have hguest : f.guestRead packet address width .atomic .atomic =
      ({ access := .success old }, c) := by
    rw [Cpu.guestRead, if_neg (by decide)]
    rcases guestAccess_of_translate ht packet (accessFaultCause .atomic)
      (readOperation width .atomic) with ⟨hno, -⟩ | ⟨-, hg⟩
    · exact absurd (hok.symm.trans hno) (by decide)
    · rw [hg, readOperation, hread]
  obtain ⟨m', hm'⟩ : ∃ m',
      c.mmu.translate c.bus address width .store c.dataContext = (.ok pa, m', b) := by
    have h := translate_exchange hm ht
    dsimp only at h
    rw [hread] at h
    exact h
  have hyes : (b.compareExchange pa width old desired).1.exchanged = true := by
    have h := Bus.compareExchange_after_read hok desired .atomic
    dsimp only at h
    rw [hread] at h
    exact h.resolve_left (by rw [hram.compareExchange]; decide)
  obtain ⟨hword, hstored⟩ := exchanged_iff hyes
  -- the first exchange finds the word that was read
  have hexchange : c.guestCompareExchangeAmong id id packet address width old desired =
      ({ access := (b.compareExchange pa width old desired).1 },
        { c with mmu := m', bus := (b.compareExchange pa width old desired).2 }) := by
    rcases guestAccess_of_translate hm' packet .storeAccessFault
      (compareExchangeOperation width old desired) with ⟨hno, -⟩ | ⟨-, hg⟩
    · exact absurd ((hram.compareExchange _ _ .atomic).symm.trans hno) (by decide)
    · exact hg
  have hloop : c.exchangeLoopAmong packet operation address
      (f.state.integer (decode packet.bits).source2) width (width == .word) old [(id, id)] =
      some (({ access := (b.compareExchange pa width old desired).1 }, old),
        { c with mmu := m', bus := (b.compareExchange pa width old desired).2 }) := by
    rw [Cpu.exchangeLoopAmong, hexchange]
    exact if_pos (by rw [hyes]; rfl)
  have hstate : ({ c with
      mmu := m'
      bus := (b.compareExchange pa width old desired).2 } : Cpu).state = f.state := rfl
  have htrap : ({ access := (b.compareExchange pa width old desired).1 } :
      GuestAccessResult).trap = none := rfl
  refine ⟨_, ?_, committed_of_stored (f := f) (c := c) hw htrap hword hstored hstate⟩
  rw [Cpu.executeAmoAmong, hguest]
  exact congrArg (Option.map _) hloop

/-- **AMOs.**  At an aligned address in RAM an AMO retires with one exchange: the word at the
address becomes the update of its old value, the destination gets the old value, and otherwise
memory changes in A and D bits only, even where the word is a page table entry of the address.
Among other masters it retires when an exchange wins, and updates the word that this exchange
found; the attempts before have left no trace. -/
theorem amo_semantics {c f : Cpu} {packet : InstructionPacket} {operation : AtomicOperation}
    {width : AccessWidth} {pa : BitVec 64} {b : Bus}
    (h : AtomicStep c packet (.amo operation) width pa f b) (hm : c.mmu.Consistent)
    (haligned : (c.state.integer (decode packet.bits).source1).toNat % widthInBytes width = 0) :
    (b.InRam pa.toNat (widthInBytes width) →
      ∃ done, f.executeAmoAmong packet operation width [(id, id)] = some done ∧
        AmoCommitted f packet operation width b pa done ∧ AdUpdated c.root c.bus b ∧
        b.devices = c.bus.devices ∧ c.step.1 = .success packet.length ∧
        c.step.2.bus = done.2.bus ∧
        Changed c.state c.step.2.state
          (some ((decode packet.bits).destination,
            extend width true (b.ramWord pa.toNat width)))
          (c.state.programCounter + BitVec.ofNat 64 packet.length)) ∧
    ∀ others done, f.executeAmoAmong packet operation width others = some done →
      done.1.retired = true → ∃ pa' present,
        FoundAt f others (f.state.integer (decode packet.bits).source1) width pa' present ∧
        AmoCommitted f packet operation width present pa' done := by
  obtain ⟨hfetches, hdecoded, m, ht⟩ := h
  rw [AtomicForm.kind] at ht
  have haddress : f.state.integer (decode packet.bits).source1 =
      c.state.integer (decode packet.bits).source1 := by
    rw [hfetches.state]
    rfl
  rw [← haddress, ← misaligned_eq_false_iff] at haligned
  obtain ⟨hform, hw, hbits⟩ := executeStandard_of_atomicForm f hdecoded
  refine ⟨fun hram ↦ ?_, fun others done hdone hretired ↦
    executeAmoAmong_committed hw hdone hretired⟩
  obtain ⟨hbus, hdevices⟩ := hfetches.bus
  have hroot : satpRootPpn f.dataContext.satp = c.root := by
    show satpRootPpn f.state.csrs.satp = _
    rw [hfetches.state]
    rfl
  have hfm : f.mmu.Consistent := by
    have hconsistent := (fetch_devices c.awake).2 hm
    rw [hfetches.fetch] at hconsistent
    exact hconsistent
  obtain ⟨done, hdone, hcommitted⟩ := executeAmoAmong_alone hw hfm ht hram
  have hexecute : f.execute packet = done := by
    have hfull : packet.compressed = false := by
      rw [InstructionPacket.compressed, beq_eq_false_iff_ne]
      exact fun hlength ↦ fetch_bits hfetches.fetch hlength hbits
    rw [Cpu.execute, hfull, if_neg (by decide)]
    exact hform.trans (executeForm_of_alone haligned hdone)
  refine ⟨done, hdone, hcommitted, ?_, ?_, ?_, ?_, ?_⟩
  · have hup := translate_adUpdated f.mmu f.bus (f.state.integer (decode packet.bits).source1) width
      .atomic f.dataContext
    rw [ht, hroot] at hup
    exact hbus.trans hup
  · have hdev := devices_translate f.mmu f.bus (f.state.integer (decode packet.bits).source1) width
      .atomic f.dataContext
    rw [ht] at hdev
    exact hdev.trans hdevices
  · rw [hfetches.step_eq, hexecute]
    exact hcommitted.result
  · rw [hfetches.step_eq, hexecute]
    exact bus_countStep _ _
  · rw [hfetches.step_eq, hexecute]
    refine changed_countStep ?_ _
    rw [hcommitted.state, hfetches.state, hfetches.programCounter]

/-- A hart in front of `amoadd.w x1, x2, (x1)`, with the word behind it in `x1` and five in `x2`. -/
def amoCpu : Cpu where
  bus :=
    { regions :=
        [.ram
          { range := { base := 0#64, size := 8#64, size_pos := AddressRange.pos_eight
                       fits := by decide }
            bytes := (List.range 8).map (splitByte 0xFFFFFFFF0020A0AF#64)
            size_eq := by simp }]
      apart := by simp }
  state := { integerRegisters := fun i ↦ if i = 1#5 then 4#64 else if i = 2#5 then 5#64 else 0#64 }

theorem amoCpu_atomicStep : AtomicStep amoCpu
    { programCounter := 0#64, bits := 0x0020A0AF#32, length := 4 } (.amo .add) .word 4#64
    amoCpu.awake.fetch.2 amoCpu.awake.fetch.2.bus := by
  have hstate := (fetch_fetched amoCpu.awake).state
  have haddress : amoCpu.awake.fetch.2.state.integer 1#5 = 4#64 := by
    rw [hstate]
    rfl
  refine ⟨⟨rfl, Prod.ext (by decide) rfl⟩, by decide, amoCpu.awake.fetch.2.mmu, ?_⟩
  have hbare : amoCpu.awake.fetch.2.dataContext.privilege = .machine := by
    rw [Cpu.dataContext, hstate]
    show amoCpu.awake.dataContext.privilege = .machine
    decide
  show amoCpu.awake.fetch.2.mmu.translate _ (amoCpu.awake.fetch.2.state.integer 1#5) _ _ _ = _
  rw [haddress, Mmu.translate, if_pos (Or.inl hbare)]

theorem amo_semantics_amoadd : amoCpu.step.1 = .success 4 ∧
    amoCpu.step.2.bus.ramWord 4 .word = 4#64 ∧
    amoCpu.step.2.state.integer 1#5 = BitVec.allOnes 64 := by
  have hbus : amoCpu.awake.fetch.2.bus.ramWord 4 .word = 0xFFFFFFFF#64 := by decide
  obtain ⟨done, -, hcommitted, -, -, hresult, hstep, hchanged⟩ :=
    (amo_semantics amoCpu_atomicStep (consistent_of_empty (by decide)) (by decide)).1
      ⟨_, List.mem_singleton.2 rfl, by decide, by decide⟩
  refine ⟨hresult, ?_, ?_⟩
  · rw [hstep]
    refine hcommitted.word.trans ?_
    have hsource2 : amoCpu.awake.fetch.2.state.integer 2#5 = 5#64 := by
      rw [(fetch_fetched amoCpu.awake).state]
      rfl
    exact (congrArg₂ (AtomicOperation.update .add .word) hbus hsource2).trans (by decide)
  · rw [hchanged.integer]
    exact (congrArg (extend .word true) hbus).trans (by decide)

end Rvemu
