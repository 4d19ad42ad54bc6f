import Rvemu.Bus.DeviceAccess
import Rvemu.Core.Step

/-!
# Atomic instructions on devices

The devices refuse a compare-exchange, but an atomic instruction does not start with one: LR reads,
SC without its reservation does not touch the device at all, and an AMO reads before it exchanges.
This file says for each of the three when it still ends in an access fault with the devices as they
were.
-/

set_option autoImplicit false

namespace Rvemu

attribute [local instance] Plic.neZero_contexts

/-! ## What a device does with an access -/

namespace AddressRegion

/-- The read takes a pending interrupt from the PLIC. -/
def claims : AddressRegion → BitVec 64 → AccessWidth → Bool
  | plic p, offset, w =>
    w == .word && ((offset == Plic.contextOffset 0 + 4#64 && p.contextPending 0)
      || (offset == Plic.contextOffset 1 + 4#64 && p.contextPending 1))
  | _, _, _ => false

variable {r : AddressRegion}

theorem ok_compareExchange (h : r.isDevice = true) (o : BitVec 64) (w : AccessWidth)
    (e d : BitVec 64) : (r.compareExchange o w e d).1.ok = false := by
  cases r with
  | ram m => cases h
  | bootRom m => cases h
  | _ => rfl

theorem isDevice_read (o : BitVec 64) (w : AccessWidth) : (r.read o w).2.isDevice = r.isDevice := by
  cases r <;> rfl

/-- The arbitration selects a pending source. -/
theorem select_pending {p : Plic} {k : Fin 2} (h : p.select k ≠ 0) :
    p.pending (p.select k) = true := by
  have hfold : ∀ (l : List (Fin 32)) (selected : Fin 32),
      (selected ≠ 0 → p.pending selected = true) →
      let chosen := l.foldl
        (fun selected source ↦
          let enabled := (p.enable k &&& (1#32 <<< source.val)) != 0#32
          if !p.pending source || p.claimedBy source != 0#8 || !enabled
              || p.priority source ≤ p.threshold k then selected
          else if selected = 0 ∨ p.priority selected < p.priority source then source
          else selected) selected
      chosen ≠ 0 → p.pending chosen = true := by
    intro l
    induction l with
    | nil => exact fun selected hs ↦ hs
    | cons source l ih =>
      intro selected hs
      refine ih _ ?_
      dsimp only
      split
      · exact hs
      · next hno =>
        split
        · intro _
          by_contra hp
          exact hno (by simp [hp])
        · exact hs
  exact hfold Plic.sources 0 (fun h0 ↦ absurd rfl h0) h

/-- Reading the claim register takes the selected source, if there is one. -/
theorem plic_read_claim (p : Plic) (k : Fin 2) :
    (p.read (Plic.contextOffset k + 4#64) .word).2 = p ↔ p.contextPending k = false := by
  have hread : (p.read (Plic.contextOffset k + 4#64) .word).2 =
      if p.select k ≠ 0 then
        { p with
          pending := Function.update p.pending (p.select k) false
          claimedBy := Function.update p.claimedBy (p.select k) (BitVec.ofNat 8 (k.val + 1)) }
      else p := by
    rcases (by revert k; decide : k = 0 ∨ k = 1) with rfl | rfl <;> rfl
  rw [hread, Plic.contextPending, bne_eq_false_iff_eq]
  by_cases h : p.select k = 0
  · simp [h]
  · rw [if_pos h]
    refine iff_of_false (fun heq ↦ ?_) h
    have hpending := congrFun (congrArg Plic.pending heq) (p.select k)
    dsimp only at hpending
    rw [Function.update_self, select_pending h] at hpending
    cases hpending

theorem plic_read_other (p : Plic) {o : BitVec 64} {w : AccessWidth}
    (h : ∀ k, ¬ (w = .word ∧ o = Plic.contextOffset k + 4#64)) : (p.read o w).2 = p := by
  rw [Plic.read]
  split
  · rfl
  · next hgood =>
    rw [not_or, not_not] at hgood
    have hcontext : ∀ (k : Fin 2) (x : AccessResult × Plic), p.readContext k o = some x →
        x.2 = p := by
      intro k x hx
      simp only [Plic.readContext] at hx
      split at hx
      · rw [← Option.some.inj hx]
      · split at hx
        · rw [← Option.some.inj hx]
        · split at hx
          · next hclaim => exact absurd ⟨hgood.1, hclaim⟩ (h k)
          · cases hx
    split
    · rfl
    · split
      · rfl
      · cases h0 : p.readContext 0 o with
        | some x => exact hcontext 0 x h0
        | none =>
          cases h1 : p.readContext 1 o with
          | some x => exact hcontext 1 x h1
          | none => rfl

/-- A word or double word read leaves a device as it is, unless it claims an interrupt. -/
theorem read_eq_self_iff (h : r.isDevice = true) (o : BitVec 64) {w : AccessWidth}
    (hw : w = .word ∨ w = .doubleWord) : (r.read o w).2 = r ↔ r.claims o w = false := by
  cases r with
  | ram m => cases h
  | bootRom m => cases h
  | clint c => exact iff_of_true rfl rfl
  | virtio t => exact iff_of_true rfl rfl
  | uart u =>
    refine iff_of_true ?_ rfl
    have hv : (Uart16550.validateAccess o w).ok = false := by
      rcases hw with rfl | rfl <;> rfl
    simp [AddressRegion.read, Uart16550.read, hv]
  | plic p =>
    rw [AddressRegion.read, AddressRegion.plic.injEq]
    by_cases hk : ∃ k, w = .word ∧ o = Plic.contextOffset k + 4#64
    · obtain ⟨k, rfl, rfl⟩ := hk
      rw [plic_read_claim]
      rcases (by revert k; decide : k = 0 ∨ k = 1) with rfl | rfl <;>
        simp [claims, Plic.contextOffset]
    · refine iff_of_true (plic_read_other p fun k hk' ↦ hk ⟨k, hk'⟩) ?_
      have hno : ∀ k, (w == .word && o == Plic.contextOffset k + 4#64) = false := by
        intro k
        by_contra hcon
        rw [Bool.not_eq_false, Bool.and_eq_true, beq_iff_eq, beq_iff_eq] at hcon
        exact hk ⟨k, hcon⟩
      rw [claims, Bool.and_or_distrib_left, ← Bool.and_assoc, ← Bool.and_assoc, hno 0, hno 1]
      rfl

theorem validates_of_claims {o : BitVec 64} {w : AccessWidth} (h : r.claims o w = true) :
    r.validates o w = true := by
  cases r with
  | plic p =>
    rw [claims, Bool.and_eq_true, Bool.or_eq_true, Bool.and_eq_true, Bool.and_eq_true, beq_iff_eq,
      beq_iff_eq, beq_iff_eq] at h
    obtain ⟨rfl, ⟨rfl, -⟩ | ⟨rfl, -⟩⟩ := h <;> rfl
  | _ => cases h

/-- The device gets the access and accepts it. -/
def answers (r : AddressRegion) (address : BitVec 64) (w : AccessWidth) : Bool :=
  r.range.containsSpan address (BitVec.ofNat 64 (widthInBytes w)) &&
    r.validates (r.range.offsetOf address) w

end AddressRegion

/-! ## One access to a device -/

/-- An address in a device on the bus. -/
structure OnDevice (b : Bus) (r : AddressRegion) (address : BitVec 64) : Prop where
  mem : r ∈ b.regions
  device : r.isDevice = true
  contains : r.range.contains address = true

namespace OnDevice

variable {b : Bus} {r : AddressRegion} {a : BitVec 64}

/-- The access goes to the device, or nowhere. -/
theorem onRegion (h : OnDevice b r a) (w : AccessWidth) (op : Bus.RegionOp) :
    (r.range.containsSpan a (BitVec.ofNat 64 (widthInBytes w)) = false ∧
      (∃ e, b.locate a w = .error e) ∧ (b.onRegion a w op).1.ok = false ∧
      (b.onRegion a w op).2 = b) ∨
    (r.range.containsSpan a (BitVec.ofNat 64 (widthInBytes w)) = true ∧
      ∃ i, b.regions[i]? = some r ∧ b.locate a w = .ok (i, r.range.offsetOf a) ∧
      (b.onRegion a w op).1 = (op.run r (r.range.offsetOf a)).1 ∧
      (b.onRegion a w op).2.regions = b.regions.set i (op.run r (r.range.offsetOf a)).2) := by
  cases hspan : r.range.containsSpan a (BitVec.ofNat 64 (widthInBytes w)) with
  | false =>
    obtain ⟨e, he⟩ := Bus.locate_of_not_span h.mem h.contains hspan
    refine Or.inl ⟨rfl, ⟨e, he⟩, ?_⟩
    rw [Bus.onRegion, he, Bus.onLocated]
    exact ⟨Bus.locate_error he, rfl⟩
  | true =>
    obtain ⟨h₁, h₂⟩ := (AddressRange.containsSpan_iff _ _ _).1 hspan
    obtain ⟨i, hi, hl⟩ := Bus.locate_of_mem h.mem h₁ h₂
    refine Or.inr ⟨rfl, i, hi, hl, ?_⟩
    rcases Bus.onRegion_cases b a w op with ⟨e, he, -⟩ | ⟨j, o, s, hj, hs, hres, hregions, -⟩
    · rw [hl] at he
      cases he
    · rw [hl, Except.ok.injEq, Prod.mk.injEq] at hj
      obtain ⟨rfl, rfl⟩ := hj
      obtain rfl := Option.some.inj (hi.symm.trans hs)
      exact ⟨hres, hregions⟩

/-- A read succeeds when the device answers it. -/
theorem ok_read (h : OnDevice b r a) (w : AccessWidth) (t : AccessType) :
    (b.read a w t).1.ok = r.answers a w := by
  rcases h.onRegion w (Bus.readOp w) with ⟨hspan, -, hok, -⟩ | ⟨hspan, i, -, -, hres, -⟩
  · rw [AddressRegion.answers, hspan]
    exact hok
  · rw [AddressRegion.answers, hspan, Bool.true_and, ← AddressRegion.ok_read h.device]
    exact congrArg AccessResult.ok hres

theorem ok_write (h : OnDevice b r a) (w : AccessWidth) (v : BitVec 64) :
    (b.onRegion a w (Bus.writeOp w v)).1.ok = r.answers a w := by
  rcases h.onRegion w (Bus.writeOp w v) with ⟨hspan, -, hok, -⟩ | ⟨hspan, i, -, -, hres, -⟩
  · rw [AddressRegion.answers, hspan]
    exact hok
  · rw [AddressRegion.answers, hspan, Bool.true_and, ← AddressRegion.ok_write h.device _ _ v]
    exact congrArg AccessResult.ok hres

theorem ok_compareExchange (h : OnDevice b r a) (w : AccessWidth) (e d : BitVec 64)
    (t : AccessType) : (b.compareExchange a w e d t).1.ok = false := by
  have hres : (b.compareExchange a w e d t).1 =
      (b.onRegion a w (Bus.compareExchangeOp w e d)).1 := Bus.fst_ite_mk _ _ _
  rw [hres]
  rcases h.onRegion w (Bus.compareExchangeOp w e d) with ⟨-, -, hok, -⟩ | ⟨-, i, -, -, hrun, -⟩
  · exact hok
  · rw [hrun]
    exact AddressRegion.ok_compareExchange h.device _ _ _ _

/-- A refused read leaves the bus as it was. -/
theorem read_of_refused (h : OnDevice b r a) {w : AccessWidth} (t : AccessType)
    (hrefused : r.answers a w = false) (hw : w = .word ∨ w = .doubleWord) :
    (b.read a w t).2.regions = b.regions := by
  rcases h.onRegion w (Bus.readOp w) with ⟨-, -, -, hbus⟩ | ⟨hspan, i, hi, -, -, hregions⟩
  · exact congrArg Bus.regions hbus
  · rw [AddressRegion.answers, hspan, Bool.true_and] at hrefused
    have hself : (r.read (r.range.offsetOf a) w).2 = r := by
      rw [AddressRegion.read_eq_self_iff h.device _ hw, ← Bool.not_eq_true]
      intro hclaims
      rw [AddressRegion.validates_of_claims hclaims] at hrefused
      cases hrefused
    exact hregions.trans ((congrArg _ hself).trans (Bus.set_of_getElem? hi))

/-- A read of a device shows when it claims an interrupt, and only then. -/
theorem devices_read_iff (h : OnDevice b r a) {w : AccessWidth} (t : AccessType)
    (hw : w = .word ∨ w = .doubleWord) :
    (b.read a w t).2.devices = b.devices ↔
      (r.range.containsSpan a (BitVec.ofNat 64 (widthInBytes w)) &&
        r.claims (r.range.offsetOf a) w) = false := by
  have hdevice : ∀ s : AddressRegion, s.isDevice = true → Bus.deviceOf s = some s := by
    intro s hs
    cases s with
    | ram m => cases hs
    | _ => rfl
  rcases h.onRegion w (Bus.readOp w) with ⟨hspan, -, -, hbus⟩ | ⟨hspan, i, hi, -, -, hregions⟩
  · rw [hspan, Bool.false_and]
    exact iff_of_true (congrArg Bus.devices hbus) rfl
  · rw [hspan, Bool.true_and, ← AddressRegion.read_eq_self_iff h.device _ hw]
    have hof : Bus.deviceOf (r.read (r.range.offsetOf a) w).2 =
        some (r.read (r.range.offsetOf a) w).2 :=
      hdevice _ (by rw [AddressRegion.isDevice_read, h.device])
    constructor
    · intro hsame
      by_contra hne
      refine Bus.devices_ne_of_set hregions hi ?_ hsame
      rw [hdevice r h.device]
      exact fun heq ↦ hne (Option.some.inj (hof.symm.trans heq))
    · intro hself
      refine Bus.devices_of_set hregions hi ?_
      exact hof.trans ((congrArg some hself).trans (hdevice r h.device).symm)

/-- The device is still there after a read. -/
theorem after_read (h : OnDevice b r a) (w : AccessWidth) (t : AccessType) :
    ∃ r', OnDevice (b.read a w t).2 r' a := by
  rcases h.onRegion w (Bus.readOp w) with ⟨-, -, -, hbus⟩ | ⟨-, i, hi, -, -, hregions⟩
  · refine ⟨r, ?_⟩
    rw [show (b.read a w t).2 = b from hbus]
    exact h
  · have hlt := (List.getElem?_eq_some_iff.1 hi).1
    refine ⟨(r.read (r.range.offsetOf a) w).2, ?_, ?_, ?_⟩
    · rw [show (b.read a w t).2.regions = _ from hregions]
      exact List.mem_set hlt _
    · rw [AddressRegion.isDevice_read, h.device]
    · rw [AddressRegion.range_read]
      exact h.contains

end OnDevice

/-! ## The instructions -/

inductive AtomicForm
  | loadReserved
  | storeConditional
  | amo (operation : AtomicOperation)
  deriving DecidableEq, Repr

namespace AtomicForm

/-- How the address of the first access is translated. -/
def kind : AtomicForm → MmuAccessKind
  | loadReserved => .load
  | storeConditional => .store
  | amo _ => .atomic

def accessFault : AtomicForm → ExceptionCause
  | loadReserved => .loadAccessFault
  | storeConditional | amo _ => .storeAccessFault

end AtomicForm

/-- LR, SC and the AMOs among the encodings. -/
def atomicForm (bits : BitVec 32) : Option (AtomicForm × AccessWidth) :=
  let instruction := decode bits
  let function5 := bits.extractLsb' 27 5
  if instruction.opcode ≠ 0x2F#7 then none
  else if instruction.function3 ≠ 2#3 ∧ instruction.function3 ≠ 3#3 then none
  else
    let width : AccessWidth := if instruction.function3 = 2#3 then .word else .doubleWord
    if function5 = 0x02#5 then
      if instruction.source2 = 0#5 then some (.loadReserved, width) else none
    else if function5 = 0x03#5 then some (.storeConditional, width)
    else (decodeAtomicOperation function5).map fun operation ↦ (.amo operation, width)

/-- The executor of an atomic instruction. -/
def Cpu.executeForm (c : Cpu) (packet : InstructionPacket) (width : AccessWidth) :
    AtomicForm → StepResult × Cpu :=
  let instruction := decode packet.bits
  let address := c.state.integer instruction.source1
  let source2 := c.state.integer instruction.source2
  let sequentialPc := packet.programCounter + BitVec.ofNat 64 packet.length
  fun
    | .loadReserved =>
      c.executeLoadReserved packet instruction width (width == .word) address sequentialPc
    | .storeConditional =>
      c.executeStoreConditional packet instruction width address source2 sequentialPc
    | .amo operation =>
      c.executeAmo packet instruction operation width (width == .word) address source2 sequentialPc

theorem executeStandard_atomic (c : Cpu) {packet : InstructionPacket}
    (h : (decode packet.bits).opcode = 0x2F#7) :
    c.executeStandard packet =
      c.executeAtomic packet (decode packet.bits) (c.state.integer (decode packet.bits).source1)
        (c.state.integer (decode packet.bits).source2)
        (packet.programCounter + BitVec.ofNat 64 packet.length) := by
  have hne : ∀ {opcode : BitVec 7}, 0x2F#7 ≠ opcode → (decode packet.bits).opcode ≠ opcode :=
    fun hne ↦ h ▸ hne
  rw [Cpu.executeStandard, if_neg (hne (by decide)), if_neg (hne (by decide)),
    if_neg (hne (by decide)), if_neg (hne (by decide)), if_neg (hne (by decide)),
    if_neg (hne (by decide)), if_neg (hne (by decide)), if_neg (hne (by decide)),
    if_neg (hne (by decide)), if_neg (hne (by decide)), if_neg (hne (by decide)),
    if_neg (hne (by decide)), if_pos h]

/-- An opcode that ends in two ones is not the start of a compressed instruction. -/
theorem standard_of_opcode {bits : BitVec 32} {opcode : BitVec 7}
    (h : (decode bits).opcode = opcode) (hlow : opcode.toNat % 4 = 3) :
    bits.setWidth 16 &&& 3#16 = 3#16 := by
  have hopcode : bits.toNat % 2 ^ 7 = opcode.toNat := by
    rw [← h]
    simp [decode, BitVec.extractLsb'_toNat]
  have hand : (bits.setWidth 16 &&& 3#16).toNat = bits.toNat % 2 ^ 16 % 2 ^ 2 := by
    rw [BitVec.toNat_and, BitVec.toNat_setWidth]
    exact Nat.and_two_pow_sub_one_eq_mod _ 2
  apply BitVec.eq_of_toNat_eq
  rw [hand]
  simp only [BitVec.toNat_ofNat]
  omega

theorem executeStandard_of_atomicForm (c : Cpu) {packet : InstructionPacket} {form : AtomicForm}
    {width : AccessWidth} (h : atomicForm packet.bits = some (form, width)) :
    c.executeStandard packet = c.executeForm packet width form ∧
      (width = .word ∨ width = .doubleWord) ∧ packet.bits.setWidth 16 &&& 3#16 = 3#16 := by
  rw [atomicForm] at h
  dsimp only at h
  by_cases hop : (decode packet.bits).opcode = 0x2F#7
  · rw [if_neg (not_not.2 hop)] at h
    by_cases h3 : (decode packet.bits).function3 ≠ 2#3 ∧ (decode packet.bits).function3 ≠ 3#3
    · rw [if_pos h3] at h
      cases h
    · rw [if_neg h3] at h
      have hlegal : ¬ (!((decode packet.bits).function3 == 2#3) &&
          (decode packet.bits).function3 != 3#3) = true := by simpa using h3
      have hword : ((if (decode packet.bits).function3 = 2#3 then AccessWidth.word
          else .doubleWord) == AccessWidth.word) = ((decode packet.bits).function3 == 2#3) := by
        by_cases h2 : (decode packet.bits).function3 = 2#3
        · rw [if_pos h2, h2]
          rfl
        · rw [if_neg h2, beq_eq_false_iff_ne.2 h2]
          rfl
      have hwidths : (if (decode packet.bits).function3 = 2#3 then AccessWidth.word
          else .doubleWord) = .word ∨ (if (decode packet.bits).function3 = 2#3 then AccessWidth.word
          else .doubleWord) = .doubleWord := by
        split
        · exact Or.inl rfl
        · exact Or.inr rfl
      rw [executeStandard_atomic c hop, Cpu.executeAtomic, if_neg hlegal, Cpu.executeForm]
      simp only [beq_iff_eq]
      split at h
      · next h5 =>
        split at h
        · obtain ⟨rfl, rfl⟩ := Prod.mk.inj (Option.some.inj h)
          rw [if_pos h5]
          simp only [hword]
          exact ⟨trivial, hwidths, standard_of_opcode hop (by decide)⟩
        · cases h
      · next h5 =>
        rw [if_neg h5]
        split at h
        · next h5' =>
          obtain ⟨rfl, rfl⟩ := Prod.mk.inj (Option.some.inj h)
          rw [if_pos h5']
          exact ⟨rfl, hwidths, standard_of_opcode hop (by decide)⟩
        · next h5' =>
          rw [if_neg h5']
          obtain ⟨operation, hoperation, heq⟩ := Option.map_eq_some_iff.1 h
          obtain ⟨rfl, rfl⟩ := Prod.mk.inj heq
          rw [hoperation]
          simp only [hword]
          exact ⟨trivial, hwidths, standard_of_opcode hop (by decide)⟩
  · rw [if_pos hop] at h
    cases h

/-! ## The access of an atomic instruction -/

/-- A step that executes an atomic instruction at an address which translates to `pa`; `b` is the
bus that this translation leaves. -/
structure AtomicStep (c : Cpu) (packet : InstructionPacket) (form : AtomicForm)
    (width : AccessWidth) (pa : BitVec 64) (f : Cpu) (b : Bus) : Prop where
  fetches : Fetches c packet f
  decoded : atomicForm packet.bits = some (form, width)
  translated : ∃ m, f.mmu.translate f.bus (f.state.integer (decode packet.bits).source1) width
    form.kind f.dataContext = (.ok pa, m, b)

/-- An access fault, and no device has changed. -/
def Refused (c : Cpu) (form : AtomicForm) (done : StepResult × Cpu) : Prop :=
  (∃ trap, done.1.trap = some trap ∧ trap.cause = form.accessFault) ∧
    done.2.bus.devices = c.bus.devices

theorem source2_of_loadReserved {bits : BitVec 32} {width : AccessWidth}
    (h : atomicForm bits = some (.loadReserved, width)) : (decode bits).source2 = 0#5 := by
  rw [atomicForm] at h
  dsimp only at h
  split at h
  · cases h
  · split at h
    · cases h
    · split at h
      · split at h
        · assumption
        · cases h
      · split at h
        · cases h
        · obtain ⟨operation, -, heq⟩ := Option.map_eq_some_iff.1 h
          cases heq

/-- A multiple of the width is aligned. -/
theorem misaligned_eq_false_iff (address : BitVec 64) (width : AccessWidth) :
    Cpu.misaligned address width = false ↔ address.toNat % widthInBytes width = 0 := by
  have hmask : (BitVec.ofNat 64 (widthInBytes width) - 1#64).toNat =
      2 ^ Nat.log2 (widthInBytes width) - 1 := by
    cases width <;> decide
  have hwidth : 2 ^ Nat.log2 (widthInBytes width) = widthInBytes width := by
    cases width <;> decide
  rw [Cpu.misaligned, bne_eq_false_iff_eq, ← BitVec.toNat_inj, BitVec.toNat_and, hmask,
    Nat.and_two_pow_sub_one_eq_mod, hwidth]
  rfl

section Forms

variable {f : Cpu} {packet : InstructionPacket} {width : AccessWidth} {pa : BitVec 64} {m : Mmu}
  {b : Bus} {r : AddressRegion}

/-- A misaligned address is another exception. -/
theorem not_refused_of_misaligned {form : AtomicForm} (hdecoded : atomicForm packet.bits =
      some (form, width))
    (h : Cpu.misaligned (f.state.integer (decode packet.bits).source1) width = true) :
    ¬ Refused f form (f.executeForm packet width form) := by
  rintro ⟨⟨trap, htrap, hcause⟩, -⟩
  cases form with
  | loadReserved =>
    simp only [Cpu.executeForm] at htrap
    rw [Cpu.executeLoadReserved, if_neg (not_not.2 (source2_of_loadReserved hdecoded)),
      if_pos h] at htrap
    obtain rfl := Option.some.inj htrap
    cases hcause
  | storeConditional =>
    simp only [Cpu.executeForm] at htrap
    rw [Cpu.executeStoreConditional, if_pos h] at htrap
    obtain rfl := Option.some.inj htrap
    cases hcause
  | amo operation =>
    simp only [Cpu.executeForm] at htrap
    rw [Cpu.executeAmo, if_pos h] at htrap
    obtain rfl := Option.some.inj htrap
    cases hcause

theorem refused_loadReserved (hsource2 : (decode packet.bits).source2 = 0#5)
    (haligned : Cpu.misaligned (f.state.integer (decode packet.bits).source1) width = false)
    (ht : f.mmu.translate f.bus (f.state.integer (decode packet.bits).source1) width .load
      f.dataContext = (.ok pa, m, b)) (hr : OnDevice b r pa)
    (hw : width = .word ∨ width = .doubleWord) :
    Refused f .loadReserved (f.executeForm packet width .loadReserved) ↔
      r.answers pa width = false := by
  have hdevices : b.devices = f.bus.devices := by
    have h := devices_translate f.mmu f.bus (f.state.integer
        (decode packet.bits).source1) width .load
      f.dataContext
    rw [ht] at h
    exact h
  obtain ⟨haccess, hregions, -⟩ := b.loadReserved_cases pa width
  have hok : (loadReservedOperation width b pa).1.1.ok = r.answers pa width := by
    rw [loadReservedOperation, haccess]
    exact hr.ok_read width .load
  simp only [Cpu.executeForm]
  rw [Cpu.executeLoadReserved, if_neg (not_not.2 hsource2), haligned, if_neg (by decide),
    Cpu.guestLoadReserved]
  rcases guestAccess_of_translate ht packet .loadAccessFault (loadReservedOperation width) with
    ⟨hno, hg⟩ | ⟨hyes, hg⟩ <;> rw [hg, Cpu.afterAccess]
  · rw [hok] at hno
    refine iff_of_true ⟨⟨_, rfl, rfl⟩, ?_⟩ hno
    rw [← hdevices]
    exact congrArg (List.map Bus.deviceOf) (hregions.trans (hr.read_of_refused .load hno hw))
  · rw [hok] at hyes
    refine iff_of_false ?_ (by rw [hyes]; decide)
    rintro ⟨⟨trap, htrap, -⟩, -⟩
    cases htrap

theorem refused_storeConditional
    (haligned : Cpu.misaligned (f.state.integer (decode packet.bits).source1) width = false)
    (ht : f.mmu.translate f.bus (f.state.integer (decode packet.bits).source1) width .store
      f.dataContext = (.ok pa, m, b)) (hr : OnDevice b r pa) :
    Refused f .storeConditional (f.executeForm packet width .storeConditional) ↔
      r.range.containsSpan pa (BitVec.ofNat 64 (widthInBytes width)) = false ∨
        (Bus.reservationMatches b.reservation f.state.reservationToken pa width = true ∧
          r.answers pa width = false) := by
  have hdevices : b.devices = f.bus.devices := by
    have h := devices_translate f.mmu f.bus (f.state.integer (decode packet.bits).source1) width
      .store f.dataContext
    rw [ht] at h
    exact h
  have hr' : OnDevice b.release r pa := ⟨hr.mem, hr.device, hr.contains⟩
  set g := f.modifyState (·.setReservationToken {}) with hg
  have ht' : g.mmu.translate g.bus (f.state.integer (decode packet.bits).source1) width .store
      g.dataContext = (.ok pa, m, b) := ht
  set op := storeConditionalOperation f.state.reservationToken width
    (f.state.integer (decode packet.bits).source2) with hop
  have hrefused : Refused f .storeConditional (f.executeForm packet width .storeConditional) ↔
      (op b pa).1.1.ok = false ∧ (op b pa).2.devices = b.devices := by
    simp only [Cpu.executeForm]
    rw [Cpu.executeStoreConditional, haligned, if_neg (by decide), Cpu.guestStoreConditional]
    rcases guestAccess_of_translate ht' packet .storeAccessFault op with ⟨hno, ha⟩ | ⟨hyes, ha⟩ <;>
      rw [ha, Cpu.afterAccess]
    · rw [hdevices]
      exact ⟨fun h ↦ ⟨hno, h.2⟩, fun h ↦ ⟨⟨_, rfl, rfl⟩, h.2⟩⟩
    · refine iff_of_false ?_ (by rw [hyes]; exact fun h ↦ absurd h.1 (by decide))
      rintro ⟨⟨trap, htrap, -⟩, -⟩
      cases htrap
  rw [hrefused]
  have hanswers := hr'.ok_write width (f.state.integer (decode packet.bits).source2)
  rcases hr.onRegion width (Bus.readOp width) with ⟨hspan, ⟨e, hl⟩, -⟩ | ⟨hspan, i, -, hl, -⟩
  · refine iff_of_true ?_ (Or.inl hspan)
    have hd : b.storeConditional f.state.reservationToken pa width
        (f.state.integer (decode packet.bits).source2) = (.failure e, b.release) := by
      show b.release.storeLocated _ pa width _ (b.locate pa width) = _
      rw [hl, Bus.storeLocated]
    rw [hop, storeConditionalOperation, hd]
    exact ⟨Bus.locate_error hl, rfl⟩
  · rw [hspan, or_iff_right (by decide)]
    rcases b.storeConditional_cases f.state.reservationToken pa width
      (f.state.integer (decode packet.bits).source2) with
      ⟨e, he, -⟩ | ⟨hmatch, hd⟩ | ⟨hmatch, hno, hd⟩ | ⟨hmatch, hyes, hd⟩
    · rw [hl] at he
      cases he
    · rw [hop, storeConditionalOperation, hd, hmatch]
      exact iff_of_false (fun h ↦ absurd (show true = false from h.1) (by decide))
        (fun h ↦ absurd h.1 (by decide))
    · rw [hop, storeConditionalOperation, hd]
      exact iff_of_true ⟨hno, rfl⟩ ⟨hmatch, hanswers.symm.trans hno⟩
    · rw [hop, storeConditionalOperation, hd, ← hanswers, hyes]
      exact iff_of_false (fun h ↦ absurd (show true = false from h.1) (by decide))
        (fun h ↦ absurd h.2 (by decide))

/-- The compare-exchange of an AMO finds the address that its read was translated to. -/
theorem translate_exchange (hm : f.mmu.Consistent) {address : BitVec 64}
    (ht : f.mmu.translate f.bus address width .atomic f.dataContext = (.ok pa, m, b)) :
    let c : Cpu := { f with mmu := m, bus := (b.read pa width .atomic).2 }
    ∃ m', c.mmu.translate c.bus address width .store c.dataContext = (.ok pa, m', c.bus) := by
  intro c
  have hm' : m.Consistent := by
    have h := consistent_translate hm f.bus address width .atomic f.dataContext
    rw [ht] at h
    exact h
  have htable : ∀ x, tableRead c.bus x = tableRead b x :=
    fun x ↦ Bus.read_doubleWord_read b pa x width .atomic .load
  obtain ⟨hagain, hbus⟩ := translate_again ht htable width
  rw [← translate_store hm'] at hagain hbus
  exact ⟨_, Prod.ext hagain (Prod.ext rfl hbus)⟩

/-- The compare-exchange of an AMO on a device traps, and leaves the device as the read left it. -/
theorem exchangeLoop_device (hm : f.mmu.Consistent) {address : BitVec 64}
    (ht : f.mmu.translate f.bus address width .atomic f.dataContext = (.ok pa, m, b))
    (hr : OnDevice b r pa) (operation : AtomicOperation) (source2 : BitVec 64)
      (wordOperation : Bool)
    (original : BitVec 64) (attempts : ℕ) :
    let c : Cpu := { f with mmu := m, bus := (b.read pa width .atomic).2 }
    ∃ access m', c.exchangeLoop packet operation address source2 width wordOperation original
        (attempts + 1) =
      some (({ access, trap := some (makeTrap packet .storeAccessFault address) }, original),
        { c with mmu := m' }) := by
  intro c
  obtain ⟨r', hr'⟩ := hr.after_read width .atomic
  obtain ⟨m', hm'⟩ := translate_exchange hm ht
  set desired := executeAtomicOperation operation original source2 wordOperation
  have hno : (compareExchangeOperation width original desired c.bus pa).1.1.ok = false :=
    hr'.ok_compareExchange width original desired .atomic
  have hkeep : (compareExchangeOperation width original desired c.bus pa).2 = c.bus := by
    rcases c.bus.compareExchange_cases pa width original desired .atomic with ⟨-, hb⟩ | ⟨hok, -⟩
    · exact hb
    · exact absurd (hok.symm.trans hno) (by decide)
  rw [Cpu.exchangeLoop, Cpu.guestCompareExchange]
  rcases guestAccess_of_translate hm' packet .storeAccessFault
    (compareExchangeOperation width original desired) with ⟨-, hg⟩ | ⟨hyes, -⟩
  · rw [hg, hkeep]
    exact ⟨_, m', rfl⟩
  · exact absurd (hno.symm.trans hyes) (by decide)

theorem refused_amo {operation : AtomicOperation} (hm : f.mmu.Consistent)
    (haligned : Cpu.misaligned (f.state.integer (decode packet.bits).source1) width = false)
    (ht : f.mmu.translate f.bus (f.state.integer (decode packet.bits).source1) width .atomic
      f.dataContext = (.ok pa, m, b)) (hr : OnDevice b r pa)
    (hw : width = .word ∨ width = .doubleWord) :
    Refused f (.amo operation) (f.executeForm packet width (.amo operation)) ↔
      (r.range.containsSpan pa (BitVec.ofNat 64 (widthInBytes width)) &&
        r.claims (r.range.offsetOf pa) width) = false := by
  have hdevices : b.devices = f.bus.devices := by
    have h := devices_translate f.mmu f.bus (f.state.integer (decode packet.bits).source1) width
      .atomic f.dataContext
    rw [ht] at h
    exact h
  rw [← hr.devices_read_iff .atomic hw]
  -- whether or not the read is refused, what it leaves is what the instruction leaves
  suffices h : ∃ trap c', f.executeForm packet width (.amo operation) =
      (.failure trap packet.length, c') ∧ trap.cause = .storeAccessFault ∧
      c'.bus = (b.read pa width .atomic).2 by
    obtain ⟨trap, c', hdone, hcause, hbus⟩ := h
    rw [Refused, hdone, ← hdevices, hbus]
    exact ⟨fun h ↦ h.2, fun h ↦ ⟨⟨trap, rfl, hcause⟩, h⟩⟩
  simp only [Cpu.executeForm]
  rw [Cpu.executeAmo, haligned, if_neg (by decide), Cpu.guestRead, if_neg (by decide)]
  rcases guestAccess_of_translate ht packet (accessFaultCause .atomic)
    (readOperation width .atomic) with
    ⟨-, hg⟩ | ⟨-, hg⟩ <;> rw [hg, Cpu.afterAccess]
  · exact ⟨_, _, rfl, rfl, rfl⟩
  · dsimp only [readOperation]
    obtain ⟨access, m', hloop⟩ := exchangeLoop_device hm ht hr operation
      (f.state.integer (decode packet.bits).source2) (width == .word)
      (b.read pa width .atomic).1.value 1
    rw [Cpu.exchangeAttempts, hloop, Cpu.finishAmo, Cpu.afterAccess]
    exact ⟨_, _, rfl, rfl, rfl⟩

end Forms

/-! ## Steps -/

/-- When an atomic instruction is refused by the device it names: LR when the device does not accept
the access, SC when in addition it still holds its reservation (or the access does not fit the
device), an AMO unless its read claims an interrupt. -/
def AtomicForm.SafeOn (r : AddressRegion) (address : BitVec 64) (width : AccessWidth)
    (reserved : Bool) : AtomicForm → Prop
  | .loadReserved => r.answers address width = false
  | .storeConditional =>
    r.range.containsSpan address (BitVec.ofNat 64 (widthInBytes width)) = false ∨
      (reserved = true ∧ r.answers address width = false)
  | .amo _ =>
    (r.range.containsSpan address (BitVec.ofNat 64 (widthInBytes width)) &&
      r.claims (r.range.offsetOf address) width) = false

theorem OnDevice.of_devices {b b' : Bus} {r : AddressRegion} {a : BitVec 64} (h : OnDevice b r a)
    (hdevices : b'.devices = b.devices) : OnDevice b' r a := by
  refine ⟨?_, h.device, h.contains⟩
  have hof : Bus.deviceOf r = some r := by
    have hdevice := h.device
    cases r with
    | ram m => cases hdevice
    | _ => rfl
  have hmem : some r ∈ b'.devices := by
    rw [hdevices, ← hof]
    exact List.mem_map_of_mem h.mem
  obtain ⟨s, hs, hsr⟩ := List.mem_map.1 hmem
  cases s with
  | ram m => cases hsr
  | _ => exact Option.some.inj hsr ▸ hs

/-- **When atomics are kept away from devices.**  An LR, SC or AMO at an address in a device ends in
an access fault, with all devices as they were, exactly if the address is a multiple of the width
and one of the cases of `SafeOn` applies. -/
theorem atomic_device_iff {c f : Cpu} {packet : InstructionPacket} {form : AtomicForm}
    {width : AccessWidth} {pa : BitVec 64} {b : Bus} {r : AddressRegion}
    (h : AtomicStep c packet form width pa f b) (hm : c.mmu.Consistent)
    (hr : OnDevice c.bus r pa) :
    Refused c form c.step ↔
      (c.state.integer (decode packet.bits).source1).toNat % widthInBytes width = 0 ∧
        form.SafeOn r pa width
          (Bus.reservationMatches b.reservation c.state.reservationToken pa width) := by
  obtain ⟨hfetches, hdecoded, m, ht⟩ := h
  obtain ⟨hfetch, hfm⟩ := fetch_devices c.awake
  rw [hfetches.fetch] at hfetch hfm
  obtain ⟨hform, hw, hbits⟩ := executeStandard_of_atomicForm f hdecoded
  obtain ⟨hresult, hbus⟩ := hfetches.step_standard hbits
  have hb : b.devices = c.bus.devices := by
    have hdevices := devices_translate f.mmu f.bus (f.state.integer (decode packet.bits).source1)
      width form.kind f.dataContext
    rw [ht] at hdevices
    exact hdevices.trans hfetch
  have hstep : Refused c form c.step ↔ Refused f form (f.executeForm packet width form) := by
    rw [Refused, Refused, hresult, hbus, hform]
    exact Iff.and Iff.rfl (by rw [show f.bus.devices = c.bus.devices from hfetch])
  have htoken : f.state.reservationToken = c.state.reservationToken := by
    rw [hfetches.state]
    rfl
  have haddress : f.state.integer (decode packet.bits).source1 =
      c.state.integer (decode packet.bits).source1 := by
    rw [hfetches.state]
    rfl
  rw [hstep, ← misaligned_eq_false_iff, ← haddress]
  cases haligned : Cpu.misaligned (f.state.integer (decode packet.bits).source1) width with
  | true =>
    refine iff_of_false (not_refused_of_misaligned hdecoded haligned) fun h ↦ ?_
    exact absurd h.1 (by decide)
  | false =>
    rw [eq_self_iff_true, true_and]
    cases form with
    | loadReserved =>
      exact refused_loadReserved (source2_of_loadReserved hdecoded) haligned ht (hr.of_devices hb)
        hw
    | storeConditional =>
      rw [← htoken]
      exact refused_storeConditional haligned ht (hr.of_devices hb)
    | amo operation => exact refused_amo (hfm hm) haligned ht (hr.of_devices hb) hw

/-- A hart in front of one instruction, with the CLINT in `x1`. -/
def clintCpu (instruction : BitVec 32) : Cpu where
  bus :=
    { regions :=
        [.ram
          { range := { base := 0#64, size := 4#64, size_pos := AddressRange.pos_four
                       fits := AddressRange.fits_four }
            bytes := (List.range 4).map (Bytes.splitByte (instruction.setWidth 64))
            size_eq := by simp },
        .clint {}]
      apart := by simp [AddressRegion.Apart, AddressRegion.range, AddressRange.overlaps,
        AddressRange.endExclusive, Clint.range, AddressMap.clintBase] }
  state := { integerRegisters := fun i ↦ if i = 1#5 then 0x02000000#64 else 0#64 }

/-- `lr.w x2, (x1)` and `amoadd.w x2, x0, (x1)`. -/
def lrInstruction : BitVec 32 := 0x1000A12F#32

def amoaddInstruction : BitVec 32 := 0x0000A12F#32

theorem clintCpu_atomicStep {instruction : BitVec 32} {form : AtomicForm}
    (hfetch : (clintCpu instruction).awake.fetch.1 =
      .ok { programCounter := 0#64, bits := instruction, length := 4 })
    (hform : atomicForm instruction = some (form, .word))
    (hsource : (decode instruction).source1 = 1#5) :
    AtomicStep (clintCpu instruction) { programCounter := 0#64, bits := instruction, length := 4 }
      form .word 0x02000000#64 (clintCpu instruction).awake.fetch.2
      (clintCpu instruction).awake.fetch.2.bus := by
  have hstate := (fetch_fetched (clintCpu instruction).awake).state
  have haddress : (clintCpu instruction).awake.fetch.2.state.integer (decode instruction).source1 =
      0x02000000#64 := by
    rw [hstate, hsource]
    rfl
  refine ⟨⟨rfl, Prod.ext hfetch rfl⟩, hform, (clintCpu instruction).awake.fetch.2.mmu, ?_⟩
  have hbare : (clintCpu instruction).awake.fetch.2.dataContext.privilege = .machine := by
    rw [Cpu.dataContext, hstate]
    show (clintCpu 0#32).awake.dataContext.privilege = .machine
    decide
  rw [haddress, Mmu.translate, if_pos (Or.inl hbare)]

theorem clintCpu_onDevice (instruction : BitVec 32) :
    OnDevice (clintCpu instruction).bus (.clint {}) 0x02000000#64 :=
  ⟨List.mem_cons_of_mem _ (List.mem_singleton.2 rfl), rfl, by decide⟩

theorem atomic_device_amoadd :
    Refused (clintCpu amoaddInstruction) (.amo .add) (clintCpu amoaddInstruction).step :=
  (atomic_device_iff (clintCpu_atomicStep (by decide) (by decide) (by decide))
    (consistent_of_empty (by decide)) (clintCpu_onDevice amoaddInstruction)).2
    ⟨by decide, by rw [AtomicForm.SafeOn]; decide⟩

theorem lr_reads_clint :
    (∃ packet f b,
      AtomicStep (clintCpu lrInstruction) packet .loadReserved .word 0x02000000#64 f b) ∧
    OnDevice (clintCpu lrInstruction).bus (.clint {}) 0x02000000#64 ∧
    ¬ Refused (clintCpu lrInstruction) .loadReserved (clintCpu lrInstruction).step := by
  refine ⟨⟨_, _, _, clintCpu_atomicStep (by decide) (by decide) (by decide)⟩,
    clintCpu_onDevice lrInstruction, ?_⟩
  rintro ⟨⟨trap, htrap, -⟩, -⟩
  have hnone : (clintCpu lrInstruction).step.1.trap = none := by decide
  rw [hnone] at htrap
  cases htrap

end Rvemu
