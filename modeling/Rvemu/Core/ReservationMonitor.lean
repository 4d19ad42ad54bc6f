import Rvemu.Bus.Reservation
import Rvemu.Core.IntegerSemantics
import Rvemu.Lib.Runs

/-!
# Load-reserved and store-conditional

A history of what the hart and the other masters do to the reservation, over any interleaving: the
two instructions themselves, the hart's loads, stores and AMOs with the A and D updates of their
translations, and DMA.  A store-conditional to RAM succeeds exactly when the history says that its
address is still reserved.

The updates of a translation come before the access it is for, also those of the store-conditional.
-/

set_option autoImplicit false

namespace Rvemu

open Monitor

/-! ## What a translation writes -/

/-- The exchange of the page walk, when a translation needs one: where, from what and to what. -/
def Mmu.walkExchange (m : Mmu) (b : Bus) (va : BitVec 64) (kind : MmuAccessKind)
    (context : MmuContext) : Option (BitVec 64 × BitVec 64 × BitVec 64) :=
  if context.privilege = .machine ∨ satpMode context.satp = 0#64 then none
  else if satpMode context.satp ≠ sv39Mode ∨ !canonicalSv39 va then none
  else if (m.lookupTlb va kind context).isSome then none
  else
    match (Mmu.findLeaf b va (satpRootPpn context.satp) 2).1 with
    | none => none
    | some leaf =>
      if !superpageAligned (ptePpn leaf.pte) leaf.level
          || !permissionAllows (pteFlags leaf.pte) kind context then none
      else if Mmu.desiredPte leaf.pte kind = leaf.pte then none
      else some (leaf.pteAddress, leaf.pte, Mmu.desiredPte leaf.pte kind)

/-- What the exchange of the page walk notes. -/
def Mmu.walkNotes (m : Mmu) (b : Bus) (va : BitVec 64) (kind : MmuAccessKind)
    (context : MmuContext) : List BusNote :=
  match m.walkExchange b va kind context with
  | none => []
  | some (a, expected, desired) => exchangeNotes .doubleWord expected desired b a

/-- A translation leaves memory alone, or does this one exchange. -/
theorem bus_translate (m : Mmu) (b : Bus) (va : BitVec 64) (w : AccessWidth)
    (kind : MmuAccessKind) (context : MmuContext) :
    (m.translate b va w kind context).2.2 =
      match m.walkExchange b va kind context with
      | none => b
      | some (a, expected, desired) => (b.compareExchange a .doubleWord expected desired).2 := by
  rw [Mmu.walkExchange]
  by_cases hbare : context.privilege = .machine ∨ satpMode context.satp = 0#64
  · rw [if_pos hbare, Mmu.translate, if_pos hbare]
  by_cases hcanon : satpMode context.satp ≠ sv39Mode ∨ (!canonicalSv39 va) = true
  · rw [if_neg hbare, if_pos hcanon, Mmu.translate, if_neg hbare, if_pos hcanon]
  rw [if_neg hbare, if_neg hcanon]
  cases hhit : m.lookupTlb va kind context with
  | some hit =>
    rw [translate_hit ⟨hbare, hcanon⟩ hhit]
    rfl
  | none =>
    rw [translate_miss ⟨hbare, hcanon⟩ hhit, if_neg (by simp)]
    simp only [Mmu.walkPageTable, findLeaf_bus]
    cases (Mmu.findLeaf b va (satpRootPpn context.satp) 2).1 with
    | none => rfl
    | some leaf =>
      dsimp only
      split
      · rfl
      · split
        · rfl
        · dsimp only
          split
          · rfl
          · split <;> rfl

/-- What an access notes: the update of its translation, and then what its bus operation does. -/
def Cpu.accessNotes (c : Cpu) (va : BitVec 64) (width : AccessWidth) (kind : MmuAccessKind)
    (context : MmuContext) (note : Bus → BitVec 64 → List BusNote) : List BusNote :=
  let translated := c.mmu.translate c.bus va width kind context
  c.mmu.walkNotes c.bus va kind context ++
    match translated.1 with
    | .error _ => []
    | .ok pa => note translated.2.2 pa

namespace Mirrors

variable {token : ReservationToken} {held : Option (BitVec 64)}

theorem translate {b : Bus} (h : Mirrors token b held) (m : Mmu) (va : BitVec 64) (w : AccessWidth)
    (kind : MmuAccessKind) (context : MmuContext) :
    Mirrors token (m.translate b va w kind context).2.2
      ((m.walkNotes b va kind context).foldl (observe MemoryWrite.touches) held) := by
  rw [Mmu.walkNotes, bus_translate]
  cases m.walkExchange b va kind context with
  | none => exact h
  | some exchange => exact h.compareExchange _ .doubleWord _ _

/-- An access keeps track when its bus operation does. -/
theorem guestAccess {c : Cpu} (h : Mirrors token c.bus held) {note : Bus → BitVec 64 → List BusNote}
    {op : BusOperation}
    (hop : ∀ b held pa, Mirrors token b held →
      Mirrors token (op b pa).2 ((note b pa).foldl (observe MemoryWrite.touches) held))
    (packet : InstructionPacket) (va : BitVec 64) (width : AccessWidth) (kind : MmuAccessKind)
    (context : MmuContext) (cause : ExceptionCause) :
    Mirrors token (c.guestAccess packet va width kind context cause op).2.bus
      ((c.accessNotes va width kind context note).foldl (observe MemoryWrite.touches) held) := by
  have ht := h.translate c.mmu va width kind context
  rw [Cpu.guestAccess, Cpu.accessNotes, List.foldl_append]
  rcases accessTranslated_cases _ packet va cause op (c.mmu.translate c.bus va width kind context).1
    with ⟨fault, hf, hr⟩ | ⟨pa, hok, hbus, -⟩
  · rw [hr, hf]
    exact ht
  · rw [hbus, hok]
    exact hop _ _ pa ht

end Mirrors

/-! ## The history -/

/-- A store-conditional with its operands. -/
structure ConditionalStore where
  packet : InstructionPacket
  instruction : DecodedInstruction
  width : AccessWidth
  address : BitVec 64
  source2 : BitVec 64
  sequentialPc : BitVec 64

def ConditionalStore.execute (i : ConditionalStore) (c : Cpu) : StepResult × Cpu :=
  c.executeStoreConditional i.packet i.instruction i.width i.address i.source2 i.sequentialPc

/-- The translation of its address, on the way. -/
def ConditionalStore.translate (i : ConditionalStore) (c : Cpu) : TranslationResult × Mmu × Bus :=
  c.mmu.translate c.bus i.address i.width .store c.dataContext

/-- What happens to the hart and its bus.  Everything that the hart does without memory is one
event, which leaves it its token. -/
inductive MonitorEvent
  | loadReserved (packet : InstructionPacket) (instruction : DecodedInstruction)
      (width : AccessWidth)
    (word : Bool) (address sequentialPc : BitVec 64)
  | storeConditional (i : ConditionalStore)
  | amo (packet : InstructionPacket) (instruction : DecodedInstruction)
      (operation : AtomicOperation)
    (width : AccessWidth) (word : Bool) (address source2 sequentialPc : BitVec 64)
  | read (packet : InstructionPacket) (va : BitVec 64) (width : AccessWidth) (kind : MmuAccessKind)
    (type : AccessType)
  | store (packet : InstructionPacket) (va : BitVec 64) (width : AccessWidth) (value : BitVec 64)
  | dmaWrite (address : BitVec 64) (width : AccessWidth) (value : BitVec 64)
  | hart (state : CpuState) (mmu : Mmu)

namespace Cpu

/-- The context a read is translated in. -/
def readContext (c : Cpu) (kind : MmuAccessKind) : MmuContext :=
  if kind = .instructionFetch then c.fetchContext else c.dataContext

def readNotes (c : Cpu) (va : BitVec 64) (width : AccessWidth) (kind : MmuAccessKind) :
    List BusNote :=
  c.accessNotes va width kind (c.readContext kind) fun _ _ ↦ []

def storeNotes (c : Cpu) (va : BitVec 64) (width : AccessWidth) : List BusNote :=
  c.accessNotes va width .atomic c.dataContext fun _ _ ↦ []

def compareExchangeNotes (c : Cpu) (va : BitVec 64) (width : AccessWidth)
    (expected desired : BitVec 64) :
    List BusNote :=
  c.accessNotes va width .store c.dataContext (exchangeNotes width expected desired)

/-- The attempts of an AMO, as `exchangeLoop` makes them. -/
def exchangeLoopNotes (c : Cpu) (packet : InstructionPacket) (operation : AtomicOperation)
    (address source2 : BitVec 64) (width : AccessWidth) (word : Bool) (original : BitVec 64) :
    ℕ → List BusNote
  | 0 => []
  | attempts + 1 =>
    let desired := executeAtomicOperation operation original source2 word
    let exchanged := c.guestCompareExchange packet address width original desired
    c.compareExchangeNotes address width original desired ++
      if exchanged.1.trap.isSome || exchanged.1.access.exchanged then []
      else
        exchanged.2.exchangeLoopNotes packet operation address source2 width word
          exchanged.1.access.value attempts

/-- The bound of the loop is never what ends it (`executeAmoAmong_alone`); an AMO that it would end
has done nothing after its read. -/
def amoNotes (c : Cpu) (packet : InstructionPacket) (operation : AtomicOperation)
    (width : AccessWidth) (word : Bool) (address source2 : BitVec 64) : List BusNote :=
  if misaligned address width then []
  else
    let observed := c.guestRead packet address width .atomic .atomic
    c.readNotes address width .atomic ++
      if observed.1.trap.isSome || (observed.2.exchangeLoop packet operation address source2 width
          word observed.1.access.value exchangeAttempts).isNone then []
      else
        observed.2.exchangeLoopNotes packet operation address source2 width word
          observed.1.access.value exchangeAttempts

def lrNotes (c : Cpu) (instruction : DecodedInstruction) (width : AccessWidth)
    (address : BitVec 64) :
    List BusNote :=
  if instruction.source2 ≠ 0#5 then []
  else if misaligned address width then []
  else c.accessNotes address width .load c.dataContext (loadReservedNotes width)

/-- What a store-conditional notes before it consults the monitor. -/
def scWalkNotes (c : Cpu) (i : ConditionalStore) : List BusNote :=
  if misaligned i.address i.width then []
  else c.mmu.walkNotes c.bus i.address .store c.dataContext

/-- The reservation is given up in every case. -/
def scNotes (c : Cpu) (i : ConditionalStore) : List BusNote := c.scWalkNotes i ++ [.attempted]

end Cpu

/-- The hart with the history of its reservation. -/
structure Monitored where
  cpu : Cpu
  notes : List BusNote := []

namespace MonitorEvent

def apply (c : Cpu) : MonitorEvent → Cpu
  | loadReserved packet instruction width word address sequentialPc =>
    (c.executeLoadReserved packet instruction width word address sequentialPc).2
  | storeConditional i => (i.execute c).2
  | amo packet instruction operation width word address source2 sequentialPc =>
    (c.executeAmo packet instruction operation width word address source2 sequentialPc).2
  | read packet va width kind type => (c.guestRead packet va width kind type).2
  | store packet va width value => (c.guestWrite packet va width value .store).2
  | dmaWrite address width value => { c with bus := (c.bus.write address width value .dmaWrite).2 }
  | hart state mmu => { c with state := state.setReservationToken c.state.reservationToken, mmu }

def notes (c : Cpu) : MonitorEvent → List BusNote
  | loadReserved _ instruction width _ address _ => c.lrNotes instruction width address
  | storeConditional i => c.scNotes i
  | amo packet _ operation width word address source2 _ =>
    c.amoNotes packet operation width word address source2
  | read _ va width kind _ => c.readNotes va width kind
  | store _ va width _ => c.storeNotes va width
  | dmaWrite address width value => dmaNotes c.bus address width value
  | hart _ _ => []

end MonitorEvent

namespace Monitored

def step (s : Monitored) (e : MonitorEvent) : Monitored where
  cpu := e.apply s.cpu
  notes := s.notes ++ e.notes s.cpu

/-- The monitor of the hart and its bus holds what the history leaves reserved. -/
def Tracked (s : Monitored) : Prop :=
  Mirrors s.cpu.state.reservationToken s.cpu.bus (held MemoryWrite.touches s.notes)

variable {s : Monitored}

theorem Tracked.of_foldl {c : Cpu} {notes : List BusNote}
    (h : Mirrors c.state.reservationToken c.bus
      (notes.foldl (observe MemoryWrite.touches) (held MemoryWrite.touches s.notes))) :
    Tracked { cpu := c, notes := s.notes ++ notes } := by
  rw [Tracked, held_append]
  exact h

end Monitored

/-! ### The loop of an AMO -/

namespace Mirrors

variable {token : ReservationToken} {held : Option (BitVec 64)} {c : Cpu}

theorem guestRead (h : Mirrors token c.bus held) (packet : InstructionPacket) (va : BitVec 64)
    (width : AccessWidth) (kind : MmuAccessKind) (type : AccessType) :
    Mirrors token (c.guestRead packet va width kind type).2.bus
      ((c.readNotes va width kind).foldl (observe MemoryWrite.touches) held) :=
  h.guestAccess (fun _ _ pa hb ↦ hb.read pa width type) packet va width kind _ _

theorem guestWrite (h : Mirrors token c.bus held) (packet : InstructionPacket) (va : BitVec 64)
    (width : AccessWidth) (value : BitVec 64) :
    Mirrors token (c.guestWrite packet va width value .store).2.bus
      ((c.storeNotes va width).foldl (observe MemoryWrite.touches) held) :=
  h.guestAccess (fun _ _ pa hb ↦ hb.write pa width value (by decide)) packet va width .atomic _ _

theorem guestCompareExchange (h : Mirrors token c.bus held) (packet : InstructionPacket)
    (va : BitVec 64)
    (width : AccessWidth) (expected desired : BitVec 64) :
    Mirrors token (c.guestCompareExchange packet va width expected desired).2.bus
      ((c.compareExchangeNotes va width expected desired).foldl
        (observe MemoryWrite.touches) held) :=
  h.guestAccess (fun _ _ pa hb ↦ hb.compareExchange pa width expected desired) packet va width
    .store _ _

/-- The bus after the attempts of an AMO; the bound is never what ends them. -/
theorem exchangeLoop (h : Mirrors token c.bus held) (packet : InstructionPacket)
    (operation : AtomicOperation) (address source2 : BitVec 64) (width : AccessWidth) (word : Bool)
    {original : BitVec 64} {attempts : ℕ} {r : (GuestAccessResult × BitVec 64) × Cpu}
    (hloop : c.exchangeLoop packet operation address source2 width word original
      attempts = some r) :
    Mirrors token r.2.bus ((c.exchangeLoopNotes packet operation address source2 width word original
      attempts).foldl (observe MemoryWrite.touches) held) := by
  induction attempts generalizing c held original with
  | zero => cases hloop
  | succ attempts ih =>
    rw [Cpu.exchangeLoop] at hloop
    rw [Cpu.exchangeLoopNotes, List.foldl_append]
    have hexchange := h.guestCompareExchange packet address width original
      (executeAtomicOperation operation original source2 word)
    split at hloop
    · next hdone =>
      obtain rfl := Option.some.inj hloop
      rw [if_pos hdone]
      exact hexchange
    · next hlost =>
      rw [if_neg hlost]
      exact ih hexchange hloop

end Mirrors

/-! ### One event -/

section Step

variable {s : Monitored}

/-- An access that leaves the hart alone keeps the token. -/
theorem Monitored.Tracked.of_state {c : Cpu} {notes : List BusNote}
    (hstate : c.state.reservationToken = s.cpu.state.reservationToken)
    (h : Mirrors s.cpu.state.reservationToken c.bus
      (notes.foldl (observe MemoryWrite.touches) (held MemoryWrite.touches s.notes))) :
    Monitored.Tracked { cpu := c, notes := s.notes ++ notes } :=
  .of_foldl (hstate.symm ▸ h)

theorem token_writeAndRetire (c : Cpu) (packet : InstructionPacket) (destination : BitVec 5)
    (value nextPc : BitVec 64) :
    (c.writeAndRetire packet destination value nextPc).2.state.reservationToken =
      c.state.reservationToken := by
  show (c.state.setInteger destination value).reservationToken = c.state.reservationToken
  rw [CpuState.setInteger]
  split <;> rfl

namespace Monitored

theorem Tracked.loadReserved (h : s.Tracked) (packet : InstructionPacket)
    (instruction : DecodedInstruction) (width : AccessWidth) (word : Bool)
    (address sequentialPc : BitVec 64) :
    (s.step (.loadReserved packet instruction width word address sequentialPc)).Tracked := by
  refine .of_foldl ?_
  rw [MonitorEvent.apply, MonitorEvent.notes, Cpu.executeLoadReserved, Cpu.lrNotes]
  split
  · exact h
  split
  · exact h
  have ht := Mirrors.translate h s.cpu.mmu address width .load s.cpu.dataContext
  rw [Cpu.accessNotes, List.foldl_append, Cpu.guestLoadReserved]
  rcases htranslate : s.cpu.mmu.translate s.cpu.bus address width .load s.cpu.dataContext with
    ⟨fault | pa, m, b⟩ <;> rw [htranslate] at ht
  · rw [Cpu.guestAccess, htranslate]
    exact ht
  · obtain ⟨haccess, -, hcases⟩ := b.loadReserved_cases pa width
    rcases guestAccess_of_translate htranslate packet .loadAccessFault
      (loadReservedOperation width) with
      ⟨hno, hg⟩ | ⟨hyes, hg⟩ <;> rw [hg] <;> dsimp only [loadReservedOperation,
        loadReservedNotes] at *
    · rw [hno, if_neg Bool.false_ne_true]
      rcases hcases with ⟨-, hb⟩ | ⟨hyes, -⟩
      · rw [hb]
        exact Mirrors.read ht pa width .load
      · rw [haccess, hyes] at hno
        cases hno
    · rw [hyes, if_pos rfl]
      rcases hcases with ⟨hno, -⟩ | ⟨-, hreservation⟩
      · rw [haccess, hno] at hyes
        cases hyes
      · refine ⟨?_, hreservation.trans ?_⟩ <;> rw [Cpu.afterAccess] <;> dsimp only <;>
          rw [token_writeAndRetire]
        · exact Bus.valid_loadReserved hyes
        · rfl

/-- The token is given up before anything else. -/
theorem token_execute (i : ConditionalStore) (c : Cpu) :
    (i.execute c).2.state.reservationToken = {} := by
  rw [ConditionalStore.execute, Cpu.executeStoreConditional]
  split
  · rfl
  · have ha := accessed_guestStoreConditional (c.modifyState (·.setReservationToken {})) i.packet
      i.address i.width c.state.reservationToken i.source2
    rw [Cpu.afterAccess]
    split
    · exact congrArg CpuState.reservationToken ha.state
    · rw [token_writeAndRetire]
      exact congrArg CpuState.reservationToken ha.state

theorem Tracked.storeConditional (i : ConditionalStore) :
    (s.step (.storeConditional i)).Tracked := by
  refine .of_foldl ?_
  rw [MonitorEvent.notes, Cpu.scNotes, List.foldl_append]
  exact Or.inl (by rw [MonitorEvent.apply, token_execute]; rfl)

theorem Tracked.amo (h : s.Tracked) (packet : InstructionPacket) (instruction : DecodedInstruction)
    (operation : AtomicOperation) (width : AccessWidth) (word : Bool)
    (address source2 sequentialPc : BitVec 64) :
    (s.step (.amo packet instruction operation width word address source2
      sequentialPc)).Tracked := by
  have hread := Mirrors.guestRead h packet address width .atomic .atomic
  have hstate := (accessed_guestRead s.cpu packet address width .atomic .atomic).state
  refine .of_foldl ?_
  rw [MonitorEvent.apply, MonitorEvent.notes, Cpu.executeAmo, Cpu.amoNotes]
  split
  · exact h
  dsimp only
  rw [List.foldl_append, Cpu.afterAccess]
  generalize s.cpu.guestRead packet address width .atomic .atomic = observed at hread hstate ⊢
  cases htrap : observed.1.trap with
  | some trap =>
    rw [Option.isSome_some, Bool.true_or, if_pos rfl]
    dsimp only
    rw [hstate]
    exact hread
  | none =>
    rw [Option.isSome_none, Bool.false_or]
    dsimp only
    cases hloop : observed.2.exchangeLoop packet operation address source2 width word
      observed.1.access.value Cpu.exchangeAttempts with
    | none =>
      rw [Option.isNone_none, if_pos rfl, Cpu.finishAmo, Cpu.illegal]
      dsimp only
      rw [hstate]
      exact hread
    | some r =>
      obtain ⟨⟨exchanged, original⟩, c⟩ := r
      have hx := hread.exchangeLoop packet operation address source2 width word hloop
      have hstate' := (Executed.accessed_exchangeLoop hloop).state
      rw [Option.isNone_some, if_neg Bool.false_ne_true, Cpu.finishAmo, Cpu.afterAccess]
      cases exchanged.trap with
      | some trap =>
        dsimp only at hstate' ⊢
        rw [hstate', hstate]
        exact hx
      | none =>
        dsimp only at hstate' ⊢
        rw [token_writeAndRetire, hstate', hstate]
        exact hx

theorem Tracked.step (h : s.Tracked) (e : MonitorEvent) : (s.step e).Tracked := by
  cases e with
  | loadReserved => exact h.loadReserved ..
  | storeConditional i => exact .storeConditional i
  | amo => exact h.amo ..
  | read packet va width kind type =>
    exact .of_state (by rw [MonitorEvent.apply, (accessed_guestRead ..).state])
      (Mirrors.guestRead h packet va width kind type)
  | store packet va width value =>
    exact .of_state (by rw [MonitorEvent.apply, (accessed_guestWrite ..).state])
      (Mirrors.guestWrite h packet va width value)
  | dmaWrite address width value => exact .of_state rfl (Mirrors.dmaWrite h address width value)
  | hart state mmu => exact .of_state rfl h

/-- From a hart without a token on. -/
theorem tracked_run {c : Cpu} (hfresh : c.state.reservationToken.valid = false)
    (events : List MonitorEvent) : (Runs.run step { cpu := c } events).Tracked := by
  have hstart : Tracked { cpu := c } := Or.inl hfresh
  exact Runs.run_induction (fun _ e h ↦ h.step e) hstart events

end Monitored

end Step

/-! ## Store-conditional -/

/-- The instruction retires and reports a value in its destination, which `x0` does not take. -/
structure Reports (packet : InstructionPacket) (destination : BitVec 5) (done : StepResult × Cpu)
    (value : BitVec 64) : Prop where
  result : done.1 = .success packet.length
  value : destination ≠ 0#5 → done.2.state.integer destination = value

theorem reports_writeAndRetire (c : Cpu) (packet : InstructionPacket) (destination : BitVec 5)
    (value nextPc : BitVec 64) :
    Reports packet destination (c.writeAndRetire packet destination value nextPc) value := by
  refine ⟨rfl, fun hdestination ↦ ?_⟩
  show (c.state.setInteger destination value).integer destination = value
  rw [integer_setInteger, if_pos ⟨rfl, hdestination⟩]

/-- The outcome of a store-conditional to RAM, from the bus that its translation left: it writes and
reports zero, or reports one and writes nothing. -/
structure ConditionalOutcome (b : Bus) (i : ConditionalStore) (pa : BitVec 64)
    (done : StepResult × Cpu) (reserved : Prop) : Prop where
  success : reserved → Reports i.packet i.instruction.destination done 0#64 ∧
    Bus.Stored b done.2.bus pa i.width i.source2
  failure : ¬ reserved → Reports i.packet i.instruction.destination done 1#64 ∧
    done.2.bus.regions = b.regions

/-- If the store-conditional does not trap and its address is in RAM, then it succeeds exactly when
the address is reserved. -/
def Monitored.Decides (s : Monitored) (i : ConditionalStore) (reserved : BitVec 64 → Prop) : Prop :=
  (i.execute s.cpu).1.trap = none → ∃ pa, (i.translate s.cpu).1 = .ok pa ∧
    ((i.translate s.cpu).2.2.InRam pa.toNat (widthInBytes i.width) →
      ConditionalOutcome (i.translate s.cpu).2.2 i pa (i.execute s.cpu) (reserved pa))

theorem Mirrors.matches_iff {token : ReservationToken} {b : Bus} {held : Option (BitVec 64)}
    (h : Mirrors token b held) (pa : BitVec 64) (w : AccessWidth) :
    Bus.reservationMatches b.reservation token pa w = true ↔ held = some pa := by
  cases held with
  | none =>
    refine iff_of_false ?_ nofun
    rcases h with hinvalid | hnone
    · cases b.reservation with
      | none => exact Bool.false_ne_true
      | some record => simp [Bus.reservationMatches, hinvalid]
    · rw [hnone, Bus.reservationMatches]
      exact Bool.false_ne_true
  | some place =>
    have hwidth : BitVec.ofNat 64 (widthInBytes w) ≤
        reservationGranuleBytes := by cases w <;> decide
    rw [h.2, Bus.reservationMatches, h.1]
    simp only [reservationAt, beq_self_eq_true, Bool.true_and, Bool.and_eq_true, beq_iff_eq,
      Option.some.injEq]
    refine ⟨fun h ↦ h.1.1, ?_⟩
    rintro rfl
    exact ⟨⟨rfl, rfl⟩, decide_eq_true hwidth⟩

/-- The store-conditional of the bus, in RAM. -/
theorem storeConditional_inRam {b : Bus} {pa : BitVec 64} {w : AccessWidth}
    (hram : b.InRam pa.toNat (widthInBytes w)) (token : ReservationToken) (v : BitVec 64) :
    let done := b.storeConditional token pa w v
    done.1 = .success 0#64 (Bus.reservationMatches b.reservation token pa w) ∧
      (Bus.reservationMatches b.reservation token pa w = true → Bus.Stored b done.2 pa w v) ∧
      (Bus.reservationMatches b.reservation token pa w = false → done.2 = b.release) := by
  intro done
  have hram' : b.release.InRam pa.toNat (widthInBytes w) := hram
  obtain ⟨hok, hstored⟩ := hram'.write v .store
  have hwrite : b.release.write pa w v .store = b.release.onRegion pa w (Bus.writeOp w v) := by
    rw [Bus.write_eq, show (AccessType.store == .dmaWrite) = false from rfl, Bool.and_false,
      if_neg Bool.false_ne_true]
  rw [hwrite] at hok hstored
  rcases b.storeConditional_cases token pa w v with
    ⟨e, he, -⟩ | ⟨hmatch, hd⟩ | ⟨-, hno, -⟩ | ⟨hmatch, -, hd⟩
  · obtain ⟨i, o, m, hl, -⟩ := hram.locate
    rw [hl] at he
    cases he
  · rw [hmatch]
    exact ⟨congrArg Prod.fst hd, nofun, fun _ ↦ congrArg Prod.snd hd⟩
  · rw [hok] at hno
    cases hno
  · rw [hmatch]
    exact ⟨congrArg Prod.fst hd, fun _ ↦ (congrArg Prod.snd hd) ▸ hstored, nofun⟩

/-- **What a store-conditional does is decided by the monitor.** -/
theorem Monitored.Tracked.decides {s : Monitored} (h : s.Tracked) (i : ConditionalStore) :
    s.Decides i (Reserved MemoryWrite.touches (s.notes ++ s.cpu.scWalkNotes i)) := by
  have ht := Mirrors.translate h s.cpu.mmu i.address i.width .store s.cpu.dataContext
  intro htrap
  rw [ConditionalStore.execute, Cpu.executeStoreConditional] at htrap ⊢
  rw [Cpu.scWalkNotes]
  cases haligned : Cpu.misaligned i.address i.width with
  | true =>
    rw [haligned, if_pos rfl] at htrap
    cases htrap
  | false =>
    rw [haligned, if_neg Bool.false_ne_true] at htrap
    rw [if_neg Bool.false_ne_true, if_neg Bool.false_ne_true]
    set g := s.cpu.modifyState (·.setReservationToken {}) with hg
    rw [Cpu.guestStoreConditional] at htrap ⊢
    rcases htranslate : i.translate s.cpu with ⟨fault | pa, m, b⟩
    · have htranslate' : g.mmu.translate g.bus i.address i.width .store g.dataContext =
        (.error fault, m, b) := htranslate
      rw [Cpu.guestAccess, htranslate'] at htrap
      cases htrap
    · have htranslate' : g.mmu.translate g.bus i.address i.width .store g.dataContext =
        (.ok pa, m, b) := htranslate
      rw [show s.cpu.mmu.translate s.cpu.bus i.address i.width .store s.cpu.dataContext = _ from
        htranslate, ← held_append] at ht
      refine ⟨pa, rfl, fun hram ↦ ?_⟩
      have hmatches := (ht.matches_iff pa i.width).trans held_eq_some_iff
      obtain ⟨hresult, hstored, hreleased⟩ :=
        storeConditional_inRam hram s.cpu.state.reservationToken i.source2
      rcases guestAccess_of_translate htranslate' i.packet .storeAccessFault
        (storeConditionalOperation s.cpu.state.reservationToken i.width i.source2) with
        ⟨hno, -⟩ | ⟨-, hg⟩
      · exact absurd (hno.symm.trans (congrArg AccessResult.ok hresult)) Bool.false_ne_true
      · rw [hg, Cpu.afterAccess]
        dsimp only [storeConditionalOperation] at hresult hstored hreleased ⊢
        rw [hresult, AccessResult.exchanged_success]
        refine ⟨fun hreserved ↦ ?_, fun hgone ↦ ?_⟩
        · rw [hmatches.2 hreserved]
          exact ⟨reports_writeAndRetire _ _ _ _ _, hstored (hmatches.2 hreserved)⟩
        · rw [← hmatches, Bool.not_eq_true] at hgone
          rw [hgone]
          have hregions : (b.storeConditional s.cpu.state.reservationToken pa i.width
              i.source2).2.regions = b.regions := by
            rw [hreleased hgone]
            rfl
          exact ⟨reports_writeAndRetire _ _ _ _ _, hregions⟩

/-- The exchange of a walk makes no reservation. -/
theorem reserved_notMem_scWalkNotes (c : Cpu) (i : ConditionalStore) (place : BitVec 64) :
    Note.reserved place ∉ c.scWalkNotes i := by
  rw [Cpu.scWalkNotes]
  split
  · exact List.not_mem_nil
  · rw [Mmu.walkNotes]
    split
    · exact List.not_mem_nil
    · rw [exchangeNotes]
      split
      · simp
      · exact List.not_mem_nil

/-- The history of a run that makes no reservation. -/
theorem notes_run {events : List MonitorEvent} {s : Monitored}
    (h : Runs.Along Monitored.step (fun s e ↦ ∀ place,
      Note.reserved place ∉ e.notes s.cpu) s events) :
    ∃ later, (Runs.run Monitored.step s events).notes = s.notes ++ later ∧
      ∀ place, Note.reserved place ∉ later := by
  induction events generalizing s with
  | nil => exact ⟨[], (List.append_nil _).symm, fun _ ↦ List.not_mem_nil⟩
  | cons e events ih =>
    obtain ⟨later, hlater, hnone⟩ := ih h.2
    refine ⟨e.notes s.cpu ++ later, ?_, fun place hmem ↦ ?_⟩
    · rw [Runs.run_cons, hlater, ← List.append_assoc]
      rfl
    · exact (List.mem_append.1 hmem).elim (h.1 place) (hnone place)

/-- **Load-reserved and store-conditional.**  After any history, a store-conditional to RAM that
does not trap writes and reports success exactly when its address is still reserved.  No reservation
serves two: after one store-conditional, whatever became of it, the next one fails unless there was
another load-reserved. -/
theorem reservation_monitor (c : Cpu) (hfresh : c.state.reservationToken.valid = false)
    (events : List MonitorEvent) (i : ConditionalStore) :
    let s := Runs.run Monitored.step { cpu := c } events
    s.Decides i (Reserved MemoryWrite.touches (s.notes ++ s.cpu.scWalkNotes i)) ∧
    ∀ (first : ConditionalStore) (later : List MonitorEvent),
      Runs.Along Monitored.step (fun s e ↦ ∀ place, Note.reserved place ∉ e.notes s.cpu)
        (s.step (.storeConditional first)) later →
      (Runs.run Monitored.step (s.step (.storeConditional first)) later).Decides i fun _ ↦
        False := by
  intro s
  have hs : s.Tracked := Monitored.tracked_run hfresh events
  refine ⟨hs.decides i, fun first later hnone ↦ ?_⟩
  set s' := Runs.run Monitored.step (s.step (.storeConditional first)) later with hs'
  have htracked : s'.Tracked :=
    Runs.run_induction (fun _ e h ↦ h.step e) (hs.step (.storeConditional first)) later
  obtain ⟨notes, hnotes, hlater⟩ := notes_run hnone
  have hgone : ∀ place, ¬ Reserved MemoryWrite.touches
      (s'.notes ++ s'.cpu.scWalkNotes i) place := by
    intro place
    have hsplit : s'.notes ++ s'.cpu.scWalkNotes i =
        (s.notes ++ s.cpu.scWalkNotes first) ++ .attempted :: (notes ++ s'.cpu.scWalkNotes i) := by
      rw [hs', hnotes]
      show s.notes ++ (s.cpu.scWalkNotes first ++ [.attempted]) ++ notes ++ _ = _
      simp
    rw [hsplit]
    refine not_reserved_of_attempted (fun place hmem ↦ ?_) place
    exact (List.mem_append.1 hmem).elim (hlater place) (reserved_notMem_scWalkNotes _ _ place)
  intro htrap
  obtain ⟨pa, hpa, houtcome⟩ := htracked.decides i htrap
  exact ⟨pa, hpa, fun hram ↦ ⟨False.elim, fun _ ↦ (houtcome hram).failure (hgone pa)⟩⟩

/-- A hart with four bytes of RAM. -/
def fourByteCpu : Cpu where
  bus :=
    { regions :=
        [.ram
          { range := { base := 0#64, size := 4#64, size_pos := AddressRange.pos_four
                       fits := AddressRange.fits_four }
            bytes := List.replicate 4 0#8, size_eq := by decide }] }

/-- `lr.w x5, (x0)` and `sc.w x5, x6, (x0)`. -/
def lrPacket : InstructionPacket := { programCounter := 0#64, bits := 0x100022AF#32, length := 4 }
def scPacket : InstructionPacket := { programCounter := 4#64, bits := 0x186022AF#32, length := 4 }

def fourByteConditional : ConditionalStore where
  packet := scPacket
  instruction := decode scPacket.bits
  width := .word
  address := 0#64
  source2 := 7#64
  sequentialPc := 8#64

theorem reservation_monitor_pair :
    Reports scPacket 5#5 (fourByteConditional.execute
      (Runs.run Monitored.step { cpu := fourByteCpu }
        [.loadReserved lrPacket (decode lrPacket.bits) .word true 0#64 4#64]).cpu) 0#64 := by
  obtain ⟨pa, hpa, houtcome⟩ := (reservation_monitor fourByteCpu rfl
    [.loadReserved lrPacket (decode lrPacket.bits) .word true 0#64 4#64] fourByteConditional).1
    (by decide)
  obtain rfl : 0#64 = pa := Except.ok.inj hpa
  refine ((houtcome ?_).success (held_eq_some_iff.1 (by decide))).1
  exact ⟨_, List.mem_singleton.2 rfl, by decide, by decide⟩

end Rvemu
