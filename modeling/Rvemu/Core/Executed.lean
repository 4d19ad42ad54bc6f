import Rvemu.Core.Effects

/-!
# The outcome of every executor

One lemma for each executor: whatever it is given, its outcome is one of those of `Executed`.  The
program counter is even here because `fetch` refuses odd ones before anything is executed.
-/

set_option autoImplicit false

namespace Rvemu

open Relation

namespace Executed

variable {packet : InstructionPacket} {c : Cpu}

theorem afterAccess {accessed : GuestAccessResult × Cpu}
    {next : GuestAccessResult → Cpu → StepResult × Cpu} (ha : Accessed packet c accessed)
    (hn : accessed.1.trap = none → Executed packet c (next accessed.1 accessed.2)) :
    Executed packet c (Cpu.afterAccess packet accessed next) := by
  rw [Cpu.afterAccess]
  cases ht : accessed.1.trap with
  | none => exact hn ht
  | some t =>
    obtain ⟨hof, hup⟩ := ha.trap t ht
    exact trapped hof (t := c.state.reservationToken) (by rw [ha.state]; rfl) hup

/-- What happens after accesses that left the hart alone and memory alone up to A and D. -/
theorem of_state {c' : Cpu} {r : StepResult × Cpu} (hs : c'.state = c.state)
    (hb : AdUpdated c.root c.bus c'.bus) (h : Executed packet c' r) : Executed packet c r := by
  have hroot : c'.root = c.root := by rw [Cpu.root, hs, Cpu.root]
  cases h with
  | retired h => exact retired (hs ▸ h)
  | trapped ht hs' hb' => exact trapped ht (hs ▸ hs') (hb.trans (hroot ▸ hb'))
  | interrupted hv ht h => exact interrupted hv ht (hs ▸ h)

/-! ## Computation and control transfer -/

theorem executeComputed {sequentialPc : BitVec 64} (hseq : sequentialPc.getLsbD 0 = false)
    (index : BitVec 5) (result : Option (BitVec 64)) :
    Executed packet c (c.executeComputed packet index sequentialPc result) := by
  cases result with
  | none => exact illegal packet c
  | some value => exact writeAndRetire ReflTransGen.refl index value hseq

theorem jumpTo {target : BitVec 64} (ht : target.getLsbD 0 = false) {commit : CpuState → CpuState}
    (hc : Updates c.state (commit c.state)) :
    Executed packet c (c.jumpTo packet target commit) := by
  rw [Cpu.jumpTo, (Bits.and_one_eq_zero_iff target).2 ht, if_neg (by decide)]
  exact retire (d := c.modifyState commit) hc ht

theorem executeJal {sequentialPc : BitVec 64} (heven : packet.programCounter.getLsbD 0 = false)
    (instruction : DecodedInstruction) :
    Executed packet c (c.executeJal packet instruction sequentialPc) := by
  refine jumpTo ?_ (Update.integer _ _).single
  rw [Bits.getLsbD_zero_add, heven, immediateJ_even]
  rfl

theorem executeJalr (instruction : DecodedInstruction) (source1 sequentialPc : BitVec 64) :
    Executed packet c (c.executeJalr packet instruction source1 sequentialPc) := by
  rw [Cpu.executeJalr]
  split
  · exact illegal packet c
  · refine jumpTo ?_ (Update.integer _ _).single
    rw [BitVec.getLsbD_and]
    simp

theorem executeBranch {sequentialPc : BitVec 64} (heven : packet.programCounter.getLsbD 0 = false)
    (hseq : sequentialPc.getLsbD 0 = false) (instruction : DecodedInstruction)
    (source1 source2 : BitVec 64) :
    Executed packet c (c.executeBranch packet instruction source1 source2 sequentialPc) := by
  rw [Cpu.executeBranch]
  split
  · exact illegal packet c
  · exact retire ReflTransGen.refl hseq
  · refine jumpTo ?_ ReflTransGen.refl
    rw [Bits.getLsbD_zero_add, heven, immediateB_even]
    rfl

/-! ## Loads and stores -/

theorem executeLoad {sequentialPc : BitVec 64} (hseq : sequentialPc.getLsbD 0 = false)
    (instruction : DecodedInstruction) (source1 : BitVec 64) :
    Executed packet c (c.executeLoad packet instruction source1 sequentialPc) := by
  rw [Cpu.executeLoad]
  split
  · exact illegal packet c
  · have ha := fun va w ↦ accessed_guestRead c packet va w .load .load
    refine afterAccess (ha _ _) fun _ ↦ writeAndRetire ?_ _ _ hseq
    rw [(ha _ _).state]

theorem executeStore {sequentialPc : BitVec 64} (hseq : sequentialPc.getLsbD 0 = false)
    (instruction : DecodedInstruction) (source1 source2 : BitVec 64) :
    Executed packet c (c.executeStore packet instruction source1 source2 sequentialPc) := by
  rw [Cpu.executeStore]
  split
  · exact illegal packet c
  · have ha := fun va w ↦ accessed_guestWrite c packet va w source2 .store
    refine afterAccess (ha _ _) fun _ ↦ retire ?_ hseq
    rw [(ha _ _).state]

/-! ## LR, SC and AMO -/

theorem executeLoadReserved {sequentialPc : BitVec 64} (hseq : sequentialPc.getLsbD 0 = false)
    (instruction : DecodedInstruction) (width : AccessWidth) (word : Bool) (address : BitVec 64) :
    Executed packet c
      (c.executeLoadReserved packet instruction width word address sequentialPc) := by
  rw [Cpu.executeLoadReserved]
  split
  · exact illegal packet c
  · split
    · exact failure (trapOf_makeTrap packet _ (by decide))
    · have ha := accessed_guestLoadReserved c packet address width
      refine afterAccess ha fun _ ↦ writeAndRetire ?_ _ _ hseq
      rw [Cpu.modifyState, ha.state]
      exact (Update.token _).single

theorem executeStoreConditional {sequentialPc : BitVec 64}
    (hseq : sequentialPc.getLsbD 0 = false) (instruction : DecodedInstruction)
    (width : AccessWidth) (address source2 : BitVec 64) :
    Executed packet c
      (c.executeStoreConditional packet instruction width address source2 sequentialPc) := by
  rw [Cpu.executeStoreConditional]
  split
  · exact trapped (trapOf_makeTrap packet _ (by decide)) rfl (AdUpdated.refl _ _)
  · have ha := accessed_guestStoreConditional (c.modifyState (·.setReservationToken {})) packet
      address width c.state.reservationToken source2
    rw [Cpu.afterAccess]
    split
    · next t ht =>
      obtain ⟨hof, hup⟩ := ha.trap t ht
      exact trapped hof ha.state hup
    · refine writeAndRetire ?_ _ _ hseq
      rw [ha.state]
      exact (Update.token _).single

/-- The exchange loop leaves the hart alone; a trap in it leaves memory alone up to A and D. -/
theorem accessed_exchangeLoop {operation : AtomicOperation} {address source2 : BitVec 64}
    {width : AccessWidth} {word : Bool} {attempts : ℕ} {original : BitVec 64} {c : Cpu}
    {r : (GuestAccessResult × BitVec 64) × Cpu}
    (h : c.exchangeLoop packet operation address source2 width word original attempts = some r) :
    Accessed packet c (r.1.1, r.2) := by
  induction attempts generalizing c original with
  | zero => cases h
  | succ attempts ih =>
    rw [Cpu.exchangeLoop] at h
    have ha := accessed_guestCompareExchange c packet address width original
      (executeAtomicOperation operation original source2 word)
    split at h
    · obtain rfl := Option.some.inj h
      exact ha
    · next hno =>
      rw [Bool.not_eq_true, Bool.or_eq_false_iff] at hno
      -- an attempt that lost the exchange has changed nothing
      have hup := adUpdated_guestCompareExchange c packet address width original
        (executeAtomicOperation operation original source2 word) hno.2
      have hroot : ∀ c' : Cpu, c'.state = c.state → c'.root = c.root := fun c' hs ↦ by
        rw [Cpu.root, hs, Cpu.root]
      have hr := ih h
      refine ⟨hr.state.trans ha.state, fun t ht ↦ ?_⟩
      obtain ⟨hof, hb⟩ := hr.trap t ht
      exact ⟨hof, hup.trans (hroot _ ha.state ▸ hb)⟩

theorem executeAmo {sequentialPc : BitVec 64} (hseq : sequentialPc.getLsbD 0 = false)
    (instruction : DecodedInstruction) (operation : AtomicOperation) (width : AccessWidth)
    (word : Bool) (address source2 : BitVec 64) :
    Executed packet c
      (c.executeAmo packet instruction operation width word address source2 sequentialPc) := by
  rw [Cpu.executeAmo]
  split
  · exact failure (trapOf_makeTrap packet _ (by decide))
  · have ha := accessed_guestRead c packet address width .atomic .atomic
    have hup := adUpdated_guestRead c packet address width .atomic .atomic
    refine afterAccess ha fun _ ↦ of_state ha.state hup ?_
    generalize (c.guestRead packet address width .atomic .atomic).2 = c'
    cases hl : c'.exchangeLoop packet operation address source2 width word
      (c.guestRead packet address width .atomic .atomic).1.access.value Cpu.exchangeAttempts with
    | none => exact illegal packet c'
    | some r =>
      obtain ⟨⟨exchanged, original⟩, c''⟩ := r
      have hx : Accessed packet c' (exchanged, c'') := accessed_exchangeLoop hl
      rw [Cpu.finishAmo]
      refine afterAccess hx fun _ ↦ writeAndRetire ?_ _ _ hseq
      rw [hx.state]

theorem executeAtomic {sequentialPc : BitVec 64} (hseq : sequentialPc.getLsbD 0 = false)
    (instruction : DecodedInstruction) (source1 source2 : BitVec 64) :
    Executed packet c (c.executeAtomic packet instruction source1 source2 sequentialPc) := by
  rw [Cpu.executeAtomic]
  dsimp only
  split
  · exact illegal packet c
  · split
    · exact executeLoadReserved hseq _ _ _ _
    · split
      · exact executeStoreConditional hseq _ _ _ _
      · split
        · exact illegal packet c
        · exact executeAmo hseq _ _ _ _ _ _

/-! ## SYSTEM -/

theorem executeSfenceVma {sequentialPc : BitVec 64} (hseq : sequentialPc.getLsbD 0 = false)
    (instruction : DecodedInstruction) (source1 : BitVec 64) :
    Executed packet c (c.executeSfenceVma packet instruction source1 sequentialPc) := by
  rw [Cpu.executeSfenceVma]
  dsimp only
  split
  · exact illegal packet c
  · exact retired (.updates (Update.jump hseq).single)

theorem executePrivileged {sequentialPc : BitVec 64} (hseq : sequentialPc.getLsbD 0 = false)
    (instruction : DecodedInstruction) (source1 : BitVec 64) :
    Executed packet c (c.executePrivileged packet instruction source1 sequentialPc) := by
  rw [Cpu.executePrivileged]
  split
  · exact executeSfenceVma hseq _ _
  split
  · refine failure (trapOf_makeTrap packet _ ?_)
    cases c.state.privilege <;> decide
  split
  · exact failure (trapOf_makeTrap packet _ (by decide))
  split
  · split
    · exact illegal packet c
    · next hp => exact retired (.machineReturn (by simpa using hp))
  split
  · split
    · exact illegal packet c
    · next hp => exact retired (.supervisorReturn (by simpa using hp))
  split
  · split
    · exact illegal packet c
    · exact retire (d := c.modifyState (·.setWaitingForInterrupt true)) (Update.waiting _).single
        hseq
  · exact illegal packet c

theorem executeCsr {sequentialPc : BitVec 64} (hseq : sequentialPc.getLsbD 0 = false)
    (instruction : DecodedInstruction) {request : CsrAccessRequest}
    (hr : CsrRequested packet.bits c.state request) :
    Executed packet c (c.executeCsr packet instruction request sequentialPc) := by
  rw [Cpu.executeCsr]
  dsimp only
  split
  · exact illegal packet c
  · next hs => exact retired (.csr hr (by simpa using hs) _ _ hseq)

theorem executeSystem {sequentialPc : BitVec 64} (hseq : sequentialPc.getLsbD 0 = false)
    (hopcode : (decode packet.bits).opcode = 0x73#7) :
    Executed packet c (c.executeSystem packet (decode packet.bits)
      (c.state.integer (decode packet.bits).source1) sequentialPc) := by
  rw [Cpu.executeSystem]
  split
  · exact executePrivileged hseq _ _
  · split
    · exact illegal packet c
    · next hoperation => exact executeCsr hseq _ ⟨hopcode, _, _, hoperation, rfl⟩

end Executed

/-! ## Floating instructions -/

section Floating

variable {s s' : CpuState} (h : s.csrs.floatingStateEnabled = true)

include h

theorem updates_setFloatingBits (format : FloatingFormat) (index : BitVec 5) (bits : BitVec 64) :
    Updates s (s.setFloatingBits format index bits) := by
  cases format <;> exact (Update.floating h _ _).single

theorem updates_writeFloatingResult (format : FloatingFormat) (index : BitVec 5)
    (result : FloatingResult) : Updates s (s.writeFloatingResult format index result) :=
  (updates_setFloatingBits h format index _).tail (.flags _)

omit h in
theorem updates_writeIntegerResult (index : BitVec 5) (value : BitVec 64) (flags : BitVec 8) :
    Updates s (s.writeIntegerResult index value flags) :=
  (Update.integer index value).single.tail (.flags flags)

theorem updates_fusedCommit {instruction : DecodedInstruction}
    (hc : s.fusedCommit instruction = some s') : Updates s s' := by
  rw [CpuState.fusedCommit] at hc
  split at hc
  · obtain rfl := Option.some.inj hc
    exact updates_writeFloatingResult h _ _ _
  · cases hc

theorem updates_convertFormatCommit {instruction : DecodedInstruction}
    (hc : s.convertFormatCommit instruction = some s') : Updates s s' := by
  rw [CpuState.convertFormatCommit] at hc
  split at hc
  · obtain ⟨rounding, -, rfl⟩ := Option.map_eq_some_iff.1 hc
    exact updates_writeFloatingResult h _ _ _
  · cases hc

omit h in
theorem updates_moveToIntegerCommit {instruction : DecodedInstruction} {format : FloatingFormat}
    (hc : s.moveToIntegerCommit instruction format = some s') : Updates s s' := by
  rw [CpuState.moveToIntegerCommit] at hc
  split at hc
  · obtain rfl := Option.some.inj hc
    exact (Update.integer _ _).single
  · split at hc
    · obtain rfl := Option.some.inj hc
      exact (Update.integer _ _).single
    · cases hc

omit h in
/-- What a choice commits is committed by one of the two branches. -/
theorem commits_of_ite {c : Prop} [Decidable c] {a b : Option CpuState}
    (hc : (if c then a else b) = some s') : a = some s' ∨ b = some s' := by
  split at hc
  · exact Or.inl hc
  · exact Or.inr hc

theorem updates_opFpCommit {instruction : DecodedInstruction}
    (hc : s.opFpCommit instruction = some s') : Updates s s' := by
  rw [CpuState.opFpCommit] at hc
  split at hc
  · exact updates_convertFormatCommit h hc
  rcases commits_of_ite hc with hc | hc
  · obtain ⟨rounding, -, rfl⟩ := Option.map_eq_some_iff.1 hc
    exact updates_writeFloatingResult h _ _ _
  rcases commits_of_ite hc with hc | hc
  · rw [CpuState.squareRootCommit] at hc
    split at hc
    · cases hc
    · obtain ⟨rounding, -, rfl⟩ := Option.map_eq_some_iff.1 hc
      exact updates_writeFloatingResult h _ _ _
  rcases commits_of_ite hc with hc | hc
  · rw [CpuState.signInjectCommit] at hc
    split at hc
    · cases hc
    · obtain rfl := Option.some.inj hc
      exact updates_writeFloatingResult h _ _ _
  rcases commits_of_ite hc with hc | hc
  · rw [CpuState.minimumMaximumCommit] at hc
    split at hc
    · cases hc
    · obtain rfl := Option.some.inj hc
      exact updates_writeFloatingResult h _ _ _
  rcases commits_of_ite hc with hc | hc
  · obtain ⟨comparison, -, rfl⟩ := Option.map_eq_some_iff.1 hc
    exact updates_writeIntegerResult _ _ _
  rcases commits_of_ite hc with hc | hc
  · rw [CpuState.toIntegerCommit] at hc
    split at hc
    · obtain rfl := Option.some.inj hc
      exact updates_writeIntegerResult _ _ _
    · cases hc
  rcases commits_of_ite hc with hc | hc
  · rw [CpuState.fromIntegerCommit] at hc
    split at hc
    · obtain rfl := Option.some.inj hc
      exact updates_writeFloatingResult h _ _ _
    · cases hc
  rcases commits_of_ite hc with hc | hc
  · exact updates_moveToIntegerCommit hc
  rcases commits_of_ite hc with hc | hc
  · obtain rfl := Option.some.inj hc
    exact updates_setFloatingBits h _ _ _
  · exact updates_convertFormatCommit h hc

end Floating

namespace Executed

variable {packet : InstructionPacket} {c : Cpu}

theorem commit {sequentialPc : BitVec 64} (hseq : sequentialPc.getLsbD 0 = false)
    {committed : Option CpuState} (h : ∀ s, committed = some s → Updates c.state s) :
    Executed packet c (c.commit packet sequentialPc committed) := by
  cases hc : committed with
  | none => exact illegal packet c
  | some s => exact retire (d := { c with state := s }) (h s hc) hseq

theorem executeFloating {sequentialPc : BitVec 64} (hseq : sequentialPc.getLsbD 0 = false)
    (instruction : DecodedInstruction) :
    Executed packet c (c.executeFloating packet instruction sequentialPc) := by
  rw [Cpu.executeFloating]
  split
  · exact illegal packet c
  · next hfs =>
    have h : c.state.csrs.floatingStateEnabled = true := by simpa using hfs
    split
    · rw [Cpu.executeFloatingLoad]
      split
      · exact illegal packet c
      · have ha := fun va w ↦ accessed_guestRead c packet va w .load .load
        refine afterAccess (ha _ _) fun _ ↦ retire ?_ hseq
        rw [Cpu.modifyState, (ha _ _).state]
        exact updates_setFloatingBits h _ _ _
    split
    · rw [Cpu.executeFloatingStore]
      split
      · exact illegal packet c
      · have ha := fun va w v ↦ accessed_guestWrite c packet va w v .store
        refine afterAccess (ha _ _ _) fun _ ↦ retire ?_ hseq
        rw [(ha _ _ _).state]
    split
    · exact commit hseq fun _ hc ↦ updates_fusedCommit h hc
    split
    · exact illegal packet c
    · exact commit hseq fun _ hc ↦ updates_opFpCommit h hc

end Executed

end Rvemu
