import Rvemu.Core.IntegerSemantics

/-!
# Instruction fetch

An instruction is fetched as one or two half words, each through a translation of its own.
`FetchOutcome` lists what a fetch can come to; `fetch_outcome` shows that every fetch from an even
address comes to one of these, but for a four-byte instruction in the last two bytes of the address
space: the code does not let it wrap around.
-/

set_option autoImplicit false

namespace Rvemu

/-! ## Half words -/

/-- The context instructions are translated in: whatever MPRV says, the privilege is the current
one. -/
def CpuState.fetchPrivilegeContext (s : CpuState) : MmuContext where
  privilege := s.privilege
  satp := s.csrs.readValue .satp
  mstatus := s.csrs.readValue .mstatus

/-- Fetching the half word at a virtual address: the half word with the hart after it, or the cause
of a fault. -/
inductive FetchesHalf (c : Cpu) (va : BitVec 64) : Except ExceptionCause (BitVec 16) → Cpu → Prop
  | read (pa : BitVec 64) (mmu : Mmu) (bus : Bus) (value : BitVec 64)
      (translated : c.mmu.translate c.bus va .halfWord .instructionFetch
        c.state.fetchPrivilegeContext = (.ok pa, mmu, bus))
      (ok : (bus.read pa .halfWord .instructionFetch).1.ok = true)
      (loaded : (bus.read pa .halfWord .instructionFetch).1.value = value) :
      FetchesHalf c va (.ok (value.setWidth 16)) { c with mmu, bus }
  | pageFault (translated : c.mmu.translate c.bus va .halfWord .instructionFetch
        c.state.fetchPrivilegeContext =
          (.error { cause := .instructionPageFault, value := va }, c.mmu, c.bus)) :
      FetchesHalf c va (.error .instructionPageFault) c
  | accessFault (pa : BitVec 64) (mmu : Mmu) (bus : Bus)
      (translated : c.mmu.translate c.bus va .halfWord .instructionFetch
        c.state.fetchPrivilegeContext = (.ok pa, mmu, bus))
      (refused : (bus.read pa .halfWord .instructionFetch).1.ok = false) :
      FetchesHalf c va (.error .instructionAccessFault) { c with mmu, bus }

/-- The guest read behind a fetched half word: a trap, or the half word. -/
theorem fetchesHalf_guestRead (c : Cpu) (pc va : BitVec 64) :
    let r := c.guestRead { programCounter := pc } va .halfWord .instructionFetch .instructionFetch
    (∃ cause, r.1.trap = some { cause, value := va, programCounter := pc } ∧
        FetchesHalf c va (.error cause) r.2) ∨
      (r.1.trap = none ∧ FetchesHalf c va (.ok (r.1.access.value.setWidth 16)) r.2) := by
  intro r
  have hr : r = c.guestRead { programCounter := pc } va .halfWord .instructionFetch
    .instructionFetch := rfl
  have hcontext : c.fetchContext = c.state.fetchPrivilegeContext := rfl
  rw [Cpu.guestRead, if_pos rfl, Cpu.guestAccess, hcontext] at hr
  have hcases := translate_cases c.mmu c.bus va .halfWord .instructionFetch
    c.state.fetchPrivilegeContext
  cases ht : (c.mmu.translate c.bus va .halfWord .instructionFetch
      c.state.fetchPrivilegeContext).1 with
  | error fault =>
    have hfault : c.mmu.translate c.bus va .halfWord .instructionFetch
        c.state.fetchPrivilegeContext = (.error (pageFault .instructionFetch va), c.mmu,
          c.bus) := by
      rcases hcases with h | ⟨-, h⟩ | ⟨_, -, -, h⟩ | ⟨_, _, -, -, -, -, -, -, h⟩
      · exact h
      all_goals
        rw [h] at ht
        cases ht
    rw [hfault] at hr
    rw [hr]
    exact Or.inl ⟨.instructionPageFault, rfl, .pageFault hfault⟩
  | ok pa =>
    obtain ⟨mmu, bus, htranslate⟩ : ∃ mmu bus, c.mmu.translate c.bus va .halfWord .instructionFetch
        c.state.fetchPrivilegeContext = (.ok pa, mmu, bus) :=
      ⟨_, _, Prod.ext ht rfl⟩
    rw [htranslate, Cpu.accessTranslated] at hr
    simp only [readOperation, read_halfWord_bus] at hr
    cases hok : (bus.read pa .halfWord .instructionFetch).1.ok with
    | true =>
      rw [hok, Bool.not_true, if_neg (by decide)] at hr
      rw [hr]
      exact Or.inr ⟨rfl, .read pa mmu bus _ htranslate hok rfl⟩
    | false =>
      rw [hok, Bool.not_false, if_pos rfl] at hr
      rw [hr]
      exact Or.inl ⟨.instructionAccessFault, rfl, .accessFault pa mmu bus htranslate hok⟩

/-! ## Instructions -/

/-- What a fetch comes to: the second half is looked at only behind a first one that ends in `11`,
and a fault reports the address of the half it is about. -/
inductive FetchOutcome (c : Cpu) : Except Trap InstructionPacket × Cpu → Prop
  | compressed (lower : BitVec 16) (c' : Cpu)
      (first : FetchesHalf c c.state.programCounter (.ok lower) c')
      (short : lower &&& 3#16 ≠ 3#16) :
      FetchOutcome c
        (.ok { programCounter := c.state.programCounter, bits := lower.setWidth 32,
               length := 2 }, c')
  | full (lower upper : BitVec 16) (c' c'' : Cpu)
      (first : FetchesHalf c c.state.programCounter (.ok lower) c') (long : lower &&& 3#16 = 3#16)
      (second : FetchesHalf c' (c.state.programCounter + 2#64) (.ok upper) c'') :
      FetchOutcome c
        (.ok { programCounter := c.state.programCounter, bits := upper ++ lower, length := 4 }, c'')
  | firstFault (cause : ExceptionCause) (c' : Cpu)
      (first : FetchesHalf c c.state.programCounter (.error cause) c') :
      FetchOutcome c
        (.error { cause, value := c.state.programCounter,
                  programCounter := c.state.programCounter }, c')
  | secondFault (lower : BitVec 16) (cause : ExceptionCause) (c' c'' : Cpu)
      (first : FetchesHalf c c.state.programCounter (.ok lower) c') (long : lower &&& 3#16 = 3#16)
      (second : FetchesHalf c' (c.state.programCounter + 2#64) (.error cause) c'') :
      FetchOutcome c
        (.error { cause, value := c.state.programCounter + 2#64,
                  programCounter := c.state.programCounter, instruction := lower.setWidth 32 }, c'')

/-- The first half of a four-byte instruction lies in the last two bytes of the address space. -/
def FetchWraps (c c' : Cpu) (lower : BitVec 16) : Prop :=
  c.state.programCounter = BitVec.allOnes 64 - 1#64 ∧ lower &&& 3#16 = 3#16 ∧
    FetchesHalf c c.state.programCounter (.ok lower) c'

theorem translation_unique {t : Except MmuFault (BitVec 64) × Mmu × Bus} {pa pa' : BitVec 64}
    {mmu mmu' : Mmu} {bus bus' : Bus} (h : t = (.ok pa, mmu, bus))
    (h' : t = (.ok pa', mmu', bus')) :
    pa = pa' ∧ mmu = mmu' ∧ bus = bus' := by
  cases h.symm.trans h'
  exact ⟨rfl, rfl, rfl⟩

/-- One half word, one fetch of it. -/
theorem FetchesHalf.unique {c c₁ c₂ : Cpu} {va : BitVec 64}
    {r₁ r₂ : Except ExceptionCause (BitVec 16)} (h₁ : FetchesHalf c va r₁ c₁)
    (h₂ : FetchesHalf c va r₂ c₂) : r₁ = r₂ ∧ c₁ = c₂ := by
  cases h₁ with
  | read pa mmu bus value translated ok loaded =>
    cases h₂ with
    | read pa' mmu' bus' value' translated' ok' loaded' =>
      obtain ⟨hpa, hmmu, hbus⟩ := translation_unique translated translated'
      subst hpa hmmu hbus
      rw [← loaded, ← loaded']
      exact ⟨rfl, rfl⟩
    | pageFault translated' => cases translated.symm.trans translated'
    | accessFault pa' mmu' bus' translated' refused =>
      obtain ⟨hpa, hmmu, hbus⟩ := translation_unique translated translated'
      subst hpa hmmu hbus
      rw [ok] at refused
      cases refused
  | pageFault translated =>
    cases h₂ with
    | read pa' mmu' bus' value' translated' => cases translated.symm.trans translated'
    | pageFault => exact ⟨rfl, rfl⟩
    | accessFault pa' mmu' bus' translated' => cases translated.symm.trans translated'
  | accessFault pa mmu bus translated refused =>
    cases h₂ with
    | read pa' mmu' bus' value' translated' ok =>
      obtain ⟨hpa, hmmu, hbus⟩ := translation_unique translated translated'
      subst hpa hmmu hbus
      rw [ok] at refused
      cases refused
    | pageFault translated' => cases translated.symm.trans translated'
    | accessFault pa' mmu' bus' translated' =>
      obtain ⟨hpa, hmmu, hbus⟩ := translation_unique translated translated'
      subst hpa hmmu hbus
      exact ⟨rfl, rfl⟩

/-- Two half words side by side. -/
theorem bits_of_halves (lower : BitVec 16) (upper : BitVec 64) :
    lower.setWidth 32 ||| ((upper &&& 0xFFFF#64).setWidth 32 <<< 16) =
    upper.setWidth 16 ++ lower := by
  refine BitVec.eq_of_getLsbD_eq fun i hi ↦ ?_
  have hmask : ∀ j, (0xFFFF#64).getLsbD j = decide (j < 16) := by
    intro j
    rcases Nat.lt_or_ge j 64 with hj | hj
    · have h : ∀ k : Fin 64, (0xFFFF#64).getLsbD k = decide (k.val < 16) := by decide
      exact h ⟨j, hj⟩
    · rw [BitVec.getLsbD_of_ge _ _ hj, decide_eq_false (by omega)]
  rw [BitVec.getLsbD_or, BitVec.getLsbD_setWidth, BitVec.getLsbD_shiftLeft, BitVec.getLsbD_setWidth,
    BitVec.getLsbD_and, hmask, BitVec.getLsbD_append, BitVec.getLsbD_setWidth]
  by_cases hlow : i < 16
  · simp [hlow, hi]
  · simp [hlow, hi, show i - 16 < 32 by omega, show i - 16 < 16 by omega,
      BitVec.getLsbD_of_ge lower i (by omega)]

theorem fetchUpper_outcome {c c' : Cpu} {lower : BitVec 16}
    (first : FetchesHalf c c.state.programCounter (.ok lower) c') (long : lower &&& 3#16 = 3#16)
    (heven : c.state.programCounter.getLsbD 0 = false) :
    (c.state.programCounter ≠ BitVec.allOnes 64 - 1#64 →
        FetchOutcome c (c'.fetchUpper c.state.programCounter lower)) ∧
      (c.state.programCounter = BitVec.allOnes 64 - 1#64 →
        c'.fetchUpper c.state.programCounter lower =
          (.error { cause := .instructionAccessFault, value := c.state.programCounter,
                    programCounter := c.state.programCounter, instruction := lower.setWidth 32 },
            c')) := by
  have htop : c.state.programCounter > BitVec.allOnes 64 - 2#64 ↔
      c.state.programCounter = BitVec.allOnes 64 - 1#64 := by
    have hbit := Bits.getLsbD_zero_eq c.state.programCounter
    rw [heven] at hbit
    have hlt := c.state.programCounter.isLt
    have heven' : c.state.programCounter.toNat % 2 ≠ 1 := of_decide_eq_false hbit.symm
    rw [gt_iff_lt, BitVec.lt_def, ← BitVec.toNat_inj,
      show (BitVec.allOnes 64 - 2#64).toNat = 2 ^ 64 - 3 from rfl,
      show (BitVec.allOnes 64 - 1#64).toNat = 2 ^ 64 - 2 from rfl]
    omega
  rw [Cpu.fetchUpper]
  constructor
  · intro hne
    rw [if_neg (fun h ↦ hne (htop.1 h))]
    dsimp only
    rcases fetchesHalf_guestRead c' c.state.programCounter (c.state.programCounter + 2#64) with
      ⟨cause, htrap, second⟩ | ⟨htrap, second⟩
    · rw [htrap]
      exact .secondFault lower cause c' _ first long second
    · rw [htrap]
      dsimp only
      rw [bits_of_halves]
      exact .full lower _ c' _ first long second
  · intro heq
    rw [if_pos (htop.2 heq)]

/-- **Instruction fetch.**  From an even address a fetch comes to one of the outcomes, unless a
four-byte instruction would wrap around, which is an access fault at the program counter with
nothing fetched behind it; and it leaves the hart, the devices and all of memory but A and D bits
alone. -/
theorem fetch_outcome (c : Cpu) (heven : c.state.programCounter.getLsbD 0 = false) :
    ((¬ ∃ c' lower, FetchWraps c c' lower) → FetchOutcome c c.fetch) ∧
    (∀ c' lower, FetchWraps c c' lower →
      c.fetch = (.error
        { cause := .instructionAccessFault, value := c.state.programCounter,
          programCounter := c.state.programCounter, instruction := lower.setWidth 32 }, c')) ∧
    c.fetch.2.state = c.state ∧ c.fetch.2.bus.devices = c.bus.devices ∧
      AdUpdated c.root c.bus c.fetch.2.bus := by
  refine ⟨?_, ?_, (fetch_fetched c).state, (fetch_devices c).1, (fetch_fetched c).bus⟩
  all_goals
    rw [Cpu.fetch]
    dsimp only
    rw [if_neg (by rw [bne_iff_ne, ne_eq, not_not, Bits.and_one_eq_zero_iff]; exact heven)]
  · intro hwraps
    rcases fetchesHalf_guestRead c c.state.programCounter c.state.programCounter with
      ⟨cause, htrap, first⟩ | ⟨htrap, first⟩
    · rw [htrap]
      exact .firstFault cause _ first
    · rw [htrap]
      dsimp only
      by_cases hlow : (c.guestRead { programCounter := c.state.programCounter }
          c.state.programCounter .halfWord .instructionFetch
          .instructionFetch).1.access.value.setWidth 16 &&& 3#16 = 3#16
      · rw [if_neg (not_not.2 hlow)]
        exact (fetchUpper_outcome first hlow heven).1 fun htop ↦ hwraps ⟨_, _, htop, hlow, first⟩
      · rw [if_pos hlow]
        exact .compressed _ _ first hlow
  · rintro c' lower ⟨htop, hlow, first⟩
    rcases fetchesHalf_guestRead c c.state.programCounter c.state.programCounter with
      ⟨cause, htrap, first'⟩ | ⟨htrap, first'⟩
    · cases (first.unique first').1
    · obtain ⟨hlower, hc⟩ := first.unique first'
      have hlower := Except.ok.inj hlower
      rw [htrap]
      dsimp only
      rw [← hlower, ← hc, if_neg (not_not.2 hlow)]
      exact (fetchUpper_outcome first hlow heven).2 htop

/-- A four-byte instruction at address zero. -/
theorem fetch_outcome_store : FetchOutcome storeCpu storeCpu.fetch ∧ storeCpu.fetch.1 =
    .ok { programCounter := 0#64, bits := 0x00102423#32, length := 4 } := by
  refine ⟨(fetch_outcome storeCpu (by decide)).1 ?_, by decide⟩
  rintro ⟨_, _, htop, -⟩
  exact absurd htop (by decide)

/-! ## The top of the address space -/

/-- The root page table at zero maps the last gigabyte of addresses to the first one of memory,
where a four-byte instruction begins in the last two bytes. -/
def topBus : Bus where
  regions :=
    [.ram
      { range := { base := 4088#64, size := 8#64, size_pos := AddressRange.pos_eight
                   fits := by decide }
        bytes := Bytes.storeBytes (List.replicate 8 0#8) 0 0x4B#64 8
        size_eq := by decide },
     .ram
      { range := { base := 0x3FFFFFF8#64, size := 8#64, size_pos := AddressRange.pos_eight
                   fits := by decide }
        bytes := Bytes.storeBytes (List.replicate 8 0#8) 6 0x13#64 2
        size_eq := by decide }]
  apart := by simp [AddressRegion.Apart, AddressRegion.range, AddressRange.overlaps,
    AddressRange.endExclusive]

def topCpu : Cpu where
  bus := topBus
  state := { csrs := { satp := 0x8000000000000000#64 }, programCounter := BitVec.allOnes 64 - 1#64,
             privilege := .supervisor }

theorem fetch_topCpu : topCpu.fetch.1 = .error
    { cause := .instructionAccessFault, value := BitVec.allOnes 64 - 1#64,
      programCounter := BitVec.allOnes 64 - 1#64, instruction := 0x13#32 } := by
  decide

/-- The fault is reported for the first half, which can be read. -/
theorem fetch_top_not_outcome : topCpu.state.programCounter.getLsbD 0 = false ∧
    ¬ FetchOutcome topCpu topCpu.fetch := by
  refine ⟨by decide, fun h ↦ ?_⟩
  have hfetch := fetch_topCpu
  generalize topCpu.fetch = r at h hfetch
  cases h with
  | compressed => cases hfetch
  | full => cases hfetch
  | firstFault cause => cases congrArg Trap.instruction (Except.error.inj hfetch)
  | secondFault => cases congrArg Trap.value (Except.error.inj hfetch)

end Rvemu
