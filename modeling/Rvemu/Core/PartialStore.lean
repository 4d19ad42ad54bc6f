import Rvemu.Core.VectorMemory

/-!
# Vector stores that trap

A vector store writes its elements byte by byte, and every byte may trap.  An element whose first
byte is accepted and one of whose other bytes is not, because it lies across the end of a page or of
a region, is left half written.  The main result says that these are the only stores that leave
bytes of the element they trap at.
-/

set_option autoImplicit false

namespace Rvemu

/-! ## RAM before and after -/

/-- RAM has changed at the bytes `written`, and elsewhere in the A and D bits of the entries `entry`
only. -/
def RamFrame (written entry : ℕ → Prop) (b b' : Bus) : Prop :=
  ∀ x, b'.ramByte x = b.ramByte x ∨ written x ∨
    entry x ∧ ∃ v v', b.ramByte x = some v ∧ b'.ramByte x = some v' ∧ sameUpToAd v v'

namespace RamFrame

variable {written written' entry entry' : ℕ → Prop} {b b' b'' : Bus}

theorem refl (written entry : ℕ → Prop) (b : Bus) : RamFrame written entry b b :=
  fun _ ↦ Or.inl rfl

theorem mono (h : RamFrame written entry b b') (hw : ∀ x, written x → written' x)
    (he : ∀ x, entry x → entry' x) : RamFrame written' entry' b b' := by
  intro x
  rcases h x with hsame | hx | ⟨hx, hbits⟩
  · exact Or.inl hsame
  · exact Or.inr (Or.inl (hw x hx))
  · exact Or.inr (Or.inr ⟨he x hx, hbits⟩)

theorem trans (h : RamFrame written entry b b') (h' : RamFrame written entry b' b'') :
    RamFrame written entry b b'' := by
  intro x
  rcases h x with hsame | hx | ⟨hx, v, v', hv, hv', hbits⟩
  · rw [← hsame]
    exact h' x
  · exact Or.inr (Or.inl hx)
  · rcases h' x with hsame' | hx' | ⟨-, w, w', hw, hw', hbits'⟩
    · exact Or.inr (Or.inr ⟨hx, v, v', hv, hsame'.trans hv', hbits⟩)
    · exact Or.inr (Or.inl hx')
    · obtain rfl : v' = w := Option.some.inj (hv'.symm.trans hw)
      exact Or.inr (Or.inr ⟨hx, v, w', hv, hw', hbits.trans hbits'⟩)

theorem of_adUpdated {root : BitVec 64} (h : AdUpdated root b b') :
    RamFrame (fun _ ↦ False) (IsLeafEntry b' root) b b' := by
  intro x
  rcases h.ram x with hsame | hentry
  · exact Or.inl hsame
  · exact Or.inr (Or.inr hentry)

theorem of_write (b : Bus) (pa value : BitVec 64) (type : AccessType) :
    RamFrame (fun x ↦ pa.toNat = x) (fun _ ↦ False) b (b.write pa .byte value type).2 := by
  intro x
  by_cases hx : pa.toNat = x
  · exact Or.inr (Or.inl hx)
  · refine Or.inl (b.ramByte_write value type ?_)
    rw [widthInBytes]
    omega

end RamFrame

/-! ## The bytes of a store -/

section Stores

variable (c : Cpu) (packet : InstructionPacket) (operation : VectorMemoryOperation)
  (group : VectorRegisterGroup)

/-- The byte of RAM that byte `j` of element `i` translates to. -/
def Cpu.byteTarget (i j x : ℕ) : Prop :=
  ∃ pa, (c.translateByte operation group (c.beforeByte packet operation group i j) i j).1 = .ok pa ∧
    pa.toNat = x

/-- A leaf entry of the page tables when byte `j` of element `i` was translated. -/
def Cpu.byteEntry (i j x : ℕ) : Prop :=
  IsLeafEntry (c.translateByte operation group (c.beforeByte packet operation group i j) i j).2.2
    c.root x

/-- A store that leaves at element `k` leaves no byte of it or of a later element: RAM differs in
bytes of active elements before `k`, and in A and D bits. -/
structure WholeElements (k : ℕ) (after : Cpu) : Prop where
  whole : ∀ i j, Moves c packet operation group i j → i < k
  ram : RamFrame
    (fun x ↦ ∃ i j, i < k ∧ Moves c packet operation group i j ∧
      c.byteTarget packet operation group i j x)
    (fun x ↦ ∃ i j, Visits c packet operation group i j ∧ c.byteEntry packet operation group i j x)
    c.bus after.bus

end Stores

section Frames

variable {c : Cpu} {packet : InstructionPacket} {operation : VectorMemoryOperation}
  {group : VectorRegisterGroup} {i j k : ℕ} {trap : Trap}

theorem adUpdated_translateByte (operation : VectorMemoryOperation) (group : VectorRegisterGroup)
    (i j : ℕ) {d : Cpu}
    (hroot : d.root = c.root) :
    AdUpdated c.root d.bus (c.translateByte operation group d i j).2.2 := by
  rw [← hroot]
  exact translate_adUpdated d.mmu d.bus _ .byte _ d.dataContext

/-- One byte. -/
theorem frame_visitByte (hstore : operation.load = false)
    (hroot : (c.beforeByte packet operation group i j).root = c.root)
    (hbytes : (c.visitBytes packet operation group i j).1 = none) :
    RamFrame
      (fun x ↦ (c.visitBytes packet operation group i (j + 1)).1 = none ∧
        c.byteTarget packet operation group i j x)
      (c.byteEntry packet operation group i j)
      (c.beforeByte packet operation group i j).bus
      (c.beforeByte packet operation group i (j + 1)).bus := by
  have htranslated := RamFrame.of_adUpdated (adUpdated_translateByte operation group i j hroot)
  have hbefore : c.beforeByte packet operation group i (j + 1) =
      (c.visitByte packet operation group i (c.beforeByte packet operation group i j) j).2 :=
    congrArg Prod.snd (visitBytes_succ hbytes)
  have hop : (c.byteAccess operation group i j).operation =
      writeOperation .byte (c.elementValue group i >>> (j * 8)) .store := by
    rw [ScalarAccess.operation, Cpu.byteAccess, hstore]
    rfl
  rw [hbefore, visitBytes_succ hbytes]
  rcases visitByte_cases (c.beforeByte packet operation group i j) with
    ⟨trap, -, hvisit⟩ | ⟨pa, hpa, hafter, ⟨hok, hsome⟩ | ⟨hok, hnone⟩⟩
  · rw [hvisit]
    exact htranslated.mono (fun _ h ↦ h.elim) fun _ h ↦ h
  · -- a write that is refused leaves the bus alone
    rw [hop] at hafter hok
    rw [hafter]
    dsimp only [writeOperation] at hok ⊢
    rw [Bus.write_of_not_ok hok]
    exact htranslated.mono (fun _ h ↦ h.elim) fun _ h ↦ h
  · rw [hafter, hop]
    refine (htranslated.mono (fun _ h ↦ h.elim) fun _ h ↦ h).trans ?_
    exact (RamFrame.of_write _ pa _ .store).mono (fun x hx ↦ ⟨hnone, pa, hpa, hx⟩)
      fun _ h ↦ h.elim

theorem frame_visitBytes (hstore : operation.load = false)
    (hroot : (c.beforeElement packet operation group i).root = c.root)
    (hbytes : (c.visitBytes packet operation group i j).1 = none) :
    RamFrame
      (fun x ↦ ∃ l < j, (c.visitBytes packet operation group i (l + 1)).1 = none ∧
        c.byteTarget packet operation group i l x)
      (fun x ↦ ∃ l < j, c.byteEntry packet operation group i l x)
      (c.beforeElement packet operation group i).bus
      (c.beforeByte packet operation group i j).bus := by
  induction j with
  | zero => exact RamFrame.refl _ _ _
  | succ j ih =>
    have hprevious : (c.visitBytes packet operation group i j).1 = none :=
      forElements_before (Nat.zero_le _) (Nat.le_succ j) hbytes
    refine ((ih hprevious).mono ?_ ?_).trans ((frame_visitByte hstore ?_ hprevious).mono ?_ ?_)
    · exact fun x ⟨l, hl, h⟩ ↦ ⟨l, Nat.lt_succ_of_lt hl, h⟩
    · exact fun x ⟨l, hl, h⟩ ↦ ⟨l, Nat.lt_succ_of_lt hl, h⟩
    · rw [Cpu.root, visitBytes_state]
      exact hroot
    · exact fun x h ↦ ⟨j, Nat.lt_succ_self j, h⟩
    · exact fun x h ↦ ⟨j, Nat.lt_succ_self j, h⟩

/-- **The elements before `k`.** -/
theorem frame_visitElements (hg : MemoryGroup c operation group) (hstore : operation.load = false)
    (hstart : c.state.csrs.vstart.toNat ≤ k) (hk : k ≤ (c.state.csrs.readValue .vl).toNat)
    (hnone : (c.visitElements packet operation group k).1 = none) :
    RamFrame
      (fun x ↦ ∃ i j, i < k ∧ Moves c packet operation group i j ∧
        c.byteTarget packet operation group i j x)
      (fun x ↦ ∃ i j, Visits c packet operation group i j ∧
        c.byteEntry packet operation group i j x)
      c.bus (c.beforeElement packet operation group k).bus := by
  obtain ⟨n, rfl⟩ := Nat.exists_eq_add_of_le hstart
  clear hstart
  induction n with
  | zero =>
    rw [Nat.add_zero, Cpu.beforeElement, visitElements_start]
    exact RamFrame.refl _ _ _
  | succ n ih =>
    have hle : c.state.csrs.vstart.toNat ≤ c.state.csrs.vstart.toNat + n := Nat.le_add_right _ n
    have hbefore := visitElements_before hle (Nat.add_le_add_left (Nat.le_succ n) _) hnone
    have halong := along_beforeElement hg hle (by omega) hbefore
    have hsofar : RamFrame
        (fun x ↦ ∃ i j, i < c.state.csrs.vstart.toNat + (n + 1) ∧
          Moves c packet operation group i j ∧ c.byteTarget packet operation group i j x)
        (fun x ↦ ∃ i j, Visits c packet operation group i j ∧
          c.byteEntry packet operation group i j x)
        c.bus (c.beforeElement packet operation group (c.state.csrs.vstart.toNat + n)).bus := by
      refine (ih (by omega) hbefore).mono (fun x hx ↦ ?_) fun _ h ↦ h
      obtain ⟨i, j, hi, h⟩ := hx
      exact ⟨i, j, by omega, h⟩
    rcases visitElements_cases halong hg hle (by omega) hbefore with
      ⟨-, s, hs, -⟩ | ⟨hactive, ⟨hbytes, s, hs, -⟩ | ⟨trap, -, hs⟩⟩
    · rw [← Nat.add_assoc, Cpu.beforeElement, hs]
      exact hsofar
    · rw [← Nat.add_assoc, Cpu.beforeElement, hs]
      have hvisits : ∀ l < operation.elementWidthBits / 8,
          Visits c packet operation group (c.state.csrs.vstart.toNat + n) l := fun l hl ↦
        ⟨hle, by omega, hactive, hbefore, hl,
          forElements_before (Nat.zero_le _) (Nat.le_of_lt hl) hbytes⟩
      refine hsofar.trans ((frame_visitBytes hstore ?_ hbytes).mono ?_ ?_)
      · rw [Cpu.root, halong.kept hstore]
        rfl
      · rintro x ⟨l, hl, hmoved, h⟩
        exact ⟨_, l, by omega, ⟨hvisits l hl, hmoved⟩, h⟩
      · rintro x ⟨l, hl, h⟩
        exact ⟨_, l, hvisits l hl, h⟩
    · rw [← Nat.add_assoc, hs] at hnone
      cases hnone

/-- A store that traps at the first byte of an element has left nothing of it. -/
theorem wholeElements_of_first (hg : MemoryGroup c operation group)
    (hstore : operation.load = false)
    (h : TrapsAt c packet operation group k 0 trap) :
    WholeElements c packet operation group k
      (Cpu.trapAtElement k trap (c.beforeByte packet operation group k 1)).2 := by
  have halong := along_beforeElement hg h.start (Nat.le_of_lt h.length) h.elements
  refine ⟨fun i l hmoves ↦ ?_, ?_⟩
  · rcases h.visits_le hg hmoves.toVisits with hlt | ⟨rfl, hl⟩
    · exact hlt
    · obtain rfl : l = 0 := Nat.le_zero.1 hl
      exact absurd hmoves h.not_moves
  · refine (frame_visitElements hg hstore h.start (Nat.le_of_lt h.length) h.elements).trans
      ((frame_visitByte hstore ?_ h.bytes).mono ?_ fun x hx ↦ ⟨k, 0, h.toVisits, hx⟩)
    · rw [Cpu.root, visitBytes_state, halong.kept hstore]
      rfl
    · rintro x ⟨hmoved, -⟩
      rw [h.byte] at hmoved
      cases hmoved

/-- A store leaves no byte of the element it traps at if no visit of an element ends after its first
byte. -/
theorem wholeElements_iff (c : Cpu) (packet : InstructionPacket)
    (operation : VectorMemoryOperation) (group : VectorRegisterGroup) (sequentialPc : BitVec 64)
    (hvs : c.state.csrs.vectorStateEnabled = true) (hgroup : c.memoryGroup operation = some group)
    (hstore : operation.load = false) :
    (∀ trap, (c.executeVectorMemory packet operation sequentialPc).1.trap = some trap →
        WholeElements c packet operation group
          (c.executeVectorMemory packet operation sequentialPc).2.state.csrs.vstart.toNat
          (c.executeVectorMemory packet operation sequentialPc).2) ↔
      ∀ k, c.state.csrs.vstart.toNat ≤ k → k < (c.state.csrs.readValue .vl).toNat →
        c.state.laneActive operation.masked k = true →
        (c.visitElements packet operation group k).1 = none →
        (c.visitBytes packet operation group k 1).1 = none →
          (c.visitBytes packet operation group k (operation.elementWidthBits / 8)).1 = none := by
  have hg := memoryGroup_eq_some hgroup
  have hlength := hg.length_le
  constructor
  · intro hwhole k hk hk' hactive helements hfirst
    by_contra htorn
    obtain ⟨trap, htrap⟩ := Option.ne_none_iff_exists'.1 htorn
    obtain ⟨j, -, hj, hbytes, hbyte⟩ := forElements_exit_at htrap
    have hat : TrapsAt c packet operation group k j trap := by
      refine ⟨⟨hk, hk', hactive, helements, hj, hbytes⟩, ?_⟩
      rw [visitBytes_succ hbytes]
      exact (congrArg Prod.fst hbyte).trans htrap
    have hafter : c.executeVectorMemory packet operation sequentialPc = _ :=
      hat.execute_eq hvs hgroup
    rw [hafter, vstart_trapAtElement (by omega)] at hwhole
    have hmoves : Moves c packet operation group k 0 :=
      ⟨⟨hk, hk', hactive, helements, by omega, rfl⟩, hfirst⟩
    exact Nat.lt_irrefl k ((hwhole trap rfl).whole k 0 hmoves)
  · intro hnone trap htrap
    obtain ⟨k, j, hat⟩ := trapsAt_of_execute hvs hgroup htrap
    have hfirst : j = 0 := by
      by_contra hj
      have hbytes : (c.visitBytes packet operation group k 1).1 = none :=
        forElements_before (Nat.zero_le _) (Nat.one_le_iff_ne_zero.2 hj) hat.bytes
      have hall := hnone k hat.start hat.length hat.active hat.elements hbytes
      rw [hat.visitBytes_eq, hat.byte] at hall
      cases hall
    subst hfirst
    have hk := hat.length
    rw [hat.execute_eq hvs hgroup, vstart_trapAtElement (by omega)]
    exact wholeElements_of_first hg hstore hat

end Frames

end Rvemu
