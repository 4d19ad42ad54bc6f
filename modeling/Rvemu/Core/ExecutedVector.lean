import Rvemu.Core.CsrLemmas
import Rvemu.Core.Executed

/-!
# The outcome of the vector executors

The element loops are handled by three rules about `forElements`: an invariant of the body is an
invariant of the loop, an exit of the loop is an exit of the body, and a loop whose body never exits
does not exit.  The last one, with `locate_isSome`, is why the early returns of the arithmetic loops
cannot be taken.
-/

set_option autoImplicit false

namespace Rvemu

open Relation

/-! ## Rules for element loops -/

section Loops

variable {σ ε : Type} {body tail : σ → ℕ → Option ε × σ}

theorem forElements_preserves {I : σ → Prop} (hbody : ∀ s e, I s → I (body s e).2) (l : List ℕ)
    {s : σ} (h : I s) : I (forElements body l s).2 := by
  induction l generalizing s with
  | nil => exact h
  | cons e l ih =>
    rw [forElements]
    have hs := hbody s e h
    cases (body s e).1 with
    | some exit => exact hs
    | none => exact ih hs

theorem forElements_exit {J : ε → Prop} (hbody : ∀ s e x, (body s e).1 = some x → J x)
    (l : List ℕ) {s : σ} {x : ε} (h : (forElements body l s).1 = some x) : J x := by
  induction l generalizing s with
  | nil => cases h
  | cons e l ih =>
    rw [forElements] at h
    cases hb : (body s e).1 with
    | some exit =>
      rw [hb] at h
      obtain rfl := Option.some.inj h
      exact hbody s e _ hb
    | none =>
      rw [hb] at h
      exact ih h

theorem forElements_none {l : List ℕ} (hbody : ∀ s, ∀ e ∈ l, (body s e).1 = none) (s : σ) :
    (forElements body l s).1 = none := by
  induction l generalizing s with
  | nil => rfl
  | cons e l ih =>
    rw [forElements, hbody s e List.mem_cons_self]
    exact ih (fun s e he ↦ hbody s e (List.mem_cons_of_mem _ he)) _

variable {start vl vlmax : ℕ} {agnostic : Bool}

theorem runElements_preserves {I : σ → Prop} (hbody : ∀ s e, I s → I (body s e).2)
    (htail : ∀ s e, I s → I (tail s e).2) {s : σ} (h : I s) :
    I (runElements body tail start vl vlmax agnostic s).2 := by
  rw [runElements]
  split
  · dsimp only
    split
    · exact forElements_preserves hbody _ h
    · exact forElements_preserves htail _ (forElements_preserves hbody _ h)
  · exact h

theorem runElements_exit {J : ε → Prop} (hbody : ∀ s e x, (body s e).1 = some x → J x)
    (htail : ∀ s e x, (tail s e).1 = some x → J x) {s : σ} {x : ε}
    (h : (runElements body tail start vl vlmax agnostic s).1 = some x) : J x := by
  rw [runElements] at h
  split at h
  · dsimp only at h
    split at h
    · exact forElements_exit hbody _ h
    · exact forElements_exit htail _ h
  · cases h

theorem mem_elementsFrom {first last e : ℕ} (h : e ∈ elementsFrom first last) : e < last := by
  rw [elementsFrom, List.mem_range'_1] at h
  omega

/-- When neither body nor tail exits below VLMAX, the traversal does not. -/
theorem runElements_none (hvl : vl ≤ vlmax) (hbody : ∀ s e, e < vlmax → (body s e).1 = none)
    (htail : ∀ s e, e < vlmax → (tail s e).1 = none) (s : σ) :
    (runElements body tail start vl vlmax agnostic s).1 = none := by
  rw [runElements]
  split
  · have hb := forElements_none (l := elementsFrom start vl)
      (fun s e he ↦ hbody s e (Nat.lt_of_lt_of_le (mem_elementsFrom he) hvl)) s
    dsimp only
    split
    · exact hb
    · exact forElements_none (fun s e he ↦ htail s e (mem_elementsFrom he)) _
  · rfl

/-- An assertion about the element that comes next, kept by every element. -/
theorem forElements_range {I : ℕ → σ → Prop} {first last : ℕ} (hle : first ≤ last)
    (hbody : ∀ i s, first ≤ i → i < last → I i s → (body s i).1 = none ∧ I (i + 1) (body s i).2)
    {s : σ} (h : I first s) :
    (forElements body (elementsFrom first last) s).1 = none ∧
      I last (forElements body (elementsFrom first last) s).2 := by
  obtain ⟨n, rfl⟩ := Nat.exists_eq_add_of_le hle
  rw [elementsFrom, Nat.add_sub_cancel_left]
  clear hle
  induction n generalizing first s with
  | zero => exact ⟨rfl, h⟩
  | succ n ih =>
    obtain ⟨hnone, hnext⟩ := hbody first s (Nat.le_refl _) (by omega) h
    rw [List.range'_succ, forElements, hnone]
    have hlast : first + (n + 1) = first + 1 + n := by omega
    rw [hlast] at hbody ⊢
    exact ih hnext fun i s hi hi' ↦ hbody i s (by omega) hi'

theorem forElements_append (l l' : List ℕ) {s : σ} (h : (forElements body l s).1 = none) :
    forElements body (l ++ l') s = forElements body l' (forElements body l s).2 := by
  induction l generalizing s with
  | nil => rfl
  | cons e l ih =>
    rw [forElements] at h
    rw [List.cons_append, forElements, forElements]
    cases hbody : (body s e).1 with
    | some exit =>
      rw [hbody] at h
      cases h
    | none =>
      rw [hbody] at h
      exact ih h

theorem forElements_append_exit (l l' : List ℕ) {s : σ} {x : ε}
    (h : (forElements body l s).1 = some x) :
    forElements body (l ++ l') s = forElements body l s := by
  induction l generalizing s with
  | nil => cases h
  | cons e l ih =>
    rw [forElements] at h
    rw [List.cons_append, forElements, forElements]
    cases hbody : (body s e).1 with
    | some exit => rfl
    | none =>
      rw [hbody] at h
      exact ih h

theorem elementsFrom_split {first i last : ℕ} (h : first ≤ i) (h' : i ≤ last) :
    elementsFrom first last = elementsFrom first i ++ elementsFrom i last := by
  have happend : List.range' first (i - first) ++
      List.range' (first + (i - first)) (last - i) = _ :=
    List.range'_append_1
  rw [elementsFrom, elementsFrom, elementsFrom, ← Nat.sub_add_sub_cancel h' h, Nat.add_comm,
    ← happend,
    Nat.add_sub_cancel' h]

/-- The element after those that were visited. -/
theorem forElements_succ {first i : ℕ} (hle : first ≤ i) {s : σ}
    (h : (forElements body (elementsFrom first i) s).1 = none) :
    forElements body (elementsFrom first (i + 1)) s =
      body (forElements body (elementsFrom first i) s).2 i := by
  rw [elementsFrom_split hle (Nat.le_succ i), forElements_append _ _ h, elementsFrom,
    Nat.succ_sub (Nat.le_refl i), Nat.sub_self]
  generalize (forElements body (elementsFrom first i) s).2 = t
  rw [List.range'_one, forElements]
  rcases hbody : body t i with ⟨_ | exit, t'⟩ <;> rfl

theorem forElements_before {first i last : ℕ} (hle : first ≤ i) (hlast : i ≤ last) {s : σ}
    (h : (forElements body (elementsFrom first last) s).1 = none) :
    (forElements body (elementsFrom first i) s).1 = none := by
  by_contra hne
  obtain ⟨x, hx⟩ := Option.ne_none_iff_exists'.1 hne
  rw [elementsFrom_split hle hlast, forElements_append_exit _ _ hx, hx] at h
  cases h

/-- An exit at an element is the exit of the loop. -/
theorem forElements_of_exit {first k last : ℕ} (hle : first ≤ k) (hlt : k < last) {s : σ} {x : ε}
    (hnone : (forElements body (elementsFrom first k) s).1 = none)
    (hexit : (body (forElements body (elementsFrom first k) s).2 k).1 = some x) :
    forElements body (elementsFrom first last) s =
      body (forElements body (elementsFrom first k) s).2 k := by
  rw [← forElements_succ hle hnone] at hexit ⊢
  rw [elementsFrom_split (Nat.le_succ_of_le hle) hlt, forElements_append_exit _ _ hexit]

/-- The exit of a loop is the exit at one of its elements. -/
theorem forElements_exit_at {first last : ℕ} {s : σ} {x : ε}
    (h : (forElements body (elementsFrom first last) s).1 = some x) :
    ∃ k, first ≤ k ∧ k < last ∧ (forElements body (elementsFrom first k) s).1 = none ∧
      body (forElements body (elementsFrom first k) s).2 k =
        forElements body (elementsFrom first last) s := by
  rcases Nat.le_total last first with hle | hle
  · rw [elementsFrom, Nat.sub_eq_zero_of_le hle] at h
    cases h
  obtain ⟨n, rfl⟩ := Nat.exists_eq_add_of_le hle
  clear hle
  induction n with
  | zero =>
    rw [elementsFrom, Nat.add_zero, Nat.sub_self] at h
    cases h
  | succ n ih =>
    cases hn : (forElements body (elementsFrom first (first + n)) s).1 with
    | none =>
      exact ⟨first + n, by omega, by omega, hn, (forElements_succ (by omega) hn).symm⟩
    | some y =>
      have hlong : forElements body (elementsFrom first (first + (n + 1))) s =
          forElements body (elementsFrom first (first + n)) s := by
        rw [elementsFrom_split (Nat.le_add_right first n)
          (Nat.add_le_add_left (Nat.le_succ n) first),
          forElements_append_exit _ _ hn]
      rw [hlong] at h
      obtain ⟨k, hk, hk', hnone, hat⟩ := ih h
      exact ⟨k, hk, by omega, hnone, hat.trans hlong.symm⟩

theorem runElements_range {I : ℕ → σ → Prop} (hstart : start < vl) (hvl : vl ≤ vlmax)
    (hbody : ∀ i s, start ≤ i → i < vl → I i s → (body s i).1 = none ∧ I (i + 1) (body s i).2)
    (htail : ∀ i s, vl ≤ i → i < vlmax → I i s → (tail s i).1 = none ∧ I (i + 1) (tail s i).2)
    {s : σ} (h : I start s) :
    (runElements body tail start vl vlmax agnostic s).1 = none ∧
      I (if agnostic then vlmax else vl) (runElements body tail start vl vlmax agnostic s).2 := by
  obtain ⟨hnone, hvisited⟩ := forElements_range (Nat.le_of_lt hstart) hbody h
  rw [runElements, if_pos hstart]
  dsimp only
  rw [hnone]
  cases agnostic with
  | false => exact ⟨hnone, hvisited⟩
  | true => exact forElements_range hvl htail hvisited

end Loops

/-! ## Elements -/

/-- The hart `s` was reached from `s₀` by updates, with the vector state still enabled. -/
def VectorReach (s₀ s : CpuState) : Prop :=
  Updates s₀ s ∧ s.csrs.vectorStateEnabled = true

section Elements

variable {packet : InstructionPacket} {s₀ s : CpuState} {group : VectorRegisterGroup}

theorem setVectorElement_eq_some {index : ℕ} {value : BitVec 64} {s' : CpuState}
    (h : s.setVectorElement group index value = some s') :
    ∃ v, group.writeElement s.vectorState index value = some v ∧
      s' = { s with vectorState := v, csrs := s.csrs.markVectorStateDirty } := by
  rw [CpuState.setVectorElement, Option.map_eq_some_iff] at h
  obtain ⟨v, hv, hs⟩ := h
  exact ⟨v, hv, hs.symm⟩

theorem VectorReach.putElement (h : VectorReach s₀ s) (value : BitVec 64) (element : ℕ) :
    VectorReach s₀ (s.putElement packet group value element).2 := by
  rw [CpuState.putElement]
  split
  · exact h
  · next s' hs =>
    refine ⟨h.1.tail (.element h.2 hs), ?_⟩
    obtain ⟨v, -, rfl⟩ := setVectorElement_eq_some hs
    rw [CsrFile.vectorStateEnabled_markVectorStateDirty]
    exact h.2

theorem VectorReach.skipElement (h : VectorReach s₀ s) (fill : Bool) (value : BitVec 64)
    (element : ℕ) : VectorReach s₀ (s.skipElement packet group fill value element).2 := by
  rw [CpuState.skipElement]
  split
  · exact h.putElement value element
  · exact h

theorem VectorReach.accrueFlags (h : VectorReach s₀ s) (flags : BitVec 8) :
    VectorReach s₀ (s.accrueFlags flags) :=
  ⟨h.1.tail (.flags flags),
    (CsrFile.vectorStateEnabled_accrueFloatingExceptionFlags _ _).trans h.2⟩

theorem putElement_exit {value : BitVec 64} {element : ℕ} {trap : Trap}
    (h : (s.putElement packet group value element).1 = some trap) : TrapOf packet trap := by
  rw [CpuState.putElement] at h
  split at h
  · obtain rfl := Option.some.inj h
    exact trapOf_illegalTrap packet
  · cases h

theorem skipElement_exit {fill : Bool} {value : BitVec 64} {element : ℕ} {trap : Trap}
    (h : (s.skipElement packet group fill value element).1 = some trap) : TrapOf packet trap := by
  rw [CpuState.skipElement] at h
  split at h
  · exact putElement_exit h
  · cases h

theorem putElement_none {element : ℕ} (h : (group.locate element).isSome = true)
    (s : CpuState) (value : BitVec 64) : (s.putElement packet group value element).1 = none := by
  obtain ⟨location, hl⟩ := Option.isSome_iff_exists.1 h
  rw [CpuState.putElement, CpuState.setVectorElement, VectorRegisterGroup.writeElement, hl]
  rfl

theorem skipElement_none {element : ℕ} (h : (group.locate element).isSome = true)
    (s : CpuState) (fill : Bool) (value : BitVec 64) :
    (s.skipElement packet group fill value element).1 = none := by
  rw [CpuState.skipElement]
  split
  · exact putElement_none h s value
  · rfl

theorem vectorElement_isSome {element : ℕ} (h : (group.locate element).isSome = true)
    (s : CpuState) : ∃ v, s.vectorElement group element = some v := by
  obtain ⟨location, hl⟩ := Option.isSome_iff_exists.1 h
  exact ⟨_, by rw [CpuState.vectorElement, VectorRegisterGroup.readElement, hl, Option.map_some]⟩

end Elements

/-! ## Arithmetic -/

section Arithmetic

variable {packet : InstructionPacket} {vtype : BitVec 64} {configuration : VectorConfiguration}
  {destination source2 : VectorRegisterGroup} {source1 : Option VectorRegisterGroup}

theorem VectorReach.integerElement {s₀ s : CpuState} (h : VectorReach s₀ s)
    (instruction : VectorIntegerInstruction) (element : ℕ) :
    VectorReach s₀ (CpuState.integerElement packet instruction vtype configuration destination
      source2 source1 s element).2 := by
  rw [CpuState.integerElement]
  split
  · exact h.skipElement _ _ _
  · split
    · exact h.putElement _ _
    · exact h

theorem VectorReach.floatingElement {s₀ : CpuState} {s : CpuState × BitVec 8}
    (h : VectorReach s₀ s.1) (instruction : VectorFloatingInstruction) (format : FloatingFormat)
    (rounding : FloatingRoundingMode) (agnostic : BitVec 64) (element : ℕ) :
    VectorReach s₀ (CpuState.floatingElement packet instruction vtype format rounding agnostic
      destination source2 source1 s element).2.1 := by
  rw [CpuState.floatingElement]
  split
  · exact h.skipElement _ _ _
  · split
    · exact h.putElement _ _
    · exact h

/-- The groups an arithmetic instruction works on, when it gets that far. -/
structure ArithmeticGroups (configuration : VectorConfiguration)
    (destination source2 : VectorRegisterGroup) (source1 : Option VectorRegisterGroup)
    (vectorVector : Bool) : Prop where
  destination : destination.configuration = configuration
  source2 : source2.configuration = configuration
  source1 : vectorVector = true → ∃ g, source1 = some g ∧ g.configuration = configuration
  valid : configuration.valid = true

theorem arithmeticGroups_eq_some {rd rs2 rs1 : BitVec 5} {vectorVector : Bool}
    (h : Cpu.arithmeticGroups configuration rd rs2 rs1 vectorVector =
      some (destination, source2, source1)) :
    ArithmeticGroups configuration destination source2 source1 vectorVector := by
  rw [Cpu.arithmeticGroups] at h
  simp only [Option.bind_eq_bind, Option.bind_eq_some_iff] at h
  obtain ⟨d, hd, g2, h2, h⟩ := h
  obtain ⟨hdc, hv⟩ := VectorRegisterGroup.configuration_create hd
  have h2c := (VectorRegisterGroup.configuration_create h2).1
  split at h
  · obtain ⟨g1, h1, h⟩ := Option.bind_eq_some_iff.1 h
    simp only [Option.some.injEq, Prod.mk.injEq] at h
    obtain ⟨rfl, rfl, rfl⟩ := h
    exact ⟨hdc, h2c, fun _ ↦ ⟨g1, rfl, (VectorRegisterGroup.configuration_create h1).1⟩, hv⟩
  · next hvv =>
    simp only [Option.some.injEq, Prod.mk.injEq] at h
    obtain ⟨rfl, rfl, rfl⟩ := h
    exact ⟨hdc, h2c, fun hc ↦ absurd hc hvv, hv⟩

/-- Every element below VLMAX of a group of a legal configuration can be located. -/
theorem locate_of_configuration {g : VectorRegisterGroup} (hl : configuration.Legal)
    (hc : g.configuration = configuration) {element : ℕ} (he : element < configuration.vlmax) :
    (g.locate element).isSome = true := by
  subst hc
  exact VectorRegisterGroup.locate_isSome hl he

/-- **No early exit from the integer loop** once the groups exist and the element is below VLMAX. -/
theorem integerElement_none {instruction : VectorIntegerInstruction}
    (hg : ArithmeticGroups configuration destination source2 source1
      (instruction.form == .vectorVector))
    (hl : configuration.Legal) (s : CpuState) {element : ℕ} (he : element < configuration.vlmax) :
    (CpuState.integerElement packet instruction vtype configuration destination source2 source1 s
      element).1 = none := by
  have hd := locate_of_configuration hl hg.destination he
  rw [CpuState.integerElement]
  split
  · exact skipElement_none hd _ _ _
  · obtain ⟨lhs, hlhs⟩ := vectorElement_isSome (locate_of_configuration hl hg.source2 he) s
    have hrhs : ∃ rhs, s.integerOperand instruction configuration.sewBits source1 element =
        some rhs := by
      rw [CpuState.integerOperand]
      cases hf : instruction.form with
      | vectorVector =>
        obtain ⟨g, rfl, hgc⟩ := hg.source1 (by rw [hf]; rfl)
        exact vectorElement_isSome (locate_of_configuration hl hgc he) s
      | vectorScalar => exact ⟨_, rfl⟩
      | vectorImmediate => exact ⟨_, rfl⟩
    obtain ⟨rhs, hrhs⟩ := hrhs
    rw [hlhs, hrhs]
    exact putElement_none hd _ _

/-- **No early exit from the floating loop.** -/
theorem floatingElement_none {instruction : VectorFloatingInstruction} {format : FloatingFormat}
    {rounding : FloatingRoundingMode} {agnostic : BitVec 64}
    (hg : ArithmeticGroups configuration destination source2 source1
      (instruction.form == .vectorVector))
    (hl : configuration.Legal) (s : CpuState × BitVec 8) {element : ℕ}
    (he : element < configuration.vlmax) :
    (CpuState.floatingElement packet instruction vtype format rounding agnostic destination source2
      source1 s element).1 = none := by
  have hd := locate_of_configuration hl hg.destination he
  rw [CpuState.floatingElement]
  split
  · exact skipElement_none hd _ _ _
  · obtain ⟨lhs, hlhs⟩ := vectorElement_isSome (locate_of_configuration hl hg.source2 he) s.1
    have hrhs : ∃ rhs, s.1.floatingOperand instruction source1 element = some rhs := by
      rw [CpuState.floatingOperand]
      cases hf : instruction.form with
      | vectorVector =>
        obtain ⟨g, rfl, hgc⟩ := hg.source1 (by rw [hf]; rfl)
        exact vectorElement_isSome (locate_of_configuration hl hgc he) s.1
      | vectorScalarFloating => exact ⟨_, rfl⟩
    obtain ⟨rhs, hrhs⟩ := hrhs
    rw [hlhs, hrhs]
    exact putElement_none hd _ _

end Arithmetic

namespace Executed

variable {packet : InstructionPacket} {c : Cpu}

/-- A vector instruction whose elements all succeeded. -/
theorem finishVector_none {sequentialPc : BitVec 64} (hseq : sequentialPc.getLsbD 0 = false)
    {r : Option Trap × Cpu} (hr : r.1 = none) (h : VectorReach c.state r.2.state) :
    Executed packet c (Cpu.finishVector packet sequentialPc r) := by
  obtain ⟨exit, c'⟩ := r
  obtain rfl : exit = none := hr
  exact retire (d := c'.modifyState (·.modifyCsrs (·.clearVectorStartAfterInstruction)))
    (h.1.tail (.clearStart h.2)) hseq

theorem executeVectorInteger {sequentialPc : BitVec 64} (hseq : sequentialPc.getLsbD 0 = false)
    (instruction : VectorIntegerInstruction) :
    Executed packet c (c.executeVectorInteger packet instruction sequentialPc) := by
  rw [Cpu.executeVectorInteger]
  split
  · exact illegal packet c
  · next hvs =>
    have hon : c.state.csrs.vectorStateEnabled = true := by simpa using hvs
    dsimp only
    split
    · exact illegal packet c
    · next destination source2 source1 hgroups =>
      have hg := arithmeticGroups_eq_some hgroups
      have hl := (legal_of_valid hg.valid).1
      split
      · exact illegal packet c
      · next hchecks =>
        rw [Bool.not_eq_true, Bool.or_eq_false_iff, decide_eq_false_iff_not, Nat.not_lt] at hchecks
        refine finishVector_none hseq ?_ ?_
        · exact runElements_none hchecks.2 (fun s e he ↦ integerElement_none hg hl s he)
            (fun s e he ↦ putElement_none (locate_of_configuration hl hg.destination he) s _) _
        · exact runElements_preserves (I := VectorReach c.state)
            (fun s e h ↦ h.integerElement instruction e) (fun s e h ↦ h.putElement _ e)
            ⟨ReflTransGen.refl, hon⟩

theorem executeVectorFloating {sequentialPc : BitVec 64} (hseq : sequentialPc.getLsbD 0 = false)
    (instruction : VectorFloatingInstruction) :
    Executed packet c (c.executeVectorFloating packet instruction sequentialPc) := by
  rw [Cpu.executeVectorFloating]
  split
  · exact illegal packet c
  · next hvs =>
    rw [Bool.not_eq_true, Bool.or_eq_false_iff, Bool.not_eq_false', Bool.not_eq_false'] at hvs
    dsimp only
    split
    · exact illegal packet c
    split
    · next destination source2 source1 rounding hgroups _ =>
      have hg := arithmeticGroups_eq_some hgroups
      have hl := (legal_of_valid hg.valid).1
      split
      · exact illegal packet c
      · next hchecks =>
        rw [Bool.not_eq_true, Bool.or_eq_false_iff, decide_eq_false_iff_not, Nat.not_lt] at hchecks
        generalize hrun : runElements _ _ _ _ _ _ _ = run
        have hnone : run.1 = none := by
          rw [← hrun]
          exact runElements_none hchecks.2 (fun s e he ↦ floatingElement_none hg hl s he)
            (fun s e he ↦ putElement_none (locate_of_configuration hl hg.destination he) s.1 _) _
        have hreach : VectorReach c.state run.2.1 := by
          rw [← hrun]
          exact runElements_preserves (I := fun s : CpuState × BitVec 8 ↦ VectorReach c.state s.1)
            (fun s e h ↦ h.floatingElement instruction _ _ _ e) (fun s e h ↦ h.putElement _ e)
            (show VectorReach c.state c.state from ⟨ReflTransGen.refl, hvs.1⟩)
        obtain ⟨exit, s, flags⟩ := run
        obtain rfl : exit = none := hnone
        exact finishVector_none (r := (none, { c with state := s.accrueFlags flags })) hseq rfl
          (hreach.accrueFlags flags)
    · exact illegal packet c

/-! ## Configuration -/

theorem executeVectorConfiguration {sequentialPc : BitVec 64}
    (hseq : sequentialPc.getLsbD 0 = false) (instruction : DecodedInstruction) :
    Executed packet c (c.executeVectorConfiguration packet instruction sequentialPc) := by
  rw [Cpu.executeVectorConfiguration]
  split
  · exact illegal packet c
  · next hvs =>
    have hon : c.state.csrs.vectorStateEnabled = true := by
      rw [not_or] at hvs
      simpa using hvs.2
    have hcommit : ∀ vtype vl, Committable c.state.csrs vtype vl →
        Updates c.state (c.commitConfiguration vtype vl).state :=
      fun vtype vl hc ↦ (Update.configuration hon hc).single
    dsimp only
    split
    · exact illegal packet c
    · next requested _ =>
      split
      · exact illegal packet c
      · next hkeep =>
        simp only [canPreserveVectorLength, Bool.not_eq_true, Bool.not_eq_false',
          Bool.and_eq_true, beq_iff_eq] at hkeep
        obtain ⟨⟨hprev, hreq⟩, hsame⟩ := hkeep
        rw [(legal_of_valid hreq).2]
        exact retire (hcommit _ _ (Or.inr (Or.inr ⟨hprev, hreq, hsame, rfl⟩))) hseq
    · next requested avl _ =>
      split
      · next hvalid =>
        rw [(legal_of_valid hvalid).2]
        refine writeAndRetire (hcommit _ _ (Or.inr (Or.inl ⟨hvalid, ?_⟩))) _ _ hseq
        exact selectVectorLength_le avl (legal_of_valid hvalid).1.vlmax_le
      · exact writeAndRetire (hcommit _ _ (Or.inl ⟨rfl, rfl⟩)) _ _ hseq

/-! ## Memory -/

/-- What a loop over elements of a vector access keeps on leaving with a trap. -/
theorem finishVector_memory {sequentialPc : BitVec 64} (hseq : sequentialPc.getLsbD 0 = false)
    (hv : isVectorMemory packet.bits = true) {r : Option Trap × Cpu}
    (hexit : ∀ t, r.1 = some t → TrapOf packet t) (h : VectorReach c.state r.2.state) :
    Executed packet c (Cpu.finishVector packet sequentialPc r) := by
  cases hr : r.1 with
  | none => exact finishVector_none hseq hr h
  | some trap =>
    obtain ⟨exit, c'⟩ := r
    obtain rfl : exit = some trap := hr
    exact interrupted hv (hexit trap rfl) h.1

end Executed

section VectorMemory

variable {packet : InstructionPacket} {s₀ : CpuState} {c : Cpu} {address : BitVec 64}
  {transferBytes : ℕ}

/-- Reading the bytes of an element leaves the hart alone. -/
theorem loadBytes_state (packet : InstructionPacket) (address : BitVec 64) (transferBytes : ℕ)
    (c : Cpu) :
    (Cpu.loadBytes packet address transferBytes c).2.2.state = c.state := by
  rw [Cpu.loadBytes]
  refine forElements_preserves (I := fun s : BitVec 64 × Cpu ↦ s.2.state = c.state) ?_ _ rfl
  intro s byte hs
  exact (accessed_guestRead s.2 packet _ .byte .load .load).state.trans hs

theorem loadBytes_exit {trap : Trap}
    (h : (Cpu.loadBytes packet address transferBytes c).1 = some trap) : TrapOf packet trap := by
  rw [Cpu.loadBytes] at h
  refine forElements_exit (J := TrapOf packet) ?_ _ h
  intro s byte t ht
  exact ((accessed_guestRead s.2 packet _ .byte .load .load).trap t ht).1

theorem storeBytes_state (packet : InstructionPacket) (address value : BitVec 64)
    (transferBytes : ℕ) (c : Cpu) :
    (Cpu.storeBytes packet address value transferBytes c).2.state = c.state := by
  rw [Cpu.storeBytes]
  refine forElements_preserves (I := fun s : Cpu ↦ s.state = c.state) ?_ _ rfl
  intro s byte hs
  exact (accessed_guestWrite s packet _ .byte _ .store).state.trans hs

theorem storeBytes_exit {value : BitVec 64} {trap : Trap}
    (h : (Cpu.storeBytes packet address value transferBytes c).1 = some trap) :
    TrapOf packet trap := by
  rw [Cpu.storeBytes] at h
  refine forElements_exit (J := TrapOf packet) ?_ _ h
  intro s byte t ht
  exact ((accessed_guestWrite s packet _ .byte _ .store).trap t ht).1

theorem VectorReach.trapAtElement (h : VectorReach s₀ c.state) (element : ℕ) (trap : Trap) :
    VectorReach s₀ (Cpu.trapAtElement element trap c).2.state := by
  refine ⟨h.1.tail (.startAt h.2 _), ?_⟩
  exact (CsrFile.vectorStateEnabled_setVectorStartForTrap _ _).trans h.2

theorem VectorReach.loadElement (h : VectorReach s₀ c.state) (group : VectorRegisterGroup)
    (element : ℕ) :
    VectorReach s₀ (Cpu.loadElement packet group address transferBytes c element).2.state := by
  have hstate := loadBytes_state packet address transferBytes c
  rw [← hstate] at h
  rw [Cpu.loadElement]
  split
  · exact h.trapAtElement element _
  · exact h.putElement _ element

theorem VectorReach.storeElement (h : VectorReach s₀ c.state) (group : VectorRegisterGroup)
    (element : ℕ) :
    VectorReach s₀ (Cpu.storeElement packet group address transferBytes c element).2.state := by
  rw [Cpu.storeElement]
  split
  · exact h
  · next value _ =>
    rw [← storeBytes_state packet address value transferBytes c] at h
    dsimp only
    split
    · exact h.trapAtElement element _
    · exact h

theorem VectorReach.memoryElement (h : VectorReach s₀ c.state) (operation : VectorMemoryOperation)
    (vtype : BitVec 64) (group : VectorRegisterGroup) (base stride : BitVec 64) (element : ℕ) :
    VectorReach s₀
      (Cpu.memoryElement packet operation vtype group base stride c element).2.state := by
  rw [Cpu.memoryElement]
  split
  · exact h.skipElement _ _ _
  · dsimp only
    split
    · exact h.loadElement group element
    · exact h.storeElement group element

theorem loadElement_exit {group : VectorRegisterGroup} {element : ℕ} {trap : Trap}
    (h : (Cpu.loadElement packet group address transferBytes c element).1 = some trap) :
    TrapOf packet trap := by
  rw [Cpu.loadElement] at h
  split at h
  · next t ht =>
    obtain rfl := Option.some.inj h
    exact loadBytes_exit ht
  · exact putElement_exit h

theorem storeElement_exit {group : VectorRegisterGroup} {element : ℕ} {trap : Trap}
    (h : (Cpu.storeElement packet group address transferBytes c element).1 = some trap) :
    TrapOf packet trap := by
  rw [Cpu.storeElement] at h
  split at h
  · obtain rfl := Option.some.inj h
    exact trapOf_illegalTrap packet
  · dsimp only at h
    split at h
    · next t ht =>
      obtain rfl := Option.some.inj h
      exact storeBytes_exit ht
    · cases h

theorem memoryElement_exit {operation : VectorMemoryOperation} {vtype : BitVec 64}
    {group : VectorRegisterGroup} {base stride : BitVec 64} {element : ℕ} {trap : Trap}
    (h : (Cpu.memoryElement packet operation vtype group base stride c element).1 = some trap) :
    TrapOf packet trap := by
  rw [Cpu.memoryElement] at h
  split at h
  · exact skipElement_exit h
  · dsimp only at h
    split at h
    · exact loadElement_exit h
    · exact storeElement_exit h

end VectorMemory

namespace Executed

variable {packet : InstructionPacket} {c : Cpu}

theorem executeVectorMemory {sequentialPc : BitVec 64} (hseq : sequentialPc.getLsbD 0 = false)
    (hv : isVectorMemory packet.bits = true) (operation : VectorMemoryOperation) :
    Executed packet c (c.executeVectorMemory packet operation sequentialPc) := by
  rw [Cpu.executeVectorMemory]
  split
  · exact illegal packet c
  · next hvs =>
    have hon : c.state.csrs.vectorStateEnabled = true := by simpa using hvs
    split
    · exact illegal packet c
    · next group _ =>
      refine finishVector_memory hseq hv (fun t ht ↦ ?_) ?_
      · exact runElements_exit (J := TrapOf packet) (fun s e x hx ↦ memoryElement_exit hx)
          (fun s e x hx ↦ putElement_exit hx) ht
      · exact runElements_preserves (I := fun s : Cpu ↦ VectorReach c.state s.state)
          (fun s e h ↦ h.memoryElement _ _ _ _ _ e) (fun s e h ↦ h.putElement _ e)
          ⟨ReflTransGen.refl, hon⟩

end Executed

end Rvemu
