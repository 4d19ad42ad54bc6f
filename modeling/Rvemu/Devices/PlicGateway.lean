import Mathlib.Data.Fin.Basic
import Rvemu.Devices.Plic
import Rvemu.Lib.Runs

/-!
# The gateways of the PLIC

Thirty-one level-triggered sources are claimed and completed by two contexts in any order, while
their lines go up and down.  An observer outside keeps a `Ledger`: the level each line was last
driven to, and the context that a source is in service of, which is the one whose claim read
returned it and that has not completed it since.  The ledger only uses what can be seen from
outside; the invariant says that the controller agrees with it, that nothing is lost and that
nothing is delivered twice.
-/

set_option autoImplicit false

namespace Rvemu

attribute [local instance] Plic.neZero_contexts Plic.neZero_sources

inductive PlicEvent
  | setSourceLevel (source : BitVec 32) (asserted : Bool)
  | read (offset : BitVec 64) (w : AccessWidth)
  | write (offset : BitVec 64) (w : AccessWidth) (value : BitVec 64)
  deriving DecidableEq, Repr

namespace Plic

/-- Reading it claims, writing it completes. -/
def claimOffset (context : Fin 2) : BitVec 64 := contextOffset context + 4#64

/-- The context whose claim register an access addresses. -/
def claimContext (offset : BitVec 64) (w : AccessWidth) : Option (Fin 2) :=
  if w = .word ∧ offset = claimOffset 0 then some 0
  else if w = .word ∧ offset = claimOffset 1 then some 1
  else none

theorem claimContext_eq_some {offset : BitVec 64} {w : AccessWidth} {context : Fin 2}
    (h : claimContext offset w = some context) : w = .word ∧ offset = claimOffset context := by
  rw [claimContext] at h
  split at h
  · cases h
    assumption
  · split at h
    · cases h
      assumption
    · cases h

theorem claimContext_claimOffset (context : Fin 2) :
    claimContext (claimOffset context) .word = some context := by
  match context with
  | 0 => rfl
  | 1 => rfl

theorem claimContext_eq_none {offset : BitVec 64} {w : AccessWidth}
    (h : claimContext offset w = none)
    (hw : w = .word) (context : Fin 2) : offset ≠ claimOffset context := by
  rintro rfl
  rw [hw, claimContext_claimOffset] at h
  cases h

/-! ## What the accesses do -/

/-- The state after a claim read. -/
def claim (p : Plic) (context : Fin 2) : Plic :=
  if p.select context ≠ 0 then
    { p with
      pending := Function.update p.pending (p.select context) false
      claimedBy := Function.update p.claimedBy (p.select context)
        (BitVec.ofNat 8 (context.val + 1)) }
  else p

/-- The state after a completion. -/
def complete (p : Plic) (context : Fin 2) (source : BitVec 32) : Plic :=
  if h : 0 < source.toNat ∧ source.toNat ≤ 31 then
    let s : Fin 32 := ⟨source.toNat, by omega⟩
    if p.claimedBy s = BitVec.ofNat 8 (context.val + 1) then
      { p with
        claimedBy := Function.update p.claimedBy s 0#8
        pending := Function.update p.pending s (p.level s) }
    else p
  else p

theorem read_claim (p : Plic) (context : Fin 2) :
    p.read (claimOffset context) .word =
      (.success (BitVec.ofNat 64 (p.select context).val), p.claim context) := by
  match context with
  | 0 => rfl
  | 1 => rfl

theorem write_complete (p : Plic) (context : Fin 2) (value : BitVec 64) :
    (p.write (claimOffset context) .word value).2 = p.complete context (value.setWidth 32) := by
  have hwrite : (p.write (claimOffset context) .word value).2 =
      ((p.writeContext 0 (claimOffset context) value).orElse fun _ ↦
        p.writeContext 1 (claimOffset context) value).getD p := by
    match context with
    | 0 => rfl
    | 1 => rfl
  rw [hwrite]
  match context with
  | 0 =>
    have hcontext : p.writeContext 0 (claimOffset 0) value =
        some (p.complete 0 (value.setWidth 32)) := by
      rw [writeContext, if_neg (by decide), if_neg (by decide), if_pos (by decide)]
      simp only [complete]
      split
      · split <;> rfl
      · rfl
    rw [hcontext]
    rfl
  | 1 =>
    have hother : p.writeContext 0 (claimOffset 1) value = none := by
      rw [writeContext, if_neg (by decide), if_neg (by decide), if_neg (by decide)]
    have hcontext : p.writeContext 1 (claimOffset 1) value =
        some (p.complete 1 (value.setWidth 32)) := by
      rw [writeContext, if_neg (by decide), if_neg (by decide), if_pos (by decide)]
      simp only [complete]
      split
      · split <;> rfl
      · rfl
    rw [hother, hcontext]
    rfl

/-- A read that is not a claim changes nothing. -/
theorem read_of_not_claim (p : Plic) {offset : BitVec 64} {w : AccessWidth}
    (h : claimContext offset w = none) : (p.read offset w).2 = p := by
  rw [read]
  split
  · rfl
  · next hvalid =>
    have hw : w = .word := by
      by_contra hne
      exact hvalid (Or.inl hne)
    have hcontext (context : Fin 2) (answer : AccessResult × Plic)
        (hread : p.readContext context offset = some answer) : answer.2 = p := by
      rw [readContext] at hread
      split at hread
      · rw [← Option.some.inj hread]
      · split at hread
        · rw [← Option.some.inj hread]
        · split at hread
          · next hoffset => exact absurd hoffset (claimContext_eq_none h hw context)
          · cases hread
    split
    · rfl
    · split
      · rfl
      · cases hzero : p.readContext 0 offset with
        | some answer => exact hcontext 0 answer hzero
        | none =>
          cases hone : p.readContext 1 offset with
          | some answer => exact hcontext 1 answer hone
          | none => rfl

/-- The part of the state the gateways work on. -/
def gateways (p : Plic) : (Fin 32 → Bool) × (Fin 32 → Bool) × (Fin 32 → BitVec 8) :=
  (p.level, p.pending, p.claimedBy)

/-- A write that is not a completion does not touch the gateways. -/
theorem write_of_not_complete (p : Plic) {offset : BitVec 64} {w : AccessWidth}
    (h : claimContext offset w = none) (value : BitVec 64) :
    (p.write offset w value).2.gateways = p.gateways := by
  rw [write]
  split
  · rfl
  · next hvalid =>
    have hw : w = .word := by
      by_contra hne
      exact hvalid (Or.inl hne)
    have hcontext (context : Fin 2) (p' : Plic)
        (hwrite : p.writeContext context offset value = some p') : p'.gateways = p.gateways := by
      rw [writeContext] at hwrite
      split at hwrite
      · rw [← Option.some.inj hwrite]
        rfl
      · split at hwrite
        · rw [← Option.some.inj hwrite]
          rfl
        · split at hwrite
          · next hoffset => exact absurd hoffset (claimContext_eq_none h hw context)
          · cases hwrite
    split
    · rfl
    · cases hzero : p.writeContext 0 offset value with
      | some p' => exact hcontext 0 p' hzero
      | none =>
        cases hone : p.writeContext 1 offset value with
        | some p' => exact hcontext 1 p' hone
        | none => rfl

/-- Only a pending source that is not in service is selected. -/
theorem select_cases (p : Plic) (context : Fin 2) :
    p.select context = 0 ∨ p.pending (p.select context) = true ∧
    p.claimedBy (p.select context) = 0#8
    := by
  -- the loop keeps what holds of the source selected so far
  refine Runs.run_induction (I := fun s ↦ s = 0 ∨ p.pending s = true ∧ p.claimedBy s = 0#8)
    (fun selected source h ↦ ?_) (Or.inl rfl) sources
  dsimp only
  split
  · exact h
  · next hcandidate =>
    split
    · refine Or.inr ?_
      simp only [Bool.or_eq_true, not_or, Bool.not_eq_true', Bool.not_eq_false, bne_iff_ne, ne_eq,
        not_not] at hcandidate
      exact ⟨hcandidate.1.1.1, hcandidate.1.1.2⟩
    · exact h

/-! ### The gateway of one source -/

/-- A context as the controller records it. -/
def contextCode : Option (Fin 2) → BitVec 8
  | none => 0#8
  | some context => BitVec.ofNat 8 (context.val + 1)

theorem contextCode_inj {a b : Option (Fin 2)} : contextCode a = contextCode b ↔ a = b := by
  have hnone : ∀ c : Fin 2, contextCode none ≠ contextCode (some c) := by decide
  have hsome : ∀ c d : Fin 2, contextCode (some c) = contextCode (some d) → c = d := by decide
  refine ⟨fun h ↦ ?_, congrArg _⟩
  cases a with
  | none =>
    cases b with
    | none => rfl
    | some d => exact absurd h (hnone d)
  | some c =>
    cases b with
    | none => exact absurd h.symm (hnone c)
    | some d => rw [hsome c d h]

/-- A source as software and the platform name it. -/
def sourceId (s : Fin 32) : BitVec 32 := BitVec.ofNat 32 s.val

theorem toNat_sourceId (s : Fin 32) : (sourceId s).toNat = s.val := by
  rw [sourceId, BitVec.toNat_ofNat, Nat.mod_eq_of_lt]
  exact Nat.lt_trans s.isLt (by decide)

theorem sourceId_injective {s t : Fin 32} (h : sourceId s = sourceId t) : s = t := by
  have := congrArg BitVec.toNat h
  rw [toNat_sourceId, toNat_sourceId] at this
  exact Fin.ext this

theorem pos_of_ne_zero {s : Fin 32} (hs : s ≠ 0) : 0 < s.val :=
  Nat.pos_of_ne_zero fun hz ↦ hs (Fin.ext hz)

/-- A word names a source, or is out of range. -/
theorem sourceId_cases (source : BitVec 32) :
    (∃ s : Fin 32, s ≠ 0 ∧ source = sourceId s) ∨ (source.toNat = 0 ∨ 31 < source.toNat) := by
  by_cases h : source.toNat = 0 ∨ 31 < source.toNat
  · exact Or.inr h
  · refine Or.inl ⟨⟨source.toNat, by omega⟩, fun hz ↦ h (Or.inl ?_), ?_⟩
    · exact congrArg Fin.val hz
    · exact BitVec.eq_of_toNat_eq (by rw [toNat_sourceId])

theorem not_sourceId {source : BitVec 32} (h : source.toNat = 0 ∨ 31 < source.toNat) {s : Fin 32}
    (hs : s ≠ 0) : source ≠ sourceId s := by
  rintro rfl
  have := s.isLt
  have := pos_of_ne_zero hs
  rw [toNat_sourceId] at h
  omega

theorem setSourceLevel_sourceId (p : Plic) {s : Fin 32} (hs : s ≠ 0) (asserted : Bool) :
    p.setSourceLevel (sourceId s) asserted =
      { p with
        level := Function.update p.level s asserted
        pending := if asserted && p.claimedBy s == 0#8 then Function.update p.pending s true
          else p.pending } := by
  have hfin : (⟨(sourceId s).toNat, by rw [toNat_sourceId]; exact s.isLt⟩ : Fin 32) = s :=
    Fin.ext (toNat_sourceId s)
  have hrange : ¬ ((sourceId s).toNat = 0 ∨ 31 < (sourceId s).toNat) := by
    have := s.isLt
    have := pos_of_ne_zero hs
    rw [toNat_sourceId]
    omega
  rw [setSourceLevel, dif_neg hrange]
  simp only [hfin]

theorem setSourceLevel_of_out {p : Plic} {source : BitVec 32}
    (h : source.toNat = 0 ∨ 31 < source.toNat) (asserted : Bool) :
    p.setSourceLevel source asserted = p := by
  rw [setSourceLevel, dif_pos h]

theorem complete_sourceId (p : Plic) (context : Fin 2) {s : Fin 32} (hs : s ≠ 0) :
    p.complete context (sourceId s) =
      if p.claimedBy s = contextCode (some context) then
        { p with
          claimedBy := Function.update p.claimedBy s 0#8
          pending := Function.update p.pending s (p.level s) }
      else p := by
  have hfin : (⟨(sourceId s).toNat, by rw [toNat_sourceId]; exact s.isLt⟩ : Fin 32) = s :=
    Fin.ext (toNat_sourceId s)
  have hrange : 0 < (sourceId s).toNat ∧ (sourceId s).toNat ≤ 31 := by
    have := s.isLt
    have := pos_of_ne_zero hs
    rw [toNat_sourceId]
    omega
  rw [complete, dif_pos hrange]
  simp only [hfin]
  rfl

theorem complete_of_out {p : Plic} {context : Fin 2} {source : BitVec 32}
    (h : source.toNat = 0 ∨ 31 < source.toNat) : p.complete context source = p := by
  rw [complete, dif_neg (by omega)]

end Plic

/-! ## The ledger -/

/-- The controller, and what an observer of its inputs and outputs knows. -/
structure Ledger where
  plic : Plic := {}
  /-- The level the line was last driven to. -/
  line : Fin 32 → Bool := fun _ ↦ false
  /-- The context that has claimed the source and not completed it. -/
  owner : Fin 32 → Option (Fin 2) := fun _ ↦ none

namespace Ledger

open Plic

/-- Note the answer of a read. -/
def noteRead (r : Ledger) (offset : BitVec 64) (w : AccessWidth) (answer : AccessResult) :
    Fin 32 → Option (Fin 2) :=
  match claimContext offset w with
  | some context => fun s ↦
    if s ≠ 0 ∧ answer.value = (sourceId s).setWidth 64 then some context else r.owner s
  | none => r.owner

/-- Note a write. -/
def noteWrite (r : Ledger) (offset : BitVec 64) (w : AccessWidth) (value : BitVec 64) :
    Fin 32 → Option (Fin 2) :=
  match claimContext offset w with
  | some context => fun s ↦
    if value.setWidth 32 = sourceId s ∧ r.owner s = some context then none else r.owner s
  | none => r.owner

def step (r : Ledger) : PlicEvent → Ledger
  | .setSourceLevel source asserted =>
    { r with
      plic := r.plic.setSourceLevel source asserted
      line := fun s ↦ if s ≠ 0 ∧ source = sourceId s then asserted else r.line s }
  | .read offset w =>
    { r with
      plic := (r.plic.read offset w).2
      owner := r.noteRead offset w (r.plic.read offset w).1 }
  | .write offset w value =>
    { r with
      plic := (r.plic.write offset w value).2
      owner := r.noteWrite offset w value }

/-- The controller agrees with the ledger; no source in service is pending, and no line that is up
is forgotten. -/
structure Agrees (r : Ledger) : Prop where
  level : r.plic.level = r.line
  claimedBy : ∀ s, r.plic.claimedBy s = contextCode (r.owner s)
  idle : r.plic.pending 0 = false ∧ r.line 0 = false ∧ r.owner 0 = none
  notPending : ∀ s, r.owner s ≠ none → r.plic.pending s = false
  served : ∀ s, r.line s = true → r.plic.pending s = true ∨ r.owner s ≠ none

theorem agrees_start : Agrees {} := by
  refine ⟨rfl, fun _ ↦ rfl, ⟨rfl, rfl, rfl⟩, fun _ _ ↦ rfl, fun _ h ↦ ?_⟩
  cases h

variable {r : Ledger}

/-- An event that passes the gateways by. -/
theorem Agrees.congr (h : Agrees r) {r' : Ledger} (hplic : r'.plic.gateways = r.plic.gateways)
    (hline : r'.line = r.line) (howner : r'.owner = r.owner) : Agrees r' := by
  obtain ⟨hlevel, hpending, hclaimed⟩ : r'.plic.level = r.plic.level ∧
      r'.plic.pending = r.plic.pending ∧ r'.plic.claimedBy = r.plic.claimedBy := by
    simpa [gateways] using hplic
  refine ⟨?_, fun s ↦ ?_, ?_, fun s hs ↦ ?_, fun s hs ↦ ?_⟩
  · rw [hlevel, hline, h.level]
  · rw [hclaimed, howner, h.claimedBy]
  · rw [hpending, howner, hline]
    exact h.idle
  · rw [howner] at hs
    rw [hpending]
    exact h.notPending s hs
  · rw [hline] at hs
    rw [hpending, howner]
    exact h.served s hs

theorem Agrees.setSourceLevel (h : Agrees r) (source : BitVec 32) (asserted : Bool) :
    Agrees (r.step (.setSourceLevel source asserted)) := by
  rw [step]
  rcases sourceId_cases source with ⟨s, hs, rfl⟩ | hout
  · rw [setSourceLevel_sourceId _ hs]
    have hline (t : Fin 32) : (t ≠ 0 ∧ sourceId s = sourceId t) ↔ t = s :=
      ⟨fun ht ↦ (sourceId_injective ht.2).symm, fun ht ↦ by rw [ht]; exact ⟨hs, rfl⟩⟩
    simp only [hline]
    have hfree : r.plic.claimedBy s = 0#8 ↔ r.owner s = none := by
      rw [h.claimedBy, show (0#8 : BitVec 8) = contextCode none from rfl, contextCode_inj]
    refine ⟨?_, h.claimedBy, ⟨?_, ?_, h.idle.2.2⟩, fun t ht ↦ ?_, fun t ht ↦ ?_⟩
    · funext t
      dsimp only
      rw [Function.update_apply, h.level]
    · dsimp only
      split
      · rw [Function.update_of_ne hs.symm]
        exact h.idle.1
      · exact h.idle.1
    · dsimp only
      rw [if_neg hs.symm]
      exact h.idle.2.1
    · -- the gateway is closed while the source is in service
      dsimp only
      split
      · next hset =>
        rw [Bool.and_eq_true, beq_iff_eq, hfree] at hset
        have hne : t ≠ s := fun he ↦ ht (he ▸ hset.2)
        rw [Function.update_of_ne hne]
        exact h.notPending t ht
      · exact h.notPending t ht
    · dsimp only at ht ⊢
      by_cases hts : t = s
      · subst hts
        rw [if_pos rfl] at ht
        subst ht
        by_cases howner : r.owner t = none
        · rw [hfree.2 howner]
          exact Or.inl (Function.update_self _ _ _)
        · exact Or.inr howner
      · rw [if_neg hts] at ht
        refine (h.served t ht).imp_left fun hp ↦ ?_
        split
        · rw [Function.update_of_ne hts]
          exact hp
        · exact hp
  · rw [setSourceLevel_of_out hout]
    have hline (t : Fin 32) : ¬ (t ≠ 0 ∧ source = sourceId t) :=
      fun ht ↦ not_sourceId hout ht.1 ht.2
    simp only [hline, if_false]
    exact h

theorem claim_value_iff (p : Plic) (context : Fin 2) (s : Fin 32) :
    (p.read (claimOffset context) .word).1.value = (sourceId s).setWidth 64 ↔
    p.select context = s := by
  rw [read_claim]
  refine ⟨fun he ↦ ?_, fun he ↦ ?_⟩
  · have := congrArg BitVec.toNat he
    rw [AccessResult.success, BitVec.toNat_ofNat, BitVec.toNat_setWidth, toNat_sourceId,
      Nat.mod_eq_of_lt (Nat.lt_trans (p.select context).isLt (by decide)),
      Nat.mod_eq_of_lt (Nat.lt_trans s.isLt (by decide))] at this
    exact Fin.ext this
  · rw [he]
    refine BitVec.eq_of_toNat_eq ?_
    rw [AccessResult.success, BitVec.toNat_ofNat, BitVec.toNat_setWidth, toNat_sourceId]

theorem owner_claim (r : Ledger) (context : Fin 2) (s : Fin 32) :
    (r.step (.read (claimOffset context) .word)).owner s =
      if s ≠ 0 ∧ r.plic.select context = s then some context else r.owner s := by
  rw [step, noteRead, claimContext_claimOffset]
  exact if_congr (and_congr_right fun _ ↦ claim_value_iff r.plic context s) rfl rfl

theorem plic_claim (r : Ledger) (context : Fin 2) :
    (r.step (.read (claimOffset context) .word)).plic = r.plic.claim context := by
  rw [step, read_claim]

/-- The source a claim selects is not in service. -/
theorem Agrees.owner_select (h : Agrees r) (context : Fin 2) :
    r.owner (r.plic.select context) = none := by
  rcases r.plic.select_cases context with hzero | ⟨-, hclaimed⟩
  · rw [hzero]
    exact h.idle.2.2
  · rw [h.claimedBy] at hclaimed
    exact contextCode_inj.1 hclaimed

theorem Agrees.claim (h : Agrees r) (context : Fin 2) :
    Agrees (r.step (.read (claimOffset context) .word)) := by
  have howner := r.owner_claim context
  have hplic := r.plic_claim context
  have hline : (r.step (.read (claimOffset context) .word)).line = r.line := rfl
  by_cases hnone : r.plic.select context = 0
  · rw [Plic.claim, if_neg (not_not.2 hnone)] at hplic
    have hsame : (r.step (.read (claimOffset context) .word)).owner = r.owner := by
      funext s
      rw [howner, hnone, if_neg]
      exact fun hs ↦ hs.1 hs.2.symm
    exact h.congr (congrArg gateways hplic) hline hsame
  · rw [Plic.claim, if_pos hnone] at hplic
    have hne (s : Fin 32) (hs : s ≠ r.plic.select context) :
        (r.step (.read (claimOffset context) .word)).owner s = r.owner s := by
      rw [howner, if_neg]
      exact fun he ↦ hs he.2.symm
    have hself : (r.step (.read (claimOffset context) .word)).owner (r.plic.select context) =
        some context := by
      rw [howner, if_pos ⟨hnone, rfl⟩]
    refine ⟨?_, fun s ↦ ?_, ⟨?_, h.idle.2.1, ?_⟩, fun s hs ↦ ?_, fun s hs ↦ ?_⟩
    · rw [hplic, hline]
      exact h.level
    · rw [hplic]
      by_cases hs : s = r.plic.select context
      · rw [hs, hself]
        exact Function.update_self _ _ _
      · rw [hne s hs, ← h.claimedBy]
        exact Function.update_of_ne hs _ _
    · rw [hplic]
      exact (Function.update_of_ne (Ne.symm hnone) _ _).trans h.idle.1
    · rw [hne 0 (Ne.symm hnone)]
      exact h.idle.2.2
    · rw [hplic]
      by_cases hsel : s = r.plic.select context
      · rw [hsel]
        exact Function.update_self _ _ _
      · rw [hne s hsel] at hs
        exact (Function.update_of_ne hsel _ _).trans (h.notPending s hs)
    · by_cases hsel : s = r.plic.select context
      · rw [hsel, hself]
        exact Or.inr (Option.some_ne_none _)
      · rw [hplic, hne s hsel]
        exact (h.served s hs).imp_left (Function.update_of_ne hsel _ _).trans

theorem owner_complete (r : Ledger) (context : Fin 2) (value : BitVec 64) (s : Fin 32) :
    (r.step (.write (claimOffset context) .word value)).owner s =
      if value.setWidth 32 = sourceId s ∧ r.owner s = some context then none else r.owner s := by
  rw [step, noteWrite, claimContext_claimOffset]

theorem plic_complete (r : Ledger) (context : Fin 2) (value : BitVec 64) :
    (r.step (.write (claimOffset context) .word value)).plic =
      r.plic.complete context (value.setWidth 32) :=
  r.plic.write_complete context value

/-- A completion of a source that is not in service of the context changes nothing. -/
theorem Agrees.complete_of_not_owner (h : Agrees r) {context : Fin 2} {source : BitVec 32}
    (hno : ∀ s, source = sourceId s → r.owner s ≠ some context) :
    r.plic.complete context source = r.plic := by
  rcases sourceId_cases source with ⟨s, hs, rfl⟩ | hout
  · rw [complete_sourceId _ _ hs, if_neg]
    rw [h.claimedBy, contextCode_inj]
    exact hno s rfl
  · exact complete_of_out hout

/-- A completion by the owner opens the gateway again. -/
theorem Agrees.complete_of_owner (h : Agrees r) {context : Fin 2} {s : Fin 32}
    (howner : r.owner s = some context) :
    r.plic.complete context (sourceId s) =
      { r.plic with
        claimedBy := Function.update r.plic.claimedBy s 0#8
        pending := Function.update r.plic.pending s (r.line s) } := by
  have hs : s ≠ 0 := by
    rintro rfl
    rw [h.idle.2.2] at howner
    cases howner
  rw [complete_sourceId _ _ hs, if_pos (by rw [h.claimedBy, howner]), ← h.level]

theorem Agrees.complete (h : Agrees r) (context : Fin 2) (value : BitVec 64) :
    Agrees (r.step (.write (claimOffset context) .word value)) := by
  have howner := r.owner_complete context value
  have hplic := r.plic_complete context value
  have hline : (r.step (.write (claimOffset context) .word value)).line = r.line := rfl
  by_cases hown : ∃ s, value.setWidth 32 = sourceId s ∧ r.owner s = some context
  · obtain ⟨s, hvalue, hs⟩ := hown
    have hpos : s ≠ 0 := by
      rintro rfl
      rw [h.idle.2.2] at hs
      cases hs
    rw [hvalue, h.complete_of_owner hs] at hplic
    have hself : (r.step (.write (claimOffset context) .word value)).owner s = none := by
      rw [howner, if_pos ⟨hvalue, hs⟩]
    have hne (t : Fin 32) (ht : t ≠ s) :
        (r.step (.write (claimOffset context) .word value)).owner t = r.owner t := by
      rw [howner, if_neg]
      exact fun he ↦ ht (sourceId_injective (he.1.symm.trans hvalue))
    refine ⟨?_, fun t ↦ ?_, ⟨?_, h.idle.2.1, ?_⟩, fun t ht ↦ ?_, fun t ht ↦ ?_⟩
    · rw [hplic, hline]
      exact h.level
    · rw [hplic]
      by_cases hts : t = s
      · rw [hts, hself]
        exact Function.update_self _ _ _
      · rw [hne t hts, ← h.claimedBy]
        exact Function.update_of_ne hts _ _
    · rw [hplic]
      exact (Function.update_of_ne hpos.symm _ _).trans h.idle.1
    · rw [hne 0 hpos.symm]
      exact h.idle.2.2
    · by_cases hts : t = s
      · rw [hts, hself] at ht
        exact absurd rfl ht
      · rw [hne t hts] at ht
        rw [hplic]
        exact (Function.update_of_ne hts _ _).trans (h.notPending t ht)
    · rw [hplic]
      by_cases hts : t = s
      · subst hts
        exact Or.inl ((Function.update_self _ _ _).trans ht)
      · rw [hne t hts]
        exact (h.served t ht).imp_left (Function.update_of_ne hts _ _).trans
  · have hno : ∀ s, value.setWidth 32 = sourceId s → r.owner s ≠ some context :=
      fun s hs ho ↦ hown ⟨s, hs, ho⟩
    rw [h.complete_of_not_owner hno] at hplic
    have hsame : (r.step (.write (claimOffset context) .word value)).owner = r.owner := by
      funext s
      rw [howner, if_neg]
      exact fun he ↦ hno s he.1 he.2
    exact h.congr (congrArg gateways hplic) hline hsame

theorem Agrees.step (h : Agrees r) (e : PlicEvent) : Agrees (r.step e) := by
  cases e with
  | setSourceLevel source asserted => exact h.setSourceLevel source asserted
  | read offset w =>
    cases hclaim : claimContext offset w with
    | some context =>
      obtain ⟨rfl, rfl⟩ := claimContext_eq_some hclaim
      exact h.claim context
    | none =>
      refine h.congr (congrArg gateways (r.plic.read_of_not_claim hclaim)) rfl ?_
      rw [Ledger.step, noteRead, hclaim]
  | write offset w value =>
    cases hclaim : claimContext offset w with
    | some context =>
      obtain ⟨rfl, rfl⟩ := claimContext_eq_some hclaim
      exact h.complete context value
    | none =>
      refine h.congr (r.plic.write_of_not_complete hclaim value) rfl ?_
      rw [Ledger.step, noteWrite, hclaim]

/-- Does the event complete the source for the context? -/
def completes (context : Fin 2) (s : Fin 32) : PlicEvent → Bool
  | .write offset w value => claimContext offset w == some context &&
      value.setWidth 32 == sourceId s
  | _ => false

/-- A source stays in service until the owner completes it. -/
theorem Agrees.owner_step (h : Agrees r) {context : Fin 2} {s : Fin 32}
    (howner : r.owner s = some context)
    {e : PlicEvent} (he : completes context s e = false) : (r.step e).owner s = some context := by
  cases e with
  | setSourceLevel source asserted => exact howner
  | read offset w =>
    cases hclaim : claimContext offset w with
    | none =>
      rw [Ledger.step, noteRead, hclaim]
      exact howner
    | some other =>
      obtain ⟨rfl, rfl⟩ := claimContext_eq_some hclaim
      rw [owner_claim, if_neg]
      · exact howner
      · rintro ⟨-, rfl⟩
        rw [h.owner_select] at howner
        cases howner
  | write offset w value =>
    cases hclaim : claimContext offset w with
    | none =>
      rw [Ledger.step, noteWrite, hclaim]
      exact howner
    | some other =>
      obtain ⟨rfl, rfl⟩ := claimContext_eq_some hclaim
      rw [owner_complete, if_neg]
      · exact howner
      · rintro ⟨hvalue, hother⟩
        rw [howner, Option.some.injEq] at hother
        subst hother
        rw [completes, claimContext_claimOffset, hvalue] at he
        simp at he

/-- A request that is latched stays so until it is claimed. -/
theorem Agrees.pending_step (h : Agrees r) {s : Fin 32} (hpending : r.plic.pending s = true)
    (e : PlicEvent) : (r.step e).plic.pending s = true ∨ (r.step e).owner s ≠ none := by
  cases e with
  | setSourceLevel source asserted =>
    refine Or.inl ?_
    rw [Ledger.step]
    rcases sourceId_cases source with ⟨t, ht, rfl⟩ | hout
    · rw [setSourceLevel_sourceId _ ht]
      dsimp only
      split
      · rw [Function.update_apply]
        split
        · rfl
        · exact hpending
      · exact hpending
    · rw [setSourceLevel_of_out hout]
      exact hpending
  | read offset w =>
    cases hclaim : claimContext offset w with
    | none =>
      rw [Ledger.step, r.plic.read_of_not_claim hclaim]
      exact Or.inl hpending
    | some context =>
      obtain ⟨rfl, rfl⟩ := claimContext_eq_some hclaim
      rw [owner_claim, plic_claim, Plic.claim]
      by_cases hselect : s ≠ 0 ∧ r.plic.select context = s
      · rw [if_pos hselect]
        exact Or.inr (Option.some_ne_none _)
      · refine Or.inl ?_
        split
        · next hne =>
          refine (Function.update_of_ne (fun he ↦ hselect ?_) _ _).trans hpending
          exact ⟨he ▸ hne, he.symm⟩
        · exact hpending
  | write offset w value =>
    cases hclaim : claimContext offset w with
    | none =>
      have hgateways := r.plic.write_of_not_complete hclaim value
      exact Or.inl ((congrFun (congrArg (·.2.1) hgateways) s).trans hpending)
    | some context =>
      obtain ⟨rfl, rfl⟩ := claimContext_eq_some hclaim
      refine Or.inl ?_
      rw [plic_complete]
      by_cases hown : ∃ t, value.setWidth 32 = sourceId t ∧ r.owner t = some context
      · obtain ⟨t, hvalue, ht⟩ := hown
        have hne : s ≠ t := by
          rintro rfl
          rw [h.notPending s (by rw [ht]; exact Option.some_ne_none _)] at hpending
          cases hpending
        rw [hvalue, h.complete_of_owner ht]
        exact (Function.update_of_ne hne _ _).trans hpending
      · rw [h.complete_of_not_owner fun t ht ho ↦ hown ⟨t, ht, ho⟩]
        exact hpending

/-- **The gateways.**  After any events from reset: a source in service is not pending; a line that
is up is pending or in service; a source returned by a claim is returned to neither context again
before its owner completes it; a completion by anyone but the owner changes nothing, and one by the
owner leaves the source pending exactly if its line is up; and a latched request stays until it is
claimed. -/
theorem plic_gateways (events : List PlicEvent) :
    let r := Runs.run step {} events
    (∀ s, r.owner s ≠ none → r.plic.pending s = false) ∧
    (∀ s, r.line s = true → r.plic.pending s = true ∨ r.owner s ≠ none) ∧
    (∀ (context : Fin 2) (s : Fin 32) (later : List PlicEvent), s ≠ 0 →
      (r.plic.read (claimOffset context) .word).1.value = (sourceId s).setWidth 64 →
      (∀ e ∈ later, completes context s e = false) →
      ∀ context', ((Runs.run step r (.read (claimOffset context) .word :: later)).plic.read
        (claimOffset context') .word).1.value ≠ (sourceId s).setWidth 64) ∧
    (∀ (context : Fin 2) (value : BitVec 64),
      (∀ s, value.setWidth 32 = sourceId s → r.owner s ≠ some context) →
      (r.plic.write (claimOffset context) .word value).2 = r.plic) ∧
    (∀ (context : Fin 2) (s : Fin 32) (value : BitVec 64), r.owner s = some context →
      value.setWidth 32 = sourceId s →
      (r.plic.write (claimOffset context) .word value).2.pending s = r.line s) ∧
    ∀ s e, r.plic.pending s = true → (r.step e).plic.pending s = true ∨
      (r.step e).owner s ≠ none := by
  intro r
  have hagrees : Agrees r := Runs.run_induction (fun _ e h ↦ h.step e) agrees_start events
  refine ⟨hagrees.notPending, hagrees.served, ?_, ?_, ?_, fun s e h ↦ hagrees.pending_step h e⟩
  · intro context s later hs hvalue hlater context' hagain
    rw [claim_value_iff] at hvalue hagain
    have hclaimed : (r.step (.read (claimOffset context) .word)).owner s = some context := by
      rw [owner_claim, if_pos ⟨hs, hvalue⟩]
    have hkept := Runs.run_induction_on (I := fun r : Ledger ↦ Agrees r ∧ r.owner s = some context)
      (fun r e he h ↦ ⟨h.1.step e, h.1.owner_step h.2 he⟩) ⟨hagrees.step _, hclaimed⟩ hlater
    have hfree := hkept.1.owner_select context'
    rw [Runs.run_cons] at hagain
    rw [hagain, hkept.2] at hfree
    cases hfree
  · intro context value hno
    rw [write_complete]
    exact hagrees.complete_of_not_owner hno
  · intro context s value howner hvalue
    rw [write_complete, hvalue, hagrees.complete_of_owner howner]
    exact Function.update_self _ _ _

/-! ## The balance of a source -/

/-- Does a claim return the source? -/
def claims (s : Fin 32) (r : Ledger) : PlicEvent → Bool
  | .read offset w => (claimContext offset w).isSome && s != 0 &&
      (r.plic.read offset w).1.value == (sourceId s).setWidth 64
  | _ => false

/-- Does the owner complete the source? -/
def releases (s : Fin 32) (r : Ledger) (e : PlicEvent) : Bool :=
  match r.owner s with
  | some context => completes context s e
  | none => false

/-- A claim takes a source that nobody owns, and only its owner gives it back. -/
theorem Agrees.balance_step (h : Agrees r) (s : Fin 32) (e : PlicEvent) :
    (r.owner s).isSome.toNat + (claims s r e).toNat =
      (releases s r e).toNat + ((r.step e).owner s).isSome.toNat := by
  cases e with
  | setSourceLevel source asserted =>
    cases howner : r.owner s <;> simp [claims, releases, Ledger.step, completes, howner]
  | read offset w =>
    have hkept : releases s r (.read offset w) = false := by
      rw [releases]
      cases r.owner s <;> rfl
    rw [hkept, claims]
    cases hclaim : claimContext offset w with
    | none => simp [Ledger.step, noteRead, hclaim]
    | some context =>
      obtain ⟨rfl, rfl⟩ := claimContext_eq_some hclaim
      rw [owner_claim]
      by_cases htaken : s ≠ 0 ∧ r.plic.select context = s
      · have hfree := h.owner_select context
        rw [htaken.2] at hfree
        have hvalue := (claim_value_iff r.plic context s).2 htaken.2
        simp [htaken, hfree, hvalue]
      · rw [if_neg htaken]
        have hno : ¬ (s ≠ 0 ∧ (r.plic.read (claimOffset context) .word).1.value =
            (sourceId s).setWidth 64) := by
          rwa [claim_value_iff]
        have hfalse : (s != 0 && (r.plic.read (claimOffset context) .word).1.value ==
            (sourceId s).setWidth 64) = false := by
          simpa using hno
        simp [hfalse]
  | write offset w value =>
    cases howner : r.owner s with
    | none =>
      have hfree : (r.step (.write offset w value)).owner s = none := by
        rw [Ledger.step, noteWrite]
        cases claimContext offset w <;> simp [howner]
      simp [claims, releases, howner, hfree]
    | some context =>
      cases hdone : completes context s (.write offset w value) with
      | false => simp [claims, releases, howner, hdone, h.owner_step howner hdone]
      | true =>
        have hfree : (r.step (.write offset w value)).owner s = none := by
          rw [completes, Bool.and_eq_true, beq_iff_eq, beq_iff_eq] at hdone
          rw [Ledger.step, noteWrite, hdone.1]
          exact if_pos ⟨hdone.2, howner⟩
        simp [claims, releases, howner, hdone, hfree]

/-- The number of claims that return the source. -/
def claimed (s : Fin 32) (r : Ledger) (events : List PlicEvent) : ℕ :=
  ((Runs.outputs step (claims s) r events).map Bool.toNat).sum

/-- The number of completions by the owner of the source. -/
def completed (s : Fin 32) (r : Ledger) (events : List PlicEvent) : ℕ :=
  ((Runs.outputs step (releases s) r events).map Bool.toNat).sum

/-- **Claims and completions balance.**  Every claim of a source has been completed by its owner,
but the last one if the source is in service. -/
theorem Agrees.balance (h : Agrees r) (s : Fin 32) (events : List PlicEvent) :
    (r.owner s).isSome.toNat + claimed s r events =
      completed s r events + ((Runs.run Ledger.step r events).owner s).isSome.toNat := by
  induction events generalizing r with
  | nil => simp [claimed, completed, Runs.outputs]
  | cons e events ih =>
    have hfirst := h.balance_step s e
    have hrest := ih (h.step e)
    rw [claimed, completed] at hrest ⊢
    rw [Runs.outputs, Runs.outputs, List.map_cons, List.map_cons, List.sum_cons, List.sum_cons,
      Runs.run_cons]
    omega

end Ledger

end Rvemu
