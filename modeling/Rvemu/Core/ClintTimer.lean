import Rvemu.Core.PendingOwnership
import Rvemu.Lib.Bits

/-!
# Programming the timer

The CLINT is written in halves while its clock runs and its level is projected onto `mip`, in any
order.  Each half replaces its 32 bits and nothing else.  The compare register is programmed without
a transient: with its high half all ones first, every value it goes through is at least the old one,
the new one or `0xFFFFFFFF00000000`.
-/

set_option autoImplicit false

namespace Rvemu

/-- The two 64-bit registers of the CLINT. -/
inductive TimerRegister
  | mtimecmp
  | mtime
  deriving DecidableEq, Repr

namespace TimerRegister

def offset : TimerRegister → BitVec 64
  | mtimecmp => Clint.mtimecmpOffset
  | mtime => Clint.mtimeOffset

def get : TimerRegister → Clint → BitVec 64
  | mtimecmp, c => c.mtimecmp
  | mtime, c => c.mtime

/-- Nothing else changes. -/
def set : TimerRegister → Clint → BitVec 64 → Clint
  | mtimecmp, c, value => { c with mtimecmp := value }
  | mtime, c, value => { c with mtime := value }

@[simp] theorem get_set (r : TimerRegister) (c : Clint) (value : BitVec 64) :
    r.get (r.set c value) = value := by
  cases r <;> rfl

@[simp] theorem set_set (r : TimerRegister) (c : Clint) (value value' : BitVec 64) :
    r.set (r.set c value) value' = r.set c value' := by
  cases r <;> rfl

end TimerRegister

theorem getLsbD_lowMask (i : ℕ) : (0xFFFFFFFF#64).getLsbD i = decide (i < 32) :=
  Bits.getLsbD_const (p := fun i ↦ decide (i < 32)) (by decide)
    (fun i hi ↦ decide_eq_false (by omega)) i

theorem getLsbD_highMask (i : ℕ) :
    (0xFFFFFFFF00000000#64).getLsbD i = (decide (32 ≤ i) && decide (i < 64)) :=
  Bits.getLsbD_const (p := fun i ↦ decide (32 ≤ i) && decide (i < 64)) (by decide)
    (fun i hi ↦ by simp [show ¬ i < 64 by omega]) i

/-- A doubleword of two words. -/
def joinHalves (high low : BitVec 64) : BitVec 64 := high.setWidth 32 ++ low.setWidth 32

theorem toNat_joinHalves (high low : BitVec 64) :
    (joinHalves high low).toNat = high.toNat % 2 ^ 32 * 2 ^ 32 + low.toNat % 2 ^ 32 := by
  have hlow : low.toNat % 2 ^ 32 < 2 ^ 32 := Nat.mod_lt _ (by decide)
  rw [joinHalves, BitVec.toNat_append, BitVec.toNat_setWidth, BitVec.toNat_setWidth,
    ← Nat.shiftLeft_add_eq_or_of_lt hlow, Nat.shiftLeft_eq]

theorem getLsbD_joinHalves (high low : BitVec 64) (i : ℕ) : (joinHalves high low).getLsbD i =
    if i < 32 then low.getLsbD i else decide (i < 64) && high.getLsbD (i - 32) := by
  rw [joinHalves, BitVec.getLsbD_append]
  split
  · next h => simp [h]
  · next h => simp [show i - 32 < 32 ↔ i < 64 by omega]

theorem joinHalves_low (high other low : BitVec 64) :
    joinHalves high (joinHalves other low) = joinHalves high low := by
  refine BitVec.eq_of_getLsbD_eq fun i _ ↦ ?_
  rw [getLsbD_joinHalves, getLsbD_joinHalves, getLsbD_joinHalves]
  split <;> rfl

theorem joinHalves_high (high other low : BitVec 64) :
    joinHalves (joinHalves high other >>> 32) low = joinHalves high low := by
  refine BitVec.eq_of_getLsbD_eq fun i hi ↦ ?_
  rw [getLsbD_joinHalves, getLsbD_joinHalves, BitVec.getLsbD_ushiftRight, getLsbD_joinHalves]
  split
  · rfl
  · next h =>
    rw [show 32 + (i - 32) = i by omega, if_neg h, decide_eq_true hi, Bool.true_and]

/-- The halves of a doubleword make it up again. -/
theorem joinHalves_self (value : BitVec 64) : joinHalves (value >>> 32) value = value := by
  refine BitVec.eq_of_getLsbD_eq fun i hi ↦ ?_
  rw [getLsbD_joinHalves, BitVec.getLsbD_ushiftRight]
  split
  · rfl
  · next h => rw [show 32 + (i - 32) = i by omega, decide_eq_true hi, Bool.true_and]

namespace Clint

/-! ## Half writes -/

theorem write_doubleWord (c : Clint) (r : TimerRegister) (value : BitVec 64) :
    c.write r.offset .doubleWord value = (.success, r.set c value) := by
  cases r <;> rfl

theorem write_low (c : Clint) (r : TimerRegister) (value : BitVec 64) :
    c.write r.offset .word value = (.success, r.set c (joinHalves (r.get c >>> 32) value)) := by
  have hjoin (x : BitVec 64) : (x &&& 0xFFFFFFFF00000000#64) ||| (value &&& 0xFFFFFFFF#64) =
      joinHalves (x >>> 32) value := by
    refine BitVec.eq_of_getLsbD_eq fun i hi ↦ ?_
    rw [BitVec.getLsbD_or, BitVec.getLsbD_and, BitVec.getLsbD_and, getLsbD_lowMask,
      getLsbD_highMask, getLsbD_joinHalves, BitVec.getLsbD_ushiftRight]
    split
    · next h => simp [h]
    · next h => simp [h, hi, show 32 ≤ i by omega, show 32 + (i - 32) = i by omega]
  cases r
  · rw [← hjoin]
    rfl
  · rw [← hjoin]
    rfl

theorem write_high (c : Clint) (r : TimerRegister) (value : BitVec 64) :
    c.write (r.offset + 4#64) .word value = (.success, r.set c (joinHalves value (r.get c))) := by
  have hjoin (x : BitVec 64) :
      (x &&& 0x00000000FFFFFFFF#64) ||| ((value &&& 0xFFFFFFFF#64) <<< 32) =
      joinHalves value x := by
    refine BitVec.eq_of_getLsbD_eq fun i hi ↦ ?_
    rw [BitVec.getLsbD_or, BitVec.getLsbD_and, BitVec.getLsbD_shiftLeft, BitVec.getLsbD_and,
      getLsbD_lowMask, getLsbD_lowMask, getLsbD_joinHalves]
    split
    · next h => simp [h]
    · next h => simp [h, hi, show i - 32 < 32 by omega]
  cases r
  · rw [← hjoin]
    rfl
  · rw [← hjoin]
    rfl

theorem access_of_validated {offset : BitVec 64} {w : AccessWidth}
    (h : (validateAccess offset w).ok = true) (hmsip : offset ≠ msipOffset) :
    isTimerRegisterAccess offset w mtimecmpOffset = true ∨
      isTimerRegisterAccess offset w mtimeOffset = true := by
  rw [validateAccess] at h
  split at h
  · cases h
  · split at h
    · cases h
    · rw [if_neg fun he ↦ hmsip he.1] at h
      split at h
      · next haccess => rwa [Bool.or_eq_true] at haccess
      · cases h

/-- A write elsewhere leaves the register alone. -/
theorem get_write_of_not_access (c : Clint) {r : TimerRegister} {offset : BitVec 64}
    {w : AccessWidth}
    (h : isTimerRegisterAccess offset w r.offset = false) (value : BitVec 64) :
    r.get (c.write offset w value).2 = r.get c := by
  rw [write]
  split
  · rfl
  · next hvalid =>
    rw [Bool.not_eq_true', Bool.not_eq_false] at hvalid
    split
    · cases r <;> rfl
    · next hmsip =>
      split
      · next hcompare =>
        cases r with
        | mtimecmp => exact absurd hcompare (ne_true_of_eq_false h)
        | mtime => rfl
      · next hcompare =>
        cases r with
        | mtimecmp => rfl
        | mtime =>
          have htime := (access_of_validated hvalid hmsip).resolve_left hcompare
          exact absurd htime (ne_true_of_eq_false h)

end Clint

/-! ## The clock, the level and the software -/

/-- The CLINT and the CSR file it projects its levels onto. -/
structure ClintHart where
  clint : Clint
  csrs : CsrFile

inductive ClintEvent
  | advance (ticks : BitVec 64)
  | synchronize
  | write (offset : BitVec 64) (w : AccessWidth) (value : BitVec 64)
  deriving DecidableEq, Repr

/-- Does the event leave the register alone? -/
def ClintEvent.leaves (r : TimerRegister) : ClintEvent → Bool
  | .advance _ => r == .mtimecmp
  | .synchronize => true
  | .write offset w _ => !Clint.isTimerRegisterAccess offset w r.offset

namespace ClintHart

def step (s : ClintHart) : ClintEvent → ClintHart
  | .advance ticks => { s with clint := s.clint.advance ticks }
  | .synchronize => { s with csrs := s.clint.synchronize s.csrs }
  | .write offset w value => { s with clint := (s.clint.write offset w value).2 }

/-- The level as the hart reads it. -/
def mtip (s : ClintHart) : Bool := (s.csrs.readValue .mip).getLsbD 7

variable (s : ClintHart)

theorem mtip_synchronize :
    (s.step .synchronize).mtip = decide (s.clint.mtimecmp ≤ s.clint.mtime) :=
  s.clint.getLsbD_mip_synchronize s.csrs 7

theorem get_write_low (r : TimerRegister) (value : BitVec 64) :
    r.get (s.step (.write r.offset .word value)).clint =
    joinHalves (r.get s.clint >>> 32) value := by
  rw [step, Clint.write_low, TimerRegister.get_set]

theorem get_write_high (r : TimerRegister) (value : BitVec 64) :
    r.get (s.step (.write (r.offset + 4#64) .word value)).clint =
    joinHalves value (r.get s.clint) := by
  rw [step, Clint.write_high, TimerRegister.get_set]

theorem get_step {r : TimerRegister} {e : ClintEvent} (h : e.leaves r = true) :
    r.get (s.step e).clint = r.get s.clint := by
  cases e with
  | advance ticks =>
    cases r with
    | mtimecmp => rfl
    | mtime => cases h
  | synchronize => rfl
  | write offset w value =>
    exact s.clint.get_write_of_not_access (by simpa [ClintEvent.leaves] using h) value

theorem get_run {r : TimerRegister} {events : List ClintEvent}
    (h : ∀ e ∈ events, e.leaves r = true) :
    r.get (Runs.run step s events).clint = r.get s.clint :=
  Runs.run_induction_on (I := fun t : ClintHart ↦ r.get t.clint = r.get s.clint)
    (fun t _ he ht ↦ (t.get_step he).trans ht) rfl h

/-! ## No transient -/

/-- The level is down at every `synchronize` that happens before `due`. -/
abbrev Quiet (due : ℕ) : ClintHart → List ClintEvent → Prop :=
  Runs.Along step fun t e ↦
    e = .synchronize → t.clint.mtime.toNat < due → (t.step e).mtip = false

/-- While the compare register stays at `due` or later, nothing is raised before `due`. -/
theorem quiet_of_leaves {due : ℕ} {events : List ClintEvent}
    (h : ∀ e ∈ events, e.leaves .mtimecmp = true) (hdue : due ≤ s.clint.mtimecmp.toNat) :
    Quiet due s events := by
  induction events generalizing s with
  | nil => trivial
  | cons e events ih =>
    have he := h e List.mem_cons_self
    refine ⟨?_, ih _ (fun e' he' ↦ h e' (List.mem_cons_of_mem _ he')) ?_⟩
    · rintro rfl hbefore
      rw [mtip_synchronize, decide_eq_false_iff_not, BitVec.le_def]
      omega
    · have hsame : (s.step e).clint.mtimecmp = s.clint.mtimecmp := s.get_step (r := .mtimecmp) he
      rwa [hsame]

/-- A write of the compare register, and what follows it until the next one. -/
theorem quiet_write {due : ℕ} {offset value : BitVec 64} {w : AccessWidth}
    {events later : List ClintEvent}
    (h : ∀ e ∈ events, e.leaves .mtimecmp = true)
    (hdue : due ≤ (s.step (.write offset w value)).clint.mtimecmp.toNat)
    (hlater : Quiet due (Runs.run step (s.step (.write offset w value)) events) later) :
    Quiet due s (.write offset w value :: events ++ later) :=
  ⟨nofun, Runs.along_append.2 ⟨quiet_of_leaves _ h hdue, hlater⟩⟩

/-- **The timer.**  After `synchronize` MTIP says whether the clock has reached the compare
register, as unsigned numbers, and `time` is the clock.  A half write changes its register only, and
two halves, in either order and with anything between them that leaves the register alone, make the
register that one doubleword write makes.  With the high half all ones first, then the low half,
then the high half, MTIP is not raised before the old value, the new value and
`0xFFFFFFFF00000000`. -/
theorem clint_timer :
    (∀ (s : ClintHart) (events : List ClintEvent),
      let t := Runs.run step s (events ++ [.synchronize])
      t.mtip = decide (t.clint.mtimecmp.toNat ≤ t.clint.mtime.toNat) ∧
      t.csrs.readValue .time = t.clint.mtime) ∧
    (∀ (r : TimerRegister) (c : Clint) (value : BitVec 64),
      c.write r.offset .doubleWord value = (.success, r.set c value) ∧
      c.write r.offset .word value = (.success, r.set c (joinHalves (r.get c >>> 32) value)) ∧
      c.write (r.offset + 4#64) .word value = (.success, r.set c (joinHalves value (r.get c)))) ∧
    (∀ (r : TimerRegister) (s : ClintHart) (high low : BitVec 64) (between : List ClintEvent),
      (∀ e ∈ between, e.leaves r = true) →
      r.get (Runs.run step s (.write r.offset .word low :: between ++
        [.write (r.offset + 4#64) .word high])).clint = joinHalves high low ∧
      r.get (Runs.run step s (.write (r.offset + 4#64) .word high :: between ++
        [.write r.offset .word low])).clint = joinHalves high low) ∧
    ∀ (s : ClintHart) (new : BitVec 64) (before first second after : List ClintEvent),
      (∀ e ∈ before ++ first ++ second ++ after, e.leaves .mtimecmp = true) →
      let sequence : List ClintEvent := before ++
        (.write (Clint.mtimecmpOffset + 4#64) .word 0xFFFFFFFF#64 :: first ++
        (.write Clint.mtimecmpOffset .word new :: second ++
        (.write (Clint.mtimecmpOffset + 4#64) .word (new >>> 32) :: after)))
      Quiet (min (min s.clint.mtimecmp.toNat new.toNat) 0xFFFFFFFF00000000) s sequence ∧
        (Runs.run step s sequence).clint.mtimecmp = new := by
  refine ⟨fun s events ↦ ?_, fun r c value ↦ ?_, fun r s high low between hbetween ↦ ?_, ?_⟩
  · dsimp only
    rw [Runs.run_append, Runs.run_cons, Runs.run_nil, mtip_synchronize]
    exact ⟨rfl, rfl⟩
  · exact ⟨c.write_doubleWord r value, c.write_low r value, c.write_high r value⟩
  · rw [List.cons_append, List.cons_append, Runs.run_cons, Runs.run_cons, Runs.run_append,
      Runs.run_append, Runs.run_cons, Runs.run_cons, Runs.run_nil, Runs.run_nil, get_write_high,
      get_write_low, get_run _ hbetween, get_run _ hbetween, get_write_high, get_write_low,
      joinHalves_low, joinHalves_high]
    exact ⟨rfl, rfl⟩
  · intro s new before first second after hleaves sequence
    simp only [List.mem_append, or_imp, forall_and] at hleaves
    obtain ⟨⟨⟨hbefore, hfirst⟩, hsecond⟩, hafter⟩ := hleaves
    -- what the compare register holds after each of the three writes
    set s₁ := Runs.run step s before
    have h₁ : s₁.clint.mtimecmp = s.clint.mtimecmp := s.get_run (r := .mtimecmp) hbefore
    set s₂ := s₁.step (.write (Clint.mtimecmpOffset + 4#64) .word 0xFFFFFFFF#64) with hs₂
    have h₂ : s₂.clint.mtimecmp = joinHalves 0xFFFFFFFF#64 s.clint.mtimecmp :=
      (s₁.get_write_high .mtimecmp _).trans (congrArg _ h₁)
    set s₃ := Runs.run step s₂ first with hs₃
    have h₃ : s₃.clint.mtimecmp = _ := (s₂.get_run (r := .mtimecmp) hfirst).trans h₂
    set s₄ := s₃.step (.write Clint.mtimecmpOffset .word new) with hs₄
    have h₄ : s₄.clint.mtimecmp = joinHalves 0xFFFFFFFF#64 new := by
      refine (s₃.get_write_low .mtimecmp _).trans ?_
      rw [show TimerRegister.mtimecmp.get s₃.clint = _ from h₃, joinHalves_high]
    set s₅ := Runs.run step s₄ second with hs₅
    have h₅ : s₅.clint.mtimecmp = _ := (s₄.get_run (r := .mtimecmp) hsecond).trans h₄
    set s₆ := s₅.step (.write (Clint.mtimecmpOffset + 4#64) .word (new >>> 32)) with hs₆
    have h₆ : s₆.clint.mtimecmp = new := by
      refine (s₅.get_write_high .mtimecmp _).trans ?_
      rw [show TimerRegister.mtimecmp.get s₅.clint = _ from h₅, joinHalves_low, joinHalves_self]
    have hlate (low : BitVec 64) : 0xFFFFFFFF00000000 ≤ (joinHalves 0xFFFFFFFF#64 low).toNat := by
      rw [toNat_joinHalves]
      exact Nat.le_add_right _ _
    refine ⟨Runs.along_append.2 ⟨quiet_of_leaves _ hbefore ?_, ?_⟩, ?_⟩
    · omega
    · refine quiet_write _ hfirst ?_ (quiet_write _ hsecond ?_ ⟨nofun, quiet_of_leaves _ hafter ?_⟩)
      · rw [h₂]
        have := hlate s.clint.mtimecmp
        omega
      · rw [h₄]
        have := hlate new
        omega
      · rw [h₆]
        omega
    · rw [Runs.run_append, List.cons_append, Runs.run_cons, Runs.run_append, List.cons_append,
        Runs.run_cons, Runs.run_append, Runs.run_cons]
      exact (s₆.get_run (r := .mtimecmp) hafter).trans h₆

end ClintHart

end Rvemu
