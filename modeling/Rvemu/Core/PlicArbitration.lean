import Mathlib.Order.Fin.Basic
import Rvemu.Core.PendingOwnership
import Rvemu.Devices.PlicGateway
import Rvemu.Lib.Arbitration

/-!
# The arbitration of the PLIC

The loop of `select` is an arbitration of the sources that a context can be interrupted by: by
priority first, and by id among equals.  Claims and the levels projected onto `mip` are both read
off it, so MEIP and SEIP are up exactly when a claim would return a source.
-/

set_option autoImplicit false

namespace Rvemu

namespace Plic

variable (p : Plic) (context : Fin 2)

/-- Can the source interrupt the context?  It is pending, unclaimed, enabled and above the
threshold. -/
def candidate (s : Fin 32) : Bool :=
  p.pending s && p.claimedBy s == 0#8 && (p.enable context).getLsbD s.val &&
    decide (p.threshold context < p.priority s)

theorem and_bit_bne_zero (mask : BitVec 32) (s : Fin 32) :
    ((mask &&& (1#32 <<< s.val)) != 0#32) = mask.getLsbD s.val := by
  have hs := s.isLt
  have hbit (i : ℕ) : (mask &&& (1#32 <<< s.val)).getLsbD i =
      (mask.getLsbD i && decide (i = s.val)) := by
    rw [BitVec.getLsbD_and, BitVec.getLsbD_shiftLeft, BitVec.getLsbD_one]
    by_cases hlt : i < s.val
    · simp [hlt, hlt.ne]
    · by_cases hi : i = s.val
      · simp [hi]
      · simp [hlt, hi, show ¬ i - s.val = 0 by omega]
  rw [Bool.eq_iff_iff, bne_iff_ne, ne_eq]
  constructor
  · intro hne
    by_contra hno
    refine hne (BitVec.eq_of_getLsbD_eq fun i _ ↦ ?_)
    rw [hbit, BitVec.getLsbD_zero]
    by_cases hi : i = s.val
    · rw [hi, Bool.eq_false_of_not_eq_true hno, Bool.false_and]
    · rw [decide_eq_false hi, Bool.and_false]
  · intro hset hzero
    have hself := hbit s.val
    rw [hzero, BitVec.getLsbD_zero, hset, decide_eq_true rfl] at hself
    cases hself

theorem sources_sorted : sources.Pairwise (· < ·) := by decide

theorem mem_sources {s : Fin 32} : s ∈ sources ↔ s ≠ 0 := by
  simp [sources]

theorem not_mem_sources_zero : (0 : Fin 32) ∉ sources := fun h ↦ mem_sources.1 h rfl

/-- The loop is the arbitration of the candidates by priority. -/
theorem select_eq_arbitrate : p.select context =
    Arbitration.arbitrate 0 (p.candidate context) (fun s ↦ (p.priority s).toNat) sources := by
  rw [select, Arbitration.arbitrate]
  congr 1
  funext selected s
  have hblocked : (!p.pending s || p.claimedBy s != 0#8 ||
      !((p.enable context &&& (1#32 <<< s.val)) != 0#32) ||
      decide (p.priority s ≤ p.threshold context)) = !p.candidate context s := by
    have hbelow : decide (p.priority s ≤ p.threshold context) =
        !decide (p.threshold context < p.priority s) := by
      rw [← decide_not, decide_eq_decide, BitVec.not_lt]
    rw [and_bit_bne_zero, candidate, Bool.not_and, Bool.not_and, Bool.not_and, hbelow]
    rfl
  dsimp only
  rw [hblocked, Arbitration.better]
  simp only [BitVec.lt_def]

/-! ## Claims -/

theorem select_eq_zero_iff :
    p.select context = 0 ↔ ∀ s, s ≠ 0 → p.candidate context s = false := by
  rw [select_eq_arbitrate, Arbitration.arbitrate_eq_idle_iff not_mem_sources_zero sources_sorted]
  simp only [mem_sources]

/-- What the loop ends with comes before every other candidate. -/
theorem select_winner (h : p.select context ≠ 0) :
    p.candidate context (p.select context) = true ∧
      ∀ s, s ≠ 0 → p.candidate context s = true →
        p.priority s < p.priority (p.select context) ∨
          p.priority s = p.priority (p.select context) ∧ p.select context ≤ s := by
  rw [select_eq_arbitrate] at h
  have hwinner := Arbitration.arbitrate_winner not_mem_sources_zero sources_sorted h
  rw [← select_eq_arbitrate] at hwinner
  refine ⟨hwinner.wants, fun s hs hcandidate ↦ ?_⟩
  exact (hwinner.first s (mem_sources.2 hs) hcandidate).imp BitVec.lt_def.2
    (And.imp_left BitVec.eq_of_toNat_eq)

/-- The arbitration of a context looks at its own enables and threshold only. -/
theorem select_congr {q : Plic} (hpriority : q.priority = p.priority)
    (hpending : q.pending = p.pending)
    (hclaimed : q.claimedBy = p.claimedBy) (henable : q.enable context = p.enable context)
    (hthreshold : q.threshold context = p.threshold context) :
      q.select context = p.select context := by
  rw [select, select, hpriority, hpending, hclaimed, henable, hthreshold]

/-! ## The levels -/

/-- Is a claim by the context going to return a source? -/
theorem contextPending_iff :
    p.contextPending context = true ↔ (p.read (claimOffset context) .word).1.value ≠ 0#64 := by
  have hzero := Ledger.claim_value_iff p context 0
  rw [contextPending, bne_iff_ne, ne_eq, ← hzero]
  rfl

/-- **The arbitration.**  A claim returns `0` and changes nothing when the context has no candidate,
and otherwise the candidate of the highest priority, the one with the smallest id of those, which is
no longer pending and is claimed by the context.  After `synchronize`, MEIP and SEIP are up exactly
when a claim by their context returns a source, the other bits of `mip` are as before, and neither
level depends on the enables and the threshold of the other context. -/
theorem plic_arbitration :
    (∀ (p : Plic) (context : Fin 2),
      let answer := p.read (claimOffset context) .word
      answer.1.ok = true ∧
      (answer.1.value = 0#64 ↔ ∀ s, s ≠ 0 → p.candidate context s = false) ∧
      (answer.1.value = 0#64 → answer.2 = p) ∧
      (answer.1.value ≠ 0#64 → ∃ s : Fin 32, s ≠ 0 ∧ answer.1.value = BitVec.ofNat 64 s.val ∧
        p.candidate context s = true ∧
        (∀ t, t ≠ 0 → p.candidate context t = true →
          p.priority t < p.priority s ∨ p.priority t = p.priority s ∧ s ≤ t) ∧
        answer.2 = { p with
          pending := Function.update p.pending s false
          claimedBy := Function.update p.claimedBy s (BitVec.ofNat 8 (context.val + 1)) })) ∧
    (∀ (p : Plic) (csrs : CsrFile) (i : ℕ),
      ((p.synchronize csrs).readValue .mip).getLsbD i =
        if i = 9 then decide ((p.read (claimOffset 1) .word).1.value ≠ 0#64)
        else if i = 11 then decide ((p.read (claimOffset 0) .word).1.value ≠ 0#64)
        else (csrs.readValue .mip).getLsbD i) ∧
    ∀ (p : Plic) (context other : Fin 2) (enable threshold : BitVec 32), context ≠ other →
      ({ p with
        enable := Function.update p.enable other enable
        threshold := Function.update p.threshold other threshold } : Plic).contextPending context =
        p.contextPending context := by
  refine ⟨fun p context ↦ ?_, fun p csrs i ↦ ?_, fun p context other enable threshold hne ↦ ?_⟩
  · have hzero := Ledger.claim_value_iff p context 0
    rw [show (sourceId 0).setWidth 64 = 0#64 from rfl] at hzero
    dsimp only
    rw [hzero, ne_eq, hzero, read_claim]
    refine ⟨rfl, p.select_eq_zero_iff context, fun h ↦ ?_, fun h ↦ ?_⟩
    · rw [claim, if_neg (not_not_intro h)]
    · have hwinner := p.select_winner context h
      refine ⟨p.select context, h, rfl, hwinner.1, hwinner.2, ?_⟩
      dsimp only
      rw [claim, if_pos h]
  · have hlevel (context : Fin 2) : p.contextPending context =
        decide ((p.read (claimOffset context) .word).1.value ≠ 0#64) := by
      rw [Bool.eq_iff_iff, contextPending_iff, decide_eq_true_iff]
    rw [getLsbD_mip_synchronize, hlevel, hlevel]
  · rw [contextPending, contextPending]
    congr 1
    exact select_congr p context rfl rfl rfl (Function.update_of_ne hne _ _)
      (Function.update_of_ne hne _ _)

end Plic

end Rvemu
