import Mathlib.Algebra.Order.Field.Power
import Mathlib.Algebra.Order.Ring.Rat
import Mathlib.Tactic.Positivity
import Mathlib.Tactic.NormNum
import Rvemu.Core.IntegerSemantics
import Rvemu.Core.OpVDecoding
import Rvemu.Lib.Bits

/-!
# Setting the vector length

The configuration instructions against the manual, in which LMUL is a power of two with a signed
exponent and VLMAX the fraction `VLEN * LMUL / SEW`.  From what one of them returns follows that a
loop which takes `vl` elements off what is left, as often as there is something left, meets every
element once.
-/

set_option autoImplicit false

namespace Rvemu

/-! ## The fields of `vtype` -/

namespace Rvv

def vsew (vtype : BitVec 64) : BitVec 3 := vtype.extractLsb' 3 3

def vlmul (vtype : BitVec 64) : BitVec 3 := vtype.extractLsb' 0 3

/-- The element width in bits. -/
def sew (vtype : BitVec 64) : ℚ := 8 * 2 ^ (vsew vtype).toNat

/-- The group multiplier: `vlmul` is the exponent, in two's complement. -/
def lmul (vtype : BitVec 64) : ℚ := 2 ^ (vlmul vtype).toInt

def vlmax (vtype : BitVec 64) : ℚ := 256 * lmul vtype / sew vtype

theorem vlmax_pos (vtype : BitVec 64) : 0 < vlmax vtype := by
  have hlmul : 0 < lmul vtype := zpow_pos (by norm_num) _
  have hsew : 0 < sew vtype := mul_pos (by norm_num) (pow_pos (by norm_num) _)
  exact div_pos (mul_pos (by norm_num) hlmul) hsew

/-- The supported values: nothing above the eight bits of the fields, no reserved encoding, and an
element width that the multiplier leaves room for. -/
structure Legal (vtype : BitVec 64) : Prop where
  upper : vtype >>> 8 = 0#64
  vsew : vsew vtype ≤ 3#3
  vlmul : vlmul vtype ≠ 4#3
  fits : sew vtype ≤ lmul vtype * 64

end Rvv

theorem upper_iff (vtype : BitVec 64) :
    ((vtype &&& vtypeVill) != 0#64 || (vtype &&& ~~~vtypeImplementedMask) != 0#64) = false ↔
      vtype >>> 8 = 0#64 := by
  have hmask (i : ℕ) : (vtype &&& ~~~vtypeImplementedMask).getLsbD i =
      (vtype.getLsbD i && decide (8 ≤ i)) := by
    have hbit := Bits.getLsbD_const (c := vtypeImplementedMask) (p := fun i ↦ decide (i < 8))
      (by decide) (fun i hi ↦ decide_eq_false (by omega)) i
    rw [BitVec.getLsbD_and, BitVec.getLsbD_not, hbit]
    by_cases hi : i < 64
    · rw [decide_eq_true hi, Bool.true_and, ← decide_not, decide_eq_decide.2 Nat.not_lt]
    · rw [BitVec.getLsbD_of_ge vtype i (by omega), Bool.false_and, Bool.false_and]
  rw [Bool.or_eq_false_iff, bne_eq_false_iff_eq, bne_eq_false_iff_eq]
  constructor
  · rintro ⟨-, h⟩
    refine BitVec.eq_of_getLsbD_eq fun i _ ↦ ?_
    have hi := hmask (8 + i)
    rw [h, decide_eq_true (by omega), Bool.and_true] at hi
    rw [BitVec.getLsbD_ushiftRight, ← hi, BitVec.getLsbD_zero, BitVec.getLsbD_zero]
  · intro h
    have hupper : vtype &&& ~~~vtypeImplementedMask = 0#64 := by
      refine BitVec.eq_of_getLsbD_eq fun i _ ↦ ?_
      rw [hmask]
      by_cases hi : 8 ≤ i
      · have hbit := congrArg (·.getLsbD (i - 8)) h
        simp only [BitVec.getLsbD_ushiftRight, show 8 + (i - 8) = i by omega] at hbit
        rw [hbit, Bool.and_comm]
        simp
      · simp [hi]
    refine ⟨?_, hupper⟩
    -- bit 63 is one of the upper bits
    have hvill : vtypeVill = vtypeVill &&& ~~~vtypeImplementedMask := by decide
    rw [hvill, BitVec.and_comm vtypeVill, ← BitVec.and_assoc, hupper, BitVec.zero_and]

/-- LMUL as a fraction. -/
theorem decodeLmul_some {e : BitVec 3} {n d : ℕ} (h : decodeLmul e = some (n, d)) :
    (2 : ℚ) ^ e.toInt = n / d := by
  have hall : ∀ e : BitVec 3, ∀ l ∈ decodeLmul e,
      (e.toInt, l.1, l.2) ∈ [(0, 1, 1), (1, 2, 1), (2, 4, 1), (3, 8, 1), (-3, 1, 8), (-2, 1, 4),
        (-1, 1, 2)] := by decide
  have hmem := hall e (n, d) h
  simp only [List.mem_cons, Prod.mk.injEq, List.mem_nil_iff, or_false] at hmem
  rcases hmem with ⟨he, rfl, rfl⟩ | ⟨he, rfl, rfl⟩ | ⟨he, rfl, rfl⟩ | ⟨he, rfl, rfl⟩ |
    ⟨he, rfl, rfl⟩ | ⟨he, rfl, rfl⟩ | ⟨he, rfl, rfl⟩ <;> rw [he] <;> norm_num

theorem decodeLmul_eq_none_iff (e : BitVec 3) : decodeLmul e = none ↔ e = 4#3 := by
  revert e
  decide

/-- The divisions of the decoder are exact. -/
theorem capacity_exact : ∀ s : BitVec 3, s ≤ 3#3 →
    ∀ l ∈ [(1, 1), (2, 1), (4, 1), (8, 1), (1, 8), (1, 4), (1, 2)],
      (8 <<< s.toNat > maximumElementLengthBits * l.1 / l.2 ↔ ¬ 8 * 2 ^ s.toNat * l.2 ≤ l.1 * 64) ∧
      (8 * 2 ^ s.toNat * l.2 ≤ l.1 * 64 →
        vectorLengthBits / (8 <<< s.toNat) * l.1 / l.2 ≠ 0 ∧
        vectorLengthBits / (8 <<< s.toNat) * l.1 / l.2 * (8 * 2 ^ s.toNat * l.2) = 256 * l.1) := by
  decide

theorem configurationOf_some {vtype : BitVec 64} {s : BitVec 3} (hs : s ≤ 3#3) {n d : ℕ}
    (hmem : (n, d) ∈ [(1, 1), (2, 1), (4, 1), (8, 1), (1, 8), (1, 4), (1, 2)]) :
    ((configurationOf vtype s (some (n, d))).valid = true ↔
        (8 * 2 ^ s.toNat : ℚ) ≤ n / d * 64) ∧
      ((8 * 2 ^ s.toNat : ℚ) ≤ n / d * 64 →
        ((configurationOf vtype s (some (n, d))).vlmax : ℚ) =
        256 * (n / d) / (8 * 2 ^ s.toNat)) := by
  obtain ⟨hlarge, hcapacity⟩ := capacity_exact s hs (n, d) hmem
  have hd : (0 : ℚ) < d := by
    have hpos : ∀ l ∈ [(1, 1), (2, 1), (4, 1), (8, 1), (1, 8), (1, 4), (1, 2)], 0 < l.2 := by decide
    exact_mod_cast hpos (n, d) hmem
  have hfits : (8 * 2 ^ s.toNat : ℚ) ≤ n / d * 64 ↔ 8 * 2 ^ s.toNat * d ≤ n * 64 := by
    rw [div_mul_eq_mul_div, le_div_iff₀ hd]
    exact_mod_cast Iff.rfl
  rw [hfits, configurationOf, if_neg (show ¬ s > 3#3 from BitVec.not_lt.2 hs)]
  dsimp only at hlarge hcapacity ⊢
  by_cases hroom : 8 * 2 ^ s.toNat * d ≤ n * 64
  · obtain ⟨hpos, hexact⟩ := hcapacity hroom
    rw [if_neg (mt hlarge.1 (not_not_intro hroom)), if_neg hpos]
    refine ⟨iff_of_true rfl hroom, fun _ ↦ ?_⟩
    rw [mul_div_assoc', div_div, eq_div_iff (by positivity), mul_comm (d : ℚ)]
    exact_mod_cast hexact
  · rw [if_pos (hlarge.2 hroom)]
    exact ⟨iff_of_false Bool.false_ne_true hroom, fun h ↦ absurd h hroom⟩

/-- What the decoder finds is what the manual says. -/
theorem decodeVectorConfiguration_spec (vtype : BitVec 64) :
    ((decodeVectorConfiguration vtype).valid = true ↔ Rvv.Legal vtype) ∧
      (Rvv.Legal vtype → ((decodeVectorConfiguration vtype).vlmax : ℚ) = Rvv.vlmax vtype) := by
  -- each of the four rules is one test of the decoder
  have hreserved (hno : ¬ Rvv.Legal vtype) (hdecode : decodeVectorConfiguration vtype = {}) :
      ((decodeVectorConfiguration vtype).valid = true ↔ Rvv.Legal vtype) ∧
        (Rvv.Legal vtype → ((decodeVectorConfiguration vtype).vlmax : ℚ) = Rvv.vlmax vtype) := by
    rw [hdecode]
    exact ⟨iff_of_false Bool.false_ne_true hno, fun h ↦ absurd h hno⟩
  by_cases hupper : vtype >>> 8 = 0#64
  · have hdecode : decodeVectorConfiguration vtype =
        configurationOf vtype (Rvv.vsew vtype) (decodeLmul (Rvv.vlmul vtype)) := by
      rw [decodeVectorConfiguration, (upper_iff vtype).2 hupper, if_neg Bool.false_ne_true]
      rfl
    by_cases hsew : Rvv.vsew vtype ≤ 3#3
    · cases hlmul : decodeLmul (Rvv.vlmul vtype) with
      | none =>
        refine hreserved (fun h ↦ h.vlmul ((decodeLmul_eq_none_iff _).1 hlmul)) ?_
        rw [hdecode, hlmul, configurationOf]
        split <;> rfl
      | some l =>
        obtain ⟨n, d⟩ := l
        have hlegal : Rvv.Legal vtype ↔ Rvv.sew vtype ≤ Rvv.lmul vtype * 64 := by
          refine ⟨Rvv.Legal.fits, fun h ↦ ⟨hupper, hsew, fun he ↦ ?_, h⟩⟩
          rw [(decodeLmul_eq_none_iff _).2 he] at hlmul
          cases hlmul
        rw [hlegal, hdecode, hlmul, Rvv.vlmax, Rvv.lmul, Rvv.sew, decodeLmul_some hlmul]
        exact configurationOf_some hsew (decodeLmul_mem hlmul)
    · refine hreserved (fun h ↦ hsew h.vsew) ?_
      rw [hdecode, configurationOf, if_pos (show Rvv.vsew vtype > 3#3 from BitVec.not_le.1 hsew)]
  · refine hreserved (fun h ↦ hupper h.upper) ?_
    have hbits := (upper_iff vtype).not.2 hupper
    rw [Bool.not_eq_false] at hbits
    rw [decodeVectorConfiguration, hbits, if_pos rfl]

theorem toNat_selectVectorLength (avl : BitVec 64) {vlmax : ℕ} (h : vlmax ≤ 256) :
    (selectVectorLength avl vlmax).toNat = min avl.toNat vlmax := by
  rw [selectVectorLength]
  split
  · next hzero =>
    rw [hzero, Nat.min_zero]
    rfl
  · split
    · omega
    · rw [BitVec.toNat_ofNat]
      omega

/-! ## What the instructions commit -/

namespace Cpu

/-- A configuration instruction completes: what it commits, and that no other register and no memory
changes. -/
structure Configures (c : Cpu) (packet : InstructionPacket) (rd : BitVec 5)
    (type length : BitVec 64)
    (answer : StepResult × Cpu) : Prop where
  completes : answer.1 = .success packet.length
  vtype : answer.2.state.csrs.readValue .vtype = type
  vl : answer.2.state.csrs.readValue .vl = length
  vstart : answer.2.state.csrs.readValue .vstart = 0#64
  integer : ∀ r, answer.2.state.integer r = if r = rd ∧ r ≠ 0#5 then length else c.state.integer r
  floating : answer.2.state.floatingRegisters = c.state.floatingRegisters
  vector : answer.2.state.vectorState = c.state.vectorState
  programCounter : answer.2.state.programCounter =
    packet.programCounter + BitVec.ofNat 64 packet.length
  bus : answer.2.bus = c.bus

variable {c : Cpu} {packet : InstructionPacket} {kind : Rvv.Configuration}

theorem executeStandard_configuration (hopcode : packet.bits.extractLsb' 0 7 = 0x57#7)
    (hcategory : packet.bits.extractLsb' 12 3 = 7#3)
    (hkind : Rvv.configuration packet.bits = some kind)
    (hvs : c.state.csrs.vectorStateEnabled = true) :
    c.executeStandard packet = c.configure packet (packet.bits.extractLsb' 7 5)
      (packet.programCounter + BitVec.ofNat 64 packet.length)
      (c.configurationRequest (packet.bits.extractLsb' 7 5)
        (packet.bits.extractLsb' 15 5) kind) := by
  have hdispatch : c.executeStandard packet = c.executeOpV packet (decode packet.bits)
      (packet.programCounter + BitVec.ofNat 64 packet.length) := if_pos hopcode
  rw [hdispatch, executeOpV_eq hvs, dispatched_other _ (by rw [hcategory]; rfl)
    (by rw [hcategory]; rfl),
    if_pos hcategory, hkind]
  rfl

/-- Committing and writing `rd`. -/
theorem configures_commit (c : Cpu) (packet : InstructionPacket) (rd : BitVec 5)
    (type length : BitVec 64) :
    c.Configures packet rd type length ((c.commitConfiguration type length).writeAndRetire packet rd
      length (packet.programCounter + BitVec.ofNat 64 packet.length)) := by
  have hset (s : CpuState) (value : BitVec 64) : (s.setInteger rd value).csrs = s.csrs ∧
      (s.setInteger rd value).floatingRegisters = s.floatingRegisters ∧
      (s.setInteger rd value).vectorState = s.vectorState := by
    rw [CpuState.setInteger]
    split <;> exact ⟨rfl, rfl, rfl⟩
  have hcommit : ((c.commitConfiguration type length).writeAndRetire packet rd length
      (packet.programCounter + BitVec.ofNat 64 packet.length)).2.state.csrs =
      c.state.csrs.commitVectorConfiguration type length := (hset _ _).1
  rw [CsrFile.commitVectorConfiguration, CsrFile.markVectorStateDirty_eq] at hcommit
  refine ⟨rfl, ?_, ?_, ?_, fun r ↦ ?_, (hset _ _).2.1, (hset _ _).2.2, rfl, rfl⟩
  · rw [hcommit]
    rfl
  · rw [hcommit]
    rfl
  · rw [hcommit]
    rfl
  · exact integer_setInteger (c.commitConfiguration type length).state rd r length

/-- Nothing is written to `x0`. -/
theorem writeAndRetire_zero (c : Cpu) (packet : InstructionPacket) (value nextPc : BitVec 64) :
    c.writeAndRetire packet 0#5 value nextPc = c.retire packet nextPc := by
  rw [writeAndRetire, modifyState, CpuState.setInteger, if_pos rfl]

theorem canPreserveVectorLength_iff (previous requested : BitVec 64) :
    canPreserveVectorLength previous requested = true ↔
      Rvv.Legal previous ∧ Rvv.Legal requested ∧ Rvv.vlmax previous = Rvv.vlmax requested := by
  obtain ⟨hprevious, hpreviousMax⟩ := decodeVectorConfiguration_spec previous
  obtain ⟨hrequested, hrequestedMax⟩ := decodeVectorConfiguration_spec requested
  rw [canPreserveVectorLength, Bool.and_eq_true, Bool.and_eq_true, hprevious, hrequested,
    beq_iff_eq,
    and_assoc]
  refine and_congr_right fun hp ↦ and_congr_right fun hr ↦ ?_
  rw [← hpreviousMax hp, ← hrequestedMax hr]
  exact Nat.cast_inj.symm

/-- A request with a vector length. -/
theorem configure_some (rd : BitVec 5) (requested avl : BitVec 64) :
    (Rvv.Legal requested → ∃ vl : BitVec 64,
      (vl.toNat : ℚ) = min (avl.toNat : ℚ) (Rvv.vlmax requested) ∧
      c.Configures packet rd requested vl (c.configure packet rd
        (packet.programCounter + BitVec.ofNat 64 packet.length) (requested, some avl))) ∧
    (¬ Rvv.Legal requested → c.Configures packet rd vtypeVill 0#64 (c.configure packet rd
      (packet.programCounter + BitVec.ofNat 64 packet.length) (requested, some avl))) := by
  obtain ⟨hvalid, hmax⟩ := decodeVectorConfiguration_spec requested
  rw [configure]
  dsimp only
  refine ⟨fun hlegal ↦ ?_, fun hillegal ↦ ?_⟩
  · obtain ⟨hdecoded, htype⟩ := legal_of_valid (hvalid.2 hlegal)
    refine ⟨selectVectorLength avl (decodeVectorConfiguration requested).vlmax, ?_, ?_⟩
    · rw [toNat_selectVectorLength _ hdecoded.vlmax_le, Nat.cast_min, hmax hlegal]
    · rw [hvalid.2 hlegal, if_pos rfl, htype]
      exact configures_commit c packet rd requested _
  · rw [if_neg (mt hvalid.1 hillegal)]
    exact configures_commit c packet rd vtypeVill 0#64

/-- A request to keep the vector length, which only names `x0`. -/
theorem configure_none (requested : BitVec 64) :
    (Rvv.Legal (c.state.csrs.readValue .vtype) ∧ Rvv.Legal requested ∧
        Rvv.vlmax (c.state.csrs.readValue .vtype) = Rvv.vlmax requested →
      c.Configures packet 0#5 requested (c.state.csrs.readValue .vl) (c.configure packet 0#5
        (packet.programCounter + BitVec.ofNat 64 packet.length) (requested, none))) ∧
    (¬ (Rvv.Legal (c.state.csrs.readValue .vtype) ∧ Rvv.Legal requested ∧
        Rvv.vlmax (c.state.csrs.readValue .vtype) = Rvv.vlmax requested) →
      c.configure packet 0#5 (packet.programCounter + BitVec.ofNat 64 packet.length)
        (requested, none) = c.illegal packet) := by
  have hkeeps := canPreserveVectorLength_iff (c.state.csrs.readValue .vtype) requested
  rw [configure]
  refine ⟨fun h ↦ ?_, fun h ↦ ?_⟩
  · have hvalid := (decodeVectorConfiguration_spec requested).1.2 h.2.1
    rw [hkeeps.2 h, Bool.not_true, if_neg Bool.false_ne_true, (legal_of_valid hvalid).2,
      ← writeAndRetire_zero _ packet (c.state.csrs.readValue .vl)]
    exact configures_commit c packet 0#5 requested _
  · rw [eq_false_of_ne_true (mt hkeeps.1 h), Bool.not_false, if_pos rfl]

theorem applicationVectorLength_eq_none {rd rs1 : BitVec 5}
    (h : c.applicationVectorLength rd rs1 = none) : rd = 0#5 := by
  rw [applicationVectorLength] at h
  split at h
  · cases h
  · split at h
    · cases h
    · next hrd => exact not_not.1 hrd

theorem configurationRequest_none {rd rs1 : BitVec 5}
    (h : (c.configurationRequest rd rs1 kind).2 = none) :
    rd = 0#5 := by
  cases kind with
  | vsetvli zimm => exact applicationVectorLength_eq_none h
  | vsetivli uimm zimm => cases h
  | vsetvl rs2 => exact applicationVectorLength_eq_none h

/-! ## Loops -/

/-- The hart with what is left to do in a register. -/
def holding (c : Cpu) (counter : BitVec 5) (left : BitVec 64) : Cpu :=
  c.modifyState (·.setInteger counter left)

/-- A loop around a configuration instruction: as long as something is left, ask for all of it and
take off what was granted.  The body may do anything to the hart; `harts trip` is what a trip
finds. -/
def stripMine (packet : InstructionPacket) (harts : ℕ → Cpu) : ℕ → ℕ → BitVec 64 → Option (List ℕ)
  | 0, _, left => if left = 0#64 then some [] else none
  | fuel + 1, trip, left =>
    if left = 0#64 then some []
    else
      let answer := ((harts trip).holding (packet.bits.extractLsb' 15 5)
        left).executeStandard packet
      let vl := answer.2.state.csrs.readValue .vl
      (stripMine packet harts fuel (trip + 1) (left - vl)).map (vl.toNat :: ·)

/-- The elements of strips of the given lengths, one after the other. -/
def strips : ℕ → List ℕ → List ℕ
  | _, [] => []
  | start, length :: lengths => List.range' start length ++ strips (start + length) lengths

theorem strips_eq_range' (start : ℕ) (lengths : List ℕ) :
    strips start lengths = List.range' start lengths.sum := by
  induction lengths generalizing start with
  | nil => rfl
  | cons length lengths ih =>
    rw [strips, ih, List.sum_cons, List.range'_append_1]

/-- An instruction that grants at least one of the elements left. -/
theorem granted (hopcode : packet.bits.extractLsb' 0 7 = 0x57#7)
    (hcategory : packet.bits.extractLsb' 12 3 = 7#3)
    (hkind : Rvv.configuration packet.bits = some kind)
      (hvli : ∀ uimm zimm, kind ≠ .vsetivli uimm zimm)
    (hcounter : packet.bits.extractLsb' 15 5 ≠ 0#5) {left : BitVec 64} (hleft : left ≠ 0#64)
    (hvs : c.state.csrs.vectorStateEnabled = true)
    (hlegal : Rvv.Legal ((c.holding (packet.bits.extractLsb' 15 5) left).configurationRequest
      (packet.bits.extractLsb' 7 5) (packet.bits.extractLsb' 15 5) kind).1) :
    let vl := ((c.holding (packet.bits.extractLsb' 15 5) left).executeStandard
      packet).2.state.csrs.readValue .vl
    0 < vl.toNat ∧ vl.toNat ≤ left.toNat := by
  have hvs' : (c.holding (packet.bits.extractLsb' 15 5) left).state.csrs.vectorStateEnabled =
      true := by
    rw [← hvs, holding, modifyState, CpuState.setInteger]
    split <;> rfl
  have hcount : (c.holding (packet.bits.extractLsb' 15 5) left).state.integer
      (packet.bits.extractLsb' 15 5) = left :=
    (integer_setInteger _ _ _ _).trans (if_pos ⟨rfl, hcounter⟩)
  have hlength : (c.holding (packet.bits.extractLsb' 15 5) left).applicationVectorLength
      (packet.bits.extractLsb' 7 5) (packet.bits.extractLsb' 15 5) = some left := by
    rw [applicationVectorLength, if_pos hcounter, hcount]
  dsimp only
  rw [executeStandard_configuration hopcode hcategory hkind hvs']
  generalize hrequest : (c.holding (packet.bits.extractLsb' 15 5) left).configurationRequest
    (packet.bits.extractLsb' 7 5) (packet.bits.extractLsb' 15 5) kind = request at hlegal
  have havl : request.2 = some left := by
    rw [← hrequest]
    cases kind with
    | vsetvli zimm => exact hlength
    | vsetivli uimm zimm => exact absurd rfl (hvli uimm zimm)
    | vsetvl rs2 => exact hlength
  obtain ⟨requested, avl⟩ := request
  obtain rfl : avl = some left := havl
  obtain ⟨vl, hmin, hconfigured⟩ := (configure_some _ requested left).1 hlegal
  rw [hconfigured.vl]
  have hleft' : 0 < left.toNat :=
    Nat.pos_of_ne_zero fun h ↦ hleft (BitVec.eq_of_toNat_eq h)
  have hpos : (0 : ℚ) < min (left.toNat : ℚ) (Rvv.vlmax requested) :=
    lt_min (by exact_mod_cast hleft') (Rvv.vlmax_pos requested)
  have hle : (vl.toNat : ℚ) ≤ left.toNat := hmin.trans_le (min_le_left _ _)
  rw [← hmin] at hpos
  exact ⟨by exact_mod_cast hpos, by exact_mod_cast hle⟩

theorem stripMine_eq (hopcode : packet.bits.extractLsb' 0 7 = 0x57#7)
    (hcategory : packet.bits.extractLsb' 12 3 = 7#3)
    (hkind : Rvv.configuration packet.bits = some kind)
      (hvli : ∀ uimm zimm, kind ≠ .vsetivli uimm zimm)
    (hcounter : packet.bits.extractLsb' 15 5 ≠ 0#5) {harts : ℕ → Cpu}
    (hvs : ∀ trip, (harts trip).state.csrs.vectorStateEnabled = true)
    (hlegal : ∀ trip left, Rvv.Legal (((harts trip).holding (packet.bits.extractLsb' 15 5)
      left).configurationRequest (packet.bits.extractLsb' 7 5)
      (packet.bits.extractLsb' 15 5) kind).1)
    (fuel trip : ℕ) (left : BitVec 64) (hfuel : left.toNat ≤ fuel) :
    ∃ lengths, stripMine packet harts fuel trip left = some lengths ∧ lengths.sum = left.toNat ∧
      ∀ length ∈ lengths, 0 < length := by
  induction fuel generalizing trip left with
  | zero =>
    have hzero : left = 0#64 := BitVec.eq_of_toNat_eq (Nat.le_zero.1 hfuel)
    exact ⟨[], by rw [stripMine, if_pos hzero], by rw [hzero]; rfl, nofun⟩
  | succ fuel ih =>
    by_cases hzero : left = 0#64
    · exact ⟨[], by rw [stripMine, if_pos hzero], by rw [hzero]; rfl, nofun⟩
    · have hgranted := granted hopcode hcategory hkind hvli hcounter hzero (hvs trip)
          (hlegal trip left)
      rw [stripMine, if_neg hzero]
      dsimp only at hgranted ⊢
      generalize ((harts trip).holding (packet.bits.extractLsb' 15 5) left |>.executeStandard
        packet).2.state.csrs.readValue .vl = vl at hgranted ⊢
      have hsub : (left - vl).toNat = left.toNat - vl.toNat :=
        BitVec.toNat_sub_of_le (BitVec.le_def.2 hgranted.2)
      obtain ⟨lengths, hrun, hsum, hpos⟩ := ih (trip + 1) (left - vl) (by omega)
      refine ⟨vl.toNat :: lengths, by rw [hrun]; rfl, ?_, ?_⟩
      · rw [List.sum_cons, hsum]
        omega
      · intro length hmem
        rcases List.mem_cons.1 hmem with rfl | hmem
        · exact hgranted.1
        · exact hpos length hmem

/-- **The configuration instructions.**  A request with a vector length commits the requested
`vtype` and the smaller one of that length and VLMAX, which is also written to `rd`, or `vill` alone
and zero if the `vtype` is not legal.  The form that keeps `vl` needs two legal types of the same
VLMAX and is an illegal instruction otherwise.  A loop that takes the granted elements off what is
left ends, after at most one trip for each element, and has met every element once. -/
theorem vector_length :
    (∀ (c : Cpu) (packet : InstructionPacket) (kind : Rvv.Configuration),
      packet.bits.extractLsb' 0 7 = 0x57#7 → packet.bits.extractLsb' 12 3 = 7#3 →
      Rvv.configuration packet.bits = some kind → c.state.csrs.vectorStateEnabled = true →
      let rd := packet.bits.extractLsb' 7 5
      let request := c.configurationRequest rd (packet.bits.extractLsb' 15 5) kind
      let answer := c.executeStandard packet
      let old := c.state.csrs.readValue .vtype
      (∀ avl, request.2 = some avl →
        (Rvv.Legal request.1 → ∃ vl : BitVec 64,
          (vl.toNat : ℚ) = min (avl.toNat : ℚ) (Rvv.vlmax request.1) ∧
          c.Configures packet rd request.1 vl answer) ∧
        (¬ Rvv.Legal request.1 → c.Configures packet rd vtypeVill 0#64 answer)) ∧
      (request.2 = none → rd = 0#5 ∧
        (Rvv.Legal old ∧ Rvv.Legal request.1 ∧ Rvv.vlmax old = Rvv.vlmax request.1 →
          c.Configures packet rd request.1 (c.state.csrs.readValue .vl) answer) ∧
        (¬ (Rvv.Legal old ∧ Rvv.Legal request.1 ∧ Rvv.vlmax old = Rvv.vlmax request.1) →
          answer = c.illegal packet))) ∧
    ∀ (packet : InstructionPacket) (kind : Rvv.Configuration) (harts : ℕ → Cpu) (avl : BitVec 64),
      let rs1 := packet.bits.extractLsb' 15 5
      packet.bits.extractLsb' 0 7 = 0x57#7 → packet.bits.extractLsb' 12 3 = 7#3 →
      Rvv.configuration packet.bits = some kind → (∀ uimm zimm, kind ≠ .vsetivli uimm zimm) →
      rs1 ≠ 0#5 → (∀ trip, (harts trip).state.csrs.vectorStateEnabled = true) →
      (∀ trip left, Rvv.Legal (((harts trip).holding rs1 left).configurationRequest
        (packet.bits.extractLsb' 7 5) rs1 kind).1) →
      ∃ lengths, stripMine packet harts avl.toNat 0 avl = some lengths ∧
        strips 0 lengths = List.range avl.toNat ∧ ∀ length ∈ lengths, 0 < length := by
  refine ⟨fun c packet kind hopcode hcategory hkind hvs ↦ ?_, ?_⟩
  · dsimp only
    rw [executeStandard_configuration hopcode hcategory hkind hvs]
    generalize hrequest : c.configurationRequest (packet.bits.extractLsb' 7 5)
      (packet.bits.extractLsb' 15 5) kind = request
    obtain ⟨requested, avl⟩ := request
    refine ⟨?_, ?_⟩
    · rintro avl rfl
      exact configure_some _ requested avl
    · rintro rfl
      have hrd := configurationRequest_none (congrArg Prod.snd hrequest)
      rw [hrd]
      exact ⟨rfl, configure_none requested⟩
  · intro packet kind harts avl rs1 hopcode hcategory hkind hvli hcounter hvs hlegal
    obtain ⟨lengths, hrun, hsum, hpos⟩ :=
      stripMine_eq hopcode hcategory hkind hvli hcounter hvs hlegal avl.toNat 0 avl le_rfl
    refine ⟨lengths, hrun, ?_, hpos⟩
    rw [strips_eq_range', hsum, List.range_eq_range']

end Cpu

end Rvemu
