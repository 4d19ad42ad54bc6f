import Rvemu.Bus.Lemmas
import Rvemu.Lib.Runs

/-!
# Dispatch on the physical bus

Registration keeps the regions apart and in order of their bases, so the order in which regions were
registered leaves no trace; an access reaches the one region that holds all of its bytes, and an
access that no region holds all of changes nothing.
-/

set_option autoImplicit false

namespace Rvemu

/-- The region holds all bytes of the access, counted without wrapping. -/
def AddressRegion.Spans (r : AddressRegion) (address : BitVec 64) (w : AccessWidth) : Prop :=
  r.range.base.toNat ≤ address.toNat ∧
    address.toNat + widthInBytes w ≤ r.range.base.toNat + r.range.size.toNat

/-- The address lies in the region. -/
def AddressRegion.Holds (r : AddressRegion) (x : ℕ) : Prop :=
  r.range.base.toNat ≤ x ∧ x < r.range.base.toNat + r.range.size.toNat

theorem AddressRegion.Spans.holds {r : AddressRegion} {address : BitVec 64} {w : AccessWidth}
    (h : r.Spans address w) : r.Holds address.toNat := by
  have hw := widthInBytes_pos w
  exact ⟨h.1, by have := h.2; omega⟩

theorem AddressRegion.apart_iff_disjoint (r s : AddressRegion) :
    r.Apart s ↔ ∀ x, ¬ (r.Holds x ∧ s.Holds x) := by
  refine ⟨fun h x hx ↦ h.disjoint hx.1 hx.2, fun h ↦ ?_⟩
  have hr := r.range.size_pos
  have hs := s.range.size_pos
  -- the larger of the two bases would be in both
  have hbase := h r.range.base.toNat
  have hbase' := h s.range.base.toNat
  rw [Apart, AddressRange.overlaps, Bool.and_eq_false_iff, decide_eq_false_iff_not,
    decide_eq_false_iff_not, BitVec.lt_def, BitVec.lt_def, AddressRange.toNat_endExclusive,
    AddressRange.toNat_endExclusive]
  rw [Holds, Holds] at hbase hbase'
  omega

namespace Bus

/-! ## Registration -/

/-- `register_region` with the pointer it is given, which may be null. -/
def register (b : Bus) : Option AddressRegion → AccessResult × Bus
  | none => (.failure { code := .invalidRegion, detail := "不能向物理总线注册空区域" }, b)
  | some region => b.registerRegion region

/-- The bus after a registration. -/
def registered (b : Bus) (region : Option AddressRegion) : Bus := (b.register region).2

/-- The regions that calls add, in the order of the calls. -/
def accepted : Bus → List (Option AddressRegion) → List AddressRegion
  | _, [] => []
  | b, region :: rest =>
    (if (b.register region).1.ok then region.toList else []) ++ accepted (b.registered region) rest

theorem register_cases (b : Bus) (region : Option AddressRegion) :
    (b.register region).1.ok = false ∧ b.registered region = b ∨
    ∃ r, region = some r ∧ (b.register region).1.ok = true ∧
      (b.registered region).reservation = b.reservation ∧
      (b.registered region).nextReservationToken = b.nextReservationToken ∧
      (b.registered region).regions = (b.regions ++ [r]).mergeSort
        fun lhs rhs ↦ decide (lhs.range.base ≤ rhs.range.base) := by
  cases region with
  | none => exact Or.inl ⟨rfl, rfl⟩
  | some r =>
    rw [registered, register, registerRegion]
    split
    · exact Or.inl ⟨rfl, rfl⟩
    · exact Or.inr ⟨r, rfl, rfl, rfl, rfl, rfl⟩

/-- A region is refused only if it overlaps a registered one. -/
theorem ok_registerRegion_iff (b : Bus) (region : AddressRegion) :
    (b.registerRegion region).1.ok = true ↔ ∀ r ∈ b.regions, r.Apart region := by
  rw [registerRegion]
  split
  · next registered hfind =>
    refine iff_of_false Bool.false_ne_true fun hapart ↦ ?_
    have hover := List.find?_some hfind
    rw [(hapart registered (List.mem_of_find?_eq_some hfind)).symm] at hover
    cases hover
  · next hfind =>
    refine iff_of_true rfl fun r hr ↦ ?_
    have hno := List.find?_eq_none.1 hfind r hr
    rw [Bool.not_eq_true] at hno
    exact AddressRegion.Apart.symm hno

theorem ok_register_iff (b : Bus) (region : Option AddressRegion) :
    (b.register region).1.ok = true ↔ ∃ r, region = some r ∧ ∀ s ∈ b.regions, s.Apart r := by
  cases region with
  | none => simp [register, AccessResult.ok, AccessResult.failure]
  | some r => simpa [register] using b.ok_registerRegion_iff r

/-- The regions stand in order of their bases. -/
def Ordered (b : Bus) : Prop := b.regions.Pairwise fun lhs rhs ↦ lhs.range.base ≤ rhs.range.base

theorem ordered_registered {b : Bus} (h : b.Ordered) (region : Option AddressRegion) :
    (b.registered region).Ordered := by
  rcases b.register_cases region with ⟨-, hsame⟩ | ⟨r, -, -, -, -, hregions⟩
  · rw [hsame]
    exact h
  · rw [Ordered, hregions]
    refine List.Pairwise.imp (fun h ↦ of_decide_eq_true h) (List.pairwise_mergeSort ?_ ?_ _)
    · intro a b c hab hbc
      rw [decide_eq_true_iff] at hab hbc ⊢
      exact BitVec.le_trans hab hbc
    · intro a b
      rw [Bool.or_eq_true, decide_eq_true_iff, decide_eq_true_iff]
      exact BitVec.le_total _ _

theorem ordered_run (calls : List (Option AddressRegion)) :
    (Runs.run registered {} calls).Ordered := by
  have hempty : Ordered {} := List.Pairwise.nil
  refine Runs.run_induction (I := Ordered) (fun b region h ↦ ?_) hempty calls
  exact ordered_registered h region

/-- The calls add the accepted regions and do nothing else. -/
theorem run_registered (calls : List (Option AddressRegion)) (b : Bus) :
    (Runs.run registered b calls).regions.Perm (b.regions ++ accepted b calls) ∧
      (Runs.run registered b calls).reservation = b.reservation ∧
      (Runs.run registered b calls).nextReservationToken = b.nextReservationToken := by
  induction calls generalizing b with
  | nil =>
    rw [accepted, List.append_nil]
    exact ⟨List.Perm.refl _, rfl, rfl⟩
  | cons region rest ih =>
    obtain ⟨hperm, hreservation, htoken⟩ := ih (b.registered region)
    rw [Runs.run_cons, accepted]
    rcases b.register_cases region with ⟨hok, hsame⟩ | ⟨r, rfl, hok, hres, htok, hregions⟩
    · rw [hsame] at hperm hreservation htoken ⊢
      rw [hok]
      exact ⟨hperm, hreservation, htoken⟩
    · refine ⟨hperm.trans ?_, hreservation.trans hres, htoken.trans htok⟩
      rw [hok, if_pos rfl, Option.toList_some, ← List.append_assoc, hregions]
      exact (List.mergeSort_perm _ _).append_right _

/-- Different regions of a bus have different bases. -/
theorem eq_of_base_eq {b : Bus} {r s : AddressRegion} (hr : r ∈ b.regions) (hs : s ∈ b.regions)
    (h : r.range.base = s.range.base) : r = s := by
  have hpos := r.range.size_pos
  have hpos' := s.range.size_pos
  refine region_unique hr hs (x := r.range.base.toNat) ⟨Nat.le_refl _, by omega⟩ ?_
  rw [h]
  exact ⟨Nat.le_refl _, by omega⟩

/-- A bus is determined by the set of its regions. -/
theorem eq_of_perm {b b' : Bus} (h : b.Ordered) (h' : b'.Ordered)
    (hperm : b.regions.Perm b'.regions)
    (hreservation : b.reservation = b'.reservation)
    (htoken : b.nextReservationToken = b'.nextReservationToken) : b = b' := by
  refine ext_fields (hperm.eq_of_pairwise (fun r s hr hs hrs hsr ↦ ?_) h h') hreservation htoken
  exact eq_of_base_eq hr (hperm.symm.mem_iff.1 hs) (BitVec.le_antisymm hrs hsr)

/-! ## Access -/

/-- The access of the bus is the access of the region at this position, and no other region is
touched. -/
def Forwarded (b : Bus) (i : ℕ) (result : AccessResult × Bus)
    (answer : AccessResult × AddressRegion) :
    Prop :=
  result.1 = answer.1 ∧ result.2.regions = b.regions.set i answer.2

theorem onRegion_of_spans {b : Bus} {r : AddressRegion} (hr : r ∈ b.regions) {address : BitVec 64}
    {w : AccessWidth} (h : r.Spans address w) :
    ∃ i, b.regions[i]? = some r ∧ ∀ op : RegionOp,
      b.Forwarded i (b.onRegion address w op) (op.run r (address - r.range.base)) := by
  obtain ⟨i, hi, hlocate⟩ := locate_of_mem hr h.1 h.2
  refine ⟨i, hi, fun op ↦ ?_⟩
  rcases onRegion_cases b address w op with ⟨e, he, -⟩ | ⟨j, o, s, hj, hs, hresult, hregions, -⟩
  · rw [hlocate] at he
    cases he
  · rw [hlocate] at hj
    cases hj
    rw [hi] at hs
    cases hs
    exact ⟨hresult, hregions⟩

theorem locate_of_not_spans {b : Bus} {address : BitVec 64} {w : AccessWidth}
    (h : ∀ r ∈ b.regions, ¬ r.Spans address w) : ∃ e, b.locate address w = .error e := by
  cases hlocate : b.locate address w with
  | error e => exact ⟨e, rfl⟩
  | ok p =>
    obtain ⟨r, hr, h₁, h₂, -⟩ := locate_ok hlocate
    exact absurd ⟨h₁, h₂⟩ (h r (List.mem_of_getElem? hr))

theorem regions_write (b : Bus) (address : BitVec 64) (w : AccessWidth) (value : BitVec 64)
    (type : AccessType) :
    (b.write address w value type).1 = (b.onRegion address w (writeOp w value)).1 ∧
      (b.write address w value type).2.regions =
        (b.onRegion address w (writeOp w value)).2.regions := by
  simp only [write]
  split
  · exact ⟨rfl, regions_invalidateReservationLocked _ _ _⟩
  · exact ⟨rfl, rfl⟩

theorem regions_compareExchange (b : Bus) (address : BitVec 64) (w : AccessWidth)
    (expected desired : BitVec 64) (type : AccessType) :
    (b.compareExchange address w expected desired type).1 =
        (b.onRegion address w (compareExchangeOp w expected desired)).1 ∧
      (b.compareExchange address w expected desired type).2.regions =
        (b.onRegion address w (compareExchangeOp w expected desired)).2.regions := by
  simp only [compareExchange]
  split
  · exact ⟨rfl, regions_invalidateReservationLocked _ _ _⟩
  · exact ⟨rfl, rfl⟩

/-- **Dispatch.**  Registration accepts the regions that are apart from the registered ones, and the
bus then has exactly the accepted ones, disjoint and whatever their order; a refusal leaves no
trace.  Every access reaches the one region that holds all of its bytes, at the offset from its
base, or fails and changes nothing. -/
theorem bus_dispatch (calls : List (Option AddressRegion)) :
    let b := Runs.run registered {} calls
    b.regions.Perm (accepted {} calls) ∧
    (∀ region, (b.register region).1.ok = true ↔
      ∃ r, region = some r ∧ ∀ s ∈ b.regions, ∀ x, ¬ (s.Holds x ∧ r.Holds x)) ∧
    (b.regions.Pairwise fun r s ↦ ∀ x, ¬ (r.Holds x ∧ s.Holds x)) ∧
    (∀ region, (b.register region).1.ok = false → b.registered region = b) ∧
    (∀ calls', (accepted {} calls').Perm (accepted {} calls) → Runs.run registered {} calls' = b) ∧
    ∀ (b : Bus) (address : BitVec 64) (w : AccessWidth),
      (∀ r ∈ b.regions, r.Spans address w →
        (∀ s ∈ b.regions, s.Spans address w → s = r) ∧
        ∃ i, b.regions[i]? = some r ∧
          (∀ type, b.Forwarded i (b.read address w type) (r.read (address - r.range.base) w)) ∧
          (∀ value type, b.Forwarded i (b.write address w value type)
            (r.write (address - r.range.base) w value)) ∧
          ∀ expected desired type,
            b.Forwarded i (b.compareExchange address w expected desired type)
              (r.compareExchange (address - r.range.base) w expected desired)) ∧
      ((∀ r ∈ b.regions, ¬ r.Spans address w) →
        ∃ e : BusError, (AccessResult.failure e).ok = false ∧
          (∀ type, b.read address w type = (.failure e, b)) ∧
          (∀ value type, b.write address w value type = (.failure e, b)) ∧
          ∀ expected desired type,
            b.compareExchange address w expected desired type = (.failure e, b)) := by
  intro b
  refine ⟨?_, fun region ↦ ?_, ?_, fun region hrefused ↦ ?_, fun calls' hperm ↦ ?_,
    fun b address w ↦ ⟨fun r hr hspans ↦ ?_, fun hno ↦ ?_⟩⟩
  · simpa using (run_registered calls {}).1
  · simp only [ok_register_iff, AddressRegion.apart_iff_disjoint]
  · exact b.apart.imp fun hapart x hx ↦ hapart.disjoint hx.1 hx.2
  · rcases b.register_cases region with ⟨-, hsame⟩ | ⟨r, -, hok, -⟩
    · exact hsame
    · rw [hok] at hrefused
      cases hrefused
  · obtain ⟨hregions, hreservation, htoken⟩ := run_registered calls {}
    obtain ⟨hregions', hreservation', htoken'⟩ := run_registered calls' {}
    refine eq_of_perm (ordered_run calls') (ordered_run calls) ?_
      (hreservation'.trans hreservation.symm)
      (htoken'.trans htoken.symm)
    exact (hregions'.trans hperm).trans hregions.symm
  · refine ⟨fun s hs hspans' ↦ region_unique hs hr hspans'.holds hspans.holds, ?_⟩
    obtain ⟨i, hi, hforward⟩ := onRegion_of_spans hr hspans
    refine ⟨i, hi, fun type ↦ hforward (readOp w), fun value type ↦ ?_,
      fun expected desired type ↦ ?_⟩
    · obtain ⟨hresult, hregions⟩ := b.regions_write address w value type
      obtain ⟨hop, hopRegions⟩ := hforward (writeOp w value)
      exact ⟨hresult.trans hop, hregions.trans hopRegions⟩
    · obtain ⟨hresult, hregions⟩ := b.regions_compareExchange address w expected desired type
      obtain ⟨hop, hopRegions⟩ := hforward (compareExchangeOp w expected desired)
      exact ⟨hresult.trans hop, hregions.trans hopRegions⟩
  · obtain ⟨e, he⟩ := locate_of_not_spans hno
    have hfail := locate_error he
    have hop (op : RegionOp) : b.onRegion address w op = (.failure e, b) := by
      rw [onRegion, he, onLocated]
    refine ⟨e, hfail, fun type ↦ hop _, fun value type ↦ ?_, fun expected desired type ↦ ?_⟩
    · rw [write, hop, hfail]
      rfl
    · rw [compareExchange, hop, hfail]
      rfl

end Bus

end Rvemu
