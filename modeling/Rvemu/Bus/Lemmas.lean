import Rvemu.Bus.Bus

/-!
# What a bus access does to memory

The abstract view of the bus is `Bus.ramByte`: the partial function from physical addresses to the
bytes of RAM.  `Bus.InRam b a n` says that the `n` bytes from `a` lie in one RAM region.  Every
access is described by these two: a read of RAM composes the bytes it covers and changes nothing
(`read_of_inRam`), a write to RAM changes exactly the bytes it covers (`write_of_inRam`), and no
access whatsoever that misses RAM changes a byte of it (`ramByte_onRegion_of_not_inRam`).
-/

set_option autoImplicit false

namespace Rvemu

open Bytes

/-- Regions that are apart share no address. -/
theorem AddressRegion.Apart.disjoint {r s : AddressRegion} (h : r.Apart s) {x : ℕ}
    (hr : r.range.base.toNat ≤ x ∧ x < r.range.base.toNat + r.range.size.toNat) :
    ¬ (s.range.base.toNat ≤ x ∧ x < s.range.base.toNat + s.range.size.toNat) := by
  have h₁ := r.range.toNat_endExclusive
  have h₂ := s.range.toNat_endExclusive
  simp only [AddressRegion.Apart, AddressRange.overlaps, Bool.and_eq_false_iff,
    decide_eq_false_iff_not, BitVec.lt_def] at h
  omega

namespace Bus

/-! ## Locating -/

/-- Positions and offsets only depend on the ranges and names of the regions. -/
theorem locateIn_congr (a : BitVec 64) (w : AccessWidth) {l l' : List AddressRegion}
    (h : l.map (fun r ↦ (r.range, r.name)) = l'.map fun r ↦ (r.range, r.name)) (i : ℕ) :
    locateIn a w l i = locateIn a w l' i := by
  induction l generalizing l' i with
  | nil =>
    cases l' with
    | nil => rfl
    | cons r' l' => simp at h
  | cons r l ih =>
    cases l' with
    | nil => simp at h
    | cons r' l' =>
      simp only [List.map_cons, List.cons.injEq, Prod.mk.injEq] at h
      rw [locateIn, locateIn, h.1.1, h.1.2, ih h.2]

theorem locateIn_ok {a : BitVec 64} {w : AccessWidth} {l : List AddressRegion} {k i : ℕ}
    {o : BitVec 64} (h : locateIn a w l k = .ok (i, o)) :
    ∃ r, k ≤ i ∧ l[i - k]? = some r ∧
      r.range.containsSpan a (BitVec.ofNat 64 (widthInBytes w)) = true ∧
      o = r.range.offsetOf a := by
  induction l generalizing k with
  | nil => simp [locateIn] at h
  | cons r l ih =>
    rw [locateIn] at h
    split at h
    · obtain ⟨s, hk, hs, hc⟩ := ih h
      refine ⟨s, by omega, ?_, hc⟩
      rw [show i - k = (i - (k + 1)) + 1 by omega, List.getElem?_cons_succ]
      exact hs
    · split at h
      · simp at h
      · rename_i hc
        injection h with h
        injection h with h₁ h₂
        subst h₁
        exact ⟨r, Nat.le_refl _, by simp, by simpa using hc, h₂.symm⟩

/-- A located access names a region of the list that holds all of its bytes. -/
theorem locate_ok {b : Bus} {a : BitVec 64} {w : AccessWidth} {i : ℕ} {o : BitVec 64}
    (h : b.locate a w = .ok (i, o)) :
    ∃ r, b.regions[i]? = some r ∧ r.range.base.toNat ≤ a.toNat ∧
      a.toNat + widthInBytes w ≤ r.range.base.toNat + r.range.size.toNat ∧
      o.toNat = a.toNat - r.range.base.toNat := by
  rw [locate] at h
  split at h
  · simp at h
  · obtain ⟨r, -, hr, hc, ho⟩ := locateIn_ok h
    obtain ⟨h₁, h₂⟩ := (AddressRange.containsSpan_iff _ _ _).1 hc
    exact ⟨r, by simpa using hr, h₁, h₂, by rw [ho, AddressRange.toNat_offsetOf _ h₁]⟩

theorem locateIn_of_mem {a : BitVec 64} {w : AccessWidth} {l : List AddressRegion}
    (hp : l.Pairwise AddressRegion.Apart) {r : AddressRegion} (hr : r ∈ l)
    (h₁ : r.range.base.toNat ≤ a.toNat)
    (h₂ : a.toNat + widthInBytes w ≤ r.range.base.toNat + r.range.size.toNat) (k : ℕ) :
    ∃ i, l[i]? = some r ∧ locateIn a w l k = .ok (k + i, r.range.offsetOf a) := by
  have hw := widthInBytes_pos w
  have hc : r.range.contains a = true := (AddressRange.contains_iff _ _).2 ⟨h₁, by omega⟩
  have hs : r.range.containsSpan a (BitVec.ofNat 64 (widthInBytes w)) = true :=
    (AddressRange.containsSpan_iff _ _ _).2 ⟨h₁, h₂⟩
  induction l generalizing k with
  | nil => simp at hr
  | cons s l ih =>
    rw [List.pairwise_cons] at hp
    rw [locateIn]
    rcases List.mem_cons.1 hr with rfl | hr
    · exact ⟨0, by simp, by simp [hc, hs]⟩
    · have hns : s.range.contains a = false := by
        by_contra hcon
        exact (hp.1 r hr).disjoint ((AddressRange.contains_iff s.range a).1 (by simpa using hcon))
          ((AddressRange.contains_iff _ _).1 hc)
      obtain ⟨i, hi, hl⟩ := ih hp.2 hr (k + 1)
      refine ⟨i + 1, by simpa using hi, ?_⟩
      rw [hns, hl]
      simp [Nat.add_comm, Nat.add_left_comm]

/-- An access that fits a region is located there. -/
theorem locate_of_mem {b : Bus} {a : BitVec 64} {w : AccessWidth} {r : AddressRegion}
    (hr : r ∈ b.regions) (h₁ : r.range.base.toNat ≤ a.toNat)
    (h₂ : a.toNat + widthInBytes w ≤ r.range.base.toNat + r.range.size.toNat) :
    ∃ i, b.regions[i]? = some r ∧ b.locate a w = .ok (i, r.range.offsetOf a) := by
  obtain ⟨i, hi, hl⟩ := locateIn_of_mem b.apart hr h₁ h₂ 0
  refine ⟨i, hi, ?_⟩
  have hfit := r.range.fits
  have hw := widthInBytes_pos w
  have hw8 := widthInBytes_le w
  have hlast : (lastStart w).toNat = 2 ^ 64 - widthInBytes w := by cases w <;> decide
  have hno : ¬ a > lastStart w := by
    rw [gt_iff_lt, BitVec.lt_def, hlast]
    omega
  rw [locate, if_neg hno, hl, Nat.zero_add]

/-- An address lies in one region only. -/
theorem region_unique {b : Bus} {r s : AddressRegion} (hr : r ∈ b.regions) (hs : s ∈ b.regions)
    {x : ℕ} (h₁ : r.range.base.toNat ≤ x ∧ x < r.range.base.toNat + r.range.size.toNat)
    (h₂ : s.range.base.toNat ≤ x ∧ x < s.range.base.toNat + s.range.size.toNat) : r = s := by
  have hp := List.pairwise_iff_getElem.1 b.apart
  obtain ⟨i, hi, rfl⟩ := List.mem_iff_getElem.1 hr
  obtain ⟨j, hj, rfl⟩ := List.mem_iff_getElem.1 hs
  rcases Nat.lt_trichotomy i j with hij | rfl | hij
  · exact ((hp i j hi hj hij).disjoint h₁ h₂).elim
  · rfl
  · exact ((hp j i hj hi hij).disjoint h₂ h₁).elim

/-- An access that starts in a region and does not fit it is not located. -/
theorem locate_of_not_span {b : Bus} {a : BitVec 64} {w : AccessWidth} {r : AddressRegion}
    (hr : r ∈ b.regions) (ha : r.range.contains a = true)
    (hspan : r.range.containsSpan a (BitVec.ofNat 64 (widthInBytes w)) = false) :
    ∃ e, b.locate a w = .error e := by
  cases hl : b.locate a w with
  | error e => exact ⟨e, rfl⟩
  | ok p =>
    obtain ⟨s, hs, h₁, h₂, -⟩ := locate_ok hl
    have hw := widthInBytes_pos w
    obtain rfl := region_unique hr (List.mem_of_getElem? hs)
      ((AddressRange.contains_iff _ _).1 ha) ⟨h₁, by omega⟩
    rw [(AddressRange.containsSpan_iff _ _ _).2 ⟨h₁, h₂⟩] at hspan
    cases hspan

/-! ## The bytes of RAM -/

/-- The byte of RAM a region holds at a physical address. -/
def regionByte (x : ℕ) : AddressRegion → Option (BitVec 8)
  | .ram m =>
    if m.range.base.toNat ≤ x ∧ x < m.range.base.toNat + m.range.size.toNat then
      some (m.bytes.getD (x - m.range.base.toNat) 0#8)
    else none
  | _ => none

/-- The byte of RAM at a physical address. -/
def ramByte (b : Bus) (x : ℕ) : Option (BitVec 8) := b.regions.findSome? (regionByte x)

/-- The `n` bytes from `a` lie in one RAM region. -/
def InRam (b : Bus) (a n : ℕ) : Prop :=
  ∃ m, AddressRegion.ram m ∈ b.regions ∧ m.range.base.toNat ≤ a ∧
    a + n ≤ m.range.base.toNat + m.range.size.toNat

theorem ramByte_of_mem {b : Bus} {m : PhysicalMemory} (hm : AddressRegion.ram m ∈ b.regions)
    {x : ℕ} (h₁ : m.range.base.toNat ≤ x)
    (h₂ : x < m.range.base.toNat + m.range.size.toNat) :
    b.ramByte x = some (m.bytes.getD (x - m.range.base.toNat) 0#8) := by
  have hp := b.apart
  rw [ramByte]
  generalize b.regions = l at hm hp
  induction l with
  | nil => simp at hm
  | cons s l ih =>
    rw [List.pairwise_cons] at hp
    rcases List.mem_cons.1 hm with rfl | hm'
    · simp [regionByte, h₁, h₂]
    · have hns : regionByte x s = none := by
        cases s with
        | ram m' => exact if_neg fun h ↦ (hp.1 _ hm').disjoint h ⟨h₁, h₂⟩
        | _ => simp only [regionByte]
      rw [List.findSome?_cons, hns]
      exact ih hm' hp.2

/-- Bytes of RAM are looked up in the regions, so equal views of the regions have equal bytes. -/
theorem ramByte_congr {b b' : Bus} {x : ℕ}
    (h : b.regions.map (regionByte x) = b'.regions.map (regionByte x)) :
    b.ramByte x = b'.ramByte x := by
  have hm : ∀ l : List AddressRegion,
      l.findSome? (regionByte x) = (l.map (regionByte x)).findSome? id := by
    intro l
    rw [List.findSome?_map]
    rfl
  rw [ramByte, ramByte, hm, hm, h]

/-! ## One region operation -/

/-- `locate` never fails with the error code that means success. -/
theorem locate_error {b : Bus} {a : BitVec 64} {w : AccessWidth} {e : BusError}
    (h : b.locate a w = .error e) : (AccessResult.failure e).ok = false := by
  have hin : ∀ (l : List AddressRegion) (k : ℕ), locateIn a w l k = .error e → e.code ≠ .none := by
    intro l
    induction l with
    | nil =>
      intro k h
      rw [locateIn, Except.error.injEq] at h
      simp [← h]
    | cons r l ih =>
      intro k h
      rw [locateIn] at h
      split at h
      · exact ih _ h
      · split at h
        · rw [Except.error.injEq] at h
          simp [← h]
        · simp at h
  have hne : e.code ≠ .none := by
    rw [locate] at h
    split at h
    · rw [Except.error.injEq] at h
      simp [← h]
    · exact hin _ _ h
  rw [AccessResult.ok_failure, beq_eq_false_iff_ne]
  exact hne

/-- What one region operation does to the bus: it fails to locate, or it runs on one region and
replaces that one. -/
theorem onRegion_cases (b : Bus) (a : BitVec 64) (w : AccessWidth) (op : RegionOp) :
    (∃ e, b.locate a w = .error e ∧ b.onRegion a w op = (.failure e, b)) ∨
    ∃ i o r, b.locate a w = .ok (i, o) ∧ b.regions[i]? = some r ∧
      (b.onRegion a w op).1 = (op.run r o).1 ∧
      (b.onRegion a w op).2.regions = b.regions.set i (op.run r o).2 ∧
      (b.onRegion a w op).2.reservation = b.reservation ∧
      (b.onRegion a w op).2.nextReservationToken = b.nextReservationToken := by
  cases hl : b.locate a w with
  | error e =>
    refine Or.inl ⟨e, rfl, ?_⟩
    rw [onRegion, hl, onLocated]
  | ok p =>
    obtain ⟨i, o⟩ := p
    obtain ⟨r, hr, -⟩ := locate_ok hl
    refine Or.inr ⟨i, o, r, rfl, hr, ?_⟩
    rw [onRegion, hl, onLocated]
    dsimp only
    rw [hr]
    refine ⟨rfl, ?_, rfl, rfl⟩
    have : Inhabited AddressRegion := ⟨r⟩
    rw [List.modify_eq_set, hr]
    rfl

/-- A bus is its regions, its reservation and its token counter. -/
theorem ext_fields {b b' : Bus} (h₁ : b.regions = b'.regions)
    (h₂ : b.reservation = b'.reservation)
    (h₃ : b.nextReservationToken = b'.nextReservationToken) : b = b' := by
  cases b
  cases b'
  simp_all

theorem set_of_getElem? {l : List AddressRegion} {i : ℕ} {r : AddressRegion}
    (h : l[i]? = some r) : l.set i r = l := by
  obtain ⟨hlt, rfl⟩ := List.getElem?_eq_some_iff.1 h
  exact List.set_getElem_self hlt

/-- An operation that leaves the region it runs on alone leaves the bus alone. -/
theorem onRegion_bus_of_run {b : Bus} {a : BitVec 64} {w : AccessWidth} {op : RegionOp}
    (h : ∀ r o, (op.run r o).1 = (b.onRegion a w op).1 → (op.run r o).2 = r) :
    (b.onRegion a w op).2 = b := by
  rcases onRegion_cases b a w op with ⟨e, -, he⟩ | ⟨i, o, r, -, hr, h₁, h₂, h₃, h₄⟩
  · rw [he]
  · refine ext_fields ?_ h₃ h₄
    rw [h₂, h r o h₁.symm, set_of_getElem? hr]

/-- An operation that keeps the bytes of the region it runs on keeps every byte of RAM. -/
theorem ramByte_onRegion {b : Bus} {a : BitVec 64} {w : AccessWidth} {op : RegionOp} {x : ℕ}
    (h : ∀ r o, (op.run r o).1 = (b.onRegion a w op).1 →
      regionByte x (op.run r o).2 = regionByte x r) :
    (b.onRegion a w op).2.ramByte x = b.ramByte x := by
  rcases onRegion_cases b a w op with ⟨e, -, he⟩ | ⟨i, o, r, -, hr, h₁, h₂, -, -⟩
  · rw [he]
  · refine ramByte_congr ?_
    rw [h₂, List.map_set, h r o h₁.symm, ← List.map_set, set_of_getElem? hr]

/-! ## The devices -/

/-- A region unless it is RAM. -/
def deviceOf : AddressRegion → Option AddressRegion
  | .ram _ => none
  | region => some region

/-- The regions other than RAM. -/
def devices (b : Bus) : List (Option AddressRegion) := b.regions.map deviceOf

theorem devices_of_set {b b' : Bus} {i : ℕ} {r r' : AddressRegion}
    (h : b'.regions = b.regions.set i r') (hr : b.regions[i]? = some r)
    (hsame : deviceOf r' = deviceOf r) : b'.devices = b.devices := by
  rw [devices, devices, h, List.map_set, hsame, ← List.map_set, set_of_getElem? hr]

/-- Replacing a region by a different device shows. -/
theorem devices_ne_of_set {b b' : Bus} {i : ℕ} {r r' : AddressRegion}
    (h : b'.regions = b.regions.set i r') (hr : b.regions[i]? = some r)
    (hne : deviceOf r' ≠ deviceOf r) : b'.devices ≠ b.devices := by
  intro heq
  have hlt := (List.getElem?_eq_some_iff.1 hr).1
  have hget := congrArg (·[i]?) heq
  simp only [devices, h, List.getElem?_map, List.getElem?_set_self hlt, hr, Option.map_some,
    Option.some.injEq] at hget
  exact hne hget

/-! ## Reads -/

/-- No read changes a byte of RAM. -/
theorem ramByte_read (b : Bus) (a : BitVec 64) (w : AccessWidth) (t : AccessType) (x : ℕ) :
    (b.read a w t).2.ramByte x = b.ramByte x := by
  refine ramByte_onRegion fun r o _ ↦ ?_
  cases r <;> rfl

/-- A double-word read has no side effect on any region. -/
theorem read_doubleWord_bus (b : Bus) (a : BitVec 64) (t : AccessType) :
    (b.read a .doubleWord t).2 = b := by
  refine onRegion_bus_of_run fun r o _ ↦ ?_
  cases r with
  | plic p => simp [readOp, AddressRegion.read, Plic.read]
  | uart u =>
    have hv : (Uart16550.validateAccess o .doubleWord).ok = false := rfl
    simp [readOp, AddressRegion.read, Uart16550.read, hv]
  | _ => rfl

/-! ## Stores that reach RAM -/

/-- `b'` has the regions of `b`, except that `v` was stored at `a` in a RAM region. -/
def Stored (b b' : Bus) (a : BitVec 64) (w : AccessWidth) (v : BitVec 64) : Prop :=
  ∃ i o m, b.locate a w = .ok (i, o) ∧ b.regions[i]? = some (.ram m) ∧
    b'.regions = b.regions.set i (.ram (m.writeUnlocked o w v))

section Stored

variable {b b' : Bus} {a : BitVec 64} {w : AccessWidth} {v : BitVec 64}

theorem Stored.inRam (h : Stored b b' a w v) : b.InRam a.toNat (widthInBytes w) := by
  obtain ⟨i, o, m, hl, hm, -⟩ := h
  obtain ⟨r, hr, h₁, h₂, -⟩ := locate_ok hl
  rw [hm, Option.some.injEq] at hr
  subst hr
  exact ⟨m, List.mem_of_getElem? hm, h₁, h₂⟩

/-- A store keeps every region where it is, so accesses are located as before. -/
theorem Stored.locate_eq (h : Stored b b' a w v) (a' : BitVec 64) (w' : AccessWidth) :
    b'.locate a' w' = b.locate a' w' := by
  obtain ⟨i, o, m, hl, hm, hs⟩ := h
  have hsame : b'.regions.map (fun r ↦ (r.range, r.name)) =
      b.regions.map fun r ↦ (r.range, r.name) := by
    rw [hs, List.map_set, show ((AddressRegion.ram (m.writeUnlocked o w v)).range,
      (AddressRegion.ram (m.writeUnlocked o w v)).name) =
        ((AddressRegion.ram m).range, (AddressRegion.ram m).name) from rfl, ← List.map_set,
      set_of_getElem? hm]
  rw [locate, locate, locateIn_congr a' w' hsame]

/-- The result of a read that finds a region. -/
theorem read_eq_of_locate {b : Bus} {a : BitVec 64} {w : AccessWidth} {i : ℕ} {o : BitVec 64}
    {r : AddressRegion} (t : AccessType) (hl : b.locate a w = .ok (i, o))
    (hr : b.regions[i]? = some r) : (b.read a w t).1 = (r.read o w).1 := by
  rw [read, onRegion, hl, onLocated, hr]
  rfl

/-- The double word just stored reads back. -/
theorem Stored.read_self (h : Stored b b' a .doubleWord v) (t : AccessType) :
    (b'.read a .doubleWord t).1 = .success v := by
  have hle := h.locate_eq a .doubleWord
  obtain ⟨i, o, m, hl, hm, hs⟩ := h
  obtain ⟨r, hr, h₁, h₂, ho⟩ := locate_ok hl
  rw [hm, Option.some.injEq] at hr
  subst hr
  have hlt := (List.getElem?_eq_some_iff.1 hm).1
  have hfit : o.toNat + widthInBytes .doubleWord ≤ m.bytes.length := by
    have hsz := m.size_eq
    simp only [AddressRegion.range] at h₁ h₂ ho
    omega
  rw [read_eq_of_locate t (hle.trans hl) (by rw [hs]; exact List.getElem?_set_self hlt)]
  simp only [AddressRegion.read]
  rw [PhysicalMemory.read_eq (by rw [PhysicalMemory.length_bytes_writeUnlocked]; exact hfit),
    PhysicalMemory.readUnlocked_writeUnlocked m _ _ hfit]
  rw [show widthInBytes .doubleWord = 8 from rfl, composeBytes_splitByte_eight]

/-- A store is invisible to a read of other bytes. -/
theorem Stored.read_of_disjoint (h : Stored b b' a w v) {a' : BitVec 64} {w' : AccessWidth}
    (hd : a'.toNat + widthInBytes w' ≤ a.toNat ∨ a.toNat + widthInBytes w ≤ a'.toNat)
    (t : AccessType) : (b'.read a' w' t).1 = (b.read a' w' t).1 := by
  have hle := h.locate_eq a' w'
  obtain ⟨i, o, m, hl, hm, hs⟩ := h
  cases hl' : b.locate a' w' with
  | error e =>
    rw [read, read, onRegion, onRegion, hle, hl']
    rfl
  | ok p =>
    obtain ⟨j, o'⟩ := p
    obtain ⟨r', hr', h₁', h₂', ho'⟩ := locate_ok hl'
    by_cases hij : i = j
    · subst hij
      rw [hm, Option.some.injEq] at hr'
      subst hr'
      obtain ⟨r, hr, h₁, h₂, ho⟩ := locate_ok hl
      rw [hm, Option.some.injEq] at hr
      subst hr
      have hlt := (List.getElem?_eq_some_iff.1 hm).1
      have hsz := m.size_eq
      simp only [AddressRegion.range] at h₁ h₂ ho h₁' h₂' ho'
      rw [read_eq_of_locate t (hle.trans hl') (by rw [hs]; exact List.getElem?_set_self hlt),
        read_eq_of_locate t hl' hm]
      simp only [AddressRegion.read]
      rw [PhysicalMemory.read_eq (by rw [PhysicalMemory.length_bytes_writeUnlocked]; omega),
        PhysicalMemory.read_eq (by omega),
        PhysicalMemory.readUnlocked_writeUnlocked_of_disjoint m w w' v (by omega) (by omega)]
    · rw [read_eq_of_locate t (hle.trans hl') (by rw [hs, List.getElem?_set_ne hij]; exact hr'),
        read_eq_of_locate t hl' hr']

/-- A store changes exactly the bytes it covers. -/
theorem Stored.ramByte_eq (h : Stored b b' a w v) (x : ℕ) :
    b'.ramByte x =
      if a.toNat ≤ x ∧ x < a.toNat + widthInBytes w then some (splitByte v (x - a.toNat))
      else b.ramByte x := by
  obtain ⟨i, o, m, hl, hm, hs⟩ := h
  obtain ⟨r, hr, h₁, h₂, ho⟩ := locate_ok hl
  rw [hm, Option.some.injEq] at hr
  subst hr
  have hlt := (List.getElem?_eq_some_iff.1 hm).1
  have hsz := m.size_eq
  simp only [AddressRegion.range] at h₁ h₂ ho
  by_cases hx : m.range.base.toNat ≤ x ∧ x < m.range.base.toNat + m.range.size.toNat
  · have hm' : AddressRegion.ram (m.writeUnlocked o w v) ∈ b'.regions := by
      rw [hs]
      exact List.mem_of_getElem? (List.getElem?_set_self hlt)
    rw [ramByte_of_mem hm' (by exact hx.1) (by exact hx.2),
      ramByte_of_mem (List.mem_of_getElem? hm) hx.1 hx.2, PhysicalMemory.range_writeUnlocked,
      PhysicalMemory.writeUnlocked, getD_storeBytes _ _ _ _ _ (by omega)]
    by_cases hc : a.toNat ≤ x ∧ x < a.toNat + widthInBytes w
    · rw [if_pos (by omega), if_pos hc]
      congr 2
      omega
    · rw [if_neg (by omega), if_neg hc]
  · rw [if_neg (by omega)]
    refine ramByte_congr ?_
    rw [hs, List.map_set]
    have hnone : regionByte x (.ram (m.writeUnlocked o w v)) = regionByte x (.ram m) := by
      rw [regionByte, regionByte, if_neg (by exact hx), if_neg hx]
    rw [hnone, ← List.map_set, set_of_getElem? hm]

end Stored

/-- An access that lies in RAM is located there, inside the bytes of that memory. -/
theorem InRam.locate {b : Bus} {a : BitVec 64} {w : AccessWidth}
    (h : b.InRam a.toNat (widthInBytes w)) :
    ∃ i o m, b.locate a w = .ok (i, o) ∧ b.regions[i]? = some (.ram m) ∧
      a.toNat = m.range.base.toNat + o.toNat ∧ o.toNat + widthInBytes w ≤ m.bytes.length := by
  obtain ⟨m, hm, h₁, h₂⟩ := h
  obtain ⟨i, hi, hl⟩ := locate_of_mem (w := w) hm h₁ h₂
  have ho := m.range.toNat_offsetOf h₁
  have hsz := m.size_eq
  simp only [AddressRegion.range] at hl
  exact ⟨i, _, m, hl, hi, by omega, by omega⟩

/-- The bytes of RAM are those of the word read there. -/
theorem InRam.read {b : Bus} {a : BitVec 64} {w : AccessWidth}
    (h : b.InRam a.toNat (widthInBytes w)) (t : AccessType) :
    (b.read a w t).1.ok = true ∧
      ∀ i, i < widthInBytes w →
        b.ramByte (a.toNat + i) = some (splitByte (b.read a w t).1.value i) := by
  obtain ⟨j, o, m, hl, hm, ha, hfit⟩ := h.locate
  have hread : (b.read a w t).1 = .success (m.readUnlocked o w) := by
    rw [read_eq_of_locate t hl hm]
    exact PhysicalMemory.read_eq hfit
  refine ⟨by rw [hread]; rfl, fun i hi ↦ ?_⟩
  have hsz := m.size_eq
  rw [ramByte_of_mem (List.mem_of_getElem? hm) (by omega) (by omega), hread,
    AccessResult.value_success, PhysicalMemory.readUnlocked,
    splitByte_composeBytes _ (widthInBytes_le w) hi]
  congr 2
  omega

/-! ## Accesses that fail and reads with side effects -/

/-- A device that answers this stays as it is when it refuses. -/
def Keeps {α : Type} (a : α) (r : AccessResult × α) : Prop := r.1.ok = false → r.2 = a

theorem Keeps.ite {α : Type} {a : α} {c : Prop} [Decidable c] {r r' : AccessResult × α}
    (h : Keeps a r) (h' : Keeps a r') : Keeps a (if c then r else r') := by
  split
  · exact h
  · exact h'

theorem Keeps.success {α : Type} {a a' : α} {v : BitVec 64} {e : Bool} :
    Keeps a (.success v e, a') := fun h ↦ by
  cases h

/-- No region is changed by a write it refuses. -/
theorem write_region_of_not_ok {r : AddressRegion} {o : BitVec 64} {w : AccessWidth} {v : BitVec 64}
    (h : (r.write o w v).1.ok = false) : (r.write o w v).2 = r := by
  -- every branch of a device but the one that refuses is a success
  cases r with
  | ram m =>
    have hkeeps : Keeps m (m.write o w v) := by
      rw [PhysicalMemory.write]
      exact .ite (fun _ ↦ rfl) .success
    exact congrArg AddressRegion.ram (hkeeps h)
  | bootRom m => rfl
  | clint c =>
    have hkeeps : Keeps c (c.write o w v) := by
      rw [Clint.write]
      exact .ite (fun _ ↦ rfl) (.ite .success (.ite .success .success))
    exact congrArg AddressRegion.clint (hkeeps h)
  | plic p =>
    have hkeeps : Keeps p (p.write o w v) := by
      rw [Plic.write]
      refine .ite (fun _ ↦ rfl) ?_
      split <;> exact .success
    exact congrArg AddressRegion.plic (hkeeps h)
  | uart u =>
    have hkeeps : Keeps u (u.write o w v) := by
      rw [Uart16550.write]
      refine .ite (fun _ ↦ rfl)
        (.ite (.ite .success (.ite .success .success)) (.ite (.ite .success .success) ?_))
      exact .ite .success (.ite .success (.ite .success (.ite .success (.ite .success .success))))
    exact congrArg AddressRegion.uart (hkeeps h)
  | virtio t =>
    have hkeeps : Keeps t (t.write o w v) := by
      rw [VirtioMmioTransport.write]
      exact .ite (fun _ ↦ rfl) .success
    exact congrArg AddressRegion.virtio (hkeeps h)

/-- A region write that fails leaves the bus as it was. -/
theorem onRegion_writeOp_of_not_ok {b : Bus} {a : BitVec 64} {w : AccessWidth} {v : BitVec 64}
    (h : (b.onRegion a w (writeOp w v)).1.ok = false) : (b.onRegion a w (writeOp w v)).2 = b :=
  onRegion_bus_of_run fun r o hr ↦ write_region_of_not_ok (by rw [← h, ← hr]; rfl)

theorem fst_ite_mk {α β : Type} (c : Prop) [Decidable c] (x : α × β) (y : β) :
    (if c then (x.1, y) else x).1 = x.1 := by
  split <;> rfl

theorem write_eq (b : Bus) (a : BitVec 64) (w : AccessWidth) (v : BitVec 64) (t : AccessType) :
    b.write a w v t =
      if (b.onRegion a w (writeOp w v)).1.ok && t == .dmaWrite then
        ((b.onRegion a w (writeOp w v)).1,
          (b.onRegion a w (writeOp w v)).2.invalidateReservationLocked a
            (BitVec.ofNat 64 (widthInBytes w)))
      else b.onRegion a w (writeOp w v) := rfl

theorem write_result (b : Bus) (a : BitVec 64) (w : AccessWidth) (v : BitVec 64) (t : AccessType) :
    (b.write a w v t).1 = (b.onRegion a w (writeOp w v)).1 := by
  rw [write_eq, fst_ite_mk]

theorem write_of_not_ok {b : Bus} {a : BitVec 64} {w : AccessWidth} {v : BitVec 64} {t : AccessType}
    (h : (b.write a w v t).1.ok = false) : (b.write a w v t).2 = b := by
  rw [write_result] at h
  have hw := write_eq b a w v t
  rw [h, Bool.false_and, if_neg Bool.false_ne_true] at hw
  rw [hw]
  exact onRegion_writeOp_of_not_ok h

/-- The side effects of reads are confined to regions that refuse double words. -/
theorem read_doubleWord_region (r : AddressRegion) (o o' : BitVec 64) (w : AccessWidth) :
    ((r.read o w).2.read o' .doubleWord).1 = (r.read o' .doubleWord).1 := by
  cases r <;> rfl

theorem read_of_locate_error {b : Bus} {a : BitVec 64} {w : AccessWidth} {e : BusError}
    (t : AccessType) (hl : b.locate a w = .error e) : b.read a w t = (.failure e, b) := by
  rw [read, onRegion, hl, onLocated]

/-- A read changes no later double-word read. -/
theorem read_doubleWord_read (b : Bus) (a a' : BitVec 64) (w : AccessWidth) (t t' : AccessType) :
    ((b.read a w t).2.read a' .doubleWord t').1 = (b.read a' .doubleWord t').1 := by
  rcases onRegion_cases b a w (readOp w) with ⟨e, hl, -⟩ | ⟨i, o, r, -, hr, -, h₂, -, -⟩
  · rw [read_of_locate_error t hl]
  · have hregions : (b.read a w t).2.regions = b.regions.set i (r.read o w).2 := h₂
    have hname : (r.read o w).2.name = r.name := by cases r <;> rfl
    have hsame : (b.read a w t).2.regions.map (fun r ↦ (r.range, r.name)) =
        b.regions.map fun r ↦ (r.range, r.name) := by
      rw [hregions, List.map_set, AddressRegion.range_read, hname, ← List.map_set,
        set_of_getElem? hr]
    have hle : (b.read a w t).2.locate a' .doubleWord = b.locate a' .doubleWord := by
      rw [locate, locate, locateIn_congr a' .doubleWord hsame]
    cases hl : b.locate a' .doubleWord with
    | error e => rw [read_of_locate_error t' (hle.trans hl), read_of_locate_error t' hl]
    | ok p =>
      obtain ⟨j, o'⟩ := p
      obtain ⟨r', hr', -⟩ := locate_ok hl
      by_cases hij : i = j
      · subst hij
        rw [hr, Option.some.injEq] at hr'
        subst hr'
        have hlt := (List.getElem?_eq_some_iff.1 hr).1
        rw [read_eq_of_locate t' (hle.trans hl)
          (by rw [hregions]; exact List.getElem?_set_self hlt),
          read_eq_of_locate t' hl hr, read_doubleWord_region]
      · rw [read_eq_of_locate t' (hle.trans hl)
            (by rw [hregions, List.getElem?_set_ne hij]; exact hr'), read_eq_of_locate t' hl hr']

/-! ## Compare-exchange and write -/

/-- A device never exchanges. -/
theorem exchanged_compareExchange {r : AddressRegion} {o : BitVec 64} {w : AccessWidth}
    {e d : BitVec 64} (hr : ∀ m, r ≠ .ram m) :
    (r.compareExchange o w e d).1.exchanged = false ∧ (r.compareExchange o w e d).2 = r := by
  cases r with
  | ram m => exact absurd rfl (hr m)
  | _ => exact ⟨rfl, rfl⟩

@[simp] theorem regions_invalidateReservationLocked (b : Bus) (a n : BitVec 64) :
    (b.invalidateReservationLocked a n).regions = b.regions := by
  rw [invalidateReservationLocked]
  split
  · rfl
  · split
    · rfl
    · dsimp only
      split <;> rfl

@[simp] theorem nextReservationToken_invalidateReservationLocked (b : Bus) (a n : BitVec 64) :
    (b.invalidateReservationLocked a n).nextReservationToken = b.nextReservationToken := by
  rw [invalidateReservationLocked]
  split
  · rfl
  · split
    · rfl
    · dsimp only
      split <;> rfl

/-- What a write erases depends on the reservation alone. -/
theorem reservation_invalidateReservationLocked_congr {b c : Bus}
    (h : b.reservation = c.reservation)
    (a n : BitVec 64) : (b.invalidateReservationLocked a n).reservation =
      (c.invalidateReservationLocked a n).reservation := by
  rw [invalidateReservationLocked, invalidateReservationLocked, h]
  split
  · next hn => rw [h, hn]
  · next r hr =>
    dsimp only
    split
    · rw [h]
    · split
      · rfl
      · rw [h]

/-- A compare-exchange either exchanges nothing and leaves the bus as it is, or stores the desired
value in RAM and erases a reservation it touches. -/
theorem compareExchange_cases (b : Bus) (a : BitVec 64) (w : AccessWidth) (e d : BitVec 64)
    (t : AccessType) :
    ((b.compareExchange a w e d t).1.exchanged = false ∧ (b.compareExchange a w e d t).2 = b) ∨
    ((b.compareExchange a w e d t).1.ok = true ∧ (b.compareExchange a w e d t).1.exchanged = true ∧
      Stored b (b.compareExchange a w e d t).2 a w (d &&& valueMask w) ∧
      (b.compareExchange a w e d t).2.reservation =
        (b.invalidateReservationLocked a (BitVec.ofNat 64 (widthInBytes w))).reservation ∧
      (b.compareExchange a w e d t).2.nextReservationToken = b.nextReservationToken) := by
  set c := b.onRegion a w (compareExchangeOp w e d) with hc
  have hcx : b.compareExchange a w e d t =
      if c.1.ok && c.1.exchanged then
        (c.1, c.2.invalidateReservationLocked a (BitVec.ofNat 64 (widthInBytes w)))
      else c := rfl
  rcases onRegion_cases b a w (compareExchangeOp w e d) with
    ⟨f, -, hf⟩ | ⟨i, o, r, hl, hr, h₁, h₂, h₃, h₄⟩
  · rw [← hc] at hf
    have hno : c.1.exchanged = false := by rw [hf]; rfl
    rw [hcx, hno, Bool.and_false, if_neg (by simp), hf]
    exact Or.inl ⟨rfl, rfl⟩
  · rw [← hc] at h₁ h₂ h₃ h₄
    by_cases hram : ∃ m, r = .ram m
    · obtain ⟨m, rfl⟩ := hram
      obtain ⟨r', hr', g₁, g₂, ho⟩ := locate_ok hl
      rw [hr, Option.some.injEq] at hr'
      subst hr'
      have hfit : o.toNat + widthInBytes w ≤ m.bytes.length := by
        have hsz := m.size_eq
        simp only [AddressRegion.range] at g₁ g₂ ho
        omega
      simp only [compareExchangeOp, AddressRegion.compareExchange,
        PhysicalMemory.compareExchange_eq e d hfit] at h₁ h₂
      by_cases he : m.readUnlocked o w = e &&& valueMask w
      · rw [if_pos he] at h₁ h₂
        refine Or.inr ?_
        rw [hcx, h₁]
        refine ⟨rfl, rfl, ⟨i, o, m, hl, hr, ?_⟩, ?_, ?_⟩
        · exact (regions_invalidateReservationLocked _ _ _).trans h₂
        · exact reservation_invalidateReservationLocked_congr h₃ _ _
        · exact (nextReservationToken_invalidateReservationLocked _ _ _).trans h₄
      · rw [if_neg he] at h₁ h₂
        refine Or.inl ?_
        rw [hcx, h₁, AccessResult.exchanged_success, Bool.and_false, if_neg (by simp), h₁]
        exact ⟨rfl, ext_fields (by rw [h₂, set_of_getElem? hr]) h₃ h₄⟩
    · have hdev := exchanged_compareExchange (o := o) (w := w) (e := e) (d := d)
        fun m hm ↦ hram ⟨m, hm⟩
      have hno : c.1.exchanged = false := by rw [h₁]; exact hdev.1
      rw [hcx, hno, Bool.and_false, if_neg (by simp), hno]
      refine Or.inl ⟨rfl, ext_fields ?_ h₃ h₄⟩
      rw [h₂]
      exact (congrArg _ hdev.2).trans (set_of_getElem? hr)

/-- A compare-exchange against the double word just read cannot lose: it is refused outright, by
anything that is not RAM, or it stores. -/
theorem compareExchange_of_read {b : Bus} {a : BitVec 64}
    (hok : (b.read a .doubleWord .load).1.ok = true) (d : BitVec 64) (t : AccessType) :
    let c := b.compareExchange a .doubleWord (b.read a .doubleWord .load).1.value d t
    (c.1.ok = false ∧ c.2 = b) ∨
    (c.1.ok = true ∧ c.1.exchanged = true ∧ Stored b c.2 a .doubleWord d) := by
  intro c
  have hmask : ∀ v : BitVec 64, v &&& valueMask .doubleWord = v := fun v ↦ BitVec.and_allOnes
  rcases compareExchange_cases b a .doubleWord (b.read a .doubleWord .load).1.value d t with
    ⟨hno, hb⟩ | ⟨h₁, h₂, h₃, -⟩
  · refine Or.inl ⟨?_, hb⟩
    rcases onRegion_cases b a .doubleWord
      (compareExchangeOp .doubleWord (b.read a .doubleWord .load).1.value d) with
      ⟨f, hl, hf⟩ | ⟨i, o, r, hl, hr, h₁, -, -, -⟩
    · rw [read, onRegion, hl, onLocated, locate_error hl] at hok
      cases hok
    · have hval := read_eq_of_locate .load hl hr
      have hres : c.1 = (r.compareExchange o .doubleWord (r.read o .doubleWord).1.value d).1 := by
        show (compareExchange _ _ _ _ _ _).1 = _
        rw [compareExchange]
        split <;> rw [h₁, hval] <;> rfl
      cases r with
      | ram m =>
        exfalso
        obtain ⟨r', hr', g₁, g₂, ho⟩ := locate_ok hl
        rw [hr, Option.some.injEq] at hr'
        subst hr'
        have hfit : o.toNat + widthInBytes .doubleWord ≤ m.bytes.length := by
          have hsz := m.size_eq
          simp only [AddressRegion.range] at g₁ g₂ ho
          omega
        simp only [AddressRegion.compareExchange, AddressRegion.read,
          PhysicalMemory.read_eq hfit, AccessResult.value_success,
          PhysicalMemory.compareExchange_eq _ d hfit, hmask, if_true] at hres
        have hyes : c.1.exchanged = true := by rw [hres]; rfl
        exact Bool.noConfusion (hyes.symm.trans hno)
      | _ => rw [hres]; rfl
  · rw [hmask] at h₃
    exact Or.inr ⟨h₁, h₂, h₃⟩

/-- A compare-exchange against a value just read does not lose either, whatever the width. -/
theorem compareExchange_after_read {b : Bus} {a : BitVec 64} {w : AccessWidth} {t : AccessType}
    (hok : (b.read a w t).1.ok = true) (d : BitVec 64) (t' : AccessType) :
    let c := (b.read a w t).2.compareExchange a w (b.read a w t).1.value d t'
    c.1.ok = false ∨ c.1.exchanged = true := by
  intro c
  have hc : c.1 = ((b.read a w t).2.onRegion a w
      (compareExchangeOp w (b.read a w t).1.value d)).1 := fst_ite_mk _ _ _
  rcases onRegion_cases b a w (readOp w) with ⟨e, hl, -⟩ | ⟨i, o, r, hl, hr, hval, hregions, -, -⟩
  · rw [read, onRegion, hl, onLocated, locate_error hl] at hok
    cases hok
  · have hval' : (b.read a w t).1 = (r.read o w).1 := hval
    have hsame : (b.read a w t).2.locate a w = b.locate a w := by
      have hname : (r.read o w).2.name = r.name := by cases r <;> rfl
      rw [locate, locate, show (b.read a w t).2.regions = _ from hregions]
      congr 1
      refine locateIn_congr a w ?_ 0
      show (b.regions.set i (r.read o w).2).map _ = _
      rw [List.map_set, AddressRegion.range_read, hname, ← List.map_set, set_of_getElem? hr]
    have hget : (b.read a w t).2.regions[i]? = some (r.read o w).2 := by
      rw [show (b.read a w t).2.regions = _ from hregions]
      exact List.getElem?_set_self (List.getElem?_eq_some_iff.1 hr).1
    rw [hc, onRegion, hsame, hl, onLocated, hget, hval']
    cases r with
    | ram m =>
      obtain ⟨r', hr', g₁, g₂, ho⟩ := locate_ok hl
      rw [hr, Option.some.injEq] at hr'
      subst hr'
      have hfit : o.toNat + widthInBytes w ≤ m.bytes.length := by
        have hsz := m.size_eq
        simp only [AddressRegion.range] at g₁ g₂ ho
        omega
      refine Or.inr ?_
      simp only [compareExchangeOp, AddressRegion.compareExchange, AddressRegion.read,
        PhysicalMemory.read_eq hfit, AccessResult.value_success,
        PhysicalMemory.compareExchange_eq _ d hfit, m.readUnlocked_and_valueMask, if_true]
      rfl
    | _ => exact Or.inl rfl

/-- A compare-exchange in RAM does not fail, whether it exchanges or not. -/
theorem InRam.compareExchange {b : Bus} {a : BitVec 64} {w : AccessWidth}
    (h : b.InRam a.toNat (widthInBytes w)) (e d : BitVec 64) (t : AccessType) :
    (b.compareExchange a w e d t).1.ok = true := by
  obtain ⟨i, o, m, hl, hm, -, hfit⟩ := h.locate
  have hres : (b.onRegion a w (compareExchangeOp w e d)).1 = (m.compareExchange o w e d).1 := by
    rw [onRegion, hl, onLocated, hm]
    rfl
  have hcx : (b.compareExchange a w e d t).1 = (b.onRegion a w (compareExchangeOp w e d)).1 :=
    fst_ite_mk _ _ _
  rw [hcx, hres, PhysicalMemory.compareExchange_eq e d hfit]
  split <;> rfl

/-! ## Load-reserved and store-conditional -/

/-- The bus with its reservation given up. -/
def release (b : Bus) : Bus := { b with reservation := none }

/-- A load-reserved is a read; when that succeeds, the reservation is replaced. -/
theorem loadReserved_cases (b : Bus) (a : BitVec 64) (w : AccessWidth) :
    (b.loadReserved a w).1.access = (b.read a w .load).1 ∧
      (b.loadReserved a w).2.regions = (b.read a w .load).2.regions ∧
      (((b.read a w .load).1.ok = false ∧ (b.loadReserved a w).2 = (b.read a w .load).2) ∨
        ((b.read a w .load).1.ok = true ∧
          (b.loadReserved a w).2.reservation =
            some { token := (b.loadReserved a w).1.token, loadAddress := a,
                   reservedBase := reservationBase a, length := reservationGranuleBytes })) := by
  have hread : b.read a w .load = b.onRegion a w (readOp w) := rfl
  rw [loadReserved, ← hread]
  generalize b.read a w .load = loaded
  cases hok : loaded.1.ok with
  | false =>
    rw [if_pos (by rfl)]
    exact ⟨rfl, rfl, Or.inl ⟨rfl, rfl⟩⟩
  | true =>
    rw [if_neg (by simp)]
    refine ⟨rfl, ?_, Or.inr ⟨rfl, rfl⟩⟩
    show loaded.2.nextReservationTokenLocked.2.regions = loaded.2.regions
    rw [nextReservationTokenLocked]
    dsimp only
    split <;> rfl

/-- What a store-conditional can do; the reservation is gone in every case. -/
theorem storeConditional_cases (b : Bus) (token : ReservationToken) (a : BitVec 64)
    (w : AccessWidth) (v : BitVec 64) :
    let done := b.storeConditional token a w v
    (∃ e, b.locate a w = .error e ∧ done = (.failure e, b.release)) ∨
    (reservationMatches b.reservation token a w = false ∧ done = (.success 0#64 false, b.release)) ∨
    (reservationMatches b.reservation token a w = true ∧
      (b.release.onRegion a w (writeOp w v)).1.ok = false ∧
      done = ((b.release.onRegion a w (writeOp w v)).1, b.release)) ∨
    (reservationMatches b.reservation token a w = true ∧
      (b.release.onRegion a w (writeOp w v)).1.ok = true ∧
      done = (.success 0#64 true, (b.release.onRegion a w (writeOp w v)).2)) := by
  intro done
  have hdone : done = b.release.storeLocated (reservationMatches b.reservation token a w) a w v
    (b.locate a w) := rfl
  have hkeep : (b.release.onRegion a w (writeOp w v)).1.ok = false →
      (b.release.onRegion a w (writeOp w v)).2 = b.release := onRegion_writeOp_of_not_ok
  rw [hdone]
  cases b.locate a w with
  | error e => exact Or.inl ⟨e, rfl, rfl⟩
  | ok p =>
    right
    cases reservationMatches b.reservation token a w with
    | false => exact Or.inl ⟨rfl, rfl⟩
    | true =>
      right
      rw [storeLocated]
      dsimp only
      generalize b.release.onRegion a w (writeOp w v) = stored at hkeep
      cases hok : stored.1.ok with
      | false =>
        refine Or.inl ⟨rfl, rfl, ?_⟩
        simp only [Bool.not_true, Bool.not_false, Bool.false_eq_true, if_false, if_true]
        exact Prod.ext rfl (hkeep hok)
      | true =>
        refine Or.inr ⟨rfl, rfl, ?_⟩
        simp

/-! ## Writes -/

/-- A write to RAM stores. -/
theorem InRam.write {b : Bus} {a : BitVec 64} {w : AccessWidth}
    (h : b.InRam a.toNat (widthInBytes w)) (v : BitVec 64) (t : AccessType) :
    (b.write a w v t).1 = .success ∧ Stored b (b.write a w v t).2 a w v := by
  obtain ⟨i, o, m, hl, hm, -, hfit⟩ := h.locate
  have hmem : m.write o w v = (.success, m.writeUnlocked o w v) := by
    rw [PhysicalMemory.write, (m.ok_validate_iff o w).2 hfit]
    rfl
  have hresult : (b.onRegion a w (writeOp w v)).1 = .success := by
    rw [onRegion, hl, onLocated, hm]
    exact congrArg Prod.fst hmem
  have hregions : (b.onRegion a w (writeOp w v)).2.regions =
      b.regions.set i (.ram (m.writeUnlocked o w v)) := by
    rcases onRegion_cases b a w (writeOp w v) with ⟨e, hl', -⟩ | ⟨j, o', r, hl', hr, -, h₂, -, -⟩
    · rw [hl] at hl'
      cases hl'
    · rw [hl, Except.ok.injEq, Prod.mk.injEq] at hl'
      obtain ⟨rfl, rfl⟩ := hl'
      rw [hm, Option.some.injEq] at hr
      subst hr
      rw [h₂]
      exact congrArg (fun x ↦ b.regions.set i (AddressRegion.ram x.2)) hmem
  refine ⟨(write_result b a w v t).trans hresult, i, o, m, hl, hm, ?_⟩
  rw [write_eq]
  split
  · exact (regions_invalidateReservationLocked _ _ _).trans hregions
  · exact hregions

/-- A write that misses RAM changes no byte of it. -/
theorem ramByte_write_of_not_inRam {b : Bus} {a : BitVec 64} {w : AccessWidth}
    (hram : ¬ b.InRam a.toNat (widthInBytes w)) (v : BitVec 64) (t : AccessType) (x : ℕ) :
    (b.write a w v t).2.ramByte x = b.ramByte x := by
  have hregion : (b.onRegion a w (writeOp w v)).2.ramByte x = b.ramByte x := by
    rcases onRegion_cases b a w (writeOp w v) with ⟨e, -, he⟩ | ⟨i, o, r, hl, hr, -, h₂, -, -⟩
    · rw [he]
    · have hdev : ∀ m, r ≠ .ram m := by
        rintro m rfl
        obtain ⟨s, hs, g₁, g₂, -⟩ := locate_ok hl
        rw [hr, Option.some.injEq] at hs
        subst hs
        exact hram ⟨m, List.mem_of_getElem? hr, g₁, g₂⟩
      have hnone : regionByte x ((writeOp w v).run r o).2 = regionByte x r := by
        cases r with
        | ram m => exact absurd rfl (hdev m)
        | _ => rfl
      refine ramByte_congr ?_
      rw [h₂, List.map_set, hnone, ← List.map_set, set_of_getElem? hr]
  rw [write_eq]
  split
  · rw [← hregion]
    exact congrArg (List.findSome? (regionByte x)) (regions_invalidateReservationLocked _ _ _)
  · exact hregion

/-- No write changes a byte of RAM that it does not cover. -/
theorem ramByte_write (b : Bus) {a : BitVec 64} {w : AccessWidth} (v : BitVec 64) (t : AccessType)
    {x : ℕ} (hx : ¬ (a.toNat ≤ x ∧ x < a.toNat + widthInBytes w)) :
    (b.write a w v t).2.ramByte x = b.ramByte x := by
  by_cases hram : b.InRam a.toNat (widthInBytes w)
  · rw [(hram.write v t).2.ramByte_eq, if_neg hx]
  · exact ramByte_write_of_not_inRam hram v t x

theorem Stored.devices_eq {b b' : Bus} {a : BitVec 64} {w : AccessWidth} {v : BitVec 64}
    (h : Stored b b' a w v) : b'.devices = b.devices := by
  obtain ⟨i, o, m, -, hm, hs⟩ := h
  exact devices_of_set hs hm rfl

end Bus

end Rvemu
