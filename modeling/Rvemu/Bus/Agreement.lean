import Mathlib.Data.List.Forall2
import Rvemu.Bus.Lemmas
import Rvemu.Lib.Lockstep

/-!
# Buses that agree

Two buses agree but for a set of addresses when they hold the same devices and reservation, and the
same bytes of RAM outside the set.  An access that touches no address of the set gets the same
answer from both, and they agree afterwards.
-/

set_option autoImplicit false

namespace Rvemu

open Bytes Lockstep

/-! ## RAM -/

/-- The same RAM, but for the bytes in `hidden`. -/
structure PhysicalMemory.AgreesBut (hidden : ℕ → Prop) (m m' : PhysicalMemory) : Prop where
  name : m'.name = m.name
  range : m'.range = m.range
  bytes : ∀ i, ¬hidden (m.range.base.toNat + i) → m'.bytes.getD i 0#8 = m.bytes.getD i 0#8

namespace PhysicalMemory.AgreesBut

variable {hidden : ℕ → Prop} {m m' : PhysicalMemory} (h : m.AgreesBut hidden m') {o : BitVec 64}
  {w : AccessWidth}

include h

theorem length_eq : m'.bytes.length = m.bytes.length := by
  rw [m'.size_eq, m.size_eq, h.range]

theorem validate_eq (o : BitVec 64) (w : AccessWidth) : m'.validate o w = m.validate o w := by
  rw [validate, validate, h.length_eq, h.range, h.name]

section Clear

variable (hclear : ∀ i < widthInBytes w, ¬hidden (m.range.base.toNat + (o.toNat + i)))

include hclear

theorem readUnlocked_eq : m'.readUnlocked o w = m.readUnlocked o w :=
  composeBytes_congr fun i hi ↦ h.bytes (o.toNat + i) (hclear i hi)

theorem read_eq : m'.read o w = m.read o w := by
  rw [read, read, h.validate_eq, h.readUnlocked_eq hclear]

omit hclear in
theorem writeUnlocked (hfit : o.toNat + widthInBytes w ≤ m.bytes.length) (v : BitVec 64) :
    (m.writeUnlocked o w v).AgreesBut hidden (m'.writeUnlocked o w v) where
  name := h.name
  range := h.range
  bytes i hi := by
    have hfit' := hfit
    rw [← h.length_eq] at hfit'
    show (storeBytes _ _ _ _).getD i 0#8 = (storeBytes _ _ _ _).getD i 0#8
    rw [getD_storeBytes _ _ _ _ _ hfit, getD_storeBytes _ _ _ _ _ hfit']
    split
    · rfl
    · exact h.bytes i hi

omit hclear in
theorem write (o : BitVec 64) (w : AccessWidth) (v : BitVec 64) :
    Tied (PhysicalMemory.AgreesBut hidden) (m.write o w v) (m'.write o w v) := by
  rw [PhysicalMemory.write, PhysicalMemory.write, h.validate_eq]
  cases hok : (m.validate o w).ok with
  | false => exact ⟨rfl, h⟩
  | true => exact ⟨rfl, h.writeUnlocked ((m.ok_validate_iff o w).1 hok) v⟩

theorem compareExchange (e d : BitVec 64) :
    Tied (PhysicalMemory.AgreesBut hidden) (m.compareExchange o w e d)
      (m'.compareExchange o w e d) := by
  rw [PhysicalMemory.compareExchange, PhysicalMemory.compareExchange, h.validate_eq,
    h.readUnlocked_eq hclear]
  cases hok : (m.validate o w).ok with
  | false => exact ⟨rfl, h⟩
  | true =>
    show Tied _ (if _ ≠ _ then _ else _) (if _ ≠ _ then _ else _)
    exact .ite ⟨rfl, h⟩ ⟨rfl, h.writeUnlocked ((m.ok_validate_iff o w).1 hok) _⟩

end Clear

end PhysicalMemory.AgreesBut

/-! ## Regions -/

/-- RAM that agrees, or the same device. -/
inductive AddressRegion.AgreesBut (hidden : ℕ → Prop) : AddressRegion → AddressRegion → Prop
  | ram {m m' : PhysicalMemory} (h : m.AgreesBut hidden m') :
    AddressRegion.AgreesBut hidden (.ram m) (.ram m')
  | same (r : AddressRegion) : AddressRegion.AgreesBut hidden r r

namespace AddressRegion.AgreesBut

variable {hidden : ℕ → Prop} {r r' : AddressRegion} (h : r.AgreesBut hidden r') {o : BitVec 64}
  {w : AccessWidth}

include h

theorem range_eq : r'.range = r.range := by
  cases h with
  | ram h => exact h.range
  | same => rfl

theorem name_eq : r'.name = r.name := by
  cases h with
  | ram h => exact h.name
  | same => rfl

theorem write (o : BitVec 64) (w : AccessWidth) (v : BitVec 64) :
    Tied (AddressRegion.AgreesBut hidden) (r.write o w v) (r'.write o w v) := by
  cases h with
  | ram h => exact ⟨(h.write o w v).answer, .ram (h.write o w v).states⟩
  | same => exact ⟨rfl, .same _⟩

section Clear

variable (hclear : ∀ i < widthInBytes w, ¬hidden (r.range.base.toNat + (o.toNat + i)))

include hclear

theorem read : Tied (AddressRegion.AgreesBut hidden) (r.read o w) (r'.read o w) := by
  cases h with
  | ram h => exact ⟨h.read_eq hclear, .ram h⟩
  | same => exact ⟨rfl, .same _⟩

theorem compareExchange (e d : BitVec 64) :
    Tied (AddressRegion.AgreesBut hidden) (r.compareExchange o w e d)
      (r'.compareExchange o w e d) := by
  cases h with
  | ram h =>
    have hdone := h.compareExchange hclear e d
    exact ⟨hdone.answer, .ram hdone.states⟩
  | same => exact ⟨rfl, .same _⟩

end Clear

end AddressRegion.AgreesBut

/-! ## Buses -/

section Lists

variable {α β : Type} {R : α → β → Prop} {l : List α} {l' : List β} {a : α} {a' : β}

theorem forall₂_getElem? (h : List.Forall₂ R l l') {i : ℕ} (ha : l[i]? = some a)
    (ha' : l'[i]? = some a') : R a a' := by
  obtain ⟨hlt, rfl⟩ := List.getElem?_eq_some_iff.1 ha
  obtain ⟨hlt', rfl⟩ := List.getElem?_eq_some_iff.1 ha'
  exact h.get hlt hlt'

theorem forall₂_set (h : List.Forall₂ R l l') (ha : R a a') (i : ℕ) :
    List.Forall₂ R (l.set i a) (l'.set i a') := by
  induction h generalizing i with
  | nil => exact .nil
  | cons hfirst hrest ih =>
    cases i with
    | zero => exact .cons ha hrest
    | succ i => exact .cons hfirst (ih i)

end Lists

/-- The same bus, but for the bytes of RAM in `hidden`. -/
structure Bus.AgreesBut (hidden : ℕ → Prop) (b b' : Bus) : Prop where
  regions : List.Forall₂ (AddressRegion.AgreesBut hidden) b.regions b'.regions
  reservation : b'.reservation = b.reservation
  nextReservationToken : b'.nextReservationToken = b.nextReservationToken

namespace Bus.AgreesBut

variable {hidden : ℕ → Prop} {b b' : Bus} (h : b.AgreesBut hidden b') {a : BitVec 64}
  {w : AccessWidth}

include h

theorem locate_eq (a : BitVec 64) (w : AccessWidth) : b'.locate a w = b.locate a w := by
  have hsame : b.regions.map (fun r ↦ (r.range, r.name)) =
      b'.regions.map fun r ↦ (r.range, r.name) := by
    have hregions := h.regions
    generalize b.regions = l at hregions ⊢
    generalize b'.regions = l' at hregions ⊢
    induction hregions with
    | nil => rfl
    | cons hr _ ih => rw [List.map_cons, List.map_cons, hr.range_eq, hr.name_eq, ih]
  rw [locate, locate, locateIn_congr a w hsame]

/-- What is done to one region is done to regions that agree. -/
theorem onRegion {op : RegionOp} (hop : ∀ r r' o, r.AgreesBut hidden r' →
    (∀ i < widthInBytes w, ¬hidden (r.range.base.toNat + (o.toNat + i))) →
    Tied (AddressRegion.AgreesBut hidden) (op.run r o) (op.run r' o))
    (hclear : ∀ i < widthInBytes w, ¬hidden (a.toNat + i)) :
    Tied (Bus.AgreesBut hidden) (b.onRegion a w op) (b'.onRegion a w op) := by
  rcases onRegion_cases b a w op with ⟨e, hl, he⟩ | ⟨i, o, r, hl, hr, h₁, h₂, h₃, h₄⟩
  · rw [he, Bus.onRegion, h.locate_eq, hl]
    exact ⟨rfl, h⟩
  · obtain ⟨s, hs, hbase, -, ho⟩ := locate_ok hl
    obtain rfl : s = r := Option.some.inj (hs.symm.trans hr)
    rcases onRegion_cases b' a w op with ⟨e, hl', -⟩ | ⟨i', o', r', hl', hr', h₁', h₂', h₃', h₄'⟩
    · rw [h.locate_eq, hl] at hl'
      cases hl'
    · rw [h.locate_eq, hl] at hl'
      obtain ⟨rfl, rfl⟩ := Prod.mk.inj (Except.ok.inj hl')
      have hagrees : s.AgreesBut hidden r' := forall₂_getElem? h.regions hr hr'
      have hdone := hop s r' o hagrees fun k hk ↦ by
        rw [ho, show s.range.base.toNat + (a.toNat - s.range.base.toNat + k) = a.toNat + k by omega]
        exact hclear k hk
      refine ⟨by rw [h₁, h₁']; exact hdone.answer, ?_, ?_, ?_⟩
      · rw [h₂, h₂']
        exact forall₂_set h.regions hdone.states i
      · rw [h₃, h₃', h.reservation]
      · rw [h₄, h₄', h.nextReservationToken]

theorem invalidateReservationLocked (a n : BitVec 64) :
    (b.invalidateReservationLocked a n).AgreesBut hidden (b'.invalidateReservationLocked a n) := by
  rw [Bus.invalidateReservationLocked, Bus.invalidateReservationLocked, h.reservation]
  split
  · exact h
  · split
    · exact h
    · dsimp only
      split
      · exact ⟨h.regions, rfl, h.nextReservationToken⟩
      · exact h

theorem nextReservationTokenLocked :
    Tied (Bus.AgreesBut hidden) b.nextReservationTokenLocked b'.nextReservationTokenLocked := by
  rw [Bus.nextReservationTokenLocked, Bus.nextReservationTokenLocked, h.nextReservationToken]
  exact .ite ⟨rfl, h.regions, h.reservation, rfl⟩ ⟨rfl, h.regions, h.reservation, rfl⟩

theorem release : b.release.AgreesBut hidden b'.release :=
  ⟨h.regions, rfl, h.nextReservationToken⟩

section Clear

variable (hclear : ∀ i < widthInBytes w, ¬hidden (a.toNat + i))

include hclear

theorem read (t : AccessType) :
    Tied (Bus.AgreesBut hidden) (b.read a w t) (b'.read a w t) :=
  h.onRegion (fun _ _ _ hr hc ↦ hr.read hc) hclear

theorem write (v : BitVec 64) (t : AccessType) :
    Tied (Bus.AgreesBut hidden) (b.write a w v t) (b'.write a w v t) := by
  have hdone : Tied (Bus.AgreesBut hidden) (b.onRegion a w (writeOp w v))
      (b'.onRegion a w (writeOp w v)) := h.onRegion (fun _ _ o hr _ ↦ hr.write o w v) hclear
  rw [Bus.write, Bus.write, hdone.answer]
  exact .ite ⟨rfl, hdone.states.invalidateReservationLocked _ _⟩ hdone

theorem compareExchange (e d : BitVec 64) (t : AccessType) :
    Tied (Bus.AgreesBut hidden) (b.compareExchange a w e d t) (b'.compareExchange a w e d t) := by
  have hdone : Tied (Bus.AgreesBut hidden) (b.onRegion a w (compareExchangeOp w e d))
      (b'.onRegion a w (compareExchangeOp w e d)) :=
    h.onRegion (fun _ _ _ hr hc ↦ hr.compareExchange hc e d) hclear
  rw [Bus.compareExchange, Bus.compareExchange, hdone.answer]
  exact .ite ⟨rfl, hdone.states.invalidateReservationLocked _ _⟩ hdone

theorem loadReserved :
    Tied (Bus.AgreesBut hidden) (b.loadReserved a w) (b'.loadReserved a w) := by
  have hdone : Tied (Bus.AgreesBut hidden) (b.onRegion a w (readOp w))
      (b'.onRegion a w (readOp w)) := h.onRegion (fun _ _ _ hr hc ↦ hr.read hc) hclear
  have hissued := hdone.states.nextReservationTokenLocked
  rw [Bus.loadReserved, Bus.loadReserved, hdone.answer]
  refine .ite ⟨rfl, hdone.states⟩
    ⟨?_, hissued.states.regions, ?_, hissued.states.nextReservationToken⟩
  · dsimp only
    rw [hissued.answer]
  · dsimp only
    rw [hissued.answer]

theorem storeConditional (token : ReservationToken) (v : BitVec 64) :
    Tied (Bus.AgreesBut hidden) (b.storeConditional token a w v)
      (b'.storeConditional token a w v) := by
  have hdone : Tied (Bus.AgreesBut hidden) (b.release.onRegion a w (writeOp w v))
      (b'.release.onRegion a w (writeOp w v)) :=
    h.release.onRegion (fun _ _ o hr _ ↦ hr.write o w v) hclear
  rw [Bus.storeConditional, Bus.storeConditional, h.reservation]
  show Tied _ (b.release.storeLocated _ a w v (b.release.locate a w))
    (b'.release.storeLocated _ a w v (b'.release.locate a w))
  rw [h.release.locate_eq]
  cases b.release.locate a w with
  | error e => exact ⟨rfl, h.release⟩
  | ok p =>
    rw [storeLocated, storeLocated]
    dsimp only
    rw [hdone.answer]
    exact .ite ⟨rfl, h.release⟩ (.ite hdone ⟨rfl, hdone.states⟩)

end Clear

end Bus.AgreesBut

end Rvemu
