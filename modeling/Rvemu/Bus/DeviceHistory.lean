import Rvemu.Bus.Component
import Rvemu.Core.BusActivity

/-!
# The history of one device

A device on the bus sees nothing of a request but the read or the write of its own registers that it
comes to (`Bus.registerAccess`, `Bus.component_perform`).  So what the registers of one device
preserve is preserved by every hart, whatever else is on the bus (`Bus.Accesses.component`).
-/

set_option autoImplicit false

namespace Rvemu

open Relation

/-- An access to the registers of a device. -/
inductive RegisterAccess
  | read (offset : BitVec 64) (w : AccessWidth)
  | write (offset : BitVec 64) (w : AccessWidth) (value : BitVec 64)
  deriving DecidableEq, Repr

namespace Component

variable {α : Type}

/-- One read or write of the registers, whoever makes it. -/
inductive Touch (c : Component α) (a : α) : α → Prop
  | read {a' : α} (o : BitVec 64) (w : AccessWidth) (h : c.get ((c.set a).read o w).2 = some a') :
    Touch c a a'
  | write {a' : α} (o : BitVec 64) (w : AccessWidth) (v : BitVec 64)
    (h : c.get ((c.set a).write o w v).2 = some a') : Touch c a a'

/-- Any number of them. -/
abbrev History (c : Component α) : α → α → Prop := ReflTransGen (Touch c)

/-- No access makes a region one of this kind, or stops it from being one. -/
structure Steady (c : Component α) : Prop where
  read : ∀ r o w, (c.get (r.read o w).2).isSome = (c.get r).isSome
  write : ∀ r o w v, (c.get (r.write o w v).2).isSome = (c.get r).isSome

/-- The device after an access to its registers. -/
def access (c : Component α) (a : α) : RegisterAccess → α
  | .read o w => (c.get ((c.set a).read o w).2).getD a
  | .write o w value => (c.get ((c.set a).write o w value).2).getD a

theorem Steady.get_read {c : Component α} (h : c.Steady) (a : α) (o : BitVec 64) (w : AccessWidth) :
    c.get ((c.set a).read o w).2 = some (c.access a (.read o w)) := by
  have hsome := h.read (c.set a) o w
  rw [c.get_set] at hsome
  obtain ⟨a', ha'⟩ := Option.isSome_iff_exists.1 hsome
  rw [access, ha', Option.getD_some]

theorem Steady.get_write {c : Component α} (h : c.Steady) (a : α) (o : BitVec 64) (w : AccessWidth)
    (value : BitVec 64) :
    c.get ((c.set a).write o w value).2 = some (c.access a (.write o w value)) := by
  have hsome := h.write (c.set a) o w value
  rw [c.get_set] at hsome
  obtain ⟨a', ha'⟩ := Option.isSome_iff_exists.1 hsome
  rw [access, ha', Option.getD_some]

theorem steady_clint : Steady clint :=
  ⟨fun r _ _ ↦ by cases r <;> rfl, fun r _ _ _ ↦ by cases r <;> rfl⟩

theorem steady_plic : Steady plic :=
  ⟨fun r _ _ ↦ by cases r <;> rfl, fun r _ _ _ ↦ by cases r <;> rfl⟩

theorem steady_uart : Steady uart :=
  ⟨fun r _ _ ↦ by cases r <;> rfl, fun r _ _ _ ↦ by cases r <;> rfl⟩

theorem steady_transport : Steady transport :=
  ⟨fun r _ _ ↦ by cases r <;> rfl, fun r _ _ _ ↦ by cases r <;> rfl⟩

/-- A region is replaced: the first of its kind, or another one. -/
theorem findSome?_set (c : Component α) {r r' : AddressRegion}
    (hkind : (c.get r').isSome = (c.get r).isSome) {a : α} {l : List AddressRegion} {i : ℕ}
    (hr : l[i]? = some r) (ha : l.findSome? c.get = some a) :
    if l.findIdx? (fun r ↦ (c.get r).isSome) = some i then
      c.get r = some a ∧ (l.set i r').findSome? c.get = c.get r'
    else (l.set i r').findSome? c.get = some a := by
  induction l generalizing i with
  | nil => cases hr
  | cons first rest ih =>
    rw [List.findSome?_cons] at ha
    rw [List.findIdx?_cons]
    cases i with
    | zero =>
      obtain rfl : first = r := by simpa using hr
      rw [List.set_cons_zero, List.findSome?_cons]
      cases hfirst : c.get first with
      | some d =>
        rw [hfirst] at ha hkind
        obtain ⟨d', hd'⟩ := Option.isSome_iff_exists.1 hkind
        rw [hd']
        exact ⟨ha, rfl⟩
      | none =>
        rw [hfirst] at ha hkind
        have hnone : c.get r' = none :=
          Option.isNone_iff_eq_none.1 (Option.isSome_eq_false_iff.1 hkind)
        rw [hnone]
        simpa using ha
    | succ i =>
      rw [List.set_cons_succ, List.findSome?_cons]
      cases hfirst : c.get first with
      | some d =>
        rw [hfirst] at ha
        simpa using ha
      | none =>
        rw [hfirst] at ha
        simpa using ih hr ha

end Component

namespace Bus

variable {α : Type} {c : Component α} {b b' : Bus} {d : α}

/-- A device is read off the regions that are not RAM. -/
theorem component_of_devices (c : Component α) (h : b'.devices = b.devices) :
    b'.component c = b.component c := by
  have hram (m : PhysicalMemory) : c.get (.ram m) = none := by
    cases hget : c.get (.ram m) with
    | none => rfl
    | some a => exact absurd (c.set_of_get _ a hget).symm (c.notRam a m)
  have hdevices (b : Bus) : b.component c = b.devices.findSome? (·.bind c.get) := by
    rw [component, devices, List.findSome?_map]
    congr 1
    funext r
    cases r with
    | ram m => exact hram m
    | _ => rfl
  rw [hdevices, hdevices, h]

theorem component_of_regions (h : b'.regions = b.regions) : b'.component c = b.component c := by
  rw [component, component, h]

/-- Where an access meets the registers of the device. -/
def offsetIn (c : Component α) (b : Bus) (a : BitVec 64) (w : AccessWidth) : Option (BitVec 64) :=
  match b.locate a w with
  | .error _ => none
  | .ok (index, offset) =>
    if b.regions.findIdx? (fun r ↦ (c.get r).isSome) = some index then some offset else none

/-- What the device sees of a request. -/
def registerAccess (c : Component α) (b : Bus) : BusRequest → Option RegisterAccess
  | .read a w _ | .loadReserved a w => (b.offsetIn c a w).map (.read · w)
  | .write a w value _ => (b.offsetIn c a w).map (.write · w value)
  | .storeConditional token a w value =>
    if reservationMatches b.reservation token a w then (b.offsetIn c a w).map (.write · w value)
    else none
  | .compareExchange .. => none

theorem component_onRegion (op : RegionOp)
    (hop : ∀ r o, (c.get (op.run r o).2).isSome = (c.get r).isSome) (hd : b.component c = some d)
    (a : BitVec 64) (w : AccessWidth) :
    match b.offsetIn c a w with
    | none => (b.onRegion a w op).2.component c = some d
    | some o => (b.onRegion a w op).1 = (op.run (c.set d) o).1 ∧
        (b.onRegion a w op).2.component c = c.get (op.run (c.set d) o).2 := by
  rw [offsetIn]
  rcases onRegion_cases b a w op with
    ⟨e, hlocate, he⟩ | ⟨i, o, r, hlocate, hr, hanswer, hregions, -⟩
  · rw [hlocate, he]
    exact hd
  · rw [hlocate, component, hregions]
    have hset := c.findSome?_set (hop r o) hr hd
    dsimp only
    split at hset
    · next hfirst =>
      rw [if_pos hfirst]
      obtain rfl := c.set_of_get r d hset.1
      exact ⟨hanswer, hset.2⟩
    · next hother =>
      rw [if_neg hother]
      exact hset

/-- The device after an access to its registers. -/
theorem component_access (hc : c.Steady) (hd : b.component c = some d) (a : BitVec 64)
    (w : AccessWidth) :
    (b.onRegion a w (readOp w)).2.component c =
      some (((b.offsetIn c a w).map (.read · w)).elim d (c.access d)) ∧
    ∀ value, (b.onRegion a w (writeOp w value)).2.component c =
      some (((b.offsetIn c a w).map (.write · w value)).elim d (c.access d)) := by
  have hread := component_onRegion (readOp w) (fun r o ↦ hc.read r o w) hd a w
  have hwrite (value : BitVec 64) :=
    component_onRegion (writeOp w value) (fun r o ↦ hc.write r o w value) hd a w
  cases ho : b.offsetIn c a w with
  | none =>
    simp only [ho] at hread hwrite
    exact ⟨hread, hwrite⟩
  | some o =>
    simp only [ho] at hread hwrite
    exact ⟨hread.2.trans (hc.get_read d o w), fun value ↦
      (hwrite value).2.trans (hc.get_write d o w value)⟩

/-- **A request and a device.**  Of a request the device sees the access to its registers that it
comes to, if it comes to one, and nothing else. -/
theorem component_perform (hc : c.Steady) (hd : b.component c = some d) (r : BusRequest) :
    (b.perform r).component c = some ((b.registerAccess c r).elim d (c.access d)) := by
  cases r with
  | read a w t => exact (component_access hc hd a w).1
  | write a w v t =>
    have hwrite := (component_access hc hd a w).2 v
    rw [perform, write_eq]
    split
    · rw [component_of_regions (regions_invalidateReservationLocked _ _ _)]
      exact hwrite
    · exact hwrite
  | compareExchange a w expected desired =>
    rw [perform]
    rcases b.compareExchange_cases a w expected desired .atomic with
      ⟨-, hsame⟩ | ⟨-, -, hstored, -⟩
    · rw [hsame]
      exact hd
    · exact (component_of_devices c hstored.devices_eq).trans hd
  | loadReserved a w =>
    rw [perform, component_of_regions (b.loadReserved_cases a w).2.1]
    exact (component_access hc hd a w).1
  | storeConditional token a w v =>
    have hrelease : b.release.component c = some d := hd
    have hwrite := (component_access hc hrelease a w).2 v
    rw [perform, registerAccess]
    rcases b.storeConditional_cases token a w v with ⟨e, hlocate, hdone⟩ | ⟨hno, hdone⟩ |
      ⟨hmatches, hrefused, hdone⟩ | ⟨hmatches, -, hdone⟩ <;> rw [hdone]
    · rw [offsetIn, hlocate]
      split <;> exact hd
    · rw [hno]
      exact hd
    · rw [onRegion_writeOp_of_not_ok hrefused] at hwrite
      rw [hmatches]
      exact hwrite
    · rw [hmatches]
      exact hwrite

end Bus

variable {α : Type} {c : Component α} {b b' : Bus} {d : α}

theorem BusAccess.component (h : BusAccess b b') (hc : c.Steady) (hd : b.component c = some d) :
    ∃ d', b'.component c = some d' ∧ c.History d d' := by
  obtain ⟨r, rfl⟩ := h.exists_request
  refine ⟨_, Bus.component_perform hc hd r, ?_⟩
  cases b.registerAccess c r with
  | none => exact .refl
  | some access =>
    cases access with
    | read o w => exact .single (.read o w (hc.get_read d o w))
    | write o w v => exact .single (.write o w v (hc.get_write d o w v))

/-- Of a sequence of accesses a device sees reads and writes of its registers. -/
theorem Bus.Accesses.component (h : b.Accesses b') (hc : c.Steady) (hd : b.component c = some d) :
    ∃ d', b'.component c = some d' ∧ c.History d d' := by
  induction h with
  | refl => exact ⟨d, hd, .refl⟩
  | tail _ haccess ih =>
    obtain ⟨d₁, hd₁, hfirst⟩ := ih
    obtain ⟨d', hd', hthen⟩ := haccess.component hc hd₁
    exact ⟨d', hd', hfirst.trans hthen⟩

end Rvemu
