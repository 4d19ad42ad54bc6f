import Rvemu.Bus.Dma

/-!
# One device of the bus

The machine keeps a reference to each of its devices next to the bus that serves them.  Here the
device lives in the region list only, and `Component` says which one is meant: the first region of
its kind.  `Bus.component` reads it and `Bus.update` changes it in place.
-/

set_option autoImplicit false

namespace Rvemu

/-- A kind of device region. -/
structure Component (α : Type) where
  get : AddressRegion → Option α
  set : α → AddressRegion
  get_set : ∀ a, get (set a) = some a
  set_of_get : ∀ r a, get r = some a → r = set a
  notRam : ∀ a m, set a ≠ .ram m

namespace Component

def clint : Component Clint where
  get | .clint c => some c | _ => none
  set := .clint
  get_set _ := rfl
  set_of_get r a h := by cases r <;> cases h; rfl
  notRam _ _ := nofun

def plic : Component Plic where
  get | .plic p => some p | _ => none
  set := .plic
  get_set _ := rfl
  set_of_get r a h := by cases r <;> cases h; rfl
  notRam _ _ := nofun

def uart : Component Uart16550 where
  get | .uart u => some u | _ => none
  set := .uart
  get_set _ := rfl
  set_of_get r a h := by cases r <;> cases h; rfl
  notRam _ _ := nofun

def transport : Component VirtioMmioTransport where
  get | .virtio t => some t | _ => none
  set := .virtio
  get_set _ := rfl
  set_of_get r a h := by cases r <;> cases h; rfl
  notRam _ _ := nofun

variable {α β : Type} (c : Component α) (f : α → α)

/-- Change the first device of the kind. -/
def updateIn : List AddressRegion → List AddressRegion
  | [] => []
  | region :: rest =>
    match c.get region with
    | some a => c.set (f a) :: rest
    | none => region :: updateIn rest

theorem map_updateIn {γ : Type} (g : AddressRegion → γ) (hg : ∀ a, g (c.set (f a)) = g (c.set a))
    (l : List AddressRegion) : (c.updateIn f l).map g = l.map g := by
  induction l with
  | nil => rfl
  | cons region rest ih =>
    rw [updateIn]
    split
    · next a ha => rw [List.map_cons, List.map_cons, hg, ← c.set_of_get region a ha]
    · rw [List.map_cons, List.map_cons, ih]

theorem updateIn_updateIn (g : α → α) (l : List AddressRegion) :
    c.updateIn g (c.updateIn f l) = c.updateIn (fun a ↦ g (f a)) l := by
  induction l with
  | nil => rfl
  | cons region rest ih =>
    cases hget : c.get region with
    | some a => simp [updateIn, hget, c.get_set]
    | none => simp [updateIn, hget, ih]

theorem findSome?_updateIn (l : List AddressRegion) :
    (c.updateIn f l).findSome? c.get = (l.findSome? c.get).map f := by
  induction l with
  | nil => rfl
  | cons region rest ih =>
    rw [updateIn]
    split
    · next a ha => simp [c.get_set, ha]
    · next ha => simp [ha, ih]

/-- Another kind of device is not affected. -/
theorem findSome?_updateIn_of_ne (c' : Component β) (h : ∀ a, c'.get (c.set a) = none)
    (l : List AddressRegion) : (c.updateIn f l).findSome? c'.get = l.findSome? c'.get := by
  induction l with
  | nil => rfl
  | cons region rest ih =>
    rw [updateIn]
    split
    · next a ha => rw [c.set_of_get region a ha, List.findSome?_cons, List.findSome?_cons, h, h]
    · rw [List.findSome?_cons, List.findSome?_cons, ih]

end Component

/-- Regions that sit where others did are as far apart. -/
theorem pairwise_apart_of_map_range {l l' : List AddressRegion}
    (hsame : l'.map (·.range) = l.map (·.range)) (h : l.Pairwise AddressRegion.Apart) :
    l'.Pairwise AddressRegion.Apart := by
  have hmap : ∀ k : List AddressRegion, k.Pairwise AddressRegion.Apart ↔
      (k.map (·.range)).Pairwise fun a b ↦ a.overlaps b = false := by
    intro k
    rw [List.pairwise_map]
    rfl
  rw [hmap, hsame, ← hmap]
  exact h

namespace Bus

variable {α β : Type} (c : Component α)

def component (b : Bus) : Option α := b.regions.findSome? c.get

/-- A change of the device that leaves it where it is. -/
def update (b : Bus) (f : α → α) (hf : ∀ a, (c.set (f a)).range = (c.set a).range) : Bus :=
  { b with
    regions := c.updateIn f b.regions
    apart := pairwise_apart_of_map_range (c.map_updateIn f _ hf b.regions) b.apart }

variable (b : Bus) (f : α → α) (hf : ∀ a, (c.set (f a)).range = (c.set a).range)

@[simp] theorem component_update : (b.update c f hf).component c = (b.component c).map f :=
  c.findSome?_updateIn f b.regions

theorem update_update (g : α → α) (hg : ∀ a, (c.set (g a)).range = (c.set a).range) :
    (b.update c f hf).update c g hg =
      b.update c (fun a ↦ g (f a)) fun a ↦ (hg (f a)).trans (hf a) := by
  simp only [update, c.updateIn_updateIn]

theorem component_update_of_ne (c' : Component β) (h : ∀ a, c'.get (c.set a) = none) :
    (b.update c f hf).component c' = b.component c' :=
  c.findSome?_updateIn_of_ne f c' h b.regions

theorem memoryMap_update (hid : ∀ a, (c.set (f a)).identity = (c.set a).identity) :
    (b.update c f hf).memoryMap = b.memoryMap :=
  c.map_updateIn f _ hid b.regions

theorem ramByte_update (x : ℕ) : (b.update c f hf).ramByte x = b.ramByte x := by
  have hnone : ∀ a, regionByte x (c.set a) = none := by
    intro a
    have hram := c.notRam a
    cases hset : c.set a with
    | ram m => exact absurd hset (hram m)
    | _ => rfl
  exact ramByte_congr (c.map_updateIn f _ (fun a ↦ by rw [hnone, hnone]) b.regions)

end Bus

end Rvemu
