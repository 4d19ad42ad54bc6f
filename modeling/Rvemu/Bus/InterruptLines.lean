import Rvemu.Bus.Component
import Rvemu.Core.BusActivity

/-!
# The interrupt lines on the bus

The inputs of the PLIC are levels that its devices set, and no access of the bus is one of them: the
guest claims and completes interrupts, and enables them, but it never moves a level.  `Bus.wires`
collects the levels of the PLIC and the sources that the devices are wired to; whatever a hart or a
device does to the bus by accesses leaves them as they are.
-/

set_option autoImplicit false

namespace Rvemu

/-- What a region has to do with the inputs of the PLIC. -/
inductive Wire
  | plic (level : Fin 32 → Bool)
  | uart (source : BitVec 32)
  | virtio (source : BitVec 32)
  | other

namespace Wire

def level : Wire → Option (Fin 32 → Bool)
  | plic level => some level
  | _ => none

def uartSource : Wire → Option (BitVec 32)
  | uart source => some source
  | _ => none

def virtioSource : Wire → Option (BitVec 32)
  | virtio source => some source
  | _ => none

end Wire

namespace AddressRegion

def wire : AddressRegion → Wire
  | plic p => .plic p.level
  | uart u => .uart u.interruptSource
  | virtio t => .virtio t.config.interruptSource
  | _ => .other

end AddressRegion

/-! ## Accesses -/

namespace Plic

variable (p : Plic) (context : Fin 2) (o : BitVec 64)

theorem level_readContext {r : AccessResult × Plic} (h : p.readContext context o = some r) :
    r.2.level = p.level := by
  rw [readContext] at h
  split at h
  · obtain rfl := Option.some.inj h
    rfl
  · split at h
    · obtain rfl := Option.some.inj h
      rfl
    · split at h
      · obtain rfl := Option.some.inj h
        dsimp only
        split <;> rfl
      · cases h

theorem level_writeContext {v : BitVec 64} {p' : Plic} (h : p.writeContext context o v = some p') :
    p'.level = p.level := by
  rw [writeContext] at h
  split at h
  · obtain rfl := Option.some.inj h
    rfl
  · split at h
    · obtain rfl := Option.some.inj h
      rfl
    · split at h
      · dsimp only at h
        split at h
        · split at h <;> obtain rfl := Option.some.inj h <;> rfl
        · obtain rfl := Option.some.inj h
          rfl
      · cases h

/-- A claim moves no level. -/
theorem level_read (w : AccessWidth) : (p.read o w).2.level = p.level := by
  rw [read]
  split
  · rfl
  · split
    · rfl
    · split
      · rfl
      · cases hfirst : p.readContext 0 o with
        | some r => exact p.level_readContext 0 o hfirst
        | none =>
          cases hsecond : p.readContext 1 o with
          | some r =>
            simp only [Option.orElse_none, Option.getD_some]
            exact p.level_readContext 1 o hsecond
          | none =>
            simp only [Option.orElse_none]
            rfl

theorem level_write (w : AccessWidth) (v : BitVec 64) : (p.write o w v).2.level = p.level := by
  rw [write]
  split
  · rfl
  · split
    · rfl
    · cases hfirst : p.writeContext 0 o v with
      | some p' => exact p.level_writeContext 0 o hfirst
      | none =>
        cases hsecond : p.writeContext 1 o v with
        | some p' =>
          simp only [Option.orElse_none, Option.getD_some]
          exact p.level_writeContext 1 o hsecond
        | none =>
          simp only [Option.orElse_none]
          rfl

/-- The level of an input; there are none past the thirty-first. -/
def sourceLevel (p : Plic) (source : BitVec 32) : Bool :=
  if h : source.toNat < 32 then p.level ⟨source.toNat, h⟩ else false

end Plic

namespace Uart16550

variable (u : Uart16550) (o : BitVec 64) (w : AccessWidth)

theorem interruptSource_read : (u.read o w).2.interruptSource = u.interruptSource := by
  rw [read]
  repeat' split
  all_goals rfl

theorem interruptSource_writeFcr (byte : BitVec 8) :
    (u.writeFcr byte).interruptSource = u.interruptSource := by
  rw [writeFcr]
  repeat' split
  all_goals rfl

theorem interruptSource_write (v : BitVec 64) :
    (u.write o w v).2.interruptSource = u.interruptSource := by
  rw [write]
  dsimp only
  repeat' split
  all_goals first | rfl | exact u.interruptSource_writeFcr _

end Uart16550

namespace AddressRegion

theorem wire_read (r : AddressRegion) (o : BitVec 64) (w : AccessWidth) :
    (r.read o w).2.wire = r.wire := by
  cases r with
  | plic p => exact congrArg Wire.plic (p.level_read o w)
  | uart u => exact congrArg Wire.uart (u.interruptSource_read o w)
  | _ => rfl

theorem wire_write (r : AddressRegion) (o : BitVec 64) (w : AccessWidth) (v : BitVec 64) :
    (r.write o w v).2.wire = r.wire := by
  cases r with
  | plic p => exact congrArg Wire.plic (p.level_write o w v)
  | uart u => exact congrArg Wire.uart (u.interruptSource_write o w v)
  | virtio t =>
    exact congrArg (fun config ↦ Wire.virtio config.interruptSource) (t.config_write o w v)
  | _ => rfl

end AddressRegion

namespace Bus

def wires (b : Bus) : List Wire := b.regions.map AddressRegion.wire

theorem wires_of_devices {b b' : Bus} (h : b'.devices = b.devices) : b'.wires = b.wires := by
  have hdevice (b : Bus) : b.wires = b.devices.map fun d ↦ d.elim .other AddressRegion.wire := by
    rw [wires, devices, List.map_map]
    refine List.map_congr_left fun r _ ↦ ?_
    cases r <;> rfl
  rw [hdevice, hdevice, h]

theorem wires_onRegion {op : RegionOp} (hop : ∀ r o, (op.run r o).2.wire = r.wire) (b : Bus)
    (a : BitVec 64) (w : AccessWidth) : (b.onRegion a w op).2.wires = b.wires := by
  rcases onRegion_cases b a w op with ⟨e, -, he⟩ | ⟨i, o, r, -, hr, -, hregions, -, -⟩
  · rw [he]
  · rw [wires, wires, hregions, List.map_set, hop, ← List.map_set, set_of_getElem? hr]

theorem wires_read (b : Bus) (a : BitVec 64) (w : AccessWidth) (t : AccessType) :
    (b.read a w t).2.wires = b.wires :=
  wires_onRegion (fun r o ↦ r.wire_read o w) b a w

theorem wires_write (b : Bus) (a : BitVec 64) (w : AccessWidth) (v : BitVec 64) (t : AccessType) :
    (b.write a w v t).2.wires = b.wires := by
  have h : (b.onRegion a w (writeOp w v)).2.wires = b.wires :=
    wires_onRegion (fun r o ↦ r.wire_write o w v) b a w
  rw [write_eq]
  split
  · rw [← h]
    exact congrArg (List.map _) (regions_invalidateReservationLocked _ _ _)
  · exact h

/-! ### Devices -/

section Component

variable {α β : Type} {c : Component α} {b : Bus}

/-- What the wire of a device shows of it is the same as long as the wires are. -/
theorem component_congr {f : α → β} {g : Wire → Option β}
    (hg : ∀ r, (c.get r).map f = g r.wire) {b' : Bus} (h : b'.wires = b.wires) :
    (b'.component c).map f = (b.component c).map f := by
  have hwires (b : Bus) : (b.component c).map f = b.wires.findSome? g := by
    rw [component, wires]
    induction b.regions with
    | nil => rfl
    | cons r rest ih =>
      rw [List.findSome?_cons, List.map_cons, List.findSome?_cons, ← hg r]
      cases c.get r with
      | some a => rfl
      | none => exact ih
  rw [hwires, hwires, h]

/-- A change of a device that leaves its wire alone leaves them all. -/
theorem wires_update {f : α → α} (hf : ∀ a, (c.set (f a)).range = (c.set a).range)
    (h : ∀ a, b.component c = some a → (c.set (f a)).wire = (c.set a).wire) :
    (b.update c f hf).wires = b.wires := by
  have hmap (l : List AddressRegion)
      (h : ∀ a, l.findSome? c.get = some a → (c.set (f a)).wire = (c.set a).wire) :
      (c.updateIn f l).map AddressRegion.wire = l.map AddressRegion.wire := by
    induction l with
    | nil => rfl
    | cons r rest ih =>
      rw [Component.updateIn]
      rw [List.findSome?_cons] at h
      cases hget : c.get r with
      | some a =>
        rw [hget] at h
        rw [List.map_cons, List.map_cons, h a rfl, ← c.set_of_get r a hget]
      | none =>
        rw [hget] at h
        rw [List.map_cons, List.map_cons, ih h]
  exact hmap b.regions h

end Component

section Same

variable {b b' : Bus}

theorem level_congr (h : b'.wires = b.wires) :
    (b'.component .plic).map Plic.level = (b.component .plic).map Plic.level :=
  component_congr (c := .plic) (g := Wire.level) (fun r ↦ by cases r <;> rfl) h

theorem uartSource_congr (h : b'.wires = b.wires) :
    (b'.component .uart).map Uart16550.interruptSource =
      (b.component .uart).map Uart16550.interruptSource :=
  component_congr (c := .uart) (g := Wire.uartSource) (fun r ↦ by cases r <;> rfl) h

theorem virtioSource_congr (h : b'.wires = b.wires) :
    (b'.component .transport).map (·.config.interruptSource) =
      (b.component .transport).map (·.config.interruptSource) :=
  component_congr (c := .transport) (g := Wire.virtioSource) (fun r ↦ by cases r <;> rfl) h

end Same

end Bus

theorem BusAccess.wires {b b' : Bus} (h : BusAccess b b') : b'.wires = b.wires := by
  cases h with
  | read a w t => exact b.wires_read a w t
  | write a w v t => exact b.wires_write a w v t
  | compareExchange a w expected desired =>
    rcases b.compareExchange_cases a w expected desired .atomic with
      ⟨-, hsame⟩ | ⟨-, -, hstored, -⟩
    · rw [hsame]
    · exact Bus.wires_of_devices hstored.devices_eq
  | loadReserved a w =>
    have hregions := (b.loadReserved_cases a w).2.1
    exact (congrArg (List.map AddressRegion.wire) hregions).trans (b.wires_read a w .load)
  | storeConditional token a w v =>
    rcases b.storeConditional_cases token a w v with ⟨e, -, hdone⟩ | ⟨-, hdone⟩ | ⟨-, -, hdone⟩ |
      ⟨-, -, hdone⟩ <;> rw [hdone]
    · rfl
    · rfl
    · rfl
    · exact Bus.wires_onRegion (fun r o ↦ r.wire_write o w v) b.release a w

/-- No sequence of accesses moves a level. -/
theorem Bus.Accesses.wires {b b' : Bus} (h : b.Accesses b') : b'.wires = b.wires :=
  h.invariant (I := fun c : Bus ↦ c.wires = b.wires)
    (fun _ _ haccess hc ↦ haccess.wires.trans hc) rfl

theorem Dma.wires_run {α : Type} (p : Dma α) (b : Bus) :
    (p.run Bus.dma b).2.wires = b.wires := by
  refine Dialogue.run_invariant (I := fun c : Bus ↦ c.wires = b.wires) (P := fun _ ↦ True)
    (fun c i hc _ ↦ ?_) p rfl fun _ _ ↦ trivial
  cases i with
  | read a w => exact (c.wires_read a w .dmaRead).trans hc
  | write a w v => exact (c.wires_write a w v .dmaWrite).trans hc

end Rvemu
