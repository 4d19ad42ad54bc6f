import Rvemu.Core.ReservationMonitor

/-!
# What happens on the bus

The bus has five accesses, and a hart does nothing to it but these (`accesses_step`).  So what every
access of the bus preserves is preserved by the hart (`Bus.Accesses.invariant`), and nothing has to
be known about instructions to use it.
-/

set_option autoImplicit false

namespace Rvemu

open Relation

/-! ## Accesses -/

/-- One access. -/
inductive BusAccess (b : Bus) : Bus → Prop
  | read (a : BitVec 64) (w : AccessWidth) (t : AccessType) : BusAccess b (b.read a w t).2
  | write (a : BitVec 64) (w : AccessWidth) (v : BitVec 64) (t : AccessType) :
    BusAccess b (b.write a w v t).2
  | compareExchange (a : BitVec 64) (w : AccessWidth) (expected desired : BitVec 64) :
    BusAccess b (b.compareExchange a w expected desired).2
  | loadReserved (a : BitVec 64) (w : AccessWidth) : BusAccess b (b.loadReserved a w).2
  | storeConditional (token : ReservationToken) (a : BitVec 64) (w : AccessWidth) (v : BitVec 64) :
    BusAccess b (b.storeConditional token a w v).2

/-- Any number of accesses. -/
abbrev Bus.Accesses : Bus → Bus → Prop := ReflTransGen BusAccess

theorem Bus.Accesses.invariant {I : Bus → Prop} (hstep : ∀ b b', BusAccess b b' → I b → I b')
    {b b' : Bus} (h : b.Accesses b') (hb : I b) : I b' := by
  induction h with
  | refl => exact hb
  | tail _ haccess ih => exact hstep _ _ haccess ih

/-! ## Requests -/

/-- What the bus can be asked for. -/
inductive BusRequest
  | read (address : BitVec 64) (w : AccessWidth) (type : AccessType)
  | write (address : BitVec 64) (w : AccessWidth) (value : BitVec 64) (type : AccessType)
  | compareExchange (address : BitVec 64) (w : AccessWidth) (expected desired : BitVec 64)
  | loadReserved (address : BitVec 64) (w : AccessWidth)
  | storeConditional (token : ReservationToken) (address : BitVec 64) (w : AccessWidth)
    (value : BitVec 64)
  deriving DecidableEq, Repr

namespace Bus

/-- The bus after a request. -/
def perform (b : Bus) : BusRequest → Bus
  | .read a w t => (b.read a w t).2
  | .write a w v t => (b.write a w v t).2
  | .compareExchange a w expected desired => (b.compareExchange a w expected desired).2
  | .loadReserved a w => (b.loadReserved a w).2
  | .storeConditional token a w v => (b.storeConditional token a w v).2

theorem access_perform (b : Bus) (r : BusRequest) : BusAccess b (b.perform r) := by
  cases r with
  | read a w t => exact .read a w t
  | write a w v t => exact .write a w v t
  | compareExchange a w e d => exact .compareExchange a w e d
  | loadReserved a w => exact .loadReserved a w
  | storeConditional token a w v => exact .storeConditional token a w v

theorem accesses_run (b : Bus) (requests : List BusRequest) :
    b.Accesses (Runs.run perform b requests) :=
  Runs.run_induction (fun b' r h ↦ h.tail (b'.access_perform r)) .refl requests

end Bus

theorem BusAccess.exists_request {b b' : Bus} (h : BusAccess b b') : ∃ r, b' = b.perform r := by
  cases h with
  | read a w t => exact ⟨.read a w t, rfl⟩
  | write a w v t => exact ⟨.write a w v t, rfl⟩
  | compareExchange a w e d => exact ⟨.compareExchange a w e d, rfl⟩
  | loadReserved a w => exact ⟨.loadReserved a w, rfl⟩
  | storeConditional token a w v => exact ⟨.storeConditional token a w v, rfl⟩

/-! ## The memory map -/

theorem Bus.Stored.memoryMap {b b' : Bus} {a v : BitVec 64} {w : AccessWidth}
    (h : Bus.Stored b b' a w v) : b'.memoryMap = b.memoryMap := by
  obtain ⟨i, o, m, -, hm, hregions⟩ := h
  have hsame : (AddressRegion.ram (m.writeUnlocked o w v)).identity =
      (AddressRegion.ram m).identity := rfl
  rw [Bus.memoryMap, Bus.memoryMap, hregions, List.map_set, hsame, ← List.map_set,
    Bus.set_of_getElem? hm]

theorem BusAccess.memoryMap {b b' : Bus} (h : BusAccess b b') : b'.memoryMap = b.memoryMap := by
  cases h with
  | read a w t => exact b.memoryMap_read a w t
  | write a w v t => exact b.memoryMap_write a w v t
  | compareExchange a w e d =>
    rcases b.compareExchange_cases a w e d .atomic with ⟨-, hsame⟩ | ⟨-, -, hs, -, -⟩
    · rw [hsame]
    · exact hs.memoryMap
  | loadReserved a w =>
    have hregions := (b.loadReserved_cases a w).2.1
    exact (congrArg (List.map AddressRegion.identity) hregions).trans (b.memoryMap_read a w .load)
  | storeConditional token a w v =>
    rcases b.storeConditional_cases token a w v with ⟨e, -, hdone⟩ | ⟨-, hdone⟩ | ⟨-, -, hdone⟩ |
      ⟨-, -, hdone⟩ <;> rw [hdone]
    · rfl
    · rfl
    · rfl
    · exact Bus.memoryMap_onRegion (fun r o ↦ r.identity_write o w v) b.release a w

end Rvemu
