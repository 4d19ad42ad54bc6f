import Rvemu.Devices.Clint
import Mathlib.Algebra.GroupWithZero.Nat

/-!
# The platform-level interrupt controller

Thirty-one level-triggered sources and two contexts.  A claim is a *read* with a side effect, which
is why the bus threads its own state through reads.
-/

set_option autoImplicit false

namespace Rvemu

structure Plic where
  priority : Fin 32 → BitVec 32 := fun _ ↦ 0#32
  level : Fin 32 → Bool := fun _ ↦ false
  /-- Latched by the gateway: a device that drops its line cannot cancel an unclaimed request. -/
  pending : Fin 32 → Bool := fun _ ↦ false
  /-- `0` unclaimed, `1`/`2` claimed by the M/S context. -/
  claimedBy : Fin 32 → BitVec 8 := fun _ ↦ 0#8
  enable : Fin 2 → BitVec 32 := fun _ ↦ 0#32
  threshold : Fin 2 → BitVec 32 := fun _ ↦ 0#32

namespace Plic

def range : AddressRange where
  base := AddressMap.plicBase
  size := AddressMap.plicSize
  size_pos := by decide
  fits := by decide

/-- There are contexts and sources to number; the definitions of other files share these proofs. -/
theorem neZero_contexts : NeZero 2 := ⟨by decide⟩

theorem neZero_sources : NeZero 32 := ⟨by decide⟩

def pendingOffset : BitVec 64 := 0x1000#64

def enableOffset (context : Fin 2) : BitVec 64 := if context = 0 then 0x2000#64 else 0x2080#64

def contextOffset (context : Fin 2) : BitVec 64 :=
  if context = 0 then 0x200000#64 else 0x201000#64

def unsupportedAccess (offset : BitVec 64) (w : AccessWidth) (detail : String) : AccessResult :=
  .failure
    { code := .invalidWidth, address := AddressMap.plicBase + offset,
      length := BitVec.ofNat 64 (widthInBytes w), region := "plic", detail }

/-- The sources in the order the arbitration loop scans them. -/
def sources : List (Fin 32) := (List.finRange 32).filter (· ≠ 0)

def setSourceLevel (p : Plic) (source : BitVec 32) (asserted : Bool) : Plic :=
  if h : source.toNat = 0 ∨ 31 < source.toNat then p
  else
    let s : Fin 32 := ⟨source.toNat, by omega⟩
    { p with
      level := Function.update p.level s asserted
      pending := if asserted && p.claimedBy s == 0#8 then Function.update p.pending s true
        else p.pending }

/-- The best candidate of a context; `0` when there is none.  A later source replaces the selected
one only on strictly higher priority, so ties go to the smaller id. -/
def select (p : Plic) (context : Fin 2) : Fin 32 :=
  sources.foldl
    (fun selected source ↦
      let enabled := (p.enable context &&& (1#32 <<< source.val)) != 0#32
      if !p.pending source || p.claimedBy source != 0#8 || !enabled
          || p.priority source ≤ p.threshold context then selected
      else if selected = 0 ∨ p.priority selected < p.priority source then source
      else selected)
    0

def contextPending (p : Plic) (context : Fin 2) : Bool := p.select context != 0

def pendingWord (p : Plic) : BitVec 32 :=
  sources.foldl (fun w source ↦ if p.pending source then w ||| (1#32 <<< source.val) else w) 0#32

/-- The register file of one context, or `none` when the offset is not one of its registers. -/
def readContext (p : Plic) (context : Fin 2) (offset : BitVec 64) :
    Option (AccessResult × Plic) :=
  if offset = enableOffset context then
    some (.success ((p.enable context).setWidth 64), p)
  else if offset = contextOffset context then
    some (.success ((p.threshold context).setWidth 64), p)
  else if offset = contextOffset context + 4#64 then
    let source := p.select context
    let p' : Plic :=
      if source ≠ 0 then
        { p with
          pending := Function.update p.pending source false
          claimedBy := Function.update p.claimedBy source (BitVec.ofNat 8 (context.val + 1)) }
      else p
    some (.success (BitVec.ofNat 64 source.val), p')
  else none

def read (p : Plic) (offset : BitVec 64) (w : AccessWidth) : AccessResult × Plic :=
  if w ≠ .word ∨ (offset &&& 3#64) ≠ 0#64 then
    (unsupportedAccess offset w "PLIC 仅支持自然对齐的 32 位 MMIO 访问", p)
  else if h : 4 ≤ offset.toNat ∧ offset.toNat < 128 then
    (.success ((p.priority ⟨offset.toNat / 4, by omega⟩).setWidth 64), p)
  else if offset = pendingOffset then (.success (p.pendingWord.setWidth 64), p)
  else
    ((p.readContext 0 offset).orElse fun _ ↦ p.readContext 1 offset).getD (.success, p)

def writeContext (p : Plic) (context : Fin 2) (offset value : BitVec 64) : Option Plic :=
  if offset = enableOffset context then
    some { p with
      enable := Function.update p.enable context (value.setWidth 32 &&& ~~~1#32) }
  else if offset = contextOffset context then
    some { p with threshold := Function.update p.threshold context (value.setWidth 32 &&& 7#32) }
  else if offset = contextOffset context + 4#64 then
    let source := (value.setWidth 32).toNat
    if h : 0 < source ∧ source ≤ 31 then
      let s : Fin 32 := ⟨source, by omega⟩
      if p.claimedBy s = BitVec.ofNat 8 (context.val + 1) then
        some { p with
          claimedBy := Function.update p.claimedBy s 0#8
          pending := Function.update p.pending s (p.level s) }
      else some p
    else some p
  else none

def write (p : Plic) (offset : BitVec 64) (w : AccessWidth) (value : BitVec 64) :
    AccessResult × Plic :=
  if w ≠ .word ∨ (offset &&& 3#64) ≠ 0#64 then
    (unsupportedAccess offset w "PLIC 仅支持自然对齐的 32 位 MMIO 访问", p)
  else if h : 4 ≤ offset.toNat ∧ offset.toNat < 128 then
    (.success,
      { p with
        priority :=
          Function.update p.priority ⟨offset.toNat / 4, by omega⟩ (value.setWidth 32 &&& 7#32) })
  else
    (.success,
      ((p.writeContext 0 offset value).orElse fun _ ↦ p.writeContext 1 offset value).getD p)

def compareExchange (offset : BitVec 64) (w : AccessWidth) : AccessResult :=
  unsupportedAccess offset w "PLIC 不支持原子 MMIO 访问"

end Plic

end Rvemu
