import Rvemu.Bus.Bus

/-!
# Which accesses a region serves

A device checks the offset and the width of an access before anything else, and the check looks at
nothing that an access can change.  So whether a read or a write succeeds is settled by the kind of
the region and by where it is.  Whatever a region returns fits the width it was asked for.
-/

set_option autoImplicit false

namespace Rvemu

open Bytes

namespace AddressRegion

def isDevice : AddressRegion → Bool
  | clint _ | plic _ | uart _ | virtio _ => true
  | ram _ | bootRom _ => false

/-- The check a device makes before a read or a write; it is the same for both. -/
def validates : AddressRegion → BitVec 64 → AccessWidth → Bool
  | clint _, offset, w => (Clint.validateAccess offset w).ok
  | plic _, offset, w => w == .word && (offset &&& 3#64) == 0#64
  | uart _, offset, w => (Uart16550.validateAccess offset w).ok
  | virtio t, offset, w => (t.validateRegisterAccess offset w).ok
  | ram _, _, _ | bootRom _, _, _ => true

variable {r : AddressRegion}

theorem plic_ok (p : Plic) (o : BitVec 64) (w : AccessWidth) (v : BitVec 64) :
    (p.read o w).1.ok = (w == .word && (o &&& 3#64) == 0#64) ∧
      (p.write o w v).1.ok = (w == .word && (o &&& 3#64) == 0#64) := by
  have hcontext : ∀ (k : Fin 2) (x : AccessResult × Plic), p.readContext k o = some x →
      x.1.ok = true := by
    intro k x hx
    simp only [Plic.readContext] at hx
    split at hx
    · simp [← Option.some.inj hx]
    · split at hx
      · simp [← Option.some.inj hx]
      · split at hx
        · simp [← Option.some.inj hx]
        · cases hx
  by_cases hbad : w ≠ .word ∨ (o &&& 3#64) ≠ 0#64
  · have hfalse : (w == .word && (o &&& 3#64) == 0#64) = false := by
      rcases hbad with h | h <;> simp [h]
    rw [Plic.read, if_pos hbad, Plic.write, if_pos hbad, hfalse]
    exact ⟨rfl, rfl⟩
  · have htrue : (w == .word && (o &&& 3#64) == 0#64) = true := by
      rw [not_or, not_not, not_not] at hbad
      simp [hbad.1, hbad.2]
    rw [Plic.read, if_neg hbad, Plic.write, if_neg hbad, htrue]
    refine ⟨?_, by split <;> rfl⟩
    split
    · rfl
    · split
      · rfl
      · cases h0 : p.readContext 0 o with
        | some x => exact hcontext 0 x h0
        | none =>
          cases h1 : p.readContext 1 o with
          | some x => exact hcontext 1 x h1
          | none => rfl

theorem ok_read (h : r.isDevice = true) (o : BitVec 64) (w : AccessWidth) :
    (r.read o w).1.ok = r.validates o w := by
  cases r with
  | ram m => cases h
  | bootRom m => cases h
  | clint c =>
    simp only [AddressRegion.read, Clint.read, validates]
    cases hv : (Clint.validateAccess o w).ok with
    | false => simp [hv]
    | true => simp [apply_ite AccessResult.ok]
  | plic p => exact (plic_ok p o w 0#64).1
  | uart u =>
    simp only [AddressRegion.read, validates]
    cases hv : (Uart16550.validateAccess o w).ok with
    | false => simp [Uart16550.read, hv]
    | true =>
      simp only [Uart16550.read, hv, Bool.not_true, Bool.false_eq_true, if_false]
      repeat' split
      all_goals rfl
  | virtio t =>
    simp only [AddressRegion.read, VirtioMmioTransport.read, validates]
    cases hv : (t.validateRegisterAccess o w).ok with
    | false => simp [hv]
    | true => simp [apply_ite AccessResult.ok]

theorem ok_write (h : r.isDevice = true) (o : BitVec 64) (w : AccessWidth) (v : BitVec 64) :
    (r.write o w v).1.ok = r.validates o w := by
  cases r with
  | ram m => cases h
  | bootRom m => cases h
  | clint c =>
    simp only [AddressRegion.write, validates]
    cases hv : (Clint.validateAccess o w).ok with
    | false => simp [Clint.write, hv]
    | true =>
      simp only [Clint.write, hv, Bool.not_true, Bool.false_eq_true, if_false]
      repeat' split
      all_goals rfl
  | plic p => exact (plic_ok p o w v).2
  | uart u =>
    simp only [AddressRegion.write, validates]
    cases hv : (Uart16550.validateAccess o w).ok with
    | false => simp [Uart16550.write, hv]
    | true =>
      simp only [Uart16550.write, hv, Bool.not_true, Bool.false_eq_true, if_false]
      repeat' split
      all_goals rfl
  | virtio t =>
    simp only [AddressRegion.write, VirtioMmioTransport.write, validates]
    cases hv : (t.validateRegisterAccess o w).ok with
    | false => simp [hv]
    | true => simp

end AddressRegion

/-! ## Values fit their width -/

/-- A value of the access width. -/
def AccessWidth.Fits (w : AccessWidth) (v : BitVec 64) : Prop := v.toNat < 2 ^ (8 * widthInBytes w)

namespace AccessWidth.Fits

theorem doubleWord (v : BitVec 64) : AccessWidth.doubleWord.Fits v := v.isLt

theorem zero (w : AccessWidth) : w.Fits 0#64 := Nat.two_pow_pos _

theorem setWidth {n : ℕ} {w : AccessWidth} (v : BitVec n) (h : n ≤ 8 * widthInBytes w) :
    w.Fits (v.setWidth 64) := by
  rw [Fits, BitVec.toNat_setWidth]
  exact Nat.lt_of_le_of_lt (Nat.mod_le _ _)
    (Nat.lt_of_lt_of_le v.isLt (Nat.pow_le_pow_right (by decide) h))

theorem ite {p : Prop} [Decidable p] {w : AccessWidth} {a b : BitVec 64} (ha : w.Fits a)
    (hb : w.Fits b) : w.Fits (if p then a else b) := by
  split
  · exact ha
  · exact hb

/-- The two halves of a register fit a word. -/
theorem low (v : BitVec 64) : AccessWidth.word.Fits (v &&& 0xFFFFFFFF#64) := by
  rw [Fits]
  refine Nat.lt_of_le_of_lt ?_ (show 0xFFFFFFFF < 2 ^ 32 by decide)
  rw [BitVec.toNat_and]
  exact Nat.and_le_right

theorem high (v : BitVec 64) : AccessWidth.word.Fits (v >>> 32) := by
  have := v.isLt
  rw [Fits, BitVec.toNat_ushiftRight, Nat.shiftRight_eq_div_pow]
  exact Nat.div_lt_of_lt_mul this

end AccessWidth.Fits

/-- The result carries a value of the access width. -/
def AccessResult.Fits (r : AccessResult) (w : AccessWidth) : Prop := w.Fits r.value

namespace AccessResult.Fits

theorem failure (e : BusError) (w : AccessWidth) : (AccessResult.failure e).Fits w := .zero w

theorem ite {p : Prop} [Decidable p] {w : AccessWidth} {r s : AccessResult} (hr : r.Fits w)
    (hs : s.Fits w) : (if p then r else s).Fits w := by
  split
  · exact hr
  · exact hs

end AccessResult.Fits

namespace Clint

theorem fits_read (c : Clint) (o : BitVec 64) (w : AccessWidth) : (c.read o w).Fits w := by
  have hvalidate : ∀ w, (validateAccess o w).Fits w := by
    intro w
    rw [validateAccess]
    exact .ite (.failure _ _) (.ite (.failure _ _) (.ite (.zero _) (.ite (.zero _) (.failure _ _))))
  have htimer : ∀ source register,
      AccessWidth.word.Fits (readTimerRegister source o register .word) := by
    intro source register
    rw [readTimerRegister, if_neg (by decide)]
    exact .ite (.low _) (.high _)
  cases w with
  | byte => exact hvalidate .byte
  | halfWord => exact hvalidate .halfWord
  | word =>
    rw [read]
    refine .ite (hvalidate _) (.ite ?_ (.ite (htimer _ _) (htimer _ _)))
    exact AccessWidth.Fits.ite (show 1 < 2 ^ 32 by decide) (.zero _)
  | doubleWord => exact .doubleWord _

end Clint

theorem Plic.fits_read (p : Plic) (o : BitVec 64) (w : AccessWidth) : (p.read o w).1.Fits w := by
  have hcontext : ∀ (k : Fin 2) (x : AccessResult × Plic), p.readContext k o = some x →
      x.1.Fits .word := by
    intro k x hx
    rw [Plic.readContext] at hx
    split at hx
    · rw [← Option.some.inj hx]
      exact .setWidth (p.enable k) (by decide)
    · split at hx
      · rw [← Option.some.inj hx]
        exact .setWidth (p.threshold k) (by decide)
      · split at hx
        · rw [← Option.some.inj hx]
          have hlt := (p.select k).isLt
          show _ % 2 ^ 64 < 2 ^ 32
          omega
        · cases hx
  rw [Plic.read]
  split
  · exact .failure _ _
  · next hw =>
    have hword : w = .word := Classical.not_not.1 fun h ↦ hw (Or.inl h)
    subst hword
    split
    · exact .setWidth (p.priority _) (by decide)
    · split
      · exact .setWidth p.pendingWord (by decide)
      · cases h0 : p.readContext 0 o with
        | some x => exact hcontext 0 x h0
        | none =>
          cases h1 : p.readContext 1 o with
          | some x => exact hcontext 1 x h1
          | none => exact .zero _

theorem Uart16550.fits_read (u : Uart16550) (o : BitVec 64) (w : AccessWidth) :
    (u.read o w).1.Fits w := by
  have hbyte : ∀ v : BitVec 8, AccessWidth.Fits w (v.setWidth 64) := by
    intro v
    exact .setWidth v (Nat.mul_le_mul_left 8 (widthInBytes_pos w))
  rw [Uart16550.read]
  split
  · rw [validateAccess]
    exact .ite (.failure _ _) (.ite (.failure _ _) (.zero _))
  split
  · split
    · exact hbyte _
    · split
      · exact .zero _
      · exact hbyte _
  split
  · exact hbyte _
  split
  · exact hbyte _
  split
  · exact hbyte _
  split
  · exact hbyte _
  split
  · exact hbyte _
  split
  · exact .zero _
  split
  · exact hbyte _
  · exact .zero _

theorem VirtioMmioTransport.fits_read (t : VirtioMmioTransport) (o : BitVec 64) (w : AccessWidth) :
    (t.read o w).Fits w := by
  rw [VirtioMmioTransport.read, validateRegisterAccess]
  by_cases hw : w ≠ .word ∨ (o &&& 3#64) ≠ 0#64
  · rw [if_pos hw]
    exact .failure _ _
  · have hword : w = .word := Classical.not_not.1 fun h ↦ hw (Or.inl h)
    subst hword
    have hvalid : ∀ v, AccessWidth.word.Fits v →
        (AccessResult.success (if t.validQueue then v else 0#64)).Fits .word :=
      fun v hv ↦ AccessWidth.Fits.ite hv (.zero _)
    have hset : ∀ {n : ℕ} (v : BitVec n), n ≤ 32 → AccessWidth.word.Fits (v.setWidth 64) :=
      fun v h ↦ .setWidth v h
    rw [if_neg hw]
    refine .ite (.zero _) ?_
    refine .ite (show 0x74726976 < 2 ^ 32 by decide) ?_
    refine .ite (show 2 < 2 ^ 32 by decide) ?_
    refine .ite (hset _ (by decide)) ?_
    refine .ite (hset _ (by decide)) ?_
    refine .ite (hset _ (by decide)) ?_
    refine .ite (hvalid _ (hset _ (by decide))) ?_
    refine .ite (hvalid _ (hset _ (by decide))) ?_
    refine .ite (hvalid _ (.ite (show 1 < 2 ^ 32 by decide) (.zero _))) ?_
    refine .ite (hset _ (by decide)) ?_
    refine .ite (hset _ (by decide)) ?_
    refine .ite (hvalid _ (.low _)) ?_
    refine .ite (hvalid _ (.high _)) ?_
    refine .ite (hvalid _ (.low _)) ?_
    refine .ite (hvalid _ (.high _)) ?_
    refine .ite (hvalid _ (.low _)) ?_
    refine .ite (hvalid _ (.high _)) ?_
    exact .ite (hset _ (by decide)) (.zero _)

theorem AddressRegion.fits_read (r : AddressRegion) (o : BitVec 64) (w : AccessWidth) :
    (r.read o w).1.Fits w := by
  have hbytes : ∀ f : ℕ → BitVec 8, w.Fits (composeBytes f (widthInBytes w)) := by
    intro f
    rw [AccessWidth.Fits, Nat.mul_comm]
    exact composeBytes_toNat_lt f _ (widthInBytes_le w)
  cases r with
  | ram m =>
    rw [AddressRegion.read, PhysicalMemory.read]
    refine .ite ?_ (hbytes _)
    rw [PhysicalMemory.validate]
    exact .ite (.failure _ _) (.zero _)
  | bootRom m =>
    rw [AddressRegion.read, BootRom.read]
    refine .ite ?_ (hbytes _)
    rw [BootRom.validate]
    exact .ite (.failure _ _) (.zero _)
  | clint c => exact c.fits_read o w
  | plic p => exact p.fits_read o w
  | uart u => exact u.fits_read o w
  | virtio t => exact t.fits_read o w

/-- What the bus reads fits the width of the access. -/
theorem Bus.fits_read (b : Bus) (a : BitVec 64) (w : AccessWidth) (t : AccessType) :
    (b.read a w t).1.Fits w := by
  rw [Bus.read, Bus.onRegion]
  cases hl : b.locate a w with
  | error e => exact .failure _ _
  | ok p =>
    rw [Bus.onLocated]
    dsimp only
    split
    · exact .failure _ _
    · exact AddressRegion.fits_read _ _ _

end Rvemu
