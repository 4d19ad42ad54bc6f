import Rvemu.Core.CsrLemmas
import Rvemu.Core.GuestAccess
import Rvemu.Memory.TlbTransparency
import Rvemu.Memory.Translate

/-!
# The MMU against the Sv39 algorithm

The first half states the algorithm of the privileged architecture in its own terms: addresses are
numbers, fields are quotients and remainders, memory is a function, and the walk is a recursion over
the levels.  The second half shows that `Mmu.translate`, started with an empty TLB on tables that
lie in RAM and use no reserved bits, computes it: same physical address, A and D set in the leaf and
nowhere else, and no trace of a walk that faults.
-/

set_option autoImplicit false

namespace Rvemu

/-! ## The algorithm -/

namespace Sv39

/-- What the algorithm depends on besides memory. -/
structure Context where
  privilege : PrivilegeMode
  satp : BitVec 64
  sum : Bool
  mxr : Bool

/-- VPN[i]. -/
def vpn (va i : ℕ) : ℕ := va / 2 ^ (12 + 9 * i) % 2 ^ 9

/-- The page number in an entry. -/
def ppn (pte : BitVec 64) : ℕ := pte.toNat / 2 ^ 10 % 2 ^ 44

/-- Bits 63 to 39 repeat bit 38. -/
def canonical (va : BitVec 64) : Bool :=
  va.toNat / 2 ^ 38 == 0 || va.toNat / 2 ^ 38 == 2 ^ 26 - 1

/-- V clear, W without R, or a reserved bit set. -/
def invalid (pte : BitVec 64) : Bool :=
  !pte.getLsbD 0 || (!pte.getLsbD 1 && pte.getLsbD 2) || pte.toNat / 2 ^ 54 != 0

/-- R or X makes an entry a leaf. -/
def isLeaf (pte : BitVec 64) : Bool := pte.getLsbD 1 || pte.getLsbD 3

/-- U, A and D are reserved in an entry that points to the next level. -/
def pointerReserved (pte : BitVec 64) : Bool :=
  pte.getLsbD 4 || pte.getLsbD 6 || pte.getLsbD 7

/-- The entry a walk ends in. -/
structure Entry where
  address : ℕ
  level : ℕ
  pte : BitVec 64
  deriving DecidableEq

/-- The walk through the table at `table`, whose entries are of level `i`. -/
def walk (memory : ℕ → BitVec 64) (va table : ℕ) : ℕ → Option Entry
  | 0 =>
    let address := table + vpn va 0 * 8
    let pte := memory address
    if invalid pte then none
    else if isLeaf pte then some { address, level := 0, pte }
    else none
  | i + 1 =>
    let address := table + vpn va (i + 1) * 8
    let pte := memory address
    if invalid pte then none
    else if isLeaf pte then some { address, level := i + 1, pte }
    else if pointerReserved pte then none
    else walk memory va (ppn pte * 2 ^ 12) i

/-- The addresses of the entries that walk reads. -/
def visited (memory : ℕ → BitVec 64) (va table : ℕ) : ℕ → List ℕ
  | 0 => [table + vpn va 0 * 8]
  | i + 1 =>
    let address := table + vpn va (i + 1) * 8
    let pte := memory address
    address :: if invalid pte || isLeaf pte then [] else visited memory va (ppn pte * 2 ^ 12) i

/-- The page number bits below the level of a superpage are zero. -/
def aligned (e : Entry) : Bool := ppn e.pte % 2 ^ (9 * e.level) == 0

/-- The permission rules for a leaf. -/
def permits (context : Context) (kind : MmuAccessKind) (pte : BitVec 64) : Bool :=
  let user := pte.getLsbD 4
  (match context.privilege with
    | .user => user
    | .supervisor => !user || (context.sum && kind != .instructionFetch)
    | .machine => true) &&
  (match kind with
    | .instructionFetch => pte.getLsbD 3
    | .load => pte.getLsbD 1 || (context.mxr && pte.getLsbD 3)
    | .store | .atomic => pte.getLsbD 2)

/-- The physical address through a leaf: the offset and the low page number bits come from the
virtual address, the rest from the entry. -/
def physicalAddress (va : ℕ) (e : Entry) : ℕ :=
  (ppn e.pte / 2 ^ (9 * e.level) * 2 ^ (9 * e.level) + va / 2 ^ 12 % 2 ^ (9 * e.level)) * 2 ^ 12
    + va % 2 ^ 12

/-- The leaf with A, and D for a store or an atomic, set. -/
def marked (kind : MmuAccessKind) (pte : BitVec 64) : BitVec 64 :=
  match kind with
  | .instructionFetch | .load => pte ||| 0x40#64
  | .store | .atomic => pte ||| 0xC0#64

inductive Outcome
  | untranslated
  | fault
  | through (e : Entry)
  deriving DecidableEq

/-- The entries a translation reads: none in machine mode, without paging, or for an address that is
not canonical. -/
def entriesRead (memory : ℕ → BitVec 64) (context : Context) (va : BitVec 64) : List ℕ :=
  if context.privilege = .machine ∨ context.satp.toNat / 2 ^ 60 ≠ 8 ∨ !canonical va then []
  else visited memory va.toNat (context.satp.toNat % 2 ^ 44 * 2 ^ 12) 2

/-- The algorithm; the modes of `satp` other than Bare and Sv39 translate nothing. -/
def translate (memory : ℕ → BitVec 64) (context : Context) (kind : MmuAccessKind)
    (va : BitVec 64) : Outcome :=
  if context.privilege = .machine ∨ context.satp.toNat / 2 ^ 60 = 0 then .untranslated
  else if context.satp.toNat / 2 ^ 60 ≠ 8 ∨ !canonical va then .fault
  else
    match walk memory va.toNat (context.satp.toNat % 2 ^ 44 * 2 ^ 12) 2 with
    | none => .fault
    | some e => if permits context kind e.pte && aligned e then .through e else .fault

end Sv39

/-! ## Fields as numbers -/

section Fields

theorem toNat_vpn (va : BitVec 64) (i : ℕ) : (vpn va i).toNat = Sv39.vpn va.toNat i := by
  have h := Bits.toNat_and_mask (va >>> (12 + 9 * i)) (show 9 < 64 by decide)
  rw [BitVec.toNat_ushiftRight, Nat.shiftRight_eq_div_pow] at h
  exact h

theorem toNat_ptePpn (pte : BitVec 64) : (ptePpn pte).toNat = Sv39.ppn pte := by
  rw [ptePpn, Bits.toNat_and_mask _ (by decide), BitVec.toNat_ushiftRight,
    Nat.shiftRight_eq_div_pow]
  rfl

theorem toNat_satpRootPpn (satp : BitVec 64) : (satpRootPpn satp).toNat = satp.toNat % 2 ^ 44 :=
  Bits.toNat_and_mask satp (by decide)

theorem toNat_satpMode (satp : BitVec 64) : (satpMode satp).toNat = satp.toNat / 2 ^ 60 := by
  rw [satpMode, BitVec.toNat_ushiftRight, Nat.shiftRight_eq_div_pow]

theorem canonicalSv39_eq (va : BitVec 64) : canonicalSv39 va = Sv39.canonical va := by
  have hsign : ((va >>> 38) &&& 1#64).toNat = va.toNat / 2 ^ 38 % 2 := by
    have h := Bits.toNat_and_mask (va >>> 38) (show 1 < 64 by decide)
    rw [BitVec.toNat_ushiftRight, Nat.shiftRight_eq_div_pow] at h
    exact h
  have hhigh : (va >>> 39).toNat = va.toNat / 2 ^ 38 / 2 := by
    rw [BitVec.toNat_ushiftRight, Nat.shiftRight_eq_div_pow, Nat.div_div_eq_div_mul, ← Nat.pow_succ]
  have hlt : va.toNat / 2 ^ 38 < 2 ^ 26 := by
    have := va.isLt
    omega
  have hones : ((1#64 <<< 25) - 1#64).toNat = 2 ^ 25 - 1 := rfl
  rw [canonicalSv39, Sv39.canonical, Bool.eq_iff_iff, Bool.or_eq_true, beq_iff_eq, beq_iff_eq]
  split
  · next h0 =>
    rw [← BitVec.toNat_inj, hsign] at h0
    rw [beq_iff_eq, ← BitVec.toNat_inj, hhigh]
    simp only [BitVec.toNat_ofNat] at h0 ⊢
    omega
  · next h0 =>
    rw [← BitVec.toNat_inj, hsign] at h0
    rw [beq_iff_eq, ← BitVec.toNat_inj, hhigh, hones]
    simp only [BitVec.toNat_ofNat] at h0
    omega

/-- A flag of an entry as a bit of it. -/
theorem hasFlag_pteFlags (pte : BitVec 64) {k : ℕ} (hk : k < 10) :
    hasFlag (pteFlags pte) (1#16 <<< k) = pte.getLsbD k := by
  rw [hasFlag_bit _ (by omega), getLsbD_pteFlags, decide_eq_true hk, Bool.true_and]

theorem pteValid_eq_bits (pte : BitVec 64) :
    pteValid (pteFlags pte) = (pte.getLsbD 0 && !(pte.getLsbD 2 && !pte.getLsbD 1)) := by
  rw [pteValid, Pte.valid, Pte.write, Pte.read, hasFlag_pteFlags _ (by decide),
    hasFlag_pteFlags _ (by decide), hasFlag_pteFlags _ (by decide)]

theorem pteLeaf_eq_isLeaf (pte : BitVec 64) : pteLeaf (pteFlags pte) = Sv39.isLeaf pte := by
  rw [pteLeaf, hasFlag_or, Pte.read, Pte.execute, hasFlag_pteFlags _ (by decide),
    hasFlag_pteFlags _ (by decide), Sv39.isLeaf]

/-- With the reserved bits clear, the code's validity check is the one of the algorithm. -/
theorem pteValid_eq_invalid {pte : BitVec 64} (h : pte.toNat / 2 ^ 54 = 0) :
    (!pteValid (pteFlags pte)) = Sv39.invalid pte := by
  rw [pteValid_eq_bits, Sv39.invalid, h]
  cases pte.getLsbD 0 <;> cases pte.getLsbD 1 <;> cases pte.getLsbD 2 <;> rfl

theorem superpageAligned_eq {pteAddress : ℕ} (pte : BitVec 64) {level : ℕ} (h : level ≤ 2) :
    superpageAligned (ptePpn pte) level = Sv39.aligned { address := pteAddress, level, pte } := by
  rw [superpageAligned, Sv39.aligned]
  dsimp only
  have hmask : ∀ {k : ℕ}, k < 64 →
      ((ptePpn pte &&& ((1#64 <<< k) - 1#64)) == 0#64) = (Sv39.ppn pte % 2 ^ k == 0) := by
    intro k hk
    rw [Bool.eq_iff_iff, beq_iff_eq, beq_iff_eq, ← BitVec.toNat_inj, Bits.toNat_and_mask _ hk,
      toNat_ptePpn]
    rfl
  rcases (by omega : level = 0 ∨ level = 1 ∨ level = 2) with rfl | rfl | rfl
  · rw [if_neg (by decide), if_neg (by decide), Nat.mul_zero, Nat.pow_zero, Nat.mod_one]
    rfl
  · rw [if_neg (by decide), if_pos rfl, hmask (by decide)]
  · rw [if_pos rfl, hmask (by decide)]

/-- Fields put side by side. -/
theorem or_shift (a : ℕ) {b k : ℕ} (h : b < 2 ^ k) : a <<< k ||| b = a * 2 ^ k + b := by
  rw [← Nat.shiftLeft_add_eq_or_of_lt h, Nat.shiftLeft_eq]

theorem toNat_fields {n₂ n₁ n₀ offset : BitVec 64} (h₂ : n₂.toNat < 2 ^ 26)
    (h₁ : n₁.toNat < 2 ^ 9) (h₀ : n₀.toNat < 2 ^ 9) (h : offset.toNat < 2 ^ 12) :
    ((n₂ <<< 30) ||| (n₁ <<< 21) ||| (n₀ <<< 12) ||| offset).toNat =
      ((n₂.toNat * 2 ^ 9 + n₁.toNat) * 2 ^ 9 + n₀.toNat) * 2 ^ 12 + offset.toNat := by
  have hshift : ∀ (x : BitVec 64) (k : ℕ), x.toNat * 2 ^ k < 2 ^ 64 →
      (x <<< k).toNat = x.toNat <<< k := by
    intro x k hlt
    rw [BitVec.toNat_shiftLeft, Nat.shiftLeft_eq, Nat.mod_eq_of_lt hlt]
  rw [BitVec.toNat_or, BitVec.toNat_or, BitVec.toNat_or, hshift n₂ 30 (by omega),
    hshift n₁ 21 (by omega), hshift n₀ 12 (by omega)]
  have e₂ : n₂.toNat <<< 30 ||| n₁.toNat <<< 21 = (n₂.toNat * 2 ^ 9 + n₁.toNat) <<< 21 := by
    have hlt : n₁.toNat <<< 21 < 2 ^ 30 := by rw [Nat.shiftLeft_eq]; omega
    rw [or_shift _ hlt, Nat.shiftLeft_eq, Nat.shiftLeft_eq]
    omega
  have e₁ : (n₂.toNat * 2 ^ 9 + n₁.toNat) <<< 21 ||| n₀.toNat <<< 12 =
      ((n₂.toNat * 2 ^ 9 + n₁.toNat) * 2 ^ 9 + n₀.toNat) <<< 12 := by
    have hlt : n₀.toNat <<< 12 < 2 ^ 21 := by rw [Nat.shiftLeft_eq]; omega
    rw [or_shift _ hlt, Nat.shiftLeft_eq, Nat.shiftLeft_eq]
    omega
  rw [e₂, e₁, or_shift _ h]

theorem toNat_composePhysicalAddress {address : ℕ} (va pte : BitVec 64) {level : ℕ}
    (h : level ≤ 2) :
    (composePhysicalAddress va (ptePpn pte) level).toNat =
      Sv39.physicalAddress va.toNat { address, level, pte } := by
  have hoffset : (va &&& 0xFFF#64).toNat = va.toNat % 2 ^ 12 :=
    Bits.toNat_and_mask va (show 12 < 64 by decide)
  have hfield : ∀ k, ((ptePpn pte >>> k) &&& 0x1FF#64).toNat = Sv39.ppn pte / 2 ^ k % 2 ^ 9 := by
    intro k
    have h := Bits.toNat_and_mask (ptePpn pte >>> k) (show 9 < 64 by decide)
    rw [BitVec.toNat_ushiftRight, Nat.shiftRight_eq_div_pow, toNat_ptePpn] at h
    exact h
  have hfield₀ : (ptePpn pte &&& 0x1FF#64).toNat = Sv39.ppn pte % 2 ^ 9 := by
    have h := Bits.toNat_and_mask (ptePpn pte) (show 9 < 64 by decide)
    rw [toNat_ptePpn] at h
    exact h
  have htop : ((ptePpn pte >>> 18) &&& ((1#64 <<< 26) - 1#64)).toNat =
      Sv39.ppn pte / 2 ^ 18 % 2 ^ 26 := by
    rw [Bits.toNat_and_mask _ (by decide), BitVec.toNat_ushiftRight, Nat.shiftRight_eq_div_pow,
      toNat_ptePpn]
  have hvpn₀ := toNat_vpn va 0
  have hvpn₁ := toNat_vpn va 1
  have hppn : Sv39.ppn pte < 2 ^ 44 := Nat.mod_lt _ (by decide)
  rw [Sv39.vpn] at hvpn₀ hvpn₁
  rw [composePhysicalAddress, Sv39.physicalAddress]
  dsimp only
  rcases (by omega : level = 0 ∨ level = 1 ∨ level = 2) with rfl | rfl | rfl
  · rw [if_pos (by decide), if_pos rfl, toNat_fields (by omega) (by rw [hfield]; omega)
      (by omega) (by omega), htop, hfield, hfield₀, hoffset]
    omega
  · rw [if_pos (by decide), if_neg (by decide), toNat_fields (by omega) (by rw [hfield]; omega)
      (by omega) (by omega), htop, hfield, hvpn₀, hoffset]
    omega
  · rw [if_neg (by decide), if_neg (by decide), toNat_fields (by omega) (by omega) (by omega)
      (by omega), htop, hvpn₁, hvpn₀, hoffset]
    omega

end Fields

/-! ## The walk -/

/-- The little-endian double word of RAM at an address. -/
def Bus.dword (b : Bus) (x : ℕ) : BitVec 64 :=
  Bytes.composeBytes (fun i ↦ (b.ramByte (x + i)).getD 0#8) 8

/-- The entries a walk reads lie in RAM, with the reserved bits clear. -/
structure TableLegal (b : Bus) (addresses : List ℕ) : Prop where
  ram : ∀ x ∈ addresses, b.InRam x 8
  reserved : ∀ x ∈ addresses, (b.dword x).toNat / 2 ^ 54 = 0
  pointer : ∀ x ∈ addresses, Sv39.isLeaf (b.dword x) = false →
    Sv39.pointerReserved (b.dword x) = false

section Walk

variable {b : Bus} {va t : BitVec 64} {level : ℕ}

theorem tableRead_of_inRam {a : BitVec 64} (h : b.InRam a.toNat 8) :
    (tableRead b a).ok = true ∧ (tableRead b a).value = b.dword a.toNat := by
  obtain ⟨hok, hbytes⟩ := Bus.InRam.read (w := .doubleWord) h .load
  refine ⟨hok, ?_⟩
  rw [Bus.dword, ← Bytes.composeBytes_splitByte_eight (tableRead b a).value]
  refine Bytes.composeBytes_congr fun i hi ↦ ?_
  rw [hbytes i hi]
  rfl

theorem toNat_entryAddress (va : BitVec 64) (ht : t.toNat < 2 ^ 44) (level : ℕ) :
    (entryAddress va t level).toNat = t.toNat * 2 ^ 12 + Sv39.vpn va.toNat level * 8 := by
  have hvpn : Sv39.vpn va.toNat level < 2 ^ 9 := Nat.mod_lt _ (by decide)
  rw [entryAddress, BitVec.toNat_add, BitVec.toNat_mul, BitVec.toNat_shiftLeft, Nat.shiftLeft_eq,
    toNat_vpn]
  simp only [BitVec.toNat_ofNat]
  omega

theorem walkStep_eq_spec (ht : t.toNat < 2 ^ 44)
    (hram : b.InRam (t.toNat * 2 ^ 12 + Sv39.vpn va.toNat level * 8) 8)
    (hreserved :
      (b.dword (t.toNat * 2 ^ 12 + Sv39.vpn va.toNat level * 8)).toNat / 2 ^ 54 = 0) :
    let pte := b.dword (t.toNat * 2 ^ 12 + Sv39.vpn va.toNat level * 8)
    (Mmu.walkStep b va t level).1 =
      if Sv39.invalid pte then .fault
      else if Sv39.isLeaf pte then
        .leaf { pteAddress := entryAddress va t level, level, pte }
      else .pointer (ptePpn pte) := by
  intro pte
  have haddress := toNat_entryAddress va ht level
  rw [← haddress] at hram hreserved
  obtain ⟨hok, hvalue⟩ := tableRead_of_inRam hram
  have hpte : (tableRead b (entryAddress va t level)).value = pte := by rw [hvalue, haddress]
  have hover : ¬ entryAddress va t level < t <<< 12 := by
    rw [BitVec.lt_def, haddress, BitVec.toNat_shiftLeft, Nat.shiftLeft_eq,
      Nat.mod_eq_of_lt (by omega)]
    omega
  rw [walkStep_eq]
  dsimp only
  rw [if_neg hover, hok, if_neg (by decide), hpte,
    pteValid_eq_invalid (by rw [haddress] at hreserved; exact hreserved), pteLeaf_eq_isLeaf]
  cases Sv39.invalid pte <;> cases Sv39.isLeaf pte <;> rfl

/-- The tables below a pointer are legal if the table with the pointer is. -/
theorem TableLegal.tail {table : ℕ}
    (h : TableLegal b (Sv39.visited b.dword va.toNat table (level + 1)))
    (hinvalid : Sv39.invalid (b.dword (table + Sv39.vpn va.toNat (level + 1) * 8)) = false)
    (hleaf : Sv39.isLeaf (b.dword (table + Sv39.vpn va.toNat (level + 1) * 8)) = false) :
    TableLegal b (Sv39.visited b.dword va.toNat
      (Sv39.ppn (b.dword (table + Sv39.vpn va.toNat (level + 1) * 8)) * 2 ^ 12) level) := by
  rw [Sv39.visited, hinvalid, hleaf] at h
  exact ⟨fun x hx ↦ h.ram x (List.mem_cons_of_mem _ hx),
    fun x hx ↦ h.reserved x (List.mem_cons_of_mem _ hx),
    fun x hx ↦ h.pointer x (List.mem_cons_of_mem _ hx)⟩

/-- The leaf of the code's walk, in the terms of the algorithm. -/
def leafEntry (leaf : Mmu.Leaf) : Sv39.Entry where
  address := leaf.pteAddress.toNat
  level := leaf.level
  pte := leaf.pte

/-- **The loop over the levels finds what the algorithm finds.** -/
theorem findLeaf_eq_walk (ht : t.toNat < 2 ^ 44)
    (hlegal : TableLegal b (Sv39.visited b.dword va.toNat (t.toNat * 2 ^ 12) level)) :
    (Mmu.findLeaf b va t level).1.map leafEntry =
      Sv39.walk b.dword va.toNat (t.toNat * 2 ^ 12) level := by
  induction level generalizing t with
  | zero =>
    have hmem : t.toNat * 2 ^ 12 + Sv39.vpn va.toNat 0 * 8 ∈
        Sv39.visited b.dword va.toNat (t.toNat * 2 ^ 12) 0 := List.mem_singleton.2 rfl
    have hstep := walkStep_eq_spec ht (hlegal.ram _ hmem) (hlegal.reserved _ hmem)
    rw [Mmu.findLeaf, Sv39.walk, hstep]
    cases hinvalid : Sv39.invalid (b.dword (t.toNat * 2 ^ 12 + Sv39.vpn va.toNat 0 * 8)) with
    | true => rfl
    | false =>
      cases hleaf : Sv39.isLeaf (b.dword (t.toNat * 2 ^ 12 + Sv39.vpn va.toNat 0 * 8)) with
      | true =>
        rw [← toNat_entryAddress va ht]
        rfl
      | false => rfl
  | succ level ih =>
    have hmem : t.toNat * 2 ^ 12 + Sv39.vpn va.toNat (level + 1) * 8 ∈
        Sv39.visited b.dword va.toNat (t.toNat * 2 ^ 12) (level + 1) := List.mem_cons_self
    have hstep := walkStep_eq_spec ht (hlegal.ram _ hmem) (hlegal.reserved _ hmem)
    have hpointer := hlegal.pointer _ hmem
    rw [findLeaf_succ, Sv39.walk, hstep]
    cases hinvalid :
        Sv39.invalid (b.dword (t.toNat * 2 ^ 12 + Sv39.vpn va.toNat (level + 1) * 8)) with
    | true => rfl
    | false =>
      cases hleaf :
          Sv39.isLeaf (b.dword (t.toNat * 2 ^ 12 + Sv39.vpn va.toNat (level + 1) * 8)) with
      | true =>
        rw [← toNat_entryAddress va ht]
        rfl
      | false =>
        have htail := hlegal.tail hinvalid hleaf
        rw [← toNat_ptePpn] at htail
        rw [hpointer hleaf, ← toNat_ptePpn]
        refine ih ?_ htail
        rw [toNat_ptePpn]
        exact Nat.mod_lt _ (by decide)

/-- The entry a walk ends in was read by it, and is valid. -/
theorem walk_eq_some {table : ℕ} {e : Sv39.Entry}
    (h : Sv39.walk b.dword va.toNat table level = some e) :
    e.address ∈ Sv39.visited b.dword va.toNat table level ∧ e.pte = b.dword e.address ∧
      Sv39.invalid e.pte = false ∧ e.level ≤ level := by
  induction level generalizing table with
  | zero =>
    rw [Sv39.walk] at h
    split at h
    · cases h
    · next hvalid =>
      split at h
      · obtain rfl := Option.some.inj h
        exact ⟨List.mem_singleton.2 rfl, rfl, Bool.eq_false_iff.2 hvalid, Nat.le_refl _⟩
      · cases h
  | succ level ih =>
    rw [Sv39.walk] at h
    rw [Sv39.visited]
    split at h
    · cases h
    · next hvalid =>
      split at h
      · obtain rfl := Option.some.inj h
        exact ⟨List.mem_cons_self, rfl, Bool.eq_false_iff.2 hvalid, Nat.le_refl _⟩
      · next hleaf =>
        split at h
        · cases h
        · obtain ⟨hmem, hpte, hv, hle⟩ := ih h
          rw [Bool.eq_false_iff.2 hvalid, Bool.eq_false_iff.2 hleaf]
          exact ⟨List.mem_cons_of_mem _ hmem, hpte, hv, Nat.le_succ_of_le hle⟩

end Walk

/-! ## Translation -/

/-- A walk that ends in an admissible leaf in RAM translates. -/
theorem walkPageTable_of_inRam (m : Mmu) {b : Bus} {va : BitVec 64} {kind : MmuAccessKind}
    {context : MmuContext} {leaf : Mmu.Leaf}
    (hf : (Mmu.findLeaf b va (satpRootPpn context.satp) 2).1 = some leaf)
    (halign : superpageAligned (ptePpn leaf.pte) leaf.level = true)
    (hperm : permissionAllows (pteFlags leaf.pte) kind context = true)
    (hram : b.InRam leaf.pteAddress.toNat 8) :
    ∃ m' b', LeafUpdated b b' leaf kind ∧
      m.walkPageTable b va kind context =
        (.translated (composePhysicalAddress va (ptePpn leaf.pte) leaf.level), m', b') := by
  have hat := findLeaf_leafAt hf
  simp only [Mmu.walkPageTable, findLeaf_bus, hf, halign, hperm, Bool.not_true, Bool.or_false]
  rw [if_neg (by decide)]
  by_cases hd : Mmu.desiredPte leaf.pte kind = leaf.pte
  · rw [if_pos hd]
    exact ⟨_, b, Or.inl ⟨hd, rfl⟩, rfl⟩
  · rw [if_neg hd]
    have hok := Bus.InRam.compareExchange (w := .doubleWord) hram leaf.pte
      (Mmu.desiredPte leaf.pte kind) .atomic
    have hcx := Bus.compareExchange_of_read hat.ok (Mmu.desiredPte leaf.pte kind) .atomic
    rw [show (b.read leaf.pteAddress .doubleWord .load).1.value = leaf.pte from hat.value] at hcx
    rcases hcx with ⟨hno, -⟩ | ⟨-, hex, hs⟩
    · rw [hok] at hno
      cases hno
    · rw [if_neg (by rw [hok]; decide), if_neg (by rw [hex]; decide)]
      exact ⟨_, _, Or.inr ⟨hd, rfl, hs⟩, rfl⟩

/-- An updated leaf is marked, and everything else is as before. -/
theorem LeafUpdated.ramByte_eq {b b' : Bus} {leaf : Mmu.Leaf} {kind : MmuAccessKind}
    (h : LeafUpdated b b' leaf kind) (hram : b.InRam leaf.pteAddress.toNat 8) (hat : LeafAt b leaf)
    (x : ℕ) :
    b'.ramByte x =
      if leaf.pteAddress.toNat ≤ x ∧ x < leaf.pteAddress.toNat + 8 then
        some (Bytes.splitByte (Mmu.desiredPte leaf.pte kind) (x - leaf.pteAddress.toNat))
      else b.ramByte x := by
  rcases h with ⟨hsame, rfl⟩ | ⟨-, -, hs⟩
  · split
    · next hx =>
      have hbyte := (Bus.InRam.read (w := .doubleWord) hram .load).2
        (x - leaf.pteAddress.toNat) (show _ < 8 by omega)
      rw [Nat.add_sub_cancel' hx.1] at hbyte
      rw [hbyte, hsame, ← hat.value]
      rfl
    · rfl
  · exact hs.ramByte_eq x

theorem desiredPte_eq_marked (pte : BitVec 64) (kind : MmuAccessKind) :
    Mmu.desiredPte pte kind = Sv39.marked kind pte := by
  cases kind with
  | instructionFetch => rfl
  | load => rfl
  | store => exact BitVec.or_assoc _ _ _
  | atomic => exact BitVec.or_assoc _ _ _

/-- What the algorithm sees of a context. -/
def MmuContext.sv39 (context : MmuContext) : Sv39.Context where
  privilege := context.privilege
  satp := context.satp
  sum := context.mstatus.getLsbD 18
  mxr := context.mstatus.getLsbD 19

/-- The permission check on a valid entry. -/
theorem permissionAllows_eq_permits {pte : BitVec 64} (hvalid : Sv39.invalid pte = false)
    (kind : MmuAccessKind) (context : MmuContext) :
    permissionAllows (pteFlags pte) kind context = Sv39.permits context.sv39 kind pte := by
  have hwr : pte.getLsbD 2 = true → pte.getLsbD 1 = true := by
    intro h2
    rw [Sv39.invalid, h2] at hvalid
    revert hvalid
    cases pte.getLsbD 1 <;> simp
  have hs : ((context.mstatus &&& (1#64 <<< 18)) == 0#64) = !context.sv39.sum := by
    rw [MmuContext.sv39, ← and_bit_ne_zero _ (show 18 < 64 by decide), bne, Bool.not_not]
    rfl
  have hm : ((context.mstatus &&& (1#64 <<< 19)) != 0#64) = context.sv39.mxr :=
    and_bit_ne_zero _ (by decide)
  have hp : context.privilege = context.sv39.privilege := rfl
  have hflag : ∀ {k : ℕ}, k < 10 → hasFlag (pteFlags pte) (1#16 <<< k) = pte.getLsbD k :=
    fun hk ↦ hasFlag_pteFlags pte hk
  unfold permissionAllows Sv39.permits Pte.user Pte.execute Pte.read Pte.write
  rw [hflag (show 4 < 10 by decide), hflag (show 3 < 10 by decide), hflag (show 1 < 10 by decide),
    hflag (show 2 < 10 by decide), hs, hm, hp]
  cases context.sv39.privilege <;> cases kind <;> cases pte.getLsbD 4 <;>
    cases context.sv39.sum <;> revert hwr <;> cases pte.getLsbD 1 <;> cases pte.getLsbD 2 <;> simp

theorem lookupTlb_of_empty {m : Mmu} (h : ∀ e ∈ m.tlb, e.valid = false) (va : BitVec 64)
    (kind : MmuAccessKind) (context : MmuContext) : m.lookupTlb va kind context = none := by
  have hnone : m.tlb.findIdx? (·.covers va (satpAsid context.satp)) = none := by
    rw [List.findIdx?_eq_none_iff]
    intro e he
    rw [TlbEntry.covers, h e he, Bool.false_and, Bool.false_and]
  rw [Mmu.lookupTlb, hnone]

/-- What an outcome of the algorithm says about a translation by the MMU. -/
def Sv39.Outcome.Realized (m : Mmu) (b : Bus) (va : BitVec 64) (kind : MmuAccessKind)
    (result : TranslationResult × Mmu × Bus) : Sv39.Outcome → Prop
  | .untranslated => result = (.ok va, m, b)
  | .fault => result = (.error { cause := pageFaultCause kind, value := va }, m, b)
  | .through e =>
    ∃ pa m' b', result = (.ok pa, m', b') ∧
      pa.toNat = Sv39.physicalAddress va.toNat e ∧
      (∀ x, b'.ramByte x =
        if e.address ≤ x ∧ x < e.address + 8 then
          some (Bytes.splitByte (Sv39.marked kind e.pte) (x - e.address))
        else b.ramByte x) ∧
      b'.devices = b.devices

section Translate

variable {m : Mmu} {b : Bus} {va : BitVec 64} {kind : MmuAccessKind} {context : MmuContext}

theorem satpMode_eq_iff (satp k : BitVec 64) :
    satpMode satp = k ↔ satp.toNat / 2 ^ 60 = k.toNat := by
  rw [← BitVec.toNat_inj, toNat_satpMode]

theorem entriesRead_of_paged (h : Paged va context) (memory : ℕ → BitVec 64) :
    Sv39.entriesRead memory context.sv39 va =
      Sv39.visited memory va.toNat ((satpRootPpn context.satp).toNat * 2 ^ 12) 2 := by
  obtain ⟨hbare, hcanonical⟩ := h
  rw [ne_eq, satpMode_eq_iff, canonicalSv39_eq] at hcanonical
  rw [Sv39.entriesRead, toNat_satpRootPpn, if_neg]
  · rfl
  · rintro (hm | hmode)
    · exact hbare (Or.inl hm)
    · exact hcanonical hmode

theorem sv39Translate_of_paged (h : Paged va context) (memory : ℕ → BitVec 64) :
    Sv39.translate memory context.sv39 kind va =
      match Sv39.walk memory va.toNat ((satpRootPpn context.satp).toNat * 2 ^ 12) 2 with
      | none => .fault
      | some e =>
        if Sv39.permits context.sv39 kind e.pte && Sv39.aligned e then .through e else .fault := by
  obtain ⟨hbare, hcanonical⟩ := h
  rw [satpMode_eq_iff] at hbare
  rw [ne_eq, satpMode_eq_iff, canonicalSv39_eq] at hcanonical
  rw [Sv39.translate, toNat_satpRootPpn]
  exact (if_neg hbare).trans (if_neg hcanonical)

/-- A miss goes through the page tables as the algorithm does. -/
theorem realized_of_miss (hpaged : Paged va context) (hmiss : m.lookupTlb va kind context = none)
    (hlegal : TableLegal b
      (Sv39.visited b.dword va.toNat ((satpRootPpn context.satp).toNat * 2 ^ 12) 2))
    (width : AccessWidth) :
    (Sv39.translate b.dword context.sv39 kind va).Realized m b va kind
      (m.translate b va width kind context) := by
  have hroot : (satpRootPpn context.satp).toNat < 2 ^ 44 := by
    rw [toNat_satpRootPpn]
    exact Nat.mod_lt _ (by decide)
  have hwalk := findLeaf_eq_walk hroot hlegal
  rw [sv39Translate_of_paged hpaged, translate_miss hpaged hmiss, ← hwalk]
  cases hf : (Mmu.findLeaf b va (satpRootPpn context.satp) 2).1 with
  | none =>
    rcases walkPageTable_cases m b va kind context with hw | ⟨leaf, b', hf', -⟩
    · rw [hw]
      rfl
    · rw [hf] at hf'
      cases hf'
  | some leaf =>
    rw [hf, Option.map_some] at hwalk
    obtain ⟨hmem, -, hvalid, hlevel⟩ := walk_eq_some hwalk.symm
    have hpermits : permissionAllows (pteFlags leaf.pte) kind context =
        Sv39.permits context.sv39 kind leaf.pte := permissionAllows_eq_permits hvalid kind context
    have haligned : superpageAligned (ptePpn leaf.pte) leaf.level = Sv39.aligned (leafEntry leaf) :=
      superpageAligned_eq leaf.pte hlevel
    rw [Option.map_some]
    dsimp only
    split
    · next hok =>
      rw [Bool.and_eq_true] at hok
      obtain ⟨m', b', hu, hw⟩ := walkPageTable_of_inRam m hf (haligned.trans hok.2)
        (hpermits.trans hok.1) (hlegal.ram _ hmem)
      rw [hw]
      refine ⟨_, m', b', rfl, toNat_composePhysicalAddress va leaf.pte hlevel, fun x ↦ ?_,
        hu.devices_eq⟩
      rw [hu.ramByte_eq (hlegal.ram _ hmem) (findLeaf_leafAt hf) x, desiredPte_eq_marked]
      rfl
    · next hno =>
      rcases walkPageTable_cases m b va kind context with hw | ⟨leaf', b', hf', ha, hp, -⟩
      · rw [hw]
        rfl
      · obtain rfl := Option.some.inj (hf.symm.trans hf')
        exact absurd (Bool.and_eq_true_iff.2 ⟨hpermits.symm.trans hp, haligned.symm.trans ha⟩) hno

theorem realized_of_empty (hempty : ∀ e ∈ m.tlb, e.valid = false)
    (hlegal : TableLegal b (Sv39.entriesRead b.dword context.sv39 va)) (width : AccessWidth) :
    (Sv39.translate b.dword context.sv39 kind va).Realized m b va kind
      (m.translate b va width kind context) := by
  by_cases hbare : context.privilege = .machine ∨ satpMode context.satp = 0#64
  · have hspec : Sv39.translate b.dword context.sv39 kind va = .untranslated := by
      rw [satpMode_eq_iff] at hbare
      exact if_pos hbare
    rw [hspec, Mmu.translate, if_pos hbare]
    rfl
  · by_cases hcanonical : satpMode context.satp ≠ sv39Mode ∨ (!canonicalSv39 va) = true
    · have hspec : Sv39.translate b.dword context.sv39 kind va = .fault := by
        rw [satpMode_eq_iff] at hbare
        rw [ne_eq, satpMode_eq_iff, canonicalSv39_eq] at hcanonical
        rw [Sv39.translate]
        exact (if_neg hbare).trans (if_pos hcanonical)
      rw [hspec, Mmu.translate, if_neg hbare, if_pos hcanonical]
      rfl
    · have hpaged : Paged va context := ⟨hbare, hcanonical⟩
      rw [entriesRead_of_paged hpaged] at hlegal
      exact realized_of_miss hpaged (lookupTlb_of_empty hempty va kind context) hlegal width

end Translate

/-! ## The contexts of the hart -/

/-- MPRV puts MPP in the place of machine mode, for data accesses only. -/
def CpuState.effectivePrivilege (s : CpuState) (kind : MmuAccessKind) : PrivilegeMode :=
  if kind ≠ .instructionFetch ∧ s.privilege = .machine ∧ s.csrs.mstatus.getLsbD 17 = true then
    privilegeFromMpp s.csrs.mstatus
  else s.privilege

/-- What the algorithm sees of a hart. -/
def CpuState.sv39Context (s : CpuState) (kind : MmuAccessKind) : Sv39.Context where
  privilege := s.effectivePrivilege kind
  satp := s.csrs.satp
  sum := s.csrs.mstatus.getLsbD 18
  mxr := s.csrs.mstatus.getLsbD 19

/-- The context a guest access is translated in. -/
def Cpu.accessContext (c : Cpu) (kind : MmuAccessKind) : MmuContext :=
  if kind = .instructionFetch then c.fetchContext else c.dataContext

theorem getLsbD_mstatusView (c : CsrFile) {i : ℕ} (hi : i < 32) :
    c.mstatusView.getLsbD i = c.mstatus.getLsbD i := by
  have hx : ∀ i < 32, xlenFields.getLsbD i = false := by decide
  have hlow : ((c.mstatus &&& ~~~(bit 63)) ||| xlenFields).getLsbD i = c.mstatus.getLsbD i := by
    rw [BitVec.getLsbD_or, hx i hi, Bool.or_false, getLsbD_and_not_bit _ (by decide),
      if_neg (by omega)]
  rw [CsrFile.mstatusView]
  split
  · rw [getLsbD_or_bit _ (by decide), if_neg (by omega), hlow]
  · exact hlow

theorem accessContext_eq (c : Cpu) (kind : MmuAccessKind) :
    c.accessContext kind =
      { privilege := c.state.effectivePrivilege kind, satp := c.state.csrs.satp
        mstatus := c.state.csrs.mstatusView } := by
  have hmpp : privilegeFromMpp c.state.csrs.mstatusView =
      privilegeFromMpp c.state.csrs.mstatus := by
    have hfield := Bits.field_two_congr (getLsbD_mstatusView c.state.csrs (show 11 < 32 by decide))
      (getLsbD_mstatusView c.state.csrs (show 12 < 32 by decide))
    rw [privilegeFromMpp, privilegeFromMpp, hfield]
  have hmprv : ((c.state.csrs.mstatusView &&& (1#64 <<< 17)) != 0#64) =
      c.state.csrs.mstatus.getLsbD 17 := by
    rw [← getLsbD_mstatusView c.state.csrs (show 17 < 32 by decide)]
    exact and_bit_ne_zero _ (by decide)
  rw [Cpu.accessContext, CpuState.effectivePrivilege]
  by_cases hk : kind = .instructionFetch
  · rw [if_pos hk, if_neg (fun h ↦ h.1 hk)]
    rfl
  · rw [if_neg hk, Cpu.dataContext, CsrFile.readValue, CsrFile.readValue, hmprv, hmpp]
    have hiff : (c.state.privilege == .machine && c.state.csrs.mstatus.getLsbD 17) = true ↔
        kind ≠ .instructionFetch ∧ c.state.privilege = .machine ∧
          c.state.csrs.mstatus.getLsbD 17 = true := by
      rw [Bool.and_eq_true, beq_iff_eq]
      exact ⟨fun h ↦ ⟨hk, h⟩, fun h ↦ h.2⟩
    simp only [hiff]

/-- **The MMU computes the Sv39 algorithm.**  From an empty TLB, with the tables in RAM and their
reserved bits clear: addresses that are not translated pass through; a fault is the page fault of
the access at the original address and leaves no trace; otherwise the physical address is that of
the algorithm, and the leaf is marked accessed, and dirty for a store or an atomic, and nothing else
in memory changes. -/
theorem sv39_correct (c : Cpu) (va : BitVec 64) (width : AccessWidth) (kind : MmuAccessKind)
    (hempty : ∀ e ∈ c.mmu.tlb, e.valid = false)
    (hlegal : TableLegal c.bus
      (Sv39.entriesRead c.bus.dword (c.state.sv39Context kind) va)) :
    (Sv39.translate c.bus.dword (c.state.sv39Context kind) kind va).Realized c.mmu c.bus va kind
      (c.mmu.translate c.bus va width kind (c.accessContext kind)) := by
  have hcontext : c.state.sv39Context kind = (c.accessContext kind).sv39 := by
    rw [accessContext_eq, MmuContext.sv39, getLsbD_mstatusView _ (by decide),
      getLsbD_mstatusView _ (by decide)]
    rfl
  rw [hcontext] at hlegal ⊢
  exact realized_of_empty hempty hlegal width

/-- A hart in machine mode that accesses memory as supervisor, through the gigapage. -/
def gigapageCpu : Cpu where
  bus := gigapageBus
  state := { csrs := { mstatus := 0x20800#64, satp := 0x8000000000000000#64 } }

theorem sv39_correct_gigapage :
    ∃ pa m' b',
      gigapageCpu.mmu.translate gigapageBus 0x40000020#64 .word .store
        (gigapageCpu.accessContext .store) = (.ok pa, m', b') ∧
      pa.toNat = 0x80000020 ∧ b'.ramByte 8 = some 0xC7#8 := by
  have hread : Sv39.entriesRead gigapageCpu.bus.dword (gigapageCpu.state.sv39Context .store)
      0x40000020#64 = [8] := by decide
  have hlegal : TableLegal gigapageCpu.bus [8] := by
    refine ⟨fun x hx ↦ ?_, by decide, by decide⟩
    rw [List.mem_singleton.1 hx]
    exact ⟨_, List.mem_singleton.2 rfl, by decide, by decide⟩
  have hspec : Sv39.translate gigapageCpu.bus.dword (gigapageCpu.state.sv39Context .store) .store
      0x40000020#64 = .through { address := 8, level := 2, pte := 0x20000007#64 } := by
    decide
  have h := sv39_correct gigapageCpu 0x40000020#64 .word .store (by decide)
    (by rw [hread]; exact hlegal)
  rw [hspec] at h
  obtain ⟨pa, m', b', htranslate, hpa, hram, -⟩ := h
  exact ⟨pa, m', b', htranslate, hpa.trans (by decide), (hram 8).trans (by decide)⟩

end Rvemu
