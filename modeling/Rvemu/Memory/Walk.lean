import Rvemu.Lib.Bits
import Rvemu.Bus.Lemmas
import Rvemu.Memory.Mmu

/-!
# What a page walk reads and writes

A walk only reads double words, at multiples of eight, and what it does with them does not depend on
their A and D bits.  Its one write sets these two bits of the leaf entry it has just read.  So the
tables after a walk are the tables before it up to A and D (`TablesLe`), and every later walk ends
in the same leaf (`findLeaf_of_tablesLe`).
-/

set_option autoImplicit false

namespace Rvemu

open Mmu

/-! ## Flags of an entry -/

theorem hasFlag_bit (flags : BitVec 16) {k : ℕ} (hk : k < 16) :
    hasFlag flags (1#16 <<< k) = flags.getLsbD k := by
  have hone : (1#16 <<< k) = BitVec.twoPow 16 k := rfl
  rw [hasFlag, hone, BitVec.and_twoPow]
  cases flags.getLsbD k with
  | false => rfl
  | true =>
    have hne : BitVec.twoPow 16 k ≠ 0#16 := by
      intro h
      have hbit := congrArg (·.getLsbD k) h
      simp [hk] at hbit
    simp [hne]

theorem getLsbD_pteFlags (pte : BitVec 64) (i : ℕ) :
    (pteFlags pte).getLsbD i = (decide (i < 10) && pte.getLsbD i) := by
  have hmask : (0x3FF#64).getLsbD i = decide (i < 10) :=
    Bits.getLsbD_const (p := fun i ↦ decide (i < 10)) (by decide) (by simp; omega) i
  rw [pteFlags, BitVec.getLsbD_setWidth, BitVec.getLsbD_and, hmask]
  by_cases hi : i < 10
  · simp [hi, show i < 16 by omega]
  · simp [hi]

theorem hasFlag_or (flags a b : BitVec 16) :
    hasFlag flags (a ||| b) = (hasFlag flags a || hasFlag flags b) := by
  have hne : ∀ x : BitVec 16, (x != 0#16) = !decide (x = 0#16) := fun _ ↦ rfl
  rw [hasFlag, hasFlag, hasFlag, BitVec.and_or_distrib_left, hne, hne, hne,
    ← Bool.not_and, ← Bool.decide_and]
  simp only [BitVec.or_eq_zero_iff]

/-- `pte'` is `pte` with at most its A and D bits set in addition. -/
structure AdLe (pte pte' : BitVec 64) : Prop where
  other : ∀ i, i ≠ 6 → i ≠ 7 → pte'.getLsbD i = pte.getLsbD i
  mono : ∀ i, pte.getLsbD i = true → pte'.getLsbD i = true

namespace AdLe

theorem refl (pte : BitVec 64) : AdLe pte pte := ⟨fun _ _ _ ↦ rfl, fun _ h ↦ h⟩

theorem trans {p q r : BitVec 64} (h : AdLe p q) (h' : AdLe q r) : AdLe p r :=
  ⟨fun i h6 h7 ↦ (h'.other i h6 h7).trans (h.other i h6 h7), fun i hi ↦ h'.mono i (h.mono i hi)⟩

variable {pte pte' : BitVec 64}

theorem flag_eq (h : AdLe pte pte') {k : ℕ} (hk : k < 16) (h6 : k ≠ 6) (h7 : k ≠ 7) :
    hasFlag (pteFlags pte') (1#16 <<< k) = hasFlag (pteFlags pte) (1#16 <<< k) := by
  rw [hasFlag_bit _ hk, hasFlag_bit _ hk, getLsbD_pteFlags, getLsbD_pteFlags, h.other k h6 h7]

theorem flag_mono (h : AdLe pte pte') {k : ℕ} (hk : k < 16)
    (hf : hasFlag (pteFlags pte) (1#16 <<< k) = true) :
    hasFlag (pteFlags pte') (1#16 <<< k) = true := by
  rw [hasFlag_bit _ hk, getLsbD_pteFlags, Bool.and_eq_true] at hf ⊢
  exact ⟨hf.1, h.mono k hf.2⟩

theorem ptePpn_eq (h : AdLe pte pte') : ptePpn pte' = ptePpn pte := by
  apply BitVec.eq_of_getLsbD_eq
  intro i _
  rw [ptePpn, ptePpn, BitVec.getLsbD_and, BitVec.getLsbD_and, BitVec.getLsbD_ushiftRight,
    BitVec.getLsbD_ushiftRight, h.other _ (by omega) (by omega)]

theorem pteValid_eq (h : AdLe pte pte') :
    pteValid (pteFlags pte') = pteValid (pteFlags pte) := by
  rw [pteValid, pteValid, Pte.valid, Pte.write, Pte.read, h.flag_eq, h.flag_eq, h.flag_eq] <;>
    decide

theorem pteLeaf_eq (h : AdLe pte pte') : pteLeaf (pteFlags pte') = pteLeaf (pteFlags pte) := by
  rw [pteLeaf, pteLeaf, hasFlag_or, hasFlag_or, Pte.read, Pte.execute, h.flag_eq, h.flag_eq] <;>
    decide

theorem permissionAllows_eq (h : AdLe pte pte') (kind : MmuAccessKind) (context : MmuContext) :
    permissionAllows (pteFlags pte') kind context =
    permissionAllows (pteFlags pte) kind context := by
  have hu : hasFlag (pteFlags pte') Pte.user = hasFlag (pteFlags pte) Pte.user :=
    h.flag_eq (by decide) (by decide) (by decide)
  have hr : hasFlag (pteFlags pte') Pte.read = hasFlag (pteFlags pte) Pte.read :=
    h.flag_eq (by decide) (by decide) (by decide)
  have hw : hasFlag (pteFlags pte') Pte.write = hasFlag (pteFlags pte) Pte.write :=
    h.flag_eq (by decide) (by decide) (by decide)
  have hx : hasFlag (pteFlags pte') Pte.execute = hasFlag (pteFlags pte) Pte.execute :=
    h.flag_eq (by decide) (by decide) (by decide)
  unfold permissionAllows
  rw [hu, hr, hw, hx]

end AdLe

/-! ## The entry a walk leaves behind -/

theorem getLsbD_desiredPte (pte : BitVec 64) (kind : MmuAccessKind) (i : ℕ) :
    (desiredPte pte kind).getLsbD i =
      (pte.getLsbD i || decide (i = 6) || (needsDirty kind && decide (i = 7))) := by
  have ha : (Pte.accessed.setWidth 64).getLsbD i = decide (i = 6) :=
    Bits.getLsbD_const (p := fun i ↦ decide (i = 6)) (by decide) (by simp; omega) i
  have hd : (Pte.dirty.setWidth 64).getLsbD i = decide (i = 7) :=
    Bits.getLsbD_const (p := fun i ↦ decide (i = 7)) (by decide) (by simp; omega) i
  rw [desiredPte]
  cases needsDirty kind <;> simp [BitVec.getLsbD_or, ha, hd]

theorem adLe_desiredPte (pte : BitVec 64) (kind : MmuAccessKind) :
    AdLe pte (desiredPte pte kind) := by
  refine ⟨fun i h6 h7 ↦ ?_, fun i h ↦ ?_⟩
  · simp [getLsbD_desiredPte, h6, h7]
  · simp [getLsbD_desiredPte, h]

theorem accessed_desiredPte (pte : BitVec 64) (kind : MmuAccessKind) :
    hasFlag (pteFlags (desiredPte pte kind)) Pte.accessed = true := by
  rw [Pte.accessed, hasFlag_bit _ (by decide), getLsbD_pteFlags, getLsbD_desiredPte]
  simp

/-- An entry that already has the bits an access needs is left as it is. -/
theorem desiredPte_eq_self {pte : BitVec 64} {kind : MmuAccessKind}
    (ha : hasFlag (pteFlags pte) Pte.accessed = true)
    (hd : needsDirty kind = true → hasFlag (pteFlags pte) Pte.dirty = true) :
    desiredPte pte kind = pte := by
  have ha' : pte.getLsbD 6 = true := by
    rw [Pte.accessed, hasFlag_bit _ (by decide), getLsbD_pteFlags] at ha
    simpa using ha
  have hd' : needsDirty kind = true → pte.getLsbD 7 = true := by
    intro h
    have h' := hd h
    rw [Pte.dirty, hasFlag_bit _ (by decide), getLsbD_pteFlags] at h'
    simpa using h'
  apply BitVec.eq_of_getLsbD_eq
  intro i _
  rw [getLsbD_desiredPte]
  by_cases h6 : i = 6
  · subst h6; simp [ha']
  · by_cases h7 : i = 7
    · subst h7
      cases hk : needsDirty kind with
      | false => simp
      | true => simp [hd' hk]
    · simp [h6, h7]

/-- Bits that were set need not be set again. -/
theorem desiredPte_desiredPte (pte : BitVec 64) (kind : MmuAccessKind) :
    desiredPte (desiredPte pte kind) kind = desiredPte pte kind := by
  apply BitVec.eq_of_getLsbD_eq
  intro i hi
  simp only [getLsbD_desiredPte]
  cases pte.getLsbD i <;> cases decide (i = 6) <;> cases (needsDirty kind && decide (i = 7)) <;> rfl

/-! ## The tables up to A and D -/

/-- The double word the page walker reads at a physical address. -/
def tableRead (b : Bus) (a : BitVec 64) : AccessResult := (b.read a .doubleWord .load).1

/-- Every aligned double word of `b'` reads as in `b`, up to additional A and D bits. -/
def TablesLe (b b' : Bus) : Prop :=
  ∀ a : BitVec 64, a.toNat % 8 = 0 →
    (tableRead b' a).ok = (tableRead b a).ok ∧ AdLe (tableRead b a).value (tableRead b' a).value

theorem TablesLe.refl (b : Bus) : TablesLe b b := fun _ _ ↦ ⟨rfl, AdLe.refl _⟩

theorem TablesLe.trans {b c d : Bus} (h : TablesLe b c) (h' : TablesLe c d) : TablesLe b d :=
  fun a ha ↦ ⟨(h' a ha).1.trans (h a ha).1, (h a ha).2.trans (h' a ha).2⟩

/-- Setting A and D bits of the entry that was read there changes the tables by no more. -/
theorem tablesLe_of_stored {b b' : Bus} {a pte : BitVec 64} (ha : a.toNat % 8 = 0)
    (hok : (tableRead b a).ok = true) (hle : AdLe (tableRead b a).value pte)
    (hs : Bus.Stored b b' a .doubleWord pte) : TablesLe b b' := by
  intro x hx
  by_cases hxa : x = a
  · subst hxa
    have hread : tableRead b' x = .success pte := hs.read_self .load
    rw [hread, hok]
    exact ⟨rfl, hle⟩
  · have hne : x.toNat ≠ a.toNat := fun h ↦ hxa (BitVec.eq_of_toNat_eq h)
    have hread : tableRead b' x = tableRead b x := by
      refine hs.read_of_disjoint ?_ .load
      rw [show widthInBytes .doubleWord = 8 from rfl]
      omega
    rw [hread]
    exact ⟨rfl, AdLe.refl _⟩

/-! ## Finding the leaf -/

/-- The address of the entry of one level; it is a multiple of eight. -/
def entryAddress (virtualAddress tablePpn : BitVec 64) (level : ℕ) : BitVec 64 :=
  (tablePpn <<< 12) + vpn virtualAddress level * 8#64

theorem entryAddress_aligned (va t : BitVec 64) (level : ℕ) :
    (entryAddress va t level).toNat % 8 = 0 := by
  rw [entryAddress, BitVec.toNat_add, BitVec.toNat_mul, BitVec.toNat_shiftLeft, Nat.shiftLeft_eq]
  simp only [BitVec.toNat_ofNat]
  omega

/-- What one level does, in terms of the double word read there. -/
theorem walkStep_eq (b : Bus) (va t : BitVec 64) (level : ℕ) :
    walkStep b va t level =
      (if entryAddress va t level < t <<< 12 then .fault
        else if !(tableRead b (entryAddress va t level)).ok then .fault
        else if !pteValid (pteFlags (tableRead b (entryAddress va t level)).value) then .fault
        else if !pteLeaf (pteFlags (tableRead b (entryAddress va t level)).value) then
          .pointer (ptePpn (tableRead b (entryAddress va t level)).value)
        else .leaf
          { pteAddress := entryAddress va t level, level,
            pte := (tableRead b (entryAddress va t level)).value }, b) := by
  have hb := Bus.read_doubleWord_bus b (entryAddress va t level) .load
  simp only [walkStep]
  rw [show t <<< 12 + vpn va level * 8#64 = entryAddress va t level from rfl, hb,
    show (b.read (entryAddress va t level) .doubleWord .load).1 =
      tableRead b (entryAddress va t level) from rfl]
  split_ifs <;> rfl

@[simp] theorem walkStep_bus (b : Bus) (va t : BitVec 64) (level : ℕ) :
    (walkStep b va t level).2 = b := by rw [walkStep_eq]

theorem findLeaf_succ (b : Bus) (va t : BitVec 64) (level : ℕ) :
    findLeaf b va t (level + 1) = match (walkStep b va t (level + 1)).1 with
      | .leaf leaf => (some leaf, b)
      | .pointer next => findLeaf b va next level
      | .fault => (none, b) := by
  rw [findLeaf]
  cases (walkStep b va t (level + 1)).1 <;> simp only [walkStep_bus]

/-- Looking for a leaf does not change the bus. -/
@[simp] theorem findLeaf_bus (b : Bus) (va t : BitVec 64) (level : ℕ) :
    (findLeaf b va t level).2 = b := by
  induction level generalizing t with
  | zero =>
    simp only [findLeaf, walkStep_bus]
    split <;> rfl
  | succ level ih =>
    rw [findLeaf_succ]
    split
    · rfl
    · exact ih _
    · rfl

/-- A leaf reported at one level is the valid leaf entry read at that level's address. -/
theorem walkStep_leaf {b : Bus} {va t : BitVec 64} {level : ℕ} {leaf : Leaf}
    (h : (walkStep b va t level).1 = .leaf leaf) :
    leaf = { pteAddress := entryAddress va t level, level,
             pte := (tableRead b (entryAddress va t level)).value } ∧
      (tableRead b (entryAddress va t level)).ok = true ∧ pteValid (pteFlags leaf.pte) = true := by
  rw [walkStep_eq] at h
  dsimp only at h
  split at h
  · cases h
  · split at h
    · cases h
    · rename_i hok
      split at h
      · cases h
      · rename_i hvalid
        split at h
        · cases h
        · injection h with h
          subst h
          exact ⟨rfl, by simpa using hok, by simpa using hvalid⟩

/-- The leaf of a walk is the double word read at its address. -/
structure LeafAt (b : Bus) (leaf : Leaf) : Prop where
  aligned : leaf.pteAddress.toNat % 8 = 0
  ok : (tableRead b leaf.pteAddress).ok = true
  value : (tableRead b leaf.pteAddress).value = leaf.pte
  valid : pteValid (pteFlags leaf.pte) = true

theorem leafAt_of_walkStep {b : Bus} {va t : BitVec 64} {level : ℕ} {leaf : Leaf}
    (h : (walkStep b va t level).1 = .leaf leaf) : LeafAt b leaf := by
  obtain ⟨rfl, hok, hvalid⟩ := walkStep_leaf h
  exact ⟨entryAddress_aligned va t level, hok, rfl, hvalid⟩

theorem findLeaf_leafAt {b : Bus} {va t : BitVec 64} {level : ℕ} {leaf : Leaf}
    (h : (findLeaf b va t level).1 = some leaf) : LeafAt b leaf := by
  induction level generalizing t with
  | zero =>
    simp only [findLeaf] at h
    split at h
    · rename_i l hl
      obtain rfl : l = leaf := by simpa using h
      exact leafAt_of_walkStep hl
    · cases h
  | succ level ih =>
    rw [findLeaf_succ] at h
    split at h
    · rename_i l hl
      obtain rfl : l = leaf := by simpa using h
      exact leafAt_of_walkStep hl
    · exact ih h
    · cases h

/-- A walk that starts at a level ends at or below it. -/
theorem level_findLeaf {b : Bus} {va t : BitVec 64} {level : ℕ} {leaf : Leaf}
    (h : (findLeaf b va t level).1 = some leaf) : leaf.level ≤ level := by
  induction level generalizing t with
  | zero =>
    simp only [findLeaf] at h
    split at h
    · rename_i l hl
      obtain rfl : l = leaf := by simpa using h
      exact Nat.le_of_eq (congrArg Leaf.level (walkStep_leaf hl).1)
    · cases h
  | succ level ih =>
    rw [findLeaf_succ] at h
    split at h
    · rename_i l hl
      obtain rfl : l = leaf := by simpa using h
      exact Nat.le_of_eq (congrArg Leaf.level (walkStep_leaf hl).1)
    · exact Nat.le_succ_of_le (ih h)
    · cases h

/-! ### Walks of related tables -/

/-- The addresses of the entries a walk reads. -/
def walkEntries (b : Bus) (va t : BitVec 64) : ℕ → List (BitVec 64)
  | 0 => [entryAddress va t 0]
  | level + 1 =>
    entryAddress va t (level + 1) ::
      match (walkStep b va t (level + 1)).1 with
      | .pointer next => walkEntries b va next level
      | _ => []

theorem walkEntries_aligned {b : Bus} {va t a : BitVec 64} {level : ℕ}
    (h : a ∈ walkEntries b va t level) : a.toNat % 8 = 0 := by
  induction level generalizing t with
  | zero =>
    rw [walkEntries, List.mem_singleton] at h
    rw [h]
    exact entryAddress_aligned va t 0
  | succ level ih =>
    rw [walkEntries, List.mem_cons] at h
    rcases h with rfl | h
    · exact entryAddress_aligned va t _
    · split at h
      · exact ih h
      · cases h

/-- The entry at `a` reads as in `b`, up to additional A and D bits. -/
def EntryLe (b b' : Bus) (a : BitVec 64) : Prop :=
  (tableRead b' a).ok = (tableRead b a).ok ∧ AdLe (tableRead b a).value (tableRead b' a).value

/-- Up to the A and D bits of the leaf, one level does the same on both tables. -/
theorem walkStep_of_entryLe {b b' : Bus} {va t : BitVec 64} {level : ℕ}
    (hle : EntryLe b b' (entryAddress va t level)) :
    (∀ leaf, (walkStep b va t level).1 = .leaf leaf →
      ∃ pte, AdLe leaf.pte pte ∧ (walkStep b' va t level).1 = .leaf { leaf with pte }) ∧
    (∀ next, (walkStep b va t level).1 = .pointer next →
      (walkStep b' va t level).1 = .pointer next) ∧
    ((walkStep b va t level).1 = .fault → (walkStep b' va t level).1 = .fault) := by
  obtain ⟨hok, had⟩ := hle
  rw [walkStep_eq, walkStep_eq]
  dsimp only
  rw [hok, had.pteValid_eq, had.pteLeaf_eq, had.ptePpn_eq]
  split
  · exact ⟨nofun, nofun, fun h ↦ h⟩
  · split
    · exact ⟨nofun, nofun, fun h ↦ h⟩
    · split
      · exact ⟨nofun, nofun, fun h ↦ h⟩
      · split
        · exact ⟨nofun, fun _ h ↦ h, nofun⟩
        · refine ⟨fun leaf h ↦ ?_, nofun, nofun⟩
          injection h with h
          subst h
          exact ⟨_, had, rfl⟩

/-- A walk depends on the entries it reads, up to the A and D bits of the leaf. -/
theorem findLeaf_of_entryLe {b b' : Bus} {va t : BitVec 64} {level : ℕ} {leaf : Leaf}
    (hle : ∀ a ∈ walkEntries b va t level, EntryLe b b' a)
    (h : (findLeaf b va t level).1 = some leaf) :
    ∃ pte, AdLe leaf.pte pte ∧ (findLeaf b' va t level).1 = some { leaf with pte } := by
  induction level generalizing t with
  | zero =>
    have hstep := walkStep_of_entryLe (hle _ (by rw [walkEntries]; exact List.mem_singleton_self _))
    simp only [findLeaf] at h ⊢
    split at h
    · rename_i l hl
      obtain rfl : l = leaf := by simpa using h
      obtain ⟨pte, had, hs⟩ := hstep.1 _ hl
      exact ⟨pte, had, by rw [hs]⟩
    · cases h
  | succ level ih =>
    rw [walkEntries, List.forall_mem_cons] at hle
    have hstep := walkStep_of_entryLe hle.1
    rw [findLeaf_succ] at h ⊢
    split at h
    · rename_i l hl
      obtain rfl : l = leaf := by simpa using h
      obtain ⟨pte, had, hs⟩ := hstep.1 _ hl
      exact ⟨pte, had, by rw [hs]⟩
    · rename_i next hn
      rw [hstep.2.1 _ hn]
      rw [hn] at hle
      exact ih hle.2 h
    · cases h

/-- What a walk does not find it does not find after an update of A and D bits. -/
theorem findLeaf_none_of_entryLe {b b' : Bus} {va t : BitVec 64} {level : ℕ}
    (hle : ∀ a ∈ walkEntries b va t level, EntryLe b b' a)
    (h : (findLeaf b va t level).1 = none) : (findLeaf b' va t level).1 = none := by
  induction level generalizing t with
  | zero =>
    obtain ⟨-, hpointer, hfault⟩ :=
      walkStep_of_entryLe (hle _ (by rw [walkEntries]; exact List.mem_singleton_self _))
    rw [findLeaf] at h ⊢
    cases hstep : (walkStep b va t 0).1 with
    | leaf leaf =>
      rw [hstep] at h
      cases h
    | pointer next => rw [hpointer next hstep]
    | fault => rw [hfault hstep]
  | succ level ih =>
    rw [walkEntries, List.forall_mem_cons] at hle
    obtain ⟨-, hpointer, hfault⟩ := walkStep_of_entryLe hle.1
    rw [findLeaf_succ] at h ⊢
    cases hstep : (walkStep b va t (level + 1)).1 with
    | leaf leaf =>
      rw [hstep] at h
      cases h
    | pointer next =>
      rw [hpointer next hstep]
      rw [hstep] at h hle
      exact ih hle.2 h
    | fault => rw [hfault hstep]

theorem walkEntries_of_entryLe {b b' : Bus} {va t : BitVec 64} {level : ℕ}
    (hle : ∀ a ∈ walkEntries b va t level, EntryLe b b' a) :
    walkEntries b' va t level = walkEntries b va t level := by
  induction level generalizing t with
  | zero => rfl
  | succ level ih =>
    rw [walkEntries, List.forall_mem_cons] at hle
    obtain ⟨hleaf, hpointer, hfault⟩ := walkStep_of_entryLe hle.1
    rw [walkEntries, walkEntries]
    refine congrArg (_ :: ·) ?_
    cases hstep : (walkStep b va t (level + 1)).1 with
    | fault => rw [hfault hstep]
    | pointer next =>
      rw [hpointer next hstep]
      rw [hstep] at hle
      exact ih hle.2
    | leaf leaf =>
      obtain ⟨pte, -, hleaf'⟩ := hleaf leaf hstep
      rw [hleaf']

/-- **Walks see the tables up to A and D.**  A leaf found before such an update is found after
it. -/
theorem findLeaf_of_tablesLe {b b' : Bus} (hle : TablesLe b b') {va t : BitVec 64} {level : ℕ}
    {leaf : Leaf} (h : (findLeaf b va t level).1 = some leaf) :
    ∃ pte, AdLe leaf.pte pte ∧ (findLeaf b' va t level).1 = some { leaf with pte } :=
  findLeaf_of_entryLe (fun a ha ↦ hle a (walkEntries_aligned ha)) h

/-- Addresses with the same page numbers at and above the leaf's level walk to the same leaf. -/
theorem findLeaf_of_same_page {b : Bus} {va va' t : BitVec 64} {level k : ℕ} {leaf : Leaf}
    (h : (findLeaf b va t level).1 = some leaf) (hk : k ≤ leaf.level)
    (hv : ∀ l, k ≤ l → vpn va l = vpn va' l) : (findLeaf b va' t level).1 = some leaf := by
  have hstep : ∀ t l, k ≤ l → walkStep b va' t l = walkStep b va t l := by
    intro t l hl
    rw [walkStep_eq, walkStep_eq, entryAddress, entryAddress, hv l hl]
  induction level generalizing t with
  | zero =>
    simp only [findLeaf] at h ⊢
    split at h
    · rename_i l hl
      obtain rfl : l = leaf := by simpa using h
      rw [hstep t 0 (by rw [(walkStep_leaf hl).1] at hk; exact hk), hl]
    · cases h
  | succ level ih =>
    rw [findLeaf_succ] at h ⊢
    split at h
    · rename_i l hl
      obtain rfl : l = leaf := by simpa using h
      rw [hstep t _ (by rw [(walkStep_leaf hl).1] at hk; exact hk), hl]
    · rename_i next hn
      have hkl : k ≤ level + 1 := Nat.le_succ_of_le (Nat.le_trans hk (level_findLeaf h))
      rw [hstep t _ hkl, hn]
      exact ih h
    · cases h

/-! ## One attempt at the walk -/

/-- The bus after a walk that ended in `leaf`: unchanged when the entry already had the bits it
needs, and otherwise with the bits set in that entry. -/
def LeafUpdated (b b' : Bus) (leaf : Leaf) (kind : MmuAccessKind) : Prop :=
  (desiredPte leaf.pte kind = leaf.pte ∧ b' = b) ∨
    (desiredPte leaf.pte kind ≠ leaf.pte ∧
      b' = (b.compareExchange leaf.pteAddress .doubleWord leaf.pte
        (desiredPte leaf.pte kind) .atomic).2 ∧
      Bus.Stored b b' leaf.pteAddress .doubleWord (desiredPte leaf.pte kind))

theorem LeafUpdated.tablesLe {b b' : Bus} {leaf : Leaf} {kind : MmuAccessKind}
    (h : LeafUpdated b b' leaf kind) (hat : LeafAt b leaf) : TablesLe b b' := by
  rcases h with ⟨-, rfl⟩ | ⟨-, -, hs⟩
  · exact TablesLe.refl _
  · refine tablesLe_of_stored hat.aligned hat.ok ?_ hs
    rw [hat.value]
    exact adLe_desiredPte _ _

/-- After the update the entry reads as desired. -/
theorem LeafUpdated.value_eq {b b' : Bus} {leaf : Leaf} {kind : MmuAccessKind}
    (h : LeafUpdated b b' leaf kind) (hat : LeafAt b leaf) :
    (tableRead b' leaf.pteAddress).value = desiredPte leaf.pte kind := by
  rcases h with ⟨he, rfl⟩ | ⟨-, -, hs⟩
  · rw [hat.value, he]
  · rw [tableRead, hs.read_self, AccessResult.value_success]

/-- **What an attempt can do**: fault without a trace, or translate through the leaf it found, with
the leaf's A and D bits brought up to date.  It never asks for a retry. -/
theorem walkPageTable_cases (m : Mmu) (b : Bus) (va : BitVec 64) (kind : MmuAccessKind)
    (context : MmuContext) :
    m.walkPageTable b va kind context = (.fault (pageFault kind va), m, b) ∨
    ∃ leaf b', (findLeaf b va (satpRootPpn context.satp) 2).1 = some leaf ∧
      superpageAligned (ptePpn leaf.pte) leaf.level = true ∧
      permissionAllows (pteFlags leaf.pte) kind context = true ∧ LeafUpdated b b' leaf kind ∧
      m.walkPageTable b va kind context =
        (.translated (composePhysicalAddress va (ptePpn leaf.pte) leaf.level),
          m.fillTlb va leaf.level (ptePpn leaf.pte) (pteFlags (desiredPte leaf.pte kind))
            (satpAsid context.satp), b') := by
  simp only [walkPageTable, findLeaf_bus]
  cases hf : (findLeaf b va (satpRootPpn context.satp) 2).1 with
  | none => exact Or.inl rfl
  | some leaf =>
    dsimp only
    have hat := findLeaf_leafAt hf
    by_cases hp : superpageAligned (ptePpn leaf.pte) leaf.level = true ∧
        permissionAllows (pteFlags leaf.pte) kind context = true
    · rw [if_neg (by simp [hp.1, hp.2])]
      by_cases hd : desiredPte leaf.pte kind = leaf.pte
      · rw [if_pos hd]
        exact Or.inr ⟨leaf, b, rfl, hp.1, hp.2, Or.inl ⟨hd, rfl⟩, rfl⟩
      · rw [if_neg hd]
        have hcx := Bus.compareExchange_of_read hat.ok (desiredPte leaf.pte kind) .atomic
        rw [show (b.read leaf.pteAddress .doubleWord .load).1.value =
          leaf.pte from hat.value] at hcx
        rcases hcx with ⟨hno, hb⟩ | ⟨hok, hex, hs⟩
        · rw [if_pos (by simp [hno]), hb]
          exact Or.inl rfl
        · rw [if_neg (by simp [hok]), if_neg (by simp [hex])]
          exact Or.inr ⟨leaf, _, rfl, hp.1, hp.2, Or.inr ⟨hd, rfl, hs⟩, rfl⟩
    · rw [if_pos (by
        rw [Bool.or_eq_true, Bool.not_eq_true', Bool.not_eq_true']
        by_cases hs : superpageAligned (ptePpn leaf.pte) leaf.level = true
        · exact Or.inr (by simpa [hs] using hp)
        · exact Or.inl (by simpa using hs))]
      exact Or.inl rfl

/-- A walk to a leaf that allows the access and already has its A and D bits changes nothing. -/
theorem walkPageTable_of_leaf (m : Mmu) {b : Bus} {va : BitVec 64} {kind : MmuAccessKind}
    {context : MmuContext} {leaf : Leaf}
    (hf : (findLeaf b va (satpRootPpn context.satp) 2).1 = some leaf)
    (halign : superpageAligned (ptePpn leaf.pte) leaf.level = true)
    (hperm : permissionAllows (pteFlags leaf.pte) kind context = true)
    (hdone : desiredPte leaf.pte kind = leaf.pte) :
    (m.walkPageTable b va kind context).1 =
        .translated (composePhysicalAddress va (ptePpn leaf.pte) leaf.level) ∧
      (m.walkPageTable b va kind context).2.2 = b := by
  simp only [walkPageTable, findLeaf_bus, hf, halign, hperm, hdone, Bool.not_true, Bool.or_false,
    if_true]
  exact ⟨rfl, rfl⟩

/-- The result of an attempt as the result of a translation. -/
def Mmu.PageWalkResult.toTranslation (virtualAddress : BitVec 64) (kind : MmuAccessKind) :
    PageWalkResult → TranslationResult
  | .translated physicalAddress => .ok physicalAddress
  | .fault raised => .error raised
  | .retry => .error (pageFault kind virtualAddress)

/-- The retry loop of `translate` ends after its first attempt, whatever its bound. -/
theorem walkLoop_eq (m : Mmu) (b : Bus) (va : BitVec 64) (kind : MmuAccessKind)
    (context : MmuContext) (attempts : ℕ) :
    m.walkLoop b va kind context (attempts + 1) =
      some ((m.walkPageTable b va kind context).1.toTranslation va kind,
        (m.walkPageTable b va kind context).2) := by
  rw [walkLoop]
  rcases walkPageTable_cases m b va kind context with h | ⟨leaf, b', -, -, -, -, h⟩ <;>
    simp only [h, PageWalkResult.toTranslation]

end Rvemu
