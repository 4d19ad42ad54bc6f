import Mathlib.Data.List.Forall2
import Mathlib.Data.List.GetD
import Mathlib.Data.List.Nodup
import Mathlib.Data.List.Perm.Subperm
import Rvemu.Devices.Virtqueue

/-!
# Which descriptor chains are accepted

A chain is what is found by following NEXT links through a table, in whatever order the driver has
left them there.  The parser walks it with a set of visited indices and a bound on its steps.
`parseDescriptorChain_exact` says what that amounts to: it accepts the chains whose indices are
pairwise distinct, whose buffers do not wrap and whose directions are the expected ones, and it
returns their descriptors in order.

A table may lie anywhere on the bus, so a chain is followed through the buses that its reads leave
behind; in RAM they are all the same (`readRawDescriptor_inRam`).
-/

set_option autoImplicit false

namespace Rvemu

/-! ## Chains -/

/-- The chain from an entry of a table on, with the index of each descriptor: entries inside the
table that can be read and are not indirect, each but the last with the index of the next one. -/
inductive Links (table : BitVec 64) (size : BitVec 16) :
    Bus → BitVec 16 → List (BitVec 16 × RawDescriptor) → Prop
  | last {b b' : Bus} {index : BitVec 16} {d : RawDescriptor} (inside : index < size)
      (read : (readRawDescriptor table index).run Bus.dma b = (.ok d, b'))
      (direct : d.isIndirect = false) (stop : d.hasNext = false) :
        Links table size b index [(index, d)]
  | next {b b' : Bus} {index : BitVec 16} {d : RawDescriptor}
      {chain : List (BitVec 16 × RawDescriptor)} (inside : index < size)
      (read : (readRawDescriptor table index).run Bus.dma b = (.ok d, b'))
      (direct : d.isIndirect = false) (more : d.hasNext = true)
      (rest : Links table size b' d.next chain) : Links table size b index ((index, d) :: chain)

/-- The indices of a chain. -/
def chainIndices (chain : List (BitVec 16 × RawDescriptor)) : List (BitVec 16) := chain.map (·.1)

def chainSegments (chain : List (BitVec 16 × RawDescriptor)) : List VirtqueueSegment :=
  chain.map (·.2.segment)

/-- Number and directions are the expected ones, if any are expected. -/
def Directed (expected : List VirtqueueDescriptorDirection) (segments : List VirtqueueSegment) :
    Prop :=
  expected = [] ∨
    List.Forall₂ (fun s direction ↦ directionMatches s.deviceWrites direction =
      true) segments expected

/-- A chain of a table without a loop, that fits and has the expected directions. -/
structure ChainAt (expected : List VirtqueueDescriptorDirection) (table : BitVec 64)
    (size : BitVec 16) (b : Bus) (head : BitVec 16) (chain : List (BitVec 16 × RawDescriptor)) :
    Prop where
  links : Links table size b head chain
  distinct : (chainIndices chain).Nodup
  fits : ∀ s ∈ chainSegments chain, s.Fits
  directed : Directed expected (chainSegments chain)

/-- A head that refers to another table: it is neither written nor continued, and names the length
of a table that is not empty, of whole descriptors and not too long. -/
structure RefersToTable (d : RawDescriptor) : Prop where
  indirect : d.isIndirect = true
  readOnly : d.isWrite = false
  alone : d.hasNext = false
  nonempty : d.length.toNat ≠ 0
  whole : d.length.toNat % 16 = 0
  bounded : d.length.toNat / 16 ≤ 65535

/-- What the parser is to accept: a chain from the head, or from the first entry of the table that
the head refers to. -/
inductive Acceptable (layout : VirtqueueLayout) (head : BitVec 16)
    (expected : List VirtqueueDescriptorDirection) (b : Bus) :
    List (BitVec 16 × RawDescriptor) → Prop
  | direct {chain : List (BitVec 16 × RawDescriptor)}
      (found : ChainAt expected layout.descriptorTable layout.size b head chain) :
      Acceptable layout head expected b chain
  | indirect {b' : Bus} {d : RawDescriptor} {chain : List (BitVec 16 × RawDescriptor)}
      (negotiated : layout.indirectEnabled = true) (inside : head < layout.size)
      (read : (readRawDescriptor layout.descriptorTable head).run Bus.dma b = (.ok d, b'))
      (refers : RefersToTable d)
      (found : ChainAt expected d.address (BitVec.ofNat 16 (d.length.toNat / 16)) b' 0#16 chain) :
      Acceptable layout head expected b chain

theorem read_field {b : Bus} {a : BitVec 64} {n : ℕ} (h : b.InRam a.toNat n) (k : ℕ)
    (w : AccessWidth) (hk : k + widthInBytes w ≤ n) :
    b.read (a + BitVec.ofNat 64 k) w .dmaRead = (.success (b.ramWord (a.toNat + k) w), b) := by
  have hlt := h.lt
  have hadd : (a + BitVec.ofNat 64 k).toNat = a.toNat + k := by
    rw [BitVec.toNat_add, BitVec.toNat_ofNat, Nat.mod_eq_of_lt (a := k) (by omega),
      Nat.mod_eq_of_lt (by omega)]
  have hin : b.InRam (a + BitVec.ofNat 64 k).toNat (widthInBytes w) := by
    rw [hadd]
    exact h.sub (Nat.le_add_right _ _) (by omega)
  rw [hin.read_eq, hadd]

/-- In RAM a descriptor is its four fields, and reading it changes nothing. -/
theorem readRawDescriptor_inRam {b : Bus} {table : BitVec 64} {index : BitVec 16}
    (h : b.InRam (table + index.setWidth 64 * 16#64).toNat 16) :
    let a := (table + index.setWidth 64 * 16#64).toNat
    (readRawDescriptor table index).run Bus.dma b =
      (.ok { address := b.ramWord a .doubleWord
             length := (b.ramWord (a + 8) .word).setWidth 32
             flags := (b.ramWord (a + 12) .halfWord).setWidth 16
             next := (b.ramWord (a + 14) .halfWord).setWidth 16 }, b) := by
  have h0 := read_field h 0 .doubleWord (by decide)
  rw [BitVec.add_zero] at h0
  have h8 := read_field h 8 .word (by decide)
  have h12 := read_field h 12 .halfWord (by decide)
  have h14 := read_field h 14 .halfWord (by decide)
  rw [readRawDescriptor]
  simp only [Dialogue.run_bind, Dialogue.run_ite, Dialogue.run_pure, Dma.run_read]
  rw [h0, h8, h12, h14]
  rfl

/-! ## The checks on one descriptor -/

theorem fits_iff (d : RawDescriptor) : d.segment.Fits ↔
    (d.length != 0#32 && addOverflows d.address (d.length.setWidth 64 - 1#64)) = false := by
  have hlen : d.length.toNat < 2 ^ 32 := d.length.isLt
  have hwide : (d.length.setWidth 64).toNat = d.length.toNat := by
    rw [BitVec.toNat_setWidth]
    omega
  rw [VirtqueueSegment.Fits, RawDescriptor.segment]
  by_cases hzero : d.length = 0#32
  · simp [hzero]
  · have hne : d.length.toNat ≠ 0 := fun h ↦ hzero (BitVec.eq_of_toNat_eq h)
    have hone : (1#64).toNat = 1 := rfl
    rw [bne_iff_ne.2 hzero, Bool.true_and, addOverflows_eq_false_iff, BitVec.toNat_sub_of_le
      (by rw [BitVec.le_def, hwide]; omega), hwide]
    dsimp only
    omega

/-- The segments so far have the directions that are expected of them. -/
def DirectedSoFar (expected : List VirtqueueDescriptorDirection)
    (segments : List VirtqueueSegment) :
    Prop :=
  expected = [] ∨ segments.length ≤ expected.length ∧
    ∀ i (h : i < segments.length) (h' : i < expected.length),
      directionMatches segments[i].deviceWrites expected[i] = true

section Directions

variable {expected : List VirtqueueDescriptorDirection} {segments : List VirtqueueSegment}

theorem directed_iff : Directed expected segments ↔
    DirectedSoFar expected segments ∧ (expected = [] ∨ segments.length = expected.length) := by
  rw [Directed, DirectedSoFar, List.forall₂_iff_get]
  constructor
  · rintro (h | ⟨hlength, h⟩)
    · exact ⟨Or.inl h, Or.inl h⟩
    · exact ⟨Or.inr ⟨Nat.le_of_eq hlength, h⟩, Or.inr hlength⟩
  · rintro ⟨h | ⟨-, h⟩, hlength⟩
    · exact Or.inl h
    · exact hlength.imp id fun hlength ↦ ⟨hlength, h⟩

theorem DirectedSoFar.of_append {rest : List VirtqueueSegment}
    (h : DirectedSoFar expected (segments ++ rest)) : DirectedSoFar expected segments := by
  refine h.imp id fun ⟨hlength, h⟩ ↦ ?_
  rw [List.length_append] at hlength
  refine ⟨by omega, fun i hi hi' ↦ ?_⟩
  have hget := h i (by rw [List.length_append]; omega) hi'
  rw [List.getElem_append_left hi] at hget
  exact hget

/-- The two checks of one more descriptor against the expected directions. -/
theorem directedSoFar_append_iff (h : DirectedSoFar expected segments) (d : RawDescriptor) :
    DirectedSoFar expected (segments ++ [d.segment]) ↔
      (!expected.isEmpty && decide (expected.length ≤ segments.length)) = false ∧
      (!expected.isEmpty &&
        !directionMatches d.isWrite (expected.getD segments.length .any)) = false := by
  by_cases hempty : expected = []
  · simp [hempty, DirectedSoFar]
  replace h := h.resolve_left hempty
  have hisEmpty : expected.isEmpty = false := by
    rw [← Bool.not_eq_true, List.isEmpty_iff]
    exact hempty
  rw [DirectedSoFar, or_iff_right hempty, hisEmpty, Bool.not_false, Bool.true_and, Bool.true_and,
    decide_eq_false_iff_not, Bool.not_eq_false']
  have hmore : (segments ++ [d.segment]).length = segments.length + 1 := by simp
  constructor
  · rintro ⟨hlength, hmatch⟩
    have hlt : segments.length < expected.length := by omega
    refine ⟨by omega, ?_⟩
    have hlast := hmatch segments.length (by omega) hlt
    rw [List.getElem_append_right (Nat.le_refl _)] at hlast
    rw [List.getD_eq_getElem _ _ hlt]
    simpa [RawDescriptor.segment] using hlast
  · rintro ⟨hlength, hlast⟩
    refine ⟨by omega, fun i hi hi' ↦ ?_⟩
    by_cases hold : i < segments.length
    · rw [List.getElem_append_left hold]
      exact h.2 i hold hi'
    · obtain rfl : i = segments.length := by omega
      rw [List.getD_eq_getElem _ _ hi'] at hlast
      rw [List.getElem_append_right (Nat.le_refl _)]
      simpa [RawDescriptor.segment] using hlast

theorem checkDescriptor_eq_none_iff (h : DirectedSoFar expected segments) (totalLength : BitVec 64)
    (d : RawDescriptor) : checkDescriptor expected segments totalLength d = none ↔
      DirectedSoFar expected (segments ++ [d.segment]) ∧ d.segment.Fits ∧
        totalLength.toNat + d.length.toNat < 2 ^ 64 := by
  have hwide : (d.length.setWidth 64).toNat = d.length.toNat := by
    have hlen : d.length.toNat < 2 ^ 32 := d.length.isLt
    rw [BitVec.toNat_setWidth]
    omega
  rw [directedSoFar_append_iff h, fits_iff, ← hwide, ← addOverflows_eq_false_iff, checkDescriptor,
    and_assoc]
  generalize (!expected.isEmpty && decide (expected.length ≤ segments.length)) = tooMany
  generalize (!expected.isEmpty &&
    !directionMatches d.isWrite (expected.getD segments.length .any)) = wrongDirection
  generalize (d.length != 0#32 && addOverflows d.address (d.length.setWidth 64 - 1#64)) = wraps
  generalize addOverflows totalLength (d.length.setWidth 64) = tooLong
  cases tooMany <;> cases wrongDirection <;> cases wraps <;> cases tooLong <;> simp

end Directions

/-! ## The loop over a table -/

section Loop

variable {expected : List VirtqueueDescriptorDirection}
  {indirect : Option (RawDescriptor → Dma VirtqueueParseResult)} {table : BitVec 64}
  {size index : BitVec 16} {count : ℕ} {visited : List (BitVec 16)}
  {segments : List VirtqueueSegment} {totalLength : BitVec 64} {b b' : Bus} {d : RawDescriptor}

/-- One turn of the loop, at a descriptor that is not indirect. -/
theorem parseTableFrom_direct (inside : index < size) (fresh : index ∉ visited)
    (read : (readRawDescriptor table index).run Bus.dma b = (.ok d, b'))
    (direct : d.isIndirect = false) :
    ((parseTableFrom indirect table size expected (count + 1) index visited segments
        totalLength).run Bus.dma b).1 =
      match checkDescriptor expected segments totalLength d with
      | some failed => failed
      | none =>
        if !d.hasNext then
          if !expected.isEmpty && (segments ++ [d.segment]).length != expected.length then
            .failure .directionMismatch "描述符数量少于设备请求布局"
          else { segments := segments ++ [d.segment] }
        else ((parseTableFrom indirect table size expected count d.next (index :: visited)
          (segments ++ [d.segment]) (totalLength + d.length.setWidth 64)).run Bus.dma b').1 := by
  rw [parseTableFrom, if_neg (BitVec.not_le.2 inside), if_neg fresh, Dialogue.run_bind, read]
  dsimp only
  rw [direct, if_neg (by decide)]
  cases checkDescriptor expected segments totalLength d with
  | some failed => rfl
  | none =>
    dsimp only
    rw [Dialogue.run_ite, Dialogue.run_ite]
    split
    · split <;> rfl
    · rfl

/-- The number of bytes of a chain grows with each descriptor. -/
theorem totalBytes_cons (s : VirtqueueSegment) (rest : List VirtqueueSegment) :
    totalBytes (s :: rest) = s.length.toNat + totalBytes rest := by
  simp [totalBytes]

theorem lengthCheck_iff : (!expected.isEmpty && segments.length != expected.length) = false ↔
    expected = [] ∨ segments.length = expected.length := by
  cases expected <;> simp

/-- **The loop is complete.**  It finds a chain of fresh indices that fits and has the expected
directions, given turns for all of it. -/
theorem parseTableFrom_of_links {chain : List (BitVec 16 × RawDescriptor)}
    (h : Links table size b index chain) (hturns : chain.length ≤ count)
    (hfresh : ∀ i ∈ chainIndices chain, i ∉ visited) (hdistinct : (chainIndices chain).Nodup)
    (hfits : ∀ s ∈ chainSegments chain, s.Fits)
    (hdirected : Directed expected (segments ++ chainSegments chain))
    (htotal : totalLength.toNat + totalBytes (chainSegments chain) < 2 ^ 64) :
    ((parseTableFrom indirect table size expected count index visited segments
      totalLength).run Bus.dma b).1 = { segments := segments ++ chainSegments chain } := by
  induction h generalizing count visited segments totalLength with
  | @last b b' index d inside read direct stop =>
    obtain ⟨turns, rfl⟩ : ∃ turns, count = turns + 1 := ⟨count - 1, by simp at hturns; omega⟩
    rw [parseTableFrom_direct inside (hfresh index (by simp [chainIndices])) read direct]
    have hsegments : chainSegments [(index, d)] = [d.segment] := rfl
    rw [hsegments] at hfits hdirected htotal ⊢
    obtain ⟨hsofar, hlength⟩ := directed_iff.1 hdirected
    rw [totalBytes_cons] at htotal
    have hroom : totalLength.toNat + d.length.toNat < 2 ^ 64 := Nat.lt_of_le_of_lt
      (Nat.add_le_add_left (Nat.le_add_right _ _) _) htotal
    rw [(checkDescriptor_eq_none_iff hsofar.of_append _ _).2
      ⟨hsofar, hfits _ (List.mem_singleton.2 rfl), hroom⟩]
    dsimp only
    rw [stop, if_pos (by decide), lengthCheck_iff.2 hlength, if_neg (by decide)]
  | @next b b' index d chain inside read direct more rest ih =>
    obtain ⟨turns, rfl⟩ : ∃ turns, count = turns + 1 := ⟨count - 1, by simp at hturns; omega⟩
    rw [parseTableFrom_direct inside (hfresh index (by simp [chainIndices])) read direct]
    have hsegments : chainSegments ((index, d) :: chain) = d.segment :: chainSegments chain := rfl
    have hindices : chainIndices ((index, d) :: chain) = index :: chainIndices chain := rfl
    have hlist : segments ++ d.segment :: chainSegments chain =
        segments ++ [d.segment] ++ chainSegments chain := by simp
    rw [hsegments] at hfits hdirected htotal ⊢
    rw [hindices] at hfresh hdistinct
    rw [hlist] at hdirected ⊢
    rw [totalBytes_cons] at htotal
    have hsofar := (directed_iff.1 hdirected).1.of_append
    have hroom : totalLength.toNat + d.length.toNat < 2 ^ 64 := Nat.lt_of_le_of_lt
      (Nat.add_le_add_left (Nat.le_add_right _ _) _) htotal
    rw [(checkDescriptor_eq_none_iff hsofar.of_append _ _).2
      ⟨hsofar, hfits _ List.mem_cons_self, hroom⟩]
    dsimp only
    rw [more, if_neg (by decide)]
    refine ih (by simpa using hturns) ?_ hdistinct.of_cons
      (fun s hs ↦ hfits s (List.mem_cons_of_mem _ hs))
      hdirected ?_
    · intro i hi hmem
      rcases List.mem_cons.1 hmem with rfl | hmem
      · exact (List.nodup_cons.1 hdistinct).1 hi
      · exact hfresh i (List.mem_cons_of_mem _ hi) hmem
    · have hlen : d.length.toNat < 2 ^ 32 := d.length.isLt
      rw [BitVec.toNat_add, BitVec.toNat_setWidth,
        Nat.mod_eq_of_lt (a := d.length.toNat) (by omega),
        Nat.mod_eq_of_lt hroom]
      have hbytes : d.segment.length.toNat = d.length.toNat := rfl
      omega

/-- The chains that the loop accepts from a descriptor on. -/
structure Continues (expected : List VirtqueueDescriptorDirection) (table : BitVec 64)
    (size : BitVec 16) (visited : List (BitVec 16)) (segments : List VirtqueueSegment) (b : Bus)
    (index : BitVec 16) (chain : List (BitVec 16 × RawDescriptor)) : Prop where
  links : Links table size b index chain
  distinct : (chainIndices chain).Nodup
  fresh : ∀ i ∈ chainIndices chain, i ∉ visited
  fits : ∀ s ∈ chainSegments chain, s.Fits
  directed : Directed expected (segments ++ chainSegments chain)

/-- **The loop is sound.**  What it accepts is a chain, or the table that the very first descriptor
refers to. -/
theorem links_of_parseTableFrom (hsofar : DirectedSoFar expected segments)
    (hok : ((parseTableFrom indirect table size expected count index visited segments
      totalLength).run Bus.dma b).1.ok = true) :
    (∃ chain, Continues expected table size visited segments b index chain) ∨
      (segments = [] ∧ ∃ parseIndirect d b', indirect = some parseIndirect ∧ index < size ∧
        (readRawDescriptor table index).run Bus.dma b = (.ok d, b') ∧ d.isIndirect = true ∧
        ((parseIndirect d).run Bus.dma b').1.ok = true) := by
  induction count generalizing index visited segments totalLength b with
  | zero => cases hok
  | succ count ih =>
    by_cases inside : index < size
    swap
    · rw [parseTableFrom, if_pos (BitVec.not_lt.1 inside)] at hok
      cases hok
    by_cases fresh : index ∈ visited
    · rw [parseTableFrom, if_neg (BitVec.not_le.2 inside), if_pos fresh] at hok
      cases hok
    obtain ⟨value, b', read⟩ : ∃ value b',
        (readRawDescriptor table index).run Bus.dma b = (value, b') := ⟨_, _, rfl⟩
    cases value with
    | error failed =>
      have herror := @readRawDescriptor_error table index b failed (by rw [read])
      rw [parseTableFrom, if_neg (BitVec.not_le.2 inside), if_neg fresh, Dialogue.run_bind,
        read] at hok
      exact absurd (hok.symm.trans herror) (by decide)
    | ok d =>
      cases direct : d.isIndirect with
      | true =>
        rw [parseTableFrom, if_neg (BitVec.not_le.2 inside), if_neg fresh, Dialogue.run_bind,
          read] at hok
        dsimp only at hok
        rw [direct, if_pos rfl] at hok
        cases hi : indirect with
        | none =>
          rw [hi] at hok
          cases hok
        | some parseIndirect =>
          rw [hi] at hok
          cases segments with
          | cons s rest => cases hok
          | nil => exact Or.inr ⟨rfl, parseIndirect, d, b', rfl, inside, read, direct, hok⟩
      | false =>
        refine Or.inl ?_
        rw [parseTableFrom_direct inside fresh read direct] at hok
        cases hcheck : checkDescriptor expected segments totalLength d with
        | some failed =>
          rw [hcheck] at hok
          exact absurd (hok.symm.trans (checkDescriptor_some hcheck)) (by decide)
        | none =>
          obtain ⟨hsofar', hfits, -⟩ := (checkDescriptor_eq_none_iff hsofar _ _).1 hcheck
          rw [hcheck] at hok
          dsimp only at hok
          cases hnext : d.hasNext with
          | false =>
            rw [hnext, if_pos (by decide)] at hok
            split at hok
            · cases hok
            · next hlength =>
              rw [Bool.not_eq_true, lengthCheck_iff] at hlength
              exact ⟨[(index, d)], .last inside read direct hnext, by simp [chainIndices],
                by simpa [chainIndices] using fresh, by simpa [chainSegments] using hfits,
                directed_iff.2 ⟨hsofar', hlength⟩⟩
          | true =>
            rw [hnext, if_neg (by decide)] at hok
            rcases ih hsofar' hok with ⟨chain, hc⟩ | ⟨hnil, -⟩
            · refine ⟨(index, d) :: chain, .next inside read direct hnext hc.links,
                List.nodup_cons.2 ⟨fun h ↦ hc.fresh index h List.mem_cons_self, hc.distinct⟩,
                fun i hi hmem ↦ ?_, fun s hs ↦ ?_, ?_⟩
              · rcases List.mem_cons.1 hi with rfl | hi
                · exact fresh hmem
                · exact hc.fresh i hi (List.mem_cons_of_mem _ hmem)
              · rcases List.mem_cons.1 hs with rfl | hs
                · exact hfits
                · exact hc.fits s hs
              · have hdirected := hc.directed
                rw [List.append_assoc] at hdirected
                exact hdirected
            · exact absurd hnil (by simp)

end Loop

/-! ## Tables -/

theorem Links.inside {table : BitVec 64} {size index : BitVec 16} {b : Bus}
    {chain : List (BitVec 16 × RawDescriptor)} (h : Links table size b index chain) :
    ∀ i ∈ chainIndices chain, i < size := by
  induction h with
  | last inside => simpa [chainIndices] using inside
  | next inside _ _ _ _ ih =>
    intro i hi
    rcases List.mem_cons.1 hi with rfl | hi
    · exact inside
    · exact ih i hi

theorem Links.head_lt {table : BitVec 64} {size index : BitVec 16} {b : Bus}
    {chain : List (BitVec 16 × RawDescriptor)} (h : Links table size b index chain) :
    index < size := by
  cases h with
  | last inside => exact inside
  | next inside => exact inside

/-- Distinct indices below the size of the table are no more than its size. -/
theorem length_le_of_nodup {indices : List (BitVec 16)} {size : BitVec 16}
    (hdistinct : indices.Nodup)
    (hinside : ∀ i ∈ indices, i < size) : indices.length ≤ size.toNat := by
  have hnodup : (indices.map BitVec.toNat).Nodup :=
    hdistinct.map fun _ _ h ↦ BitVec.eq_of_toNat_eq h
  have hsubset : indices.map BitVec.toNat ⊆ List.range size.toNat := by
    intro n hn
    obtain ⟨i, hi, rfl⟩ := List.mem_map.1 hn
    exact List.mem_range.2 (BitVec.lt_def.1 (hinside i hi))
  have hlength := (List.subperm_of_subset hnodup hsubset).length_le
  rwa [List.length_map, List.length_range] at hlength

theorem totalBytes_le (segments : List VirtqueueSegment) :
    totalBytes segments ≤ segments.length * 2 ^ 32 := by
  induction segments with
  | nil => exact Nat.le_refl _
  | cons s rest ih =>
    have hlen : s.length.toNat < 2 ^ 32 := s.length.isLt
    rw [totalBytes_cons, List.length_cons, Nat.succ_mul]
    omega

section Tables

variable {expected : List VirtqueueDescriptorDirection}
  {indirect : Option (RawDescriptor → Dma VirtqueueParseResult)} {table : BitVec 64}
  {size head : BitVec 16} {b b' : Bus} {d : RawDescriptor}

/-- The check that the bytes of a chain can be counted in 64 bits never fails: a chain has fewer
than `2 ^ 16` descriptors of fewer than `2 ^ 32` bytes. -/
theorem parseTable_of_chain {chain : List (BitVec 16 × RawDescriptor)}
    (h : ChainAt expected table size b head chain) :
    ((parseTable indirect table size head expected).run Bus.dma b).1 =
      { segments := chainSegments chain } := by
  have hinside := h.links.head_lt
  have hlength : chain.length ≤ size.toNat := by
    have hle := length_le_of_nodup h.distinct h.links.inside
    rwa [chainIndices, List.length_map] at hle
  have hbytes : totalBytes (chainSegments chain) < 2 ^ 64 := by
    have hle := totalBytes_le (chainSegments chain)
    have hsize : size.toNat < 2 ^ 16 := size.isLt
    rw [chainSegments, List.length_map] at hle
    rw [chainSegments]
    omega
  rw [parseTable, if_neg (BitVec.not_le.2 hinside)]
  exact parseTableFrom_of_links h.links hlength (by simp) h.distinct h.fits h.directed
    (by simpa using hbytes)

theorem parseTable_of_indirect {parseIndirect : RawDescriptor → Dma VirtqueueParseResult}
    (hindirect : indirect = some parseIndirect) (inside : head < size)
    (read : (readRawDescriptor table head).run Bus.dma b = (.ok d, b'))
    (hd : d.isIndirect = true) :
    ((parseTable indirect table size head expected).run Bus.dma b).1 =
      ((parseIndirect d).run Bus.dma b').1 := by
  obtain ⟨count, hcount⟩ : ∃ count, size.toNat = count + 1 :=
    ⟨size.toNat - 1, by have := BitVec.lt_def.1 inside; omega⟩
  rw [parseTable, if_neg (BitVec.not_le.2 inside), hcount, parseTableFrom,
    if_neg (BitVec.not_le.2 inside), if_neg (by simp), Dialogue.run_bind, read, hindirect]
  dsimp only
  rw [hd, if_pos rfl]
  rfl

theorem chain_of_parseTable
    (hok : ((parseTable indirect table size head expected).run Bus.dma b).1.ok = true) :
    (∃ chain, ChainAt expected table size b head chain) ∨
      ∃ parseIndirect d b', indirect = some parseIndirect ∧ head < size ∧
        (readRawDescriptor table head).run Bus.dma b = (.ok d, b') ∧ d.isIndirect = true ∧
        ((parseIndirect d).run Bus.dma b').1.ok = true := by
  rw [parseTable] at hok
  split at hok
  · cases hok
  · have hsofar : DirectedSoFar expected [] := Or.inr ⟨Nat.zero_le _, fun i hi ↦ by cases hi⟩
    rcases links_of_parseTableFrom hsofar hok with ⟨chain, hc⟩ | ⟨-, hindirect⟩
    · exact Or.inl ⟨chain, hc.links, hc.distinct, hc.fits, hc.directed⟩
    · exact Or.inr hindirect

theorem refersToTable_iff (hd : d.isIndirect = true) : RefersToTable d ↔
    (d.isWrite || d.hasNext || d.length == 0#32 || d.length % 16#32 != 0#32) = false ∧
      ¬ (d.length.setWidth 64 / 16#64 = 0#64 ∨ 0xFFFF#64 < d.length.setWidth 64 / 16#64) := by
  have hlen : d.length.toNat < 2 ^ 32 := d.length.isLt
  have hcount : (d.length.setWidth 64 / 16#64).toNat = d.length.toNat / 16 := by
    rw [BitVec.toNat_udiv, BitVec.toNat_setWidth, Nat.mod_eq_of_lt (by omega)]
    rfl
  have hzero : d.length = 0#32 ↔ d.length.toNat = 0 := by rw [← BitVec.toNat_inj]; rfl
  have hmod : d.length % 16#32 = 0#32 ↔ d.length.toNat % 16 = 0 := by
    rw [← BitVec.toNat_inj, BitVec.toNat_umod]
    rfl
  rw [← BitVec.toNat_inj, BitVec.lt_def, hcount, show (0#64).toNat = 0 from rfl,
    show (0xFFFF#64).toNat = 65535 from rfl, Bool.or_eq_false_iff, Bool.or_eq_false_iff,
    Bool.or_eq_false_iff, beq_eq_false_iff_ne, bne_eq_false_iff_eq, ne_eq, hzero, hmod]
  constructor
  · intro h
    obtain ⟨-, hwrite, hnext, hne, hwhole, hbound⟩ := h
    exact ⟨⟨⟨⟨hwrite, hnext⟩, hne⟩, hwhole⟩, by omega⟩
  · rintro ⟨⟨⟨⟨hwrite, hnext⟩, hne⟩, hwhole⟩, hbound⟩
    exact ⟨hd, hwrite, hnext, hne, hwhole, by omega⟩

/-- A descriptor that refers to a table is parsed as this table, without a way on to another. -/
theorem parseIndirectDescriptor_eq (h : RefersToTable d) :
    parseIndirectDescriptor expected d =
      parseTable none d.address (BitVec.ofNat 16 (d.length.toNat / 16)) 0#16 expected := by
  obtain ⟨hshape, hcount⟩ := (refersToTable_iff h.indirect).1 h
  have hlen : d.length.toNat < 2 ^ 32 := d.length.isLt
  have hsize : (d.length.setWidth 64 / 16#64).setWidth 16 =
      BitVec.ofNat 16 (d.length.toNat / 16) := by
    rw [← BitVec.toNat_inj, BitVec.toNat_setWidth, BitVec.toNat_udiv, BitVec.toNat_setWidth,
      BitVec.toNat_ofNat, Nat.mod_eq_of_lt (a := d.length.toNat) (by omega)]
    rfl
  rw [parseIndirectDescriptor, hshape, if_neg (by decide)]
  dsimp only
  rw [if_neg hcount, hsize]

theorem refersToTable_of_ok (hd : d.isIndirect = true)
    (hok : ((parseIndirectDescriptor expected d).run Bus.dma b).1.ok = true) : RefersToTable d := by
  rw [refersToTable_iff hd]
  rw [parseIndirectDescriptor] at hok
  split at hok
  · cases hok
  · next hshape =>
    dsimp only at hok
    split at hok
    · cases hok
    · next hcount => exact ⟨Bool.not_eq_true _ ▸ hshape, hcount⟩

end Tables

/-! ## Only reads -/

/-- The dialogue reads, and does so at most `n` times. -/
def ReadsAtMost {α : Type} (p : Dma α) (n : ℕ) : Prop :=
  ∀ b, (∀ i ∈ p.calls Bus.dma b, i.isWrite = false) ∧ (p.calls Bus.dma b).length ≤ n

namespace ReadsAtMost

variable {α β : Type}

theorem pure (value : α) (n : ℕ) : ReadsAtMost (Pure.pure value : Dma α) n := by
  intro b
  rw [Dialogue.calls_pure]
  exact ⟨by simp, Nat.zero_le n⟩

theorem bind {p : Dma α} {f : α → Dma β} {m n : ℕ} (hp : ReadsAtMost p m)
    (hf : ∀ value, ReadsAtMost (f value) n) : ReadsAtMost (p >>= f) (m + n) := by
  intro b
  obtain ⟨hreads, hlength⟩ := hp b
  obtain ⟨hreads', hlength'⟩ := hf (p.run Bus.dma b).1 (p.run Bus.dma b).2
  rw [Dialogue.calls_bind]
  refine ⟨fun i hi ↦ ?_, ?_⟩
  · rcases List.mem_append.1 hi with hi | hi
    · exact hreads i hi
    · exact hreads' i hi
  · rw [List.length_append]
    exact Nat.add_le_add hlength hlength'

theorem mono {p : Dma α} {m n : ℕ} (h : ReadsAtMost p m) (hle : m ≤ n) : ReadsAtMost p n :=
  fun b ↦ ⟨(h b).1, Nat.le_trans (h b).2 hle⟩

theorem read (a : BitVec 64) (w : AccessWidth) : ReadsAtMost (Dma.read a w) 1 := by
  intro b
  rw [Dma.calls_read]
  exact ⟨by simp [DmaRequest.isWrite], Nat.le_refl 1⟩

end ReadsAtMost

theorem readsAtMost_readRawDescriptor (table : BitVec 64) (index : BitVec 16) :
    ReadsAtMost (readRawDescriptor table index) 4 := by
  rw [readRawDescriptor]
  refine (ReadsAtMost.read _ _).bind (n := 3) fun _ ↦ (ReadsAtMost.read _ _).bind (n := 2) fun _ ↦
    (ReadsAtMost.read _ _).bind (n := 1) fun _ ↦ (ReadsAtMost.read _ _).bind (n := 0) fun _ ↦ ?_
  split
  · exact .pure _ _
  · exact .pure _ _

section Reads

variable {expected : List VirtqueueDescriptorDirection}
  {indirect : Option (RawDescriptor → Dma VirtqueueParseResult)}

/-- A turn of the loop reads one descriptor; only a first turn goes on to another table. -/
theorem readsAtMost_parseTableFrom {n : ℕ}
    (hindirect : ∀ p, indirect = some p → ∀ d, ReadsAtMost (p d) n) (table : BitVec 64)
    (size : BitVec 16) (count : ℕ) (index : BitVec 16) (visited : List (BitVec 16))
    (segments : List VirtqueueSegment) (totalLength : BitVec 64) :
    ReadsAtMost (parseTableFrom indirect table size expected count index visited segments
      totalLength)
      (4 * count + n) := by
  induction count generalizing index visited segments totalLength with
  | zero => exact .pure _ _
  | succ count ih =>
    rw [parseTableFrom, show 4 * (count + 1) + n = 4 + (4 * count + n) by omega]
    split
    · exact .pure _ _
    · split
      · exact .pure _ _
      · refine (readsAtMost_readRawDescriptor table index).bind fun value ↦ ?_
        cases value with
        | error failed => exact .pure _ _
        | ok d =>
          dsimp only
          split
          · cases hi : indirect with
            | none => exact .pure _ _
            | some p =>
              dsimp only
              split
              · exact .pure _ _
              · exact (hindirect p hi d).mono (by omega)
          · split
            · exact .pure _ _
            · split
              · split <;> exact .pure _ _
              · exact ih _ _ _ _

theorem readsAtMost_parseTable {n : ℕ}
    (hindirect : ∀ p, indirect = some p → ∀ d, ReadsAtMost (p d) n) (table : BitVec 64)
    (size head : BitVec 16) :
    ReadsAtMost (parseTable indirect table size head expected) (4 * 65535 + n) := by
  rw [parseTable]
  split
  · exact .pure _ _
  · have hsize : size.toNat < 2 ^ 16 := size.isLt
    exact (readsAtMost_parseTableFrom hindirect table size size.toNat head [] [] 0#64).mono
      (by omega)

theorem readsAtMost_parseDescriptorChain (layout : VirtqueueLayout) (head : BitVec 16) :
    ReadsAtMost (parseDescriptorChain layout head expected) (8 * 65535) := by
  have hindirect : ∀ d, ReadsAtMost (parseIndirectDescriptor expected d) (4 * 65535 + 0) := by
    intro d
    rw [parseIndirectDescriptor]
    split
    · exact .pure _ _
    · dsimp only
      split
      · exact .pure _ _
      · exact readsAtMost_parseTable (fun p hp ↦ by cases hp) _ _ _
  rw [parseDescriptorChain]
  split
  · exact .pure _ _
  · split
    · exact .pure _ _
    · refine (readsAtMost_parseTable (n := 4 * 65535 + 0) (fun p hp d ↦ ?_) _ _ _).mono (by omega)
      split at hp
      · obtain rfl := Option.some.inj hp
        exact hindirect d
      · cases hp

end Reads

/-! ## The parser -/

/-- An acceptable chain is accepted, and its descriptors are what is returned. -/
theorem parseDescriptorChain_of_acceptable {layout : VirtqueueLayout} {head : BitVec 16}
    {expected : List VirtqueueDescriptorDirection} {b : Bus} (hready : layout.ready = true)
    {chain : List (BitVec 16 × RawDescriptor)} (h : Acceptable layout head expected b chain) :
    ((parseDescriptorChain layout head expected).run Bus.dma b).1 =
      { segments := chainSegments chain } := by
  have hinside : head < layout.size := by
    cases h with
    | direct found => exact found.links.head_lt
    | indirect negotiated inside => exact inside
  have hsize : layout.size ≠ 0#16 := by
    rintro hzero
    rw [hzero] at hinside
    exact absurd (BitVec.lt_def.1 hinside) (Nat.not_lt_zero _)
  have hp : parseDescriptorChain layout head expected = parseTable
      (if layout.indirectEnabled then some (parseIndirectDescriptor expected) else none)
      layout.descriptorTable layout.size head expected :=
    (if_neg (by simp [hready, hsize])).trans (if_neg (BitVec.not_le.2 hinside))
  rw [hp]
  cases h with
  | direct found => exact parseTable_of_chain found
  | indirect negotiated inside read refers found =>
    rw [if_pos negotiated, parseTable_of_indirect rfl inside read refers.indirect,
      parseIndirectDescriptor_eq refers]
    exact parseTable_of_chain found

/-- What is accepted is an acceptable chain. -/
theorem acceptable_of_parseDescriptorChain {layout : VirtqueueLayout} {head : BitVec 16}
    {expected : List VirtqueueDescriptorDirection} {b : Bus}
    (hok : ((parseDescriptorChain layout head expected).run Bus.dma b).1.ok = true) :
    layout.ready = true ∧ ∃ chain, Acceptable layout head expected b chain := by
  rw [parseDescriptorChain] at hok
  split at hok
  · cases hok
  · next hready =>
    rw [Bool.or_eq_true, not_or, Bool.not_eq_true', Bool.not_eq_false] at hready
    split at hok
    · cases hok
    · refine ⟨hready.1, ?_⟩
      rcases chain_of_parseTable hok with ⟨chain, hc⟩ |
        ⟨parseIndirect, d, b', hindirect, inside, read, hd, hok'⟩
      · exact ⟨chain, .direct hc⟩
      · split at hindirect
        · next negotiated =>
          obtain rfl := Option.some.inj hindirect
          have refers := refersToTable_of_ok hd hok'
          rw [parseIndirectDescriptor_eq refers] at hok'
          rcases chain_of_parseTable hok' with ⟨chain, hc⟩ | ⟨_, _, _, hnone, -⟩
          · exact ⟨chain, .indirect negotiated inside read refers hc⟩
          · cases hnone
        · cases hindirect

/-- **Descriptor chains.**  The parser only reads, a bounded number of times, and leaves RAM as it
is. For a queue that is ready it accepts exactly the acceptable chains, and returns their
descriptors in order; for one that is not it accepts nothing. -/
theorem parseDescriptorChain_exact (layout : VirtqueueLayout) (head : BitVec 16)
    (expected : List VirtqueueDescriptorDirection) (b : Bus) :
    let p := parseDescriptorChain layout head expected
    (∀ i ∈ p.calls Bus.dma b, i.isWrite = false) ∧ (p.calls Bus.dma b).length ≤ 8 * 65535 ∧
      (∀ x, (p.run Bus.dma b).2.ramByte x = b.ramByte x) ∧
      ((p.run Bus.dma b).1.ok = true ↔
        layout.ready = true ∧ ∃ chain, Acceptable layout head expected b chain) ∧
      (layout.ready = true → ∀ chain, Acceptable layout head expected b chain →
        (p.run Bus.dma b).1 = { segments := chainSegments chain }) := by
  intro p
  have hreads := @readsAtMost_parseDescriptorChain expected layout head b
  refine ⟨hreads.1, hreads.2, fun x ↦ Dma.ramByte_run p b fun i hi hwrite ↦ ?_,
    ⟨acceptable_of_parseDescriptorChain, ?_⟩,
    fun hready _ h ↦ parseDescriptorChain_of_acceptable hready h⟩
  · exact absurd ((hreads.1 i hi).symm.trans hwrite) (by decide)
  · rintro ⟨hready, chain, h⟩
    rw [parseDescriptorChain_of_acceptable hready h]
    rfl

/-- Two descriptors of four bytes, the second one written and in front of the first. -/
def chainBus : Bus where
  regions :=
    [.ram
      { range := { base := 0#64, size := 32#64, size_pos := by decide, fits := by decide }
        bytes := (List.replicate 8 0#8) ++ [4#8, 0#8, 0#8, 0#8, 2#8, 0#8, 0#8, 0#8] ++
          (List.replicate 8 0#8) ++ [4#8, 0#8, 0#8, 0#8, 1#8, 0#8, 0#8, 0#8]
        size_eq := by decide }]

def chainDescriptor (index : BitVec 16) : RawDescriptor :=
  { length := 4#32, flags := if index = 1#16 then 1#16 else 2#16 }

theorem read_chainBus {index : BitVec 16} (h : index < 2#16) :
    (readRawDescriptor 0#64 index).run Bus.dma chainBus =
    (.ok (chainDescriptor index), chainBus) := by
  obtain rfl | rfl : index = 0#16 ∨ index = 1#16 := by bv_omega
  · refine (readRawDescriptor_inRam ⟨_, List.mem_singleton.2 rfl, by decide, by decide⟩).trans ?_
    exact congrArg (fun d ↦ (Except.ok d, chainBus)) (by decide)
  · refine (readRawDescriptor_inRam ⟨_, List.mem_singleton.2 rfl, by decide, by decide⟩).trans ?_
    exact congrArg (fun d ↦ (Except.ok d, chainBus)) (by decide)

theorem chainAt_chainBus : ChainAt [.deviceReads, .deviceWrites] 0#64 2#16 chainBus 1#16
    [(1#16, chainDescriptor 1#16), (0#16, chainDescriptor 0#16)] where
  links := .next (by decide) (read_chainBus (by decide)) (by decide) (by decide)
    (.last (by decide) (read_chainBus (by decide)) (by decide) (by decide))
  distinct := by decide
  fits := by
    intro s hs
    have hs : s = (chainDescriptor 1#16).segment ∨ s = (chainDescriptor 0#16).segment := by
      simpa [chainSegments] using hs
    rcases hs with rfl | rfl <;> rw [fits_iff] <;> decide
  directed := Or.inr (by decide)

/-- A chain of all descriptors of its table, against the order of their indices. -/
theorem parseDescriptorChain_exact_backwards :
    ((parseDescriptorChain { size := 2#16, ready := true } 1#16
      [.deviceReads, .deviceWrites]).run Bus.dma chainBus).1 =
        { segments := [{ length := 4#32 }, { length := 4#32, deviceWrites := true }] } :=
  (parseDescriptorChain_exact { size := 2#16, ready := true } 1#16 [.deviceReads, .deviceWrites]
    chainBus).2.2.2.2 rfl _ (.direct chainAt_chainBus)

/-- The same chain of a queue that is not ready. -/
theorem parseDescriptorChain_not_ready :
    (∃ chain, Acceptable { size := 2#16 } 1#16 [.deviceReads, .deviceWrites] chainBus chain) ∧
      ((parseDescriptorChain { size := 2#16 } 1#16 [.deviceReads, .deviceWrites]).run Bus.dma
        chainBus).1.ok = false :=
  ⟨⟨_, .direct chainAt_chainBus⟩, rfl⟩

end Rvemu
