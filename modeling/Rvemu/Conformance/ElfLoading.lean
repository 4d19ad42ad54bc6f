import Rvemu.Conformance.ElfFormat

/-!
# Loading an ELF file

`checkElf` always has a value, and a plan that it returns is what the file says (`ElfPlan.Sound`).
The writes of a sound plan cannot fail: each segment is loaded as its `contents`, whatever the
widths of the writes are, so that RAM is overlaid segment by segment.  Hence a load that fails has
failed in its checks, and has not touched the bus.
-/

set_option autoImplicit false

namespace Rvemu

namespace Elf

open Bytes

/-! ## What the checks establish -/

/-- The memory of the segment lies between two addresses. -/
def Segment.Between (s : Segment) (lowest highest : ℕ) : Prop :=
  lowest ≤ s.physicalAddress.toNat ∧ s.physicalAddress.toNat + s.memorySize.toNat ≤ highest

/-- A plan that is what the file says. -/
structure ElfPlan.Sound (bytes : List (BitVec 8)) (h : FileHeader) (allowed : AddressRange)
    (plan : ElfPlan) : Prop where
  segments_eq : plan.segments = loadedSegments (programHeaders bytes h)
  placed : ∀ p ∈ programHeaders bytes h, p.Loads → p.segment.Placed bytes allowed
  entry_eq : plan.image.entryPoint = h.entry
  entry : Within allowed plan.image.entryPoint.toNat 2
  tohost_eq : valueOf tohostName (symbols bytes h) = some plan.image.tohostAddress
  tohost : Within allowed plan.image.tohostAddress.toNat 8
  covered : ∀ s ∈ plan.segments, s.Between plan.image.lowestLoadedAddress.toNat
    plan.image.highestLoadedAddressExclusive.toNat

theorem segments_foldl_push (segments : List Segment) (table : SegmentTable) :
    (segments.foldl .push table).segments = table.segments ++ segments := by
  induction segments generalizing table with
  | nil => rw [List.foldl_nil, List.append_nil]
  | cons s segments ih => rw [List.foldl_cons, ih, SegmentTable.push, List.append_assoc]; rfl

/-- The two addresses of a table only move apart, and enclose what is pushed. -/
theorem between_foldl_push (segments : List Segment)
    (hfits : ∀ s ∈ segments, s.physicalAddress.toNat + s.memorySize.toNat < 2 ^ 64)
    (table : SegmentTable) :
    let t := segments.foldl .push table
    t.lowest.toNat ≤ table.lowest.toNat ∧ table.highest.toNat ≤ t.highest.toNat ∧
      ∀ s ∈ segments, s.Between t.lowest.toNat t.highest.toNat := by
  induction segments generalizing table with
  | nil => exact ⟨Nat.le_refl _, Nat.le_refl _, fun s hs ↦ by cases hs⟩
  | cons s segments ih =>
    obtain ⟨hs, hrest⟩ := List.forall_mem_cons.1 hfits
    obtain ⟨hlowest, hhighest, hbetween⟩ := ih hrest (table.push s)
    have hpush : (table.push s).lowest.toNat ≤ table.lowest.toNat ∧
        table.highest.toNat ≤ (table.push s).highest.toNat ∧
        s.Between (table.push s).lowest.toNat (table.push s).highest.toNat := by
      have hsum := toNat_add_of_lt hs
      simp only [SegmentTable.push, Segment.Between, BitVec.lt_def]
      split_ifs <;> omega
    obtain ⟨hlowest', hhighest', hfirst⟩ := hpush
    refine ⟨Nat.le_trans hlowest hlowest', Nat.le_trans hhighest' hhighest, ?_⟩
    exact List.forall_mem_cons.2
      ⟨⟨Nat.le_trans hlowest hfirst.1, Nat.le_trans hfirst.2 hhighest⟩, hbetween⟩

theorem forall_loadedSegments {headers : List ProgramHeader} {P : Segment → Prop}
    (h : ∀ p ∈ headers, p.Loads → P p.segment) : ∀ s ∈ loadedSegments headers, P s := by
  intro s hs
  obtain ⟨p, hp, rfl⟩ := List.mem_map.1 hs
  obtain ⟨hmem, hloads⟩ := List.mem_filter.1 hp
  exact h p hmem (of_decide_eq_true hloads)

theorem checkTables_eq {bytes : List (BitVec 8)} {h : FileHeader} (hfit : TablesFit bytes h)
    (allowed : AddressRange) :
    ∃ r, checkTables bytes allowed h = some r ∧
      ∀ plan, r = .ok plan → plan.Sound bytes h allowed := by
  obtain ⟨r, hr, hread⟩ := readSegments_eq hfit allowed (Nat.zero_add _) {}
  rw [← List.range_eq_range'] at hread
  rw [checkTables, hr, findTohostSymbol_eq hfit]
  cases r with
  | error message => exact ⟨.error message, rfl, fun _ h ↦ by cases h⟩
  | ok table =>
  obtain ⟨htable, hplaced⟩ := hread table rfl
  by_cases hbad : table.segments.isEmpty || !allowed.containsSpan h.entry 2#64
  case pos => exact ⟨.error _, if_pos hbad, fun _ h ↦ by cases h⟩
  cases htohost : valueOf tohostName (symbols bytes h) with
  | none => exact ⟨.error _, if_neg hbad, fun _ h ↦ by cases h⟩
  | some tohost =>
  by_cases hspan : allowed.containsSpan tohost 8#64 = true
  case neg =>
    exact ⟨.error _, (if_neg hbad).trans (if_pos (by simpa using hspan)), fun _ h ↦ by cases h⟩
  refine ⟨.ok _, (if_neg hbad).trans (if_neg (by simpa using hspan)), ?_⟩
  rintro plan ⟨⟩
  rw [Bool.or_eq_true, not_or, Bool.not_eq_true', Bool.not_eq_false] at hbad
  have hsegments : table.segments = loadedSegments (programHeaders bytes h) := by
    rw [htable, segments_foldl_push]
    rfl
  have hfits : ∀ s ∈ loadedSegments (programHeaders bytes h),
      s.physicalAddress.toNat + s.memorySize.toNat < 2 ^ 64 :=
    forall_loadedSegments fun p hp hloads ↦
      Nat.lt_of_le_of_lt (hplaced p hp hloads).inside.2 allowed.fits
  exact
    { segments_eq := hsegments
      placed := hplaced
      entry_eq := rfl
      entry := (allowed.containsSpan_iff_of_pos h.entry (show 0 < (2#64).toNat by decide)).1 hbad.2
      tohost_eq := htohost
      tohost := (allowed.containsSpan_iff_of_pos tohost (show 0 < (8#64).toNat by decide)).1 hspan
      covered := by
        show ∀ s ∈ table.segments, s.Between table.lowest.toNat table.highest.toNat
        rw [hsegments, htable]
        exact (between_foldl_push _ hfits _).2.2 }

theorem mapM_byteAt {bytes : List (BitVec 8)} (indices : List (BitVec 64))
    (h : ∀ i ∈ indices, i.toNat < bytes.length) :
    indices.mapM (byteAt bytes) = some (indices.map fun i ↦ bytes.getD i.toNat 0#8) := by
  induction indices with
  | nil => rfl
  | cons i indices ih =>
    obtain ⟨hi, hrest⟩ := List.forall_mem_cons.1 h
    rw [List.mapM_cons, ih hrest, byteAt, List.getElem?_eq_getElem hi, List.map_cons,
      List.getD_eq_getElem _ _ hi]
    rfl

/-- The checks end and index nothing outside the file, and a plan they return is sound. -/
theorem checkElf_eq {bytes : List (BitVec 8)} (hsize : bytes.length < 2 ^ 64)
    (allowed : AddressRange) :
    ∃ r, checkElf bytes allowed = some r ∧
      ∀ plan, r = .ok plan → plan.Sound bytes (fileHeader bytes) allowed := by
  have herror (message : String) (plan : ElfPlan)
      (h : (.error message : Except String ElfPlan) = .ok plan) :
      plan.Sound bytes (fileHeader bytes) allowed := by cases h
  rw [checkElf]
  by_cases hlength : bytes.length < headerSize
  case pos => exact ⟨.error _, if_pos hlength, herror _⟩
  rw [if_neg hlength]
  rw [headerSize, Nat.not_lt] at hlength
  have hread (indices : List (BitVec 64)) (h : ∀ i ∈ indices, i.toNat < 64) :=
    mapM_byteAt indices fun i hi ↦ Nat.lt_of_lt_of_le (h i hi) hlength
  rw [hread [0#64, 1#64, 2#64, 3#64] (by simp), hread [4#64, 5#64, 6#64] (by simp),
    readFileHeader_eq hsize hlength]
  by_cases hmagic : [0#64, 1#64, 2#64, 3#64].map (fun i ↦ bytes.getD i.toNat 0#8) ≠
      [0x7F#8, 0x45#8, 0x4C#8, 0x46#8]
  case pos => exact ⟨.error _, if_pos hmagic, herror _⟩
  by_cases hclass : [4#64, 5#64, 6#64].map (fun i ↦ bytes.getD i.toNat 0#8) ≠ [2#8, 1#8, 1#8]
  case pos => exact ⟨.error _, (if_neg hmagic).trans (if_pos hclass), herror _⟩
  cases hsupported : (fileHeader bytes).supported with
  | false =>
    exact ⟨.error _, (if_neg hmagic).trans ((if_neg hclass).trans (if_pos (by simp [hsupported]))),
      herror _⟩
  | true =>
  cases htables : (fileHeader bytes).tablesFit (size bytes) with
  | false =>
    exact ⟨.error _, (if_neg hmagic).trans ((if_neg hclass).trans
      ((if_neg (by simp [hsupported])).trans (if_pos (by simp [htables])))), herror _⟩
  | true =>
  obtain ⟨r, hr, hsound⟩ := checkTables_eq (tablesFit_of_checks hsize hsupported htables) allowed
  refine ⟨r, ?_, hsound⟩
  exact (if_neg hmagic).trans ((if_neg hclass).trans ((if_neg (by simp [hsupported])).trans
    ((if_neg (by simp [htables])).trans hr)))

/-! ## The writes of a segment -/

/-- The bytes of a value that was made of a piece of a list are that piece. -/
theorem map_splitByte_composeBytes {xs : List (BitVec 8)} {offset n : ℕ} (hn : n ≤ 8)
    (h : offset + n ≤ xs.length) :
    (List.range n).map (splitByte (composeBytes (fun i ↦ xs.getD (offset + i) 0#8) n)) =
      (xs.drop offset).take n := by
  apply List.ext_getElem
  · rw [List.length_map, List.length_range, List.length_take, List.length_drop]
    omega
  · intro i hi hi'
    rw [List.length_map, List.length_range] at hi
    rw [List.getElem_map, List.getElem_range, splitByte_composeBytes _ hn hi, List.getElem_take,
      List.getElem_drop, List.getD_eq_getElem _ _ (by omega)]

section Segment

variable {bytes : List (BitVec 8)} (hsize : bytes.length < 2 ^ 64) {allowed : AddressRange}
  {s : Segment} (hplaced : s.Placed bytes allowed)

theorem widthInBytes_bestWidth_le (remaining : BitVec 64) (hpos : 0 < remaining.toNat) :
    widthInBytes (bestWidth remaining) ≤ remaining.toNat := by
  simp only [bestWidth, BitVec.le_def]
  split_ifs with h₈ h₄ h₂
  · exact h₈
  · exact h₄
  · exact h₂
  · exact hpos

include hplaced

theorem Segment.Placed.length_contents : (s.contents bytes).length = s.memorySize.toNat := by
  have h₁ := hplaced.inFile
  have h₂ := hplaced.fileSize_le
  rw [contents, List.length_append, List.length_take, List.length_drop, List.length_replicate]
  omega

theorem Segment.Placed.getD_contents (i : ℕ) : (s.contents bytes).getD i 0#8 =
    if i < s.fileSize.toNat then bytes.getD (s.fileOffset.toNat + i) 0#8 else 0#8 := by
  have h₁ := hplaced.inFile
  have hdata : ((bytes.drop s.fileOffset.toNat).take s.fileSize.toNat).length =
      s.fileSize.toNat := by
    rw [List.length_take, List.length_drop]
    omega
  rw [contents]
  split
  · next hi =>
    rw [List.getD_append _ _ _ _ (by omega), List.getD_eq_getElem?_getD, List.getElem?_take,
      if_pos hi,
      List.getElem?_drop, ← List.getD_eq_getElem?_getD]
  · next hi =>
    rw [List.getD_append_right _ _ _ _ (by omega), List.getD_eq_getElem?_getD,
      List.getElem?_replicate]
    split <;> rfl

include hsize

/-- The value of a write is made of the next bytes of the contents, at the end of the file's data
too. -/
theorem segmentValue_eq {completed : BitVec 64} {n : ℕ}
    (hn : completed.toNat + n ≤ s.memorySize.toNat) :
    segmentValue bytes s completed n =
      some (composeBytes (fun i ↦ (s.contents bytes).getD (completed.toNat + i) 0#8) n) := by
  induction n with
  | zero => rfl
  | succ n ih =>
    have hlt := s.memorySize.isLt
    have hin := hplaced.inFile
    have hoffset : (completed + BitVec.ofNat 64 n).toNat = completed.toNat + n := by
      rw [toNat_add_of_lt (by rw [toNat_ofNat_of_lt (by omega)]; omega),
        toNat_ofNat_of_lt (by omega)]
    rw [segmentValue, ih (by omega), composeBytes, hplaced.getD_contents]
    show (if completed + BitVec.ofNat 64 n < s.fileSize then _ else _) = _
    by_cases hdata : completed.toNat + n < s.fileSize.toNat
    · have hsource := @toNat_add_of_lt s.fileOffset (completed + BitVec.ofNat 64 n) (by omega)
      rw [if_pos (by rwa [BitVec.lt_def, hoffset]), if_pos hdata, byteAt, hsource, hoffset,
        List.getElem?_eq_getElem (by omega), List.getD_eq_getElem _ _ (by omega)]
      rfl
    · rw [if_neg (by rwa [BitVec.lt_def, hoffset]), if_neg hdata]
      simp

/-- The loop of `write_segment` ends, and loads what is left of the contents. -/
theorem writeSegmentFrom_eq {n : ℕ} {completed : BitVec 64} {bus : Bus}
    (hram : bus.InRam s.physicalAddress.toNat s.memorySize.toNat)
    (hcompleted : completed.toNat ≤ s.memorySize.toNat)
    (hn : s.memorySize.toNat ≤ completed.toNat + n) :
    ∃ bus', writeSegmentFrom bytes s n completed bus = some (none, bus') ∧
      Bus.Loaded bus bus' (s.physicalAddress.toNat + completed.toNat)
        ((s.contents bytes).drop completed.toNat) := by
  induction n generalizing completed bus with
  | zero =>
    refine ⟨bus, if_neg (by rw [BitVec.lt_def]; omega), ?_⟩
    rw [List.drop_eq_nil_of_le (by rw [hplaced.length_contents]; omega)]
    exact .nil _ _
  | succ n ih =>
    by_cases hlt : completed < s.memorySize
    case neg =>
      refine ⟨bus, if_neg hlt, ?_⟩
      rw [BitVec.lt_def] at hlt
      rw [List.drop_eq_nil_of_le (by rw [hplaced.length_contents]; omega)]
      exact .nil _ _
    rw [BitVec.lt_def] at hlt
    have hremaining : (s.memorySize - completed).toNat = s.memorySize.toNat - completed.toNat :=
      BitVec.toNat_sub_of_le (by rw [BitVec.le_def]; omega)
    have hwidth := widthInBytes_bestWidth_le (s.memorySize - completed) (by omega)
    have hpos := widthInBytes_pos (bestWidth (s.memorySize - completed))
    have hle := widthInBytes_le (bestWidth (s.memorySize - completed))
    have hram_lt := hram.lt
    rw [hremaining] at hwidth
    rw [writeSegmentFrom, if_pos (by rwa [BitVec.lt_def])]
    generalize bestWidth (s.memorySize - completed) = width at hwidth hpos hle ⊢
    have haddress : (s.physicalAddress + completed).toNat =
        s.physicalAddress.toNat + completed.toNat := toNat_add_of_lt (by omega)
    have hnext : (completed + BitVec.ofNat 64 (widthInBytes width)).toNat =
        completed.toNat + widthInBytes width := by
      rw [toNat_add_of_lt (by rw [toNat_widthInBytes]; omega), toNat_widthInBytes]
    have hin : bus.InRam (s.physicalAddress + completed).toNat (widthInBytes width) :=
      hram.sub (by omega) (by omega)
    obtain ⟨hok, hloaded⟩ := hin.loaded
      (composeBytes (fun i ↦ (s.contents bytes).getD (completed.toNat + i) 0#8)
        (widthInBytes width))
      .initialization
    have hlength := hplaced.length_contents
    rw [map_splitByte_composeBytes hle (by omega), haddress] at hloaded
    have hdone : ((s.contents bytes).drop completed.toNat).take (widthInBytes width) ++
        (s.contents bytes).drop (completed.toNat + widthInBytes width) =
          (s.contents bytes).drop completed.toNat := by
      rw [← List.drop_drop, List.take_append_drop]
    have htake : (((s.contents bytes).drop completed.toNat).take (widthInBytes width)).length =
        widthInBytes width := by
      rw [List.length_take, List.length_drop]
      omega
    obtain ⟨bus', hrest, hloaded'⟩ := @ih (completed + BitVec.ofNat 64 (widthInBytes width)) _
      (hloaded.inRam hram) (by omega) (by omega)
    rw [hnext, ← Nat.add_assoc] at hloaded'
    refine ⟨bus', ?_, ?_⟩
    · have hvalue : segmentValue bytes s completed (widthInBytes width) = some _ :=
        segmentValue_eq hsize hplaced (by omega)
      dsimp only
      rw [hvalue]
      show (if !(bus.write _ _ _ _).1.ok then _ else _) = _
      rw [hok, if_neg (by decide)]
      exact hrest
    · rw [← hdone]
      exact hloaded.append (by rwa [htake])

theorem writeSegment_eq {bus : Bus} (hram : bus.InRam s.physicalAddress.toNat s.memorySize.toNat) :
    ∃ bus', writeSegment bytes s bus = some (none, bus') ∧
      Bus.Loaded bus bus' s.physicalAddress.toNat (s.contents bytes) :=
  writeSegmentFrom_eq hsize hplaced hram (Nat.zero_le _) (Nat.le_add_left _ _)

end Segment

/-! ## The writes of all segments -/

/-- RAM with the contents of a segment over it. -/
def overlay (bytes : List (BitVec 8)) (ram : ℕ → Option (BitVec 8)) (s : Segment) :
    ℕ → Option (BitVec 8) := fun x ↦
  if s.physicalAddress.toNat ≤ x ∧ x < s.physicalAddress.toNat + s.memorySize.toNat then
    some ((s.contents bytes).getD (x - s.physicalAddress.toNat) 0#8)
  else ram x

theorem writeSegments_eq {bytes : List (BitVec 8)} (hsize : bytes.length < 2 ^ 64)
    {allowed : AddressRange} (segments : List Segment)
    (hplaced : ∀ s ∈ segments, s.Placed bytes allowed) {bus : Bus}
    (hram : bus.InRam allowed.base.toNat allowed.size.toNat) :
    ∃ bus', writeSegments bytes segments bus = some (none, bus') ∧
      bus'.ramByte = segments.foldl (overlay bytes) bus.ramByte ∧ bus'.devices = bus.devices := by
  induction segments generalizing bus with
  | nil => exact ⟨bus, rfl, rfl, rfl⟩
  | cons s segments ih =>
    obtain ⟨hs, hrest⟩ := List.forall_mem_cons.1 hplaced
    obtain ⟨bus₁, hwrite, hloaded⟩ := writeSegment_eq hsize hs (hram.sub hs.inside.1 hs.inside.2)
    obtain ⟨bus', hwrites, hbytes, hdevices⟩ := ih hrest (hloaded.inRam hram)
    have hoverlay : bus₁.ramByte = overlay bytes bus.ramByte s := by
      funext x
      rw [hloaded.ramByte_eq, hs.length_contents, overlay]
    refine ⟨bus', ?_, ?_, hdevices.trans hloaded.devices_eq⟩
    · rw [writeSegments, hwrite]
      exact hwrites
    · rw [hbytes, hoverlay, List.foldl_cons]

/-! ## Loading -/

/-- What a successful load leaves behind: the segments that take memory lie in the range, RAM is
overlaid with them in the order of their headers, and the two addresses are those of the file. -/
structure ElfLoaded (bytes : List (BitVec 8)) (allowed : AddressRange) (bus bus' : Bus)
    (image : LoadedElf) : Prop where
  placed : ∀ p ∈ programHeaders bytes (fileHeader bytes), p.Loads → p.segment.Placed bytes allowed
  ramByte_eq : bus'.ramByte =
    (loadedSegments (programHeaders bytes (fileHeader bytes))).foldl (overlay bytes) bus.ramByte
  devices_eq : bus'.devices = bus.devices
  entry_eq : image.entryPoint = (fileHeader bytes).entry
  entry : Within allowed image.entryPoint.toNat 2
  tohost_eq : valueOf tohostName (symbols bytes (fileHeader bytes)) = some image.tohostAddress
  tohost : Within allowed image.tohostAddress.toNat 8
  covered : ∀ s ∈ loadedSegments (programHeaders bytes (fileHeader bytes)),
    s.Between image.lowestLoadedAddress.toNat image.highestLoadedAddressExclusive.toNat

/-- **ELF loader safety and exactness.** With the allowed range in RAM, the loader ends and indexes
nothing outside the file.  If it fails, it does so on every bus and leaves the bus alone; if it
succeeds, it has loaded what the file says. -/
theorem loadElf64Riscv_exact (file : HostFile) (path : String) (bus : Bus) (allowed : AddressRange)
    (hram : bus.InRam allowed.base.toNat allowed.size.toNat) :
    ∃ result bus', loadElf64Riscv file path bus allowed = some (result, bus') ∧
      (result.image = none → ∀ b, loadElf64Riscv file path b allowed = some (result, b)) ∧
      ∀ image, result.image = some image → ∃ bytes fits, file = .contents bytes fits ∧
        ElfLoaded bytes allowed bus bus' image := by
  have hfailure (message : String)
      (h : ∀ b, loadElf64Riscv file path b allowed = some (.failure message, b)) :
      ∃ result bus', loadElf64Riscv file path bus allowed = some (result, bus') ∧
        (result.image = none → ∀ b, loadElf64Riscv file path b allowed = some (result, b)) ∧
        ∀ image, result.image = some image → ∃ bytes fits, file = .contents bytes fits ∧
          ElfLoaded bytes allowed bus bus' image :=
    ⟨_, _, h bus, fun _ ↦ h, fun _ himage ↦ by cases himage⟩
  cases file with
  | cannotOpen => exact hfailure _ fun _ ↦ rfl
  | contents bytes fits =>
  obtain ⟨r, hcheck, hsound⟩ := checkElf_eq fits allowed
  cases r with
  | error message => exact hfailure message fun b ↦ by rw [loadElf64Riscv, hcheck]; rfl
  | ok plan =>
  have hplan := hsound plan rfl
  have hplaced : ∀ s ∈ plan.segments, s.Placed bytes allowed := by
    rw [hplan.segments_eq]
    exact forall_loadedSegments hplan.placed
  obtain ⟨bus', hwrites, hbytes, hdevices⟩ := writeSegments_eq fits plan.segments hplaced hram
  refine ⟨.success plan.image, bus', ?_, fun h ↦ (by cases h), ?_⟩
  · rw [loadElf64Riscv, hcheck]
    show (writeSegments bytes plan.segments bus >>= _) = _
    rw [hwrites]
    rfl
  rintro image ⟨⟩
  exact ⟨bytes, fits, rfl,
    { placed := hplan.placed
      ramByte_eq := by rw [hbytes, hplan.segments_eq]
      devices_eq := hdevices
      entry_eq := hplan.entry_eq
      entry := hplan.entry
      tohost_eq := hplan.tohost_eq
      tohost := hplan.tohost
      covered := by
        rw [← hplan.segments_eq]
        exact hplan.covered }⟩

/-! ## A small file

A segment of four bytes of data in eight of memory, a string table, and a symbol table with one
symbol; a header of 64 bytes, one of 56 and two of 64 come before them. -/

def littleEndian (width : ℕ) (v : BitVec 64) : List (BitVec 8) :=
  (List.range width).map (splitByte v)

def smallFile : List (BitVec 8) :=
  [0x7F#8, 0x45#8, 0x4C#8, 0x46#8, 2#8, 1#8, 1#8] ++ List.replicate 9 0#8 ++
  littleEndian 2 2#64 ++ littleEndian 2 243#64 ++ littleEndian 4 1#64 ++
  littleEndian 8 0x1000#64 ++ littleEndian 8 64#64 ++ littleEndian 8 120#64 ++
  littleEndian 4 0#64 ++ littleEndian 2 64#64 ++ littleEndian 2 56#64 ++ littleEndian 2 1#64 ++
  littleEndian 2 64#64 ++ littleEndian 2 2#64 ++ littleEndian 2 0#64 ++
  -- the program header
  littleEndian 4 1#64 ++ littleEndian 4 5#64 ++ littleEndian 8 280#64 ++ littleEndian 8 0x1000#64 ++
  littleEndian 8 0#64 ++ littleEndian 8 4#64 ++ littleEndian 8 8#64 ++ littleEndian 8 4#64 ++
  -- the header of the string table, and that of the symbols, which links to it
  littleEndian 4 0#64 ++ littleEndian 4 3#64 ++ List.replicate 16 0#8 ++ littleEndian 8 248#64 ++
  littleEndian 8 8#64 ++ List.replicate 24 0#8 ++
  littleEndian 4 0#64 ++ littleEndian 4 2#64 ++ List.replicate 16 0#8 ++ littleEndian 8 256#64 ++
  littleEndian 8 24#64 ++ List.replicate 16 0#8 ++ littleEndian 8 24#64 ++
  -- the strings, the symbol, and the data
  [0#8] ++ tohostName ++ [0#8] ++
  littleEndian 4 1#64 ++ littleEndian 4 0#64 ++ littleEndian 8 0x1008#64 ++ littleEndian 8 8#64 ++
  [0x13#8, 1#8, 2#8, 3#8]

def smallHostFile : HostFile := .contents smallFile (by decide +kernel)

def smallRange : AddressRange := ⟨0x1000#64, 16#64, AddressRange.pos_sixteen, by decide⟩

def smallBus : Bus where
  regions := [.ram
    { range := smallRange
      bytes := List.replicate 16 0xFF#8
      size_eq := List.length_replicate }]
  apart := List.pairwise_singleton _ _

theorem inRam_smallBus : smallBus.InRam smallRange.base.toNat smallRange.size.toNat :=
  ⟨_, List.mem_singleton_self _, Nat.le_refl _, Nat.le_refl _⟩

/-- The file is loaded, and its data is followed by zeros. -/
theorem loadElf64Riscv_smallFile :
    (∃ result bus', loadElf64Riscv smallHostFile "" smallBus smallRange = some (result, bus') ∧
      (result.image = none →
        ∀ b, loadElf64Riscv smallHostFile "" b smallRange = some (result, b)) ∧
      ∀ image, result.image = some image → ∃ bytes fits, smallHostFile = .contents bytes fits ∧
        ElfLoaded bytes smallRange smallBus bus' image) ∧
    (loadElf64Riscv smallHostFile "" smallBus smallRange).map
        (fun r ↦ (r.1.image.map LoadedElf.tohostAddress,
          [0x1003, 0x1004, 0x1007, 0x1008].map r.2.ramByte)) =
      some (some 0x1008#64, [some 3#8, some 0#8, some 0#8, some 0xFF#8]) :=
  ⟨loadElf64Riscv_exact _ _ _ _ inRam_smallBus, by decide +kernel⟩

end Elf

end Rvemu
