import Rvemu.Conformance.ElfLoader

/-!
# What an ELF file says

The loader reads a file by offsets that are 64-bit numbers.  Here the same file is read by offsets
that are natural numbers: its program headers are a list, its symbol tables are a list, and a symbol
is a name and a value.  In a file whose tables fit (`TablesFit`) the two readings agree, and the
loader indexes nothing outside the file.
-/

set_option autoImplicit false

namespace Rvemu

namespace Elf

open Bytes

/-! ## Words -/

/-- The little-endian word of `n` bytes at an offset. -/
def word (bytes : List (BitVec 8)) (n offset : ℕ) : BitVec 64 :=
  composeBytes (fun i ↦ bytes.getD (offset + i) 0#8) n

theorem toNat_size {bytes : List (BitVec 8)} (hsize : bytes.length < 2 ^ 64) :
    (size bytes).toNat = bytes.length := by
  rw [size, BitVec.toNat_ofNat, Nat.mod_eq_of_lt hsize]

theorem rangeFits_iff {offset length total : BitVec 64} : rangeFits offset length total = true ↔
    offset.toNat + length.toNat ≤ total.toNat := by
  rw [rangeFits, Bool.and_eq_true, decide_eq_true_iff, decide_eq_true_iff, BitVec.le_def,
    BitVec.le_def, BitVec.toNat_sub]
  have := total.isLt
  omega

theorem toNat_add_of_lt {a b : BitVec 64} (h : a.toNat + b.toNat < 2 ^ 64) :
    (a + b).toNat = a.toNat + b.toNat := by
  rw [BitVec.toNat_add, Nat.mod_eq_of_lt h]

theorem toNat_mul_of_lt {a b : BitVec 64} (h : a.toNat * b.toNat < 2 ^ 64) :
    (a * b).toNat = a.toNat * b.toNat := by
  rw [BitVec.toNat_mul, Nat.mod_eq_of_lt h]

theorem toNat_ofNat_of_lt {n : ℕ} (h : n < 2 ^ 64) : (BitVec.ofNat 64 n).toNat = n := by
  rw [BitVec.toNat_ofNat, Nat.mod_eq_of_lt h]

section Reading

variable {bytes : List (BitVec 8)} (hsize : bytes.length < 2 ^ 64)

include hsize

theorem byteAt_add {offset : BitVec 64} {i : ℕ} (h : offset.toNat + i < bytes.length) :
    byteAt bytes (offset + BitVec.ofNat 64 i) = some (bytes.getD (offset.toNat + i) 0#8) := by
  have hi : (BitVec.ofNat 64 i).toNat = i := toNat_ofNat_of_lt (by omega)
  rw [byteAt, toNat_add_of_lt (by omega), hi, List.getElem?_eq_getElem h,
    List.getD_eq_getElem _ _ h]

theorem readBytes_eq {offset : BitVec 64} {n : ℕ} (h : offset.toNat + n ≤ bytes.length) :
    readBytes bytes offset n = some (word bytes n offset.toNat) := by
  induction n with
  | zero => rfl
  | succ n ih =>
    rw [readBytes, ih (by omega), byteAt_add hsize (by omega)]
    rfl

/-- Reading never leaves the file: it has no result when the word is not inside. -/
theorem readLittleEndian_eq {offset : BitVec 64} {width : ℕ} (hwidth : width ≤ 8) :
    readLittleEndian bytes width offset =
      some (if offset.toNat + width ≤ bytes.length then some (word bytes width offset.toNat)
        else none) := by
  have hfits : rangeFits offset (BitVec.ofNat 64 width) (size bytes) = true ↔
      offset.toNat + width ≤ bytes.length := by
    rw [rangeFits_iff, toNat_size hsize, toNat_ofNat_of_lt (by omega)]
  rw [readLittleEndian]
  by_cases h : offset.toNat + width ≤ bytes.length
  · rw [if_neg (by simp [hfits.2 h]), readBytes_eq hsize h, if_pos h]
    rfl
  · rw [eq_false_of_ne_true (mt hfits.1 h), if_pos (by simp), if_neg h]
    rfl

/-- A word of a header that starts at `base` in the file. -/
theorem readLittleEndian_field {header : BitVec 64} {base length : ℕ} (width : ℕ)
    (field : BitVec 64) (hwidth : width ≤ 8) (hbase : header.toNat = base)
    (hin : base + length ≤ bytes.length)
    (hfield : field.toNat + width ≤ length) :
    readLittleEndian bytes width (header + field) =
      some (some (word bytes width (base + field.toNat))) := by
  rw [readLittleEndian_eq hsize hwidth, toNat_add_of_lt (by omega), hbase, if_pos (by omega)]

end Reading

/-- An entry of a table that fits is where it should be: nothing wraps. -/
theorem toNat_entry {offset index entrySize : BitVec 64} {count total : ℕ}
    (hfits : offset.toNat + count * entrySize.toNat ≤ total) (htotal : total < 2 ^ 64)
    (hindex : index.toNat < count) :
    (offset + index * entrySize).toNat = offset.toNat + index.toNat * entrySize.toNat ∧
      offset.toNat + index.toNat * entrySize.toNat + entrySize.toNat ≤ total := by
  have hle : index.toNat * entrySize.toNat + entrySize.toNat ≤ count * entrySize.toNat := by
    rw [← Nat.succ_mul]
    exact Nat.mul_le_mul_right _ hindex
  have hmul := @toNat_mul_of_lt index entrySize (by omega)
  refine ⟨?_, by omega⟩
  rw [toNat_add_of_lt (by rw [hmul]; omega), hmul]

/-! ## The file header -/

/-- The fields of the file header, at their offsets. -/
def fileHeader (bytes : List (BitVec 8)) : FileHeader where
  machine := word bytes 2 18
  elfVersion := word bytes 4 20
  entry := word bytes 8 24
  programOffset := word bytes 8 32
  sectionOffset := word bytes 8 40
  elfHeaderSize := word bytes 2 52
  programEntrySize := word bytes 2 54
  programCount := word bytes 2 56
  sectionEntrySize := word bytes 2 58
  sectionCount := word bytes 2 60

theorem readFileHeader_eq {bytes : List (BitVec 8)} (hsize : bytes.length < 2 ^ 64)
    (hlength : headerSize ≤ bytes.length) :
    readFileHeader bytes = some (some (fileHeader bytes)) := by
  have hread (width : ℕ) (offset : BitVec 64) (hwidth : width ≤ 8) (h : offset.toNat + width ≤ 64) :
      readLittleEndian bytes width offset = some (some (word bytes width offset.toNat)) := by
    rw [headerSize] at hlength
    rw [readLittleEndian_eq hsize hwidth, if_pos (by omega)]
  rw [readFileHeader, hread 2 18#64 (by decide) (by decide), hread 4 20#64 (by decide) (by decide),
    hread 8 24#64 (by decide) (by decide), hread 8 32#64 (by decide) (by decide),
    hread 8 40#64 (by decide) (by decide), hread 2 52#64 (by decide) (by decide),
    hread 2 54#64 (by decide) (by decide), hread 2 56#64 (by decide) (by decide),
    hread 2 58#64 (by decide) (by decide), hread 2 60#64 (by decide) (by decide)]
  rfl

/-- Both header tables lie in the file, and their entries are long enough. -/
structure TablesFit (bytes : List (BitVec 8)) (h : FileHeader) : Prop where
  size : bytes.length < 2 ^ 64
  programs : h.programOffset.toNat + h.programCount.toNat * h.programEntrySize.toNat ≤ bytes.length
  programEntry : 56 ≤ h.programEntrySize.toNat
  sections : h.sectionOffset.toNat + h.sectionCount.toNat * h.sectionEntrySize.toNat ≤ bytes.length
  sectionEntry : 64 ≤ h.sectionEntrySize.toNat

/-- A table that was checked by a division does not wrap. -/
theorem fits_of_division {offset count entrySize total : BitVec 64}
    (hcount : ¬ count > total / entrySize)
    (hfits : rangeFits offset (count * entrySize) total = true) :
    offset.toNat + count.toNat * entrySize.toNat ≤ total.toNat := by
  rw [gt_iff_lt, BitVec.lt_def, BitVec.toNat_udiv, Nat.not_lt] at hcount
  have hmul : count.toNat * entrySize.toNat ≤ total.toNat :=
    Nat.le_trans (Nat.mul_le_mul_right _ hcount) (Nat.div_mul_le_self _ _)
  have htotal := total.isLt
  rw [rangeFits_iff, toNat_mul_of_lt (by omega)] at hfits
  exact hfits

theorem tablesFit_of_checks {bytes : List (BitVec 8)} (hsize : bytes.length < 2 ^ 64)
    {h : FileHeader} (hsupported : h.supported = true) (hfit : h.tablesFit (size bytes) = true) :
    TablesFit bytes h := by
  simp only [FileHeader.supported, Bool.not_eq_true', Bool.or_eq_false_iff,
    decide_eq_false_iff_not] at hsupported
  simp only [FileHeader.tablesFit, Bool.not_eq_true', Bool.or_eq_false_iff,
    Bool.not_eq_false', decide_eq_false_iff_not] at hfit
  obtain ⟨⟨⟨⟨-, hprogram⟩, hsection⟩, -⟩, -⟩ := hsupported
  obtain ⟨⟨⟨hpc, hpf⟩, hsc⟩, hsf⟩ := hfit
  have hprograms := fits_of_division hpc hpf
  have hsections := fits_of_division hsc hsf
  rw [toNat_size hsize] at hprograms hsections
  exact
    { size := hsize
      programs := hprograms
      programEntry := Nat.not_lt.1 hprogram
      sections := hsections
      sectionEntry := Nat.not_lt.1 hsection }

/-! ## The program headers -/

structure ProgramHeader where
  type : BitVec 64
  fileOffset : BitVec 64
  virtualAddress : BitVec 64
  physicalAddress : BitVec 64
  fileSize : BitVec 64
  memorySize : BitVec 64
  deriving DecidableEq, Repr

namespace ProgramHeader

/-- The header at an offset of the file. -/
def read (bytes : List (BitVec 8)) (offset : ℕ) : ProgramHeader where
  type := word bytes 4 offset
  fileOffset := word bytes 8 (offset + 8)
  virtualAddress := word bytes 8 (offset + 16)
  physicalAddress := word bytes 8 (offset + 24)
  fileSize := word bytes 8 (offset + 32)
  memorySize := word bytes 8 (offset + 40)

/-- A loadable header that takes memory. -/
def Loads (p : ProgramHeader) : Prop := p.type = loadSegment ∧ p.memorySize ≠ 0#64

instance (p : ProgramHeader) : Decidable p.Loads := inferInstanceAs (Decidable (_ ∧ _))

def segment (p : ProgramHeader) : Segment where
  fileOffset := p.fileOffset
  physicalAddress := if p.physicalAddress = 0#64 then p.virtualAddress else p.physicalAddress
  fileSize := p.fileSize
  memorySize := p.memorySize

end ProgramHeader

/-- The program headers in their order. -/
def programHeaders (bytes : List (BitVec 8)) (h : FileHeader) : List ProgramHeader :=
  (List.range h.programCount.toNat).map fun i ↦
    .read bytes (h.programOffset.toNat + i * h.programEntrySize.toNat)

/-- The segments that are to be loaded, in the order of their headers. -/
def loadedSegments (headers : List ProgramHeader) : List Segment :=
  (headers.filter fun p ↦ decide p.Loads).map ProgramHeader.segment

theorem loadedSegments_append (ps qs : List ProgramHeader) :
    loadedSegments (ps ++ qs) = loadedSegments ps ++ loadedSegments qs := by
  rw [loadedSegments, List.filter_append, List.map_append]
  rfl

/-- The bytes of a segment in memory: those of the file, and zeros behind them. -/
def Segment.contents (bytes : List (BitVec 8)) (s : Segment) : List (BitVec 8) :=
  (bytes.drop s.fileOffset.toNat).take s.fileSize.toNat ++
    List.replicate (s.memorySize.toNat - s.fileSize.toNat) 0#8

/-! ## The symbols -/

structure SectionHeader where
  type : BitVec 64
  offset : BitVec 64
  size : BitVec 64
  link : BitVec 64
  entrySize : BitVec 64
  deriving DecidableEq, Repr

/-- The header at an offset of the file. -/
def SectionHeader.read (bytes : List (BitVec 8)) (offset : ℕ) : SectionHeader where
  type := word bytes 4 (offset + 4)
  offset := word bytes 8 (offset + 24)
  size := word bytes 8 (offset + 32)
  link := word bytes 4 (offset + 40)
  entrySize := word bytes 8 (offset + 56)

/-- The header of a section. -/
def sectionHeader (bytes : List (BitVec 8)) (h : FileHeader) (i : ℕ) : SectionHeader :=
  .read bytes (h.sectionOffset.toNat + i * h.sectionEntrySize.toNat)

/-- A symbol table and the string table it links to. -/
structure SymbolTable where
  symbols : SectionHeader
  strings : SectionHeader
  deriving DecidableEq, Repr

namespace SymbolTable

/-- Both tables lie in the file, and the entries of the first are long enough. -/
def InFile (bytes : List (BitVec 8)) (t : SymbolTable) : Prop :=
  24 ≤ t.symbols.entrySize.toNat ∧
    t.symbols.offset.toNat + t.symbols.size.toNat ≤ bytes.length ∧
    t.strings.offset.toNat + t.strings.size.toNat ≤ bytes.length

instance (bytes : List (BitVec 8)) (t : SymbolTable) : Decidable (t.InFile bytes) :=
  inferInstanceAs (Decidable (_ ∧ _))

def count (t : SymbolTable) : ℕ := t.symbols.size.toNat / t.symbols.entrySize.toNat

/-- The offset of a symbol in the file. -/
def symbolOffset (t : SymbolTable) (i : ℕ) : ℕ :=
  t.symbols.offset.toNat + i * t.symbols.entrySize.toNat

/-- The string at an offset of the string table: it ends at a zero or with the table. -/
def string (bytes : List (BitVec 8)) (t : SymbolTable) (offset : ℕ) : List (BitVec 8) :=
  ((bytes.drop (t.strings.offset.toNat + offset)).take
    (t.strings.size.toNat - offset)).takeWhile (· ≠ 0#8)

/-- The name and the value of a symbol, if its name lies in the string table. -/
def symbol (bytes : List (BitVec 8)) (t : SymbolTable) (i : ℕ) :
    Option (List (BitVec 8) × BitVec 64) :=
  let nameOffset := (word bytes 4 (t.symbolOffset i)).toNat
  if nameOffset < t.strings.size.toNat then
    some (t.string bytes nameOffset, word bytes 8 (t.symbolOffset i + 8))
  else none

def entries (bytes : List (BitVec 8)) (t : SymbolTable) : List (List (BitVec 8) × BitVec 64) :=
  (List.range t.count).filterMap (t.symbol bytes)

end SymbolTable

/-- The symbol table of a section, if it is one and its tables are in bounds. -/
def symbolTableAt (bytes : List (BitVec 8)) (h : FileHeader) (i : ℕ) : Option SymbolTable :=
  let symbols := sectionHeader bytes h i
  let table : SymbolTable := { symbols, strings := sectionHeader bytes h symbols.link.toNat }
  if (symbols.type = symbolTable ∨ symbols.type = dynamicSymbolTable) ∧
      symbols.link.toNat < h.sectionCount.toNat ∧ table.InFile bytes then some table
  else none

/-- The symbols of all tables that are in bounds, in the order of the sections. -/
def symbols (bytes : List (BitVec 8)) (h : FileHeader) : List (List (BitVec 8) × BitVec 64) :=
  ((List.range h.sectionCount.toNat).filterMap (symbolTableAt bytes h)).flatMap
    (SymbolTable.entries bytes)

/-- The value of the first symbol with that name. -/
def valueOf (name : List (BitVec 8)) (symbols : List (List (BitVec 8) × BitVec 64)) :
    Option (BitVec 64) :=
  (symbols.find? fun s ↦ s.1 = name).map Prod.snd

theorem valueOf_append (name : List (BitVec 8)) (xs ys : List (List (BitVec 8) × BitVec 64)) :
    valueOf name (xs ++ ys) = (valueOf name xs).or (valueOf name ys) := by
  rw [valueOf, List.find?_append, Option.map_or]
  rfl

/-! ## The program headers as the loader reads them -/

/-- The range holds the `n` bytes from `address`. -/
def Within (allowed : AddressRange) (address n : ℕ) : Prop :=
  allowed.base.toNat ≤ address ∧ address + n ≤ allowed.base.toNat + allowed.size.toNat

/-- The data of the segment lies in the file, and its memory in the range. -/
structure Segment.Placed (bytes : List (BitVec 8)) (allowed : AddressRange) (s : Segment) :
    Prop where
  fileSize_le : s.fileSize.toNat ≤ s.memorySize.toNat
  inFile : s.fileOffset.toNat + s.fileSize.toNat ≤ bytes.length
  inside : Within allowed s.physicalAddress.toNat s.memorySize.toNat

/-- One turn of the loop over the program headers, for a header that has been read. -/
def ProgramHeader.check (bytes : List (BitVec 8)) (allowed : AddressRange) (p : ProgramHeader)
    (table : SegmentTable) : Except String SegmentTable :=
  if p.type ≠ loadSegment then .ok table
  else if p.memorySize < p.fileSize || !rangeFits p.fileOffset p.fileSize (size bytes) then
    .error "ELF PT_LOAD 段字段无效或文件数据越界"
  else if p.memorySize = 0#64 then .ok table
  else if !allowed.containsSpan p.segment.physicalAddress p.memorySize then
    .error "ELF PT_LOAD 段超出一致性测试 RAM 范围"
  else .ok (table.push p.segment)

theorem ProgramHeader.check_ok {bytes : List (BitVec 8)} (hsize : bytes.length < 2 ^ 64)
    {allowed : AddressRange} {p : ProgramHeader} {table table' : SegmentTable}
    (h : p.check bytes allowed table = .ok table') :
    table' = (loadedSegments [p]).foldl .push table ∧
      (p.Loads → p.segment.Placed bytes allowed) := by
  have hskip (hnot : ¬ p.Loads) : table = (loadedSegments [p]).foldl .push table ∧
      (p.Loads → p.segment.Placed bytes allowed) :=
    ⟨by simp [loadedSegments, hnot], fun hp ↦ absurd hp hnot⟩
  rw [check] at h
  split at h
  · next htype =>
    obtain rfl := Except.ok.inj h
    exact hskip fun hp ↦ htype hp.1
  next htype =>
  split at h
  · cases h
  next hfile =>
  split at h
  · next hzero =>
    obtain rfl := Except.ok.inj h
    exact hskip fun hp ↦ hp.2 hzero
  next hzero =>
  split at h
  · cases h
  next hspan =>
  obtain rfl := Except.ok.inj h
  have hp : p.Loads := ⟨not_not.1 htype, hzero⟩
  refine ⟨by simp [loadedSegments, hp], fun _ ↦ ?_⟩
  rw [Bool.not_eq_true', Bool.not_eq_false] at hspan
  simp only [Bool.or_eq_true, decide_eq_true_eq, BitVec.lt_def, Bool.not_eq_true', not_or,
    Nat.not_lt, Bool.not_eq_false, rangeFits_iff, toNat_size hsize] at hfile
  exact
    { fileSize_le := hfile.1
      inFile := hfile.2
      inside := (allowed.containsSpan_iff_of_pos _ (Nat.pos_of_ne_zero fun h ↦
        hzero (BitVec.eq_of_toNat_eq h))).1 hspan }

section Tables

variable {bytes : List (BitVec 8)} {h : FileHeader} (hfit : TablesFit bytes h)
  (allowed : AddressRange)

include hfit

theorem toNat_programHeader {i : ℕ} (hi : i < h.programCount.toNat) :
    (h.programOffset + BitVec.ofNat 64 i * h.programEntrySize).toNat =
        h.programOffset.toNat + i * h.programEntrySize.toNat ∧
      h.programOffset.toNat + i * h.programEntrySize.toNat + 56 ≤ bytes.length := by
  have hi' : (BitVec.ofNat 64 i).toNat = i :=
    toNat_ofNat_of_lt (Nat.lt_trans hi h.programCount.isLt)
  obtain ⟨heq, hle⟩ := toNat_entry hfit.programs hfit.size (by rwa [hi'])
  rw [hi'] at heq hle
  have := hfit.programEntry
  exact ⟨heq, by omega⟩

/-- The six reads of a program header that lies in the file. -/
theorem readLittleEndian_programHeader {header : BitVec 64} {base : ℕ}
    (hheader : header.toNat = base)
    (hin : base + 56 ≤ bytes.length) :
    let p := ProgramHeader.read bytes base
    readLittleEndian bytes 4 header = some (some p.type) ∧
      readLittleEndian bytes 8 (header + 8#64) = some (some p.fileOffset) ∧
      readLittleEndian bytes 8 (header + 16#64) = some (some p.virtualAddress) ∧
      readLittleEndian bytes 8 (header + 24#64) = some (some p.physicalAddress) ∧
      readLittleEndian bytes 8 (header + 32#64) = some (some p.fileSize) ∧
      readLittleEndian bytes 8 (header + 40#64) = some (some p.memorySize) := by
  have hread (width : ℕ) (field : BitVec 64) (hwidth : width ≤ 8) (h : field.toNat + width ≤ 56) :=
    readLittleEndian_field hfit.size width field hwidth hheader hin h
  have htype := hread 4 0#64 (by decide) (by decide)
  rw [BitVec.add_zero] at htype
  exact ⟨htype, hread 8 8#64 (by decide) (by decide), hread 8 16#64 (by decide) (by decide),
    hread 8 24#64 (by decide) (by decide), hread 8 32#64 (by decide) (by decide),
    hread 8 40#64 (by decide) (by decide)⟩

theorem readSegment_eq {i : ℕ} (hi : i < h.programCount.toNat) (table : SegmentTable) :
    readSegment bytes h.programOffset h.programEntrySize allowed (BitVec.ofNat 64 i) table =
      some ((ProgramHeader.read bytes
        (h.programOffset.toNat + i * h.programEntrySize.toNat)).check bytes allowed table) := by
  obtain ⟨hheader, hin⟩ := toNat_programHeader hfit hi
  obtain ⟨htype, hoffset, hvirtual, hphysical, hfile, hmemory⟩ :=
    readLittleEndian_programHeader hfit hheader hin
  rw [readSegment, htype, hoffset, hvirtual, hphysical, hfile, hmemory, ProgramHeader.check]
  generalize ProgramHeader.read bytes _ = p
  simp only [Option.pure_def, Option.bind_eq_bind, Option.bind_some, ne_eq, Option.some.injEq,
    ProgramHeader.segment]
  split_ifs <;> rfl

/-- The loop over the headers ends, and reads nothing outside the file. -/
theorem readSegments_eq {n i : ℕ} (hcount : i + n = h.programCount.toNat) (table : SegmentTable) :
    let headers := (List.range' i n).map fun i ↦ ProgramHeader.read bytes
      (h.programOffset.toNat + i * h.programEntrySize.toNat)
    ∃ r, readSegments bytes h.programOffset h.programEntrySize allowed n (BitVec.ofNat 64 i) table =
        some r ∧
      ∀ table', r = .ok table' → table' = (loadedSegments headers).foldl .push table ∧
        ∀ p ∈ headers, p.Loads → p.segment.Placed bytes allowed := by
  induction n generalizing i table with
  | zero =>
    refine ⟨.ok table, rfl, ?_⟩
    rintro table' ⟨⟩
    exact ⟨rfl, fun p hp ↦ by cases hp⟩
  | succ n ih =>
    intro headers
    rw [readSegments, readSegment_eq hfit allowed (by omega)]
    cases hcheck : (ProgramHeader.read bytes
        (h.programOffset.toNat + i * h.programEntrySize.toNat)).check bytes allowed table with
    | error message => exact ⟨.error message, rfl, fun _ h ↦ by cases h⟩
    | ok table₁ =>
      obtain ⟨htable, hplaced⟩ := ProgramHeader.check_ok hfit.size hcheck
      obtain ⟨r, hr, hrest⟩ := ih (i := i + 1) (by omega) table₁
      refine ⟨r, by rw [BitVec.ofNat_add] at hr; exact hr, fun table' h' ↦ ?_⟩
      obtain ⟨htable', hplaced'⟩ := hrest table' h'
      refine ⟨?_, List.forall_mem_cons.2 ⟨hplaced, hplaced'⟩⟩
      rw [htable', htable, ← List.foldl_append, ← loadedSegments_append]
      rfl

/-! ## The symbols as the loader reads them -/

omit hfit in
/-- A name that lies in the file is read to its end. -/
theorem readName_eq {limit : BitVec 64}
    (hlimit : limit.toNat ≤ bytes.length) {n : ℕ} {position : BitVec 64}
    (hn : position.toNat + n = limit.toNat) :
    readName bytes limit n position =
      some (((bytes.drop position.toNat).take n).takeWhile (· ≠ 0#8)) := by
  induction n generalizing position with
  | zero =>
    rw [readName, if_neg (by rw [BitVec.lt_def]; omega)]
    rfl
  | succ n ih =>
    have hlt : position.toNat < bytes.length := by omega
    have hnext : (position + 1#64).toNat = position.toNat + 1 := toNat_add_of_lt (by
      rw [BitVec.toNat_one (by decide)]; omega)
    rw [readName, if_pos (by rw [BitVec.lt_def]; omega), byteAt, List.getElem?_eq_getElem hlt,
      List.drop_eq_getElem_cons hlt, List.take_succ_cons, ih (by omega), hnext, List.takeWhile_cons]
    by_cases hzero : bytes[position.toNat] = 0#8
    · simp [hzero]
    · simp [hzero]

theorem toNat_symbol {t : SymbolTable} (ht : t.InFile bytes) {i : ℕ} (hi : i < t.count) :
    (t.symbols.offset + BitVec.ofNat 64 i * t.symbols.entrySize).toNat = t.symbolOffset i ∧
      t.symbolOffset i + 24 ≤ bytes.length := by
  obtain ⟨hentry, hsymbols, -⟩ := ht
  have hcount : t.count * t.symbols.entrySize.toNat ≤ t.symbols.size.toNat :=
    Nat.div_mul_le_self _ _
  have hle : t.count ≤ t.symbols.size.toNat := Nat.div_le_self _ _
  have hi' : (BitVec.ofNat 64 i).toNat = i :=
    toNat_ofNat_of_lt (Nat.lt_trans (Nat.lt_of_lt_of_le hi hle) t.symbols.size.isLt)
  obtain ⟨heq, hin⟩ := @toNat_entry t.symbols.offset (BitVec.ofNat 64 i) t.symbols.entrySize t.count
    bytes.length (by omega) hfit.size (by rwa [hi'])
  rw [hi'] at heq hin
  exact ⟨heq, by rw [SymbolTable.symbolOffset]; omega⟩

/-- The loop over the symbols of a table in bounds finds the first with the name. -/
theorem findSymbol_eq {t : SymbolTable} (ht : t.InFile bytes) {n i : ℕ} (hcount : i + n = t.count) :
    findSymbol bytes t.symbols.offset t.symbols.entrySize t.strings.offset t.strings.size n
        (BitVec.ofNat 64 i) =
      some (valueOf tohostName ((List.range' i n).filterMap (t.symbol bytes))) := by
  induction n generalizing i with
  | zero => rfl
  | succ n ih =>
    obtain ⟨hsymbol, hin⟩ := toNat_symbol hfit ht (i := i) (by omega)
    have hname := @readLittleEndian_eq bytes hfit.size
      (t.symbols.offset + BitVec.ofNat 64 i * t.symbols.entrySize) 4 (by decide)
    rw [hsymbol, if_pos (by omega)] at hname
    have hvalue := readLittleEndian_field hfit.size 8 8#64 (by decide) hsymbol hin (by decide)
    have hnext := ih (i := i + 1) (by omega)
    rw [BitVec.ofNat_add] at hnext
    rw [findSymbol, hname, hvalue, hnext, List.range'_succ, List.filterMap_cons, SymbolTable.symbol]
    show (if t.strings.size ≤ word bytes 4 (t.symbolOffset i) then _ else _) = _
    by_cases hlt : (word bytes 4 (t.symbolOffset i)).toNat < t.strings.size.toNat
    · obtain ⟨-, -, hstrings⟩ := ht
      have hlen := hfit.size
      have hbegin := @toNat_add_of_lt t.strings.offset (word bytes 4 (t.symbolOffset i)) (by omega)
      have hlimit := @toNat_add_of_lt t.strings.offset t.strings.size (by omega)
      have hroom : (t.strings.offset + t.strings.size -
          (t.strings.offset + word bytes 4 (t.symbolOffset i))).toNat =
            t.strings.size.toNat - (word bytes 4 (t.symbolOffset i)).toNat := by
        rw [BitVec.toNat_sub, hbegin, hlimit]
        omega
      rw [if_neg (by rw [BitVec.le_def]; omega), hroom,
        readName_eq (by rw [hlimit]; omega) (by rw [hbegin, hlimit]; omega), hbegin, if_pos hlt]
      show (if t.string bytes (word bytes 4 (t.symbolOffset i)).toNat = tohostName then _
          else _) = _
      by_cases htohost : t.string bytes (word bytes 4 (t.symbolOffset i)).toNat = tohostName
      · rw [if_pos htohost, valueOf, List.find?_cons_of_pos (by simpa using htohost)]
        rfl
      · rw [if_neg htohost, valueOf, valueOf, List.find?_cons_of_neg (by simpa using htohost)]
    · rw [if_pos (by rw [BitVec.le_def]; omega), if_neg hlt]

theorem toNat_sectionHeader {i : ℕ} (hi : i < h.sectionCount.toNat) :
    (h.sectionOffset + BitVec.ofNat 64 i * h.sectionEntrySize).toNat =
        h.sectionOffset.toNat + i * h.sectionEntrySize.toNat ∧
      h.sectionOffset.toNat + i * h.sectionEntrySize.toNat + 64 ≤ bytes.length := by
  have hi' : (BitVec.ofNat 64 i).toNat = i :=
    toNat_ofNat_of_lt (Nat.lt_trans hi h.sectionCount.isLt)
  obtain ⟨heq, hle⟩ := toNat_entry hfit.sections hfit.size (by rwa [hi'])
  rw [hi'] at heq hle
  have := hfit.sectionEntry
  exact ⟨heq, by omega⟩

/-- The reads of a section header. -/
theorem readLittleEndian_sectionHeader {index : BitVec 64}
    (hindex : index.toNat < h.sectionCount.toNat) :
    let header := h.sectionOffset + index * h.sectionEntrySize
    let s := sectionHeader bytes h index.toNat
    readLittleEndian bytes 4 (header + 4#64) = some (some s.type) ∧
      readLittleEndian bytes 8 (header + 24#64) = some (some s.offset) ∧
      readLittleEndian bytes 8 (header + 32#64) = some (some s.size) ∧
      readLittleEndian bytes 4 (header + 40#64) = some (some s.link) ∧
      readLittleEndian bytes 8 (header + 56#64) = some (some s.entrySize) := by
  obtain ⟨hheader, hin⟩ := toNat_sectionHeader hfit hindex
  rw [BitVec.ofNat_toNat, BitVec.setWidth_eq] at hheader
  have hread (width : ℕ) (field : BitVec 64) (hwidth : width ≤ 8) (h : field.toNat + width ≤ 64) :=
    readLittleEndian_field hfit.size width field hwidth hheader hin h
  exact ⟨hread 4 4#64 (by decide) (by decide), hread 8 24#64 (by decide) (by decide),
    hread 8 32#64 (by decide) (by decide), hread 4 40#64 (by decide) (by decide),
    hread 8 56#64 (by decide) (by decide)⟩

/-- One turn of the loop over the sections. -/
theorem findInSection_eq {index : BitVec 64} (hindex : index.toNat < h.sectionCount.toNat) :
    findInSection bytes h.sectionOffset h.sectionEntrySize h.sectionCount index =
      some ((symbolTableAt bytes h index.toNat).bind fun t ↦
        valueOf tohostName (t.entries bytes)) := by
  obtain ⟨htype, hoffset, hsize, hlink, hentry⟩ := readLittleEndian_sectionHeader hfit hindex
  rw [findInSection, htype, hoffset, hsize, hlink, hentry, symbolTableAt]
  generalize sectionHeader bytes h index.toNat = s
  by_cases hsymbols : s.type = symbolTable ∨ s.type = dynamicSymbolTable
  case neg =>
    rw [if_neg fun hall ↦ hsymbols hall.1]
    exact if_pos (by simpa [not_or] using hsymbols)
  refine (if_neg (by simpa [not_or, imp_iff_not_or] using hsymbols)).trans ?_
  by_cases hbad : s.entrySize < symbolSize || h.sectionCount ≤ s.link ||
      !rangeFits s.offset s.size (Elf.size bytes)
  case pos =>
    refine (if_pos hbad).trans (congrArg some ?_)
    simp only [Bool.or_eq_true, decide_eq_true_eq, BitVec.lt_def, BitVec.le_def,
      Bool.not_eq_true', ← Bool.not_eq_true, rangeFits_iff, toNat_size hfit.size] at hbad
    have hentrySize : symbolSize.toNat = 24 := rfl
    rw [if_neg fun hall ↦ ?_]
    · rfl
    · obtain ⟨-, hlink', hentry', hsymbols', -⟩ := hall
      dsimp only at hentry' hsymbols'
      omega
  refine (if_neg hbad).trans ?_
  simp only [Bool.or_eq_true, decide_eq_true_eq, BitVec.lt_def, BitVec.le_def, Bool.not_eq_true',
    not_or, Nat.not_lt, Nat.not_le, Bool.not_eq_false, rangeFits_iff, toNat_size hfit.size] at hbad
  obtain ⟨⟨hentry', hlink'⟩, hsymbols'⟩ := hbad
  obtain ⟨-, hoffset', hsize', -, -⟩ := readLittleEndian_sectionHeader hfit hlink'
  rw [hoffset', hsize']
  generalize sectionHeader bytes h s.link.toNat = strings
  have hstrings : rangeFits strings.offset strings.size (Elf.size bytes) = true ↔
      strings.offset.toNat + strings.size.toNat ≤ bytes.length := by
    rw [rangeFits_iff, toNat_size hfit.size]
  by_cases hfits : strings.offset.toNat + strings.size.toNat ≤ bytes.length
  · have hin : ({ symbols := s, strings } : SymbolTable).InFile bytes := ⟨hentry', hsymbols', hfits⟩
    refine (if_neg (by simp [hstrings.2 hfits])).trans ?_
    rw [if_pos ⟨hsymbols, hlink', hin⟩, BitVec.toNat_udiv, Option.bind_some, SymbolTable.entries,
      List.range_eq_range']
    exact findSymbol_eq hfit hin (Nat.zero_add _)
  · rw [if_neg fun hall ↦ hfits hall.2.2.2.2]
    exact if_pos (by simp [eq_false_of_ne_true (mt hstrings.1 hfits)])

/-- The loop over the sections. -/
theorem findTohostFrom_eq {n i : ℕ} (hcount : i + n = h.sectionCount.toNat) :
    findTohostFrom bytes h.sectionOffset h.sectionEntrySize h.sectionCount n (BitVec.ofNat 64 i) =
      some (valueOf tohostName
        (((List.range' i n).filterMap (symbolTableAt bytes h)).flatMap
          (SymbolTable.entries bytes))) := by
  induction n generalizing i with
  | zero => rfl
  | succ n ih =>
    have hi : (BitVec.ofNat 64 i).toNat = i :=
      toNat_ofNat_of_lt (Nat.lt_of_lt_of_le (by omega) (Nat.le_of_lt h.sectionCount.isLt))
    have hnext := ih (i := i + 1) (by omega)
    rw [BitVec.ofNat_add] at hnext
    rw [findTohostFrom, findInSection_eq hfit (by omega), hi, hnext, List.range'_succ,
      List.filterMap_cons]
    cases htable : symbolTableAt bytes h i with
    | none => rfl
    | some t =>
      rw [List.flatMap_cons, valueOf_append, Option.bind_some]
      cases valueOf tohostName (t.entries bytes) with
      | none => rfl
      | some value => rfl

/-- The search for the symbol ends, and reads nothing outside the file. -/
theorem findTohostSymbol_eq :
    findTohostSymbol bytes h.sectionOffset h.sectionEntrySize h.sectionCount =
      some (valueOf tohostName (symbols bytes h)) := by
  rw [findTohostSymbol, symbols, List.range_eq_range']
  exact findTohostFrom_eq hfit (Nat.zero_add _)

end Tables

end Elf

end Rvemu
