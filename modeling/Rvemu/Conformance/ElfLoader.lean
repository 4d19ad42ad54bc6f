import Rvemu.Bus.Loading

/-!
# The ELF loader

`loadElf64Riscv` checks a file and then writes its segments.  The checks are a function of the file
alone, `checkElf`, so nothing is written before they are done.

An index into the file may be outside it, which the source does not check where it indexes:
`Indexed` computations have no value then.  The loops whose number of turns is not in their heads
are given a bound, and have no value either if they would turn once more.
-/

set_option autoImplicit false

namespace Rvemu

namespace Elf

def headerSize : ℕ := 64
def programHeaderSize : BitVec 64 := 56#64
def sectionHeaderSize : BitVec 64 := 64#64
def symbolSize : BitVec 64 := 24#64
def riscvMachine : BitVec 64 := 243#64
def loadSegment : BitVec 64 := 1#64
def symbolTable : BitVec 64 := 2#64
def dynamicSymbolTable : BitVec 64 := 11#64

structure Segment where
  fileOffset : BitVec 64 := 0#64
  physicalAddress : BitVec 64 := 0#64
  fileSize : BitVec 64 := 0#64
  memorySize : BitVec 64 := 0#64
  deriving DecidableEq, Repr

structure LoadedElf where
  entryPoint : BitVec 64 := 0#64
  tohostAddress : BitVec 64 := 0#64
  lowestLoadedAddress : BitVec 64 := 0#64
  highestLoadedAddressExclusive : BitVec 64 := 0#64
  deriving DecidableEq, Repr

structure ElfLoadResult where
  image : Option LoadedElf := none
  error : String := ""
  deriving DecidableEq, Repr

namespace ElfLoadResult

def ok (r : ElfLoadResult) : Bool := r.image.isSome

def success (loaded : LoadedElf) : ElfLoadResult := { image := some loaded }

def failure (message : String) : ElfLoadResult := { error := message }

end ElfLoadResult

/-! ## Reading the file -/

/-- A computation that indexes the file; it has a value if all its indices are inside and it
ends. -/
abbrev Indexed (α : Type) := Option α

def byteAt (bytes : List (BitVec 8)) (index : BitVec 64) : Indexed (BitVec 8) := bytes[index.toNat]?

def rangeFits (offset length total : BitVec 64) : Bool :=
  offset ≤ total && length ≤ total - offset

def size (bytes : List (BitVec 8)) : BitVec 64 := BitVec.ofNat 64 bytes.length

/-- The loop of `read_little_endian` for the indices below `n`. -/
def readBytes (bytes : List (BitVec 8)) (offset : BitVec 64) : ℕ → Indexed (BitVec 64)
  | 0 => pure 0#64
  | n + 1 => do
    let value ← readBytes bytes offset n
    let byte ← byteAt bytes (offset + BitVec.ofNat 64 n)
    pure (value ||| (byte.setWidth 64 <<< (n * 8)))

/-- An integer of `width` bytes, as a 64-bit number. -/
def readLittleEndian (bytes : List (BitVec 8)) (width : ℕ) (offset : BitVec 64) :
    Indexed (Option (BitVec 64)) :=
  if !rangeFits offset (BitVec.ofNat 64 width) (size bytes) then pure none
  else do
    let value ← readBytes bytes offset width
    pure (some value)

/-! ## The symbol -/

/-- The name of the symbol that is looked for: `tohost`. -/
def tohostName : List (BitVec 8) := [0x74#8, 0x6F#8, 0x68#8, 0x6F#8, 0x73#8, 0x74#8]

/-- The loop over the characters of a name, for at most `n` turns. -/
def readName (bytes : List (BitVec 8)) (limit : BitVec 64) :
    ℕ → BitVec 64 → Indexed (List (BitVec 8))
  | 0, position => if position < limit then none else pure []
  | n + 1, position =>
    if position < limit then do
      let character ← byteAt bytes position
      if character = 0#8 then pure []
      else do
        let rest ← readName bytes limit n (position + 1#64)
        pure (character :: rest)
    else pure []

/-- The loop over the symbols of a table, `n` of them from `index` on. -/
def findSymbol (bytes : List (BitVec 8))
    (symbolsOffset symbolEntrySize stringsOffset stringsSize : BitVec 64) :
    ℕ → BitVec 64 → Indexed (Option (BitVec 64))
  | 0, _ => pure none
  | n + 1, index => do
    let symbol := symbolsOffset + index * symbolEntrySize
    let nameOffset ← readLittleEndian bytes 4 symbol
    let value ← readLittleEndian bytes 8 (symbol + 8#64)
    let next := findSymbol bytes symbolsOffset symbolEntrySize stringsOffset stringsSize n
      (index + 1#64)
    match nameOffset, value with
    | some nameOffset, some value =>
      if stringsSize ≤ nameOffset then next
      else do
        let nameBegin := stringsOffset + nameOffset
        let nameLimit := stringsOffset + stringsSize
        let name ← readName bytes nameLimit (nameLimit - nameBegin).toNat nameBegin
        if name = tohostName then pure (some value) else next
    | _, _ => next

/-- The symbols of a section, if it is a symbol table whose tables are in bounds. -/
def findInSection (bytes : List (BitVec 8))
    (sectionOffset sectionEntrySize sectionCount index : BitVec 64) :
    Indexed (Option (BitVec 64)) := do
  let header := sectionOffset + index * sectionEntrySize
  let type ← readLittleEndian bytes 4 (header + 4#64)
  if type ≠ some symbolTable ∧ type ≠ some dynamicSymbolTable then pure none
  else do
    let symbolsOffset ← readLittleEndian bytes 8 (header + 24#64)
    let symbolsSize ← readLittleEndian bytes 8 (header + 32#64)
    let stringsIndex ← readLittleEndian bytes 4 (header + 40#64)
    let symbolEntrySize ← readLittleEndian bytes 8 (header + 56#64)
    match symbolsOffset, symbolsSize, stringsIndex, symbolEntrySize with
    | some symbolsOffset, some symbolsSize, some stringsIndex, some symbolEntrySize =>
      if symbolEntrySize < symbolSize || sectionCount ≤ stringsIndex ||
          !rangeFits symbolsOffset symbolsSize (size bytes) then pure none
      else do
        let stringsHeader := sectionOffset + stringsIndex * sectionEntrySize
        let stringsOffset ← readLittleEndian bytes 8 (stringsHeader + 24#64)
        let stringsSize ← readLittleEndian bytes 8 (stringsHeader + 32#64)
        match stringsOffset, stringsSize with
        | some stringsOffset, some stringsSize =>
          if !rangeFits stringsOffset stringsSize (size bytes) then pure none
          else
            findSymbol bytes symbolsOffset symbolEntrySize stringsOffset stringsSize
              (symbolsSize / symbolEntrySize).toNat 0#64
        | _, _ => pure none
    | _, _, _, _ => pure none

/-- The loop over the sections, `n` of them from `index` on. -/
def findTohostFrom (bytes : List (BitVec 8))
    (sectionOffset sectionEntrySize sectionCount : BitVec 64) :
    ℕ → BitVec 64 → Indexed (Option (BitVec 64))
  | 0, _ => pure none
  | n + 1, index => do
    match ← findInSection bytes sectionOffset sectionEntrySize sectionCount index with
    | some value => pure (some value)
    | none =>
      findTohostFrom bytes sectionOffset sectionEntrySize sectionCount n (index + 1#64)

def findTohostSymbol (bytes : List (BitVec 8))
    (sectionOffset sectionEntrySize sectionCount : BitVec 64) : Indexed (Option (BitVec 64)) :=
  findTohostFrom bytes sectionOffset sectionEntrySize sectionCount sectionCount.toNat 0#64

/-! ## The segments -/

structure SegmentTable where
  segments : List Segment := []
  lowest : BitVec 64 := BitVec.allOnes 64
  highest : BitVec 64 := 0#64
  deriving DecidableEq, Repr

def SegmentTable.push (t : SegmentTable) (s : Segment) : SegmentTable where
  segments := t.segments ++ [s]
  lowest := if s.physicalAddress < t.lowest then s.physicalAddress else t.lowest
  highest :=
    if t.highest < s.physicalAddress + s.memorySize then s.physicalAddress + s.memorySize
    else t.highest

/-- One turn of the loop over the program headers. -/
def readSegment (bytes : List (BitVec 8)) (programOffset programEntrySize : BitVec 64)
    (allowed : AddressRange) (index : BitVec 64) (table : SegmentTable) :
    Indexed (Except String SegmentTable) := do
  let header := programOffset + index * programEntrySize
  let type ← readLittleEndian bytes 4 header
  if type ≠ some loadSegment then pure (.ok table)
  else do
    let fileOffset ← readLittleEndian bytes 8 (header + 8#64)
    let virtualAddress ← readLittleEndian bytes 8 (header + 16#64)
    let physicalAddress ← readLittleEndian bytes 8 (header + 24#64)
    let fileBytes ← readLittleEndian bytes 8 (header + 32#64)
    let memoryBytes ← readLittleEndian bytes 8 (header + 40#64)
    match fileOffset, virtualAddress, physicalAddress, fileBytes, memoryBytes with
    | some fileOffset, some virtualAddress, some physicalAddress, some fileBytes,
        some memoryBytes =>
      if memoryBytes < fileBytes || !rangeFits fileOffset fileBytes (size bytes) then
        pure (.error "ELF PT_LOAD 段字段无效或文件数据越界")
      else if memoryBytes = 0#64 then pure (.ok table)
      else
        let destination := if physicalAddress = 0#64 then virtualAddress else physicalAddress
        if !allowed.containsSpan destination memoryBytes then
          pure (.error "ELF PT_LOAD 段超出一致性测试 RAM 范围")
        else
          pure (.ok (table.push
            { fileOffset, physicalAddress := destination, fileSize := fileBytes
              memorySize := memoryBytes }))
    | _, _, _, _, _ => pure (.error "ELF PT_LOAD 段字段无效或文件数据越界")

/-- The loop over the program headers, `n` of them from `index` on. -/
def readSegments (bytes : List (BitVec 8)) (programOffset programEntrySize : BitVec 64)
    (allowed : AddressRange) : ℕ → BitVec 64 → SegmentTable → Indexed (Except String SegmentTable)
  | 0, _, table => pure (.ok table)
  | n + 1, index, table => do
    match ← readSegment bytes programOffset programEntrySize allowed index table with
    | .error message => pure (.error message)
    | .ok table =>
      readSegments bytes programOffset programEntrySize allowed n (index + 1#64) table

/-! ## The checks -/

/-- The fields of the file header that the loader reads. -/
structure FileHeader where
  machine : BitVec 64
  elfVersion : BitVec 64
  entry : BitVec 64
  programOffset : BitVec 64
  sectionOffset : BitVec 64
  elfHeaderSize : BitVec 64
  programEntrySize : BitVec 64
  programCount : BitVec 64
  sectionEntrySize : BitVec 64
  sectionCount : BitVec 64
  deriving DecidableEq, Repr

def readFileHeader (bytes : List (BitVec 8)) : Indexed (Option FileHeader) := do
  let machine ← readLittleEndian bytes 2 18#64
  let elfVersion ← readLittleEndian bytes 4 20#64
  let entry ← readLittleEndian bytes 8 24#64
  let programOffset ← readLittleEndian bytes 8 32#64
  let sectionOffset ← readLittleEndian bytes 8 40#64
  let elfHeaderSize ← readLittleEndian bytes 2 52#64
  let programEntrySize ← readLittleEndian bytes 2 54#64
  let programCount ← readLittleEndian bytes 2 56#64
  let sectionEntrySize ← readLittleEndian bytes 2 58#64
  let sectionCount ← readLittleEndian bytes 2 60#64
  match machine, elfVersion, entry, programOffset, sectionOffset, elfHeaderSize, programEntrySize,
    programCount, sectionEntrySize, sectionCount with
  | some machine, some elfVersion, some entry, some programOffset, some sectionOffset,
      some elfHeaderSize, some programEntrySize, some programCount, some sectionEntrySize,
      some sectionCount =>
    pure (some
      { machine, elfVersion, entry, programOffset, sectionOffset, elfHeaderSize, programEntrySize
        programCount, sectionEntrySize, sectionCount })
  | _, _, _, _, _, _, _, _, _, _ => pure none

def FileHeader.supported (h : FileHeader) : Bool :=
  !(h.machine != riscvMachine || h.elfVersion != 1#64 || h.elfHeaderSize < 64#64 ||
    h.programEntrySize < programHeaderSize || h.sectionEntrySize < sectionHeaderSize ||
    h.programCount == 0#64 || h.sectionCount == 0#64)

def FileHeader.tablesFit (h : FileHeader) (fileSize : BitVec 64) : Bool :=
  !(h.programCount > fileSize / h.programEntrySize ||
    !rangeFits h.programOffset (h.programCount * h.programEntrySize) fileSize ||
    h.sectionCount > fileSize / h.sectionEntrySize ||
    !rangeFits h.sectionOffset (h.sectionCount * h.sectionEntrySize) fileSize)

/-- What is left to do when the checks are over. -/
structure ElfPlan where
  segments : List Segment
  image : LoadedElf
  deriving DecidableEq, Repr

/-- The checks of the tables behind the file header. -/
def checkTables (bytes : List (BitVec 8)) (allowed : AddressRange) (h : FileHeader) :
    Indexed (Except String ElfPlan) := do
  match ← readSegments bytes h.programOffset h.programEntrySize allowed h.programCount.toNat 0#64
    {} with
  | .error message => pure (.error message)
  | .ok table =>
    if table.segments.isEmpty || !allowed.containsSpan h.entry 2#64 then
      pure (.error "ELF 没有可装载段或入口不在测试 RAM 中")
    else do
      let tohost ← findTohostSymbol bytes h.sectionOffset h.sectionEntrySize h.sectionCount
      match tohost with
      | none => pure (.error "ELF 缺少位于测试 RAM 内的 tohost 符号")
      | some tohost =>
        if !allowed.containsSpan tohost 8#64 then
          pure (.error "ELF 缺少位于测试 RAM 内的 tohost 符号")
        else
          pure (.ok
            { segments := table.segments
              image := { entryPoint := h.entry, tohostAddress := tohost
                         lowestLoadedAddress := table.lowest
                         highestLoadedAddressExclusive := table.highest } })

/-- All checks of `load_elf64_riscv`, in order. -/
def checkElf (bytes : List (BitVec 8)) (allowed : AddressRange) :
    Indexed (Except String ElfPlan) :=
  if bytes.length < headerSize then pure (.error "输入不是完整的 ELF 文件")
  else do
    let magic ← [0#64, 1#64, 2#64, 3#64].mapM (byteAt bytes)
    if magic ≠ [0x7F#8, 0x45#8, 0x4C#8, 0x46#8] then pure (.error "输入不是完整的 ELF 文件")
    else do
      let identity ← [4#64, 5#64, 6#64].mapM (byteAt bytes)
      if identity ≠ [2#8, 1#8, 1#8] then pure (.error "只支持 ELFCLASS64、小端且版本为 1 的映像")
      else do
        match ← readFileHeader bytes with
        | none => pure (.error "ELF 头字段不完整")
        | some h =>
          if !h.supported then pure (.error "ELF 架构、版本或头表尺寸不符合 RV64 测试要求")
          else if !h.tablesFit (size bytes) then pure (.error "ELF 程序头表或节头表越过文件边界")
          else checkTables bytes allowed h

/-! ## Writing -/

def bestWidth (remaining : BitVec 64) : AccessWidth :=
  if 8#64 ≤ remaining then .doubleWord
  else if 4#64 ≤ remaining then .word
  else if 2#64 ≤ remaining then .halfWord
  else .byte

/-- The value of the next write, made of the indices below `n`: bytes of the file, and zeros behind
them. -/
def segmentValue (bytes : List (BitVec 8)) (segment : Segment) (completed : BitVec 64) :
    ℕ → Indexed (BitVec 64)
  | 0 => pure 0#64
  | n + 1 => do
    let value ← segmentValue bytes segment completed n
    let segmentOffset := completed + BitVec.ofNat 64 n
    if segmentOffset < segment.fileSize then do
      let byte ← byteAt bytes (segment.fileOffset + segmentOffset)
      pure (value ||| (byte.setWidth 64 <<< (n * 8)))
    else pure value

/-- The loop of `write_segment`, for at most `n` turns. -/
def writeSegmentFrom (bytes : List (BitVec 8)) (segment : Segment) :
    ℕ → BitVec 64 → Bus → Indexed (Option String × Bus)
  | 0, completed, bus => if completed < segment.memorySize then none else pure (none, bus)
  | n + 1, completed, bus =>
    if completed < segment.memorySize then do
      let width := bestWidth (segment.memorySize - completed)
      let value ← segmentValue bytes segment completed (widthInBytes width)
      let address := segment.physicalAddress + completed
      let written := bus.write address width value .initialization
      if !written.1.ok then
        pure (some ("ELF 段写入物理总线失败，地址=" ++ toString address.toNat ++ "，原因=" ++
          written.1.error.detail), written.2)
      else
        writeSegmentFrom bytes segment n (completed + BitVec.ofNat 64 (widthInBytes width))
          written.2
    else pure (none, bus)

def writeSegment (bytes : List (BitVec 8)) (segment : Segment) (bus : Bus) :
    Indexed (Option String × Bus) :=
  writeSegmentFrom bytes segment segment.memorySize.toNat 0#64 bus

/-- The loop over the segments; the first that fails ends it. -/
def writeSegments (bytes : List (BitVec 8)) :
    List Segment → Bus → Indexed (Option String × Bus)
  | [], bus => pure (none, bus)
  | segment :: rest, bus => do
    match ← writeSegment bytes segment bus with
    | (some error, bus) => pure (some error, bus)
    | (none, bus) => writeSegments bytes rest bus

def loadElf64Riscv (file : HostFile) (path : String) (bus : Bus) (allowed : AddressRange) :
    Indexed (ElfLoadResult × Bus) :=
  match file with
  | .cannotOpen => pure (.failure ("无法打开 ELF 文件：" ++ path), bus)
  | .contents bytes _ => do
    match ← checkElf bytes allowed with
    | .error message => pure (.failure message, bus)
    | .ok plan => do
      let written ← writeSegments bytes plan.segments bus
      match written.1 with
      | some error => pure (.failure error, written.2)
      | none => pure (.success plan.image, written.2)

end Elf

end Rvemu
