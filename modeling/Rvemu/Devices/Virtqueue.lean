import Rvemu.Bus.Dma
import Mathlib.Algebra.GroupWithZero.Nat

/-!
# Split virtqueues

The device side of a split virtqueue: the ring indices it keeps for itself, and the parser that
turns a head into the list of segments of its descriptor chain.  Everything in guest memory is
reached by DMA, so the functions here are dialogues with the bus.
-/

set_option autoImplicit false

namespace Rvemu

inductive VirtqueueDescriptorDirection
  | deviceReads | deviceWrites | any
  deriving DecidableEq, Repr

inductive VirtqueueParseErrorCode
  | none | queueNotReady | indexOutOfRange | chainLoop | chainTooLong | directionMismatch
  | addressOverflow | dmaReadFailure | indirectUnsupported
  deriving DecidableEq, Repr

inductive VirtqueueRingErrorCode
  | none | queueNotReady | tooManyPending | dmaReadFailure | dmaWriteFailure
  deriving DecidableEq, Repr

/-- A validated piece of a chain, with its direction from the device's point of view. -/
structure VirtqueueSegment where
  address : BitVec 64 := 0#64
  length : BitVec 32 := 0#32
  deviceWrites : Bool := false
  deriving DecidableEq, Repr

structure VirtqueueParseResult where
  code : VirtqueueParseErrorCode := .none
  detail : String := ""
  segments : List VirtqueueSegment := []
  deriving DecidableEq, Repr

namespace VirtqueueParseResult

def ok (r : VirtqueueParseResult) : Bool := r.code == .none

def failure (code : VirtqueueParseErrorCode) (detail : String) : VirtqueueParseResult :=
  { code, detail }

end VirtqueueParseResult

structure VirtqueueAvailableResult where
  code : VirtqueueRingErrorCode := .none
  availableIndex : BitVec 16 := 0#16
  head : BitVec 16 := 0#16
  pendingCount : BitVec 16 := 0#16
  deriving DecidableEq, Repr

def VirtqueueAvailableResult.ok (r : VirtqueueAvailableResult) : Bool := r.code == .none

/-! ## Ring indices -/

/-- Differences of the free-running indices wrap with them. -/
def virtqueueIndexDelta (newer older : BitVec 16) : BitVec 16 := newer - older

def virtqueueRingSlot (index queueSize : BitVec 16) : BitVec 16 := index % queueSize

def virtqueueEventNeeded (eventIndex newIndex oldIndex : BitVec 16) : Bool :=
  newIndex - eventIndex - 1#16 < newIndex - oldIndex

structure VirtqueueRuntimeState where
  lastAvailableIdx : BitVec 16 := 0#16
  usedIdx : BitVec 16 := 0#16
  generation : BitVec 64 := 0#64
  deriving DecidableEq, Repr

namespace VirtqueueRuntimeState

def reset (s : VirtqueueRuntimeState) (initialIndex : BitVec 16 := 0#16) : VirtqueueRuntimeState :=
  { lastAvailableIdx := initialIndex, usedIdx := initialIndex, generation := s.generation + 1#64 }

/-- The address of a slot of the available ring. -/
def availableSlotAddress (layout : VirtqueueLayout) (index : BitVec 16) : BitVec 64 :=
  layout.availableRing + 4#64 + (virtqueueRingSlot index layout.size).setWidth 64 * 2#64

/-- Read the available index and the next head; only a head that was read moves the device's own
index on. -/
def consumeAvailable (s : VirtqueueRuntimeState) (layout : VirtqueueLayout) :
    Dma (VirtqueueAvailableResult × VirtqueueRuntimeState) :=
  if !layout.ready || layout.size == 0#16 then pure ({ code := .queueNotReady }, s)
  else do
    let idx ← Dma.read (layout.availableRing + 2#64) .halfWord
    if !idx.ok then pure ({ code := .dmaReadFailure }, s)
    else
      let availableIndex := idx.value.setWidth 16
      let pending := virtqueueIndexDelta availableIndex s.lastAvailableIdx
      if pending = 0#16 then pure ({ availableIndex }, s)
      else if layout.size < pending then
        pure ({ code := .tooManyPending, availableIndex, pendingCount := pending }, s)
      else do
        let head ← Dma.read (availableSlotAddress layout s.lastAvailableIdx) .halfWord
        if !head.ok then
          pure ({ code := .dmaReadFailure, availableIndex, pendingCount := pending }, s)
        else
          pure ({ availableIndex, head := head.value.setWidth 16, pendingCount := pending },
            { s with lastAvailableIdx := s.lastAvailableIdx + 1#16 })

/-- The address of a slot of the used ring. -/
def usedSlotAddress (layout : VirtqueueLayout) (index : BitVec 16) : BitVec 64 :=
  layout.usedRing + 4#64 + (virtqueueRingSlot index layout.size).setWidth 64 * 8#64

/-- Write the used element, then publish the index; a failed write does not move the device's own
index. -/
def publishUsed (s : VirtqueueRuntimeState) (layout : VirtqueueLayout) (id length : BitVec 32) :
    Dma (VirtqueueRingErrorCode × VirtqueueRuntimeState) :=
  if !layout.ready || layout.size == 0#16 then pure (.queueNotReady, s)
  else do
    let element := usedSlotAddress layout s.usedIdx
    let idWrite ← Dma.write element .word (id.setWidth 64)
    if !idWrite.ok then pure (.dmaWriteFailure, s)
    else do
      let lenWrite ← Dma.write (element + 4#64) .word (length.setWidth 64)
      if !lenWrite.ok then pure (.dmaWriteFailure, s)
      else do
        let nextUsedIdx := s.usedIdx + 1#16
        let idxWrite ← Dma.write (layout.usedRing + 2#64) .halfWord (nextUsedIdx.setWidth 64)
        if !idxWrite.ok then pure (.dmaWriteFailure, s)
        else pure (.none, { s with usedIdx := nextUsedIdx })

/-- Does the driver want an interrupt for what was just published? -/
def driverNotificationNeeded (s : VirtqueueRuntimeState) (layout : VirtqueueLayout) :
    Dma (VirtqueueRingErrorCode × Bool) :=
  if !layout.ready || layout.size == 0#16 then pure (.queueNotReady, false)
  else if !layout.eventIdxEnabled then do
    let flags ← Dma.read layout.availableRing .halfWord
    if !flags.ok then pure (.dmaReadFailure, false)
    else pure (.none, (flags.value.setWidth 16 &&& 1#16) == 0#16)
  else do
    let usedEvent ← Dma.read (layout.availableRing + 4#64 +
      layout.size.setWidth 64 * 2#64) .halfWord
    if !usedEvent.ok then pure (.dmaReadFailure, false)
    else
      pure (.none, virtqueueEventNeeded (usedEvent.value.setWidth 16) s.usedIdx (s.usedIdx - 1#16))

end VirtqueueRuntimeState

/-! ## Descriptor chains -/

structure RawDescriptor where
  address : BitVec 64 := 0#64
  length : BitVec 32 := 0#32
  flags : BitVec 16 := 0#16
  next : BitVec 16 := 0#16
  deriving DecidableEq, Repr

namespace RawDescriptor

def hasNext (d : RawDescriptor) : Bool := (d.flags &&& 1#16) != 0#16
def isWrite (d : RawDescriptor) : Bool := (d.flags &&& 2#16) != 0#16
def isIndirect (d : RawDescriptor) : Bool := (d.flags &&& 4#16) != 0#16

def segment (d : RawDescriptor) : VirtqueueSegment :=
  { address := d.address, length := d.length, deviceWrites := d.isWrite }

end RawDescriptor

def addOverflows (lhs rhs : BitVec 64) : Bool := lhs > BitVec.allOnes 64 - rhs

def directionMatches (descriptorWrite : Bool) : VirtqueueDescriptorDirection → Bool
  | .any => true
  | .deviceReads => !descriptorWrite
  | .deviceWrites => descriptorWrite

/-- All four fields are read before any of the results is looked at. -/
def readRawDescriptor (tableAddress : BitVec 64) (index : BitVec 16) :
    Dma (Except VirtqueueParseResult RawDescriptor) := do
  let descriptorAddress := tableAddress + index.setWidth 64 * 16#64
  let address ← Dma.read descriptorAddress .doubleWord
  let length ← Dma.read (descriptorAddress + 8#64) .word
  let flags ← Dma.read (descriptorAddress + 12#64) .halfWord
  let next ← Dma.read (descriptorAddress + 14#64) .halfWord
  if !address.ok || !length.ok || !flags.ok || !next.ok then
    pure (.error (.failure .dmaReadFailure "读取描述符元数据失败"))
  else
    pure (.ok { address := address.value, length := length.value.setWidth 32
                flags := flags.value.setWidth 16, next := next.value.setWidth 16 })

/-- The checks on one direct descriptor, after `segments` and `totalLength` so far; what is returned
is the error, if there is one. -/
def checkDescriptor (expected : List VirtqueueDescriptorDirection)
    (segments : List VirtqueueSegment)
    (totalLength : BitVec 64) (descriptor : RawDescriptor) : Option VirtqueueParseResult :=
  if !expected.isEmpty && expected.length ≤ segments.length then
    some (.failure .directionMismatch "描述符数量超过设备请求布局")
  else if !expected.isEmpty
      && !directionMatches descriptor.isWrite (expected.getD segments.length .any) then
    some (.failure .directionMismatch "描述符方向与设备请求布局不匹配")
  else if descriptor.length != 0#32
      && addOverflows descriptor.address (descriptor.length.setWidth 64 - 1#64) then
    some (.failure .addressOverflow "描述符 DMA 范围发生 64 位溢出")
  else if addOverflows totalLength (descriptor.length.setWidth 64) then
    some (.failure .addressOverflow "描述符链总长度发生 64 位溢出")
  else none

/-- The loop over a descriptor table.  `count` is what is left of its bound, the table size;
`indirect` is how the head may refer to another table, if it may. -/
def parseTableFrom (indirect : Option (RawDescriptor → Dma VirtqueueParseResult))
    (tableAddress : BitVec 64) (tableSize : BitVec 16)
    (expected : List VirtqueueDescriptorDirection) :
    ℕ → BitVec 16 → List (BitVec 16) → List VirtqueueSegment → BitVec 64 →
      Dma VirtqueueParseResult
  | 0, _, _, _, _ => pure (.failure .chainTooLong "描述符链长度超过队列大小")
  | count + 1, index, visited, segments, totalLength =>
    if tableSize ≤ index then pure (.failure .indexOutOfRange "next 描述符索引越界")
    else if index ∈ visited then pure (.failure .chainLoop "描述符链存在循环")
    else do
      match ← readRawDescriptor tableAddress index with
      | .error failed => pure failed
      | .ok descriptor =>
        if descriptor.isIndirect then
          match indirect with
          | none => pure (.failure .indirectUnsupported "未协商、嵌套或非 head 间接描述符被拒绝")
          | some parseIndirect =>
            if !segments.isEmpty then
              pure (.failure .indirectUnsupported "未协商、嵌套或非 head 间接描述符被拒绝")
            else parseIndirect descriptor
        else
          match checkDescriptor expected segments totalLength descriptor with
          | some failed => pure failed
          | none =>
            let segments := segments ++ [descriptor.segment]
            if !descriptor.hasNext then
              if !expected.isEmpty && segments.length != expected.length then
                pure (.failure .directionMismatch "描述符数量少于设备请求布局")
              else pure { segments }
            else
              parseTableFrom indirect tableAddress tableSize expected count descriptor.next
                (index :: visited) segments (totalLength + descriptor.length.setWidth 64)

def parseTable (indirect : Option (RawDescriptor → Dma VirtqueueParseResult))
    (tableAddress : BitVec 64) (tableSize head : BitVec 16)
    (expected : List VirtqueueDescriptorDirection) : Dma VirtqueueParseResult :=
  if tableSize ≤ head then pure (.failure .indexOutOfRange "head 描述符索引越界")
  else parseTableFrom indirect tableAddress tableSize expected tableSize.toNat head [] [] 0#64

/-- A table of descriptors that a head points to; it may not point to another one. -/
def parseIndirectDescriptor (expected : List VirtqueueDescriptorDirection)
    (descriptor : RawDescriptor) : Dma VirtqueueParseResult :=
  if descriptor.isWrite || descriptor.hasNext || descriptor.length == 0#32
      || descriptor.length % 16#32 != 0#32 then
    pure (.failure .indirectUnsupported "间接描述符必须只指向非空 16 字节对齐描述符表")
  else
    let indirectCount := descriptor.length.setWidth 64 / 16#64
    if indirectCount = 0#64 ∨ 0xFFFF#64 < indirectCount then
      pure (.failure .chainTooLong "间接描述符表长度超出实现上限")
    else parseTable none descriptor.address (indirectCount.setWidth 16) 0#16 expected

def parseDescriptorChain (layout : VirtqueueLayout) (head : BitVec 16)
    (expected : List VirtqueueDescriptorDirection := []) : Dma VirtqueueParseResult :=
  if !layout.ready || layout.size == 0#16 then
    pure (.failure .queueNotReady "virtqueue 尚未 ready")
  else if layout.size ≤ head then pure (.failure .indexOutOfRange "head 描述符索引越界")
  else
    parseTable (if layout.indirectEnabled then some (parseIndirectDescriptor expected) else none)
      layout.descriptorTable layout.size head expected

/-! ## What an accepted chain satisfies -/

/-- The number of bytes of a chain. -/
def totalBytes (segments : List VirtqueueSegment) : ℕ := (segments.map (·.length.toNat)).sum

/-- The bytes of a segment do not wrap around the address space. -/
def VirtqueueSegment.Fits (s : VirtqueueSegment) : Prop :=
  s.length.toNat ≠ 0 → s.address.toNat + s.length.toNat ≤ 2 ^ 64

def ChainFits (segments : List VirtqueueSegment) : Prop :=
  totalBytes segments < 2 ^ 64 ∧ ∀ s ∈ segments, s.Fits

theorem addOverflows_eq_false_iff (x y : BitVec 64) :
    addOverflows x y = false ↔ x.toNat + y.toNat < 2 ^ 64 := by
  have hx := x.isLt
  have hy := y.isLt
  rw [addOverflows, decide_eq_false_iff_not, gt_iff_lt, BitVec.lt_def, BitVec.toNat_sub,
    BitVec.toNat_allOnes]
  omega

theorem readRawDescriptor_error {tableAddress : BitVec 64} {index : BitVec 16} {b : Bus}
    {failed : VirtqueueParseResult}
    (h : ((readRawDescriptor tableAddress index).run Bus.dma b).1 = .error failed) :
    failed.ok = false := by
  rw [readRawDescriptor] at h
  simp only [Dialogue.run_bind, Dialogue.run_ite, Dialogue.run_pure, Dma.run_read] at h
  split at h
  · rw [← Except.error.inj h]
    rfl
  · cases h

theorem checkDescriptor_some {expected : List VirtqueueDescriptorDirection}
    {segments : List VirtqueueSegment} {totalLength : BitVec 64} {d : RawDescriptor}
    {failed : VirtqueueParseResult}
    (h : checkDescriptor expected segments totalLength d = some failed) : failed.ok = false := by
  rw [checkDescriptor] at h
  split_ifs at h <;> rw [← Option.some.inj h] <;> rfl

section Accepted

variable {expected : List VirtqueueDescriptorDirection} {segments : List VirtqueueSegment}
  {totalLength : BitVec 64}

/-- A descriptor that passes the checks extends a chain that fits to one that does. -/
theorem chainFits_append {d : RawDescriptor}
    (hcheck : checkDescriptor expected segments totalLength d = none)
    (htotal : totalLength.toNat = totalBytes segments) (hfits : ∀ s ∈ segments, s.Fits) :
    ChainFits (segments ++ [d.segment]) ∧
      (totalLength + d.length.setWidth 64).toNat = totalBytes (segments ++ [d.segment]) := by
  have hlen : d.length.toNat < 2 ^ 32 := d.length.isLt
  have hwide : (d.length.setWidth 64).toNat = d.length.toNat := by
    rw [BitVec.toNat_setWidth]
    omega
  rw [checkDescriptor] at hcheck
  split_ifs at hcheck with _ _ h₁ h₂
  have hsum : totalBytes (segments ++ [d.segment]) = totalBytes segments + d.length.toNat := by
    simp [totalBytes, RawDescriptor.segment]
  have hroom : totalBytes segments + d.length.toNat < 2 ^ 64 := by
    rw [Bool.not_eq_true, addOverflows_eq_false_iff, hwide, htotal] at h₂
    exact h₂
  refine ⟨⟨hsum ▸ hroom, fun s hs ↦ ?_⟩, ?_⟩
  · rcases List.mem_append.1 hs with hs | hs
    · exact hfits s hs
    · rw [List.mem_singleton.1 hs]
      intro hne
      have hne' : d.length ≠ 0#32 := by
        intro h
        rw [RawDescriptor.segment, h] at hne
        exact hne rfl
      have hover : addOverflows d.address (d.length.setWidth 64 - 1#64) = false := by
        simpa [hne'] using h₁
      rw [addOverflows_eq_false_iff, BitVec.toNat_sub_of_le, hwide] at hover
      · show d.address.toNat + d.length.toNat ≤ 2 ^ 64
        have : (1#64).toNat = 1 := rfl
        omega
      · rw [BitVec.le_def, hwide]
        have : d.length.toNat ≠ 0 := hne
        show 1 ≤ d.length.toNat
        omega
  · rw [hsum, BitVec.toNat_add, hwide, htotal]
    exact Nat.mod_eq_of_lt hroom

/-- The loop over a table accepts only chains that fit. -/
theorem chainFits_parseTableFrom
    {indirect : Option (RawDescriptor → Dma VirtqueueParseResult)} (tableAddress : BitVec 64)
    (tableSize : BitVec 16)
    (hindirect : ∀ p, indirect = some p → ∀ d b, ((p d).run Bus.dma b).1.ok = true →
      ChainFits ((p d).run Bus.dma b).1.segments)
    (count : ℕ) (index : BitVec 16) (visited : List (BitVec 16)) (b : Bus)
    (htotal : totalLength.toNat = totalBytes segments) (hfits : ∀ s ∈ segments, s.Fits)
    (hok : ((parseTableFrom indirect tableAddress tableSize expected count index visited segments
      totalLength).run Bus.dma b).1.ok = true) :
    ChainFits ((parseTableFrom indirect tableAddress tableSize expected count index visited segments
      totalLength).run Bus.dma b).1.segments := by
  induction count generalizing index visited segments totalLength b with
  | zero => cases hok
  | succ count ih =>
    rw [parseTableFrom] at hok ⊢
    split at hok
    · cases hok
    · split at hok
      · cases hok
      · next hindex hvisited =>
        rw [if_neg hindex, if_neg hvisited]
        rw [Dialogue.run_bind] at hok ⊢
        have herror {failed} := @readRawDescriptor_error tableAddress index b failed
        generalize (readRawDescriptor tableAddress index).run Bus.dma b = read at hok herror ⊢
        obtain ⟨value, b'⟩ := read
        cases value with
        | error failed => exact absurd hok (by simpa using herror rfl)
        | ok d =>
          dsimp only at hok ⊢
          split at hok
          · next hind =>
            rw [if_pos hind]
            cases hi : indirect with
            | none => rw [hi] at hok; cases hok
            | some p =>
              rw [hi] at hok
              dsimp only at hok ⊢
              split at hok
              · cases hok
              · next hempty =>
                rw [if_neg hempty]
                exact hindirect p hi d b' hok
          · next hind =>
            rw [if_neg hind]
            cases hcheck : checkDescriptor expected segments totalLength d with
            | some failed =>
              rw [hcheck] at hok
              exact absurd hok (by simpa using checkDescriptor_some hcheck)
            | none =>
              obtain ⟨hchain, htotal'⟩ := chainFits_append hcheck htotal hfits
              rw [hcheck] at hok
              dsimp only at hok ⊢
              split at hok
              · next hnext =>
                rw [if_pos hnext]
                split at hok
                · cases hok
                · next hexpected =>
                  rw [if_neg hexpected]
                  exact hchain
              · next hnext =>
                rw [if_neg hnext]
                exact ih _ _ _ htotal' hchain.2 hok

theorem chainFits_parseTable {indirect : Option (RawDescriptor → Dma VirtqueueParseResult)}
    (tableAddress : BitVec 64) (tableSize head : BitVec 16)
    (hindirect : ∀ p, indirect = some p → ∀ d b, ((p d).run Bus.dma b).1.ok = true →
      ChainFits ((p d).run Bus.dma b).1.segments) (b : Bus)
    (hok : ((parseTable indirect tableAddress tableSize head expected).run Bus.dma b).1.ok = true) :
    ChainFits ((parseTable indirect tableAddress tableSize head expected).run Bus.dma
      b).1.segments := by
  rw [parseTable] at hok ⊢
  split at hok
  · cases hok
  · next hhead =>
    rw [if_neg hhead]
    exact chainFits_parseTableFrom tableAddress tableSize hindirect _ _ _ b rfl (by simp) hok

/-- Every chain the parser accepts fits, direct or indirect. -/
theorem chainFits_parseDescriptorChain (layout : VirtqueueLayout) (head : BitVec 16) (b : Bus)
    (hok : ((parseDescriptorChain layout head expected).run Bus.dma b).1.ok = true) :
    ChainFits ((parseDescriptorChain layout head expected).run Bus.dma b).1.segments := by
  have hindirect (d : RawDescriptor) (b : Bus)
      (hok : ((parseIndirectDescriptor expected d).run Bus.dma b).1.ok = true) :
      ChainFits ((parseIndirectDescriptor expected d).run Bus.dma b).1.segments := by
    rw [parseIndirectDescriptor] at hok ⊢
    split at hok
    · cases hok
    · next hshape =>
      rw [if_neg hshape]
      dsimp only at hok ⊢
      split at hok
      · cases hok
      · next hcount =>
        rw [if_neg hcount]
        exact chainFits_parseTable _ _ _ (fun p hp ↦ by cases hp) b hok
  rw [parseDescriptorChain] at hok ⊢
  split at hok
  · cases hok
  · next hready =>
    rw [if_neg hready]
    split at hok
    · cases hok
    · next hhead =>
      rw [if_neg hhead]
      refine chainFits_parseTable _ _ _ (fun p hp d b hok ↦ ?_) b hok
      split at hp
      · obtain rfl := Option.some.inj hp
        exact hindirect d b hok
      · cases hp

end Accepted

end Rvemu
