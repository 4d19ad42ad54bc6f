import Rvemu.Core.GuestAccess
import Rvemu.Vector.Instructions

/-!
# The vector instructions

Configuration, unit-stride and strided memory accesses, and the element-wise integer and floating
operations.  The last three share one traversal: the body elements from `vstart` to `vl`, then, when
there was a body and the tail is agnostic, the elements up to VLMAX.  An element may end the
instruction early; the state reached so far is kept then.
-/

set_option autoImplicit false

namespace Rvemu

/-! ## Traversing elements -/

/-- Visit the elements in order; `some` from the body ends the traversal. -/
def forElements {σ ε : Type} (body : σ → ℕ → Option ε × σ) : List ℕ → σ → Option ε × σ
  | [], s => (none, s)
  | element :: rest, s =>
    let visited := body s element
    match visited.1 with
    | some exit => (some exit, visited.2)
    | none => forElements body rest visited.2

/-- The elements `first`, ..., `last - 1`. -/
def elementsFrom (first last : ℕ) : List ℕ := List.range' first (last - first)

/-- Body, then tail.  Nothing happens at all when no body element exists. -/
def runElements {σ ε : Type} (body tail : σ → ℕ → Option ε × σ) (start vl vlmax : ℕ)
    (tailAgnostic : Bool) (s : σ) : Option ε × σ :=
  if start < vl then
    let visited := forElements body (elementsFrom start vl) s
    if visited.1.isSome || !tailAgnostic then visited
    else forElements tail (elementsFrom vl vlmax) visited.2
  else (none, s)

/-- The pattern of ones that agnostic elements are filled with. -/
def agnosticValue (bits : ℕ) : BitVec 64 :=
  if bits = 64 then BitVec.allOnes 64 else (1#64 <<< bits) - 1#64

def maskAgnostic (vtype : BitVec 64) : Bool := (vtype &&& (1#64 <<< 7)) != 0#64

def tailAgnostic (vtype : BitVec 64) : Bool := (vtype &&& (1#64 <<< 6)) != 0#64

namespace CpuState

/-- Write one element, or leave with an illegal instruction when it cannot be located. -/
def putElement (s : CpuState) (packet : InstructionPacket) (group : VectorRegisterGroup)
    (value : BitVec 64) (element : ℕ) : Option Trap × CpuState :=
  match s.setVectorElement group element value with
  | none => (some (illegalTrap packet), s)
  | some s => (none, s)

/-- Is this element left alone by the mask? -/
def maskedOff (s : CpuState) (masked : Bool) (element : ℕ) : Bool :=
  masked && !(s.vectorMaskBit element).getD false

/-- A masked-off element is filled when the mask is agnostic and kept otherwise. -/
def skipElement (s : CpuState) (packet : InstructionPacket) (group : VectorRegisterGroup)
    (fill : Bool) (value : BitVec 64) (element : ℕ) : Option Trap × CpuState :=
  if fill then s.putElement packet group value element else (none, s)

/-! ## Integer and floating elements -/

def integerOperand (s : CpuState) (instruction : VectorIntegerInstruction) (sewBits : ℕ)
    (source1 : Option VectorRegisterGroup) (element : ℕ) : Option (BitVec 64) :=
  match instruction.form with
  | .vectorVector => source1.bind (s.vectorElement · element)
  | .vectorScalar => some (s.integer instruction.source1)
  | .vectorImmediate => some (signExtendVectorImmediate instruction.source1 sewBits)

def integerElement (packet : InstructionPacket) (instruction : VectorIntegerInstruction)
    (vtype : BitVec 64) (configuration : VectorConfiguration)
    (destination source2 : VectorRegisterGroup) (source1 : Option VectorRegisterGroup)
    (s : CpuState) (element : ℕ) : Option Trap × CpuState :=
  if s.maskedOff instruction.masked element then
    s.skipElement packet destination (maskAgnostic vtype) (agnosticValue configuration.sewBits)
      element
  else
    match s.vectorElement source2 element,
      s.integerOperand instruction configuration.sewBits source1 element with
    | some lhs, some rhs =>
      s.putElement packet destination
        (executeVectorIntegerOperation instruction.operation lhs rhs configuration.sewBits) element
    | _, _ => (some (illegalTrap packet), s)

def floatingOperand (s : CpuState) (instruction : VectorFloatingInstruction)
    (source1 : Option VectorRegisterGroup) (element : ℕ) : Option (BitVec 64) :=
  match instruction.form with
  | .vectorVector => source1.bind (s.vectorElement · element)
  | .vectorScalarFloating => some (s.floating instruction.source1)

/-- The state is paired with the flags accumulated so far; only active elements contribute. -/
def floatingElement (packet : InstructionPacket) (instruction : VectorFloatingInstruction)
    (vtype : BitVec 64) (format : FloatingFormat) (rounding : FloatingRoundingMode)
    (agnostic : BitVec 64) (destination source2 : VectorRegisterGroup)
    (source1 : Option VectorRegisterGroup) (s : CpuState × BitVec 8) (element : ℕ) :
    Option Trap × CpuState × BitVec 8 :=
  if s.1.maskedOff instruction.masked element then
    let skipped := s.1.skipElement packet destination (maskAgnostic vtype) agnostic element
    (skipped.1, skipped.2, s.2)
  else
    match s.1.vectorElement source2 element, s.1.floatingOperand instruction source1 element with
    | some lhs, some rhs =>
      let result := executeVectorFloatingOperation instruction.operation format lhs rhs rounding
      let written := s.1.putElement packet destination result.bits element
      (written.1, written.2, s.2 ||| result.flags)
    | _, _ => (some (illegalTrap packet), s)

end CpuState

namespace Cpu

/-- The common end: an early exit is the trap of the step, otherwise `vstart` is cleared. -/
def finishVector (packet : InstructionPacket) (sequentialPc : BitVec 64) :
    Option Trap × Cpu → StepResult × Cpu
  | (some trap, c) => (.failure trap packet.length, c)
  | (none, c) =>
    (c.modifyState (·.modifyCsrs (·.clearVectorStartAfterInstruction))).retire packet sequentialPc

/-! ## Configuration -/

/-- The requested `vtype` with the application vector length, `none` in the form that preserves
`vl`. -/
def requestedConfiguration (instruction : DecodedInstruction) (source1 source2 : BitVec 64) :
    Option (BitVec 64 × Option (BitVec 64)) :=
  let applicationVectorLength : Option (BitVec 64) :=
    if instruction.source1 = 0#5 ∧ instruction.destination = 0#5 then none
    else some (if instruction.source1 = 0#5 then BitVec.allOnes 64 else source1)
  if instruction.function7 = 0x40#7 then some (source2, applicationVectorLength)  -- vsetvl
  else if instruction.bits &&& (1#32 <<< 31) = 0#32 then  -- vsetvli
    some ((instruction.bits.extractLsb' 20 11).setWidth 64, applicationVectorLength)
  else if instruction.bits &&& (3#32 <<< 30) = 3#32 <<< 30 then  -- vsetivli
    some ((instruction.bits.extractLsb' 20 10).setWidth 64,
      some (instruction.source1.setWidth 64))
  else none

def commitConfiguration (c : Cpu) (vtype vl : BitVec 64) : Cpu :=
  c.modifyState (·.modifyCsrs (·.commitVectorConfiguration vtype vl))

/-- An unsupported `vtype` is not an illegal instruction: it commits `vill` with `vl` zero. -/
def executeVectorConfiguration (c : Cpu) (packet : InstructionPacket)
    (instruction : DecodedInstruction) (sequentialPc : BitVec 64) : StepResult × Cpu :=
  if instruction.function3 ≠ 7#3 ∨ !c.state.csrs.vectorStateEnabled then c.illegal packet
  else
    let source1 := c.state.integer instruction.source1
    let source2 := c.state.integer instruction.source2
    match requestedConfiguration instruction source1 source2 with
    | none => c.illegal packet
    | some (requestedVtype, none) =>
      if !canPreserveVectorLength (c.state.csrs.readValue .vtype) requestedVtype then
        c.illegal packet
      else
        (c.commitConfiguration (decodeVectorConfiguration requestedVtype).vtype
          (c.state.csrs.readValue .vl)).retire packet sequentialPc
    | some (requestedVtype, some applicationVectorLength) =>
      let configuration := decodeVectorConfiguration requestedVtype
      if configuration.valid then
        let vectorLength := selectVectorLength applicationVectorLength configuration.vlmax
        (c.commitConfiguration configuration.vtype vectorLength).writeAndRetire packet
          instruction.destination vectorLength sequentialPc
      else
        (c.commitConfiguration vtypeVill 0#64).writeAndRetire packet instruction.destination 0#64
          sequentialPc

/-! ## Memory -/

/-- Leave an element access with `vstart` at the element. -/
def trapAtElement (element : ℕ) (trap : Trap) (c : Cpu) : Option Trap × Cpu :=
  (some trap, c.modifyState (·.modifyCsrs (·.setVectorStartForTrap (BitVec.ofNat 64 element))))

/-- Run a state change of the registers on the hart. -/
def onState (c : Cpu) (changed : Option Trap × CpuState) : Option Trap × Cpu :=
  (changed.1, { c with state := changed.2 })

/-- The bytes of one element, least significant first. -/
def loadBytes (packet : InstructionPacket) (address : BitVec 64) (transferBytes : ℕ) (c : Cpu) :
    Option Trap × BitVec 64 × Cpu :=
  forElements
    (fun (s : BitVec 64 × Cpu) byte ↦
      let loaded := s.2.guestRead packet (address + BitVec.ofNat 64 byte) .byte .load .load
      (loaded.1.trap, s.1 ||| ((loaded.1.access.value &&& 0xFF#64) <<< (byte * 8)), loaded.2))
    (elementsFrom 0 transferBytes) (0#64, c)

def storeBytes (packet : InstructionPacket) (address value : BitVec 64) (transferBytes : ℕ)
    (c : Cpu) : Option Trap × Cpu :=
  forElements
    (fun (c : Cpu) byte ↦
      let stored := c.guestWrite packet (address + BitVec.ofNat 64 byte) .byte
        (value >>> (byte * 8)) .store
      (stored.1.trap, stored.2))
    (elementsFrom 0 transferBytes) c

def loadElement (packet : InstructionPacket) (group : VectorRegisterGroup) (address : BitVec 64)
    (transferBytes : ℕ) (c : Cpu) (element : ℕ) : Option Trap × Cpu :=
  let loaded := loadBytes packet address transferBytes c
  match loaded.1 with
  | some trap => trapAtElement element trap loaded.2.2
  | none => loaded.2.2.onState (loaded.2.2.state.putElement packet group loaded.2.1 element)

def storeElement (packet : InstructionPacket) (group : VectorRegisterGroup) (address : BitVec 64)
    (transferBytes : ℕ) (c : Cpu) (element : ℕ) : Option Trap × Cpu :=
  match c.state.vectorElement group element with
  | none => (some (illegalTrap packet), c)
  | some value =>
    let stored := storeBytes packet address value transferBytes c
    match stored.1 with
    | some trap => trapAtElement element trap stored.2
    | none => (none, stored.2)

def memoryElement (packet : InstructionPacket) (operation : VectorMemoryOperation)
    (vtype : BitVec 64) (group : VectorRegisterGroup) (base stride : BitVec 64) (c : Cpu)
    (element : ℕ) : Option Trap × Cpu :=
  if c.state.maskedOff operation.masked element then
    c.onState (c.state.skipElement packet group (operation.load && maskAgnostic vtype)
      (agnosticValue operation.elementWidthBits) element)
  else
    -- the address wraps around; a negative stride is a two's-complement pattern
    let address := base + BitVec.ofNat 64 element * stride
    if operation.load then
      loadElement packet group address (operation.elementWidthBits / 8) c element
    else storeElement packet group address (operation.elementWidthBits / 8) c element

/-- The register group of a vector access, when the access is allowed. -/
def memoryGroup (c : Cpu) (operation : VectorMemoryOperation) : Option VectorRegisterGroup := do
  let current := decodeVectorConfiguration (c.state.csrs.readValue .vtype)
  let configuration ← deriveMemoryConfiguration current operation.elementWidthBits
  let group ← VectorRegisterGroup.create configuration operation.vectorRegister
  if (c.state.csrs.readValue .vl).toNat > current.vlmax
      -- a masked load must not overwrite the mask it may be restarted with
      || (operation.load && operation.masked && operation.vectorRegister == 0#5) then none
  else some group

def executeVectorMemory (c : Cpu) (packet : InstructionPacket) (operation : VectorMemoryOperation)
    (sequentialPc : BitVec 64) : StepResult × Cpu :=
  if !c.state.csrs.vectorStateEnabled then c.illegal packet
  else
    match c.memoryGroup operation with
    | none => c.illegal packet
    | some group =>
      let vtype := c.state.csrs.readValue .vtype
      let base := c.state.integer operation.baseRegister
      let stride :=
        match operation.addressingMode with
        | .strided => c.state.integer operation.strideRegister
        | .unitStride => BitVec.ofNat 64 (operation.elementWidthBits / 8)
      finishVector packet sequentialPc
        (runElements (memoryElement packet operation vtype group base stride)
          (fun (c : Cpu) element ↦
            c.onState (c.state.putElement packet group (agnosticValue operation.elementWidthBits)
              element))
          c.state.csrs.vstart.toNat (c.state.csrs.readValue .vl).toNat
          (decodeVectorConfiguration vtype).vlmax (operation.load && tailAgnostic vtype) c)

/-! ## Integer and floating operations -/

/-- The groups of an arithmetic instruction, when the configuration admits all of them. -/
def arithmeticGroups (configuration : VectorConfiguration) (destination source2 source1 : BitVec 5)
    (vectorVector : Bool) :
    Option (VectorRegisterGroup × VectorRegisterGroup × Option VectorRegisterGroup) := do
  let destinationGroup ← VectorRegisterGroup.create configuration destination
  let source2Group ← VectorRegisterGroup.create configuration source2
  if vectorVector then
    let source1Group ← VectorRegisterGroup.create configuration source1
    some (destinationGroup, source2Group, some source1Group)
  else some (destinationGroup, source2Group, none)

def executeVectorInteger (c : Cpu) (packet : InstructionPacket)
    (instruction : VectorIntegerInstruction) (sequentialPc : BitVec 64) : StepResult × Cpu :=
  if !c.state.csrs.vectorStateEnabled then c.illegal packet
  else
    let vtype := c.state.csrs.readValue .vtype
    let vl := (c.state.csrs.readValue .vl).toNat
    let configuration := decodeVectorConfiguration vtype
    match arithmeticGroups configuration instruction.destination instruction.source2
      instruction.source1 (instruction.form == .vectorVector) with
    | none => c.illegal packet
    | some (destination, source2, source1) =>
      if (instruction.masked && instruction.destination == 0#5) || vl > configuration.vlmax then
        c.illegal packet
      else
        finishVector packet sequentialPc
          (c.onState
            (runElements
              (CpuState.integerElement packet instruction vtype configuration destination source2
                source1)
              (fun s element ↦
                s.putElement packet destination (agnosticValue configuration.sewBits) element)
              c.state.csrs.vstart.toNat vl configuration.vlmax (tailAgnostic vtype) c.state))

/-- The flags are merged only after every element succeeded. -/
def onFloatingState (c : Cpu) (changed : Option Trap × CpuState × BitVec 8) : Option Trap × Cpu :=
  match changed with
  | (some trap, s, _) => (some trap, { c with state := s })
  | (none, s, flags) =>
    (none, { c with state := s.modifyCsrs (·.accrueFloatingExceptionFlags flags) })

def executeVectorFloating (c : Cpu) (packet : InstructionPacket)
    (instruction : VectorFloatingInstruction) (sequentialPc : BitVec 64) : StepResult × Cpu :=
  if !c.state.csrs.vectorStateEnabled || !c.state.csrs.floatingStateEnabled then c.illegal packet
  else
    let vtype := c.state.csrs.readValue .vtype
    let vl := (c.state.csrs.readValue .vl).toNat
    let configuration := decodeVectorConfiguration vtype
    if !configuration.valid || (configuration.sewBits != 32 && configuration.sewBits != 64) then
      c.illegal packet
    else
      match arithmeticGroups configuration instruction.destination instruction.source2
          instruction.source1 (instruction.form == .vectorVector),
        resolveFloatingRoundingMode 7#3 c.state.csrs.floatingRoundingMode with
      | some (destination, source2, source1), some rounding =>
        if (instruction.masked && instruction.destination == 0#5) || vl > configuration.vlmax then
          c.illegal packet
        else
          let agnostic :=
            if configuration.sewBits = 64 then BitVec.allOnes 64 else 0xFFFFFFFF#64
          let format : FloatingFormat := if configuration.sewBits = 32 then .single else .double
          finishVector packet sequentialPc
            (c.onFloatingState
              (runElements
                (CpuState.floatingElement packet instruction vtype format rounding agnostic
                  destination source2 source1)
                (fun s element ↦
                  ((s.1.putElement packet destination agnostic element).1,
                    (s.1.putElement packet destination agnostic element).2, s.2))
                c.state.csrs.vstart.toNat vl configuration.vlmax (tailAgnostic vtype)
                (c.state, 0#8)))
      | _, _ => c.illegal packet

end Cpu

end Rvemu
