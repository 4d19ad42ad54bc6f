import Rvemu.Core.BusActivity
import Rvemu.Core.ExecutedVector
import Rvemu.Core.Precise

/-!
# What the hart asks of the bus

`Cpu.requests` is the list of the requests that one step of the hart makes of the bus, in order: the
exchange of a translation that updates a page table entry, the reads of the fetch, and the accesses
of the instruction.  An instruction that traps makes no more of them.  The bus after the step is the
bus after these requests (`bus_step`), so what happens to a device in a step can be read off them.
-/

set_option autoImplicit false

namespace Rvemu

/-- The exchange of a translation. -/
def Mmu.walkRequests (m : Mmu) (b : Bus) (va : BitVec 64) (kind : MmuAccessKind)
    (context : MmuContext) : List BusRequest :=
  match m.walkExchange b va kind context with
  | none => []
  | some (a, expected, desired) => [.compareExchange a .doubleWord expected desired]

/-- The bus after a translation. -/
theorem Mmu.run_walkRequests (m : Mmu) (b : Bus) (va : BitVec 64) (w : AccessWidth)
    (kind : MmuAccessKind) (context : MmuContext) :
    (m.translate b va w kind context).2.2 =
      Runs.run Bus.perform b (m.walkRequests b va kind context) := by
  rw [bus_translate, walkRequests]
  cases m.walkExchange b va kind context <;> rfl

namespace Cpu

/-! ## The accesses -/

/-- The exchange of the translation, and the access at the physical address. -/
def accessRequests (c : Cpu) (va : BitVec 64) (width : AccessWidth) (kind : MmuAccessKind)
    (context : MmuContext) (request : BitVec 64 → BusRequest) : List BusRequest :=
  c.mmu.walkRequests c.bus va kind context ++
    match (c.mmu.translate c.bus va width kind context).1 with
    | .error _ => []
    | .ok pa => [request pa]

def readRequests (c : Cpu) (va : BitVec 64) (width : AccessWidth) (kind : MmuAccessKind)
    (type : AccessType) : List BusRequest :=
  c.accessRequests va width kind
    (if kind = .instructionFetch then c.fetchContext else c.dataContext) (.read · width type)

def writeRequests (c : Cpu) (va : BitVec 64) (width : AccessWidth) (value : BitVec 64)
    (type : AccessType) : List BusRequest :=
  c.accessRequests va width .atomic c.dataContext (.write · width value type)

/-- Another access follows one that did not trap. -/
def requestsAfter (first : List BusRequest) (accessed : GuestAccessResult × Cpu)
    (next : GuestAccessResult → Cpu → List BusRequest) : List BusRequest :=
  first ++
    match accessed.1.trap with
    | some _ => []
    | none => next accessed.1 accessed.2

/-! ## The instructions -/

def loadRequests (c : Cpu) (packet : InstructionPacket) (instruction : DecodedInstruction)
    (source1 : BitVec 64) : List BusRequest :=
  match loadFormat instruction.function3 with
  | none => []
  | some (width, _) => c.readRequests (source1 + immediateI packet.bits) width .load .load

def storeRequests (c : Cpu) (packet : InstructionPacket) (instruction : DecodedInstruction)
    (source1 source2 : BitVec 64) : List BusRequest :=
  match storeWidth instruction.function3 with
  | none => []
  | some width => c.writeRequests (source1 + immediateS packet.bits) width source2 .store

def loadReservedRequests (c : Cpu) (instruction : DecodedInstruction) (width : AccessWidth)
    (address : BitVec 64) : List BusRequest :=
  if instruction.source2 ≠ 0#5 then []
  else if misaligned address width then []
  else c.accessRequests address width .load c.dataContext (.loadReserved · width)

def storeConditionalRequests (c : Cpu) (width : AccessWidth) (address source2 : BitVec 64) :
    List BusRequest :=
  if misaligned address width then []
  else
    c.accessRequests address width .store c.dataContext
      (.storeConditional c.state.reservationToken · width source2)

/-- One request for every attempt. -/
def exchangeRequests (c : Cpu) (packet : InstructionPacket) (operation : AtomicOperation)
    (address source2 : BitVec 64) (width : AccessWidth) (wordOperation : Bool)
    (original : BitVec 64) : ℕ → List BusRequest
  | 0 => []
  | attempts + 1 =>
    let desired := executeAtomicOperation operation original source2 wordOperation
    let exchanged := c.guestCompareExchange packet address width original desired
    c.accessRequests address width .store c.dataContext (.compareExchange · width original desired)
      ++ if exchanged.1.trap.isSome || exchanged.1.access.exchanged then []
        else
          exchanged.2.exchangeRequests packet operation address source2 width wordOperation
            exchanged.1.access.value attempts

/-- The bound of the loop is never what ends it; an AMO that it would end has done nothing after its
read. -/
def amoRequests (c : Cpu) (packet : InstructionPacket) (operation : AtomicOperation)
    (width : AccessWidth) (wordOperation : Bool) (address source2 : BitVec 64) :
    List BusRequest :=
  if misaligned address width then []
  else
    requestsAfter (c.readRequests address width .atomic .atomic)
      (c.guestRead packet address width .atomic .atomic) fun observed c ↦
        if (c.exchangeLoop packet operation address source2 width wordOperation
            observed.access.value exchangeAttempts).isNone then []
        else
          c.exchangeRequests packet operation address source2 width wordOperation
            observed.access.value exchangeAttempts

def atomicRequests (c : Cpu) (packet : InstructionPacket) (instruction : DecodedInstruction)
    (source1 source2 : BitVec 64) : List BusRequest :=
  let wordOperation := instruction.function3 == 2#3
  if !wordOperation && instruction.function3 != 3#3 then []
  else
    let width : AccessWidth := if wordOperation then .word else .doubleWord
    let address := source1
    let function5 := packet.bits.extractLsb' 27 5
    if function5 = 0x02#5 then c.loadReservedRequests instruction width address
    else if function5 = 0x03#5 then c.storeConditionalRequests width address source2
    else
      match decodeAtomicOperation function5 with
      | none => []
      | some operation => c.amoRequests packet operation width wordOperation address source2

def floatingRequests (c : Cpu) (packet : InstructionPacket) (instruction : DecodedInstruction) :
    List BusRequest :=
  if !c.state.csrs.floatingStateEnabled then []
  else
    match floatingAccess instruction.function3 with
    | none => []
    | some (width, _) =>
      let source1 := c.state.integer instruction.source1
      if instruction.opcode = 0x07#7 then
        c.readRequests (source1 + immediateI packet.bits) width .load .load
      else
        c.writeRequests (source1 + immediateS packet.bits) width
          (c.state.floating instruction.source2) .store

/-! ### Vector accesses -/

/-- The requests of the elements that are visited. -/
def elementRequests {σ ε : Type} (body : σ → ℕ → Option ε × σ)
    (requests : σ → ℕ → List BusRequest) : List ℕ → σ → List BusRequest
  | [], _ => []
  | element :: rest, s =>
    requests s element ++
      match (body s element).1 with
      | some _ => []
      | none => elementRequests body requests rest (body s element).2

/-- The requests of the bytes of an element. -/
def byteRequests (access : Cpu → ℕ → GuestAccessResult × Cpu) (requests : Cpu → ℕ → List BusRequest)
    (transferBytes : ℕ) : Cpu → List BusRequest :=
  elementRequests (fun c byte ↦ ((access c byte).1.trap, (access c byte).2)) requests
    (elementsFrom 0 transferBytes)

def loadByteRequests (packet : InstructionPacket) (address : BitVec 64) :
    ℕ → Cpu → List BusRequest :=
  byteRequests
    (fun c byte ↦ c.guestRead packet (address + BitVec.ofNat 64 byte) .byte .load .load)
    fun c byte ↦ c.readRequests (address + BitVec.ofNat 64 byte) .byte .load .load

def storeByteRequests (packet : InstructionPacket) (address value : BitVec 64) :
    ℕ → Cpu → List BusRequest :=
  byteRequests
    (fun c byte ↦ c.guestWrite packet (address + BitVec.ofNat 64 byte) .byte (value >>> (byte * 8))
      .store)
    fun c byte ↦
      c.writeRequests (address + BitVec.ofNat 64 byte) .byte (value >>> (byte * 8)) .store

def memoryElementRequests (packet : InstructionPacket) (operation : VectorMemoryOperation)
    (group : VectorRegisterGroup) (base stride : BitVec 64) (c : Cpu) (element : ℕ) :
    List BusRequest :=
  if c.state.maskedOff operation.masked element then []
  else
    let address := base + BitVec.ofNat 64 element * stride
    let transferBytes := operation.elementWidthBits / 8
    if operation.load then loadByteRequests packet address transferBytes c
    else
      match c.state.vectorElement group element with
      | none => []
      | some value => storeByteRequests packet address value transferBytes c

def vectorMemoryRequests (c : Cpu) (packet : InstructionPacket)
    (operation : VectorMemoryOperation) : List BusRequest :=
  if !c.state.csrs.vectorStateEnabled then []
  else
    match c.memoryGroup operation with
    | none => []
    | some group =>
      let base := c.state.integer operation.baseRegister
      let stride :=
        match operation.addressingMode with
        | .strided => c.state.integer operation.strideRegister
        | .unitStride => BitVec.ofNat 64 (operation.elementWidthBits / 8)
      elementRequests
        (memoryElement packet operation (c.state.csrs.readValue .vtype) group base stride)
        (memoryElementRequests packet operation group base stride)
        (elementsFrom c.state.csrs.vstart.toNat (c.state.csrs.readValue .vl).toNat) c

/-! ## A step -/

/-- Loads, stores and atomics are the instructions with accesses. -/
def standardRequests (c : Cpu) (packet : InstructionPacket) : List BusRequest :=
  let instruction := decode packet.bits
  let source1 := c.state.integer instruction.source1
  let source2 := c.state.integer instruction.source2
  if instruction.opcode = 0x03#7 then c.loadRequests packet instruction source1
  else if instruction.opcode = 0x23#7 then c.storeRequests packet instruction source1 source2
  else if instruction.opcode = 0x2F#7 then c.atomicRequests packet instruction source1 source2
  else if instruction.opcode = 0x07#7 ∨ instruction.opcode = 0x27#7 then
    match decodeVectorMemoryOperation packet.bits (instruction.opcode == 0x07#7) with
    | some operation => c.vectorMemoryRequests packet operation
    | none => c.floatingRequests packet instruction
  else []

def executeRequests (c : Cpu) (packet : InstructionPacket) : List BusRequest :=
  if packet.compressed then
    match decompressRv64c (packet.bits.setWidth 16) with
    | none => []
    | some expanded => c.standardRequests { packet with bits := expanded }
  else c.standardRequests packet

def fetchRequests (c : Cpu) : List BusRequest :=
  let pc := c.state.programCounter
  if (pc &&& 1#64) != 0#64 then []
  else
    requestsAfter (c.readRequests pc .halfWord .instructionFetch .instructionFetch)
      (c.guestRead { programCounter := pc } pc .halfWord .instructionFetch .instructionFetch)
      fun lower c ↦
        if lower.access.value.setWidth 16 &&& 3#16 ≠ 3#16 ∨ pc > BitVec.allOnes 64 - 2#64 then []
        else c.readRequests (pc + 2#64) .halfWord .instructionFetch .instructionFetch

def awakeRequests (c : Cpu) : List BusRequest :=
  c.fetchRequests ++
    match c.fetch.1 with
    | .error _ => []
    | .ok packet => c.fetch.2.executeRequests packet

/-- What one step of the hart asks of the bus, in order. -/
def requests (c : Cpu) : List BusRequest :=
  let c := { c with suppressCycleIncrement := false, suppressInstretIncrement := false }
  if c.state.waitingForInterrupt then
    if !c.state.csrs.hasLocallyEnabledInterrupt then []
    else (c.modifyState (·.setWaitingForInterrupt false)).awakeRequests
  else c.awakeRequests

/-- A traversal whose body is another one with something more in the state. -/
theorem forElements_project {σ τ ε : Type} {f : σ → τ} {body : σ → ℕ → Option ε × σ}
    {body' : τ → ℕ → Option ε × τ} (h : ∀ s e, body' (f s) e = ((body s e).1, f (body s e).2))
    (l : List ℕ) (s : σ) :
    forElements body' l (f s) = ((forElements body l s).1, f (forElements body l s).2) := by
  induction l generalizing s with
  | nil => rfl
  | cons element l ih =>
    rw [forElements, forElements, h]
    cases (body s element).1 with
    | some exit => rfl
    | none => exact ih _

/-! ## The bus serves them -/

/-- The bus of the second hart is that of the first after the requests. -/
def Served (c c' : Cpu) (requests : List BusRequest) : Prop :=
  c'.bus = Runs.run Bus.perform c.bus requests

namespace Served

variable {c c' c'' : Cpu} {packet : InstructionPacket} {first later : List BusRequest}

theorem refl (c : Cpu) : Served c c [] := rfl

theorem trans (h : Served c c' first) (h' : Served c' c'' later) :
    Served c c'' (first ++ later) := by
  rw [Served, h', h, Runs.run_append]

theorem guestAccess {op : BusOperation} {request : BitVec 64 → BusRequest}
    (hop : ∀ b pa, (op b pa).2 = b.perform (request pa)) (c : Cpu) (packet : InstructionPacket)
    (va : BitVec 64) (width : AccessWidth) (kind : MmuAccessKind) (context : MmuContext)
    (cause : ExceptionCause) :
    Served c (c.guestAccess packet va width kind context cause op).2
      (c.accessRequests va width kind context request) := by
  have htranslate := c.mmu.run_walkRequests c.bus va width kind context
  rw [Served, Cpu.guestAccess, accessRequests, Runs.run_append, ← htranslate]
  rcases accessTranslated_cases _ packet va cause op (c.mmu.translate c.bus va width kind context).1
    with ⟨fault, hfault, hr⟩ | ⟨pa, hok, hbus, -⟩
  · rw [hr, hfault]
    rfl
  · rw [hbus, hok]
    exact hop _ pa

theorem guestRead (c : Cpu) (packet : InstructionPacket) (va : BitVec 64) (width : AccessWidth)
    (kind : MmuAccessKind) (type : AccessType) :
    Served c (c.guestRead packet va width kind type).2 (c.readRequests va width kind type) :=
  guestAccess (fun _ _ ↦ rfl) ..

theorem guestWrite (c : Cpu) (packet : InstructionPacket) (va : BitVec 64) (width : AccessWidth)
    (value : BitVec 64) (type : AccessType) :
    Served c (c.guestWrite packet va width value type).2 (c.writeRequests va width value type) :=
  guestAccess (fun _ _ ↦ rfl) ..

/-- An instruction that ends with an access. -/
theorem afterAccess {accessed : GuestAccessResult × Cpu}
    {next : GuestAccessResult → Cpu → StepResult × Cpu} (ha : Served c accessed.2 first)
    (hn : (next accessed.1 accessed.2).2.bus = accessed.2.bus) :
    Served c (Cpu.afterAccess packet accessed next).2 first := by
  rw [Cpu.afterAccess]
  split
  · exact ha
  · exact hn.trans ha

theorem requestsAfter {accessed : GuestAccessResult × Cpu}
    {next : GuestAccessResult → Cpu → StepResult × Cpu}
    {requests : GuestAccessResult → Cpu → List BusRequest} (ha : Served c accessed.2 first)
    (hn : Served accessed.2 (next accessed.1 accessed.2).2 (requests accessed.1 accessed.2)) :
    Served c (Cpu.afterAccess packet accessed next).2
      (Cpu.requestsAfter first accessed requests) := by
  rw [Cpu.afterAccess, Cpu.requestsAfter]
  cases accessed.1.trap with
  | some trap => exact ha.trans rfl
  | none => exact ha.trans hn

/-! ### Scalar instructions -/

section Scalar

variable (instruction : DecodedInstruction) (source1 source2 sequentialPc : BitVec 64)

theorem jumpTo (target : BitVec 64) (commit : CpuState → CpuState) :
    Served c (c.jumpTo packet target commit).2 [] := by
  rw [Cpu.jumpTo]
  split <;> exact refl c

theorem executeComputed (index : BitVec 5) (result : Option (BitVec 64)) :
    Served c (c.executeComputed packet index sequentialPc result).2 [] := by
  cases result <;> exact refl c

theorem executeJalr :
    Served c (c.executeJalr packet instruction source1 sequentialPc).2 [] := by
  rw [Cpu.executeJalr]
  split
  · exact refl c
  · exact jumpTo _ _

theorem executeBranch :
    Served c (c.executeBranch packet instruction source1 source2 sequentialPc).2 [] := by
  rw [Cpu.executeBranch]
  split
  · exact refl c
  · exact refl c
  · exact jumpTo _ _

theorem executeLoad : Served c (c.executeLoad packet instruction source1 sequentialPc).2
    (c.loadRequests packet instruction source1) := by
  rw [Cpu.executeLoad, loadRequests]
  cases loadFormat instruction.function3 with
  | none => exact refl c
  | some format => exact afterAccess (guestRead c packet _ _ .load .load) rfl

theorem executeStore : Served c (c.executeStore packet instruction source1 source2 sequentialPc).2
    (c.storeRequests packet instruction source1 source2) := by
  rw [Cpu.executeStore, storeRequests]
  cases storeWidth instruction.function3 with
  | none => exact refl c
  | some width => exact afterAccess (guestWrite c packet _ _ source2 .store) rfl

theorem exchangeLoop (operation : AtomicOperation) (address source2 : BitVec 64)
    (width : AccessWidth) (word : Bool) (attempts : ℕ) {original : BitVec 64} {c : Cpu}
    {r : (GuestAccessResult × BitVec 64) × Cpu}
    (h : c.exchangeLoop packet operation address source2 width word original attempts = some r) :
    Served c r.2
      (c.exchangeRequests packet operation address source2 width word original attempts) := by
  induction attempts generalizing c original with
  | zero => cases h
  | succ attempts ih =>
    rw [Cpu.exchangeLoop] at h
    have hexchange : Served c (c.guestCompareExchange packet address width original
        (executeAtomicOperation operation original source2 word)).2
        (c.accessRequests address width .store c.dataContext (.compareExchange · width original
          (executeAtomicOperation operation original source2 word))) :=
      guestAccess (fun _ _ ↦ rfl) ..
    rw [exchangeRequests]
    split at h
    · next hend =>
      obtain rfl := Option.some.inj h
      rw [if_pos hend, List.append_nil]
      exact hexchange
    · next hlost =>
      rw [if_neg hlost]
      exact hexchange.trans (ih h)

theorem executeAmo (operation : AtomicOperation) (width : AccessWidth) (word : Bool)
    (address : BitVec 64) :
    Served c
      (c.executeAmo packet instruction operation width word address source2 sequentialPc).2
      (c.amoRequests packet operation width word address source2) := by
  rw [Cpu.executeAmo, amoRequests]
  split
  · exact refl c
  · refine requestsAfter (guestRead c packet address width .atomic .atomic) ?_
    generalize (c.guestRead packet address width .atomic .atomic).2 = d
    cases hloop : d.exchangeLoop packet operation address source2 width word _
      Cpu.exchangeAttempts with
    | none => exact refl d
    | some r => exact afterAccess (exchangeLoop operation address source2 width word _ hloop) rfl

theorem executeLoadReserved (width : AccessWidth) (word : Bool) (address : BitVec 64) :
    Served c (c.executeLoadReserved packet instruction width word address sequentialPc).2
      (c.loadReservedRequests instruction width address) := by
  rw [Cpu.executeLoadReserved, loadReservedRequests]
  by_cases hsource : instruction.source2 ≠ 0#5
  · rw [if_pos hsource, if_pos hsource]
    exact refl c
  · rw [if_neg hsource, if_neg hsource]
    split
    · exact refl c
    · exact afterAccess (guestAccess (fun _ _ ↦ rfl) ..) rfl

theorem executeStoreConditional (width : AccessWidth) (address : BitVec 64) :
    Served c
      (c.executeStoreConditional packet instruction width address source2 sequentialPc).2
      (c.storeConditionalRequests width address source2) := by
  rw [Cpu.executeStoreConditional, storeConditionalRequests]
  split
  · exact refl c
  · have hstore (d : Cpu) (token : ReservationToken) :
        Served d (d.guestStoreConditional packet token address width source2).2
          (d.accessRequests address width .store d.dataContext
            (.storeConditional token · width source2)) :=
      guestAccess (fun _ _ ↦ rfl) ..
    exact afterAccess (hstore (c.modifyState (·.setReservationToken {})) _) rfl

theorem executeAtomic :
    Served c (c.executeAtomic packet instruction source1 source2 sequentialPc).2
      (c.atomicRequests packet instruction source1 source2) := by
  rw [Cpu.executeAtomic, atomicRequests]
  dsimp only
  split
  · exact refl c
  · split
    · exact executeLoadReserved ..
    · split
      · exact executeStoreConditional ..
      · cases decodeAtomicOperation (packet.bits.extractLsb' 27 5) with
        | none => exact refl c
        | some operation => exact executeAmo ..

theorem executeSystem :
    Served c (c.executeSystem packet instruction source1 sequentialPc).2 [] := by
  show (c.executeSystem packet instruction source1 sequentialPc).2.bus = c.bus
  rw [Cpu.executeSystem]
  split
  · rw [Cpu.executePrivileged, Cpu.executeSfenceVma]
    dsimp only
    split_ifs <;> rfl
  · split
    · rfl
    · rw [Cpu.executeCsr]
      dsimp only
      split <;> rfl

theorem commit (state : Option CpuState) : Served c (c.commit packet sequentialPc state).2 [] := by
  cases state <;> exact refl c

/-- The loads and stores among the floating-point instructions. -/
theorem executeFloating (h : instruction.opcode = 0x07#7 ∨ instruction.opcode = 0x27#7) :
    Served c (c.executeFloating packet instruction sequentialPc).2
      (c.floatingRequests packet instruction) := by
  rw [Cpu.executeFloating, floatingRequests]
  split
  · exact refl c
  · by_cases hload : instruction.opcode = 0x07#7
    · rw [if_pos hload, Cpu.executeFloatingLoad]
      cases floatingAccess instruction.function3 with
      | none => exact refl c
      | some access =>
        dsimp only
        rw [if_pos hload]
        exact afterAccess (guestRead c packet _ _ .load .load) rfl
    · rw [if_neg hload, if_pos (h.resolve_left hload), Cpu.executeFloatingStore]
      cases floatingAccess instruction.function3 with
      | none => exact refl c
      | some access =>
        dsimp only
        rw [if_neg hload]
        exact afterAccess (guestWrite c packet _ _ _ .store) rfl

/-- The others make no access. -/
theorem executeFloating_of_ne (hload : instruction.opcode ≠ 0x07#7)
    (hstore : instruction.opcode ≠ 0x27#7) :
    Served c (c.executeFloating packet instruction sequentialPc).2 [] := by
  rw [Cpu.executeFloating, if_neg hload, if_neg hstore]
  split_ifs
  · exact refl c
  · exact commit _ _
  · exact refl c
  · exact commit _ _

end Scalar

/-! ### Vector instructions -/

section Vector

variable (sequentialPc : BitVec 64)

theorem finishVector {r : Option Trap × Cpu} (h : Served c r.2 first) :
    Served c (Cpu.finishVector packet sequentialPc r).2 first := by
  obtain ⟨exit, d⟩ := r
  cases exit <;> exact h

theorem forElements {ε : Type} {body : Cpu → ℕ → Option ε × Cpu}
    {requests : Cpu → ℕ → List BusRequest}
    (hbody : ∀ d element, Served d (body d element).2 (requests d element)) (l : List ℕ) (c : Cpu) :
    Served c (Rvemu.forElements body l c).2 (elementRequests body requests l c) := by
  induction l generalizing c with
  | nil => exact refl c
  | cons element l ih =>
    rw [Rvemu.forElements, elementRequests]
    cases (body c element).1 with
    | some exit => exact (hbody c element).trans rfl
    | none => exact (hbody c element).trans (ih _)

/-- The tail makes no access. -/
theorem runElements {ε : Type} {body tail : Cpu → ℕ → Option ε × Cpu}
    {requests : Cpu → ℕ → List BusRequest}
    (hbody : ∀ d element, Served d (body d element).2 (requests d element))
    (htail : ∀ d element, (tail d element).2.bus = d.bus) (start vl vlmax : ℕ) (agnostic : Bool)
    (c : Cpu) :
    Served c (Rvemu.runElements body tail start vl vlmax agnostic c).2
      (elementRequests body requests (elementsFrom start vl) c) := by
  have hvisited := forElements hbody (elementsFrom start vl) c
  rw [Rvemu.runElements]
  split
  · dsimp only
    split
    · exact hvisited
    · exact forElements_preserves (I := fun d : Cpu ↦ Served c d _)
        (fun d element h ↦ (htail d element).trans h) _ hvisited
  · next hstart =>
    rw [elementsFrom, Nat.sub_eq_zero_of_le (Nat.not_lt.1 hstart)]
    exact refl c

theorem loadBytes (packet : InstructionPacket) (address : BitVec 64) (n : ℕ) (c : Cpu) :
    Served c (Cpu.loadBytes packet address n c).2.2 (loadByteRequests packet address n c) := by
  let body (d : Cpu) (byte : ℕ) : Option Trap × Cpu :=
    ((d.guestRead packet (address + BitVec.ofNat 64 byte) .byte .load .load).1.trap,
      (d.guestRead packet (address + BitVec.ofNat 64 byte) .byte .load .load).2)
  have hbody (d : Cpu) (byte : ℕ) : Served d (body d byte).2 _ :=
    guestRead d packet (address + BitVec.ofNat 64 byte) .byte .load .load
  have hbytes := forElements hbody (elementsFrom 0 n) c
  rw [show Rvemu.forElements _ (elementsFrom 0 n) c =
      ((Cpu.loadBytes packet address n c).1, (Cpu.loadBytes packet address n c).2.2) from
    forElements_project (f := Prod.snd) (fun _ _ ↦ rfl) (elementsFrom 0 n) (0#64, c)] at hbytes
  exact hbytes

theorem storeBytes (packet : InstructionPacket) (address value : BitVec 64) (n : ℕ) (c : Cpu) :
    Served c (Cpu.storeBytes packet address value n c).2
      (storeByteRequests packet address value n c) :=
  forElements (fun d _ ↦ guestWrite d packet _ .byte _ .store) (elementsFrom 0 n) c

theorem memoryElement (operation : VectorMemoryOperation) (vtype : BitVec 64)
    (group : VectorRegisterGroup) (base stride : BitVec 64) (c : Cpu) (element : ℕ) :
    Served c (Cpu.memoryElement packet operation vtype group base stride c element).2
      (memoryElementRequests packet operation group base stride c element) := by
  rw [Cpu.memoryElement, memoryElementRequests]
  split
  · exact refl c
  · dsimp only
    split
    · have hbytes := loadBytes packet (base + BitVec.ofNat 64 element * stride)
        (operation.elementWidthBits / 8) c
      rw [Cpu.loadElement]
      split <;> exact hbytes
    · rw [Cpu.storeElement]
      cases c.state.vectorElement group element with
      | none => exact refl c
      | some value =>
        have hbytes := storeBytes packet (base + BitVec.ofNat 64 element * stride) value
          (operation.elementWidthBits / 8) c
        dsimp only
        split <;> exact hbytes

theorem executeVectorMemory (operation : VectorMemoryOperation) :
    Served c (c.executeVectorMemory packet operation sequentialPc).2
      (c.vectorMemoryRequests packet operation) := by
  rw [Cpu.executeVectorMemory, vectorMemoryRequests]
  split
  · exact refl c
  · cases c.memoryGroup operation with
    | none => exact refl c
    | some group =>
      exact finishVector _ (runElements
        (fun d element ↦ memoryElement operation _ group _ _ d element) (fun _ _ ↦ rfl) ..)

/-- Vector arithmetic works on registers. -/
theorem executeOpV (instruction : DecodedInstruction) :
    Served c (c.executeOpV packet instruction sequentialPc).2 [] := by
  have honState (changed : Option Trap × CpuState) : Served c (c.onState changed).2 [] := refl c
  have honFloating (changed : Option Trap × CpuState × BitVec 8) :
      Served c (c.onFloatingState changed).2 [] := by
    obtain ⟨exit, s⟩ := changed
    cases exit <;> exact refl c
  rw [Cpu.executeOpV]
  split
  · rw [Cpu.executeVectorFloating]
    split
    · exact refl c
    · dsimp only
      split
      · exact refl c
      · split
        · split
          · exact refl c
          · exact finishVector _ (honFloating _)
        · exact refl c
  · split
    · rw [Cpu.executeVectorInteger]
      split
      · exact refl c
      · dsimp only
        split
        · exact refl c
        · split
          · exact refl c
          · exact finishVector _ (honState _)
    · rw [Cpu.executeVectorConfiguration]
      split
      · exact refl c
      · dsimp only
        split
        · exact refl c
        · split <;> exact refl c
        · split <;> exact refl c

end Vector

/-! ### A step -/

/-- One of two instructions. -/
theorem ite {p : Prop} [Decidable p] {r r' : StepResult × Cpu} (h : Served c r.2 first)
    (h' : Served c r'.2 first) : Served c (if p then r else r').2 first := by
  split
  · exact h
  · exact h'

theorem executeStandard (c : Cpu) (packet : InstructionPacket) :
    Served c (c.executeStandard packet).2 (c.standardRequests packet) := by
  rw [Cpu.executeStandard, standardRequests]
  generalize decode packet.bits = instruction
  by_cases hload : instruction.opcode = 0x03#7
  · simp only [hload, BitVec.reduceEq, if_true, if_false]
    exact executeLoad ..
  by_cases hstore : instruction.opcode = 0x23#7
  · simp only [hstore, BitVec.reduceEq, if_true, if_false]
    exact executeStore ..
  by_cases hatomic : instruction.opcode = 0x2F#7
  · simp only [hatomic, BitVec.reduceEq, if_true, if_false]
    exact executeAtomic ..
  simp only [hload, hstore, hatomic, if_false]
  by_cases hfloating : instruction.opcode = 0x07#7 ∨ instruction.opcode = 0x27#7
  · have hdispatch : Served c (c.executeLoadStoreFp packet instruction
        (packet.programCounter + BitVec.ofNat 64 packet.length)).2
        (match decodeVectorMemoryOperation packet.bits (instruction.opcode == 0x07#7) with
          | some operation => c.vectorMemoryRequests packet operation
          | none => c.floatingRequests packet instruction) := by
      rw [Cpu.executeLoadStoreFp]
      cases decodeVectorMemoryOperation packet.bits (instruction.opcode == 0x07#7) with
      | some operation => exact executeVectorMemory ..
      | none => exact executeFloating _ _ hfloating
    have hothers (opcode : BitVec 7) (h : opcode ≠ 0x07#7 ∧ opcode ≠ 0x27#7) :
        instruction.opcode ≠ opcode := by
      rintro rfl
      exact hfloating.elim h.1 h.2
    simpa only [hothers 0x57#7 (by decide), hothers 0x37#7 (by decide), hothers 0x17#7 (by decide),
      hothers 0x6F#7 (by decide), hothers 0x67#7 (by decide), hothers 0x63#7 (by decide),
      hothers 0x13#7 (by decide), hothers 0x1B#7 (by decide), hothers 0x33#7 (by decide),
      hothers 0x3B#7 (by decide), hfloating, if_true, if_false] using hdispatch
  -- the other instructions make no access
  simp only [hfloating, if_false]
  obtain ⟨hfload, hfstore⟩ := not_or.1 hfloating
  refine ite (executeOpV ..) (ite (refl c) (ite (refl c) ?_))
  refine ite (jumpTo ..) (ite (executeJalr ..) (ite (executeBranch ..) ?_))
  refine ite (executeComputed ..) (ite (executeComputed ..) ?_)
  refine ite (executeComputed ..) (ite (executeComputed ..) ?_)
  refine ite (executeFloating_of_ne _ _ hfload hfstore) ?_
  exact ite (ite (refl c) (refl c)) (ite (executeSystem ..) (refl c))

theorem execute (c : Cpu) (packet : InstructionPacket) :
    Served c (c.execute packet).2 (c.executeRequests packet) := by
  rw [Cpu.execute, executeRequests]
  split
  · cases decompressRv64c (packet.bits.setWidth 16) with
    | none => exact refl c
    | some expanded => exact executeStandard c _
  · exact executeStandard c packet

theorem fetch (c : Cpu) : Served c c.fetch.2 c.fetchRequests := by
  have hread := guestRead c { programCounter := c.state.programCounter } c.state.programCounter
    .halfWord .instructionFetch .instructionFetch
  rw [Cpu.fetch, fetchRequests]
  dsimp only
  split
  · exact refl c
  · rw [Cpu.requestsAfter]
    generalize c.guestRead { programCounter := c.state.programCounter } c.state.programCounter
      .halfWord .instructionFetch .instructionFetch = lower at hread ⊢
    cases lower.1.trap with
    | some trap => exact hread.trans (refl _)
    | none =>
      refine hread.trans ?_
      dsimp only
      split
      · next hshort =>
        rw [if_pos (Or.inl hshort)]
        exact refl _
      · next hlong =>
        rw [Cpu.fetchUpper]
        split
        · next htop =>
          rw [if_pos (Or.inr htop)]
          exact refl _
        · next hfits =>
          rw [if_neg (not_or.2 ⟨hlong, hfits⟩)]
          have hupper := guestRead lower.2 { programCounter := c.state.programCounter }
            (c.state.programCounter + 2#64) .halfWord .instructionFetch .instructionFetch
          dsimp only
          split <;> exact hupper

theorem stepAwake (c : Cpu) : Served c c.stepAwake.2 c.awakeRequests := by
  rw [Cpu.stepAwake, awakeRequests]
  cases c.fetch.1 with
  | error trap => exact (fetch c).trans (refl _)
  | ok packet =>
    refine (fetch c).trans ?_
    have hexecute := execute c.fetch.2 packet
    exact (countStep_bus _ _).trans hexecute

end Served

end Cpu

/-- **The hart acts on the bus by requests.**  The bus after a step is the bus after the requests of
the hart. -/
theorem bus_step (c : Cpu) : c.step.2.bus = Runs.run Bus.perform c.bus c.requests := by
  have hawake (d : Cpu) (h : d.bus = c.bus) :
      d.stepAwake.2.bus = Runs.run Bus.perform c.bus d.awakeRequests :=
    h ▸ Cpu.Served.stepAwake d
  rw [Cpu.step, Cpu.requests]
  split
  · split
    · rfl
    · exact hawake _ rfl
  · exact hawake _ rfl

/-- A step is a sequence of accesses. -/
theorem accesses_step (c : Cpu) : c.bus.Accesses c.step.2.bus := by
  rw [bus_step]
  exact c.bus.accesses_run _

end Rvemu
