import Rvemu.Bus.Bus
import Rvemu.Core.Trap

/-!
# The Sv39 MMU

Canonical-address check, a 64-entry TLB with an age counter, the three-level page walk and the
atomic update of the A and D bits of the leaf entry.  The walk talks to memory only through the bus,
so its state is the bus together with the TLB.
-/

set_option autoImplicit false

namespace Rvemu

inductive MmuAccessKind
  | instructionFetch | load | store | atomic
  deriving DecidableEq, Repr

structure MmuContext where
  privilege : PrivilegeMode := .machine
  satp : BitVec 64 := 0#64
  mstatus : BitVec 64 := 0#64
  deriving DecidableEq, Repr

structure MmuFault where
  cause : ExceptionCause := .loadPageFault
  value : BitVec 64 := 0#64
  deriving DecidableEq, Repr

/-- A translation either succeeds with a physical address or faults. -/
abbrev TranslationResult := Except MmuFault (BitVec 64)

/-! ## Address and entry fields -/

def sv39Mode : BitVec 64 := 8#64

def satpMode (satp : BitVec 64) : BitVec 64 := satp >>> 60

def satpAsid (satp : BitVec 64) : BitVec 16 := ((satp >>> 44) &&& 0xFFFF#64).setWidth 16

def satpRootPpn (satp : BitVec 64) : BitVec 64 := satp &&& ((1#64 <<< 44) - 1#64)

def vpn (virtualAddress : BitVec 64) (level : ℕ) : BitVec 64 :=
  (virtualAddress >>> (12 + 9 * level)) &&& 0x1FF#64

def ptePpn (pte : BitVec 64) : BitVec 64 := (pte >>> 10) &&& ((1#64 <<< 44) - 1#64)

def pteFlags (pte : BitVec 64) : BitVec 16 := (pte &&& 0x3FF#64).setWidth 16

def canonicalSv39 (virtualAddress : BitVec 64) : Bool :=
  let sign := (virtualAddress >>> 38) &&& 1#64
  let high := virtualAddress >>> 39
  if sign = 0#64 then high == 0#64 else high == (1#64 <<< 25) - 1#64

namespace Pte

def valid : BitVec 16 := 1#16 <<< 0
def read : BitVec 16 := 1#16 <<< 1
def write : BitVec 16 := 1#16 <<< 2
def execute : BitVec 16 := 1#16 <<< 3
def user : BitVec 16 := 1#16 <<< 4
def global : BitVec 16 := 1#16 <<< 5
def accessed : BitVec 16 := 1#16 <<< 6
def dirty : BitVec 16 := 1#16 <<< 7

end Pte

/-- Is any bit of `mask` set in the entry's flags? -/
def hasFlag (flags mask : BitVec 16) : Bool := (flags &&& mask) != 0#16

def pteValid (flags : BitVec 16) : Bool :=
  hasFlag flags Pte.valid && !(hasFlag flags Pte.write && !hasFlag flags Pte.read)

def pteLeaf (flags : BitVec 16) : Bool := hasFlag flags (Pte.read ||| Pte.execute)

def pageSizeForLevel (level : ℕ) : BitVec 64 := 4096#64 <<< (9 * level)

def virtualPageForLevel (virtualAddress : BitVec 64) (level : ℕ) : BitVec 64 :=
  virtualAddress / pageSizeForLevel level

def pageFaultCause : MmuAccessKind → ExceptionCause
  | .instructionFetch => .instructionPageFault
  | .load => .loadPageFault
  | .store => .storePageFault
  | .atomic => .storePageFault

def pageFault (kind : MmuAccessKind) (virtualAddress : BitVec 64) : MmuFault :=
  { cause := pageFaultCause kind, value := virtualAddress }

def permissionAllows (flags : BitVec 16) (kind : MmuAccessKind) (context : MmuContext) : Bool :=
  let userPage := hasFlag flags Pte.user
  if context.privilege == .user && !userPage then false
  else if context.privilege == .supervisor && userPage
      && (kind == .instructionFetch || (context.mstatus &&& (1#64 <<< 18)) == 0#64) then false
  else match kind with
    | .instructionFetch => hasFlag flags Pte.execute
    | .load =>
      hasFlag flags Pte.read
        || ((context.mstatus &&& (1#64 <<< 19)) != 0#64 && hasFlag flags Pte.execute)
    | .store => hasFlag flags Pte.write
    | .atomic => hasFlag flags Pte.read && hasFlag flags Pte.write

def superpageAligned (ppn : BitVec 64) (level : ℕ) : Bool :=
  if level = 2 then (ppn &&& ((1#64 <<< 18) - 1#64)) == 0#64
  else if level = 1 then (ppn &&& ((1#64 <<< 9) - 1#64)) == 0#64
  else true

def composePhysicalAddress (virtualAddress ppn : BitVec 64) (level : ℕ) : BitVec 64 :=
  let pageOffset := virtualAddress &&& 0xFFF#64
  let ppn0 := if level = 0 then ppn &&& 0x1FF#64 else vpn virtualAddress 0
  let ppn1 := if level ≤ 1 then (ppn >>> 9) &&& 0x1FF#64 else vpn virtualAddress 1
  let ppn2 := (ppn >>> 18) &&& ((1#64 <<< 26) - 1#64)
  (ppn2 <<< 30) ||| (ppn1 <<< 21) ||| (ppn0 <<< 12) ||| pageOffset

/-- Stores and atomics need the D bit. -/
def needsDirty (kind : MmuAccessKind) : Bool := kind == .store || kind == .atomic

/-! ## The TLB -/

structure TlbEntry where
  valid : Bool := false
  virtualPage : BitVec 64 := 0#64
  asid : BitVec 16 := 0#16
  level : ℕ := 0
  physicalPageNumber : BitVec 64 := 0#64
  flags : BitVec 16 := 0#16
  age : BitVec 64 := 0#64
  deriving DecidableEq, Repr

theorem length_emptyTlb : (List.replicate 64 ({} : TlbEntry)).length = 64 := List.length_replicate

/-- The MMU's own state: sixty-four entries and the age counter. -/
structure Mmu where
  tlb : List TlbEntry := List.replicate 64 {}
  nextTlbAge : BitVec 64 := 1#64
  tlb_length : tlb.length = 64 := by exact length_emptyTlb
  deriving DecidableEq, Repr

/-- Does the entry cover this address for this address space? -/
def TlbEntry.covers (entry : TlbEntry) (virtualAddress : BitVec 64) (asid : BitVec 16) : Bool :=
  entry.valid && (hasFlag entry.flags Pte.global || entry.asid == asid)
    && entry.virtualPage == virtualPageForLevel virtualAddress entry.level

namespace Mmu

/-- The first covering entry decides, whether it allows the access or not; a hit refreshes its
age. -/
def lookupTlb (m : Mmu) (virtualAddress : BitVec 64) (kind : MmuAccessKind)
    (context : MmuContext) : Option (BitVec 64 × Mmu) :=
  match m.tlb.findIdx? (·.covers virtualAddress (satpAsid context.satp)) with
  | none => none
  | some index =>
    let entry := m.tlb.getD index {}
    if !permissionAllows entry.flags kind context then none
    else if needsDirty kind && !hasFlag entry.flags Pte.dirty then none
    else some (composePhysicalAddress virtualAddress entry.physicalPageNumber entry.level,
      { m with
        tlb := m.tlb.set index { entry with age := m.nextTlbAge }
        nextTlbAge := m.nextTlbAge + 1#64
        tlb_length := by rw [List.length_set, m.tlb_length] })

/-- The position `fillTlb` overwrites: the first invalid entry, or else the first of the oldest. -/
def victimFrom (tlb : List TlbEntry) (victim : ℕ) (index : ℕ) : List TlbEntry → ℕ
  | [] => victim
  | entry :: rest =>
    if !entry.valid then index
    else if entry.age < (tlb.getD victim {}).age then victimFrom tlb index (index + 1) rest
    else victimFrom tlb victim (index + 1) rest

def fillTlb (m : Mmu) (virtualAddress : BitVec 64) (level : ℕ) (physicalPageNumber : BitVec 64)
    (flags asid : BitVec 16) : Mmu :=
  { tlb := m.tlb.set (victimFrom m.tlb 0 0 m.tlb)
      { valid := true, virtualPage := virtualPageForLevel virtualAddress level, asid, level,
        physicalPageNumber, flags, age := m.nextTlbAge }
    nextTlbAge := m.nextTlbAge + 1#64
    tlb_length := by rw [List.length_set, m.tlb_length] }

/-! ## The page walk -/

/-- The entry a walk ends in, with the address it was read from. -/
structure Leaf where
  pteAddress : BitVec 64
  level : ℕ
  pte : BitVec 64
  deriving DecidableEq, Repr

/-- What the entry read at one level says: stop with a fault, go down, or stop at a leaf. -/
inductive WalkStep
  | fault
  | pointer (tablePpn : BitVec 64)
  | leaf (leaf : Leaf)
  deriving DecidableEq, Repr

/-- Read and classify the entry of one level. -/
def walkStep (bus : Bus) (virtualAddress tablePpn : BitVec 64) (level : ℕ) : WalkStep × Bus :=
  let tableBase := tablePpn <<< 12
  let pteAddress := tableBase + vpn virtualAddress level * 8#64
  if pteAddress < tableBase then (.fault, bus)
  else
    let pteRead := bus.read pteAddress .doubleWord .load
    if !pteRead.1.ok then (.fault, pteRead.2)
    else
      let pte := pteRead.1.value
      if !pteValid (pteFlags pte) then (.fault, pteRead.2)
      else if !pteLeaf (pteFlags pte) then (.pointer (ptePpn pte), pteRead.2)
      else (.leaf { pteAddress, level, pte }, pteRead.2)

/-- The loop over the levels, from `level` down to 0, where a pointer is a fault.  `none` is one of
the page faults raised on the way. -/
def findLeaf (bus : Bus) (virtualAddress tablePpn : BitVec 64) : ℕ → Option Leaf × Bus
  | 0 =>
    let step := walkStep bus virtualAddress tablePpn 0
    match step.1 with
    | .leaf leaf => (some leaf, step.2)
    | _ => (none, step.2)
  | level + 1 =>
    let step := walkStep bus virtualAddress tablePpn (level + 1)
    match step.1 with
    | .leaf leaf => (some leaf, step.2)
    | .pointer next => findLeaf step.2 virtualAddress next level
    | .fault => (none, step.2)

/-- The leaf entry with A, and D for a store or an atomic, set. -/
def desiredPte (pte : BitVec 64) (kind : MmuAccessKind) : BitVec 64 :=
  let accessed := pte ||| Pte.accessed.setWidth 64
  if needsDirty kind then accessed ||| Pte.dirty.setWidth 64 else accessed

inductive PageWalkResult
  | translated (physicalAddress : BitVec 64)
  | fault (fault : MmuFault)
  | retry
  deriving DecidableEq, Repr

/-- One attempt at the walk.  The A/D update is a compare-exchange against the entry that was read;
when it loses the race the attempt asks to be retried. -/
def walkPageTable (m : Mmu) (bus : Bus) (virtualAddress : BitVec 64) (kind : MmuAccessKind)
    (context : MmuContext) : PageWalkResult × Mmu × Bus :=
  let found := findLeaf bus virtualAddress (satpRootPpn context.satp) 2
  match found.1 with
  | none => (.fault (pageFault kind virtualAddress), m, found.2)
  | some leaf =>
    let ppn := ptePpn leaf.pte
    if !superpageAligned ppn leaf.level || !permissionAllows (pteFlags leaf.pte) kind context then
      (.fault (pageFault kind virtualAddress), m, found.2)
    else
      let desired := desiredPte leaf.pte kind
      let finish (bus : Bus) : PageWalkResult × Mmu × Bus :=
        (.translated (composePhysicalAddress virtualAddress ppn leaf.level),
          m.fillTlb virtualAddress leaf.level ppn (pteFlags desired) (satpAsid context.satp), bus)
      if desired = leaf.pte then finish found.2
      else
        let updated :=
          found.2.compareExchange leaf.pteAddress .doubleWord leaf.pte desired .atomic
        if !updated.1.ok then (.fault (pageFault kind virtualAddress), m, updated.2)
        else if !updated.1.exchanged then (.retry, m, updated.2)
        else finish updated.2

/-- The retry loop around the walk, with a bound on the number of attempts; `none` means that the
last of them still asked for a retry.  With a single bus master one attempt settles it
(`walkLoop_eq`). -/
def walkLoop (m : Mmu) (bus : Bus) (virtualAddress : BitVec 64) (kind : MmuAccessKind)
    (context : MmuContext) : ℕ → Option (TranslationResult × Mmu × Bus)
  | 0 => none
  | attempts + 1 =>
    let walked := m.walkPageTable bus virtualAddress kind context
    match walked.1 with
    | .translated physicalAddress => some (.ok physicalAddress, walked.2)
    | .fault fault => some (.error fault, walked.2)
    | .retry => walkLoop walked.2.1 walked.2.2 virtualAddress kind context attempts

/-- The attempts `translate` is run with; any positive number gives the same function. -/
def walkAttempts : ℕ := 1

/-- Translate one access.  The width is not used. -/
def translate (m : Mmu) (bus : Bus) (virtualAddress : BitVec 64) (_width : AccessWidth)
    (kind : MmuAccessKind) (context : MmuContext) : TranslationResult × Mmu × Bus :=
  if context.privilege = .machine ∨ satpMode context.satp = 0#64 then (.ok virtualAddress, m, bus)
  else if satpMode context.satp ≠ sv39Mode ∨ !canonicalSv39 virtualAddress then
    (.error (pageFault kind virtualAddress), m, bus)
  else
    match m.lookupTlb virtualAddress kind context with
    | some hit => (.ok hit.1, hit.2, bus)
    | none =>
      (m.walkLoop bus virtualAddress kind context walkAttempts).getD
        (.error (pageFault kind virtualAddress), m, bus)

/-! ## SFENCE.VMA -/

def sfenceEntry (virtualAddress : Option (BitVec 64)) (asid : Option (BitVec 16))
    (entry : TlbEntry) : TlbEntry :=
  if !entry.valid then entry
  else if asid.any fun a ↦ entry.asid != a && !hasFlag entry.flags Pte.global then entry
  else if virtualAddress.any fun va ↦ entry.virtualPage != virtualPageForLevel va entry.level then
    entry
  else { entry with valid := false }

def sfenceVma (m : Mmu) (virtualAddress : Option (BitVec 64)) (asid : Option (BitVec 16)) : Mmu :=
  { m with
    tlb := m.tlb.map (sfenceEntry virtualAddress asid)
    tlb_length := by rw [List.length_map, m.tlb_length] }

/-- An entry that is valid after a fence is as it was. -/
theorem sfenceEntry_of_valid {virtualAddress : Option (BitVec 64)} {asid : Option (BitVec 16)}
    {entry : TlbEntry} (h : (sfenceEntry virtualAddress asid entry).valid = true) :
    sfenceEntry virtualAddress asid entry = entry := by
  rw [sfenceEntry] at h ⊢
  split_ifs at h ⊢ <;> rfl

/-- A fence only invalidates. -/
theorem mem_of_mem_sfenceVma {m : Mmu} {virtualAddress : Option (BitVec 64)}
    {asid : Option (BitVec 16)} {entry : TlbEntry}
    (h : entry ∈ (m.sfenceVma virtualAddress asid).tlb) (hvalid : entry.valid = true) :
    entry ∈ m.tlb := by
  obtain ⟨before, hbefore, rfl⟩ := List.mem_map.1 h
  rw [sfenceEntry_of_valid hvalid]
  exact hbefore

end Mmu

end Rvemu
