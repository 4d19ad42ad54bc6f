import Rvemu.Lib.Wire

/-!
# The flattened device tree format

A reader of the format, version 17, independent of the code that writes it: the header, the
reservation block, the tokens of the structure block and the names in the strings block.
`decodeFdt` accepts a blob only if its header describes it, its blocks are aligned and inside it,
and its tokens make up one node.

A tree is a forest with one node in it: `FdtItems` is what a node contains, in order.
-/

set_option autoImplicit false

namespace Rvemu

open Wire

/-! ## Trees -/

/-- The properties and nodes in a node, in order. -/
inductive FdtItems
  | nil
  | prop (name value : List (BitVec 8)) (rest : FdtItems)
  | node (name : List (BitVec 8)) (children rest : FdtItems)
  deriving DecidableEq, Repr

/-- A node of the tree begins or ends, or a property is given. -/
inductive FdtEvent
  | beginNode (name : List (BitVec 8))
  | prop (name value : List (BitVec 8))
  | endNode
  deriving DecidableEq, Repr

/-- The items written out. -/
def FdtItems.events : FdtItems → List FdtEvent
  | .nil => []
  | .prop name value rest => .prop name value :: rest.events
  | .node name children rest => .beginNode name :: children.events ++ .endNode :: rest.events

/-- The items of the levels that are open before a sequence of events, the innermost first: an end
opens a level, and a beginning closes it. -/
def itemsOnto (after : List FdtItems) : List FdtEvent → Option (List FdtItems)
  | [] => some after
  | .prop name value :: events =>
    match itemsOnto after events with
    | some (items :: outer) => some (.prop name value items :: outer)
    | _ => none
  | .endNode :: events =>
    match itemsOnto after events with
    | some levels => some (.nil :: levels)
    | none => none
  | .beginNode name :: events =>
    match itemsOnto after events with
    | some (children :: items :: outer) => some (.node name children items :: outer)
    | _ => none

/-! ## Blocks -/

/-- A token of the structure block; a property names itself by an offset into the strings block. -/
inductive FdtToken
  | beginNode (name : List (BitVec 8))
  | prop (nameOffset : BitVec 32) (value : List (BitVec 8))
  | endNode
  deriving DecidableEq, Repr

/-- The tokens of a structure block up to its end; `fuel` is the length of the block. -/
def readTokens : ℕ → List (BitVec 8) → Option (List FdtToken)
  | 0, _ => none
  | fuel + 1, block =>
    match read32 block with
    | none => none
    | some (token, rest) =>
      if token = 1#32 then
        match readString rest with
        | none => none
        | some name =>
          let size := name.length + 1 + padding (name.length + 1)
          if rest.length < size then none
          else (readTokens fuel (rest.drop size)).map (.beginNode name :: ·)
      else if token = 2#32 then (readTokens fuel rest).map (.endNode :: ·)
      else if token = 3#32 then
        match read32 rest with
        | none => none
        | some (length, rest) =>
          match read32 rest with
          | none => none
          | some (nameOffset, rest) =>
            let size := length.toNat + padding length.toNat
            if rest.length < size then none
            else (readTokens fuel (rest.drop size)).map
              (.prop nameOffset (rest.take length.toNat) :: ·)
      else if token = 4#32 then readTokens fuel rest
      else if token = 9#32 ∧ rest = [] then some []
      else none

/-- The name at an offset of the strings block. -/
def stringAt (strings : List (BitVec 8)) (offset : BitVec 32) : Option (List (BitVec 8)) :=
  readString (strings.drop offset.toNat)

/-- A token with its name in place. -/
def FdtToken.event (strings : List (BitVec 8)) : FdtToken → Option FdtEvent
  | .beginNode name => some (.beginNode name)
  | .prop nameOffset value => (stringAt strings nameOffset).map (.prop · value)
  | .endNode => some .endNode

/-- The pairs of a reservation block in front of the pair of zeros. -/
def readReserve : ℕ → List (BitVec 8) → Option (List (BitVec 64 × BitVec 64))
  | 0, _ => none
  | fuel + 1, block =>
    match read64 block with
    | none => none
    | some (address, rest) =>
      match read64 rest with
      | none => none
      | some (size, rest) =>
        if address = 0#64 ∧ size = 0#64 then some []
        else (readReserve fuel rest).map ((address, size) :: ·)

/-! ## The header -/

structure FdtHeader where
  magic : BitVec 32
  totalSize : BitVec 32
  structureOffset : BitVec 32
  stringsOffset : BitVec 32
  reserveOffset : BitVec 32
  version : BitVec 32
  lastCompatibleVersion : BitVec 32
  bootCpu : BitVec 32
  stringsSize : BitVec 32
  structureSize : BitVec 32
  deriving DecidableEq, Repr

def FdtHeader.read (blob : List (BitVec 8)) : Option FdtHeader := do
  let (magic, rest) ← read32 blob
  let (totalSize, rest) ← read32 rest
  let (structureOffset, rest) ← read32 rest
  let (stringsOffset, rest) ← read32 rest
  let (reserveOffset, rest) ← read32 rest
  let (version, rest) ← read32 rest
  let (lastCompatibleVersion, rest) ← read32 rest
  let (bootCpu, rest) ← read32 rest
  let (stringsSize, rest) ← read32 rest
  let (structureSize, _) ← read32 rest
  some { magic, totalSize, structureOffset, stringsOffset, reserveOffset, version,
         lastCompatibleVersion, bootCpu, stringsSize, structureSize }

/-- The header describes a blob of this size: it is of version 17, and the reservation block, the
structure block and the strings block follow one another, aligned as each of them must be. -/
structure FdtHeader.Describes (h : FdtHeader) (size : ℕ) : Prop where
  magic : h.magic = 0xD00DFEED#32
  version : h.version = 17#32 ∧ h.lastCompatibleVersion = 16#32
  totalSize : h.totalSize.toNat = size
  reserve : 40 ≤ h.reserveOffset.toNat ∧ h.reserveOffset.toNat % 8 = 0 ∧
    h.reserveOffset.toNat ≤ h.structureOffset.toNat
  structureBlock : h.structureOffset.toNat % 4 = 0 ∧ h.structureSize.toNat % 4 = 0 ∧
    h.structureOffset.toNat + h.structureSize.toNat ≤ h.stringsOffset.toNat
  strings : h.stringsOffset.toNat + h.stringsSize.toNat ≤ h.totalSize.toNat

instance (h : FdtHeader) (size : ℕ) : Decidable (h.Describes size) :=
  decidable_of_iff (h.magic = 0xD00DFEED#32 ∧
      (h.version = 17#32 ∧ h.lastCompatibleVersion = 16#32) ∧ h.totalSize.toNat = size ∧
      (40 ≤ h.reserveOffset.toNat ∧ h.reserveOffset.toNat % 8 = 0 ∧
        h.reserveOffset.toNat ≤ h.structureOffset.toNat) ∧
      (h.structureOffset.toNat % 4 = 0 ∧ h.structureSize.toNat % 4 = 0 ∧
        h.structureOffset.toNat + h.structureSize.toNat ≤ h.stringsOffset.toNat) ∧
      h.stringsOffset.toNat + h.stringsSize.toNat ≤ h.totalSize.toNat)
    ⟨fun ⟨h₁, h₂, h₃, h₄, h₅, h₆⟩ ↦ ⟨h₁, h₂, h₃, h₄, h₅, h₆⟩,
      fun ⟨h₁, h₂, h₃, h₄, h₅, h₆⟩ ↦ ⟨h₁, h₂, h₃, h₄, h₅, h₆⟩⟩

/-- The part of a blob from an offset on. -/
def fdtBlock (blob : List (BitVec 8)) (offset size : BitVec 32) : List (BitVec 8) :=
  (blob.drop offset.toNat).take size.toNat

def FdtHeader.structureBlock (h : FdtHeader) (blob : List (BitVec 8)) : List (BitVec 8) :=
  fdtBlock blob h.structureOffset h.structureSize

def FdtHeader.stringsBlock (h : FdtHeader) (blob : List (BitVec 8)) : List (BitVec 8) :=
  fdtBlock blob h.stringsOffset h.stringsSize

/-! ## Blobs -/

structure FdtTree where
  reserve : List (BitVec 64 × BitVec 64)
  name : List (BitVec 8)
  items : FdtItems
  deriving DecidableEq, Repr

/-- The items a sequence of tokens makes up. -/
def readItems (strings : List (BitVec 8)) (tokens : List FdtToken) : Option FdtItems :=
  match tokens.mapM (FdtToken.event strings) with
  | none => none
  | some events =>
    match itemsOnto [.nil] events with
    | some [items] => some items
    | _ => none

/-- The reservations and the items of a blob. -/
def decodeItems (blob : List (BitVec 8)) : Option (List (BitVec 64 × BitVec 64) × FdtItems) := do
  let header ← FdtHeader.read blob
  if header.Describes blob.length then
    let reserve ← readReserve blob.length (blob.drop header.reserveOffset.toNat)
    let tokens ← readTokens blob.length (header.structureBlock blob)
    let items ← readItems (header.stringsBlock blob) tokens
    some (reserve, items)
  else none

/-- A blob whose items are one node. -/
def decodeFdt (blob : List (BitVec 8)) : Option FdtTree :=
  match decodeItems blob with
  | some (reserve, .node name items .nil) => some { reserve, name, items }
  | _ => none

/-- A blob is read block by block. -/
theorem decodeItems_eq {blob : List (BitVec 8)} {header : FdtHeader}
    {reserve : List (BitVec 64 × BitVec 64)} {items : FdtItems} (tokens : List FdtToken)
    (hheader : FdtHeader.read blob = some header) (hdescribes : header.Describes blob.length)
    (hreserve : readReserve blob.length (blob.drop header.reserveOffset.toNat) = some reserve)
    (htokens : readTokens blob.length (header.structureBlock blob) = some tokens)
    (hitems : readItems (header.stringsBlock blob) tokens = some items) :
    decodeItems blob = some (reserve, items) := by
  simp [decodeItems, hheader, hdescribes, hreserve, htokens, hitems]

/-! ## Events and items -/

/-- The events of the levels that are open, the innermost first. -/
def levelEvents : List FdtItems → List FdtEvent
  | [] => []
  | items :: outer => items.events ++ outer.flatMap fun level ↦ .endNode :: level.events

@[simp] theorem levelEvents_nil_cons (items : FdtItems) (outer : List FdtItems) :
    levelEvents (.nil :: items :: outer) = .endNode :: levelEvents (items :: outer) := by
  simp [levelEvents, FdtItems.events]

theorem itemsOnto_append (after : List FdtItems) (xs ys : List FdtEvent) :
    itemsOnto after (xs ++ ys) = (itemsOnto after ys).bind fun levels ↦ itemsOnto levels xs := by
  induction xs with
  | nil => cases hys : itemsOnto after ys <;> simp [itemsOnto, hys]
  | cons event xs ih =>
    cases hys : itemsOnto after ys with
    | none => cases event <;> simp [itemsOnto, ih, hys]
    | some levels => cases event <;> simp [itemsOnto, ih, hys]

/-- What is put together from events is written out as these events. -/
theorem levelEvents_itemsOnto {items : FdtItems} {outer : List FdtItems} {events : List FdtEvent}
    {levels : List FdtItems} (h : itemsOnto (items :: outer) events = some levels) :
    levels ≠ [] ∧ levelEvents levels = events ++ levelEvents (items :: outer) := by
  induction events generalizing levels with
  | nil =>
    obtain rfl := Option.some.inj h
    exact ⟨List.cons_ne_nil _ _, rfl⟩
  | cons event events ih =>
    cases event with
    | prop name value =>
      rw [itemsOnto] at h
      split at h
      · next first rest hrest =>
        obtain rfl := Option.some.inj h
        refine ⟨List.cons_ne_nil _ _, ?_⟩
        have := (ih hrest).2
        simp only [levelEvents, FdtItems.events, List.cons_append] at this ⊢
        rw [this]
      · cases h
    | endNode =>
      rw [itemsOnto] at h
      split at h
      · next levels' hrest =>
        obtain rfl := Option.some.inj h
        obtain ⟨hne, heq⟩ := ih hrest
        obtain ⟨first, rest, rfl⟩ := List.exists_cons_of_ne_nil hne
        refine ⟨List.cons_ne_nil _ _, ?_⟩
        rw [levelEvents_nil_cons, heq, List.cons_append]
      · cases h
    | beginNode name =>
      rw [itemsOnto] at h
      split at h
      · next children first rest hrest =>
        obtain rfl := Option.some.inj h
        refine ⟨List.cons_ne_nil _ _, ?_⟩
        have := (ih hrest).2
        simp only [levelEvents, FdtItems.events, List.flatMap_cons, List.cons_append,
          List.append_assoc] at this ⊢
        rw [this]
      · cases h

/-- The items of one sequence in front of those of another. -/
def FdtItems.append : FdtItems → FdtItems → FdtItems
  | .nil, after => after
  | .prop name value rest, after => .prop name value (rest.append after)
  | .node name children rest, after => .node name children (rest.append after)

theorem FdtItems.append_nil (items : FdtItems) : items.append .nil = items := by
  induction items with
  | nil => rfl
  | prop name value rest ih => rw [append, ih]
  | node name children rest _ ih => rw [append, ih]

/-- Items are put together from their events. -/
theorem itemsOnto_events (items after : FdtItems) (outer : List FdtItems) :
    itemsOnto (after :: outer) items.events = some (items.append after :: outer) := by
  induction items generalizing after outer with
  | nil => rfl
  | prop name value rest ih =>
    rw [FdtItems.events, itemsOnto, ih]
    rfl
  | node name children rest ihc ih =>
    rw [FdtItems.events, List.cons_append, itemsOnto, itemsOnto_append, itemsOnto, ih,
      Option.bind_some, ihc, FdtItems.append_nil]
    rfl

end Rvemu
