import Rvemu.Runtime.Fdt
import Rvemu.Runtime.FdtFormat
import Mathlib.Algebra.GroupWithZero.Nat

/-!
# The device tree is read back

The calls of `FdtWriter` are events of a tree, and the writer puts one token after another for them
(`run_encode`).  The names are kept in a table that only grows, so an offset given to a name stays
the place of that name (`StringTable.Sound`).  A sequence of calls that is well nested makes up
items (`itemsOnto_of_wellNested`), and the blob it leads to is read back as these items.
-/

set_option autoImplicit false

namespace Rvemu

open Wire

/-! ## Calls and events -/

/-- The bytes of a property. -/
def FdtValue.bytes : FdtValue → List (BitVec 8)
  | .raw value => value
  | .empty => []
  | .string value => value ++ [0#8]
  | .stringList values => values.flatMap (· ++ [0#8])
  | .u32 value => be32 value
  | .u64Pair address size => be64 address ++ be64 size
  | .u32List values => values.flatMap be32

def FdtCall.event : FdtCall → FdtEvent
  | .beginNode name => .beginNode name
  | .prop name value => .prop name value.bytes
  | .endNode => .endNode

/-- Every end is that of a node begun here or of one of the `depth` nodes open before, and all of
them are ended. -/
def wellNested : ℕ → List FdtCall → Bool
  | depth, [] => depth == 0
  | depth, .beginNode _ :: calls => wellNested (depth + 1) calls
  | depth, .prop _ _ :: calls => wellNested depth calls
  | 0, .endNode :: _ => false
  | depth + 1, .endNode :: calls => wellNested depth calls

/-- The names of the nodes begun. -/
def nodeNames (calls : List FdtCall) : List (List (BitVec 8)) :=
  calls.filterMap fun
    | .beginNode name => some name
    | _ => none

/-- The names of the properties given. -/
def propNames (calls : List FdtCall) : List (List (BitVec 8)) :=
  calls.filterMap fun
    | .prop name _ => some name
    | _ => none

/-- Calls that are well nested make up the items of the levels they leave open, whatever is around
them. -/
theorem itemsOnto_of_wellNested {depth : ℕ} {calls : List FdtCall}
    (h : wellNested depth calls = true) :
    ∃ levels : List FdtItems, levels.length = depth + 1 ∧
      ∀ outer, itemsOnto (.nil :: outer) (calls.map FdtCall.event) = some (levels ++ outer) := by
  induction calls generalizing depth with
  | nil =>
    obtain rfl : depth = 0 := by simpa [wellNested] using h
    exact ⟨[.nil], rfl, fun _ ↦ rfl⟩
  | cons call calls ih =>
    cases call with
    | beginNode name =>
      obtain ⟨levels, hlen, heq⟩ := @ih (depth + 1) (by simpa [wellNested] using h)
      rcases levels with - | ⟨children, - | ⟨items, outer'⟩⟩
      · simp at hlen
      · simp at hlen
      · refine ⟨.node name children items :: outer', by simpa using hlen, fun outer ↦ ?_⟩
        rw [List.map_cons, FdtCall.event, itemsOnto, heq]
        rfl
    | prop name value =>
      obtain ⟨levels, hlen, heq⟩ := @ih depth (by simpa [wellNested] using h)
      rcases levels with - | ⟨items, outer'⟩
      · simp at hlen
      · refine ⟨.prop name value.bytes items :: outer', hlen, fun outer ↦ ?_⟩
        rw [List.map_cons, FdtCall.event, itemsOnto, heq]
        rfl
    | endNode =>
      cases depth with
      | zero => simp [wellNested] at h
      | succ depth =>
        obtain ⟨levels, hlen, heq⟩ := @ih depth (by simpa [wellNested] using h)
        refine ⟨.nil :: levels, by simpa using hlen, fun outer ↦ ?_⟩
        rw [List.map_cons, FdtCall.event, itemsOnto, heq]
        rfl

/-- Calls that are well nested are the events of a sequence of items. -/
theorem exists_events_of_wellNested {calls : List FdtCall} (h : wellNested 0 calls = true) :
    ∃ items : FdtItems, items.events = calls.map FdtCall.event := by
  obtain ⟨levels, hlen, hlevels⟩ := itemsOnto_of_wellNested h
  obtain ⟨items, rfl⟩ := List.length_eq_one_iff.1 hlen
  have := (levelEvents_itemsOnto (hlevels [])).2
  exact ⟨items, by simpa [levelEvents, FdtItems.events] using this⟩

/-! ## What the writer appends -/

theorem appendBe32_eq (out : List (BitVec 8)) (value : BitVec 32) :
    appendBe32 out value = out ++ be32 value := rfl

theorem appendBe64_eq (out : List (BitVec 8)) (value : BitVec 64) :
    appendBe64 out value = out ++ be64 value := by
  rw [appendBe64, appendBe32_eq, appendBe32_eq, be64, List.append_assoc]

theorem align4From_eq {n : ℕ} {out : List (BitVec 8)} (h : padding out.length ≤ n) :
    align4From n out = out ++ List.replicate (padding out.length) 0#8 := by
  induction n generalizing out with
  | zero =>
    rw [align4From, Nat.le_zero.1 h]
    simp
  | succ n ih =>
    rw [align4From]
    split
    · next hne =>
      have hstep : padding out.length = padding (out ++ [0#8]).length + 1 := by
        rw [List.length_append, List.length_singleton, padding, padding]
        omega
      rw [ih (by omega), hstep, List.append_assoc, List.replicate_succ]
      rfl
    · next heq =>
      have hzero : padding out.length = 0 := by
        rw [padding]
        omega
      rw [hzero]
      simp

theorem align4_eq (out : List (BitVec 8)) :
    align4 out = out ++ List.replicate (padding out.length) 0#8 := by
  refine align4From_eq ?_
  rw [padding]
  omega

/-- Only what comes after a multiple of four counts for the padding. -/
theorem align4_append (out : List (BitVec 8)) (h : out.length % 4 = 0) (s : List (BitVec 8)) :
    align4 (out ++ s) = out ++ (s ++ List.replicate (padding s.length) 0#8) := by
  have hpad : padding (out ++ s).length = padding s.length := by
    rw [List.length_append, padding, padding]
    omega
  rw [align4_eq, hpad, List.append_assoc]

theorem foldl_append_eq {α : Type} (f : α → List (BitVec 8)) (xs : List α) (out : List (BitVec 8)) :
    xs.foldl (fun bytes x ↦ bytes ++ f x) out = out ++ xs.flatMap f := by
  induction xs generalizing out with
  | nil => simp
  | cons x xs ih => rw [List.foldl_cons, ih, List.flatMap_cons, List.append_assoc]

/-- All `prop_*` functions are `prop_raw` with the bytes of the value. -/
theorem FdtWriter.prop_eq (w : FdtWriter) (name : List (BitVec 8)) (value : FdtValue) :
    w.prop name value = w.propRaw name value.bytes := by
  cases value with
  | raw => rfl
  | empty => rfl
  | string => rfl
  | stringList values =>
    have hbytes := foldl_append_eq (· ++ [0#8]) values []
    simp only [← List.append_assoc, List.nil_append] at hbytes
    rw [prop, propStringList, hbytes]
    rfl
  | u32 => rfl
  | u64Pair address size =>
    rw [prop, propU64Pair, appendBe64_eq, appendBe64_eq]
    rfl
  | u32List values => exact congrArg (w.propRaw name) (foldl_append_eq be32 values [])

/-! ## The table of names -/

namespace StringTable

/-- Nothing of the table is lost or moved. -/
structure Extends (t t' : StringTable) : Prop where
  bytes : t.bytes <+: t'.bytes
  find : ∀ name offset, t.find name = some offset → t'.find name = some offset

theorem Extends.refl (t : StringTable) : t.Extends t := ⟨List.prefix_refl _, fun _ _ h ↦ h⟩

theorem Extends.trans {t t' t'' : StringTable} (h : t.Extends t') (h' : t'.Extends t'') :
    t.Extends t'' :=
  ⟨h.bytes.trans h'.bytes, fun _ _ hfind ↦ h'.find _ _ (h.find _ _ hfind)⟩

/-- Every name starts at its offset, and a zero ends it. -/
def Sound (t : StringTable) : Prop :=
  ∀ name offset, t.find name = some offset →
    ∃ before after, t.bytes = before ++ (name ++ 0#8 :: after) ∧ before.length = offset.toNat

theorem sound_empty : Sound {} := fun _ _ h ↦ by cases h

/-- The offset of a name that is there. -/
def nameOffset (t : StringTable) (name : List (BitVec 8)) : BitVec 32 := (t.find name).getD 0#32

variable (t : StringTable) (name : List (BitVec 8))

theorem find_cons (bytes : List (BitVec 8)) (offset : BitVec 32) (other : List (BitVec 8)) :
    ({ bytes, offsets := (name, offset) :: t.offsets } : StringTable).find other =
      if other = name then some offset else t.find other := by
  rw [find, List.lookup_cons]
  by_cases h : other = name
  · simp [h]
  · rw [if_neg h, beq_eq_false_iff_ne.2 h, find]

theorem find_offset : (t.offset name).2.find name = some (t.offset name).1 := by
  rw [offset]
  split
  · next found hfound => exact hfound
  · rw [find_cons, if_pos rfl]

theorem extends_offset : t.Extends (t.offset name).2 := by
  rw [offset]
  split
  · exact .refl t
  · next hnone =>
    refine ⟨⟨name ++ [0#8], by simp⟩, fun other offset hfind ↦ ?_⟩
    have hne : other ≠ name := by
      rintro rfl
      rw [hnone] at hfind
      cases hfind
    rw [find_cons, if_neg hne, hfind]

variable {t name}

theorem sound_offset (h : t.Sound) (hsize : t.bytes.length < 2 ^ 32) :
    (t.offset name).2.Sound := by
  rw [offset]
  split
  · exact h
  · intro other place hfind
    rw [find_cons] at hfind
    split at hfind
    · next heq =>
      obtain rfl := Option.some.inj hfind
      refine ⟨t.bytes, [], by simp [heq], ?_⟩
      rw [BitVec.toNat_ofNat, Nat.mod_eq_of_lt hsize]
    · obtain ⟨before, after, hbytes, hlen⟩ := h other place hfind
      exact ⟨before, after ++ (name ++ [0#8]), by simp [hbytes], hlen⟩

/-- A name without a zero is found at its offset. -/
theorem Sound.stringAt_eq (h : t.Sound) {offset : BitVec 32} (hfind : t.find name = some offset)
    (hname : 0#8 ∉ name) : stringAt t.bytes offset = some name := by
  obtain ⟨before, after, hbytes, hlen⟩ := h name offset hfind
  rw [stringAt, hbytes, ← hlen, List.drop_left, readString_append hname]

end StringTable

/-! ## The structure block -/

namespace FdtCall

/-- The bytes of a call in the structure block, when each name has this offset. -/
def encode (offset : List (BitVec 8) → BitVec 32) : FdtCall → List (BitVec 8)
  | beginNode name =>
    be32 1#32 ++ (name ++ [0#8] ++ List.replicate (padding (name ++ [0#8]).length) 0#8)
  | prop name value =>
    be32 3#32 ++ (be32 (BitVec.ofNat 32 value.bytes.length) ++ (be32 (offset name) ++
      (value.bytes ++ List.replicate (padding value.bytes.length) 0#8)))
  | endNode => be32 2#32

def token (offset : List (BitVec 8) → BitVec 32) : FdtCall → FdtToken
  | beginNode name => .beginNode name
  | prop name value => .prop (offset name) value.bytes
  | endNode => .endNode

theorem length_encode_mod (offset : List (BitVec 8) → BitVec 32) (call : FdtCall) :
    (call.encode offset).length % 4 = 0 ∧ 4 ≤ (call.encode offset).length := by
  cases call with
  | beginNode name =>
    have := add_padding_mod (name ++ [0#8]).length
    simp only [encode, List.length_append, length_be32, List.length_replicate] at this ⊢
    omega
  | prop name value =>
    have := add_padding_mod value.bytes.length
    simp only [encode, List.length_append, length_be32, List.length_replicate] at this ⊢
    omega
  | endNode => simp [encode]

end FdtCall

namespace FdtWriter

theorem call_encode {w : FdtWriter} {c : FdtCall} {t : StringTable}
    (haligned : w.structure_.length % 4 = 0) (hext : (w.call c).strings.Extends t) :
    (w.call c).structure_ = w.structure_ ++ c.encode t.nameOffset := by
  cases c with
  | beginNode name =>
    have halign := align4_append (w.structure_ ++ be32 1#32) (by simpa using haligned)
      (name ++ [0#8])
    simp only [call, beginNode, appendBe32_eq, fdtBeginNode, FdtCall.encode, ← List.append_assoc]
      at halign ⊢
    rw [halign]
  | endNode => rfl
  | prop name value =>
    have hoffset : t.nameOffset name = (w.strings.offset name).1 := by
      rw [StringTable.nameOffset]
      rw [call, prop_eq] at hext
      rw [hext.find _ _ (w.strings.find_offset name)]
      rfl
    have halign := align4_append (w.structure_ ++ be32 3#32 ++
      be32 (BitVec.ofNat 32 value.bytes.length) ++ be32 (t.nameOffset name))
      (by simp; omega) value.bytes
    rw [call, prop_eq, propRaw]
    simp only [appendBe32_eq, fdtProp, ← hoffset, FdtCall.encode, ← List.append_assoc] at halign ⊢
    rw [halign]

theorem extends_call (w : FdtWriter) (c : FdtCall) : w.strings.Extends (w.call c).strings := by
  cases c with
  | beginNode => exact .refl _
  | endNode => exact .refl _
  | prop name value =>
    rw [call, prop_eq]
    exact w.strings.extends_offset name

@[simp] theorem run_nil (w : FdtWriter) : w.run [] = w := rfl

@[simp] theorem run_cons (w : FdtWriter) (c : FdtCall) (calls : List FdtCall) :
    w.run (c :: calls) = (w.call c).run calls := rfl

theorem extends_run (w : FdtWriter) (calls : List FdtCall) :
    w.strings.Extends (w.run calls).strings := by
  induction calls generalizing w with
  | nil => exact .refl _
  | cons c calls ih => exact (w.extends_call c).trans (ih _)

/-- The writer appends the bytes of each call, with the offsets the names have in the end. -/
theorem run_encode {w : FdtWriter} (calls : List FdtCall) {t : StringTable}
    (haligned : w.structure_.length % 4 = 0) (hext : (w.run calls).strings.Extends t) :
    (w.run calls).structure_ = w.structure_ ++ calls.flatMap (FdtCall.encode t.nameOffset) := by
  induction calls generalizing w with
  | nil => simp
  | cons c calls ih =>
    have hcall := call_encode (c := c) haligned ((extends_run (w.call c) calls).trans hext)
    have hmod := (c.length_encode_mod t.nameOffset).1
    rw [run_cons, ih (by rw [hcall, List.length_append]; omega) hext, hcall, List.flatMap_cons,
      List.append_assoc]

theorem sound_run {w : FdtWriter} {calls : List FdtCall} (h : w.strings.Sound)
    (hsize : (w.run calls).strings.bytes.length < 2 ^ 32) : (w.run calls).strings.Sound := by
  induction calls generalizing w with
  | nil => exact h
  | cons c calls ih =>
    refine ih ?_ hsize
    cases c with
    | beginNode => exact h
    | endNode => exact h
    | prop name value =>
      rw [call, prop_eq]
      have hle := ((w.extends_call (.prop name value)).trans (extends_run _ calls)).bytes.length_le
      exact StringTable.sound_offset h (Nat.lt_of_le_of_lt hle hsize)

/-- The names of all properties are in the table. -/
theorem find_run (w : FdtWriter) {calls : List FdtCall} {name : List (BitVec 8)}
    (h : name ∈ propNames calls) :
    (w.run calls).strings.find name = some ((w.run calls).strings.nameOffset name) := by
  have hsome : ∃ offset, (w.run calls).strings.find name = some offset := by
    induction calls generalizing w with
    | nil => simp [propNames] at h
    | cons c calls ih =>
      cases c with
      | beginNode => exact ih _ (by simpa [propNames] using h)
      | endNode => exact ih _ (by simpa [propNames] using h)
      | prop other value =>
        simp only [propNames, List.filterMap_cons, List.mem_cons] at h
        rcases h with rfl | h
        · have hfind := (w.strings.find_offset name)
          exact ⟨(w.strings.offset name).1,
            (extends_run (w.call (.prop name value)) calls).find name _
            (by rw [call, prop_eq]; exact hfind)⟩
        · exact ih _ h
  obtain ⟨offset, hoffset⟩ := hsome
  rw [StringTable.nameOffset, hoffset]
  rfl

end FdtWriter

/-! ## Reading the blocks -/

/-- A call whose bytes can be told apart: a node name has no zero in it, and the size of a property
is a 32-bit number. -/
def FdtCall.Readable : FdtCall → Prop
  | .beginNode name => 0#8 ∉ name
  | .prop _ value => value.bytes.length < 2 ^ 32
  | .endNode => True

theorem readTokens_encode {offset : List (BitVec 8) → BitVec 32} {calls : List FdtCall}
    (h : ∀ c ∈ calls, c.Readable) {fuel : ℕ} (hfuel : calls.length < fuel) :
    readTokens fuel (calls.flatMap (FdtCall.encode offset) ++ be32 9#32) =
      some (calls.map (FdtCall.token offset)) := by
  induction calls generalizing fuel with
  | nil =>
    obtain ⟨fuel, rfl⟩ := Nat.exists_eq_succ_of_ne_zero (Nat.ne_of_gt hfuel)
    have hread := read32_be32 9#32 []
    rw [List.append_nil] at hread
    simp [readTokens, hread]
  | cons c calls ih =>
    rw [List.length_cons] at hfuel
    obtain ⟨fuel, rfl⟩ := Nat.exists_eq_succ_of_ne_zero (n := fuel) (by omega)
    have hrest := ih (fun c hc ↦ h c (List.mem_cons_of_mem _ hc)) (Nat.lt_of_succ_lt_succ hfuel)
    have hc := h c List.mem_cons_self
    set rest := calls.flatMap (FdtCall.encode offset) ++ be32 9#32 with hrestdef
    rw [List.flatMap_cons, List.append_assoc, ← hrestdef]
    cases c with
    | beginNode name =>
      have hname : 0#8 ∉ name := hc
      have hdrop := drop_padded (name ++ [0#8]) rest
      have hstring : readString (name ++ [0#8] ++
          List.replicate (padding (name ++ [0#8]).length) 0#8 ++ rest) = some name := by
        simpa using readString_append hname
          (List.replicate (padding (name ++ [0#8]).length) 0#8 ++ rest)
      rw [FdtCall.encode, List.append_assoc, readTokens, read32_be32]
      dsimp only
      rw [if_pos rfl, hstring]
      dsimp only
      rw [show (name ++ [0#8]).length = name.length + 1 by simp] at hdrop ⊢
      rw [if_neg (by simp; omega), hdrop, hrest]
      rfl
    | prop name value =>
      have hlen : (BitVec.ofNat 32 value.bytes.length).toNat = value.bytes.length := by
        rw [BitVec.toNat_ofNat, Nat.mod_eq_of_lt hc]
      have hdrop := drop_padded value.bytes rest
      have htake : (value.bytes ++ List.replicate (padding value.bytes.length) 0#8 ++ rest).take
          value.bytes.length = value.bytes := by
        rw [List.append_assoc, List.take_left]
      rw [FdtCall.encode, List.append_assoc, readTokens, read32_be32]
      dsimp only
      rw [if_neg (by decide), if_neg (by decide), if_pos rfl, List.append_assoc, read32_be32]
      dsimp only
      rw [List.append_assoc, read32_be32]
      dsimp only
      rw [hlen, if_neg (by simp), hdrop, htake, hrest]
      rfl
    | endNode =>
      rw [FdtCall.encode, readTokens, read32_be32]
      dsimp only
      rw [if_neg (by decide), if_pos rfl, hrest]
      rfl

theorem mapM_event {strings : List (BitVec 8)} {offset : List (BitVec 8) → BitVec 32}
    (calls : List FdtCall)
    (h : ∀ name ∈ propNames calls, stringAt strings (offset name) = some name) :
    (calls.map (FdtCall.token offset)).mapM (FdtToken.event strings) =
      some (calls.map FdtCall.event) := by
  induction calls with
  | nil => rfl
  | cons c calls ih =>
    have hrest := ih fun name hname ↦ h name (by cases c <;> simp [propNames] at hname ⊢ <;> tauto)
    have hc : (c.token offset).event strings = some c.event := by
      cases c with
      | beginNode => rfl
      | endNode => rfl
      | prop name value =>
        simp [FdtCall.token, FdtToken.event, FdtCall.event, h name (by simp [propNames])]
    rw [List.map_cons, List.mapM_cons, hc, hrest]
    rfl

theorem reserveBlock_eq (entries : List (BitVec 64 × BitVec 64)) :
    reserveBlock entries =
      entries.flatMap (fun e ↦ be64 e.1 ++ be64 e.2) ++ (be64 0#64 ++ be64 0#64) := by
  have hfold := foldl_append_eq (fun e : BitVec 64 × BitVec 64 ↦ be64 e.1 ++ be64 e.2) entries []
  simp only [reserveBlock, appendBe64_eq, List.append_assoc, hfold, List.nil_append]

theorem readReserve_reserveBlock {entries : List (BitVec 64 × BitVec 64)}
    (h : (0#64, 0#64) ∉ entries) (rest : List (BitVec 8)) {fuel : ℕ}
    (hfuel : entries.length < fuel) :
    readReserve fuel (reserveBlock entries ++ rest) = some entries := by
  rw [reserveBlock_eq]
  induction entries generalizing fuel with
  | nil =>
    obtain ⟨fuel, rfl⟩ := Nat.exists_eq_succ_of_ne_zero (Nat.ne_of_gt hfuel)
    simp [readReserve]
  | cons e entries ih =>
    rw [List.length_cons] at hfuel
    obtain ⟨fuel, rfl⟩ := Nat.exists_eq_succ_of_ne_zero (n := fuel) (by omega)
    rw [List.mem_cons, not_or] at h
    have hrest := ih h.2 (Nat.lt_of_succ_lt_succ hfuel)
    have hne : ¬ (e.1 = 0#64 ∧ e.2 = 0#64) := fun hzero ↦ h.1 (Prod.ext hzero.1.symm hzero.2.symm)
    simp only [List.flatMap_cons, List.append_assoc, readReserve, read64_be64] at hrest ⊢
    rw [if_neg hne, hrest]
    rfl

theorem length_reserveBlock (entries : List (BitVec 64 × BitVec 64)) :
    (reserveBlock entries).length = 16 * (entries.length + 1) := by
  rw [reserveBlock_eq]
  induction entries with
  | nil => rfl
  | cons e entries ih =>
    simp only [List.flatMap_cons, List.length_append, length_be64, List.length_cons] at ih ⊢
    omega

/-! ## The blob -/

/-- The header that is written. -/
def joinHeader (reserve structure_ strings : List (BitVec 8)) : FdtHeader :=
  let structureOffset := 40#32 + BitVec.ofNat 32 reserve.length
  let stringsOffset := structureOffset + BitVec.ofNat 32 structure_.length
  { magic := fdtMagic
    totalSize := stringsOffset + BitVec.ofNat 32 strings.length
    structureOffset, stringsOffset
    reserveOffset := 40#32
    version := fdtVersion
    lastCompatibleVersion := fdtLastCompatibleVersion
    bootCpu := 0#32
    stringsSize := BitVec.ofNat 32 strings.length
    structureSize := BitVec.ofNat 32 structure_.length }

section Blob

variable {reserve structure_ strings : List (BitVec 8)}

theorem read_joinBlob : FdtHeader.read (joinBlob reserve structure_ strings) =
    some (joinHeader reserve structure_ strings) := by
  simp [FdtHeader.read, joinBlob, joinHeader, appendBe32_eq, List.append_assoc]

/-- Forty bytes are in front of the blocks. -/
theorem exists_joinBlob_eq : ∃ header : List (BitVec 8), header.length = 40 ∧
    joinBlob reserve structure_ strings = header ++ (reserve ++ (structure_ ++ strings)) := by
  refine ⟨?header, ?length, ?eq⟩
  case eq =>
    simp only [joinBlob, appendBe32_eq, ← List.append_assoc]
    rfl
  case length => simp

theorem length_joinBlob : (joinBlob reserve structure_ strings).length =
    40 + reserve.length + structure_.length + strings.length := by
  obtain ⟨header, hlen, heq⟩ := @exists_joinBlob_eq reserve structure_ strings
  simp only [heq, List.length_append, hlen]
  omega

variable (hsize : (joinBlob reserve structure_ strings).length < 2 ^ 32)

include hsize

/-- The numbers of the header are the sizes and places of the blocks. -/
theorem toNat_joinHeader :
    let h := joinHeader reserve structure_ strings
    h.reserveOffset.toNat = 40 ∧ h.structureOffset.toNat = 40 + reserve.length ∧
      h.structureSize.toNat = structure_.length ∧
      h.stringsOffset.toNat = 40 + reserve.length + structure_.length ∧
      h.stringsSize.toNat = strings.length ∧
      h.totalSize.toNat = (joinBlob reserve structure_ strings).length := by
  rw [length_joinBlob] at hsize ⊢
  dsimp only [joinHeader]
  refine ⟨rfl, ?_⟩
  simp only [BitVec.toNat_add, BitVec.toNat_ofNat]
  omega

theorem describes_joinHeader (hreserve : reserve.length % 4 = 0)
    (hstructure : structure_.length % 4 = 0) :
    (joinHeader reserve structure_ strings).Describes
      (joinBlob reserve structure_ strings).length := by
  obtain ⟨h₁, h₂, h₃, h₄, h₅, h₆⟩ := toNat_joinHeader hsize
  have hlen := @length_joinBlob reserve structure_ strings
  exact
    { magic := rfl
      version := ⟨rfl, rfl⟩
      totalSize := h₆
      reserve := by rw [h₁, h₂]; omega
      structureBlock := by rw [h₂, h₃, h₄]; omega
      strings := by rw [h₄, h₅, h₆]; omega }

theorem structureBlock_joinBlob :
    (joinHeader reserve structure_ strings).structureBlock (joinBlob reserve structure_ strings) =
      structure_ := by
  obtain ⟨-, h₂, h₃, -⟩ := toNat_joinHeader hsize
  obtain ⟨header, hlen, heq⟩ := @exists_joinBlob_eq reserve structure_ strings
  have hfront : (header ++ reserve).length = 40 + reserve.length := by
    rw [List.length_append, hlen]
  rw [FdtHeader.structureBlock, fdtBlock, h₂, h₃, heq, ← List.append_assoc, ← hfront,
    List.drop_left, List.take_left]

theorem stringsBlock_joinBlob :
    (joinHeader reserve structure_ strings).stringsBlock (joinBlob reserve structure_ strings) =
      strings := by
  obtain ⟨-, -, -, h₄, h₅, -⟩ := toNat_joinHeader hsize
  obtain ⟨header, hlen, heq⟩ := @exists_joinBlob_eq reserve structure_ strings
  have hfront : (header ++ reserve ++ structure_).length =
      40 + reserve.length + structure_.length := by
    rw [List.length_append, List.length_append, hlen]
  rw [FdtHeader.stringsBlock, fdtBlock, h₄, h₅, heq, ← List.append_assoc, ← List.append_assoc,
    ← hfront, List.drop_left, List.take_length]

theorem drop_reserve_joinBlob :
    (joinBlob reserve structure_ strings).drop
        (joinHeader reserve structure_ strings).reserveOffset.toNat =
      reserve ++ (structure_ ++ strings) := by
  obtain ⟨header, hlen, heq⟩ := @exists_joinBlob_eq reserve structure_ strings
  rw [(toNat_joinHeader hsize).1, heq, ← hlen, List.drop_left]

end Blob

/-! ## The round trip -/

/-- The blob written for a sequence of calls. -/
def blobOf (reserve : List (BitVec 64 × BitVec 64)) (calls : List FdtCall) : List (BitVec 8) :=
  let w := FdtWriter.run {} calls
  joinBlob (reserveBlock reserve) w.finish w.strings.bytes

section RoundTrip

variable {reserve : List (BitVec 64 × BitVec 64)} {calls : List FdtCall}

/-- The offsets the names have in the end. -/
def offsetsOf (calls : List FdtCall) : List (BitVec 8) → BitVec 32 :=
  (FdtWriter.run {} calls).strings.nameOffset

theorem finish_eq (calls : List FdtCall) : (FdtWriter.run {} calls).finish =
    calls.flatMap (FdtCall.encode (offsetsOf calls)) ++ be32 9#32 := by
  rw [FdtWriter.finish, appendBe32_eq, FdtWriter.run_encode calls rfl (.refl _), List.nil_append]
  rfl

theorem length_flatMap_encode (offset : List (BitVec 8) → BitVec 32) (calls : List FdtCall) :
    (calls.flatMap (FdtCall.encode offset)).length % 4 = 0 ∧
      4 * calls.length ≤ (calls.flatMap (FdtCall.encode offset)).length := by
  induction calls with
  | nil => exact ⟨rfl, Nat.le_refl _⟩
  | cons c calls ih =>
    have hc := c.length_encode_mod offset
    rw [List.flatMap_cons, List.length_append, List.length_cons]
    omega

/-- The value of a property is part of the blob. -/
theorem length_value_le (offset : List (BitVec 8) → BitVec 32) {name : List (BitVec 8)}
    {value : FdtValue} (h : .prop name value ∈ calls) :
    value.bytes.length ≤ (calls.flatMap (FdtCall.encode offset)).length := by
  obtain ⟨before, after, rfl⟩ := List.append_of_mem h
  simp only [List.flatMap_append, List.flatMap_cons, FdtCall.encode, List.length_append]
  omega

variable (hsize : (blobOf reserve calls).length < 2 ^ 32)

include hsize

theorem readable_calls (hnames : ∀ name ∈ nodeNames calls, 0#8 ∉ name) :
    ∀ c ∈ calls, c.Readable := by
  intro c hc
  cases c with
  | beginNode name => exact hnames name (List.mem_filterMap.2 ⟨_, hc, rfl⟩)
  | endNode => trivial
  | prop name value =>
    have hle := length_value_le (offsetsOf calls) hc
    rw [blobOf, length_joinBlob, finish_eq, List.length_append] at hsize
    exact Nat.lt_of_le_of_lt hle (by omega)

/-- Every name is at its offset, and only there. -/
theorem stringAt_offsetsOf {name : List (BitVec 8)} (h : name ∈ propNames calls)
    (hname : 0#8 ∉ name) :
    stringAt (FdtWriter.run {} calls).strings.bytes (offsetsOf calls name) = some name := by
  rw [blobOf, length_joinBlob] at hsize
  have hsound : (FdtWriter.run {} calls).strings.Sound :=
    FdtWriter.sound_run StringTable.sound_empty (by omega)
  exact hsound.stringAt_eq (FdtWriter.find_run {} h) hname

theorem readTokens_blobOf (hnames : ∀ name ∈ nodeNames calls, 0#8 ∉ name) :
    readTokens (blobOf reserve calls).length (FdtWriter.run {} calls).finish =
      some (calls.map (FdtCall.token (offsetsOf calls))) := by
  have hcalls := (length_flatMap_encode (offsetsOf calls) calls).2
  have hlen : calls.length < (blobOf reserve calls).length := by
    rw [blobOf, length_joinBlob, finish_eq, List.length_append]
    omega
  rw [finish_eq, readTokens_encode (readable_calls hsize hnames) hlen]

/-- A blob is read back as the items its calls are the events of. -/
theorem decodeItems_blobOf (hnodes : ∀ name ∈ nodeNames calls, 0#8 ∉ name)
    (hprops : ∀ name ∈ propNames calls, 0#8 ∉ name) (hreserve : (0#64, 0#64) ∉ reserve)
    {items : FdtItems} (hitems : items.events = calls.map FdtCall.event) :
    decodeItems (blobOf reserve calls) = some (reserve, items) := by
  have hevents := mapM_event calls
    fun name hname ↦ stringAt_offsetsOf hsize hname (hprops name hname)
  have hfinish : (FdtWriter.run {} calls).finish.length % 4 = 0 := by
    have := (length_flatMap_encode (offsetsOf calls) calls).1
    rw [finish_eq, List.length_append, length_be32]
    omega
  have hentries := length_reserveBlock reserve
  refine decodeItems_eq (calls.map (FdtCall.token (offsetsOf calls))) read_joinBlob
    (describes_joinHeader hsize (by omega) hfinish) ?_ ?_ ?_
  · have hlen : reserve.length < (blobOf reserve calls).length := by
      rw [blobOf, length_joinBlob]
      omega
    have hblock := drop_reserve_joinBlob hsize
    rw [← readReserve_reserveBlock hreserve _ hlen]
    exact congrArg _ hblock
  · have hblock := structureBlock_joinBlob hsize
    rw [← readTokens_blobOf hsize hnodes]
    exact congrArg _ hblock
  · rw [show (joinHeader _ _ _).stringsBlock (blobOf reserve calls) = _ from
      stringsBlock_joinBlob hsize, readItems, hevents]
    dsimp only
    rw [← hitems, itemsOnto_events, FdtItems.append_nil]

end RoundTrip

/-- **The round trip.** Calls that are well nested are the events of one sequence of items; the blob
written for them has a header that describes it, with the blocks where it says, and is read back as
the reservations and these items, a single node as a tree; a property names itself by the offset of
its name, which is the same for equal names and not for others. -/
theorem fdt_round_trip (reserve : List (BitVec 64 × BitVec 64)) (calls : List FdtCall)
    (hnested : wellNested 0 calls = true) (hnodes : ∀ name ∈ nodeNames calls, 0#8 ∉ name)
    (hprops : ∀ name ∈ propNames calls, 0#8 ∉ name) (hreserve : (0#64, 0#64) ∉ reserve)
    (hsize : (blobOf reserve calls).length < 2 ^ 32) :
    let w := FdtWriter.run {} calls
    let blob := blobOf reserve calls
    (∃ items : FdtItems, items.events = calls.map FdtCall.event ∧
      (∀ items' : FdtItems, items'.events = calls.map FdtCall.event → items' = items) ∧
      decodeItems blob = some (reserve, items) ∧
      ∀ name children, items = .node name children .nil →
        decodeFdt blob = some { reserve, name, items := children }) ∧
    (∃ header, FdtHeader.read blob = some header ∧ header.Describes blob.length ∧
      header.structureBlock blob = w.finish ∧ header.stringsBlock blob = w.strings.bytes) ∧
    readTokens blob.length w.finish = some (calls.map (FdtCall.token (offsetsOf calls))) ∧
    (∀ name ∈ propNames calls, stringAt w.strings.bytes (offsetsOf calls name) = some name) ∧
    ∀ a ∈ propNames calls, ∀ b ∈ propNames calls,
      offsetsOf calls a = offsetsOf calls b ↔ a = b := by
  intro w blob
  have hplace (name : List (BitVec 8)) (h : name ∈ propNames calls) :
      stringAt w.strings.bytes (offsetsOf calls name) = some name :=
    stringAt_offsetsOf hsize h (hprops name h)
  have hfinish : w.finish.length % 4 = 0 := by
    have := (length_flatMap_encode (offsetsOf calls) calls).1
    rw [show w.finish = _ from finish_eq calls, List.length_append, length_be32]
    omega
  have hentries := length_reserveBlock reserve
  have hjoin : (joinBlob (reserveBlock reserve) w.finish w.strings.bytes).length < 2 ^ 32 := hsize
  refine ⟨?_, ⟨joinHeader (reserveBlock reserve) w.finish w.strings.bytes, read_joinBlob,
    describes_joinHeader hjoin (by omega) hfinish, structureBlock_joinBlob hjoin,
    stringsBlock_joinBlob hjoin⟩, readTokens_blobOf hsize hnodes, hplace, fun a ha b hb ↦ ?_⟩
  · obtain ⟨items, hitems⟩ := exists_events_of_wellNested hnested
    have hdecode := decodeItems_blobOf hsize hnodes hprops hreserve hitems
    refine ⟨items, hitems, fun items' h' ↦ ?_, hdecode, fun name children h ↦ ?_⟩
    · have h₁ := itemsOnto_events items' .nil []
      have h₂ := itemsOnto_events items .nil []
      rw [h', FdtItems.append_nil] at h₁
      rw [hitems, h₁, FdtItems.append_nil] at h₂
      exact (List.cons.inj (Option.some.inj h₂)).1
    · rw [decodeFdt, hdecode, h]
  · constructor
    · intro heq
      have := (hplace a ha).symm.trans ((congrArg _ heq).trans (hplace b hb))
      exact Option.some.inj this
    · rintro rfl
      rfl

def smallReserve : List (BitVec 64 × BitVec 64) := [(0x80000000#64, 0x1000#64)]

/-- A tree with a node in it, where two properties have one name. -/
def smallCalls : List FdtCall :=
  [.beginNode [],
    .prop (octets "model") (.string (octets "small")),
    .beginNode (octets "soc"),
    .prop (octets "ranges") .empty,
    .prop (octets "model") (.u32List [1#32, 2#32]),
    .endNode,
    .endNode]

theorem fdt_round_trip_small : ∃ items : FdtItems, items.events = smallCalls.map FdtCall.event ∧
    decodeItems (blobOf smallReserve smallCalls) = some (smallReserve, items) := by
  obtain ⟨⟨items, hevents, -, hdecode, -⟩, -⟩ := fdt_round_trip smallReserve smallCalls (by decide)
    (by decide) (by decide) (by decide) (by decide +kernel)
  exact ⟨items, hevents, hdecode⟩

/-! ## The size of a blob -/

/-- What a call adds to the structure block and to the names at most. -/
def FdtCall.cost : FdtCall → ℕ
  | beginNode name => name.length + 8
  | prop name value => name.length + value.bytes.length + 16
  | endNode => 4

theorem length_align4_le (out : List (BitVec 8)) : (align4 out).length ≤ out.length + 3 := by
  rw [align4_eq, List.length_append, List.length_replicate, padding]
  omega

theorem StringTable.length_offset_le (t : StringTable) (name : List (BitVec 8)) :
    (t.offset name).2.bytes.length ≤ t.bytes.length + name.length + 1 := by
  rw [StringTable.offset]
  split
  · dsimp only
    omega
  · simp [Nat.add_assoc]

/-- The bytes of the structure block and of the names. -/
def FdtWriter.size (w : FdtWriter) : ℕ := w.structure_.length + w.strings.bytes.length

theorem FdtWriter.size_call_le (w : FdtWriter) (c : FdtCall) :
    (w.call c).size ≤ w.size + c.cost := by
  cases c with
  | beginNode name =>
    have hlen := length_align4_le (appendBe32 w.structure_ fdtBeginNode ++ name ++ [0#8])
    simp only [call, beginNode, size, FdtCall.cost, appendBe32_eq, List.length_append, length_be32,
      List.length_singleton] at hlen ⊢
    omega
  | prop name value =>
    have hlen := length_align4_le (appendBe32 (appendBe32 (appendBe32 w.structure_ fdtProp)
      (BitVec.ofNat 32 value.bytes.length)) (w.strings.offset name).1 ++ value.bytes)
    have hname := w.strings.length_offset_le name
    rw [call, prop_eq]
    simp only [propRaw, size, FdtCall.cost, appendBe32_eq, List.length_append,
      length_be32] at hlen ⊢
    omega
  | endNode =>
    simp only [call, endNode, size, FdtCall.cost, appendBe32_eq, List.length_append, length_be32]
    omega

theorem FdtWriter.size_run_le (w : FdtWriter) (calls : List FdtCall) :
    (w.run calls).size ≤ w.size + (calls.map FdtCall.cost).sum := by
  induction calls generalizing w with
  | nil => simp
  | cons c calls ih =>
    have hrest := ih (w.call c)
    have hcall := w.size_call_le c
    rw [run_cons, List.map_cons, List.sum_cons]
    omega

theorem length_blobOf_le (reserve : List (BitVec 64 × BitVec 64)) (calls : List FdtCall) :
    (blobOf reserve calls).length ≤
      16 * (reserve.length + 1) + 44 + (calls.map FdtCall.cost).sum := by
  have hsize := FdtWriter.size_run_le {} calls
  rw [FdtWriter.size] at hsize
  rw [blobOf, length_joinBlob, length_reserveBlock, FdtWriter.finish, appendBe32_eq,
    List.length_append, length_be32]
  simp only [FdtWriter.size, List.length_nil] at hsize
  omega

/-! ## The tree of the machine -/

theorem wellNested_machineCalls (config : FdtConfig) :
    wellNested 0 (machineCalls config) = true := by
  rw [machineCalls, socCalls]
  cases config.includeNetwork <;> rfl

theorem nodeNames_machineCalls (config : FdtConfig) :
    ∀ name ∈ nodeNames (machineCalls config), 0#8 ∉ name := by
  have hnames : nodeNames (machineCalls config) =
      nodeNames (machineCalls { includeNetwork := config.includeNetwork }) := by
    rw [machineCalls, machineCalls, socCalls, socCalls]
    rfl
  rw [hnames]
  cases config.includeNetwork <;> decide +kernel

theorem propNames_machineCalls (config : FdtConfig) :
    ∀ name ∈ propNames (machineCalls config), 0#8 ∉ name := by
  have hnames : propNames (machineCalls config) =
      propNames (machineCalls { includeNetwork := config.includeNetwork }) := by
    rw [machineCalls, machineCalls, socCalls, socCalls]
    rfl
  rw [hnames]
  cases config.includeNetwork <;> decide +kernel

/-- What is built for the machine, and the reservation it announces. -/
theorem buildMachineFdt_ok {config : FdtConfig} (hok : (buildMachineFdt config).ok = true) :
    (buildMachineFdt config).blob =
        blobOf [(config.fdtAddress, config.fdtReservedSize)] (machineCalls config) ∧
      (0#64, 0#64) ∉ [(config.fdtAddress, config.fdtReservedSize)] := by
  rw [buildMachineFdt] at hok ⊢
  split at hok
  · cases hok
  · next hranges =>
    split at hok
    · cases hok
    · next hinside =>
      rw [if_neg hranges, if_neg hinside]
      refine ⟨rfl, fun hmem ↦ ?_⟩
      obtain ⟨-, hzero⟩ := Prod.ext_iff.1 (List.mem_singleton.1 hmem)
      simp only [rangeOverflows, Bool.or_eq_true, decide_eq_true_eq, not_or] at hranges
      exact hranges.2.1 hzero.symm

/-- The reservation is announced however large the blob is. -/
theorem readReserve_buildMachineFdt {config : FdtConfig}
    (hok : (buildMachineFdt config).ok = true) :
    ∃ header, FdtHeader.read (buildMachineFdt config).blob = some header ∧
      readReserve (buildMachineFdt config).blob.length
          ((buildMachineFdt config).blob.drop header.reserveOffset.toNat) =
        some [(config.fdtAddress, config.fdtReservedSize)] := by
  obtain ⟨hblob, hreserve⟩ := buildMachineFdt_ok hok
  refine ⟨_, (congrArg FdtHeader.read hblob).trans read_joinBlob, ?_⟩
  obtain ⟨front, hlen, heq⟩ := @exists_joinBlob_eq
    (reserveBlock [(config.fdtAddress, config.fdtReservedSize)])
    (FdtWriter.run {} (machineCalls config)).finish
    (FdtWriter.run {} (machineCalls config)).strings.bytes
  have hdrop : (buildMachineFdt config).blob.drop 40 =
      reserveBlock [(config.fdtAddress, config.fdtReservedSize)] ++
        ((FdtWriter.run {} (machineCalls config)).finish ++
          (FdtWriter.run {} (machineCalls config)).strings.bytes) := by
    rw [hblob, blobOf, heq, ← hlen, List.drop_left]
  refine (congrArg (readReserve _) hdrop).trans (readReserve_reserveBlock hreserve _ ?_)
  rw [hblob, blobOf, length_joinBlob, List.length_singleton]
  omega

/-- What is built for the machine is read back as its reservation and the items of its calls. -/
theorem decodeItems_buildMachineFdt {config : FdtConfig} (hok : (buildMachineFdt config).ok = true)
    (hsize : (buildMachineFdt config).blob.length < 2 ^ 32) :
    ∃ items : FdtItems, items.events = (machineCalls config).map FdtCall.event ∧
      decodeItems (buildMachineFdt config).blob =
        some ([(config.fdtAddress, config.fdtReservedSize)], items) := by
  obtain ⟨hblob, hreserve⟩ := buildMachineFdt_ok hok
  obtain ⟨items, hitems⟩ := exists_events_of_wellNested (wellNested_machineCalls config)
  rw [hblob] at hsize ⊢
  exact ⟨items, hitems, decodeItems_blobOf hsize (nodeNames_machineCalls config)
    (propNames_machineCalls config) hreserve hitems⟩

end Rvemu
