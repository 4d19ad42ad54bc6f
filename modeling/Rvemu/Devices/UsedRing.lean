import Rvemu.Devices.AvailableRing
import Rvemu.Devices.QueueConfiguration

/-!
# Publishing used entries

`publishUsed` makes three writes: the id and the length of an entry, and then the index that makes
the entry visible.  The driver may look at the ring after any of them, and any of them may be
refused.  `used_ring_publication` says what it finds there, over whole runs of calls: the index
names only entries that are complete, the entries of the last turn of the ring but one are as they
were published, and a call that fails has not moved the index.

The fields of the ring are named by their offsets from its address.  What is said of a field is said
of memory, so it says nothing about one that does not lie in RAM.
-/

set_option autoImplicit false

namespace Rvemu

open Bytes

/-! ## The fields of the ring -/

namespace VirtqueueLayout

/-- The field at an offset of the used ring holds this word, if it lies in RAM. -/
def UsedField (layout : VirtqueueLayout) (b : Bus) (offset : ℕ) (w : AccessWidth) (v : BitVec 64) :
    Prop :=
  b.InRam (layout.usedRing + BitVec.ofNat 64 offset).toNat (widthInBytes w) →
    b.ramWord (layout.usedRing + BitVec.ofNat 64 offset).toNat w = v

/-- The offset of the entry of a position. -/
def usedOffset (layout : VirtqueueLayout) (k : ℕ) : ℕ := 4 + 8 * (k % layout.size.toNat)

/-- The entry of a position is complete. -/
def UsedEntry (layout : VirtqueueLayout) (b : Bus) (k : ℕ) (entry : BitVec 32 × BitVec 32) : Prop :=
  layout.UsedField b (layout.usedOffset k) .word (entry.1.setWidth 64) ∧
    layout.UsedField b (layout.usedOffset k + 4) .word (entry.2.setWidth 64)

/-- The index that the driver sees. -/
def UsedIdx (layout : VirtqueueLayout) (b : Bus) (idx : BitVec 16) : Prop :=
  layout.UsedField b 2 .halfWord (idx.setWidth 64)

/-- A write to a field of the ring. -/
def usedWrite (layout : VirtqueueLayout) (offset : ℕ) (w : AccessWidth) (v : BitVec 64) :
    DmaRequest :=
  .write (layout.usedRing + BitVec.ofNat 64 offset) w v

/-- The three writes of a publication, in order. -/
def usedWrites (layout : VirtqueueLayout) (idx : BitVec 16) (entry : BitVec 32 × BitVec 32) :
    List DmaRequest :=
  [layout.usedWrite (layout.usedOffset idx.toNat) .word (entry.1.setWidth 64),
   layout.usedWrite (layout.usedOffset idx.toNat + 4) .word (entry.2.setWidth 64),
   layout.usedWrite 2 .halfWord ((idx + 1#16).setWidth 64)]

theorem usedOffset_lt (layout : VirtqueueLayout) (k : ℕ) (hsize : layout.size.toNat ≠ 0) :
    layout.usedOffset k + 8 < 2 ^ 32 := by
  have hlt := Nat.mod_lt k (Nat.pos_of_ne_zero hsize)
  have hsz : layout.size.toNat < 2 ^ 16 := layout.size.isLt
  rw [usedOffset]
  omega

section Fields

variable {layout : VirtqueueLayout} {b : Bus}

/-- A field that was just written. -/
theorem usedField_self (offset : ℕ) {w : AccessWidth} {v : BitVec 64}
    (hv : composeBytes (splitByte v) (widthInBytes w) = v) :
    layout.UsedField (b.dma (layout.usedWrite offset w v)).2 offset w v := by
  intro hram
  have hmap : (b.dma (layout.usedWrite offset w v)).2.memoryMap = b.memoryMap :=
    Dma.memoryMap_dma _ _
  have hstored := (((Bus.inRam_congr hmap).1 hram).write v .dmaWrite).2
  exact hstored.ramWord_self.trans hv

/-- The other fields stay as they are. -/
theorem UsedField.write {offset offset' : ℕ} {w w' : AccessWidth} {v v' : BitVec 64}
    (h : layout.UsedField b offset w v)
    (hapart : offset + widthInBytes w ≤ offset' ∨ offset' + widthInBytes w' ≤ offset)
    (hlt : offset < 2 ^ 33) (hlt' : offset' < 2 ^ 33) :
    layout.UsedField (b.dma (layout.usedWrite offset' w' v')).2 offset w v := by
  intro hram
  have hmap : (b.dma (layout.usedWrite offset' w' v')).2.memoryMap = b.memoryMap :=
    Dma.memoryMap_dma _ _
  have hram' := (Bus.inRam_congr hmap).1 hram
  rw [← h hram']
  refine Bus.ramWord_congr fun i hi ↦ Dma.ramByte_dma b ?_
  rintro ⟨-, hlow, hhigh⟩
  have hend := hram'.lt
  have hw : widthInBytes w ≤ 8 := widthInBytes_le w
  have hw' : widthInBytes w' ≤ 8 := widthInBytes_le w'
  have hring := layout.usedRing.isLt
  simp only [usedWrite, DmaRequest.address, DmaRequest.width, BitVec.toNat_add,
    BitVec.toNat_ofNat] at hlow hhigh hend
  omega

end Fields

end VirtqueueLayout

/-! ## One call -/

/-- The bus after some requests. -/
def Bus.afterDma (b : Bus) (requests : List DmaRequest) : Bus :=
  requests.foldl (fun b request ↦ (b.dma request).2) b

@[simp] theorem Bus.afterDma_nil (b : Bus) : b.afterDma [] = b := rfl

@[simp] theorem Bus.afterDma_cons (b : Bus) (request : DmaRequest) (requests : List DmaRequest) :
    b.afterDma (request :: requests) = (b.dma request).2.afterDma requests := rfl

theorem Bus.memoryMap_afterDma (b : Bus) (requests : List DmaRequest) :
    (b.afterDma requests).memoryMap = b.memoryMap := by
  induction requests generalizing b with
  | nil => rfl
  | cons request requests ih => exact (ih _).trans (Dma.memoryMap_dma b request)

/-- All of the requests are accepted, one after the other. -/
def Bus.Accepts (b : Bus) : List DmaRequest → Prop
  | [] => True
  | request :: requests => (b.dma request).1.ok = true ∧ (b.dma request).2.Accepts requests

/-- Make requests in order, up to the first one that is refused. -/
def requestInOrder {α : Type} (refused done : α) : List DmaRequest → Dma α
  | [] => pure done
  | request :: requests => do
    let reply ← Dialogue.ask request
    if !reply.ok then pure refused else requestInOrder refused done requests

theorem requestInOrder_cases {α : Type} (refused done : α) (requests : List DmaRequest) (b : Bus) :
    let p := requestInOrder refused done requests
    (p.run Bus.dma b).2 = b.afterDma (p.calls Bus.dma b) ∧
      ((p.calls Bus.dma b = requests ∧ b.Accepts requests ∧ (p.run Bus.dma b).1 = done) ∨
        ∃ before request after, requests = before ++ request :: after ∧ b.Accepts before ∧
          ((b.afterDma before).dma request).1.ok = false ∧
          p.calls Bus.dma b = before ++ [request] ∧ (p.run Bus.dma b).1 = refused) := by
  induction requests generalizing b with
  | nil => exact ⟨rfl, Or.inl ⟨rfl, trivial, rfl⟩⟩
  | cons request requests ih =>
    intro p
    have hp : p = requestInOrder refused done (request :: requests) := rfl
    rw [requestInOrder] at hp
    rw [hp, Dialogue.run_bind, Dialogue.calls_bind, Dialogue.run_ask, Dialogue.calls_ask]
    cases hok : (b.dma request).1.ok with
    | false =>
      rw [if_pos (by decide)]
      exact ⟨rfl, Or.inr ⟨[], request, requests, rfl, trivial, hok, rfl, rfl⟩⟩
    | true =>
      rw [if_neg (by decide)]
      obtain ⟨hbus, hcases⟩ := ih (b.dma request).2
      refine ⟨hbus, ?_⟩
      rcases hcases with ⟨hcalls, haccepts, hdone⟩ |
        ⟨before, next, after, hsplit, haccepts, hrefused, hcalls, hvalue⟩
      · exact Or.inl ⟨congrArg (request :: ·) hcalls, ⟨hok, haccepts⟩, hdone⟩
      · exact Or.inr ⟨request :: before, next, after, congrArg (request :: ·) hsplit,
          ⟨hok, haccepts⟩, hrefused, congrArg (request :: ·) hcalls, hvalue⟩

/-- The requests up to one that is refused. -/
theorem append_singleton_eq_take {requests before after : List DmaRequest} {request : DmaRequest}
    (h : requests = before ++ request :: after) :
    before ++ [request] = requests.take (before.length + 1) := by
  rw [h, List.take_append, List.take_of_length_le (Nat.le_succ _), Nat.add_sub_cancel_left]
  rfl

theorem usedSlotAddress_eq (layout : VirtqueueLayout) (idx : BitVec 16) :
    VirtqueueRuntimeState.usedSlotAddress layout idx =
      layout.usedRing + BitVec.ofNat 64 (layout.usedOffset idx.toNat) := by
  have hslot : (virtqueueRingSlot idx layout.size).toNat = idx.toNat % layout.size.toNat := by
    rw [virtqueueRingSlot, BitVec.toNat_umod]
  have hlt : (virtqueueRingSlot idx layout.size).toNat < 2 ^ 16 := (virtqueueRingSlot _ _).isLt
  rw [VirtqueueRuntimeState.usedSlotAddress, VirtqueueLayout.usedOffset, ← hslot,
    ← BitVec.toNat_inj]
  simp only [BitVec.toNat_add, BitVec.toNat_mul, BitVec.toNat_setWidth, BitVec.toNat_ofNat]
  omega

/-- A call on a queue that is ready makes its three writes in order; its index moves when all of
them are accepted. -/
theorem publishUsed_eq (s : VirtqueueRuntimeState) (layout : VirtqueueLayout)
    (entry : BitVec 32 × BitVec 32) :
    s.publishUsed layout entry.1 entry.2 =
      if !layout.ready || layout.size == 0#16 then pure (.queueNotReady, s)
      else requestInOrder (.dmaWriteFailure, s) (.none, { s with usedIdx := s.usedIdx + 1#16 })
        (layout.usedWrites s.usedIdx entry) := by
  have hlength : layout.usedRing + BitVec.ofNat 64 (layout.usedOffset s.usedIdx.toNat) + 4#64 =
      layout.usedRing + BitVec.ofNat 64 (layout.usedOffset s.usedIdx.toNat + 4) := by
    rw [BitVec.ofNat_add, BitVec.add_assoc]
  rw [VirtqueueRuntimeState.publishUsed, usedSlotAddress_eq]
  dsimp only
  rw [hlength]
  rfl

section Prefixes

variable {layout : VirtqueueLayout} {b : Bus} {idx : BitVec 16} {entry : BitVec 32 × BitVec 32}
  {requests : List DmaRequest}

/-- Writes to other fields do not touch a field. -/
theorem usedField_afterDma {offset : ℕ} {w : AccessWidth} {v : BitVec 64}
    (h : layout.UsedField b offset w v) (hlt : offset < 2 ^ 33)
    (hrequests : ∀ request ∈ requests, ∃ offset' w' v',
      request = layout.usedWrite offset' w' v' ∧ offset' < 2 ^ 33 ∧
        (offset + widthInBytes w ≤ offset' ∨ offset' + widthInBytes w' ≤ offset)) :
    layout.UsedField (b.afterDma requests) offset w v := by
  induction requests generalizing b with
  | nil => exact h
  | cons request requests ih =>
    obtain ⟨offset', w', v', rfl, hlt', hapart⟩ := hrequests request List.mem_cons_self
    exact ih (h.write hapart hlt hlt') fun r hr ↦ hrequests r (List.mem_cons_of_mem _ hr)

/-- As long as the last write is not made, the driver sees the old index. -/
theorem usedIdx_before (hsize : layout.size.toNat ≠ 0) (h : layout.UsedIdx b idx) {n : ℕ}
    (hn : n ≤ 2) :
    layout.UsedIdx (b.afterDma ((layout.usedWrites idx entry).take n)) idx := by
  have hoffset := layout.usedOffset_lt idx.toNat hsize
  refine usedField_afterDma h (by decide) fun request hr ↦ ?_
  have hmem : request ∈ (layout.usedWrites idx entry).take 2 :=
    List.take_subset_take_left _ hn hr
  have hfour : 4 ≤ layout.usedOffset idx.toNat := Nat.le_add_right _ _
  rcases List.mem_cons.1 hmem with rfl | hmem
  · exact ⟨_, _, _, rfl, by omega, Or.inl hfour⟩
  · rw [List.mem_singleton.1 hmem]
    exact ⟨_, _, _, rfl, by omega, Or.inl (Nat.le_add_right_of_le hfour)⟩

/-- After all writes the driver sees the new index, and the entry is complete. -/
theorem usedEntry_published (hsize : layout.size.toNat ≠ 0) :
    layout.UsedIdx (b.afterDma (layout.usedWrites idx entry)) (idx + 1#16) ∧
      layout.UsedEntry (b.afterDma (layout.usedWrites idx entry)) idx.toNat entry := by
  have hoffset := layout.usedOffset_lt idx.toNat hsize
  have hfour : 4 ≤ layout.usedOffset idx.toNat := Nat.le_add_right _ _
  have hcompose : ∀ {k : ℕ} (v : BitVec k) (n : ℕ), k = n * 8 → n ≤ 8 →
      composeBytes (splitByte (v.setWidth 64)) n = v.setWidth 64 := by
    rintro k v n rfl hn
    rw [composeBytes_splitByte _ _ hn, BitVec.setWidth_setWidth_of_le v (by omega),
      BitVec.setWidth_eq]
  refine ⟨VirtqueueLayout.usedField_self 2 (hcompose _ 2 rfl (by decide)), ?_, ?_⟩
  · refine ((VirtqueueLayout.usedField_self _ (hcompose entry.1 4 rfl (by decide))).write
      (Or.inl ?_) (by omega) (by omega)).write (Or.inr ?_) (by omega) (by decide)
    · exact Nat.le_refl _
    · exact hfour
  · refine (VirtqueueLayout.usedField_self _ (hcompose entry.2 4 rfl (by decide))).write (Or.inr ?_)
      (by omega) (by decide)
    exact Nat.le_add_right_of_le hfour

/-- None of the writes touches the entries of other slots. -/
theorem usedEntry_of_slot_ne (hsize : layout.size.toNat ≠ 0) {k : ℕ} {other : BitVec 32 × BitVec 32}
    (h : layout.UsedEntry b k other) (hslot : k % layout.size.toNat ≠ idx.toNat % layout.size.toNat)
    (n : ℕ) : layout.UsedEntry (b.afterDma ((layout.usedWrites idx entry).take n)) k other := by
  have hoffset := layout.usedOffset_lt idx.toNat hsize
  have hoffset' := layout.usedOffset_lt k hsize
  have hfour : 4 ≤ layout.usedOffset k := Nat.le_add_right _ _
  have happart : layout.usedOffset k + 8 ≤ layout.usedOffset idx.toNat ∨
      layout.usedOffset idx.toNat + 8 ≤ layout.usedOffset k := by
    rw [VirtqueueLayout.usedOffset, VirtqueueLayout.usedOffset]
    omega
  have hword : widthInBytes .word = 4 := rfl
  have hhalf : widthInBytes .halfWord = 2 := rfl
  have hwrites : ∀ request ∈ (layout.usedWrites idx entry).take n, ∃ offset' w' v',
      request = layout.usedWrite offset' w' v' ∧ offset' < 2 ^ 33 ∧
        (layout.usedOffset k + 8 ≤ offset' ∨ offset' + widthInBytes w' ≤ layout.usedOffset k) := by
    intro request hr
    rcases List.mem_cons.1 (List.take_subset _ _ hr) with rfl | hr
    · exact ⟨_, _, _, rfl, by omega, by omega⟩
    · rcases List.mem_cons.1 hr with rfl | hr
      · exact ⟨_, _, _, rfl, by omega, by omega⟩
      · rw [List.mem_singleton.1 hr]
        exact ⟨_, _, _, rfl, by omega, by omega⟩
  constructor
  · refine usedField_afterDma h.1 (by omega) fun request hr ↦ ?_
    obtain ⟨offset', w', v', hrequest, hlt, hapart⟩ := hwrites request hr
    exact ⟨offset', w', v', hrequest, hlt, by omega⟩
  · refine usedField_afterDma h.2 (by omega) fun request hr ↦ ?_
    obtain ⟨offset', w', v', hrequest, hlt, hapart⟩ := hwrites request hr
    exact ⟨offset', w', v', hrequest, hlt, by omega⟩

end Prefixes

/-! ## Runs -/

/-- A call of the device, and anything else that happens to memory. -/
inductive UsedEvent
  | publish (entry : BitVec 32 × BitVec 32)
  | elsewhere (bus : Bus)

structure UsedRun where
  bus : Bus
  device : VirtqueueRuntimeState := {}
  /-- The entries of the calls that succeeded. -/
  published : List (BitVec 32 × BitVec 32) := []

namespace UsedRun

variable (layout : VirtqueueLayout)

def step (r : UsedRun) : UsedEvent → UsedRun
  | .publish entry =>
    let called := (r.device.publishUsed layout entry.1 entry.2).run Bus.dma r.bus
    { bus := called.2
      device := called.1.2
      published := if called.1.1 = .none then r.published ++ [entry] else r.published }
  | .elsewhere bus => { r with bus }

/-- Only the device writes its ring. -/
def Allowed (r : UsedRun) : UsedEvent → Prop
  | .publish _ => True
  | .elsewhere bus => bus.memoryMap = r.bus.memoryMap ∧
      ∀ offset < 4 + 8 * layout.size.toNat,
        bus.ramByte (layout.usedRing + BitVec.ofNat 64 offset).toNat =
          r.bus.ramByte (layout.usedRing + BitVec.ofNat 64 offset).toNat

/-- The device and the driver agree on the index. -/
def Synced (r : UsedRun) : Prop := layout.UsedIdx r.bus r.device.usedIdx

/-- The entries of the last turn of the ring but one are where they were published. -/
structure Holds (base : ℕ) (r : UsedRun) : Prop where
  device : r.device.usedIdx = BitVec.ofNat 16 (base + r.published.length)
  entries : ∀ j (h : j < r.published.length), r.published.length < j + layout.size.toNat →
    layout.UsedEntry r.bus (base + j) r.published[j]

variable {layout}

/-- The call of a run, by what it comes to. -/
theorem publish_cases (r : UsedRun) (entry : BitVec 32 × BitVec 32) :
    let p := r.device.publishUsed layout entry.1 entry.2
    (p.run Bus.dma r.bus).2 = r.bus.afterDma (p.calls Bus.dma r.bus) ∧
      ((p.calls Bus.dma r.bus = [] ∧ (p.run Bus.dma r.bus).1 = (.queueNotReady, r.device)) ∨
        (layout.size.toNat ≠ 0 ∧
          ((p.calls Bus.dma r.bus = layout.usedWrites r.device.usedIdx entry ∧
              r.bus.Accepts (layout.usedWrites r.device.usedIdx entry) ∧
              (p.run Bus.dma r.bus).1 =
                (.none, { r.device with usedIdx := r.device.usedIdx + 1#16 })) ∨
            ∃ before request after,
              layout.usedWrites r.device.usedIdx entry = before ++ request :: after ∧
              r.bus.Accepts before ∧ ((r.bus.afterDma before).dma request).1.ok = false ∧
              p.calls Bus.dma r.bus = before ++ [request] ∧
              (p.run Bus.dma r.bus).1 = (.dmaWriteFailure, r.device)))) := by
  intro p
  have hp : p = r.device.publishUsed layout entry.1 entry.2 := rfl
  rw [publishUsed_eq] at hp
  rw [hp]
  split
  · exact ⟨rfl, Or.inl ⟨rfl, rfl⟩⟩
  · next hready =>
    have hsize : layout.size.toNat ≠ 0 := by
      intro hzero
      refine hready ?_
      rw [show layout.size = 0#16 from BitVec.eq_of_toNat_eq hzero, Bool.or_eq_true]
      exact Or.inr rfl
    obtain ⟨hbus, hcases⟩ := requestInOrder_cases
      (VirtqueueRingErrorCode.dmaWriteFailure, r.device)
      (VirtqueueRingErrorCode.none, { r.device with usedIdx := r.device.usedIdx + 1#16 })
      (layout.usedWrites r.device.usedIdx entry) r.bus
    exact ⟨hbus, Or.inr ⟨hsize, hcases⟩⟩

/-- What a call asks for is an initial part of the three writes; the last one is made when the first
two were accepted. -/
theorem calls_eq_take (r : UsedRun) (entry : BitVec 32 × BitVec 32) :
    let p := r.device.publishUsed layout entry.1 entry.2
    p.calls Bus.dma r.bus = [] ∨ layout.size.toNat ≠ 0 ∧ ∃ m,
      p.calls Bus.dma r.bus = (layout.usedWrites r.device.usedIdx entry).take m ∧
        (m ≤ 2 ∨ r.bus.Accepts ((layout.usedWrites r.device.usedIdx entry).take 2)) := by
  intro p
  rcases (@publish_cases layout r entry).2 with ⟨hcalls, -⟩ |
    ⟨hsize, ⟨hcalls, haccepts, -⟩ | ⟨before, request, after, hwrites, haccepts, -, hcalls, -⟩⟩
  · exact Or.inl hcalls
  · exact Or.inr ⟨hsize, 3, hcalls, Or.inr ⟨haccepts.1, haccepts.2.1, trivial⟩⟩
  · refine Or.inr ⟨hsize, before.length + 1, ?_, ?_⟩
    · exact hcalls.trans (append_singleton_eq_take hwrites)
    · by_cases hshort : before.length + 1 ≤ 2
      · exact Or.inl hshort
      · have hlength := congrArg List.length hwrites
        rw [List.length_append, List.length_cons] at hlength
        have hthree : (layout.usedWrites r.device.usedIdx entry).length = 3 := rfl
        refine Or.inr ?_
        rw [hwrites, List.take_left' (by omega)]
        exact haccepts

/-- What the driver finds after `n` writes of a call: the old index, or the new one and the entry;
and the other slots as they were. -/
theorem during_publish {r : UsedRun} (hsynced : r.Synced layout) (entry : BitVec 32 × BitVec 32)
    (n : ℕ) :
    let c := r.bus.afterDma
      (((r.device.publishUsed layout entry.1 entry.2).calls Bus.dma r.bus).take n)
    (layout.UsedIdx c r.device.usedIdx ∨
      (layout.UsedIdx c (r.device.usedIdx + 1#16) ∧
        layout.UsedEntry c r.device.usedIdx.toNat entry ∧
        r.bus.Accepts ((layout.usedWrites r.device.usedIdx entry).take 2))) ∧
    ∀ k other, layout.UsedEntry r.bus k other →
      k % layout.size.toNat ≠ r.device.usedIdx.toNat % layout.size.toNat →
      layout.UsedEntry c k other := by
  rcases @calls_eq_take layout r entry with hcalls | ⟨hsize, m, hcalls, hm⟩
  · rw [hcalls, List.take_nil]
    exact ⟨Or.inl hsynced, fun k other h _ ↦ h⟩
  · rw [hcalls, List.take_take]
    refine ⟨?_, fun k other h hslot ↦ usedEntry_of_slot_ne hsize h hslot _⟩
    by_cases hshort : min n m ≤ 2
    · exact Or.inl (usedIdx_before hsize hsynced hshort)
    · have hall : (layout.usedWrites r.device.usedIdx entry).take (min n m) =
          layout.usedWrites r.device.usedIdx entry :=
        List.take_of_length_le (Nat.not_le.1 hshort)
      rw [hall]
      obtain ⟨hidx, hentry⟩ := @usedEntry_published layout r.bus r.device.usedIdx entry
        hsize
      exact Or.inr ⟨hidx, hentry, hm.resolve_left (by omega)⟩

/-- What a call leaves behind: when it succeeds, both indices have moved past the entry, and when it
fails, neither has moved. -/
theorem after_publish {r : UsedRun} (hsynced : r.Synced layout) (entry : BitVec 32 × BitVec 32) :
    let called := (r.device.publishUsed layout entry.1 entry.2).run Bus.dma r.bus
    (called.1.1 = .none → called.1.2 = { r.device with usedIdx := r.device.usedIdx + 1#16 } ∧
      layout.UsedIdx called.2 (r.device.usedIdx + 1#16) ∧
      layout.UsedEntry called.2 r.device.usedIdx.toNat entry) ∧
    (called.1.1 ≠ .none → called.1.2 = r.device ∧ layout.UsedIdx called.2 r.device.usedIdx) := by
  obtain ⟨hbus, hcases⟩ := @publish_cases layout r entry
  dsimp only
  rw [hbus]
  rcases hcases with ⟨hcalls, hvalue⟩ |
    ⟨hsize, ⟨hcalls, -, hvalue⟩ | ⟨before, request, after, hwrites, -, hrefused, hcalls, hvalue⟩⟩
  · rw [hcalls, hvalue]
    exact ⟨nofun, fun _ ↦ ⟨rfl, hsynced⟩⟩
  · rw [hcalls, hvalue]
    exact ⟨fun _ ↦ ⟨rfl, usedEntry_published hsize⟩, fun h ↦ absurd rfl h⟩
  · rw [hvalue]
    refine ⟨nofun, fun _ ↦ ⟨rfl, ?_⟩⟩
    by_cases hshort : before.length + 1 ≤ 2
    · rw [hcalls, append_singleton_eq_take hwrites]
      exact usedIdx_before hsize hsynced hshort
    · -- the write of the index itself was refused, so the index is not in RAM
      intro hram
      rw [Bus.inRam_congr (Bus.memoryMap_afterDma _ _)] at hram
      have hthree : (layout.usedWrites r.device.usedIdx entry).length = 3 := rfl
      have hlength := congrArg List.length hwrites
      rw [List.length_append, List.length_cons] at hlength
      have hrequest : request =
          layout.usedWrite 2 .halfWord ((r.device.usedIdx + 1#16).setWidth 64) := by
        have hget : (layout.usedWrites r.device.usedIdx entry)[2]? = some request := by
          rw [hwrites, List.getElem?_append_right (by omega), show 2 - before.length = 0 by omega]
          rfl
        exact (Option.some.inj hget).symm
      have hin : request.InRam (r.bus.afterDma before) := by
        rw [hrequest]
        exact (Bus.inRam_congr (Bus.memoryMap_afterDma _ _)).2 hram
      exact absurd ((Dma.dma_of_inRam hin).1.symm.trans hrefused) (by decide)

/-- Positions of the same turn have different slots; the index of the device is taken modulo
`2 ^ 16`, of which the queue size is a divisor. -/
theorem slot_ne (hsize : powerOfTwo layout.size = true) {r : UsedRun} {base j : ℕ}
    (hdevice : r.device.usedIdx = BitVec.ofNat 16 (base + r.published.length))
    (hj : j < r.published.length) (hturn : r.published.length < j + layout.size.toNat) :
    (base + j) % layout.size.toNat ≠ r.device.usedIdx.toNat % layout.size.toNat := by
  rw [hdevice, BitVec.toNat_ofNat, Nat.mod_mod_of_dvd _ (dvd_of_powerOfTwo hsize).2]
  exact (mod_ne_of_lt (by omega) (by omega)).symm

/-- What others write leaves the fields of the ring alone. -/
theorem usedField_elsewhere {r : UsedRun} {bus : Bus} (h : r.Allowed layout (.elsewhere bus))
    {offset : ℕ} {w : AccessWidth} {v : BitVec 64} (hfield : layout.UsedField r.bus offset w v)
    (hoffset : offset + widthInBytes w ≤ 4 + 8 * layout.size.toNat) :
    layout.UsedField bus offset w v := by
  obtain ⟨hmap, hbytes⟩ := h
  intro hram
  rw [Bus.inRam_congr hmap] at hram
  have hend := hram.lt
  rw [← hfield hram]
  refine Bus.ramWord_congr fun i hi ↦ ?_
  have haddress : (layout.usedRing + BitVec.ofNat 64 (offset + i)).toNat =
      (layout.usedRing + BitVec.ofNat 64 offset).toNat + i := by
    rw [BitVec.ofNat_add, ← BitVec.add_assoc, BitVec.toNat_add, BitVec.toNat_ofNat,
      Nat.mod_eq_of_lt (a := i) (by omega), Nat.mod_eq_of_lt (by omega)]
  rw [← haddress]
  exact hbytes (offset + i) (by omega)

theorem usedEntry_elsewhere {r : UsedRun} {bus : Bus} (h : r.Allowed layout (.elsewhere bus))
    (hsize : layout.size.toNat ≠ 0) {k : ℕ} {entry : BitVec 32 × BitVec 32}
    (hentry : layout.UsedEntry r.bus k entry) : layout.UsedEntry bus k entry := by
  have hmod := Nat.mod_lt k (Nat.pos_of_ne_zero hsize)
  have hword : widthInBytes .word = 4 := rfl
  have hoffset : layout.usedOffset k + 8 ≤ 4 + 8 * layout.size.toNat := by
    rw [VirtqueueLayout.usedOffset]
    omega
  exact ⟨usedField_elsewhere h hentry.1 (by omega), usedField_elsewhere h hentry.2 (by omega)⟩

theorem Synced.step {r : UsedRun} (h : r.Synced layout) (e : UsedEvent) (he : r.Allowed layout e) :
    (r.step layout e).Synced layout := by
  cases e with
  | publish entry =>
    obtain ⟨hok, hfail⟩ := after_publish h entry
    by_cases hcode : ((r.device.publishUsed layout entry.1 entry.2).run Bus.dma r.bus).1.1 = .none
    · obtain ⟨hdevice, hidx, -⟩ := hok hcode
      rw [Synced, UsedRun.step, hdevice]
      exact hidx
    · obtain ⟨hdevice, hidx⟩ := hfail hcode
      rw [Synced, UsedRun.step, hdevice]
      exact hidx
  | elsewhere bus =>
    exact usedField_elsewhere he h (show 2 + 2 ≤ 4 + 8 * layout.size.toNat by omega)

/-- A call that succeeds adds its entry; whether it does or not, it leaves the other slots alone. -/
theorem Holds.step (hsize : powerOfTwo layout.size = true) {r : UsedRun} {base : ℕ}
    (hsynced : r.Synced layout) (h : Holds layout base r) (e : UsedEvent)
    (he : r.Allowed layout e) : Holds layout base (r.step layout e) := by
  have hpos := (dvd_of_powerOfTwo hsize).1
  cases e with
  | publish entry =>
    obtain ⟨hok, hfail⟩ := after_publish hsynced entry
    have hother := (during_publish hsynced entry
      ((r.device.publishUsed layout entry.1 entry.2).calls Bus.dma r.bus).length).2
    rw [List.take_length, ← (publish_cases r entry).1] at hother
    have hkept : ∀ j (hj : j < r.published.length), r.published.length < j + layout.size.toNat →
        layout.UsedEntry ((r.device.publishUsed layout entry.1 entry.2).run Bus.dma r.bus).2
          (base + j) r.published[j] :=
      fun j hj hturn ↦ hother _ _ (h.entries j hj hturn) (slot_ne hsize h.device hj hturn)
    by_cases hcode : ((r.device.publishUsed layout entry.1 entry.2).run Bus.dma r.bus).1.1 = .none
    · obtain ⟨hdevice, -, hentry⟩ := hok hcode
      have hstep : r.step layout (.publish entry) =
          { bus := ((r.device.publishUsed layout entry.1 entry.2).run Bus.dma r.bus).2
            device := { r.device with usedIdx := r.device.usedIdx + 1#16 }
            published := r.published ++ [entry] } := by
        rw [UsedRun.step, hdevice]
        exact congrArg (UsedRun.mk _ _) (if_pos hcode)
      rw [hstep]
      refine ⟨?_, fun j hj hturn ↦ ?_⟩
      · rw [List.length_append, List.length_singleton, ← Nat.add_assoc,
          BitVec.ofNat_add (base + r.published.length) 1, ← h.device]
      · dsimp only at hj hturn ⊢
        rw [List.length_append, List.length_singleton] at hturn
        by_cases hold : j < r.published.length
        · rw [List.getElem_append_left hold]
          exact hkept j hold (by omega)
        · obtain rfl : j = r.published.length := by
            rw [List.length_append, List.length_singleton] at hj
            omega
          have hslot : layout.usedOffset (base + r.published.length) =
              layout.usedOffset r.device.usedIdx.toNat := by
            rw [VirtqueueLayout.usedOffset, VirtqueueLayout.usedOffset, h.device,
              BitVec.toNat_ofNat,
              Nat.mod_mod_of_dvd _ (dvd_of_powerOfTwo hsize).2]
          rw [List.getElem_append_right (Nat.le_refl _), VirtqueueLayout.UsedEntry, hslot]
          simp only [Nat.sub_self, List.getElem_cons_zero]
          exact hentry
    · have hdevice := (hfail hcode).1
      have hstep : r.step layout (.publish entry) =
          { r with
            bus := ((r.device.publishUsed layout entry.1 entry.2).run Bus.dma r.bus).2 } := by
        rw [UsedRun.step, hdevice]
        exact congrArg (UsedRun.mk _ _) (if_neg hcode)
      rw [hstep]
      exact ⟨h.device, hkept⟩
  | elsewhere bus =>
    exact ⟨h.device, fun j hj hturn ↦
      usedEntry_elsewhere he (Nat.ne_of_gt hpos) (h.entries j hj hturn)⟩

theorem run_synced {start : UsedRun} (hstart : start.Synced layout) {events : List UsedEvent}
    (hevents : Runs.Along (step layout) (Allowed layout) start events) :
    (Runs.run (step layout) start events).Synced layout :=
  Runs.run_invariant (I := fun r ↦ r.Synced layout) (fun _ e h he ↦ Synced.step h e he) hstart
    hevents

theorem run_holds (hsize : powerOfTwo layout.size = true) {start : UsedRun}
    (hstart : start.Synced layout) (hempty : start.published = []) {events : List UsedEvent}
    (hevents : Runs.Along (step layout) (Allowed layout) start events) :
    Holds layout start.device.usedIdx.toNat (Runs.run (step layout) start events) := by
  have hholds : Holds layout start.device.usedIdx.toNat start := by
    refine ⟨?_, fun j hj ↦ ?_⟩
    · rw [hempty]
      simp
    · rw [hempty] at hj
      cases hj
  exact (Runs.run_invariant (I := fun r ↦ r.Synced layout ∧
    Holds layout start.device.usedIdx.toNat r)
    (fun _ e h he ↦ ⟨Synced.step h.1 e he, Holds.step hsize h.1 h.2 e he⟩)
      ⟨hstart, hholds⟩ hevents).2

end UsedRun

/-- **Publication order.**  After any run, and after any number of writes of one more call, the
driver sees the old index, or the new one with the entry complete and all its writes accepted; the
entries published before, up to one less than a turn of the ring, are as they were published.  A
call that succeeds moves the index of the device and the one in memory past the entry, and a call
that fails moves neither, so that the next one writes to the same slot.  A queue that the driver has
made ready is as long as a power of two. -/
theorem used_ring_publication (layout : VirtqueueLayout) (start : UsedRun)
    (hstart : start.Synced layout) (hempty : start.published = []) (events : List UsedEvent)
    (hevents : Runs.Along (UsedRun.step layout) (UsedRun.Allowed layout) start events)
    (entry : BitVec 32 × BitVec 32) (n : ℕ) :
    let r := Runs.run (UsedRun.step layout) start events
    let p := r.device.publishUsed layout entry.1 entry.2
    let c := r.bus.afterDma ((p.calls Bus.dma r.bus).take n)
    let called := p.run Bus.dma r.bus
    (layout.UsedIdx c r.device.usedIdx ∨
      (layout.UsedIdx c (r.device.usedIdx + 1#16) ∧
        layout.UsedEntry c r.device.usedIdx.toNat entry ∧
        r.bus.Accepts ((layout.usedWrites r.device.usedIdx entry).take 2))) ∧
    (powerOfTwo layout.size = true → ∀ j (h : j < r.published.length),
      r.published.length < j + layout.size.toNat →
      layout.UsedEntry c (start.device.usedIdx.toNat + j) r.published[j]) ∧
    (called.1.1 = .none → called.1.2 = { r.device with usedIdx := r.device.usedIdx + 1#16 } ∧
      layout.UsedIdx called.2 (r.device.usedIdx + 1#16) ∧
      layout.UsedEntry called.2 r.device.usedIdx.toNat entry) ∧
    (called.1.1 ≠ .none → called.1.2 = r.device ∧ layout.UsedIdx called.2 r.device.usedIdx) ∧
    ∀ (config : VirtioMmioConfig) (written : List TransportEvent) (queueIndex : BitVec 16),
      layout = (Runs.run VirtioMmioTransport.event (.powerOn config) written).queueLayout
        queueIndex →
      layout.ready = true → powerOfTwo layout.size = true := by
  intro r p c called
  have hsynced : r.Synced layout := UsedRun.run_synced hstart hevents
  obtain ⟨hvisible, hother⟩ := UsedRun.during_publish hsynced entry n
  obtain ⟨hok, hfailed⟩ := UsedRun.after_publish hsynced entry
  refine ⟨hvisible, fun hsize j hj hturn ↦ ?_, hok, hfailed, fun config written queueIndex ↦ ?_⟩
  · have hholds : UsedRun.Holds layout start.device.usedIdx.toNat r :=
      UsedRun.run_holds hsize hstart hempty hevents
    exact hother _ _ (hholds.entries j hj hturn) (UsedRun.slot_ne hsize hholds.device hj hturn)
  · rintro rfl hready
    exact VirtioMmioTransport.Configured.powerOfTwo_queueLayout
      (Runs.run_induction (fun _ e h ↦ h.event e)
        (VirtioMmioTransport.configured_powerOn config) written) hready

/-- A ring of two entries whose index is about to wrap. -/
def wrappingUsedRing : UsedRun where
  bus :=
    { regions := [.ram
        { range := ⟨0x80000000#64, 20#64, by decide, by decide⟩
          bytes := [0#8, 0#8, 0xFF#8, 0xFF#8] ++ List.replicate 16 0#8
          size_eq := rfl }] }
  device := { usedIdx := 0xFFFF#16 }

def wrappingUsedLayout : VirtqueueLayout :=
  { size := 2#16, usedRing := 0x80000000#64, ready := true }

/-- In the middle of the second publication the driver still finds the first one, on the other side
of the wrap. -/
theorem used_ring_publication_wrapping :
    let r := wrappingUsedRing.step wrappingUsedLayout (.publish (7#32, 8#32))
    let p := r.device.publishUsed wrappingUsedLayout 9#32 10#32
    (r.bus.afterDma ((p.calls Bus.dma r.bus).take 1)).ramWord 0x8000000C .word = 7#64 ∧
      (p.run Bus.dma r.bus).2.ramWord 0x80000002 .halfWord = 1#64 := by
  intro r p
  have hsynced : wrappingUsedRing.Synced wrappingUsedLayout := fun _ ↦ by decide
  obtain ⟨-, hkept, hok, -, -⟩ :=
    used_ring_publication wrappingUsedLayout wrappingUsedRing hsynced rfl
    [.publish (7#32, 8#32)] ⟨trivial, trivial⟩ (9#32, 10#32) 1
  have hmap : r.bus.memoryMap = wrappingUsedRing.bus.memoryMap := Dma.memoryMap_run _ _
  refine ⟨(hkept (by decide) 0 (by decide) (by decide)).1 ?_, (hok (by decide)).2.1 ?_⟩
  · exact (Bus.inRam_congr ((Bus.memoryMap_afterDma _ _).trans hmap)).2
      ⟨_, List.mem_singleton.2 rfl, by decide, by decide⟩
  · exact (Bus.inRam_congr ((Dma.memoryMap_run _ _).trans hmap)).2
      ⟨_, List.mem_singleton.2 rfl, by decide, by decide⟩

end Rvemu
