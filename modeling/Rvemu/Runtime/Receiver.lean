import Rvemu.Devices.PlicGateway
import Rvemu.Lib.Runs
import Rvemu.Runtime.EventLoop

/-!
# The receive half of the UART

The host pushes bytes into the receive FIFO while the guest reads and writes the registers, one of
which is shared by the receive buffer, the transmit holding register and the divisor latch.  A
`UartLedger` notes what can be seen from outside: which pushes were accepted, which bytes were read,
which ones a receive clear discarded, and whether a push was refused since the line status was last
read.  The device agrees with it in every state a run passes through.
-/

set_option autoImplicit false

namespace Rvemu

inductive UartEvent
  | pushRx (byte : BitVec 8)
  | popTx
  | read (offset : BitVec 64) (w : AccessWidth)
  | write (offset : BitVec 64) (w : AccessWidth) (value : BitVec 64)
  deriving DecidableEq, Repr

namespace Uart16550

variable (u : Uart16550)

/-- Does the read take a byte from the receive buffer? -/
def readsRbr (offset : BitVec 64) (w : AccessWidth) : Bool :=
  w == .byte && offset == 0#64 && !u.dlabEnabled

def readsLsr (offset : BitVec 64) (w : AccessWidth) : Bool := w == .byte && offset == 5#64

def clearsReceive (offset : BitVec 64) (w : AccessWidth) (value : BitVec 64) : Bool :=
  w == .byte && offset == 2#64 && (value.setWidth 8 &&& 2#8) != 0#8

/-! ## What the accesses do to the receiver -/

/-- A read in another place, or of another width, leaves the device alone. -/
theorem read_other {offset : BitVec 64} {w : AccessWidth}
    (h : w ≠ .byte ∨ offset ≠ 0#64 ∧ offset ≠ 5#64) : (u.read offset w).2 = u := by
  rw [read]
  rcases h with hw | ⟨h0, h5⟩
  · have hinvalid : (validateAccess offset w).ok = false := by
      rw [validateAccess, if_pos hw]
      rfl
    simp only [hinvalid]
    rfl
  · rw [if_neg h0, if_neg h5]
    repeat' split
    all_goals rfl

theorem read_rbr : u.read 0#64 .byte =
    if u.dlabEnabled then (.success (u.dll.setWidth 64), u)
    else (.success ((u.rxFifo.headD 0#8).setWidth 64), { u with rxFifo := u.rxFifo.tail }) := by
  cases hd : u.dlabEnabled with
  | true => simp [read, validateAccess, AccessResult.success, AccessResult.ok, hd]
  | false =>
    cases hrx : u.rxFifo with
    | nil =>
      simp only [read, validateAccess, AccessResult.success, AccessResult.ok, hd, hrx]
      exact Prod.ext rfl (by rw [List.tail_nil, ← hrx]; rfl)
    | cons byte rest => simp [read, validateAccess, AccessResult.success, AccessResult.ok, hd, hrx]

theorem read_lsr : u.read 5#64 .byte =
    (.success (u.lineStatus.setWidth 64), { u with overrunError := false }) := by
  simp [read, validateAccess, AccessResult.success, AccessResult.ok]

theorem read_iir : u.read 2#64 .byte =
    (.success ((0xC0#8 ||| u.currentInterruptLocked.code).setWidth 64), u) := by
  simp [read, validateAccess, AccessResult.success, AccessResult.ok]

/-- What a read does to the receiver. -/
theorem receive_read (offset : BitVec 64) (w : AccessWidth) :
    (u.read offset w).2.rxFifo = (if u.readsRbr offset w then u.rxFifo.tail else u.rxFifo) ∧
      (u.read offset w).2.overrunError = (u.overrunError && !readsLsr offset w) := by
  by_cases hw : w = .byte
  · subst hw
    by_cases h0 : offset = 0#64
    · subst h0
      rw [read_rbr, readsRbr]
      cases u.dlabEnabled <;> exact ⟨rfl, (Bool.and_true _).symm⟩
    · by_cases h5 : offset = 5#64
      · subst h5
        rw [read_lsr]
        exact ⟨rfl, (Bool.and_false _).symm⟩
      · rw [u.read_other (Or.inr ⟨h0, h5⟩), readsRbr, readsLsr, beq_eq_false_iff_ne.2 h0,
          beq_eq_false_iff_ne.2 h5]
        exact ⟨rfl, (Bool.and_true _).symm⟩
  · rw [u.read_other (Or.inl hw), readsRbr, readsLsr, beq_eq_false_iff_ne.2 hw]
    exact ⟨rfl, (Bool.and_true _).symm⟩

theorem receive_writeFcr (byte : BitVec 8) :
    (u.writeFcr byte).rxFifo = (if (byte &&& 2#8) != 0#8 then [] else u.rxFifo) ∧
      (u.writeFcr byte).overrunError = (u.overrunError && !((byte &&& 2#8) != 0#8)) := by
  rw [writeFcr]
  dsimp only
  cases (byte &&& 2#8) != 0#8 with
  | true =>
    rw [if_pos rfl, if_pos rfl, Bool.not_true, Bool.and_false]
    constructor <;> (repeat' split) <;> rfl
  | false =>
    rw [if_neg Bool.false_ne_true, if_neg Bool.false_ne_true, Bool.not_false, Bool.and_true]
    constructor <;> (repeat' split) <;> rfl

/-- What a write does to the receiver. -/
theorem receive_write (offset : BitVec 64) (w : AccessWidth) (value : BitVec 64) :
    (u.write offset w value).2.rxFifo = (if clearsReceive offset w value then [] else u.rxFifo) ∧
      (u.write offset w value).2.overrunError =
        (u.overrunError && !clearsReceive offset w value) := by
  by_cases hw : w = .byte
  · subst hw
    by_cases h2 : offset = 2#64
    · subst h2
      have hwrite : (u.write 2#64 .byte value).2 = u.writeFcr (value.setWidth 8) := by
        simp [write, validateAccess, AccessResult.success, AccessResult.ok]
      rw [hwrite]
      exact u.receive_writeFcr _
    · have hclear : clearsReceive offset .byte value = false := by
        rw [clearsReceive, beq_eq_false_iff_ne.2 h2]
        rfl
      rw [hclear, if_neg Bool.false_ne_true, Bool.not_false, Bool.and_true, write]
      dsimp only
      rw [if_neg h2]
      constructor <;> (repeat' split) <;> rfl
  · have hinvalid : (validateAccess offset w).ok = false := by
      rw [validateAccess, if_pos hw]
      rfl
    rw [clearsReceive, beq_eq_false_iff_ne.2 hw, write]
    simp only [hinvalid]
    exact ⟨rfl, (Bool.and_true _).symm⟩

/-- The causes that are enabled and present, the most urgent first. -/
def activeCauses : List InterruptId :=
  (if u.ier.getLsbD 2 && u.overrunError then [.receiverLineStatus] else []) ++
    (if u.ier.getLsbD 0 && !u.rxFifo.isEmpty then [.rxDataAvailable] else []) ++
    if u.ier.getLsbD 1 && u.txFifo.isEmpty then [.txHoldingEmpty] else []

theorem currentInterruptLocked_eq : u.currentInterruptLocked = u.activeCauses.headD .none := by
  have hbit (k : ℕ) (hk : k < 8) : ((u.ier &&& BitVec.twoPow 8 k) != 0#8) = u.ier.getLsbD k := by
    rw [BitVec.and_twoPow]
    cases u.ier.getLsbD k with
    | false => rfl
    | true =>
      rw [if_pos rfl, bne_iff_ne]
      intro h
      have := congrArg BitVec.toNat h
      rw [BitVec.toNat_twoPow_of_lt hk] at this
      exact absurd this (Nat.two_pow_pos k).ne'
  rw [currentInterruptLocked, activeCauses, show (4#8) = BitVec.twoPow 8 2 from rfl,
    show (1#8) = BitVec.twoPow 8 0 from rfl, show (2#8) = BitVec.twoPow 8 1 from rfl,
    hbit 2 (by decide), hbit 0 (by decide), hbit 1 (by decide)]
  split
  · rfl
  · split
    · rfl
    · split <;> rfl

end Uart16550

/-! ## The ledger -/

structure UartLedger where
  uart : Uart16550
  /-- The bytes whose push succeeded. -/
  accepted : List (BitVec 8) := []
  /-- What the reads of the receive buffer returned while there was data. -/
  returned : List (BitVec 8) := []
  /-- The bytes that have left: read (`true`), or discarded by a receive clear. -/
  left : List (BitVec 8 × Bool) := []
  /-- The bytes that have not. -/
  queue : List (BitVec 8) := []
  /-- A push was refused, and neither a line status read nor a receive clear has come since. -/
  overrun : Bool := false

namespace UartLedger

def notePush (r : UartLedger) (byte : BitVec 8) : Bool → UartLedger
  | true => { r with accepted := r.accepted ++ [byte], queue := r.queue ++ [byte] }
  | false => { r with overrun := true }

def noteRead (r : UartLedger) (offset : BitVec 64) (w : AccessWidth) (value : BitVec 64) :
    UartLedger :=
  if r.uart.readsRbr offset w then
    match r.queue with
    | [] => r
    | byte :: rest =>
      { r with
        returned := r.returned ++ [value.setWidth 8], left := r.left ++ [(byte, true)],
        queue := rest }
  else if Uart16550.readsLsr offset w then { r with overrun := false }
  else r

def noteWrite (r : UartLedger) (offset : BitVec 64) (w : AccessWidth) (value : BitVec 64) :
    UartLedger :=
  if Uart16550.clearsReceive offset w value then
    { r with left := r.left ++ r.queue.map (·, false), queue := [], overrun := false }
  else r

def step (r : UartLedger) : UartEvent → UartLedger
  | .pushRx byte =>
    { r.notePush byte (r.uart.pushRx byte).1 with uart := (r.uart.pushRx byte).2 }
  | .popTx => { r with uart := (r.uart.popTx.map (·.2)).getD r.uart }
  | .read offset w =>
    { r.noteRead offset w (r.uart.read offset w).1.value with uart := (r.uart.read offset w).2 }
  | .write offset w value =>
    { r.noteWrite offset w value with uart := (r.uart.write offset w value).2 }

/-- The device holds what has not left, every accepted byte has left once or is held, and the bytes
that reads took are what they returned. -/
structure Agrees (r : UartLedger) : Prop where
  rxFifo : r.uart.rxFifo = r.queue
  overrunError : r.uart.overrunError = r.overrun
  length : r.queue.length ≤ Uart16550.fifoCapacity
  accepted : r.accepted = r.left.map (·.1) ++ r.queue
  returned : r.returned = (r.left.filter (·.2)).map (·.1)

variable {r : UartLedger}

theorem Agrees.pushRx (h : Agrees r) (byte : BitVec 8) : Agrees (r.step (.pushRx byte)) := by
  rw [step, Uart16550.pushRx]
  split
  · exact ⟨h.rxFifo, rfl, h.length, h.accepted, h.returned⟩
  · next hroom =>
    rw [h.rxFifo] at hroom
    refine ⟨congrArg (· ++ [byte]) h.rxFifo, h.overrunError, ?_, ?_, h.returned⟩
    · have hlength : (r.queue ++ [byte]).length = r.queue.length + 1 := List.length_append
      exact hlength.trans_le (by omega)
    · exact (congrArg (· ++ [byte]) h.accepted).trans (List.append_assoc _ _ _)

theorem Agrees.popTx (h : Agrees r) : Agrees (r.step .popTx) := by
  have hsame : ((r.uart.popTx.map (·.2)).getD r.uart).rxFifo = r.uart.rxFifo ∧
      ((r.uart.popTx.map (·.2)).getD r.uart).overrunError = r.uart.overrunError := by
    rw [Uart16550.popTx]
    split <;> exact ⟨rfl, rfl⟩
  exact ⟨hsame.1.trans h.rxFifo, hsame.2.trans h.overrunError, h.length, h.accepted, h.returned⟩

theorem Agrees.read (h : Agrees r) (offset : BitVec 64) (w : AccessWidth) :
    Agrees (r.step (.read offset w)) := by
  obtain ⟨hrx, hoverrun⟩ := r.uart.receive_read offset w
  rw [h.rxFifo] at hrx
  rw [h.overrunError] at hoverrun
  rw [step, noteRead]
  cases hrbr : r.uart.readsRbr offset w with
  | true =>
    have hplace := hrbr
    rw [Uart16550.readsRbr, Bool.and_eq_true, Bool.and_eq_true, beq_iff_eq, beq_iff_eq,
      Bool.not_eq_true'] at hplace
    obtain ⟨⟨rfl, rfl⟩, hdlab⟩ := hplace
    rw [hrbr, if_pos rfl] at hrx
    rw [show Uart16550.readsLsr 0#64 .byte = false from rfl, Bool.not_false, Bool.and_true]
      at hoverrun
    rw [if_pos rfl]
    cases hqueue : r.queue with
    | nil =>
      rw [hqueue] at hrx
      exact ⟨hrx.trans hqueue.symm, hoverrun, h.length, h.accepted, h.returned⟩
    | cons byte rest =>
      have hvalue : (r.uart.read 0#64 .byte).1.value.setWidth 8 = byte := by
        rw [Uart16550.read_rbr, hdlab, if_neg Bool.false_ne_true, h.rxFifo, hqueue]
        exact BitVec.setWidth_setWidth_of_le byte (by decide)
      have hlength := h.length
      rw [hqueue] at hrx hlength
      refine ⟨hrx, hoverrun, Nat.le_of_succ_le hlength, ?_, ?_⟩
      · dsimp only
        rw [h.accepted, hqueue, List.map_append, List.append_assoc]
        rfl
      · dsimp only
        rw [hvalue, h.returned, List.filter_append, List.map_append]
        rfl
  | false =>
    rw [hrbr, if_neg Bool.false_ne_true] at hrx
    rw [if_neg Bool.false_ne_true]
    cases hlsr : Uart16550.readsLsr offset w with
    | true =>
      rw [hlsr, Bool.not_true, Bool.and_false] at hoverrun
      exact ⟨hrx, hoverrun, h.length, h.accepted, h.returned⟩
    | false =>
      rw [hlsr, Bool.not_false, Bool.and_true] at hoverrun
      exact ⟨hrx, hoverrun, h.length, h.accepted, h.returned⟩

theorem Agrees.write (h : Agrees r) (offset : BitVec 64) (w : AccessWidth) (value : BitVec 64) :
    Agrees (r.step (.write offset w value)) := by
  obtain ⟨hrx, hoverrun⟩ := r.uart.receive_write offset w value
  rw [h.rxFifo] at hrx
  rw [h.overrunError] at hoverrun
  rw [step, noteWrite]
  cases hclear : Uart16550.clearsReceive offset w value with
  | true =>
    rw [hclear, if_pos rfl] at hrx
    rw [hclear, Bool.not_true, Bool.and_false] at hoverrun
    refine ⟨hrx, hoverrun, Nat.zero_le _, ?_, ?_⟩
    · rw [if_pos rfl]
      dsimp only
      rw [h.accepted, List.map_append, List.map_map, List.append_nil]
      exact congrArg _ (List.map_id _).symm
    · rw [if_pos rfl]
      dsimp only
      rw [h.returned, List.filter_append, List.filter_map]
      simp
  | false =>
    rw [hclear, if_neg Bool.false_ne_true] at hrx
    rw [hclear, Bool.not_false, Bool.and_true] at hoverrun
    exact ⟨hrx, hoverrun, h.length, h.accepted, h.returned⟩

theorem Agrees.step (h : Agrees r) (e : UartEvent) : Agrees (r.step e) := by
  cases e with
  | pushRx byte => exact h.pushRx byte
  | popTx => exact h.popTx
  | read offset w => exact h.read offset w
  | write offset w value => exact h.write offset w value

theorem agrees_start (source : BitVec 32) : Agrees { uart := { interruptSource := source } } :=
  ⟨rfl, rfl, Nat.zero_le _, rfl, rfl⟩

/-! ## What the guest and the PLIC see -/

theorem pushRx_refused_iff (h : Agrees r) (byte : BitVec 8) :
    (r.uart.pushRx byte).1 = false ↔ r.queue.length = Uart16550.fifoCapacity := by
  have hlength := h.length
  rw [Uart16550.pushRx, h.rxFifo]
  split
  · exact iff_of_true rfl (by omega)
  · exact iff_of_false (by intro h; cases h) (by omega)

/-- The bits of the line status that concern the receiver. -/
theorem lineStatus_eq (h : Agrees r) :
    r.uart.lineStatus.getLsbD 0 = !r.queue.isEmpty ∧ r.uart.lineStatus.getLsbD 1 = r.overrun := by
  rw [Uart16550.lineStatus, h.rxFifo, h.overrunError]
  cases r.queue.isEmpty <;> cases r.overrun <;> decide

/-- An identification byte says "pending" unless it is that of no interrupt. -/
theorem iir_pending (cause : Uart16550.InterruptId) :
    (((0xC0#8 ||| cause.code).setWidth 64).getLsbD 0 = false) ↔ cause ≠ .none := by
  cases cause <;> decide

theorem headD_activeCauses (u : Uart16550) :
    u.activeCauses.headD .none ≠ .none ↔ u.activeCauses ≠ [] := by
  rw [Uart16550.activeCauses]
  split <;> split <;> split <;> simp

/-- **The receive half.**  In every state a run from reset passes through: each accepted byte has
left once or is queued, in order, and the reads of the receive buffer returned those that a receive
clear did not discard; the next such read returns the first queued byte; a push is refused exactly
when sixteen bytes are queued and changes none of them; the line status says whether there is data
and whether a push was refused since it was last read or the receiver cleared; and after
`synchronize` the line to the PLIC is up exactly when the identification register names a cause,
which is the most urgent one that is enabled and present. -/
theorem uart_receive (source : BitVec 32) (events : List UartEvent) :
    let r := Runs.run step { uart := { interruptSource := source } } events
    (r.accepted = r.left.map (·.1) ++ r.queue ∧ r.returned = (r.left.filter (·.2)).map (·.1) ∧
      r.uart.rxFifo = r.queue ∧ r.uart.overrunError = r.overrun) ∧
    (r.uart.dlabEnabled = false →
      (r.uart.read 0#64 .byte).1.value = (r.queue.headD 0#8).setWidth 64) ∧
    (∀ byte, ((r.uart.pushRx byte).1 = false ↔ r.queue.length = 16) ∧
      ((r.uart.pushRx byte).1 = false → (r.uart.pushRx byte).2.rxFifo = r.queue)) ∧
    ((r.uart.read 5#64 .byte).1.value.getLsbD 0 = !r.queue.isEmpty ∧
      (r.uart.read 5#64 .byte).1.value.getLsbD 1 = r.overrun) ∧
    (r.uart.read 2#64 .byte).1.value =
      (0xC0#8 ||| (r.uart.activeCauses.headD .none).code).setWidth 64 ∧
    ∀ (plic : Plic) (s : Fin 32), s ≠ 0 → r.uart.interruptSource = Plic.sourceId s →
      ((r.uart.synchronize plic).level s = true ↔
        (r.uart.read 2#64 .byte).1.value.getLsbD 0 = false) ∧
      ((r.uart.synchronize plic).level s = true ↔ r.uart.activeCauses ≠ []) := by
  intro r
  have hagrees : Agrees r := Runs.run_induction (fun _ e h ↦ h.step e) (agrees_start source) events
  refine ⟨⟨hagrees.accepted, hagrees.returned, hagrees.rxFifo, hagrees.overrunError⟩,
    fun hdlab ↦ ?_,
    fun byte ↦ ⟨pushRx_refused_iff hagrees byte, fun hrefused ↦ ?_⟩, ?_, ?_,
      fun plic s hs hsource ↦ ?_⟩
  · rw [Uart16550.read_rbr, hdlab, if_neg Bool.false_ne_true, hagrees.rxFifo]
    rfl
  · rw [Uart16550.pushRx] at hrefused ⊢
    split at hrefused
    · next hfull =>
      rw [if_pos hfull]
      exact hagrees.rxFifo
    · cases hrefused
  · have hbit (k : ℕ) (hk : k < 8) :
        (r.uart.read 5#64 .byte).1.value.getLsbD k = r.uart.lineStatus.getLsbD k := by
      rw [Uart16550.read_lsr]
      exact (BitVec.getLsbD_setWidth ..).trans (by rw [decide_eq_true (by omega), Bool.true_and])
    obtain ⟨hdata, hoverrun⟩ := lineStatus_eq hagrees
    exact ⟨(hbit 0 (by decide)).trans hdata, (hbit 1 (by decide)).trans hoverrun⟩
  · rw [Uart16550.read_iir, Uart16550.currentInterruptLocked_eq]
    rfl
  · have hlevel : (r.uart.synchronize plic).level s =
        (r.uart.activeCauses.headD .none != .none) := by
      rw [Uart16550.synchronize, hsource, Plic.setSourceLevel_sourceId _ hs,
        Uart16550.currentInterruptLocked_eq]
      exact Function.update_self _ _ _
    rw [hlevel, bne_iff_ne, Uart16550.read_iir, Uart16550.currentInterruptLocked_eq]
    exact ⟨(iir_pending _).symm, headD_activeCauses r.uart⟩

end UartLedger

end Rvemu
