import Rvemu.Devices.Uart

/-!
# The console

The path of a character between the guest and the host terminal: the UART with its FIFOs, the byte
the event loop has taken out but not yet delivered, and the terminal.  The host is only known by the
answers of the terminal backend to a read or write of one byte, which are arguments here.  The event
loop has a console in this sense, and its services are these (`EventLoop.console`).

The transmit half is followed over whole runs: what has left and what is still buffered is what the
UART accepted, and that is all the guest wrote exactly when no write found the FIFO full.  The line
status does not help the guest with that, since it always reports room.
-/

set_option autoImplicit false

namespace Rvemu

/-! ## The terminal backend -/

inductive TerminalIoStatus
  | ready | wouldBlock | closed | error
  deriving DecidableEq, Repr

structure TerminalIoResult where
  status : TerminalIoStatus := .ready
  byteCount : ℕ := 0
  errnoValue : Int := 0
  deriving DecidableEq, Repr

/-- The answer of the backend to the write of one byte. -/
inductive TerminalWrite
  | ready (accepted : Bool) | wouldBlock | closed | error (errno : Int)
  deriving DecidableEq, Repr

/-- The host's answer to a one-byte `read`, once it is not EINTR. -/
inductive HostRead
  | byte (value : BitVec 8) | nothing | transient | failed (errno : Int)
  deriving DecidableEq, Repr

def TerminalWrite.result : TerminalWrite → TerminalIoResult
  | ready accepted => { status := .ready, byteCount := if accepted then 1 else 0 }
  | wouldBlock => { status := .wouldBlock }
  | closed => { status := .closed }
  | error errno => { status := .error, errnoValue := errno }

/-- The output service stops at every other answer. -/
theorem TerminalWrite.result_stops {reply : TerminalWrite} (h : reply ≠ .ready true) :
    reply.result.status ≠ .ready ∨ reply.result.byteCount = 0 := by
  cases reply with
  | ready accepted =>
    cases accepted with
    | true => exact absurd rfl h
    | false => exact Or.inr rfl
  | wouldBlock | closed | error errno => exact Or.inl nofun

def HostRead.result : HostRead → TerminalIoResult
  | byte _ => { status := .ready, byteCount := 1 }
  | nothing => { status := .wouldBlock }
  | transient => { status := .wouldBlock }
  | failed errno => { status := .error, errnoValue := errno }

/-! ## Services of the event loop -/

structure Console where
  uart : Uart16550 := {}
  pendingTx : List (BitVec 8) := []
  /-- All bytes the terminal has taken. -/
  terminal : List (BitVec 8) := []

namespace Uart16550

def pushRx (u : Uart16550) (byte : BitVec 8) : Bool × Uart16550 :=
  if fifoCapacity ≤ u.rxFifo.length then (false, { u with overrunError := true })
  else (true, { u with rxFifo := u.rxFifo ++ [byte] })

def popTx (u : Uart16550) : Option (BitVec 8 × Uart16550) :=
  match u.txFifo with
  | [] => none
  | byte :: rest => some (byte, { u with txFifo := rest })

end Uart16550

/-- What one service reports to the iteration that called it. -/
structure ServiceResult where
  status : TerminalIoStatus := .ready
  errnoValue : Int := 0
  bytes : ℕ := 0
  deriving DecidableEq, Repr

namespace Console

/-- `budget` is what is left of the bound of the loop, `count` the number of turns taken. -/
def serviceTerminalInputFrom (replies : ℕ → HostRead) :
    ℕ → ℕ → ServiceResult → Console → ServiceResult × Console
  | 0, _, result, s => (result, s)
  | budget + 1, count, result, s =>
    let input := (replies count).result
    let result := { result with status := input.status, errnoValue := input.errnoValue }
    match replies count with
    | .byte value =>
      let pushed := s.uart.pushRx value
      let s := { s with uart := pushed.2 }
      if !pushed.1 then (result, s)
      else
        serviceTerminalInputFrom replies budget (count + 1)
          { result with bytes := result.bytes + 1 } s
    | _ => (result, s)

def serviceTerminalInput (s : Console) (maxTerminalRxBytes : ℕ) (replies : ℕ → HostRead) :
    ServiceResult × Console :=
  serviceTerminalInputFrom replies maxTerminalRxBytes 0 {} s

/-- Refill the pending byte from the FIFO. -/
def refill (s : Console) : Option (BitVec 8 × Console) :=
  match s.pendingTx with
  | byte :: _ => some (byte, s)
  | [] =>
    match s.uart.popTx with
    | none => none
    | some (byte, uart) => some (byte, { s with uart, pendingTx := [byte] })

/-- Ask the terminal to take one byte. -/
def writeByte (s : Console) (byte : BitVec 8) (reply : TerminalWrite) :
    TerminalIoResult × Console :=
  (reply.result,
    if reply = .ready true then { s with terminal := s.terminal ++ [byte] } else s)

def serviceUartOutputFrom (replies : ℕ → TerminalWrite) :
    ℕ → ℕ → ServiceResult → Console → ServiceResult × Console
  | 0, _, result, s => (result, s)
  | budget + 1, count, result, s =>
    match s.refill with
    | none => (result, s)
    | some (byte, s) =>
      let written := s.writeByte byte (replies count)
      let output := written.1
      let s := written.2
      let result := { result with status := output.status, errnoValue := output.errnoValue }
      if output.status ≠ .ready ∨ output.byteCount = 0 then (result, s)
      else
        serviceUartOutputFrom replies budget (count + 1)
          { result with bytes := result.bytes + 1 } { s with pendingTx := s.pendingTx.tail }

def serviceUartOutput (s : Console) (maxUartTxBytes : ℕ) (replies : ℕ → TerminalWrite) :
    ServiceResult × Console :=
  serviceUartOutputFrom replies maxUartTxBytes 0 {} s

end Console

/-! ## Runs -/

/-- What can happen to the console: accesses of the guest to the UART, and the two services. -/
inductive ConsoleEvent
  | read (offset : BitVec 64) (width : AccessWidth)
  | write (offset : BitVec 64) (width : AccessWidth) (value : BitVec 64)
  | input (maxTerminalRxBytes : ℕ) (replies : ℕ → HostRead)
  | output (maxUartTxBytes : ℕ) (replies : ℕ → TerminalWrite)

namespace ConsoleEvent

def apply (s : Console) : ConsoleEvent → Console
  | read offset width => { s with uart := (s.uart.read offset width).2 }
  | write offset width value => { s with uart := (s.uart.write offset width value).2 }
  | input maxBytes replies => (s.serviceTerminalInput maxBytes replies).2
  | output maxBytes replies => (s.serviceUartOutput maxBytes replies).2

/-- The byte written to THR, which shares its offset with the divisor latch. -/
def thrByte (u : Uart16550) : ConsoleEvent → Option (BitVec 8)
  | write offset width value =>
    if offset = 0#64 ∧ width = .byte ∧ u.dlabEnabled = false then some (value.setWidth 8) else none
  | _ => none

/-- A write to FCR with the transmit clear bit. -/
def clearsTransmit : ConsoleEvent → Bool
  | write offset width value =>
    offset == 2#64 && width == .byte && (value.setWidth 8 &&& 4#8) != 0#8
  | _ => false

/-- A read of LSR that returns THRE set. -/
def seesThrEmpty (u : Uart16550) : ConsoleEvent → Bool
  | read offset width =>
    offset == 5#64 && width == .byte && ((u.read offset width).1.value &&& 0x20#64) != 0#64
  | _ => false

end ConsoleEvent

namespace Console

def run (s : Console) (events : List ConsoleEvent) : Console := events.foldl ConsoleEvent.apply s

/-- The bytes written to THR during a run. -/
def written : Console → List ConsoleEvent → List (BitVec 8)
  | _, [] => []
  | s, e :: events => (e.thrByte s.uart).toList ++ written (e.apply s) events

/-- The guest writes THR only after it has seen THRE since the last byte. -/
def polls : Bool → Console → List ConsoleEvent → Bool
  | _, _, [] => true
  | ready, s, e :: events =>
    ((e.thrByte s.uart).isNone || ready) &&
      polls (e.seesThrEmpty s.uart || ready && (e.thrByte s.uart).isNone) (e.apply s) events

/-- Every byte written to THR finds room in the FIFO. -/
def RoomForAll : Console → List ConsoleEvent → Prop
  | _, [] => True
  | s, e :: events =>
    ((e.thrByte s.uart).isSome = true → s.uart.txFifo.length < Uart16550.fifoCapacity) ∧
      RoomForAll (e.apply s) events

instance decidableRoomForAll : (events : List ConsoleEvent) → (s : Console) →
    Decidable (RoomForAll s events)
  | [], _ => inferInstanceAs (Decidable True)
  | e :: events, s =>
    have := decidableRoomForAll events (e.apply s)
    inferInstanceAs (Decidable (_ ∧ _))

/-- What has been delivered, followed by what is buffered. -/
def output (s : Console) : List (BitVec 8) := s.terminal ++ s.pendingTx ++ s.uart.txFifo

/-! ## The services keep the order -/

theorem refill_eq_some {s s' : Console} {byte : BitVec 8} (h : s.refill = some (byte, s')) :
    (∃ rest, s'.pendingTx = byte :: rest) ∧ s'.output = s.output := by
  rw [refill] at h
  split at h
  · next b rest hpending =>
    obtain ⟨rfl, rfl⟩ := Prod.mk.inj (Option.some.inj h)
    exact ⟨⟨rest, hpending⟩, rfl⟩
  · next hpending =>
    rw [Uart16550.popTx] at h
    cases hfifo : s.uart.txFifo with
    | nil => simp [hfifo] at h
    | cons b rest =>
      simp only [hfifo, Option.some.injEq, Prod.mk.injEq] at h
      obtain ⟨rfl, rfl⟩ := h
      exact ⟨⟨[], rfl⟩, by simp [output, hpending, hfifo]⟩

theorem refill_keeps {s s' : Console} {byte : BitVec 8} (h : s.refill = some (byte, s')) :
    s'.terminal = s.terminal ∧ (s.pendingTx.length ≤ 1 → s'.pendingTx.length ≤ 1) := by
  rw [refill] at h
  split at h
  · obtain ⟨rfl, rfl⟩ := Prod.mk.inj (Option.some.inj h)
    exact ⟨rfl, id⟩
  · split at h
    · cases h
    · obtain ⟨rfl, rfl⟩ := Prod.mk.inj (Option.some.inj h)
      exact ⟨rfl, fun _ ↦ Nat.le_refl 1⟩

theorem output_serviceUartOutputFrom (replies : ℕ → TerminalWrite) (budget count : ℕ)
    (result : ServiceResult) (s : Console) :
    (serviceUartOutputFrom replies budget count result s).2.output = s.output := by
  induction budget generalizing count result s with
  | zero => rfl
  | succ budget ih =>
    rw [serviceUartOutputFrom]
    cases hrefill : s.refill with
    | none => rfl
    | some next =>
      obtain ⟨byte, s'⟩ := next
      obtain ⟨⟨rest, hpending⟩, houtput⟩ := refill_eq_some hrefill
      dsimp only [writeByte]
      by_cases htaken : replies count = .ready true
      · rw [htaken]
        simp only [TerminalWrite.result]
        rw [if_neg (by simp), ih, ← houtput]
        simp [output, hpending]
      · rw [if_neg htaken, if_pos (TerminalWrite.result_stops htaken)]
        exact houtput

/-- Every byte that the terminal takes is counted, and at most one is kept back. -/
theorem count_serviceUartOutputFrom (replies : ℕ → TerminalWrite) (budget count : ℕ)
    (result : ServiceResult) (s : Console) :
    let served := serviceUartOutputFrom replies budget count result s
    served.2.terminal.length + result.bytes = s.terminal.length + served.1.bytes ∧
      (s.pendingTx.length ≤ 1 → served.2.pendingTx.length ≤ 1) := by
  induction budget generalizing count result s with
  | zero => exact ⟨rfl, id⟩
  | succ budget ih =>
    rw [serviceUartOutputFrom]
    cases hrefill : s.refill with
    | none => exact ⟨rfl, id⟩
    | some next =>
      obtain ⟨byte, s'⟩ := next
      obtain ⟨hterminal, hpending⟩ := refill_keeps hrefill
      dsimp only [writeByte]
      by_cases htaken : replies count = .ready true
      · rw [htaken, if_pos rfl]
        simp only [TerminalWrite.result]
        rw [if_neg (by simp)]
        obtain ⟨hcount, hkept⟩ := ih (count + 1) { status := .ready, bytes := result.bytes + 1 }
          { s' with terminal := s'.terminal ++ [byte], pendingTx := s'.pendingTx.tail }
        refine ⟨?_, fun h ↦ hkept ?_⟩
        · dsimp only at hcount ⊢
          rw [List.length_append, List.length_singleton, hterminal] at hcount
          rw [hterminal]
          omega
        · dsimp only
          rw [List.length_tail]
          exact Nat.le_trans (Nat.sub_le _ _) (hpending h)
      · rw [if_neg htaken, if_pos (TerminalWrite.result_stops htaken)]
        exact ⟨by rw [hterminal], hpending⟩

theorem output_serviceTerminalInputFrom (replies : ℕ → HostRead) (budget count : ℕ)
    (result : ServiceResult) (s : Console) :
    (serviceTerminalInputFrom replies budget count result s).2.output = s.output := by
  have hpush : ∀ (u : Uart16550) (byte : BitVec 8), (u.pushRx byte).2.txFifo = u.txFifo := by
    intro u byte
    rw [Uart16550.pushRx]
    split <;> rfl
  induction budget generalizing count result s with
  | zero => rfl
  | succ budget ih =>
    rw [serviceTerminalInputFrom]
    cases replies count with
    | byte value =>
      dsimp only
      split
      · simp [output, hpush]
      · rw [ih]
        simp [output, hpush]
    | nothing => rfl
    | transient => rfl
    | failed errno => rfl

end Console

theorem Uart16550.txFifo_read (u : Uart16550) (offset : BitVec 64) (width : AccessWidth) :
    (u.read offset width).2.txFifo = u.txFifo := by
  unfold Uart16550.read
  dsimp only
  repeat' split
  all_goals rfl

/-- A byte written to THR is kept if there is room; nothing else but a clear touches the FIFO. -/
theorem Uart16550.txFifo_write (u : Uart16550) (offset : BitVec 64) (width : AccessWidth)
    (value : BitVec 64)
    (hclear : (ConsoleEvent.write offset width value).clearsTransmit = false) :
    (u.write offset width value).2.txFifo =
      u.txFifo ++ if u.txFifo.length < fifoCapacity then
        ((ConsoleEvent.write offset width value).thrByte u).toList else [] := by
  have hfcr : ∀ byte : BitVec 8, (byte &&& 4#8) = 0#8 → (u.writeFcr byte).txFifo = u.txFifo := by
    intro byte hbyte
    have hkeep : ((byte &&& 4#8) != 0#8) = false := by rw [hbyte]; rfl
    simp only [writeFcr, hkeep, Bool.false_eq_true, if_false]
    split <;> split <;> rfl
  by_cases hw : width = .byte
  · subst hw
    by_cases h0 : offset = 0#64
    · subst h0
      cases hd : u.dlabEnabled <;> by_cases hroom : u.txFifo.length < fifoCapacity <;>
        simp [write, validateAccess, AccessResult.success, AccessResult.ok, ConsoleEvent.thrByte,
          hd, hroom]
    · have hnone : (ConsoleEvent.write offset .byte value).thrByte u = none :=
        if_neg fun h ↦ h0 h.1
      rw [hnone, Option.toList_none, ite_self, List.append_nil]
      unfold write
      dsimp only
      rw [if_neg h0]
      split
      · rfl
      · split
        · split <;> rfl
        · split
          · next h2 =>
            refine hfcr _ ?_
            simpa [ConsoleEvent.clearsTransmit, h2] using hclear
          · repeat' split
            all_goals rfl
  · have hnone : (ConsoleEvent.write offset width value).thrByte u = none :=
      if_neg fun h ↦ hw h.2.1
    rw [hnone, Option.toList_none, ite_self, List.append_nil]
    have hinvalid : (validateAccess offset width).ok = false := by
      rw [validateAccess, if_pos hw]
      rfl
    simp [write, hinvalid]

namespace Console

/-- The bytes of a run that found room. -/
def accepted : Console → List ConsoleEvent → List (BitVec 8)
  | _, [] => []
  | s, e :: events =>
    (if s.uart.txFifo.length < Uart16550.fifoCapacity then (e.thrByte s.uart).toList else []) ++
      accepted (e.apply s) events

theorem output_apply (s : Console) {e : ConsoleEvent} (hclear : e.clearsTransmit = false) :
    (e.apply s).output = s.output ++
      if s.uart.txFifo.length < Uart16550.fifoCapacity then (e.thrByte s.uart).toList else [] := by
  cases e with
  | read offset width =>
    simp [ConsoleEvent.apply, ConsoleEvent.thrByte, output, Uart16550.txFifo_read]
  | write offset width value =>
    simp only [ConsoleEvent.apply, output, s.uart.txFifo_write offset width value hclear,
      List.append_assoc]
  | input maxBytes replies =>
    simp only [ConsoleEvent.apply, ConsoleEvent.thrByte, serviceTerminalInput,
      output_serviceTerminalInputFrom]
    simp
  | output maxBytes replies =>
    simp only [ConsoleEvent.apply, ConsoleEvent.thrByte, serviceUartOutput,
      output_serviceUartOutputFrom]
    simp

/-- Over a run, the console holds or has delivered what the UART accepted. -/
theorem output_run (s : Console) {events : List ConsoleEvent}
    (hclear : ∀ e ∈ events, e.clearsTransmit = false) :
    (s.run events).output = s.output ++ accepted s events := by
  induction events generalizing s with
  | nil => simp [run, accepted]
  | cons e events ih =>
    rw [List.forall_mem_cons] at hclear
    rw [run, List.foldl_cons, ← run, ih _ hclear.2, output_apply s hclear.1, accepted,
      List.append_assoc]

theorem accepted_length_le (s : Console) (events : List ConsoleEvent) :
    (accepted s events).length ≤ (written s events).length := by
  induction events generalizing s with
  | nil => exact Nat.le_refl 0
  | cons e events ih =>
    have htail := ih (e.apply s)
    rw [accepted, written, List.length_append, List.length_append]
    split
    · omega
    · rw [List.length_nil]
      omega

/-- Everything was accepted exactly if there was room each time: a dropped byte is never made up
for. -/
theorem accepted_eq_written_iff (s : Console) (events : List ConsoleEvent) :
    accepted s events = written s events ↔ RoomForAll s events := by
  induction events generalizing s with
  | nil => simp [accepted, written, RoomForAll]
  | cons e events ih =>
    rw [accepted, written, RoomForAll, ← ih]
    by_cases hroom : s.uart.txFifo.length < Uart16550.fifoCapacity
    · simp [hroom]
    · cases hbyte : e.thrByte s.uart with
      | none => simp
      | some byte =>
        have hle := accepted_length_le (e.apply s) events
        simp only [hroom, if_false, List.nil_append, Option.toList_some, Option.isSome_some,
          imp_false, not_true, false_and, iff_false]
        intro heq
        have hlength := congrArg List.length heq
        rw [List.length_append, List.length_singleton] at hlength
        omega

theorem RoomForAll.of_prefix {s : Console} {l events : List ConsoleEvent} (hl : l <+: events)
    (h : RoomForAll s events) : RoomForAll s l := by
  induction l generalizing s events with
  | nil => trivial
  | cons e l ih =>
    obtain ⟨rest, rfl⟩ := hl
    exact ⟨h.1, ih ⟨rest, rfl⟩ h.2⟩

/-- **Console output is complete exactly when no write finds the FIFO full.**  From reset, in every
state a run without a transmit clear passes through, the bytes delivered followed by those buffered
are the bytes written to THR, if and only if each of these found fewer than sixteen bytes in the
FIFO. -/
theorem console_complete_iff {events : List ConsoleEvent}
    (hclear : ∀ e ∈ events, e.clearsTransmit = false) :
    (∀ l, l <+: events → (run {} l).output = written {} l) ↔ RoomForAll {} events := by
  have hrun : ∀ l, l <+: events → (run {} l).output = accepted {} l := by
    intro l hl
    rw [output_run _ fun e he ↦ hclear e (hl.subset he)]
    rfl
  constructor
  · intro h
    have hall := h events (List.prefix_refl events)
    rw [hrun events (List.prefix_refl events)] at hall
    exact (accepted_eq_written_iff {} events).1 hall
  · intro h l hl
    rw [hrun l hl]
    exact (accepted_eq_written_iff {} l).2 (h.of_prefix hl)

/-- The guest writes five bytes, of which a terminal that is slow takes two. -/
def helloEvents : List ConsoleEvent :=
  [.read 5#64 .byte, .write 0#64 .byte 0x48#64, .output 64 fun _ ↦ .wouldBlock,
    .write 0#64 .byte 0x65#64, .write 0#64 .byte 0x6C#64, .output 2 fun _ ↦ .ready true,
    .write 0#64 .byte 0x6C#64, .output 64 fun _ ↦ .ready false, .write 0#64 .byte 0x6F#64]

theorem console_complete_hello :
    (run {} helloEvents).output = [0x48#8, 0x65#8, 0x6C#8, 0x6C#8, 0x6F#8] ∧
      (run {} helloEvents).terminal = [0x48#8, 0x65#8] ∧
      (run {} helloEvents).pendingTx = [0x6C#8] :=
  ⟨((console_complete_iff (by decide)).2 (by decide) _ (List.prefix_refl _)).trans (by decide),
    by decide, by decide⟩

/-- A guest that polls for each byte, while the terminal takes nothing. -/
def blockedEvents (n : ℕ) : List ConsoleEvent :=
  (List.replicate n
    [.output 64 fun _ ↦ .wouldBlock, .read 5#64 .byte, .output 64 fun _ ↦ .wouldBlock,
      .write 0#64 .byte 0x41#64]).flatten

theorem console_drops_byte :
    (∀ e ∈ blockedEvents 18, e.clearsTransmit = false) ∧ polls false {} (blockedEvents 18) = true ∧
      (run {} (blockedEvents 18)).output ≠ written {} (blockedEvents 18) := by
  refine ⟨?_, by decide, ?_⟩
  · have hall : (blockedEvents 18).all (fun e ↦ !e.clearsTransmit) = true := by decide
    intro e he
    simpa using List.all_eq_true.1 hall e he
  · decide +kernel

end Console

end Rvemu
