import Rvemu.Bus.DeviceAccess
import Rvemu.Core.Arithmetic
import Rvemu.Core.Step

/-!
# Executing an instruction of the manual

`Cpu.perform` carries out an `Isa.Instruction` on the hart: it takes the values the manual gives,
and the memory accesses of the hart.  The dispatcher does the same with every encoding of RV64I
(`executeStandard_eq_perform`), so everything about the base instructions can be proved of
`perform`.
-/

set_option autoImplicit false

namespace Rvemu

open Isa

/-- Write a register, or none. -/
def CpuState.writeRegister (s : CpuState) : Option (BitVec 5 × BitVec 64) → CpuState
  | none => s
  | some (rd, value) => s.setInteger rd value

namespace Cpu

/-- Continue at the target of a jump, which has to be even, or after the instruction. -/
def transfer (c : Cpu) (packet : InstructionPacket) (commit : CpuState → CpuState) :
    Option (BitVec 64) → StepResult × Cpu
  | some target => c.jumpTo packet target commit
  | none =>
    (c.modifyState commit).retire packet
      (packet.programCounter + BitVec.ofNat 64 packet.length)

def perform (c : Cpu) (packet : InstructionPacket) (i : Instruction) : StepResult × Cpu :=
  let x := c.state.integer
  let pc := packet.programCounter
  let length := BitVec.ofNat 64 packet.length
  match i with
  | .load width signed rd rs1 offset =>
    afterAccess packet (c.guestRead packet (x rs1 + offset) width .load .load) fun loaded c ↦
      c.writeAndRetire packet rd (extend width signed loaded.access.value) (pc + length)
  | .store width rs1 rs2 offset =>
    afterAccess packet (c.guestWrite packet (x rs1 + offset) width (x rs2) .store) fun _ c ↦
      c.retire packet (pc + length)
  | i => c.transfer packet (·.writeRegister (i.written x pc length)) (i.target x pc)

/-- The instructions that do not access memory. -/
theorem perform_eq_transfer (c : Cpu) (packet : InstructionPacket) {i : Instruction}
    (hi : i.accessed c.state.integer = none) :
    c.perform packet i = c.transfer packet
      (·.writeRegister (i.written c.state.integer packet.programCounter
        (BitVec.ofNat 64 packet.length)))
      (i.target c.state.integer packet.programCounter) := by
  cases i with
  | load => cases hi
  | store => cases hi
  | _ => rfl

end Cpu

/-! ## Loads -/

theorem extend_unsigned {width : AccessWidth} {value : BitVec 64} (h : width.Fits value) :
    extend width false value = value := by
  rw [extend, if_neg (by decide)]
  refine BitVec.eq_of_toNat_eq ?_
  rw [BitVec.toNat_setWidth, BitVec.toNat_setWidth, Nat.mod_eq_of_lt h, Nat.mod_eq_of_lt value.isLt]

theorem fits_guestRead (c : Cpu) (packet : InstructionPacket) (va : BitVec 64) (width : AccessWidth)
    (kind : MmuAccessKind) (t : AccessType) :
    (c.guestRead packet va width kind t).1.access.Fits width := by
  rw [Cpu.guestRead, Cpu.guestAccess]
  generalize ({ c with mmu := _, bus := _ } : Cpu) = d
  cases (c.mmu.translate c.bus va width kind _).1 with
  | error fault => exact .zero _
  | ok pa =>
    have hread := d.bus.fits_read pa width t
    rw [Cpu.accessTranslated]
    split
    · exact hread
    · exact hread

/-- The width and signedness of a load. -/
theorem loadFormat_eq {function3 : BitVec 3} (h : function3 ≠ 7#3) :
    ∃ signWidth, loadFormat function3 = some (Isa.width (function3.setWidth 2), signWidth) ∧
      ∀ value, (Isa.width (function3.setWidth 2)).Fits value →
        (match signWidth with
          | some bits => signExtend value bits
          | none => value) =
        extend (Isa.width (function3.setWidth 2)) (!function3.getLsbD 2) value := by
  have hsigned : ∀ (w : AccessWidth) (value : BitVec 64),
      signExtend value (8 * widthInBytes w) = extend w true value := by
    intro w value
    rw [extend, if_pos rfl, signExtend_eq]
    · exact Nat.mul_pos (by decide) (widthInBytes_pos w)
    · exact Nat.mul_le_mul_left 8 (widthInBytes_le w)
  rcases function3_cases function3 with rfl | rfl | rfl | rfl | rfl | rfl | rfl | rfl
  · exact ⟨some 8, rfl, fun value _ ↦ hsigned .byte value⟩
  · exact ⟨some 16, rfl, fun value _ ↦ hsigned .halfWord value⟩
  · exact ⟨some 32, rfl, fun value _ ↦ hsigned .word value⟩
  · exact ⟨some 64, rfl, fun value _ ↦ hsigned .doubleWord value⟩
  · exact ⟨none, rfl, fun value hv ↦ (extend_unsigned hv).symm⟩
  · exact ⟨none, rfl, fun value hv ↦ (extend_unsigned hv).symm⟩
  · exact ⟨none, rfl, fun value hv ↦ (extend_unsigned hv).symm⟩
  · exact absurd rfl h

theorem afterAccess_congr {packet : InstructionPacket} {accessed : GuestAccessResult × Cpu}
    {next next' : GuestAccessResult → Cpu → StepResult × Cpu}
    (h : accessed.1.trap = none → next accessed.1 accessed.2 = next' accessed.1 accessed.2) :
    Cpu.afterAccess packet accessed next = Cpu.afterAccess packet accessed next' := by
  rw [Cpu.afterAccess, Cpu.afterAccess]
  split
  · rfl
  · next htrap => exact h htrap

/-! ## The dispatcher -/

section Dispatch

variable {c : Cpu} {packet : InstructionPacket} {i : Instruction}

/-- A chain of tests, one test at a time. -/
theorem of_ite_eq {α : Type} {p : Prop} [Decidable p] {a b r : α} {Q : Prop}
    (h : (if p then a else b) = r) (ha : p → a = r → Q) (hb : ¬ p → b = r → Q) : Q := by
  split at h
  · next hp => exact ha hp h
  · next hp => exact hb hp h

/-- **The dispatcher performs the instruction an encoding stands for.** -/
theorem executeStandard_eq_perform (h : Isa.decode packet.bits = some i) :
    c.executeStandard packet = c.perform packet i := by
  rw [Isa.decode] at h
  refine of_ite_eq h (fun hop h ↦ ?_) fun _ h ↦ ?_
  · cases h
    rw [Cpu.executeStandard, show (decode packet.bits).opcode = 0x37#7 from hop, immediateU_eq]
    rfl
  refine of_ite_eq h (fun hop h ↦ ?_) fun _ h ↦ ?_
  · cases h
    rw [Cpu.executeStandard, show (decode packet.bits).opcode = 0x17#7 from hop, immediateU_eq]
    rfl
  refine of_ite_eq h (fun hop h ↦ ?_) fun _ h ↦ ?_
  · cases h
    rw [Cpu.executeStandard, show (decode packet.bits).opcode = 0x6F#7 from hop, Cpu.executeJal,
      immediateJ_eq]
    rfl
  refine of_ite_eq h (fun hop h ↦ ?_) fun _ h ↦ ?_
  · refine of_ite_eq h (fun h3 h ↦ ?_) fun _ h ↦ by cases h
    cases h
    rw [Cpu.executeStandard, show (decode packet.bits).opcode = 0x67#7 from hop, Cpu.executeJalr,
      show (decode packet.bits).function3 = 0#3 from h3, immediateI_eq]
    rfl
  refine of_ite_eq h (fun hop h ↦ ?_) fun _ h ↦ ?_
  · obtain ⟨condition, hcondition, rfl⟩ := Option.map_eq_some_iff.1 h
    rw [executeStandard_branch hop, Cpu.executeBranch,
      show (decode packet.bits).function3 = packet.bits.extractLsb' 12 3 from rfl,
      branchTaken_of_condition _ _ hcondition, immediateB_eq]
    simp only [Cpu.perform, Instruction.target, Instruction.written, CpuState.writeRegister]
    show _ = c.transfer packet _ (if condition.holds (c.state.integer (decode packet.bits).source1)
      (c.state.integer (decode packet.bits).source2) then _ else _)
    cases condition.holds (c.state.integer (decode packet.bits).source1)
      (c.state.integer (decode packet.bits).source2) with
    | false => rfl
    | true => rfl
  refine of_ite_eq h (fun hop h ↦ ?_) fun _ h ↦ ?_
  · refine of_ite_eq h (fun _ h ↦ by cases h) fun h3 h ↦ ?_
    cases h
    obtain ⟨signWidth, hformat, hvalue⟩ := loadFormat_eq h3
    rw [executeStandard_load hop, Cpu.executeLoad,
      show (decode packet.bits).function3 = packet.bits.extractLsb' 12 3 from rfl, hformat,
      immediateI_eq]
    rw [Cpu.perform]
    refine afterAccess_congr fun _ ↦ ?_
    exact congrArg (fun v ↦ Cpu.writeAndRetire _ packet _ v _) (hvalue _ (fits_guestRead ..))
  refine of_ite_eq h (fun hop h ↦ ?_) fun _ h ↦ ?_
  · refine of_ite_eq h (fun _ h ↦ by cases h) fun h3 h ↦ ?_
    cases h
    have hwidth : ∀ f3 : BitVec 3, ¬ f3.getLsbD 2 = true →
        storeWidth f3 = some (Isa.width (f3.setWidth 2)) := by decide
    rw [executeStandard_store hop, Cpu.executeStore,
      show (decode packet.bits).function3 = packet.bits.extractLsb' 12 3 from rfl, hwidth _ h3,
      immediateS_eq]
    rfl
  refine of_ite_eq h (fun hop h ↦ ?_) fun _ h ↦ ?_
  · rw [Cpu.executeStandard, show (decode packet.bits).opcode = 0x13#7 from hop,
      show (decode packet.bits).function3 = packet.bits.extractLsb' 12 3 from rfl]
    cases hoperation : immediateOperation (packet.bits.extractLsb' 12 3) with
    | some operation =>
      rw [hoperation] at h
      cases h
      rw [opImmResult_of_operation _ hoperation]
      rfl
    | none =>
      rw [hoperation] at h
      obtain ⟨operation, hshift, rfl⟩ := Option.map_eq_some_iff.1 h
      rw [opImmResult_of_shift _ hshift]
      rfl
  refine of_ite_eq h (fun hop h ↦ ?_) fun _ h ↦ ?_
  · rw [Cpu.executeStandard, show (decode packet.bits).opcode = 0x1B#7 from hop]
    refine of_ite_eq h (fun h3 h ↦ ?_) fun _ h ↦ ?_
    · cases h
      rw [opImm32Result_add _ h3]
      rfl
    · obtain ⟨operation, hshift, rfl⟩ := Option.map_eq_some_iff.1 h
      rw [opImm32Result_of_shift _ hshift]
      rfl
  refine of_ite_eq h (fun hop h ↦ ?_) fun _ h ↦ ?_
  · obtain ⟨operation, hoperation, rfl⟩ := Option.map_eq_some_iff.1 h
    rw [Cpu.executeStandard, show (decode packet.bits).opcode = 0x33#7 from hop,
      opResult_of_operation _ _ hoperation]
    rfl
  refine of_ite_eq h (fun hop h ↦ ?_) fun _ h ↦ by cases h
  · obtain ⟨operation, hoperation, rfl⟩ := Option.map_eq_some_iff.1 h
    rw [Cpu.executeStandard, show (decode packet.bits).opcode = 0x3B#7 from hop,
      op32Result_of_operation _ _ hoperation]
    rfl

end Dispatch

end Rvemu
