import Rvemu.Lib.Bits

/-!
# Instruction fields and immediates
-/

set_option autoImplicit false

namespace Rvemu

/-- A fetched instruction; `length` is 2 or 4 and decides whether it is expanded first. -/
structure InstructionPacket where
  programCounter : BitVec 64 := 0#64
  bits : BitVec 32 := 0#32
  length : ℕ := 0
  deriving DecidableEq, Repr

def InstructionPacket.compressed (packet : InstructionPacket) : Bool := packet.length == 2

structure DecodedInstruction where
  bits : BitVec 32
  opcode : BitVec 7
  destination : BitVec 5
  function3 : BitVec 3
  source1 : BitVec 5
  source2 : BitVec 5
  function7 : BitVec 7
  deriving DecidableEq, Repr

def decode (bits : BitVec 32) : DecodedInstruction where
  bits
  opcode := bits.extractLsb' 0 7
  destination := bits.extractLsb' 7 5
  function3 := bits.extractLsb' 12 3
  source1 := bits.extractLsb' 15 5
  source2 := bits.extractLsb' 20 5
  function7 := bits.extractLsb' 25 7

/-- Two's-complement extension of the low `width` bits: `(x xor sign) - sign`. -/
def signExtend (value : BitVec 64) (width : ℕ) : BitVec 64 :=
  if width = 0 ∨ width ≥ 64 then value
  else
    let mask := (1#64 <<< width) - 1#64
    let sign := 1#64 <<< (width - 1)
    let narrowed := value &&& mask
    (narrowed ^^^ sign) - sign

/-- A field of an encoding as a 64-bit value. -/
def field (bits : BitVec 32) (shift : ℕ) (mask : BitVec 32) : BitVec 64 :=
  ((bits >>> shift) &&& mask).setWidth 64

def immediateI (bits : BitVec 32) : BitVec 64 := signExtend ((bits >>> 20).setWidth 64) 12

def immediateS (bits : BitVec 32) : BitVec 64 :=
  signExtend ((field bits 25 0x7F#32 <<< 5) ||| field bits 7 0x1F#32) 12

def immediateB (bits : BitVec 32) : BitVec 64 :=
  signExtend
    ((field bits 31 1#32 <<< 12) ||| (field bits 7 1#32 <<< 11) ||| (field bits 25 0x3F#32 <<< 5)
      ||| (field bits 8 0xF#32 <<< 1)) 13

def immediateU (bits : BitVec 32) : BitVec 64 :=
  signExtend ((bits &&& 0xFFFFF000#32).setWidth 64) 32

def immediateJ (bits : BitVec 32) : BitVec 64 :=
  signExtend
    ((field bits 31 1#32 <<< 20) ||| (field bits 12 0xFF#32 <<< 12) ||| (field bits 20 1#32 <<< 11)
      ||| (field bits 21 0x3FF#32 <<< 1)) 21

/-! ## Branch offsets are even -/

theorem getLsbD_zero_signExtend {value : BitVec 64} {width : ℕ} (h : 1 < width)
    (hv : value.getLsbD 0 = false) : (signExtend value width).getLsbD 0 = false := by
  rw [signExtend]
  split
  · exact hv
  · have hsign : (1#64 <<< (width - 1)).getLsbD 0 = false := by
      rw [BitVec.getLsbD_shiftLeft]
      simp [show 0 < width - 1 by omega]
    dsimp only
    rw [Bits.getLsbD_zero_sub, BitVec.getLsbD_xor, BitVec.getLsbD_and, hv, hsign]
    rfl

theorem getLsbD_zero_shiftLeft (x : BitVec 64) {n : ℕ} (h : 0 < n) :
    (x <<< n).getLsbD 0 = false := by
  rw [BitVec.getLsbD_shiftLeft]
  simp [h]

theorem immediateB_even (bits : BitVec 32) : (immediateB bits).getLsbD 0 = false := by
  refine getLsbD_zero_signExtend (by decide) ?_
  rw [BitVec.getLsbD_or, BitVec.getLsbD_or, BitVec.getLsbD_or, getLsbD_zero_shiftLeft _ (by decide),
    getLsbD_zero_shiftLeft _ (by decide), getLsbD_zero_shiftLeft _ (by decide),
    getLsbD_zero_shiftLeft _ (by decide)]
  rfl

theorem immediateJ_even (bits : BitVec 32) : (immediateJ bits).getLsbD 0 = false := by
  refine getLsbD_zero_signExtend (by decide) ?_
  rw [BitVec.getLsbD_or, BitVec.getLsbD_or, BitVec.getLsbD_or, getLsbD_zero_shiftLeft _ (by decide),
    getLsbD_zero_shiftLeft _ (by decide), getLsbD_zero_shiftLeft _ (by decide),
    getLsbD_zero_shiftLeft _ (by decide)]
  rfl

end Rvemu
