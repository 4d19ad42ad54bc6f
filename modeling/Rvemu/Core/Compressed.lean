import Rvemu.Core.Decoder

/-!
# Expansion of 16-bit encodings

Every legal compressed encoding maps to one 32-bit instruction; reserved encodings map to `none` and
hints to `nop`.
-/

set_option autoImplicit false

namespace Rvemu

namespace Compressed

def nop : BitVec 32 := 0x00000013#32

def ebreak : BitVec 32 := 0x00100073#32

/-- The three-bit register fields name x8 to x15. -/
def compactRegister (field : BitVec 16) : BitVec 5 := 8#5 + (field &&& 7#16).setWidth 5

def fullRegister (bits : BitVec 16) (shift : ℕ) : BitVec 5 :=
  ((bits >>> shift) &&& 0x1F#16).setWidth 5

/-- A field of a 16-bit encoding as a 64-bit value. -/
def part (bits : BitVec 16) (shift : ℕ) (mask : BitVec 16) : BitVec 64 :=
  ((bits >>> shift) &&& mask).setWidth 64

def encodeI (opcode : BitVec 7) (destination : BitVec 5) (function3 : BitVec 3) (source : BitVec 5)
    (immediate : BitVec 64) : BitVec 32 :=
  ((immediate &&& 0xFFF#64).setWidth 32 <<< 20) ||| (source.setWidth 32 <<< 15)
    ||| (function3.setWidth 32 <<< 12) ||| (destination.setWidth 32 <<< 7) ||| opcode.setWidth 32

def encodeR (opcode : BitVec 7) (destination : BitVec 5) (function3 : BitVec 3)
    (source1 source2 : BitVec 5) (function7 : BitVec 7) : BitVec 32 :=
  (function7.setWidth 32 <<< 25) ||| (source2.setWidth 32 <<< 20) ||| (source1.setWidth 32 <<< 15)
    ||| (function3.setWidth 32 <<< 12) ||| (destination.setWidth 32 <<< 7) ||| opcode.setWidth 32

def encodeS (opcode : BitVec 7) (function3 : BitVec 3) (source1 source2 : BitVec 5)
    (immediate : BitVec 64) : BitVec 32 :=
  let encoded := (immediate &&& 0xFFF#64).setWidth 32
  ((encoded >>> 5) <<< 25) ||| (source2.setWidth 32 <<< 20) ||| (source1.setWidth 32 <<< 15)
    ||| (function3.setWidth 32 <<< 12) ||| ((encoded &&& 0x1F#32) <<< 7) ||| opcode.setWidth 32

def encodeB (function3 : BitVec 3) (source1 source2 : BitVec 5) (immediate : BitVec 64) :
    BitVec 32 :=
  let encoded := (immediate &&& 0x1FFF#64).setWidth 32
  (((encoded >>> 12) &&& 1#32) <<< 31) ||| (((encoded >>> 5) &&& 0x3F#32) <<< 25)
    ||| (source2.setWidth 32 <<< 20) ||| (source1.setWidth 32 <<< 15)
    ||| (function3.setWidth 32 <<< 12) ||| (((encoded >>> 1) &&& 0xF#32) <<< 8)
    ||| (((encoded >>> 11) &&& 1#32) <<< 7) ||| 0x63#32

def encodeJ (immediate : BitVec 64) : BitVec 32 :=
  let encoded := (immediate &&& 0x1FFFFF#64).setWidth 32
  (((encoded >>> 20) &&& 1#32) <<< 31) ||| (((encoded >>> 1) &&& 0x3FF#32) <<< 21)
    ||| (((encoded >>> 11) &&& 1#32) <<< 20) ||| (((encoded >>> 12) &&& 0xFF#32) <<< 12)
    ||| 0x6F#32

/-- The six-bit immediate of the CI formats, before sign extension also the shift amount. -/
def ciField (bits : BitVec 16) : BitVec 64 :=
  (((bits >>> 7) &&& 0x20#16) ||| ((bits >>> 2) &&& 0x1F#16)).setWidth 64

def ciImmediate (bits : BitVec 16) : BitVec 64 := signExtend (ciField bits) 6

def jumpImmediate (bits : BitVec 16) : BitVec 64 :=
  signExtend
    ((part bits 12 1#16 <<< 11) ||| (part bits 11 1#16 <<< 4) ||| (part bits 9 3#16 <<< 8)
      ||| (part bits 8 1#16 <<< 10) ||| (part bits 7 1#16 <<< 6) ||| (part bits 6 1#16 <<< 7)
      ||| (part bits 3 7#16 <<< 1) ||| (part bits 2 1#16 <<< 5)) 12

def branchImmediate (bits : BitVec 16) : BitVec 64 :=
  signExtend
    ((part bits 12 1#16 <<< 8) ||| (part bits 10 3#16 <<< 3) ||| (part bits 5 3#16 <<< 6)
      ||| (part bits 3 3#16 <<< 1) ||| (part bits 2 1#16 <<< 5)) 9

def decompressQuadrant0 (bits : BitVec 16) (function3 : BitVec 3) : Option (BitVec 32) :=
  let destination := compactRegister (bits >>> 2)
  let source1 := compactRegister (bits >>> 7)
  let source2 := compactRegister (bits >>> 2)
  let doubleImmediate := (part bits 5 3#16 <<< 6) ||| (part bits 10 7#16 <<< 3)
  let wordImmediate :=
    (part bits 5 1#16 <<< 6) ||| (part bits 10 7#16 <<< 3) ||| (part bits 6 1#16 <<< 2)
  if function3 = 0#3 then  -- C.ADDI4SPN
    let immediate :=
      (part bits 7 0xF#16 <<< 6) ||| (part bits 11 3#16 <<< 4) ||| (part bits 5 1#16 <<< 3)
        ||| (part bits 6 1#16 <<< 2)
    if immediate = 0#64 then none else some (encodeI 0x13#7 destination 0#3 2#5 immediate)
  else if function3 = 1#3 ∨ function3 = 3#3 then  -- C.FLD / C.LD
    some (encodeI (if function3 = 1#3 then 0x07#7 else 0x03#7) destination 3#3 source1
      doubleImmediate)
  else if function3 = 2#3 then  -- C.LW
    some (encodeI 0x03#7 destination 2#3 source1 wordImmediate)
  else if function3 = 5#3 ∨ function3 = 7#3 then  -- C.FSD / C.SD
    some (encodeS (if function3 = 5#3 then 0x27#7 else 0x23#7) 3#3 source1 source2 doubleImmediate)
  else if function3 = 6#3 then  -- C.SW
    some (encodeS 0x23#7 2#3 source1 source2 wordImmediate)
  else none

def decompressMiscAlu (bits : BitVec 16) : Option (BitVec 32) :=
  let destination := compactRegister (bits >>> 7)
  let selector := (bits >>> 10) &&& 3#16
  if selector < 2#16 then  -- C.SRLI / C.SRAI
    let shift := ciField bits
    if shift = 0#64 then some nop
    else
      let immediate := if selector = 0#16 then shift else 0x400#64 ||| shift
      some (encodeI 0x13#7 destination 5#3 destination immediate)
  else if selector = 2#16 then  -- C.ANDI
    some (encodeI 0x13#7 destination 7#3 destination (ciImmediate bits))
  else
    let source2 := compactRegister (bits >>> 2)
    let function2 := (bits >>> 5) &&& 3#16
    let wordOperation := ((bits >>> 12) &&& 1#16) != 0#16
    let function7 := if function2 = 0#16 then 0x20#7 else 0#7
    if !wordOperation then
      let function3 :=
        if function2 = 0#16 then 0#3 else if function2 = 1#16 then 4#3
        else if function2 = 2#16 then 6#3 else 7#3
      some (encodeR 0x33#7 destination function3 destination source2 function7)
    else if function2 > 1#16 then none
    else some (encodeR 0x3B#7 destination 0#3 destination source2 function7)

def decompressQuadrant1 (bits : BitVec 16) (function3 : BitVec 3) : Option (BitVec 32) :=
  let destination := fullRegister bits 7
  let immediate := ciImmediate bits
  if function3 = 0#3 then  -- C.NOP / C.ADDI / hint
    if destination = 0#5 ∨ immediate = 0#64 then some nop
    else some (encodeI 0x13#7 destination 0#3 destination immediate)
  else if function3 = 1#3 then  -- C.ADDIW
    if destination = 0#5 then none else some (encodeI 0x1B#7 destination 0#3 destination immediate)
  else if function3 = 2#3 then  -- C.LI / hint
    if destination = 0#5 then some nop else some (encodeI 0x13#7 destination 0#3 0#5 immediate)
  else if function3 = 3#3 then  -- C.ADDI16SP / C.LUI
    if destination = 2#5 then
      let stackImmediate :=
        signExtend
          ((part bits 12 1#16 <<< 9) ||| (part bits 6 1#16 <<< 4) ||| (part bits 5 1#16 <<< 6)
            ||| (part bits 3 3#16 <<< 7) ||| (part bits 2 1#16 <<< 5)) 10
      if stackImmediate = 0#64 then none else some (encodeI 0x13#7 2#5 0#3 2#5 stackImmediate)
    else if immediate = 0#64 then none
    else if destination = 0#5 then some nop
    else
      some (((immediate <<< 12) &&& 0xFFFFF000#64).setWidth 32 ||| (destination.setWidth 32 <<< 7)
        ||| 0x37#32)
  else if function3 = 4#3 then decompressMiscAlu bits
  else if function3 = 5#3 then some (encodeJ (jumpImmediate bits))  -- C.J
  else  -- C.BEQZ / C.BNEZ
    some (encodeB (if function3 = 6#3 then 0#3 else 1#3) (compactRegister (bits >>> 7)) 0#5
      (branchImmediate bits))

def decompressCr (bits : BitVec 16) : Option (BitVec 32) :=
  let destination := fullRegister bits 7
  let source2 := fullRegister bits 2
  let highBit := ((bits >>> 12) &&& 1#16) != 0#16
  if !highBit && source2 == 0#5 then  -- C.JR
    if destination = 0#5 then none else some (encodeI 0x67#7 0#5 0#3 destination 0#64)
  else if !highBit then  -- C.MV / hint
    if destination = 0#5 then some nop else some (encodeR 0x33#7 destination 0#3 0#5 source2 0#7)
  else if source2 = 0#5 then
    if destination = 0#5 then some ebreak else some (encodeI 0x67#7 1#5 0#3 destination 0#64)
  else if destination = 0#5 then some nop  -- C.ADD hint
  else some (encodeR 0x33#7 destination 0#3 destination source2 0#7)

def decompressQuadrant2 (bits : BitVec 16) (function3 : BitVec 3) : Option (BitVec 32) :=
  let destination := fullRegister bits 7
  let source2 := fullRegister bits 2
  if function3 = 0#3 then  -- C.SLLI / hint
    let shift := ciField bits
    if destination = 0#5 ∨ shift = 0#64 then some nop
    else some (encodeI 0x13#7 destination 1#3 destination shift)
  else if function3 = 1#3 ∨ function3 = 3#3 then  -- C.FLDSP / C.LDSP
    let immediate :=
      (part bits 2 7#16 <<< 6) ||| (part bits 12 1#16 <<< 5) ||| (part bits 5 3#16 <<< 3)
    if function3 = 3#3 ∧ destination = 0#5 then none
    else
      some (encodeI (if function3 = 1#3 then 0x07#7 else 0x03#7) destination 3#3 2#5 immediate)
  else if function3 = 2#3 then  -- C.LWSP
    if destination = 0#5 then none
    else
      let immediate :=
        (part bits 2 3#16 <<< 6) ||| (part bits 12 1#16 <<< 5) ||| (part bits 4 7#16 <<< 2)
      some (encodeI 0x03#7 destination 2#3 2#5 immediate)
  else if function3 = 4#3 then decompressCr bits
  else if function3 = 5#3 ∨ function3 = 7#3 then  -- C.FSDSP / C.SDSP
    let immediate := (part bits 7 7#16 <<< 6) ||| (part bits 10 7#16 <<< 3)
    some (encodeS (if function3 = 5#3 then 0x27#7 else 0x23#7) 3#3 2#5 source2 immediate)
  else  -- C.SWSP
    let immediate := (part bits 7 3#16 <<< 6) ||| (part bits 9 0xF#16 <<< 2)
    some (encodeS 0x23#7 2#3 2#5 source2 immediate)

end Compressed

open Compressed

def decompressRv64c (bits : BitVec 16) : Option (BitVec 32) :=
  let quadrant := bits.extractLsb' 0 2
  let function3 := bits.extractLsb' 13 3
  if quadrant = 0#2 then decompressQuadrant0 bits function3
  else if quadrant = 1#2 then decompressQuadrant1 bits function3
  else if quadrant = 2#2 then decompressQuadrant2 bits function3
  else none

end Rvemu
