import Rvemu.Isa.Rv64c
import Rvemu.Isa.Rv64m
import Rvemu.Lib.Bytes

/-!
# Programs of RV64IMC

The machine that an integer program runs on as the manual describes it: a program counter, the
registers and one block of memory, from which instructions are fetched and in which loads and stores
take place.  There are no traps: a program that leaves its block of memory, comes to an encoding
outside of RV64IMC or jumps to an odd address stops.
-/

set_option autoImplicit false

namespace Rvemu.Isa

open Bytes

/-! ## Instructions -/

/-- The instructions of RV64IMC but for the ones that call the environment. -/
inductive Imc
  | base (i : Instruction)
  | multiply (operation : Multiplicative) (rd rs1 rs2 : BitVec 5)
  | multiplyWord (operation : Multiplicative) (rd rs1 rs2 : BitVec 5)
  | hint
  deriving DecidableEq, Repr

namespace Imc

/-- The standard encodings. -/
def ofWord (bits : BitVec 32) : Option Imc :=
  let opcode := bits.extractLsb' 0 7
  let rd := bits.extractLsb' 7 5
  let function3 := bits.extractLsb' 12 3
  let rs1 := bits.extractLsb' 15 5
  let rs2 := bits.extractLsb' 20 5
  if bits.extractLsb' 25 7 = 1#7 ∧ opcode = 0x33#7 then
    some (multiply (.ofFunction3 function3) rd rs1 rs2)
  else if bits.extractLsb' 25 7 = 1#7 ∧ opcode = 0x3B#7 then
    (Multiplicative.wordOfFunction3 function3).map fun operation ↦ multiplyWord operation rd rs1 rs2
  else (decode bits).map base

/-- The compressed encodings; those of the floating-point loads and stores are not of RV64IMC. -/
def ofHalf (bits : BitVec 16) : Option Imc :=
  match Compressed.decode bits with
  | some (.base i) => some (base i)
  | some .hint => some hint
  | _ => none

end Imc

/-! ## The machine -/

structure Machine where
  pc : BitVec 64
  x : BitVec 5 → BitVec 64
  /-- Memory is the bytes from `base` on, as many as `size`. -/
  base : ℕ
  size : ℕ
  memory : ℕ → BitVec 8

namespace Machine

variable (m : Machine)

/-- The bytes lie in the block of memory. -/
def Holds (a n : ℕ) : Prop := m.base ≤ a ∧ a + n ≤ m.base + m.size

instance (a n : ℕ) : Decidable (m.Holds a n) := inferInstanceAs (Decidable (_ ∧ _))

def word (a : ℕ) (width : AccessWidth) : BitVec 64 :=
  composeBytes (fun i ↦ m.memory (a + i)) (widthInBytes width)

def load (a : BitVec 64) (width : AccessWidth) : Option (BitVec 64) :=
  if m.Holds a.toNat (widthInBytes width) then some (m.word a.toNat width) else none

theorem holds_of_load {a value : BitVec 64} {width : AccessWidth}
    (h : m.load a width = some value) : m.Holds a.toNat (widthInBytes width) := by
  rw [load] at h
  split at h
  · next hold => exact hold
  · cases h

def store (a : BitVec 64) (width : AccessWidth) (value : BitVec 64) : Option Machine :=
  if m.Holds a.toNat (widthInBytes width) then
    some { m with
      memory := fun y ↦
        if a.toNat ≤ y ∧ y < a.toNat + widthInBytes width then splitByte value (y - a.toNat)
        else m.memory y }
  else none

/-- Register zero keeps its value. -/
def write : Option (BitVec 5 × BitVec 64) → Machine
  | none => m
  | some (rd, value) => { m with x := fun r ↦ if r = rd ∧ r ≠ 0#5 then value else m.x r }

/-- Go on at an address, which has to be even. -/
def goTo (target : BitVec 64) : Option Machine :=
  if target.getLsbD 0 then none else some { m with pc := target }

/-- The instruction at the program counter and its length. -/
def fetch : Option (Imc × ℕ) :=
  match m.load m.pc .halfWord with
  | none => none
  | some lower =>
    if lower.setWidth 16 &&& 3#16 ≠ 3#16 then (Imc.ofHalf (lower.setWidth 16)).map (·, 2)
    else
      match m.load (m.pc + 2#64) .halfWord with
      | none => none
      | some upper => (Imc.ofWord (upper.setWidth 16 ++ lower.setWidth 16)).map (·, 4)

def execute (length : BitVec 64) : Imc → Option Machine
  | .base (.load width signed rd rs1 offset) =>
    match m.load (m.x rs1 + offset) width with
    | none => none
    | some value => (m.write (some (rd, extend width signed value))).goTo (m.pc + length)
  | .base (.store width rs1 rs2 offset) =>
    match m.store (m.x rs1 + offset) width (m.x rs2) with
    | none => none
    | some stored => stored.goTo (m.pc + length)
  | .base i => (m.write (i.written m.x m.pc length)).goTo (i.next m.x m.pc length)
  | .multiply operation rd rs1 rs2 =>
    (m.write (some (rd, operation.result (m.x rs1) (m.x rs2)))).goTo (m.pc + length)
  | .multiplyWord operation rd rs1 rs2 =>
    let word := operation.result ((m.x rs1).setWidth 32) ((m.x rs2).setWidth 32)
    (m.write (some (rd, word.signExtend 64))).goTo (m.pc + length)
  | .hint => m.goTo (m.pc + length)

def step : Option Machine :=
  match m.fetch with
  | none => none
  | some (i, length) => m.execute (BitVec.ofNat 64 length) i

def run : ℕ → Machine → Option Machine
  | 0, m => some m
  | n + 1, m =>
    match m.step with
    | none => none
    | some m => run n m

end Machine

end Rvemu.Isa
