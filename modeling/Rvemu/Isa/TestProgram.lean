import Rvemu.Isa.Program

/-!
# Programs that test themselves

A test program speaks to its environment through one double word of memory.  After every instruction
the environment looks at it: 1 and 3 say that the program has passed or failed, and a word with the
console command in its upper half asks for a character to be printed, which the environment
acknowledges by writing zero.
-/

set_option autoImplicit false

namespace Rvemu.Isa

inductive Verdict
  | passed | failed | timeout
  deriving DecidableEq, Repr

/-- The upper half of a request to print. -/
def consoleCommand : BitVec 64 := 0x01010000#64

namespace Machine

/-- The verdict after at most `n` instructions and what has been printed; none if the machine stops
before that. -/
def test (tohost : BitVec 64) : ℕ → Machine → List (BitVec 8) →
    Option (Verdict × List (BitVec 8))
  | 0, _, printed => some (.timeout, printed)
  | n + 1, m, printed =>
    match m.step with
    | none => none
    | some m =>
      match m.load tohost .doubleWord with
      | none => none
      | some word =>
        if word = 1#64 then some (.passed, printed)
        else if word = 3#64 then some (.failed, printed)
        else if word >>> 32 = consoleCommand then
          match m.store tohost .doubleWord 0#64 with
          | none => none
          | some m => test tohost n m (printed ++ [word.setWidth 8])
        else test tohost n m printed

end Machine

end Rvemu.Isa
