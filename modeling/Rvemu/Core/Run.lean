import Rvemu.Core.Cpu
import Rvemu.Lib.Runs

/-!
# Runs of a hart

The calls the main loop makes on a hart, in any order.  Between them the other masters may leave any
bus behind, so a property proved of all runs holds for all memory contents.
-/

set_option autoImplicit false

namespace Rvemu

/-- One call on the hart, or a change of the bus behind its back. -/
inductive HartEvent
  | step
  | takeTrap (trap : Trap)
  | takePendingInterrupt
  | setInterruptPending (cause : InterruptCause) (pending : Bool)
  | memory (bus : Bus)

namespace HartEvent

def apply (c : Cpu) : HartEvent → Cpu
  | step => c.step.2
  | takeTrap trap => (c.takeTrap trap).2
  | takePendingInterrupt => c.takePendingInterrupt.2
  | setInterruptPending cause pending =>
    c.modifyState (·.modifyCsrs (·.setInterruptPending cause pending))
  | memory bus => { c with bus }

/-- Is this one of the two entries into a handler? -/
def entersHandler : HartEvent → Bool
  | takeTrap _ | takePendingInterrupt => true
  | step | setInterruptPending _ _ | memory _ => false

end HartEvent

def Cpu.run (c : Cpu) (events : List HartEvent) : Cpu := events.foldl HartEvent.apply c

/-- What every event preserves holds after every run. -/
theorem Cpu.run_induction {I : Cpu → Prop} {p : HartEvent → Prop}
    (hstep : ∀ c e, p e → I c → I (e.apply c)) {c : Cpu} (h : I c) {events : List HartEvent}
    (hp : ∀ e ∈ events, p e) : I (c.run events) :=
  Runs.run_induction_on hstep h hp

end Rvemu
