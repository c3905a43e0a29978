import Lox.Native.Action

/-!
# The clock

The one native function that comes with the language. The time does not pass during a run, and a clock that
cannot be read is another host, one that answers with a fault (`Fault.native`).
-/

namespace Lox.Native

/-- The function `clock`, which takes no arguments and gives the time in seconds. -/
def clock : Native := ⟨"clock", 0⟩

/-- A host whose only function is the clock, which shows `now` all the time and never fails. -/
def clockHost (now : Number) : Host := fun _ _ => .value (.number now)

end Lox.Native
