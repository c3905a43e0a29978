import Lox.Fault

/-!
# Reports

Where the errors of a program are reported to. Reporting never fails: what cannot be written is lost.
-/

namespace Lox

/-- The reports made so far, as far as they are kept. -/
inductive Reports where
  /-- All reports, as one text. -/
  | collected (text : String)
  /-- None, as they cannot be written. -/
  | unwritable
  /-- None, as nobody wants them. -/
  | ignored
  deriving DecidableEq, Inhabited

namespace Reports

/-- Report a message about a position, on lines of its own. -/
def add (pos : Pos) (message : String) : Reports → Reports
  | collected text => collected (text ++ located message pos ++ "\n")
  | reports => reports

def text : Reports → String
  | collected text => text
  | _ => ""

end Reports

end Lox
