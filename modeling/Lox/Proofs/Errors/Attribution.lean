import Lox.Proofs.Base.Functions
import Lox.Proofs.Run.Judgement

/-!
# Every error is raised by a node

A runtime error names a position, and that position is the position of an expression node that can
raise a fault of that kind: a node of the tree that was run, or of the body of a function value that was
in the frames when the run began. An error that starts in a called function therefore keeps the position
that it has there, however many calls, blocks and loops it leaves.

The code that a run can meet is fixed when it begins. Bodies of functions that it declares are part of
the tree, and no function value comes from elsewhere, so the invariant is that all function values in
the frames have bodies within a set of nodes `P` (`Callable.CodeIn`). Faults of operators, of look-ups
and of calls get the position of their node; all other runs pass errors on.
-/

namespace Lox

/-- The function value is bound in some frame. -/
def Frames.Binds (s : Frames) (f : Callable) : Prop := ∃ g name, s.own? g name = some (.callable f)

def Value.nodes : Value → List Expr
  | .callable f => f.nodes
  | _ => []

/-- A machine with a native function that always fails. -/
private def failing : Machine :=
  { Machine.initial with
    frames := Frames.initial.define 0 "fail" (.callable ⟨0, .native ⟨"fail", 0⟩⟩)
    nextId := 1 }

/-- A function that calls its argument, called with the native function from inside a block. -/
private def calling : Program :=
  [.function ⟨1, 0⟩ "f" ["x"] [.return ⟨1, 1⟩ (some (.call ⟨1, 5⟩ (.variable ⟨1, 6⟩ "x") []))],
    .block ⟨2, 0⟩ [.print ⟨2, 0⟩ (.call ⟨2, 1⟩ (.variable ⟨2, 2⟩ "f") [.variable ⟨2, 3⟩ "fail"])]]

end Lox
