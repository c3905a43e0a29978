import Lox.Call
import Lox.Report
import Lox.Native.Clock

/-!
# The interpreter

What a host can do with a machine: run programs, statements and expressions, call functions, and work
on frames. Each of these is a `Run`, given the host's native functions and a bound on the work.
-/

namespace Lox.Interpreter

variable {ε : Type} (host : Host) (bound : Nat)

/-! ## Running -/

def execute (s : Stmt) : Run Unwind Unit := s.exec (.ofBound host bound)

/-- Run statements in the frame `f` itself. -/
def executeIn (body : List Stmt) (f : FrameId) : Run Unwind Unit :=
  Run.inScope f (Stmt.execList (.ofBound host bound) body)

def evaluate (e : Expr) : Run RuntimeError Value := e.eval (.ofBound host bound)

/-- Call a function value, without comparing the number of arguments with its arity. -/
def call (f : Callable) (args : List Value) (site : Pos) : Run RuntimeError Value :=
  f.call host bound args site

/-- Run a program up to its first error. A return outside of all functions ends the program. -/
def interpret (program : Program) : Run RuntimeError Unit :=
  (Stmt.execList (.ofBound host bound) program).continueWith fun
    | .ok () => pure ()
    | .error (.return _) => pure ()
    | .error (.error e) => Run.fail e

/-- Run a program and report its error. The result says whether there was none. -/
def interpretAndReport (program : Program) (reports : Reports) : Run ε (Bool × Reports) :=
  (interpret host bound program).continueWith fun
    | .ok () => pure (true, reports)
    | .error e => pure (false, reports.add e.pos e.fault.message)

def evaluateAndPrint (e : Expr) : Run RuntimeError Value := do
  let v ← evaluate host bound e
  Run.print v.text
  pure v

/-! ## Function values -/

/-- Make a function value and bind it to a name in the frame `f`. -/
def defineCallable (f : FrameId) (name : String) (code : Code) : Run ε Value := do
  let v := Value.callable (← Run.newCallable code)
  Run.define f name v
  pure v

def builtins : List Native := [Native.clock]

def defineBuiltins (f : FrameId) : Run ε Unit :=
  builtins.forM fun fn => do
    let _ ← defineCallable f fn.name (.native fn)

end Lox.Interpreter
