import Lox.Native.Clock
import Lox.Value.Text

/-!
# A toolkit of native functions

Native functions that between them use everything that a native function can do. An argument that is
missing reads as `nil`, and where a name or a message is wanted the text of the argument is taken.
-/

namespace Lox.Native.Toolkit

def all : List Native := [
  ⟨"fail", 0⟩, ⟨"raise", 1⟩, ⟨"id", 1⟩, ⟨"join", 3⟩, ⟨"same", 2⟩, ⟨"depth", 0⟩, ⟨"echo", 1⟩,
  ⟨"setGlobal", 2⟩, ⟨"getHere", 1⟩, ⟨"setHere", 2⟩, ⟨"defHere", 2⟩, ⟨"apply", 1⟩, ⟨"apply2", 3⟩]

def find? (name : String) : Option Native := all.find? (·.name == name)

/-- An argument by its place, counted from zero. -/
def arg (args : List Value) (i : Nat) : Value := args[i]?.getD .nil

/-- The fault that a word stands for; any other word is a message. -/
def faultOf : String → Fault
  | "operand" => .operandNotNumber
  | "operands" => .operandsNotNumbers
  | "add" => .invalidAddOperands
  | "callable" => .notCallable
  | "undef" => .undefinedVariable "phantom"
  | "arity" => .arityMismatch 7 9
  | word => .native word

/-- Where a function of the toolkit makes its calls. -/
def callSite : Pos := { line := 77 }

/-- Call a value as it is, and finish as it does. -/
def applying (callee : Value) (args : List Value) : Action :=
  match callee with
  | .callable f => .call f args callSite .finish
  | _ => .fault .notCallable

/-- What each function of the toolkit does; a name that is not in it has no effect. -/
def action (name : String) (args : List Value) : Action :=
  let x := arg args 0
  let y := arg args 1
  let z := arg args 2
  match name with
  | "fail" => .fault (.native "disk on fire")
  | "raise" => .fault (faultOf x.text)
  | "id" => .value x
  | "join" => .value (.string (x.text ++ "|" ++ y.text ++ "|" ++ z.text))
  | "same" => .value (.bool (x.same y))
  | "depth" => .depth fun n => .value (.number (.ofInt n))
  | "echo" => .print x.text (.value .nil)
  | "setGlobal" => .define .globals x.text y (.value .nil)
  | "getHere" => .lookup x.text .finish
  | "setHere" => .assign x.text y fun r => .finish (r.map fun _ => y)
  | "defHere" => .define .current x.text y (.value .nil)
  | "apply" => applying x []
  | "apply2" => applying x [y, z]
  | _ => .value .nil

/-- A host with the clock, which shows `now`, and the toolkit. -/
def host (now : Number) : Host := fun fn args =>
  if fn = clock then clockHost now fn args else action fn.name args

end Lox.Native.Toolkit
