import Lox.Syntax.Basic

/-!
# Faults

What can go wrong while a program runs. A `Fault` is the cause alone; a `RuntimeError` is a fault at
the position of the expression that raised it.
-/

namespace Lox

/-- The causes of runtime errors. -/
inductive Fault where
  | operandNotNumber
  | operandsNotNumbers
  | invalidAddOperands
  | notCallable
  | undefinedVariable (name : String)
  | arityMismatch (expected got : Nat)
  | native (text : String)
  deriving DecidableEq, Inhabited

/-- The families of causes. -/
inductive Fault.Category where
  | type
  | undefinedVariable
  | arity
  | native
  deriving DecidableEq

namespace Fault

def category : Fault → Category
  | operandNotNumber | operandsNotNumbers | invalidAddOperands | notCallable => .type
  | undefinedVariable _ => .undefinedVariable
  | arityMismatch _ _ => .arity
  | native _ => .native

/-- The message of a cause; a native function words its own. -/
def message : Fault → String
  | operandNotNumber => "Operand must be a number."
  | operandsNotNumbers => "Operands must be numbers."
  | invalidAddOperands => "Operands must be two numbers or two strings."
  | notCallable => "Can only call functions and classes."
  | undefinedVariable name => "Undefined variable '" ++ name ++ "'."
  | arityMismatch expected got => s!"Expected {expected} arguments but got {got}."
  | native text => text

end Fault

structure RuntimeError where
  fault : Fault
  pos : Pos
  deriving DecidableEq, Inhabited

/-- A message with the line that it concerns. -/
def located (message : String) (pos : Pos) : String := s!"{message}\n[line {pos.line}]"

/-- The text of an error: its message, and the line. -/
def RuntimeError.text (e : RuntimeError) : String := located e.fault.message e.pos

end Lox
