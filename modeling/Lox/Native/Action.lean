import Lox.Machine

/-!
# What native functions do

A native function is a tree of actions: each node asks the interpreter for one thing and goes on with
the answer, until the function finishes with a value or a fault. Native functions can read, print, bind,
call functions and run code, but nothing in a tree can move the current frame.
-/

namespace Lox

/-- The frames that a native function can bind names and run code in. -/
inductive Place where
  /-- The frame that the caller runs in. -/
  | current
  | globals
  deriving DecidableEq, Inhabited

def Place.frame : Place → Machine → FrameId
  | current, m => m.current
  | globals, m => m.globals

/-- What a native function does from some point on. -/
inductive Action where
  /-- End with a value or a fault; a fault is reported at the call of the native function. -/
  | finish (result : Except Fault Value)
  /-- Print a text and a line feed. -/
  | print (text : String) (next : Action)
  /-- Go on with the depth of the current frame. -/
  | depth (next : Nat → Action)
  /-- Go on with the value of a name in the current frame. -/
  | lookup (name : String) (next : Except Fault Value → Action)
  /-- Change what a name stands for in the current frame. -/
  | assign (name : String) (value : Value) (next : Except Fault Unit → Action)
  /-- Bind a name in a frame. -/
  | define (place : Place) (name : String) (value : Value) (next : Action)
  /-- Call a function without comparing the number of arguments with its arity. Of an error only the
  fault is handed on, without the position. -/
  | call (callee : Callable) (arguments : List Value) (site : Pos) (next : Except Fault Value → Action)
  /-- Run statements in a frame itself, and go on with how they ended. An expression is evaluated by a
  statement that returns it. -/
  | execute (place : Place) (body : List Stmt) (next : Except Unwind Unit → Action)

namespace Action

def value (v : Value) : Action := finish (.ok v)

def fault (f : Fault) : Action := finish (.error f)

end Action

/-- What the host says that its native functions do on their arguments. It depends on nothing else, so what such
a function reads from outside, like the time, is the same for a whole run. -/
abbrev Host := Native → List Value → Action

end Lox
