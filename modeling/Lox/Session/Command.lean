import Lox.Interpreter

/-!
# Commands and replies

A session is one machine that a host works on command by command. The host names frames by handles:
handle `0` is the frame of the globals, and each command that hands out a frame adds the next handle.
-/

namespace Lox

/-- A number under which a host knows a frame. -/
abbrev Handle := Nat

/-- A name, as it is looked up in a frame. -/
structure Ref where
  frame : Handle
  name : String
  deriving DecidableEq, Inhabited

inductive Operator where
  | unary (op : UnaryOp)
  | binary (op : BinaryOp)
  deriving DecidableEq, Inhabited

/-- The value of an operator; a unary one leaves the second operand alone. -/
def Operator.apply : Operator → Value → Value → Except Fault Value
  | .unary op, v, _ => v.unary op
  | .binary op, v, w => Value.binary op v w

/-- Where a session sends printed text from now on. -/
inductive Redirection where
  /-- Nowhere. -/
  | silent
  /-- To a new buffer. -/
  | fresh
  /-- To the buffer that there is. -/
  | buffer
  deriving DecidableEq, Inhabited

/-- What a host can ask of a session. -/
inductive Command where
  /-- Run a program. -/
  | interpret (program : Program)
  /-- Run a program and report its error. -/
  | report (program : Program)
  /-- Run a program and drop its error. -/
  | quiet (program : Program)
  /-- Evaluate an expression and print its value. -/
  | echo (expr : Expr)
  /-- Evaluate an expression. -/
  | evaluate (expr : Expr)
  /-- Run a statement. -/
  | execute (stmt : Stmt)
  /-- Run statements in a frame itself. -/
  | block (body : List Stmt) (frame : Handle)
  /-- Define a native function of the toolkit. -/
  | native (tool target : String) (frame : Handle)
  /-- Define the native functions that come with the language. -/
  | builtins (frame : Handle)
  /-- Define a function with a given scope. -/
  | function (fn : Function) (scope : Handle) (target : String) (frame : Handle)
  /-- Call the function of a name with whatever arguments. -/
  | call (name : String) (arguments : List Value) (site : Pos) (frame : Handle)
  /-- Make a frame inside a frame. -/
  | scope (frame : Handle)
  /-- Hand out the frame around a frame. -/
  | enclosing (frame : Handle)
  /-- Compare two frames. -/
  | isSame (first second : Handle)
  /-- Count the frames around a frame. -/
  | depth (frame : Handle)
  /-- Show a frame. -/
  | describe (frame : Handle)
  /-- Bind a name in a frame. -/
  | define (target : Ref) (value : Value)
  /-- Change a binding. -/
  | assign (target : Ref) (value : Value)
  /-- Look up a name. -/
  | get (source : Ref)
  /-- Look up a name and show all about its value. -/
  | info (source : Ref)
  /-- Bind a name to the value of another. -/
  | copy (source target : Ref)
  /-- Compare the values of two names. -/
  | equal (first second : Ref)
  /-- Apply an operator to the values of two names. -/
  | operate (op : Operator) (first second : Ref)
  /-- The lines of the printed text. -/
  | lines
  /-- The printed text. -/
  | contents
  /-- Drop the printed text. -/
  | clear
  /-- Send printed text elsewhere. -/
  | redirect (target : Redirection)
  deriving Inhabited

inductive Reply where
  | done
  | value (value : Value)
  /-- A statement was left by a return with this value. -/
  | returned (value : Value)
  | error (error : RuntimeError)
  | fault (fault : Fault)
  /-- The value to be called is no function. -/
  | notCallable
  /-- Whether the program ran to its end. -/
  | completed (whole : Bool)
  /-- Whether the program ran to its end, and what was reported. -/
  | reported (whole : Bool) (report : String)
  /-- A frame, under a new handle, and how many frames are around it. -/
  | frame (handle : Handle) (id : FrameId) (depth : Nat)
  | noFrame
  | same (same : Bool)
  | depth (depth : Nat)
  | description (text : String)
  | info (value : Value)
  | equal (equal : Bool)
  | lines (lines : List String)
  | contents (text : String)
  /-- The command names a frame or a function that there is not. -/
  | refused
  deriving Inhabited

end Lox
