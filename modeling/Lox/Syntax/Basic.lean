import Lox.Number.Basic

/-!
# Syntax trees

Expressions and statements of the language. Each node carries the position of the token that it was
built from; the position of an expression is where a runtime error that it raises is reported.
-/

namespace Lox

/-- A place in a source text. -/
structure Pos where
  line : Nat
  offset : Nat := 0
  deriving DecidableEq, Inhabited, Repr

inductive Literal where
  | number (value : Number)
  | string (text : String)
  | bool (value : Bool)
  | nil
  deriving DecidableEq, Inhabited

/-- Operators with one operand. -/
inductive UnaryOp where
  | not
  | negate
  deriving DecidableEq, Inhabited, Repr

/-- Operators that evaluate both operands. -/
inductive BinaryOp where
  | equal
  | notEqual
  | less
  | lessEqual
  | greater
  | greaterEqual
  | add
  | subtract
  | multiply
  | divide
  deriving DecidableEq, Inhabited, Repr

/-- Operators that may leave their right operand alone. -/
inductive LogicalOp where
  | and
  | or
  deriving DecidableEq, Inhabited, Repr

inductive Expr where
  | literal (pos : Pos) (value : Literal)
  | group (pos : Pos) (inner : Expr)
  | unary (pos : Pos) (op : UnaryOp) (operand : Expr)
  | binary (pos : Pos) (op : BinaryOp) (left right : Expr)
  | logical (pos : Pos) (op : LogicalOp) (left right : Expr)
  | variable (pos : Pos) (name : String)
  | assign (pos : Pos) (target : String) (value : Expr)
  | call (pos : Pos) (callee : Expr) (arguments : List Expr)
  deriving Inhabited

def Expr.pos : Expr → Pos
  | .literal pos _ | .group pos _ | .unary pos _ _ | .binary pos _ _ _ | .logical pos _ _ _
  | .variable pos _ | .assign pos _ _ | .call pos _ _ => pos

inductive Stmt where
  | expression (pos : Pos) (expr : Expr)
  | print (pos : Pos) (expr : Expr)
  | declare (pos : Pos) (name : String) (initial : Option Expr)
  | block (pos : Pos) (body : List Stmt)
  | cond (pos : Pos) (test : Expr) (onTrue : Stmt) (onFalse : Option Stmt)
  | loop (pos : Pos) (test : Expr) (body : Stmt)
  | function (pos : Pos) (name : String) (params : List String) (body : List Stmt)
  | return (pos : Pos) (value : Option Expr)
  deriving Inhabited

def Stmt.pos : Stmt → Pos
  | .expression pos _ | .print pos _ | .declare pos _ _ | .block pos _ | .cond pos _ _ _
  | .loop pos _ _ | .function pos _ _ _ | .return pos _ => pos

/-- A function as declared: what a closure keeps besides the scope that it was declared in. -/
structure Function where
  name : String
  params : List String
  body : List Stmt
  deriving Inhabited

def Function.arity (f : Function) : Nat := f.params.length

abbrev Program := List Stmt

end Lox
