import Lox.Syntax.Basic

/-!
# Equality of syntax trees

Two trees are the same when they have the same nodes at the same positions, with the same names,
operators and literals. Number literals are compared by `Number.sameLiteral`, so that a tree with a
NaN in it is the same as itself.
-/

namespace Lox

def Literal.same : Literal → Literal → Bool
  | .number x, .number y => x.sameLiteral y
  | .string s, .string t => s == t
  | .bool a, .bool b => a == b
  | .nil, .nil => true
  | _, _ => false

mutual

def Expr.same : Expr → Expr → Bool
  | .literal p x, .literal q y => p == q && x.same y
  | .group p e, .group q f => p == q && e.same f
  | .unary p op e, .unary q op' f => p == q && op == op' && e.same f
  | .binary p op l r, .binary q op' l' r' => p == q && op == op' && l.same l' && r.same r'
  | .logical p op l r, .logical q op' l' r' => p == q && op == op' && l.same l' && r.same r'
  | .variable p x, .variable q y => p == q && x == y
  | .assign p x e, .assign q y f => p == q && x == y && e.same f
  | .call p e args, .call q f args' => p == q && e.same f && Expr.sameList args args'
  | _, _ => false

def Expr.sameList : List Expr → List Expr → Bool
  | [], [] => true
  | e :: es, f :: fs => e.same f && Expr.sameList es fs
  | _, _ => false

end

def Expr.sameOption : Option Expr → Option Expr → Bool
  | none, none => true
  | some e, some f => e.same f
  | _, _ => false

mutual

def Stmt.same : Stmt → Stmt → Bool
  | .expression p e, .expression q f => p == q && e.same f
  | .print p e, .print q f => p == q && e.same f
  | .declare p x e, .declare q y f => p == q && x == y && Expr.sameOption e f
  | .block p b, .block q c => p == q && Stmt.sameList b c
  | .cond p e t o, .cond q f t' o' => p == q && e.same f && t.same t' && Stmt.sameOption o o'
  | .loop p e b, .loop q f c => p == q && e.same f && b.same c
  | .function p x ps b, .function q y qs c => p == q && x == y && ps == qs && Stmt.sameList b c
  | .return p e, .return q f => p == q && Expr.sameOption e f
  | _, _ => false

def Stmt.sameList : List Stmt → List Stmt → Bool
  | [], [] => true
  | s :: ss, t :: ts => s.same t && Stmt.sameList ss ts
  | _, _ => false

def Stmt.sameOption : Option Stmt → Option Stmt → Bool
  | none, none => true
  | some s, some t => s.same t
  | _, _ => false

end

end Lox
