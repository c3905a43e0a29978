import Lox.Proofs.Base.Induction

/-!
# Relabelled trees

A tree with its positions replaced by one function and its number literals by another (`Expr.relabel`,
`Stmt.relabel`). What trees have in common beyond positions and some details of numbers is stated as an
equation between relabelled trees.
-/

namespace Lox

section

variable (φ : Pos → Pos) (ν : Number → Number)

def Literal.relabel : Literal → Literal
  | .number x => .number (ν x)
  | .string text => .string text
  | .bool b => .bool b
  | .nil => .nil

mutual

/-- The expression with its positions and number literals replaced. -/
def Expr.relabel : Expr → Expr
  | .literal pos x => .literal (φ pos) (x.relabel ν)
  | .group pos e => .group (φ pos) e.relabel
  | .unary pos op e => .unary (φ pos) op e.relabel
  | .binary pos op l r => .binary (φ pos) op l.relabel r.relabel
  | .logical pos op l r => .logical (φ pos) op l.relabel r.relabel
  | .variable pos x => .variable (φ pos) x
  | .assign pos x e => .assign (φ pos) x e.relabel
  | .call pos callee args => .call (φ pos) callee.relabel (Expr.relabelList args)

def Expr.relabelList : List Expr → List Expr
  | [] => []
  | e :: es => e.relabel :: Expr.relabelList es

end

mutual

/-- The statement with its positions and number literals replaced, also in function bodies. -/
def Stmt.relabel : Stmt → Stmt
  | .expression pos e => .expression (φ pos) (e.relabel φ ν)
  | .print pos e => .print (φ pos) (e.relabel φ ν)
  | .declare pos x initial => .declare (φ pos) x (initial.map (Expr.relabel φ ν))
  | .block pos body => .block (φ pos) (Stmt.relabelList body)
  | .cond pos test onTrue onFalse =>
    .cond (φ pos) (test.relabel φ ν) onTrue.relabel (Stmt.relabelOption onFalse)
  | .loop pos test body => .loop (φ pos) (test.relabel φ ν) body.relabel
  | .function pos name params body => .function (φ pos) name params (Stmt.relabelList body)
  | .return pos value => .return (φ pos) (value.map (Expr.relabel φ ν))

def Stmt.relabelList : List Stmt → List Stmt
  | [] => []
  | s :: ss => s.relabel :: Stmt.relabelList ss

def Stmt.relabelOption : Option Stmt → Option Stmt
  | none => none
  | some s => some s.relabel

end

@[simp]
theorem Expr.relabelList_eq_map (es : List Expr) :
    Expr.relabelList φ ν es = es.map (Expr.relabel φ ν) := by
  induction es with
  | nil => rfl
  | cons e es ih => rw [Expr.relabelList, ih, List.map_cons]

@[simp]
theorem Stmt.relabelList_eq_map (ss : List Stmt) :
    Stmt.relabelList φ ν ss = ss.map (Stmt.relabel φ ν) := by
  induction ss with
  | nil => rfl
  | cons s ss ih => rw [Stmt.relabelList, ih, List.map_cons]

@[simp]
theorem Stmt.relabelOption_eq_map (o : Option Stmt) :
    Stmt.relabelOption φ ν o = o.map (Stmt.relabel φ ν) := by
  cases o <;> rfl

end

end Lox
