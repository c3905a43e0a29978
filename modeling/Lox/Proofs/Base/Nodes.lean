import Lox.Eval
import Lox.Proofs.Base.Frames
import Lox.Proofs.Base.Outcome

/-!
# Nodes and the faults that they raise

The expression nodes of a tree, and which kinds of nodes can raise which faults. A fault starts at a node
of one of five kinds: a unary or binary operator, a variable, an assignment, or a call.
-/

namespace Lox

/-! ## The nodes of a tree -/

mutual

/-- The nodes of an expression, itself included. -/
def Expr.nodes : Expr → List Expr
  | .literal pos x => [.literal pos x]
  | .group pos e => .group pos e :: e.nodes
  | .unary pos op e => .unary pos op e :: e.nodes
  | .binary pos op l r => .binary pos op l r :: (l.nodes ++ r.nodes)
  | .logical pos op l r => .logical pos op l r :: (l.nodes ++ r.nodes)
  | .variable pos name => [.variable pos name]
  | .assign pos name e => .assign pos name e :: e.nodes
  | .call pos callee args => .call pos callee args :: (callee.nodes ++ Expr.nodesOfList args)

def Expr.nodesOfList : List Expr → List Expr
  | [] => []
  | e :: es => e.nodes ++ Expr.nodesOfList es

end

def Expr.nodesOfOption : Option Expr → List Expr
  | some e => e.nodes
  | none => []

mutual

/-- The expression nodes of a statement, with those of the bodies of functions that it declares. -/
def Stmt.nodes : Stmt → List Expr
  | .expression _ e | .print _ e => e.nodes
  | .declare _ _ initial => Expr.nodesOfOption initial
  | .block _ body => Stmt.nodesOfList body
  | .cond _ test onTrue onFalse => test.nodes ++ (onTrue.nodes ++ Stmt.nodesOfOption onFalse)
  | .loop _ test body => test.nodes ++ body.nodes
  | .function _ _ _ body => Stmt.nodesOfList body
  | .return _ value => Expr.nodesOfOption value

def Stmt.nodesOfList : List Stmt → List Expr
  | [] => []
  | s :: ss => s.nodes ++ Stmt.nodesOfList ss

def Stmt.nodesOfOption : Option Stmt → List Expr
  | some s => s.nodes
  | none => []

end

def Callable.nodes (f : Callable) : List Expr :=
  match f.code with
  | .closure fn _ => Stmt.nodesOfList fn.body
  | .native _ => []

theorem Expr.mem_nodesOfList {n : Expr} {es : List Expr} :
    n ∈ Expr.nodesOfList es ↔ ∃ e ∈ es, n ∈ e.nodes := by
  induction es with
  | nil => simp [Expr.nodesOfList]
  | cons e es ih => simp [Expr.nodesOfList, ih]

theorem Stmt.mem_nodesOfList {n : Expr} {ss : List Stmt} :
    n ∈ Stmt.nodesOfList ss ↔ ∃ s ∈ ss, n ∈ s.nodes := by
  induction ss with
  | nil => simp [Stmt.nodesOfList]
  | cons s ss ih => simp [Stmt.nodesOfList, ih]

/-! ## Which node raises which fault -/

/-- The binary operators that take numbers only. -/
def BinaryOp.takesNumbers : BinaryOp → Bool
  | .equal | .notEqual | .add => false
  | _ => true

/-- The node itself, and not a node below it, can raise the fault. -/
def Expr.Raises : Expr → Fault → Prop
  | .unary _ op _, .operandNotNumber => op = .negate
  | .binary _ op _ _, .operandsNotNumbers => op.takesNumbers
  | .binary _ op _ _, .invalidAddOperands => op = .add
  | .variable _ name, .undefinedVariable x => x = name
  | .assign _ target _, .undefinedVariable x => x = target
  | .call _ _ _, .notCallable => True
  | .call _ _ _, .native _ => True
  | .call _ _ args, .arityMismatch expected got => args.length = got ∧ expected ≠ got
  | _, _ => False

theorem Value.ends_unary (F : Callable → Prop) (pos : Pos) (op : UnaryOp) (e : Expr) (v : Value) :
    Ends (Expr.unary pos op e).Raises (Value.Only F) (v.unary op) := by
  cases op with
  | not => exact Value.only_bool
  | negate => cases v <;> simp [Value.unary, Value.neg, Expr.Raises]

theorem Value.ends_numbers (v w : Value) :
    Ends (· = .operandsNotNumbers) (fun _ => True) (Value.numbers v w) := by
  unfold Value.numbers
  split <;> simp

theorem Value.ends_arith (F : Callable → Prop) (op : Number → Number → Number) (v w : Value) :
    Ends (· = .operandsNotNumbers) (Value.Only F) (Value.arith op v w) := by
  have h := Value.ends_numbers v w
  unfold Value.arith
  cases hn : Value.numbers v w with
  | ok p => exact Value.only_number
  | error f => rw [hn] at h; exact h

theorem Value.ends_compare (F : Callable → Prop) (test : Number → Number → Bool) (v w : Value) :
    Ends (· = .operandsNotNumbers) (Value.Only F) (Value.compare test v w) := by
  have h := Value.ends_numbers v w
  unfold Value.compare
  cases hn : Value.numbers v w with
  | ok p => exact Value.only_bool
  | error f => rw [hn] at h; exact h

theorem Value.ends_binary (F : Callable → Prop) (pos : Pos) (op : BinaryOp) (l r : Expr)
    (v w : Value) :
    Ends (Expr.binary pos op l r).Raises (Value.Only F) (Value.binary op v w) := by
  have raises (h : op.takesNumbers) : ∀ f, f = .operandsNotNumbers →
      (Expr.binary pos op l r).Raises f := by rintro f rfl; exact h
  cases op with
  | equal | notEqual => exact Value.only_bool
  | less | lessEqual | greater | greaterEqual =>
    rw [Value.binary]
    exact (Value.ends_compare F _ v w).mono (raises rfl) fun _ h => h
  | subtract | multiply | divide =>
    exact (Value.ends_arith F _ v w).mono (raises rfl) fun _ h => h
  | add =>
    rw [Value.binary]
    unfold Value.add
    split <;> simp [Expr.Raises]

end Lox
