import Lox.Machine
import Lox.Value.Operators
import Lox.Value.Text

/-!
# Evaluation

The evaluator follows the syntax tree. Two things it is given from outside, in a `Context`: how
function values are called, and how many rounds a loop may make.

Statements end in three ways: they are done, they fail, or they return. The last two are an `Unwind`,
which stops all statements around it; a return is caught by the nearest function call.
-/

namespace Lox

/-- What the evaluator is given from outside. -/
structure Context where
  /-- The run of a call: the function, its arguments, and where the call stands. -/
  invoke : Callable → List Value → Pos → Run RuntimeError Value
  /-- The number of rounds that one loop may make. -/
  rounds : Nat

variable {α : Type}

/-- The result of an operator, with a fault reported at `pos`. -/
@[inline] def Run.raising (pos : Pos) (r : Except Fault α) : Run RuntimeError α :=
  .ofResult (r.mapError (⟨·, pos⟩))

/-- A run whose faults are reported at `pos`. -/
@[inline] def Run.at (pos : Pos) (x : Run Fault α) : Run RuntimeError α := x.mapError (⟨·, pos⟩)

/-- Call a value. It must be a function, and then the number of arguments must be its arity. -/
def Context.apply (ctx : Context) (pos : Pos) (callee : Value) (args : List Value) :
    Run RuntimeError Value :=
  match callee with
  | .callable f =>
    if args.length = f.arity then ctx.invoke f args pos
    else .fail ⟨.arityMismatch f.arity args.length, pos⟩
  | _ => .fail ⟨.notCallable, pos⟩

/-- Whether a logical operator leaves its right operand alone, given its left one. -/
def LogicalOp.stopsAt : LogicalOp → Value → Bool
  | .and, v => !v.isTruthy
  | .or, v => v.isTruthy

mutual

/-- The value of an expression. Operands are evaluated from left to right before anything is checked,
and a logical operator gives one of its operands itself. -/
def Expr.eval (ctx : Context) : Expr → Run RuntimeError Value
  | .literal _ x => pure x.value
  | .group _ e => e.eval ctx
  | .unary pos op e => do
    let v ← e.eval ctx
    Run.raising pos (v.unary op)
  | .binary pos op l r => do
    let v ← l.eval ctx
    let w ← r.eval ctx
    Run.raising pos (v.binary op w)
  | .logical _ op l r => do
    let v ← l.eval ctx
    if op.stopsAt v then pure v else r.eval ctx
  | .variable pos name => (Run.lookup name).at pos
  | .assign pos name e => do
    let v ← e.eval ctx
    (Run.assign name v).at pos
    pure v
  | .call pos callee args => do
    let f ← callee.eval ctx
    let vs ← Expr.evalList ctx args
    ctx.apply pos f vs

def Expr.evalList (ctx : Context) : List Expr → Run RuntimeError (List Value)
  | [] => pure []
  | e :: es => do
    let v ← e.eval ctx
    let vs ← Expr.evalList ctx es
    pure (v :: vs)

end

/-- The value of an expression that may be absent; without one it is `nil`. -/
def Expr.evalOption (ctx : Context) : Option Expr → Run RuntimeError Value
  | some e => e.eval ctx
  | none => pure .nil

/-- The run of an expression within a statement. -/
@[inline] def Run.within (x : Run RuntimeError α) : Run Unwind α := x.mapError .error

mutual

def Stmt.exec (ctx : Context) : Stmt → Run Unwind Unit
  | .expression _ e => do
    let _ ← (e.eval ctx).within
    pure ()
  | .print _ e => do
    let v ← (e.eval ctx).within
    Run.print v.text
  | .declare _ name initial => do
    let v ← (Expr.evalOption ctx initial).within
    Run.defineHere name v
  | .block _ body => do
    let f ← Run.openScope (← Run.read (·.current))
    Run.inScope f (Stmt.execList ctx body)
  | .cond _ test onTrue onFalse => do
    let v ← (test.eval ctx).within
    if v.isTruthy then onTrue.exec ctx else Stmt.execOption ctx onFalse
  | .loop _ test body =>
    Run.repeatWhile (do
      let v ← (test.eval ctx).within
      if v.isTruthy then do
        body.exec ctx
        pure true
      else pure false) ctx.rounds
  | .function _ name params body => do
    let f ← Run.newCallable (.closure ⟨name, params, body⟩ (← Run.read (·.current)))
    Run.defineHere name (.callable f)
  | .return _ value => do
    let v ← (Expr.evalOption ctx value).within
    Run.fail (.return v)

/-- The run of statements in order, up to the first that does not end normally. -/
def Stmt.execList (ctx : Context) : List Stmt → Run Unwind Unit
  | [] => pure ()
  | s :: ss => do
    s.exec ctx
    Stmt.execList ctx ss

/-- The run of a branch that may be absent. -/
def Stmt.execOption (ctx : Context) : Option Stmt → Run Unwind Unit
  | some s => s.exec ctx
  | none => pure ()

end

end Lox
