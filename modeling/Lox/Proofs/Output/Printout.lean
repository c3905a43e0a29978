import Lox.Interpreter
import Lox.Proofs.Base.Outcome

/-!
# What is printed

The texts that a run prints, in order (`Printout`). For statements and expressions, for calls, and for
what native functions do, they are told by following the run: a `print` statement adds the text of its
value, a native function that prints adds what it prints, and everything else adds what its parts do, up to
where the run is stopped.
-/

namespace Lox

variable {ε ε' α β : Type}

/-- The texts that a run prints from a machine, in order. -/
abbrev Printout := Machine → List String

namespace Printout

def nothing : Printout := fun _ => []

def text (s : String) : Printout := fun _ => [s]

/-- What a run prints, and then what is printed on its result. -/
def followedBy (p : Printout) (x : Run ε α) (next : Except ε α → Printout) : Printout := fun m =>
  p m ++ match x m with
    | .ended r m' => next r m'
    | .exhausted => []

/-- What a run prints, and then what is printed on its value. An error is the end. -/
def andThen (p : Printout) (x : Run ε α) (next : α → Printout) : Printout :=
  p.followedBy x fun
    | .ok a => next a
    | .error _ => nothing

theorem followedBy_nothing (p : Printout) (x : Run ε α) : p.followedBy x (fun _ => nothing) = p := by
  funext m
  rw [followedBy]
  cases x m <;> exact List.append_nil _

/-- What is printed after a run that prints nothing itself. -/
def after (x : Run ε α) (next : α → Printout) : Printout := nothing.andThen x next

def inScope (f : FrameId) (p : Printout) : Printout := fun m => p { m with current := f }

/-- What is printed by a loop, for at most as many rounds. -/
def rounds (p : Printout) (round : Run ε Bool) : Nat → Printout
  | 0 => nothing
  | n + 1 => p.andThen round fun again => if again then p.rounds round n else nothing

end Printout

/-! ## Programs -/

section programs

variable (ctx : Context) (calls : Callable → List Value → Pos → Printout)

/-- What a call of a value prints: nothing, unless it is a function that takes so many arguments. -/
def Value.callPrints (pos : Pos) (callee : Value) (args : List Value) : Printout :=
  match callee with
  | .callable f => if args.length = f.arity then calls f args pos else .nothing
  | _ => .nothing

mutual

/-- What an expression prints. Only calls print, in the order in which they are evaluated. -/
def Expr.prints : Expr → Printout
  | .literal _ _ | .variable _ _ => .nothing
  | .group _ e | .unary _ _ e | .assign _ _ e => e.prints
  | .binary _ _ l r => l.prints.andThen (l.eval ctx) fun _ => r.prints
  | .logical _ op l r =>
    l.prints.andThen (l.eval ctx) fun v => if op.stopsAt v then .nothing else r.prints
  | .call pos callee args =>
    callee.prints.andThen (callee.eval ctx) fun f =>
      (Expr.printsList args).andThen (Expr.evalList ctx args) fun vs => f.callPrints calls pos vs

def Expr.printsList : List Expr → Printout
  | [] => .nothing
  | e :: es => e.prints.andThen (e.eval ctx) fun _ => Expr.printsList es

end

def Expr.printsOption : Option Expr → Printout
  | some e => e.prints ctx calls
  | none => .nothing

/-- One round of a loop: whether there is another. -/
def Stmt.round (test : Expr) (body : Stmt) : Run Unwind Bool := do
  let v ← (test.eval ctx).within
  if v.isTruthy then do
    body.exec ctx
    pure true
  else pure false

mutual

/-- What a statement prints. A `print` statement adds the text of its value, if it has one. -/
def Stmt.prints : Stmt → Printout
  | .expression _ e => e.prints ctx calls
  | .print _ e => (e.prints ctx calls).andThen (e.eval ctx).within fun v => .text v.text
  | .declare _ _ value | .return _ value => Expr.printsOption ctx calls value
  | .block _ body =>
    .after (Run.read (·.current) : Run Unwind FrameId) fun parent =>
      .after (Run.openScope parent : Run Unwind FrameId) fun f => .inScope f (Stmt.printsList body)
  | .cond _ test onTrue onFalse =>
    (test.prints ctx calls).andThen (test.eval ctx).within fun v =>
      if v.isTruthy then onTrue.prints else Stmt.printsOption onFalse
  | .loop _ test body =>
    .rounds ((test.prints ctx calls).andThen (test.eval ctx).within fun v =>
      if v.isTruthy then body.prints else .nothing) (Stmt.round ctx test body) ctx.rounds
  | .function _ _ _ _ => .nothing

def Stmt.printsList : List Stmt → Printout
  | [] => .nothing
  | s :: ss => s.prints.andThen (s.exec ctx) fun _ => Stmt.printsList ss

def Stmt.printsOption : Option Stmt → Printout
  | some s => s.prints
  | none => .nothing

end

/-! ## Calls -/

/-- What a call of a declared function prints: what its body does. -/
def Function.prints (fn : Function) (scope : FrameId) (args : List Value) : Printout :=
  .after (Run.openScope scope : Run RuntimeError FrameId) fun frame =>
    .after (Run.bindAll frame fn.params args : Run RuntimeError Unit) fun _ =>
      .inScope frame (Stmt.printsList ctx calls fn.body)

/-- What is printed while an action is carried out: what the native function prints itself, and what the
functions and the code do that it runs. -/
def Action.prints : Action → Printout
  | finish _ => .nothing
  | print text next =>
    (Printout.text text).andThen (Run.print text : Run RuntimeError Unit) fun _ => next.prints
  | depth next =>
    .after (Run.read fun m => m.frames.depth m.current : Run RuntimeError Nat) fun n => (next n).prints
  | lookup name next => Printout.nothing.followedBy (Run.lookup name) fun r => (next r).prints
  | assign name v next => Printout.nothing.followedBy (Run.assign name v) fun r => (next r).prints
  | define place name v next =>
    .after (Run.read place.frame : Run RuntimeError FrameId) fun f =>
      .after (Run.define f name v : Run RuntimeError Unit) fun _ => next.prints
  | call f args site next =>
    (calls f args site).followedBy (ctx.invoke f args site) fun r => (next (r.mapError (·.fault))).prints
  | execute place body next =>
    .after (Run.read place.frame : Run RuntimeError FrameId) fun f =>
      (Printout.inScope f (Stmt.printsList ctx calls body)).followedBy
        (Run.inScope f (Stmt.execList ctx body)) fun r => (next r).prints

end programs

/-- What a call prints when at most `bound` calls may be open at once. -/
def Callable.prints (host : Host) : Nat → Callable → List Value → Pos → Printout
  | 0, _, _, _ => .nothing
  | bound + 1, f, args, _ =>
    match f.code with
    | .closure fn scope => fn.prints (.ofBound host bound) (Callable.prints host bound) scope args
    | .native fn => (host fn args).prints (.ofBound host bound) (Callable.prints host bound)

end Lox
