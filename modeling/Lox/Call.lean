import Lox.Eval
import Lox.Native.Action

/-!
# Calls

A call of a declared function runs its body in a new frame inside the frame that the function was
declared in, so names in the body mean what they meant at the declaration. A call of a native function
carries out its actions in the frame of the caller.

The bound on the work of a run is the number of calls that may be open at once. Each open call uses up
one of them, and what is left bounds the rounds of a loop as well.
-/

namespace Lox

namespace Run

variable {ε : Type}

/-- Bind parameters to arguments in a frame, in order. Parameters without an argument stay unbound,
and arguments without a parameter are dropped. -/
def bindAll (f : FrameId) : List String → List Value → Run ε Unit
  | name :: names, value :: values => do
    Run.define f name value
    bindAll f names values
  | _, _ => pure ()

/-- The run of a function body as a call: a return is its value, and without one the value is `nil`. -/
@[inline] def catchReturn (x : Run Unwind Unit) : Run RuntimeError Value :=
  x.continueWith fun
    | .ok () => pure .nil
    | .error (.return v) => pure v
    | .error (.error e) => Run.fail e

end Run

/-- The run of a call of a declared function: its body, in a new frame inside the frame that the function
was declared in. -/
@[inline] def Function.call (ctx : Context) (fn : Function) (scope : FrameId) (args : List Value) :
    Run RuntimeError Value := do
  let frame ← Run.openScope scope
  Run.bindAll frame fn.params args
  (Run.inScope frame (Stmt.execList ctx fn.body)).catchReturn

/-- Carry out an action of a native function that was called at `site`. -/
def Action.perform (ctx : Context) (site : Pos) : Action → Run RuntimeError Value
  | finish r => .ofResult (r.mapError (⟨·, site⟩))
  | print text next => do
    Run.print text
    next.perform ctx site
  | depth next => do
    (next (← Run.read fun m => m.frames.depth m.current)).perform ctx site
  | lookup name next => (Run.lookup name).continueWith fun r => (next r).perform ctx site
  | assign name v next => (Run.assign name v).continueWith fun r => (next r).perform ctx site
  | define place name v next => do
    Run.define (← Run.read place.frame) name v
    next.perform ctx site
  | call f args inner next =>
    (ctx.invoke f args inner).continueWith fun r => (next (r.mapError (·.fault))).perform ctx site
  | execute place body next => do
    let frame ← Run.read place.frame
    (Run.inScope frame (Stmt.execList ctx body)).continueWith fun r => (next r).perform ctx site

/-- The run of a call of the function `f`, without comparing the number of arguments with its arity,
when at most `bound` calls may be open at once. -/
def Callable.call (host : Host) : Nat → Callable → List Value → Pos → Run RuntimeError Value
  | 0, _, _, _ => Run.exhausted
  | bound + 1, f, args, site =>
    match f.code with
    | .closure fn scope => fn.call ⟨Callable.call host bound, bound⟩ scope args
    | .native fn => (host fn args).perform ⟨Callable.call host bound, bound⟩ site

/-- The context in which at most `bound` calls may be open, and a loop makes at most `bound` rounds. -/
def Context.ofBound (host : Host) (bound : Nat) : Context := ⟨Callable.call host bound, bound⟩

end Lox
