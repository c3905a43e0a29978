import Lox.Scope.Frames
import Lox.Fault
import Lox.Buffer

/-!
# Machines and runs

A machine is everything that a program can change: the frames, the frame that statements run in at the
moment, the numbers given to function values, and the printed text. A `Run` is a computation on a
machine. It ends with a result or an error, and in both cases leaves a machine: an error undoes
nothing. A run is given a bound on its work, and is exhausted when it would pass the bound.
-/

namespace Lox

/-- The state that programs run on. -/
structure Machine where
  frames : Frames
  /-- The frame that statements run in at the moment. -/
  current : FrameId
  /-- The frame of the global variables. -/
  globals : FrameId
  /-- A number above those of all function values made so far. -/
  nextId : Nat
  output : Output
  buffer : Buffer
  deriving Inhabited

/-- A machine with empty globals that prints to an empty buffer. -/
def Machine.initial : Machine where
  frames := .initial
  current := 0
  globals := 0
  nextId := 0
  output := .buffer
  buffer := {}

inductive Outcome (ε α : Type) where
  /-- With a result or an error, and the machine that it leaves. -/
  | ended (result : Except ε α) (final : Machine)
  /-- Without either, as its bound did not suffice. -/
  | exhausted

/-- Why statements stop early. -/
inductive Unwind where
  | error (error : RuntimeError)
  | return (value : Value)
  deriving Inhabited

/-- A computation on a machine. -/
def Run (ε α : Type) : Type := Machine → Outcome ε α

namespace Run

variable {ε ε' α β : Type}

@[inline] protected def pure (a : α) : Run ε α := fun m => .ended (.ok a) m

@[inline] def fail (e : ε) : Run ε α := fun m => .ended (.error e) m

@[inline] def exhausted : Run ε α := fun _ => .exhausted

/-- Run `x`, and then `f` on its value; an error of `x` is the end. -/
@[inline] protected def bind (x : Run ε α) (f : α → Run ε β) : Run ε β := fun m =>
  match x m with
  | .ended (.ok a) m' => f a m'
  | .ended (.error e) m' => .ended (.error e) m'
  | .exhausted => .exhausted

@[inline] instance : Monad (Run ε) where
  pure := Run.pure
  bind := Run.bind

/-- Run `x`, and then go on with its result, be it a value or an error. -/
@[inline] def continueWith (x : Run ε α) (f : Except ε α → Run ε' β) : Run ε' β := fun m =>
  match x m with
  | .ended r m' => f r m'
  | .exhausted => .exhausted

@[inline] def ofResult (r : Except ε α) : Run ε α := fun m => .ended r m

@[inline] def mapError (f : ε → ε') (x : Run ε α) : Run ε' α :=
  x.continueWith fun r => ofResult (r.mapError f)

@[simp] theorem pure_apply (a : α) (m : Machine) : (pure a : Run ε α) m = .ended (.ok a) m := rfl

theorem bind_apply (x : Run ε α) (f : α → Run ε β) (m : Machine) :
    (x >>= f) m =
      match x m with
      | .ended (.ok a) m' => f a m'
      | .ended (.error e) m' => .ended (.error e) m'
      | .exhausted => .exhausted := rfl

theorem bind_pure (x : Run ε α) : Run.bind x Run.pure = x := by
  funext m
  simp only [Run.bind, Run.pure]
  rcases x m with ⟨_ | _, _⟩ | _ <;> rfl

theorem bind_bind {γ : Type} (x : Run ε α) (f : α → Run ε β) (g : β → Run ε γ) :
    Run.bind (Run.bind x f) g = Run.bind x fun a => Run.bind (f a) g := by
  funext m
  simp only [Run.bind]
  rcases x m with ⟨_ | _, _⟩ | _ <;> rfl

instance : LawfulMonad (Run ε) := LawfulMonad.mk' (Run ε) bind_pure (fun _ _ => rfl) bind_bind

/-! ## Steps -/

@[inline] def read (f : Machine → α) : Run ε α := fun m => .ended (.ok (f m)) m

@[inline] def update (f : Machine → Machine) : Run ε Unit := fun m => .ended (.ok ()) (f m)

def print (text : String) : Run ε Unit :=
  update fun m => { m with buffer := m.output.println text m.buffer }

def define (f : FrameId) (name : String) (value : Value) : Run ε Unit :=
  update fun m => { m with frames := m.frames.define f name value }

def defineHere (name : String) (value : Value) : Run ε Unit := do
  define (← read (·.current)) name value

/-- The value that a name stands for in the frame `f`. -/
def lookupIn (f : FrameId) (name : String) : Run Fault Value := fun m =>
  match m.frames.get? f name with
  | some v => .ended (.ok v) m
  | none => .ended (.error (.undefinedVariable name)) m

def lookup (name : String) : Run Fault Value := do lookupIn (← read (·.current)) name

/-- Change the binding that a name stands for in the frame `f`. -/
def assignIn (f : FrameId) (name : String) (value : Value) : Run Fault Unit := fun m =>
  match m.frames.owner? f name with
  | some g => .ended (.ok ()) { m with frames := m.frames.define g name value }
  | none => .ended (.error (.undefinedVariable name)) m

def assign (name : String) (value : Value) : Run Fault Unit := do
  assignIn (← read (·.current)) name value

def openScope (parent : FrameId) : Run ε FrameId := fun m =>
  let (f, frames) := m.frames.openScope parent
  .ended (.ok f) { m with frames }

def newCallable (code : Code) : Run ε Callable := fun m =>
  .ended (.ok ⟨m.nextId, code⟩) { m with nextId := m.nextId + 1 }

/-- Run `x` in the frame `f`, and come back to the present frame however `x` ends. -/
@[inline] def inScope (f : FrameId) (x : Run ε α) : Run ε α := fun m =>
  let back := m.current
  match x { m with current := f } with
  | .ended r m' => .ended r { m' with current := back }
  | .exhausted => .exhausted

/-- Run `round` again and again until it gives `false`, for at most `bound` rounds. -/
@[specialize] def repeatWhile (round : Run ε Bool) : Nat → Run ε Unit
  | 0 => exhausted
  | bound + 1 => fun m =>
    match round m with
    | .ended (.ok true) m' => repeatWhile round bound m'
    | .ended (.ok false) m' => .ended (.ok ()) m'
    | .ended (.error e) m' => .ended (.error e) m'
    | .exhausted => .exhausted

end Run

end Lox
