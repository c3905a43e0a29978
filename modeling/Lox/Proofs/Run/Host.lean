import Lox.Proofs.Run.Evolution

/-!
# Host calls and the current frame

A host works on a machine by host calls: it runs code in one way or another, calls function values with
whatever arguments, or works on frames. A call leaves a machine, and some hand out a value besides
(`HostCall.answer?`). Each of them takes the machine through steps only, so after any number of them, however
each one ended, statements run in the frame that they ran in before.
-/

namespace Lox

/-- What a host can do with a machine. -/
inductive HostCall where
  | execute (stmt : Stmt)
  | executeIn (body : List Stmt) (frame : FrameId)
  | evaluate (expr : Expr)
  | interpret (program : Program)
  | interpretAndReport (program : Program) (reports : Reports)
  | evaluateAndPrint (expr : Expr)
  | call (fn : Callable) (arguments : List Value) (site : Pos)
  | openScope (parent : FrameId)
  | define (frame : FrameId) (name : String) (value : Value)
  | assign (frame : FrameId) (name : String) (value : Value)
  | defineCallable (frame : FrameId) (name : String) (code : Code)
  | defineBuiltins (frame : FrameId)

/-- The value that statements return, if that is how they end. -/
def Unwind.returned : Except Unwind Unit → Option Value
  | .ok () => none
  | .error u => u.value?

namespace HostCall

/-- How a host call ends: the value that it hands out, if there is one, and the machine that it leaves. -/
def answer? (host : Host) (bound : Nat) (m : Machine) : HostCall → Option (Option Value × Machine)
  | execute s => (Interpreter.execute host bound s m).answer? Unwind.returned
  | executeIn body f => (Interpreter.executeIn host bound body f m).answer? Unwind.returned
  | evaluate e => (Interpreter.evaluate host bound e m).answer? Except.toOption
  | interpret p => (Interpreter.interpret host bound p m).answer? fun _ => none
  | interpretAndReport p reports =>
    (Interpreter.interpretAndReport host bound p reports m : Outcome Empty _).answer? fun _ => none
  | evaluateAndPrint e => (Interpreter.evaluateAndPrint host bound e m).answer? Except.toOption
  | call f args site => (Interpreter.call host bound f args site m).answer? Except.toOption
  | openScope f => (Run.openScope f m : Outcome Empty _).answer? fun _ => none
  | define f name v => (Run.define f name v m : Outcome Empty _).answer? fun _ => none
  | assign f name v => (Run.assignIn f name v m).answer? fun _ => none
  | defineCallable f name code =>
    (Interpreter.defineCallable f name code m : Outcome Empty _).answer? Except.toOption
  | defineBuiltins f => (Interpreter.defineBuiltins f m : Outcome Empty _).answer? fun _ => none

/-- The machine that a host call leaves, be it with a result or an error. There is none if the bound on
the work does not suffice. -/
def leaves (host : Host) (bound : Nat) (m : Machine) (c : HostCall) : Option Machine :=
  (c.answer? host bound m).map Prod.snd

/-- The machine that host calls leave, made one after the other, each with a bound of its own. -/
def leavesAll (host : Host) : List (Nat × HostCall) → Machine → Option Machine
  | [], m => some m
  | c :: rest, m => (c.2.leaves host c.1 m).bind (leavesAll host rest)

end HostCall

/-! ## Host calls take steps -/

namespace HostCall

variable {host : Host} {m m' : Machine}

theorem leaves_eq_some_iff {bound : Nat} {c : HostCall} :
    c.leaves host bound m = some m' ↔ ∃ o, c.answer? host bound m = some (o, m') := by
  simp [leaves]

theorem evolves {bound : Nat} {c : HostCall} (h : c.leaves host bound m = some m') :
    m.Evolves m' := by
  let J := Judgement.evolving host
  obtain ⟨o, h⟩ := leaves_eq_some_iff.mp h
  cases c with
  | execute s => exact Run.Evolving.answer? (J.execute bound s fun _ _ => trivial) h
  | executeIn body f => exact Run.Evolving.answer? (J.executeIn bound body f trivial fun _ _ => trivial) h
  | evaluate e => exact Run.Evolving.answer? (J.evaluate bound e fun _ _ => trivial) h
  | interpret p => exact Run.Evolving.answer? (J.interpret bound p fun _ _ => trivial) h
  | interpretAndReport p reports =>
    have hrun := J.interpretAndReport (E := Empty.elim) bound p reports fun _ _ => trivial
    exact Run.Evolving.answer? hrun h
  | evaluateAndPrint e => exact Run.Evolving.answer? (J.evaluateAndPrint bound e fun _ _ => trivial) h
  | call f args site =>
    exact Run.Evolving.answer? (J.call bound f args site trivial fun _ _ _ _ => trivial) h
  | openScope f =>
    rw [answer?] at h
    exact (Run.Evolving.openScope (E := Empty.elim) f).answer? h
  | define f name v =>
    rw [answer?] at h
    exact (Run.Evolving.define (E := Empty.elim) f name v).answer? h
  | assign f name v => exact (Run.Evolving.assignIn f name v).answer? h
  | defineCallable f name code =>
    have hcode : ∀ id, J.functions ⟨id, code⟩ := fun _ => trivial
    have hrun := J.defineCallable (E := Empty.elim) (f := f) trivial name hcode
    exact Run.Evolving.answer? hrun h
  | defineBuiltins f =>
    rw [answer?] at h
    have hrun := J.defineBuiltins (E := Empty.elim) (f := f) trivial fun _ _ _ => trivial
    exact Run.Evolving.answer? hrun h

theorem evolves_all {calls : List (Nat × HostCall)} (h : leavesAll host calls m = some m') :
    m.Evolves m' := by
  induction calls generalizing m with
  | nil => cases h; exact .refl _
  | cons c rest ih =>
    obtain ⟨n, hn, hrest⟩ := Option.bind_eq_some_iff.mp h
    exact (evolves hn).trans (ih hrest)

end HostCall

/-! ## The current frame -/

/-- **Scopes are restored on every exit.** The current frame after a host call is the frame before it,
and a machine that starts in the frame of its globals is there again after any host calls. -/
theorem HostCall.current_restored (host : Host) :
    (∀ bound call m m', HostCall.leaves host bound m call = some m' → m'.current = m.current) ∧
      ∀ calls m m', m.current = m.globals → HostCall.leavesAll host calls m = some m' →
        m'.current = m'.globals := by
  refine ⟨fun bound call m m' h => (evolves h).current, fun calls m m' hm h => ?_⟩
  have hall := evolves_all h
  rw [hall.current, hall.globals, hm]

/-- The native functions of this host run a block in the globals that fails, and fail themselves. -/
private def failingHost : Host := fun _ _ =>
  .execute .globals [.block ⟨1, 0⟩ [.expression ⟨1, 0⟩ (.variable ⟨1, 0⟩ "missing")]] fun
    | .error (.error e) => .fault e.fault
    | _ => .value .nil

/-- A function that calls a native function that fails if `x` is true, and fails inside a block of its own
otherwise. It is called in a program and then by the host. -/
private def failingCalls : List (Nat × HostCall) :=
  let x : Expr := .variable ⟨1, 0⟩ "x"
  let native : Expr := .call ⟨1, 0⟩ (.variable ⟨1, 0⟩ "native") []
  let body : List Stmt := [.cond ⟨1, 0⟩ x (.expression ⟨1, 0⟩ native) none,
    .block ⟨1, 0⟩ [.return ⟨1, 0⟩ (some (.unary ⟨1, 0⟩ .negate x))]]
  let call (arg : Bool) : Expr := .call ⟨2, 0⟩ (.variable ⟨2, 0⟩ "f") [.literal ⟨2, 0⟩ (.bool arg)]
  [(9, .defineCallable 0 "native" (.native ⟨"native", 0⟩)),
    (9, .interpret [.function ⟨1, 0⟩ "f" ["x"] body, .block ⟨2, 0⟩ [.print ⟨2, 0⟩ (call false)]]),
    (9, .evaluate (call true)), (9, .executeIn [.return ⟨3, 0⟩ none] 1)]

theorem HostCall.current_restored_failing :
    ∃ m', HostCall.leavesAll failingHost failingCalls .initial = some m' ∧
      m'.current = m'.globals := by
  have h : (HostCall.leavesAll failingHost failingCalls .initial).isSome := by decide +kernel
  obtain ⟨m', hm⟩ := Option.isSome_iff_exists.mp h
  exact ⟨m', hm, (HostCall.current_restored _).2 failingCalls .initial m' rfl hm⟩

end Lox
