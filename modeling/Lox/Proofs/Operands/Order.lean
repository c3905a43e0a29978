import Lox.Interpreter
import Lox.Proofs.Base.Outcome

/-!
# The order of operands

Operands are evaluated from left to right, each on the machine that the one before it leaves. Either all of
them have values (`Expr.EvaluatesAll`), or one is the last that is evaluated (`Expr.EvaluatesUpTo`), and those
after it are left alone.

A call evaluates the callee and the arguments in this way before it asks whether the callee is a function of
as many arguments, and a binary operator both of its operands before it looks at what they are.
-/

namespace Lox

variable {ε α β : Type}

theorem Run.bind_eq_ended_iff {x : Run ε α} {f : α → Run ε β} {m m' : Machine} {r : Except ε β} :
    (x >>= f) m = .ended r m' ↔
      (∃ a m₁, x m = .ended (.ok a) m₁ ∧ f a m₁ = .ended r m') ∨
        ∃ e, r = .error e ∧ x m = .ended (.error e) m' := by
  constructor
  · intro h
    rw [Run.bind_apply] at h
    split at h
    · next a m₁ hx => exact .inl ⟨a, m₁, hx, h⟩
    · next e m₁ hx =>
      cases h
      exact .inr ⟨e, rfl, hx⟩
    · cases h
  · rintro (⟨a, m₁, hx, hf⟩ | ⟨e, rfl, hx⟩)
    · rw [Run.bind_apply, hx]
      exact hf
    · rw [Run.bind_apply, hx]

namespace Expr

variable {ctx : Context} {e : Expr} {es : List Expr} {v : Value} {vs : List Value} {m m₁ m' : Machine}
  {r : Except RuntimeError Value}

/-- The expressions are evaluated one after the other, and have these values. -/
inductive EvaluatesAll (ctx : Context) : List Expr → Machine → List Value → Machine → Prop
  | nil (m : Machine) : EvaluatesAll ctx [] m [] m
  | cons {e : Expr} {es : List Expr} {v : Value} {vs : List Value} {m m₁ m' : Machine}
    (he : e.eval ctx m = .ended (.ok v) m₁) (hes : EvaluatesAll ctx es m₁ vs m') :
    EvaluatesAll ctx (e :: es) m (v :: vs) m'

/-- The expressions are evaluated one after the other up to one that ends with `r`. Those before it have these
values, and the ones after it, which are left, are not evaluated. -/
inductive EvaluatesUpTo (ctx : Context) :
    List Expr → Machine → List Value → Except RuntimeError Value → List Expr → Machine → Prop
  | last {e : Expr} {m m' : Machine} {r : Except RuntimeError Value} (he : e.eval ctx m = .ended r m')
    (left : List Expr) : EvaluatesUpTo ctx (e :: left) m [] r left m'
  | next {e : Expr} {es left : List Expr} {v : Value} {vs : List Value} {m m₁ m' : Machine}
    {r : Except RuntimeError Value} (he : e.eval ctx m = .ended (.ok v) m₁)
    (hes : EvaluatesUpTo ctx es m₁ vs r left m') : EvaluatesUpTo ctx (e :: es) m (v :: vs) r left m'

theorem EvaluatesAll.length_eq (h : EvaluatesAll ctx es m vs m') : vs.length = es.length := by
  induction h with
  | nil m => rfl
  | cons he hes ih => rw [List.length_cons, List.length_cons, ih]

/-- The expressions are evaluated one after the other up to the first that fails. -/
def FailsWith (ctx : Context) (es : List Expr) (m : Machine) (err : RuntimeError) (m' : Machine) : Prop :=
  ∃ vs left, EvaluatesUpTo ctx es m vs (.error err) left m'

theorem evalList_of_evaluatesAll (h : EvaluatesAll ctx es m vs m') :
    Expr.evalList ctx es m = .ended (.ok vs) m' := by
  induction h with
  | nil m => rfl
  | cons he hes ih =>
    rw [Expr.evalList, Run.bind_apply, he]
    simp only [Run.bind_apply, ih]
    rfl

theorem evalList_of_evaluatesUpTo {err : RuntimeError} {left : List Expr}
    (h : EvaluatesUpTo ctx es m vs (.error err) left m') :
    Expr.evalList ctx es m = .ended (.error err) m' := by
  generalize hr : Except.error err = r at h
  induction h with
  | last he left =>
    subst hr
    rw [Expr.evalList, Run.bind_apply, he]
  | next he hes ih =>
    rw [Expr.evalList, Run.bind_apply, he]
    simp only [Run.bind_apply, ih hr]

theorem evaluates_of_evalList {r : Except RuntimeError (List Value)}
    (h : Expr.evalList ctx es m = .ended r m') :
    (∃ vs, r = .ok vs ∧ EvaluatesAll ctx es m vs m') ∨
      ∃ err, r = .error err ∧ FailsWith ctx es m err m' := by
  induction es generalizing m r with
  | nil =>
    cases h
    exact .inl ⟨[], rfl, .nil _⟩
  | cons e es ih =>
    rw [Expr.evalList, Run.bind_eq_ended_iff] at h
    obtain ⟨v, m₁, he, hrest⟩ | ⟨err, rfl, he⟩ := h
    · rw [Run.bind_eq_ended_iff] at hrest
      obtain ⟨vs, m₂, hes, hpure⟩ | ⟨err, rfl, hes⟩ := hrest
      · cases hpure
        obtain ⟨ws, hws, hall⟩ | ⟨_, herr, _⟩ := ih hes
        · cases hws
          exact .inl ⟨_, rfl, .cons he hall⟩
        · cases herr
      · obtain ⟨_, hok, _⟩ | ⟨err, herr, vs, left, hupTo⟩ := ih hes
        · cases hok
        · cases herr
          exact .inr ⟨err, rfl, v :: vs, left, .next he hupTo⟩
    · exact .inr ⟨err, rfl, [], es, .last he es⟩

theorem evalList_eq_ok_iff : Expr.evalList ctx es m = .ended (.ok vs) m' ↔ EvaluatesAll ctx es m vs m' := by
  refine ⟨fun h => ?_, evalList_of_evaluatesAll⟩
  obtain ⟨ws, hws, hall⟩ | ⟨_, herr, _⟩ := evaluates_of_evalList h
  · cases hws
    exact hall
  · cases herr

theorem evalList_eq_error_iff {err : RuntimeError} :
    Expr.evalList ctx es m = .ended (.error err) m' ↔ FailsWith ctx es m err m' := by
  constructor
  · intro h
    obtain ⟨_, hok, _⟩ | ⟨_, herr, hfails⟩ := evaluates_of_evalList h
    · cases hok
    · cases herr
      exact hfails
  · rintro ⟨vs, left, h⟩
    exact evalList_of_evaluatesUpTo h

end Expr

/-! ## Calls -/

/-- What is not a function cannot be called, a function takes as many arguments as its arity, and if either is
wrong then nothing is done. -/
theorem Context.apply_eq_ended_iff {ctx : Context} {pos : Pos} {f : Value} {vs : List Value}
    {m m' : Machine} {r : Except RuntimeError Value} :
    ctx.apply pos f vs m = .ended r m' ↔
      f.callable? = none ∧ r = .error ⟨.notCallable, pos⟩ ∧ m' = m ∨
        ∃ c, f = .callable c ∧
          (vs.length ≠ c.arity ∧ r = .error ⟨.arityMismatch c.arity vs.length, pos⟩ ∧ m' = m ∨
            vs.length = c.arity ∧ ctx.invoke c vs pos m = .ended r m') := by
  cases f with
  | callable c =>
    rw [Context.apply]
    split
    · next hlength => simp [Value.callable?, hlength]
    · next hlength => simp [Value.callable?, hlength, Run.fail, eq_comm]
  | nil | bool _ | number _ | string _ => simp [Context.apply, Value.callable?, Run.fail, eq_comm]

theorem Expr.eval_call_eq_ended_iff {ctx : Context} {pos : Pos} {callee : Expr} {args : List Expr}
    {m m' : Machine} {r : Except RuntimeError Value} :
    (Expr.call pos callee args).eval ctx m = .ended r m' ↔
      (∃ err, r = .error err ∧ FailsWith ctx (callee :: args) m err m') ∨
        ∃ f vs m₁, EvaluatesAll ctx (callee :: args) m (f :: vs) m₁ ∧ ctx.apply pos f vs m₁ = .ended r m' := by
  rw [Expr.eval]
  constructor
  · intro h
    obtain ⟨f, m₁, hf, hrest⟩ | ⟨err, rfl, hf⟩ := Run.bind_eq_ended_iff.mp h
    · obtain ⟨vs, m₂, hvs, happly⟩ | ⟨err, rfl, hvs⟩ := Run.bind_eq_ended_iff.mp hrest
      · exact .inr ⟨f, vs, m₂, .cons hf (evalList_eq_ok_iff.mp hvs), happly⟩
      · obtain ⟨ws, left, hfails⟩ := evalList_eq_error_iff.mp hvs
        exact .inl ⟨err, rfl, f :: ws, left, .next hf hfails⟩
    · exact .inl ⟨err, rfl, [], args, .last hf args⟩
  · rintro (⟨err, rfl, vs, left, hfails⟩ | ⟨f, vs, m₁, _ | ⟨hf, hvs⟩, happly⟩)
    · cases hfails with
      | last hf left => exact Run.bind_eq_ended_iff.mpr (.inr ⟨err, rfl, hf⟩)
      | next hf hargs =>
        refine Run.bind_eq_ended_iff.mpr (.inl ⟨_, _, hf, ?_⟩)
        exact Run.bind_eq_ended_iff.mpr (.inr ⟨err, rfl, evalList_eq_error_iff.mpr ⟨_, _, hargs⟩⟩)
    · refine Run.bind_eq_ended_iff.mpr (.inl ⟨f, _, hf, ?_⟩)
      exact Run.bind_eq_ended_iff.mpr (.inl ⟨vs, m₁, evalList_eq_ok_iff.mpr hvs, happly⟩)

/-! ## Binary operators -/

theorem Expr.eval_binary_eq_ended_iff {ctx : Context} {pos : Pos} {op : BinaryOp} {left right : Expr}
    {m m' : Machine} {r : Except RuntimeError Value} :
    (Expr.binary pos op left right).eval ctx m = .ended r m' ↔
      (∃ err, r = .error err ∧ FailsWith ctx [left, right] m err m') ∨
        ∃ v w, EvaluatesAll ctx [left, right] m [v, w] m' ∧ r = (v.binary op w).mapError (⟨·, pos⟩) := by
  rw [Expr.eval]
  constructor
  · intro h
    obtain ⟨v, m₁, hl, hrest⟩ | ⟨err, rfl, hl⟩ := Run.bind_eq_ended_iff.mp h
    · obtain ⟨w, m₂, hr, hop⟩ | ⟨err, rfl, hr⟩ := Run.bind_eq_ended_iff.mp hrest
      · cases hop
        exact .inr ⟨v, w, .cons hl (.cons hr (.nil m')), rfl⟩
      · exact .inl ⟨err, rfl, [v], [], .next hl (.last hr [])⟩
    · exact .inl ⟨err, rfl, [], [right], .last hl [right]⟩
  · rintro (⟨err, rfl, vs, _, hfails⟩ | ⟨v, w, _ | ⟨hl, _ | ⟨hr, ⟨⟩⟩⟩, rfl⟩)
    · cases hfails with
      | last hl _ => exact Run.bind_eq_ended_iff.mpr (.inr ⟨err, rfl, hl⟩)
      | next hl hrest =>
        cases hrest with
        | last hr _ =>
          refine Run.bind_eq_ended_iff.mpr (.inl ⟨_, _, hl, ?_⟩)
          exact Run.bind_eq_ended_iff.mpr (.inr ⟨err, rfl, hr⟩)
        | next _ hnone => cases hnone
    · refine Run.bind_eq_ended_iff.mpr (.inl ⟨v, _, hl, ?_⟩)
      exact Run.bind_eq_ended_iff.mpr (.inl ⟨w, m', hr, rfl⟩)

/-! ## The checks come last -/

/-- **Operands come first, checks come last, and nothing is undone.** A call ends in one of four ways. Callee
and arguments are evaluated in order, and one fails: its error is that of the call, the later ones are not
evaluated, and the machine is left as it is then. Or all of them have values, but that of the callee is not a
function, or one of another arity: then nothing is done after the last argument, and the error stands where
the call does. Or else the call does what the function does with the values of the arguments.

A binary operator ends with the error of an operand in the same way, or else as it does on the values of both,
and the machine is the one that the right operand leaves. -/
theorem Interpreter.operands_before_checks (host : Host) (bound : Nat) (pos : Pos) (m m' : Machine)
    (r : Except RuntimeError Value) :
    let ctx := Context.ofBound host bound
    (∀ callee args, evaluate host bound (.call pos callee args) m = .ended r m' ↔
      (∃ err, r = .error err ∧ Expr.FailsWith ctx (callee :: args) m err m') ∨
        ∃ f vs m₁, Expr.EvaluatesAll ctx (callee :: args) m (f :: vs) m₁ ∧
          (f.callable? = none ∧ r = .error ⟨.notCallable, pos⟩ ∧ m' = m₁ ∨
            ∃ c, f = .callable c ∧
              (args.length ≠ c.arity ∧ r = .error ⟨.arityMismatch c.arity args.length, pos⟩ ∧ m' = m₁ ∨
                args.length = c.arity ∧ call host bound c vs pos m₁ = .ended r m'))) ∧
      ∀ op left right, evaluate host bound (.binary pos op left right) m = .ended r m' ↔
        (∃ err, r = .error err ∧ Expr.FailsWith ctx [left, right] m err m') ∨
          ∃ v w, Expr.EvaluatesAll ctx [left, right] m [v, w] m' ∧
            r = (v.binary op w).mapError (⟨·, pos⟩) := by
  intro ctx
  refine ⟨fun callee args => ?_, fun op left right => Expr.eval_binary_eq_ended_iff⟩
  refine Expr.eval_call_eq_ended_iff.trans (or_congr_right ?_)
  refine exists_congr fun f => exists_congr fun vs => exists_congr fun m₁ => and_congr_right fun hall => ?_
  have hlength : vs.length = args.length := Nat.succ.inj hall.length_eq
  rw [Context.apply_eq_ended_iff, hlength]
  rfl

/-- The arguments print before it turns out that there are too many of them. -/
example :
    let echo (x : String) : Expr := .call ⟨2, 0⟩ (.variable ⟨2, 0⟩ "echo") [.literal ⟨2, 0⟩ (.string x)]
    let program : Program := [
      .function ⟨1, 0⟩ "echo" ["x"] [.print ⟨1, 0⟩ (.variable ⟨1, 0⟩ "x")],
      .expression ⟨3, 0⟩ (.call ⟨3, 0⟩ (.variable ⟨3, 0⟩ "echo") [echo "a", echo "b"])]
    (Interpreter.interpret (Native.clockHost (.ofInt 0)) 9 program .initial).failed?.map
      (fun p => (p.1, p.2.buffer.contents)) = some (⟨.arityMismatch 1 2, ⟨3, 0⟩⟩, "a\nb\n") := by
  decide +kernel

end Lox
