import Lox.Interpreter
import Lox.Proofs.Base.Induction
import Lox.Proofs.Base.Outcome

/-!
# The bound does not show

The bound on the work of a run stands for nothing in a program. A larger bound never changes how a run
ends: the run with the smaller bound is exhausted, or both are the same (`Run.Refines`). All ways to
combine runs preserve this, so it goes from the calls and the rounds of loops, where the bound is used,
to all of the evaluator.
-/

namespace Lox

variable {ε ε' α β : Type}

/-- From each machine the runs are the same, unless the first is exhausted. -/
def Run.Refines (x y : Run ε α) : Prop := ∀ m, x m = .exhausted ∨ x m = y m

namespace Run.Refines

theorem refl (x : Run ε α) : x.Refines x := fun _ => .inr rfl

theorem of_exhausted (y : Run ε α) : Run.exhausted.Refines y := fun _ => .inl rfl

theorem ended {x y : Run ε α} (h : x.Refines y) {m m' : Machine} {r : Except ε α}
    (hx : x m = .ended r m') : y m = .ended r m' := by
  rcases h m with he | he
  · rw [hx] at he; cases he
  · rw [← he, hx]

theorem continueWith {x y : Run ε α} {f g : Except ε α → Run ε' β} (h : x.Refines y)
    (hfg : ∀ r, (f r).Refines (g r)) : (x.continueWith f).Refines (y.continueWith g) := by
  intro m
  simp only [Run.continueWith]
  cases hx : x m with
  | exhausted => exact .inl rfl
  | ended r m' =>
    rw [h.ended hx]
    exact hfg r m'

theorem bind {x y : Run ε α} {f g : α → Run ε β} (h : x.Refines y)
    (hfg : ∀ a, (f a).Refines (g a)) : (x >>= f).Refines (y >>= g) := by
  rw [Run.bind_eq_continueWith, Run.bind_eq_continueWith]
  refine continueWith h ?_
  rintro (e | a)
  · exact refl _
  · exact hfg a

theorem mapError {x y : Run ε α} (h : x.Refines y) (f : ε → ε') :
    (x.mapError f).Refines (y.mapError f) := continueWith h fun _ => refl _

theorem inScope {x y : Run ε α} (h : x.Refines y) (f : FrameId) :
    (Run.inScope f x).Refines (Run.inScope f y) := by
  intro m
  simp only [Run.inScope]
  cases hx : x { m with current := f } with
  | exhausted => exact .inl rfl
  | ended r m' =>
    rw [h.ended hx]
    exact .inr rfl

theorem repeatWhile {round round' : Run ε Bool} (h : round.Refines round') {n k : Nat} (hnk : n ≤ k) :
    (Run.repeatWhile round n).Refines (Run.repeatWhile round' k) := by
  induction n generalizing k with
  | zero => exact of_exhausted _
  | succ n ih =>
    obtain ⟨k, rfl⟩ : ∃ l, k = l + 1 := ⟨k - 1, by omega⟩
    rw [Run.repeatWhile_succ, Run.repeatWhile_succ]
    refine bind h fun again => ?_
    split
    · exact ih (by omega)
    · exact refl _

end Run.Refines

/-! ## The evaluator -/

/-- Calls are refined, and loops may make at least as many rounds. -/
structure Context.Refines (ctx ctx' : Context) : Prop where
  invoke : ∀ f vs pos, (ctx.invoke f vs pos).Refines (ctx'.invoke f vs pos)
  rounds : ctx.rounds ≤ ctx'.rounds

section evaluator

variable {ctx ctx' : Context}

theorem Expr.evalList_refines {es : List Expr} (h : ∀ e ∈ es, (e.eval ctx).Refines (e.eval ctx')) :
    (Expr.evalList ctx es).Refines (Expr.evalList ctx' es) := by
  induction es with
  | nil => exact .refl _
  | cons e es ih =>
    rw [Expr.evalList, Expr.evalList]
    refine .bind (h e (by simp)) fun v => ?_
    exact .bind (ih fun e he => h e (by simp [he])) fun _ => .refl _

theorem Stmt.execList_refines_of_forall {ss : List Stmt}
    (h : ∀ s ∈ ss, (s.exec ctx).Refines (s.exec ctx')) :
    (Stmt.execList ctx ss).Refines (Stmt.execList ctx' ss) := by
  induction ss with
  | nil => exact .refl _
  | cons s ss ih =>
    rw [Stmt.execList, Stmt.execList]
    exact .bind (h s (by simp)) fun _ => ih fun s hs => h s (by simp [hs])

variable (hctx : ctx.Refines ctx')
include hctx

theorem Context.Refines.apply (pos : Pos) (callee : Value) (args : List Value) :
    (ctx.apply pos callee args).Refines (ctx'.apply pos callee args) := by
  unfold Context.apply
  split
  · split
    · exact hctx.invoke _ _ _
    · exact .refl _
  · exact .refl _

theorem Expr.eval_refines (e : Expr) : (e.eval ctx).Refines (e.eval ctx') := by
  induction e with
  | literal pos x => exact .refl _
  | group pos e ih => exact ih
  | unary pos op e ih => exact .bind ih fun _ => .refl _
  | binary pos op l r ihl ihr => exact .bind ihl fun _ => .bind ihr fun _ => .refl _
  | logical pos op l r ihl ihr =>
    rw [Expr.eval, Expr.eval]
    refine .bind ihl fun v => ?_
    split
    · exact .refl _
    · exact ihr
  | var pos name => exact .refl _
  | assign pos name e ih => exact .bind ih fun _ => .refl _
  | call pos callee args ihf ihargs =>
    rw [Expr.eval, Expr.eval]
    refine .bind ihf fun f => .bind (Expr.evalList_refines ihargs) fun vs => ?_
    exact hctx.apply pos f vs

theorem Expr.evalOption_refines (o : Option Expr) :
    (Expr.evalOption ctx o).Refines (Expr.evalOption ctx' o) := by
  cases o with
  | none => exact .refl _
  | some e => exact Expr.eval_refines hctx e

theorem Stmt.exec_refines (s : Stmt) : (s.exec ctx).Refines (s.exec ctx') := by
  have eval (e : Expr) : (e.eval ctx).within.Refines (e.eval ctx').within :=
    .mapError (Expr.eval_refines hctx e) _
  induction s with
  | expression pos e => exact .bind (eval e) fun _ => .refl _
  | print pos e => exact .bind (eval e) fun _ => .refl _
  | declare pos name initial =>
    exact .bind (.mapError (Expr.evalOption_refines hctx initial) _) fun _ => .refl _
  | block pos body ih =>
    rw [Stmt.exec, Stmt.exec]
    refine .bind (.refl _) fun c => .bind (.refl _) fun f => ?_
    exact .inScope (Stmt.execList_refines_of_forall ih) f
  | cond pos test onTrue onFalse iht ihf =>
    rw [Stmt.exec, Stmt.exec]
    refine .bind (eval test) fun v => ?_
    split
    · exact iht
    · cases onFalse with
      | none => exact .refl _
      | some s => exact ihf s rfl
  | loop pos test body ih =>
    rw [Stmt.exec, Stmt.exec]
    refine .repeatWhile (.bind (eval test) fun v => ?_) hctx.rounds
    split
    · exact .bind ih fun _ => .refl _
    · exact .refl _
  | function pos name params body ih => exact .refl _
  | ret pos value =>
    exact .bind (.mapError (Expr.evalOption_refines hctx value) _) fun _ => .refl _

theorem Stmt.execList_refines (ss : List Stmt) :
    (Stmt.execList ctx ss).Refines (Stmt.execList ctx' ss) :=
  Stmt.execList_refines_of_forall fun s _ => Stmt.exec_refines hctx s

theorem Function.call_refines (fn : Function) (scope : FrameId) (args : List Value) :
    (fn.call ctx scope args).Refines (fn.call ctx' scope args) := by
  refine .bind (.refl _) fun frame => .bind (.refl _) fun _ => ?_
  exact .continueWith (.inScope (Stmt.execList_refines hctx fn.body) frame) fun _ => .refl _

theorem Action.perform_refines (site : Pos) (a : Action) :
    (a.perform ctx site).Refines (a.perform ctx' site) := by
  induction a with
  | finish r => exact .refl _
  | print text next ih => exact .bind (.refl _) fun _ => ih
  | depth next ih => exact .bind (.refl _) fun n => ih n
  | lookup name next ih => exact .continueWith (.refl _) fun r => ih r
  | assign name v next ih => exact .continueWith (.refl _) fun r => ih r
  | define place name v next ih => exact .bind (.refl _) fun f => .bind (.refl _) fun _ => ih
  | call f vs inner next ih => exact .continueWith (hctx.invoke f vs inner) fun r => ih _
  | execute place body next ih =>
    refine .bind (.refl _) fun f => ?_
    exact .continueWith (.inScope (Stmt.execList_refines hctx body) f) fun r => ih r

end evaluator

theorem Callable.call_refines (host : Host) {n k : Nat} (hnk : n ≤ k) (f : Callable)
    (args : List Value) (site : Pos) :
    (f.call host n args site).Refines (f.call host k args site) := by
  induction n generalizing k f args site with
  | zero => exact .of_exhausted _
  | succ n ih =>
    obtain ⟨k, rfl⟩ : ∃ l, k = l + 1 := ⟨k - 1, by omega⟩
    have hle : n ≤ k := by omega
    have hctx : Context.Refines ⟨Callable.call host n, n⟩ ⟨Callable.call host k, k⟩ := ⟨ih hle, hle⟩
    rw [Callable.call, Callable.call]
    split
    · exact Function.call_refines hctx _ _ args
    · exact Action.perform_refines hctx site _

theorem Context.ofBound_refines (host : Host) {n k : Nat} (hnk : n ≤ k) :
    (Context.ofBound host n).Refines (.ofBound host k) := ⟨Callable.call_refines host hnk, hnk⟩

theorem Interpreter.interpret_refines (host : Host) {n k : Nat} (hnk : n ≤ k) (p : Program) :
    (interpret host n p).Refines (interpret host k p) :=
  .continueWith (Stmt.execList_refines (Context.ofBound_refines host hnk) p) fun _ => .refl _

end Lox
