import Lox.Syntax.Basic

/-!
# Induction on syntax trees

Expressions and statements are nested in lists and options of themselves. The two principles below
give, in the case of a node with a list below it, the induction hypothesis for every member of the list.
-/

namespace Lox

@[elab_as_elim, induction_eliminator]
theorem Expr.induction {P : Expr → Prop}
    (literal : ∀ pos x, P (.literal pos x))
    (group : ∀ pos e, P e → P (.group pos e))
    (unary : ∀ pos op e, P e → P (.unary pos op e))
    (binary : ∀ pos op l r, P l → P r → P (.binary pos op l r))
    (logical : ∀ pos op l r, P l → P r → P (.logical pos op l r))
    (var : ∀ pos name, P (.variable pos name))
    (assign : ∀ pos name e, P e → P (.assign pos name e))
    (call : ∀ pos callee args, P callee → (∀ a ∈ args, P a) → P (.call pos callee args))
    (e : Expr) : P e :=
  Expr.rec (motive_2 := fun es => ∀ e ∈ es, P e) literal group unary binary logical var assign call
    (by simp) (by simp_all) e

@[elab_as_elim, induction_eliminator]
theorem Stmt.induction {P : Stmt → Prop}
    (expression : ∀ pos e, P (.expression pos e))
    (print : ∀ pos e, P (.print pos e))
    (declare : ∀ pos name initial, P (.declare pos name initial))
    (block : ∀ pos body, (∀ s ∈ body, P s) → P (.block pos body))
    (cond : ∀ pos test onTrue onFalse, P onTrue → (∀ s ∈ onFalse, P s) →
      P (.cond pos test onTrue onFalse))
    (loop : ∀ pos test body, P body → P (.loop pos test body))
    (function : ∀ pos name params body, (∀ s ∈ body, P s) → P (.function pos name params body))
    (ret : ∀ pos value, P (.return pos value))
    (s : Stmt) : P s :=
  Stmt.rec (motive_2 := fun ss => ∀ s ∈ ss, P s) (motive_3 := fun o => ∀ s ∈ o, P s)
    expression print declare block cond loop function ret (by simp) (by simp_all) (by simp) (by simp) s

end Lox
