import Lox.Proofs.Operands.Order
import Mathlib.Data.List.Forall2

/-!
# Chains of logical operators

An expression that is put together from others by one logical operator, and parentheses, is a chain of these
(`Expr.Chain`). However they are nested, they are scanned from left to right for one that decides
(`LogicalOp.scan`), as a scan of two lists is a scan of the second after one of the first
(`LogicalOp.scan_append`).

To negate all operands and exchange the operators turns around what decides, and so the truth of the value.
-/

namespace Lox

namespace LogicalOp

def dual : LogicalOp → LogicalOp
  | .and => .or
  | .or => .and

theorem stopsAt_dual_not (op : LogicalOp) (v : Value) :
    op.dual.stopsAt (.bool !v.isTruthy) = op.stopsAt v := by
  cases op with
  | and => rfl
  | or => exact Bool.not_not _

/-- Evaluate expressions from left to right, up to one with a value that the operator stops at, or else to the
last. -/
def scan (ctx : Context) (op : LogicalOp) : Expr → List Expr → Run RuntimeError Value
  | e, [] => e.eval ctx
  | e, f :: fs => do
    let v ← e.eval ctx
    if op.stopsAt v then pure v else op.scan ctx f fs

variable {ctx : Context} {op : LogicalOp} {m m' : Machine} {r : Except RuntimeError Value}

theorem scan_append (e f : Expr) (es fs : List Expr) :
    op.scan ctx e (es ++ f :: fs) =
      op.scan ctx e es >>= fun v => if op.stopsAt v then pure v else op.scan ctx f fs := by
  induction es generalizing e with
  | nil => rfl
  | cons e' es ih =>
    rw [List.cons_append, scan, scan, ih, bind_assoc]
    congr 1
    funext v
    split
    · next hstops => rw [pure_bind, if_pos hstops]
    · rfl

/-- A scan ends at the first expression that fails or at whose value the operator stops, and if there is none
then at the last. -/
theorem scan_eq_ended_iff {e : Expr} {es : List Expr} :
    op.scan ctx e es m = .ended r m' ↔
      ∃ vs left, Expr.EvaluatesUpTo ctx (e :: es) m vs r left m' ∧
        (∀ v ∈ vs, op.stopsAt v = false) ∧ (left = [] ∨ ∀ v, r = .ok v → op.stopsAt v) := by
  induction es generalizing e m with
  | nil =>
    constructor
    · exact fun h => ⟨[], [], .last h [], by simp, .inl rfl⟩
    · rintro ⟨vs, left, hupTo, _⟩
      cases hupTo with
      | last he _ => exact he
      | next _ hnone => cases hnone
  | cons f fs ih =>
    rw [scan, Run.bind_eq_ended_iff]
    constructor
    · rintro (⟨v, m₁, he, hrest⟩ | ⟨err, rfl, he⟩)
      · split at hrest
        · next hstops =>
          cases hrest
          refine ⟨[], f :: fs, .last he _, by simp, .inr ?_⟩
          rintro _ ⟨⟩
          exact hstops
        · next hgoes =>
          obtain ⟨vs, left, hupTo, hvs, hlast⟩ := ih.mp hrest
          refine ⟨v :: vs, left, .next he hupTo, ?_, hlast⟩
          exact List.forall_mem_cons.mpr ⟨Bool.eq_false_iff.mpr hgoes, hvs⟩
      · exact ⟨[], f :: fs, .last he _, by simp, .inr nofun⟩
    · rintro ⟨vs, left, hupTo, hvs, hlast⟩
      cases hupTo with
      | last he _ =>
        cases r with
        | error err => exact .inr ⟨err, rfl, he⟩
        | ok v =>
          have hstops : op.stopsAt v := (hlast.resolve_left (List.cons_ne_nil f fs)) v rfl
          exact .inl ⟨v, m', he, by rw [if_pos hstops]; rfl⟩
      | @next _ _ _ v ws _ m₁ _ _ he hrest =>
        obtain ⟨hv, hws⟩ := List.forall_mem_cons.mp hvs
        refine .inl ⟨v, m₁, he, ?_⟩
        rw [if_neg (Bool.eq_false_iff.mp hv)]
        exact ih.mpr ⟨ws, left, hrest, hws, hlast⟩

end LogicalOp

namespace Expr

variable {ctx : Context} {op : LogicalOp}

/-- The expression is made of the others, in this order, by the operator and parentheses. -/
inductive Chain (op : LogicalOp) : Expr → List Expr → Prop
  | operand (e : Expr) : Chain op e [e]
  | group (pos : Pos) {t : Expr} {es : List Expr} (h : Chain op t es) : Chain op (.group pos t) es
  | logical (pos : Pos) {l r : Expr} {es fs : List Expr} (hl : Chain op l es) (hr : Chain op r fs) :
    Chain op (.logical pos op l r) (es ++ fs)

/-- However a chain is nested, its operands are scanned from left to right. -/
theorem Chain.eval_eq_scan {t : Expr} {es : List Expr} (h : Chain op t es) (ctx : Context) :
    ∃ e rest, es = e :: rest ∧ t.eval ctx = op.scan ctx e rest := by
  induction h with
  | operand e => exact ⟨e, [], rfl, rfl⟩
  | group pos h ih => exact ih
  | logical pos hl hr ihl ihr =>
    obtain ⟨e, es, rfl, hleft⟩ := ihl
    obtain ⟨f, fs, rfl, hright⟩ := ihr
    refine ⟨e, es ++ f :: fs, rfl, ?_⟩
    rw [LogicalOp.scan_append, ← hleft, ← hright, Expr.eval]

def Negates (f e : Expr) : Prop := ∃ pos, f = .unary pos .not e

theorem eval_not (ctx : Context) (pos : Pos) (e : Expr) :
    (Expr.unary pos .not e).eval ctx = e.eval ctx >>= fun v => pure (.bool !v.isTruthy) := by
  rw [Expr.eval]
  rfl

/-- The scan of negated operands by the other operator gives the negation. -/
theorem scan_dual_not {e f : Expr} {es fs : List Expr} (h : List.Forall₂ Negates (f :: fs) (e :: es)) :
    op.dual.scan ctx f fs = op.scan ctx e es >>= fun v => pure (.bool !v.isTruthy) := by
  induction fs generalizing e f es with
  | nil =>
    obtain ⟨⟨pos, rfl⟩, hrest⟩ := List.forall₂_cons.mp h
    cases hrest
    exact eval_not ctx pos e
  | cons f' fs ih =>
    obtain ⟨⟨pos, rfl⟩, hrest⟩ := List.forall₂_cons.mp h
    cases hrest with
    | @cons _ e' _ es hf' hfs =>
      rw [LogicalOp.scan, LogicalOp.scan, eval_not, bind_assoc, bind_assoc]
      congr 1
      funext v
      rw [pure_bind, op.stopsAt_dual_not, ih (.cons hf' hfs)]
      split <;> rfl

end Expr

/-- **Chains of `and` and `or` are scanned from left to right, however they are nested.** The operands are
evaluated in order up to the first that fails or decides, which is one with a falsy value for `and` and one
with a truthy value for `or`, or else up to the last. That one's error or value is that of the chain, and the
operands after it are not evaluated.

By De Morgan's law the negation of a chain does the same as any chain of the other operator over the negated
operands. -/
theorem Interpreter.chain_scanned (host : Host) (bound : Nat) {op : LogicalOp} {t : Expr} {es : List Expr}
    (ht : t.Chain op es) :
    (∀ m r m', evaluate host bound t m = .ended r m' ↔
        ∃ vs left, Expr.EvaluatesUpTo (.ofBound host bound) es m vs r left m' ∧
          (∀ v ∈ vs, op.stopsAt v = false) ∧ (left = [] ∨ ∀ v, r = .ok v → op.stopsAt v)) ∧
      ∀ pos u fs, List.Forall₂ Expr.Negates fs es → u.Chain op.dual fs →
        evaluate host bound (.unary pos .not t) = evaluate host bound u := by
  obtain ⟨e, rest, rfl, heval⟩ := ht.eval_eq_scan (.ofBound host bound)
  refine ⟨fun m r m' => ?_, fun pos u fs hfs hu => ?_⟩
  · rw [evaluate, heval]
    exact LogicalOp.scan_eq_ended_iff
  · obtain ⟨f, fs, rfl, hdual⟩ := hu.eval_eq_scan (.ofBound host bound)
    rw [evaluate, evaluate, Expr.eval_not, heval, hdual]
    exact (Expr.scan_dual_not hfs).symm

/-- The first is falsy, the second is truthy, and the third would fail. -/
private def operands : List Expr :=
  [.assign ⟨1, 0⟩ "x" (.literal ⟨1, 0⟩ .nil), .assign ⟨2, 0⟩ "x" (.literal ⟨2, 0⟩ (.string "yes")),
    .variable ⟨3, 0⟩ "missing"]

private def disjunction : List Expr → Expr
  | [e, f, g] => .logical ⟨4, 0⟩ .or e (.group ⟨4, 0⟩ (.logical ⟨4, 0⟩ .or f g))
  | _ => default

private def conjunction : List Expr → Expr
  | [e, f, g] => .group ⟨5, 0⟩ (.logical ⟨5, 0⟩ .and (.logical ⟨5, 0⟩ .and e f) (.group ⟨5, 0⟩ g))
  | _ => default

theorem Interpreter.chain_scanned_deciding :
    let negated := operands.map (.unary ⟨6, 0⟩ .not)
    let withX := { Machine.initial with frames := Frames.initial.define 0 "x" (.bool true) }
    let host := Native.clockHost (.ofInt 0)
    (disjunction operands).Chain .or operands ∧ (conjunction negated).Chain .and negated ∧
      List.Forall₂ Expr.Negates negated operands ∧
      (∃ v m' vs left, v.text = "yes" ∧ evaluate host 9 (disjunction operands) withX = .ended (.ok v) m' ∧
        Expr.EvaluatesUpTo (.ofBound host 9) operands withX vs (.ok v) left m') ∧
      evaluate host 9 (.unary ⟨7, 0⟩ .not (disjunction operands)) = evaluate host 9 (conjunction negated) := by
  intro negated withX host
  have hor : (disjunction operands).Chain .or operands :=
    .logical _ (.operand _) (.group _ (.logical _ (.operand _) (.operand _)))
  have hand : (conjunction negated).Chain .and negated :=
    .group _ (.logical _ (.logical _ (.operand _) (.operand _)) (.group _ (.operand _)))
  have hnegated : List.Forall₂ Expr.Negates negated operands :=
    .cons ⟨_, rfl⟩ (.cons ⟨_, rfl⟩ (.cons ⟨_, rfl⟩ .nil))
  obtain ⟨hscan, hdual⟩ := chain_scanned host 9 hor
  have hvalue : (evaluate host 9 (disjunction operands) withX).done?.map (·.1.text) = some "yes" := by
    decide +kernel
  obtain ⟨⟨v, m'⟩, hdone, htext⟩ := Option.map_eq_some_iff.mp hvalue
  have hrun := Outcome.eq_of_done? hdone
  obtain ⟨vs, left, hupTo, _⟩ := (hscan withX _ m').mp hrun
  exact ⟨hor, hand, hnegated, ⟨v, m', vs, left, htext, hrun, hupTo⟩, hdual _ _ _ hnegated hand⟩

end Lox
