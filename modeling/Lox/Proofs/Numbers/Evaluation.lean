import Lox.Interpreter
import Lox.Proofs.Numbers.Machines

/-!
# Equal programs run alike

The equality of syntax trees takes all NaNs for one, and a run cannot tell them apart either. So programs that
are equal, signed zeros aside, run alike (`Interpreter.interpret_eqUpToNaN`). The two runs go through the same
nodes, as truth values, names and function values decide the way, and none of these depends on the bits of a
NaN.
-/

namespace Lox

/-- Calls of function values that are equal but for the bits of NaNs, on such arguments, run alike. -/
def Context.BlindToNaNs (ctx : Context) : Prop :=
  ∀ f g args args' site, f.EqUpToNaN g → List.Forall₂ Value.EqUpToNaN args args' →
    Run.EqUpToNaN (· = ·) Value.EqUpToNaN (ctx.invoke f args site) (ctx.invoke g args' site)

namespace Run.EqUpToNaN

variable {α α₁ : Type} {V : α → α₁ → Prop} {ctx : Context}

theorem within {x : Run RuntimeError α} {y : Run RuntimeError α₁} (h : Run.EqUpToNaN (· = ·) V x y) :
    Run.EqUpToNaN Unwind.EqUpToNaN V x.within y.within := by
  refine .mapError h ?_
  rintro e _ rfl
  exact .error e

theorem at_pos (pos : Pos) {x : Run Fault α} {y : Run Fault α₁} (h : Run.EqUpToNaN (· = ·) V x y) :
    Run.EqUpToNaN (· = ·) V (x.at pos) (y.at pos) := by
  refine .mapError h ?_
  rintro f _ rfl
  rfl

theorem raising (pos : Pos) {r : Except Fault α} {s : Except Fault α₁} (h : BothEnd (· = ·) V r s) :
    Run.EqUpToNaN (· = ·) V (Run.raising pos r) (Run.raising pos s) := by
  refine .ofResult (h.mapError ?_)
  rintro f _ rfl
  rfl

/-! ## The evaluator -/

theorem evalList {es fs : List Expr}
    (h : List.Forall₂ (fun e f => Run.EqUpToNaN (· = ·) Value.EqUpToNaN (e.eval ctx) (f.eval ctx)) es fs) :
    Run.EqUpToNaN (· = ·) (List.Forall₂ Value.EqUpToNaN) (Expr.evalList ctx es)
      (Expr.evalList ctx fs) := by
  induction h with
  | nil => exact .pure .nil
  | cons he _ ih =>
    rw [Expr.evalList, Expr.evalList]
    exact .bind he fun v w hv => .bind ih fun vs ws hvs => .pure (.cons hv hvs)

theorem execList_of_forall {ss ts : List Stmt}
    (h : List.Forall₂ (fun s t =>
      Run.EqUpToNaN Unwind.EqUpToNaN (fun _ _ => True) (s.exec ctx) (t.exec ctx)) ss ts) :
    Run.EqUpToNaN Unwind.EqUpToNaN (fun _ _ => True) (Stmt.execList ctx ss) (Stmt.execList ctx ts) := by
  induction h with
  | nil => exact .pure trivial
  | cons hs _ ih =>
    rw [Stmt.execList, Stmt.execList]
    exact .bind hs fun _ _ _ => ih

variable (hctx : ctx.BlindToNaNs)
include hctx

theorem apply (pos : Pos) {v w : Value} (hv : v.EqUpToNaN w) {args args' : List Value}
    (hargs : List.Forall₂ Value.EqUpToNaN args args') :
    Run.EqUpToNaN (· = ·) Value.EqUpToNaN (ctx.apply pos v args) (ctx.apply pos w args') := by
  cases hv with
  | @callable f g hfg =>
    rw [Context.apply, Context.apply, hfg.resembles.arity, hargs.length_eq]
    split
    · exact hctx f g args args' pos hfg hargs
    · exact .fail rfl
  | nil | bool _ | number _ | string _ => exact .fail rfl

theorem eval {e f : Expr} (h : e.EqUpTo Number.EqUpToNaN f) :
    Run.EqUpToNaN (· = ·) Value.EqUpToNaN (e.eval ctx) (f.eval ctx) := by
  induction h with
  | literal pos h => exact .pure (.literal h)
  | group pos _ ih => exact ih
  | unary pos op _ ih => exact .bind ih fun v w hv => raising pos (hv.unary op)
  | binary pos op _ _ ihl ihr =>
    exact .bind ihl fun v w hv => .bind ihr fun v' w' hv' => raising pos (hv.binary hv' op)
  | logical pos op _ _ ihl ihr =>
    rw [Expr.eval, Expr.eval]
    refine .bind ihl fun v w hv => ?_
    have hstops : op.stopsAt v = op.stopsAt w := by
      cases op <;> rw [LogicalOp.stopsAt, LogicalOp.stopsAt, hv.isTruthy]
    rw [hstops]
    split
    · exact .pure hv
    · exact ihr
  | var pos x => exact at_pos pos (lookup x)
  | assign pos x _ ih =>
    exact .bind ih fun v w hv => .bind (at_pos pos (assign x hv)) fun _ _ _ => .pure hv
  | call pos _ hlength _ ihf ihargs =>
    have hall := evalList (List.forall₂_iff_zip.mpr ⟨hlength, fun ha => ihargs _ _ ha⟩)
    rw [Expr.eval, Expr.eval]
    exact .bind ihf fun v w hv => .bind hall fun vs ws hvs => apply hctx pos hv hvs

theorem evalOption {o o' : Option Expr} (h : Option.Rel (Expr.EqUpTo Number.EqUpToNaN) o o') :
    Run.EqUpToNaN (· = ·) Value.EqUpToNaN (Expr.evalOption ctx o) (Expr.evalOption ctx o') := by
  cases h with
  | none => exact .pure .nil
  | some h => exact eval hctx h

theorem exec {s t : Stmt} (h : s.EqUpTo Number.EqUpToNaN t) :
    Run.EqUpToNaN Unwind.EqUpToNaN (fun _ _ => True) (s.exec ctx) (t.exec ctx) := by
  induction h with
  | expression pos h => exact .bind (within (eval hctx h)) fun _ _ _ => .pure trivial
  | print pos h =>
    refine .bind (within (eval hctx h)) fun v w hv => ?_
    rw [hv.text]
    exact print _
  | declare pos x h => exact .bind (within (evalOption hctx h)) fun v w hv => defineHere x hv
  | block pos hlength _ ih =>
    have hall := execList_of_forall (List.forall₂_iff_zip.mpr ⟨hlength, fun hs => ih _ _ hs⟩)
    rw [Stmt.exec, Stmt.exec]
    refine .bind current ?_
    rintro parent _ rfl
    refine .bind (openScope parent) ?_
    rintro f _ rfl
    exact inScope hall f
  | ifThen pos htest _ iht =>
    rw [Stmt.exec, Stmt.exec]
    refine .bind (within (eval hctx htest)) fun v w hv => ?_
    rw [hv.isTruthy]
    split
    · exact iht
    · exact .pure trivial
  | ifElse pos htest _ _ iht ihf =>
    rw [Stmt.exec, Stmt.exec]
    refine .bind (within (eval hctx htest)) fun v w hv => ?_
    rw [hv.isTruthy]
    split
    · exact iht
    · exact ihf
  | loop pos htest _ ih =>
    rw [Stmt.exec, Stmt.exec]
    refine .repeatWhile (.bind (within (eval hctx htest)) fun v w hv => ?_) _
    rw [hv.isTruthy]
    split
    · exact .bind ih fun _ _ _ => .pure rfl
    · exact .pure rfl
  | function pos name params hlength hbody _ =>
    have hbodies := Program.eqUpToNaN_iff.mpr (List.forall₂_iff_zip.mpr ⟨hlength, fun hs => hbody _ _ hs⟩)
    rw [Stmt.exec, Stmt.exec]
    refine .bind current ?_
    rintro scope _ rfl
    refine .bind (newCallable fun id => .closure id name params scope hbodies) fun f g hfg => ?_
    exact defineHere name (.callable hfg)
  | ret pos h => exact .bind (within (evalOption hctx h)) fun v w hv => .fail (.return hv)

theorem execList {p q : Program} (h : Program.EqUpToNaN p q) :
    Run.EqUpToNaN Unwind.EqUpToNaN (fun _ _ => True) (Stmt.execList ctx p) (Stmt.execList ctx q) :=
  execList_of_forall ((Program.eqUpToNaN_iff.mp h).imp fun _ _ hs => exec hctx hs)

/-! ## Calls -/

theorem callFunction (name : String) (params : List String) (scope : FrameId) {body body' : Program}
    (hbody : Program.EqUpToNaN body body') {args args' : List Value}
    (hargs : List.Forall₂ Value.EqUpToNaN args args') :
    Run.EqUpToNaN (· = ·) Value.EqUpToNaN (Function.call ctx ⟨name, params, body⟩ scope args)
      (Function.call ctx ⟨name, params, body'⟩ scope args') := by
  refine .bind (openScope scope) ?_
  rintro frame _ rfl
  refine .bind (bindAll frame params hargs) fun _ _ _ => ?_
  refine .continueWith (inScope (execList hctx hbody) frame) ?_
  rintro (u | _) (u' | _) h
  · cases h with
    | error e => exact .fail rfl
    | «return» hv => exact .pure hv
  · exact h.elim
  · exact h.elim
  · exact .pure .nil

theorem perform {a a' : Action} (h : a.EqUpToNaN a') (site : Pos) :
    Run.EqUpToNaN (· = ·) Value.EqUpToNaN (a.perform ctx site) (a'.perform ctx site) := by
  induction h with
  | finish h => exact raising site h
  | print text _ ih => exact .bind (print text) fun _ _ _ => ih
  | depth _ ih =>
    refine .bind depth ?_
    rintro n _ rfl
    exact ih n
  | lookup name _ ih => exact .continueWith (lookup name) fun r r' hr => ih r r' hr
  | assign name hv _ ih =>
    refine .continueWith (assign name hv) ?_
    rintro (f | _) (f' | _) hr
    · cases hr
      exact ih _
    · exact hr.elim
    · exact hr.elim
    · exact ih _
  | define place name hv _ ih =>
    refine .bind (Run.EqUpToNaN.place place) ?_
    rintro f _ rfl
    exact .bind (define f name hv) fun _ _ _ => ih
  | call hf hargs inner _ ih =>
    refine .continueWith (hctx _ _ _ _ inner hf hargs) fun r r' hr => ih _ _ (hr.mapError ?_)
    rintro e _ rfl
    rfl
  | execute place hbody _ ih =>
    refine .bind (Run.EqUpToNaN.place place) ?_
    rintro f _ rfl
    refine .continueWith (inScope (execList hctx hbody) f) fun r r' hr => ih r r' ?_
    exact hr.mono (fun _ _ h => h) fun _ _ _ => rfl

omit hctx

/-- Calls run alike, by induction on the number of calls that may be open. -/
theorem calls {host : Host} (blind : host.BlindToNaNs) (bound : Nat) :
    Context.BlindToNaNs (.ofBound host bound) := by
  induction bound with
  | zero => exact fun _ _ _ _ _ _ _ => .exhausted
  | succ bound ih =>
    intro f g args args' site hfg hargs
    cases hfg with
    | native id fn => exact perform ih (blind fn args args' hargs) site
    | closure id name params scope hbody => exact callFunction ih name params scope hbody hargs

theorem interpret {host : Host} (blind : host.BlindToNaNs) (bound : Nat) {p q : Program}
    (h : Program.EqUpToNaN p q) :
    Run.EqUpToNaN (· = ·) (· = ·) (Interpreter.interpret host bound p)
      (Interpreter.interpret host bound q) := by
  refine .continueWith (execList (calls blind bound) h) ?_
  rintro (u | _) (u' | _) hr
  · cases hr with
    | error e => exact .fail rfl
    | «return» hv => exact .pure rfl
  · exact hr.elim
  · exact hr.elim
  · exact .pure rfl

end Run.EqUpToNaN

/-- **Equal programs run alike, signed zeros aside.** Let two programs be equal syntax trees, and let number
literals at corresponding places that are both zero have the same sign. Then from any machine both end or
both do not, with the same result: without an error, or with the same error at the same position. They print
the same, and leave the same frames, with the same names in them. The values of these are equal but for the
bits of NaNs, and function values are captured in the same frame, and declared by syntax trees that are equal
in the way that the programs are. Native functions are taken not to distinguish NaNs. -/
theorem Interpreter.interpret_eqUpToNaN (host : Host) (blind : host.BlindToNaNs) (bound : Nat)
    (p q : Program) (h : Program.EqUpToNaN p q) (m : Machine) :
    (interpret host bound p m).Rel (fun r m' s n' => r = s ∧ m'.EqUpToNaN n' ∧
      ∀ f, m'.frames.names f = n'.frames.names f) (interpret host bound q m) := by
  refine (Run.EqUpToNaN.interpret blind bound h m m (.refl m)).mono ?_
  rintro r m' s n' ⟨hmachines, hresults⟩
  refine ⟨?_, hmachines, hmachines.frames.names⟩
  cases r <;> cases s
  · exact congrArg Except.error hresults
  · exact hresults.elim
  · exact hresults.elim
  · rfl

/-- A program that keeps a NaN, and a function with one in its body. It compares them, has the other one
printed by a native function, and fails in the end. -/
private def keeping (x : Number) : Program :=
  let lit (line : Nat) : Expr := .literal ⟨line, 0⟩ (.number x)
  let zero (line : Nat) : Expr := .literal ⟨line, 0⟩ (.number ⟨0x8000000000000000⟩)
  let read (line : Nat) (name : String) : Expr := .variable ⟨line, 0⟩ name
  [.declare ⟨1, 0⟩ "kept" (some (.unary ⟨1, 0⟩ .negate (lit 1))),
    .function ⟨2, 0⟩ "f" ["y"] [
      .print ⟨3, 0⟩ (.binary ⟨3, 0⟩ .equal (read 3 "y") (lit 3)),
      .return ⟨4, 0⟩ (some (.binary ⟨4, 0⟩ .add (lit 4) (zero 4)))],
    .expression ⟨5, 0⟩ (.call ⟨5, 0⟩ (read 5 "echo") [.call ⟨5, 0⟩ (read 5 "f") [read 5 "kept"]]),
    .expression ⟨6, 0⟩ (.unary ⟨6, 0⟩ .negate (read 6 "f"))]

private def withEcho : Machine :=
  { Machine.initial with
    frames := Frames.initial.define 0 "echo" (.callable ⟨0, .native ⟨"echo", 1⟩⟩)
    nextId := 1 }

theorem Interpreter.interpret_eqUpToNaN_payloads :
    let host := Native.Toolkit.host (.ofInt 0)
    let x : Number := ⟨0x7ff8000000000001⟩
    let y : Number := ⟨0xfff0000000000002⟩
    host.BlindToNaNs ∧ Program.EqUpToNaN (keeping x) (keeping y) ∧
      ∃ m' n', interpret host 9 (keeping x) withEcho = .ended (.error ⟨.operandNotNumber, ⟨6, 0⟩⟩) m' ∧
        interpret host 9 (keeping y) withEcho = .ended (.error ⟨.operandNotNumber, ⟨6, 0⟩⟩) n' ∧
        n'.buffer.contents = "false\nNaN\n" ∧ m'.frames.own? 0 "kept" = some (.number (-x)) ∧
        n'.frames.own? 0 "kept" = some (.number (-y)) ∧ m'.EqUpToNaN n' := by
  intro host x y
  have hprograms : Program.EqUpToNaN (keeping x) (keeping y) := by
    have hsigns : ∀ z ∈ (keeping x).numbers.zip (keeping y).numbers,
        z.1.isZero → z.2.isZero → z.1.isNegative = z.2.isNegative := by decide +kernel
    exact ⟨by decide +kernel, fun a b hab => hsigns (a, b) hab⟩
  have failed : (interpret host 9 (keeping x) withEcho).failed?.map
      (fun p => (p.1, p.2.buffer.contents)) = some (⟨.operandNotNumber, ⟨6, 0⟩⟩, "false\nNaN\n") := by
    decide +kernel
  obtain ⟨⟨e, m'⟩, hfailed, hseen⟩ := Option.map_eq_some_iff.mp failed
  obtain ⟨rfl, hprinted⟩ := Prod.mk.inj hseen
  have hrun := Outcome.eq_of_failed? hfailed
  have halike := interpret_eqUpToNaN host (Native.Toolkit.blind _) 9 _ _ hprograms withEcho
  rw [hrun] at halike
  obtain ⟨_, _, _, n', hx, hy, ⟨rfl, hmachines, _⟩⟩ | ⟨hx, _⟩ := halike.cases
  · cases hx
    have hkept : (interpret host 9 (keeping x) withEcho).final?.bind (·.frames.own? 0 "kept") =
        some (.number (-x)) := by rfl
    have hkept' : (interpret host 9 (keeping y) withEcho).final?.bind (·.frames.own? 0 "kept") =
        some (.number (-y)) := by rfl
    rw [hrun] at hkept
    rw [hy] at hkept'
    exact ⟨Native.Toolkit.blind _, hprograms, m', n', hrun, hy, hmachines.buffer ▸ hprinted, hkept, hkept',
      hmachines⟩
  · cases hx

end Lox
