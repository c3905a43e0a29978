import Lox.Proofs.Base.Induction
import Mathlib.Data.List.Forall2

/-!
# Programs that match

Two programs match if they differ in names, positions and parentheses only, as far as a `Translation`
allows. What a name of one program is called in the other may depend on the frame that code runs in, so
there are kinds of frames, and code is matched for a kind. A scope that is opened in a frame may be of
another kind.

In the rules for nodes with a list below them, the two lists are equally long and their members match.
-/

namespace Lox

/-- How names and positions of one program are replaced in another. -/
structure Translation where
  /-- The kinds of frames that code runs in. -/
  Kind : Type
  /-- In code of this kind the first name is replaced by the second. -/
  names : Kind → String → String → Prop
  /-- Code of this kind may bind names in the frame that it runs in. -/
  declares : Kind → Prop
  /-- In frames of the first kind scopes of the second kind are opened, for parameters that are replaced
  by others. -/
  enters : Kind → List String → List String → Kind → Prop
  arity : ∀ {k k' params params'}, enters k params params' k' → params.length = params'.length
  /-- The first position is replaced by the second. -/
  positions : Pos → Pos → Prop
  /-- The first declaration may be replaced by the second, besides that their bodies match. -/
  functions : Function → Function → Prop := fun _ _ => True

/-- The expressions match in code of the kind `k`. -/
inductive Expr.Matches (T : Translation) (k : T.Kind) : Expr → Expr → Prop
  | literal (pos pos' : Pos) (x : Literal) : Matches T k (.literal pos x) (.literal pos' x)
  | groupLeft (pos : Pos) {e e' : Expr} (h : Matches T k e e') : Matches T k (.group pos e) e'
  | groupRight (pos : Pos) {e e' : Expr} (h : Matches T k e e') : Matches T k e (.group pos e')
  | unary {pos pos' : Pos} (op : UnaryOp) {e e' : Expr} (hpos : T.positions pos pos')
    (h : Matches T k e e') : Matches T k (.unary pos op e) (.unary pos' op e')
  | binary {pos pos' : Pos} (op : BinaryOp) {l l' r r' : Expr} (hpos : T.positions pos pos')
    (hl : Matches T k l l') (hr : Matches T k r r') :
    Matches T k (.binary pos op l r) (.binary pos' op l' r')
  | logical (pos pos' : Pos) (op : LogicalOp) {l l' r r' : Expr} (hl : Matches T k l l')
    (hr : Matches T k r r') : Matches T k (.logical pos op l r) (.logical pos' op l' r')
  | var {pos pos' : Pos} {x y : String} (hpos : T.positions pos pos') (hname : T.names k x y) :
    Matches T k (.variable pos x) (.variable pos' y)
  | assign {pos pos' : Pos} {x y : String} {e e' : Expr} (hpos : T.positions pos pos')
    (hname : T.names k x y) (h : Matches T k e e') : Matches T k (.assign pos x e) (.assign pos' y e')
  | call {pos pos' : Pos} {callee callee' : Expr} {args args' : List Expr}
    (hpos : T.positions pos pos') (hcallee : Matches T k callee callee')
    (hlength : args.length = args'.length)
    (hargs : ∀ a a', (a, a') ∈ args.zip args' → Matches T k a a') :
    Matches T k (.call pos callee args) (.call pos' callee' args')

/-- The statements match in code of the kind `k`. -/
inductive Stmt.Matches (T : Translation) : T.Kind → Stmt → Stmt → Prop
  | expression {k : T.Kind} (pos pos' : Pos) {e e' : Expr} (h : e.Matches T k e') :
    Matches T k (.expression pos e) (.expression pos' e')
  | print {k : T.Kind} (pos pos' : Pos) {e e' : Expr} (h : e.Matches T k e') :
    Matches T k (.print pos e) (.print pos' e')
  | declare {k : T.Kind} (pos pos' : Pos) {x y : String} {initial initial' : Option Expr}
    (hdeclares : T.declares k) (hname : T.names k x y)
    (h : Option.Rel (Expr.Matches T k) initial initial') :
    Matches T k (.declare pos x initial) (.declare pos' y initial')
  | block {k k' : T.Kind} (pos pos' : Pos) {body body' : List Stmt} (henters : T.enters k [] [] k')
    (hlength : body.length = body'.length)
    (hbody : ∀ s s', (s, s') ∈ body.zip body' → Matches T k' s s') :
    Matches T k (.block pos body) (.block pos' body')
  | ifThen {k : T.Kind} (pos pos' : Pos) {test test' : Expr} {onTrue onTrue' : Stmt}
    (htest : test.Matches T k test') (htrue : Matches T k onTrue onTrue') :
    Matches T k (.cond pos test onTrue none) (.cond pos' test' onTrue' none)
  | ifElse {k : T.Kind} (pos pos' : Pos) {test test' : Expr} {onTrue onTrue' onFalse onFalse' : Stmt}
    (htest : test.Matches T k test') (htrue : Matches T k onTrue onTrue')
    (hfalse : Matches T k onFalse onFalse') :
    Matches T k (.cond pos test onTrue (some onFalse)) (.cond pos' test' onTrue' (some onFalse'))
  | loop {k : T.Kind} (pos pos' : Pos) {test test' : Expr} {body body' : Stmt}
    (htest : test.Matches T k test') (hbody : Matches T k body body') :
    Matches T k (.loop pos test body) (.loop pos' test' body')
  -- The name of a function shows when it is printed, so it stays.
  | function {k k' : T.Kind} (pos pos' : Pos) {name : String} {params params' : List String}
    {body body' : List Stmt} (hdeclares : T.declares k) (hname : T.names k name name)
    (hfn : T.functions ⟨name, params, body⟩ ⟨name, params', body'⟩)
    (henters : T.enters k params params' k') (hlength : body.length = body'.length)
    (hbody : ∀ s s', (s, s') ∈ body.zip body' → Matches T k' s s') :
    Matches T k (.function pos name params body) (.function pos' name params' body')
  | ret {k : T.Kind} (pos pos' : Pos) {value value' : Option Expr}
    (h : Option.Rel (Expr.Matches T k) value value') :
    Matches T k (.return pos value) (.return pos' value')

variable {T : Translation} {k k' : T.Kind}

theorem Expr.Matches.call_all {pos pos' : Pos} {callee callee' : Expr} {args args' : List Expr}
    (hpos : T.positions pos pos') (hcallee : callee.Matches T k callee')
    (hargs : List.Forall₂ (Expr.Matches T k) args args') :
    (Expr.call pos callee args).Matches T k (.call pos' callee' args') := by
  obtain ⟨hlength, hargs⟩ := List.forall₂_iff_zip.mp hargs
  exact .call hpos hcallee hlength fun _ _ h => hargs h

/-- An expression matches itself if names and positions may stay. -/
theorem Expr.matches_refl (hpos : ∀ pos, T.positions pos pos) (hnames : ∀ x, T.names k x x) (e : Expr) :
    e.Matches T k e := by
  induction e with
  | literal pos x => exact .literal pos pos x
  | group pos e ih => exact .groupLeft pos (.groupRight pos ih)
  | unary pos op e ih => exact .unary op (hpos pos) ih
  | binary pos op l r ihl ihr => exact .binary op (hpos pos) ihl ihr
  | logical pos op l r ihl ihr => exact .logical pos pos op ihl ihr
  | var pos x => exact .var (hpos pos) (hnames x)
  | assign pos x e ih => exact .assign (hpos pos) (hnames x) ih
  | call pos callee args ihf ihargs => exact .call_all (hpos pos) ihf (List.forall₂_same.mpr ihargs)

theorem Stmt.Matches.block_all (pos pos' : Pos) {body body' : List Stmt}
    (henters : T.enters k [] [] k') (hbody : List.Forall₂ (Stmt.Matches T k') body body') :
    (Stmt.block pos body).Matches T k (.block pos' body') := by
  obtain ⟨hlength, hbody⟩ := List.forall₂_iff_zip.mp hbody
  exact .block pos pos' henters hlength fun _ _ h => hbody h

theorem Stmt.Matches.function_all (pos pos' : Pos) {name : String} {params params' : List String}
    {body body' : List Stmt} (hdeclares : T.declares k) (hname : T.names k name name)
    (hfn : T.functions ⟨name, params, body⟩ ⟨name, params', body'⟩)
    (henters : T.enters k params params' k') (hbody : List.Forall₂ (Stmt.Matches T k') body body') :
    (Stmt.function pos name params body).Matches T k (.function pos' name params' body') := by
  obtain ⟨hlength, hbody⟩ := List.forall₂_iff_zip.mp hbody
  exact .function pos pos' hdeclares hname hfn henters hlength fun _ _ h => hbody h

end Lox
