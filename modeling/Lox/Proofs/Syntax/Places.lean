import Lox.Proofs.Base.Induction

/-!
# Places in a syntax tree

A node of a syntax tree has a mark, which is all that it holds besides the nodes right below it, its parts: its
position, what kind of node it is, its operator, names or literal, and how many parts it has in a list, or
whether it has an optional one. A place in the tree is the way down to it, from part to part (`Tree.at?`).

Trees are equal if and only if they have the same marks at the same places (`Tree.eq_iff_marks`). So the marks
leave nothing out.
-/

namespace Lox

/-- A syntax tree of any of the three sorts. -/
inductive Tree where
  | expr (e : Expr)
  | stmt (s : Stmt)
  | program (p : Program)

namespace Tree

/-- What a node is, less its position and its parts. -/
inductive Kind where
  | literal (value : Literal)
  | group
  | unary (op : UnaryOp)
  | binary (op : BinaryOp)
  | logical (op : LogicalOp)
  | variable (name : String)
  | assign (target : String)
  | call (arguments : Nat)
  | expression
  | print
  | declare (name : String) (initialized : Bool)
  | block (length : Nat)
  | cond (hasElse : Bool)
  | loop
  | function (name : String) (params : List String) (length : Nat)
  | return (hasValue : Bool)
  | program (length : Nat)

/-- The mark of a node: its position, which a program lacks, and what it is. -/
abbrev Mark : Type := Option Pos × Kind

end Tree

def Expr.kind : Expr → Tree.Kind
  | .literal _ x => .literal x
  | .group _ _ => .group
  | .unary _ op _ => .unary op
  | .binary _ op _ _ => .binary op
  | .logical _ op _ _ => .logical op
  | .variable _ x => .variable x
  | .assign _ x _ => .assign x
  | .call _ _ args => .call args.length

/-- The expressions right below an expression. -/
def Expr.parts : Expr → List Expr
  | .literal _ _ | .variable _ _ => []
  | .group _ e | .unary _ _ e | .assign _ _ e => [e]
  | .binary _ _ l r | .logical _ _ l r => [l, r]
  | .call _ callee args => callee :: args

def Stmt.kind : Stmt → Tree.Kind
  | .expression _ _ => .expression
  | .print _ _ => .print
  | .declare _ x initial => .declare x initial.isSome
  | .block _ body => .block body.length
  | .cond _ _ _ onFalse => .cond onFalse.isSome
  | .loop _ _ _ => .loop
  | .function _ name params body => .function name params body.length
  | .return _ value => .return value.isSome

/-- The expressions and statements right below a statement. -/
def Stmt.parts : Stmt → List Tree
  | .expression _ e | .print _ e => [.expr e]
  | .declare _ _ e | .return _ e => e.toList.map .expr
  | .block _ body | .function _ _ _ body => body.map .stmt
  | .cond _ test onTrue onFalse => .expr test :: .stmt onTrue :: onFalse.toList.map .stmt
  | .loop _ test body => [.expr test, .stmt body]

namespace Tree

def mark : Tree → Mark
  | expr e => (some e.pos, e.kind)
  | stmt s => (some s.pos, s.kind)
  | program p => (none, .program p.length)

/-- The trees right below the top. -/
def parts : Tree → List Tree
  | expr e => e.parts.map .expr
  | stmt s => s.parts
  | program p => p.map .stmt

/-- The tree at a place, if there is one: the numbers of the parts on the way down lead to it. -/
def at? (t : Tree) : List Nat → Option Tree
  | [] => some t
  | i :: path => t.parts[i]?.bind fun part => part.at? path

@[elab_as_elim]
theorem induction {P : Tree → Prop} (node : ∀ t, (∀ u ∈ t.parts, P u) → P t) (t : Tree) : P t := by
  have hexpr (e : Expr) : P (.expr e) := by
    induction e with
    | literal | var => exact node _ (by simp [parts, Expr.parts])
    | group _ _ ih | unary _ _ _ ih | assign _ _ _ ih => exact node _ (by simpa [parts, Expr.parts] using ih)
    | binary _ _ _ _ ihl ihr | logical _ _ _ _ ihl ihr =>
      exact node _ (by simpa [parts, Expr.parts] using ⟨ihl, ihr⟩)
    | call _ _ _ ihf ihargs => exact node _ (by simpa [parts, Expr.parts] using ⟨ihf, ihargs⟩)
  have hstmt (s : Stmt) : P (.stmt s) := by
    induction s with
    | expression _ e | print _ e => exact node _ (by simpa [parts, Stmt.parts] using hexpr e)
    | declare _ _ e | ret _ e => exact node _ (by simpa [parts, Stmt.parts] using fun e _ => hexpr e)
    | block _ _ ih | function _ _ _ _ ih => exact node _ (by simpa [parts, Stmt.parts] using ih)
    | cond _ test _ _ iht ihf => exact node _ (by simpa [parts, Stmt.parts] using ⟨hexpr test, iht, ihf⟩)
    | loop _ test _ ih => exact node _ (by simpa [parts, Stmt.parts] using ⟨hexpr test, ih⟩)
  cases t with
  | expr e => exact hexpr e
  | stmt s => exact hstmt s
  | program p => exact node _ (by simpa [parts] using fun s _ => hstmt s)

end Tree

/-! ## Trees with the same marks -/

theorem Expr.eq_of_parts {e f : Expr} (hpos : e.pos = f.pos) (hkind : e.kind = f.kind)
    (hparts : e.parts = f.parts) : e = f := by
  cases e <;> cases f <;> simp_all [Expr.pos, Expr.kind, Expr.parts]

theorem toList_option_inj {α : Type} {o o' : Option α} : o.toList = o'.toList ↔ o = o' := by
  cases o <;> cases o' <;> simp

theorem Tree.map_expr_inj {es fs : List Expr} : es.map Tree.expr = fs.map Tree.expr ↔ es = fs :=
  List.map_inj_right fun _ _ => Tree.expr.inj

theorem Tree.map_stmt_inj {ss ts : List Stmt} : ss.map Tree.stmt = ts.map Tree.stmt ↔ ss = ts :=
  List.map_inj_right fun _ _ => Tree.stmt.inj

theorem Stmt.eq_of_parts {s t : Stmt} (hpos : s.pos = t.pos) (hkind : s.kind = t.kind)
    (hparts : s.parts = t.parts) : s = t := by
  cases s <;> cases t <;>
    simp_all [Stmt.pos, Stmt.kind, Stmt.parts, Tree.map_expr_inj, Tree.map_stmt_inj, toList_option_inj]

namespace Tree

theorem eq_of_mark_parts {t u : Tree} (hmark : t.mark = u.mark) (hparts : t.parts = u.parts) : t = u := by
  obtain ⟨hpos, hkind⟩ := Prod.mk.inj hmark
  cases t with
  | expr e =>
    cases u with
    | expr f => exact congrArg expr (Expr.eq_of_parts (Option.some.inj hpos) hkind (map_expr_inj.mp hparts))
    | stmt s => cases e <;> cases s <;> cases hkind
    | program p => cases hpos
  | stmt s =>
    cases u with
    | expr f => cases s <;> cases f <;> cases hkind
    | stmt t => exact congrArg stmt (Stmt.eq_of_parts (Option.some.inj hpos) hkind hparts)
    | program p => cases hpos
  | program p =>
    cases u with
    | program q => exact congrArg program (map_stmt_inj.mp hparts)
    | _ => cases hpos

/-- How many parts a node has can be seen from its mark. -/
def Kind.arity : Kind → Nat
  | .literal _ | .variable _ => 0
  | .group | .unary _ | .assign _ | .expression | .print => 1
  | .binary _ | .logical _ | .loop => 2
  | .call n => n + 1
  | .declare _ present | .return present => present.toNat
  | .cond present => 2 + present.toNat
  | .block n | .function _ _ n | .program n => n

theorem length_parts (t : Tree) : t.parts.length = t.mark.2.arity := by
  cases t with
  | expr e => cases e <;> simp [parts, mark, Expr.parts, Expr.kind, Kind.arity]
  | stmt s =>
    cases s with
    | declare _ _ e | «return» _ e => cases e <;> simp [parts, mark, Stmt.parts, Stmt.kind, Kind.arity]
    | cond _ _ _ o => cases o <;> simp [parts, mark, Stmt.parts, Stmt.kind, Kind.arity]
    | _ => simp [parts, mark, Stmt.parts, Stmt.kind, Kind.arity]
  | program p => simp [parts, mark, Kind.arity]

@[simp] theorem at?_nil (t : Tree) : t.at? [] = some t := rfl

theorem at?_cons (t : Tree) (i : Nat) (path : List Nat) :
    t.at? (i :: path) = t.parts[i]?.bind fun part => part.at? path := rfl

/-- **Trees are equal if they have the same marks at the same places.** -/
theorem eq_iff_marks {t u : Tree} : t = u ↔ ∀ path, (t.at? path).map mark = (u.at? path).map mark := by
  refine ⟨fun h path => by rw [h], fun h => ?_⟩
  induction t using induction generalizing u with
  | node t ih =>
    have hmark : t.mark = u.mark := Option.some.inj (h [])
    have hlength : t.parts.length = u.parts.length := by rw [length_parts, length_parts, hmark]
    refine eq_of_mark_parts hmark (List.ext_getElem hlength fun i hi hi' => ?_)
    refine ih _ (List.getElem_mem hi) fun path => ?_
    have hpath := h (i :: path)
    rwa [at?_cons, at?_cons, List.getElem?_eq_getElem hi, List.getElem?_eq_getElem hi'] at hpath

end Tree

end Lox
