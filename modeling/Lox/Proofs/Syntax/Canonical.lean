import Lox.Proofs.Base.Relabel
import Lox.Proofs.Numbers.Nan
import Lox.Proofs.Numbers.Trees
import Lox.Proofs.Syntax.Places

/-!
# Canonical trees

The equality of syntax trees takes all NaNs for one number literal, and the two zeros for one. So a tree has a
canonical form, with one NaN for all and no negative zeros, and equality of trees is equality of their canonical
forms (`Expr.same_iff_canonical`, `Stmt.same_iff_canonical`). It follows that it is an equivalence relation, and
that trees are told apart by any one difference that is left in their canonical forms, wherever it is.
-/

namespace Lox

/-! ## Canonical number literals -/

namespace Number

/-- One NaN for all, and no negative zero. -/
def canonical (x : Number) : Number :=
  if x.isNaN then ⟨infinityBits + 1⟩ else if x.isZero then ⟨0⟩ else x

variable {x y : Number}

theorem isNaN_canonical (x : Number) : x.canonical.isNaN = x.isNaN := by
  unfold canonical
  split
  · next hnan =>
    rw [hnan]
    decide
  · next hnan =>
    split
    · rw [Bool.not_eq_true] at hnan
      rw [hnan]
      decide
    · rfl

theorem isZero_canonical (x : Number) : x.canonical.isZero = x.isZero := by
  unfold canonical
  split
  · next hnan =>
    rw [isZero_eq_false_of_isNaN hnan]
    decide
  · split
    · next hzero =>
      rw [hzero]
      decide
    · rfl

theorem canonical_of_isNaN (h : x.isNaN) : x.canonical = ⟨infinityBits + 1⟩ := if_pos h

theorem canonical_of_isZero (h : x.isZero) : x.canonical = ⟨0⟩ := by
  have hnan : ¬ x.isNaN := fun hnan => by simp [isZero_eq_false_of_isNaN hnan] at h
  rw [canonical, if_neg hnan, if_pos h]

theorem canonical_of_not (hnan : ¬ x.isNaN) (hzero : ¬ x.isZero) : x.canonical = x := by
  rw [canonical, if_neg hnan, if_neg hzero]

theorem sameLiteral_iff_canonical : x.sameLiteral y ↔ x.canonical = y.canonical := by
  rw [sameLiteral, Bool.or_eq_true, Bool.and_eq_true, ieeeEq_iff]
  constructor
  · rintro (⟨hx, hy⟩ | ⟨_, _, rfl | ⟨hx, hy⟩⟩)
    · rw [canonical_of_isNaN hx, canonical_of_isNaN hy]
    · rfl
    · rw [canonical_of_isZero hx, canonical_of_isZero hy]
  · intro h
    have hnan : x.isNaN = y.isNaN := by rw [← isNaN_canonical x, h, isNaN_canonical]
    have hzero : x.isZero = y.isZero := by rw [← isZero_canonical x, h, isZero_canonical]
    by_cases hx : x.isNaN
    · exact .inl ⟨hx, hnan ▸ hx⟩
    · have hx' : x.isNaN = false := Bool.not_eq_true _ ▸ hx
      refine .inr ⟨hx', hnan ▸ hx', ?_⟩
      by_cases hz : x.isZero
      · exact .inr ⟨hz, hzero ▸ hz⟩
      · refine .inl ?_
        rwa [canonical_of_not hx hz, canonical_of_not (hnan ▸ hx) (hzero ▸ hz)] at h

end Number

/-! ## Canonical trees -/

def Literal.canonical (x : Literal) : Literal := x.relabel Number.canonical

/-- The expression with its number literals in canonical form. -/
def Expr.canonical (e : Expr) : Expr := e.relabel id Number.canonical

/-- The statement with its number literals in canonical form, also in function bodies. -/
def Stmt.canonical (s : Stmt) : Stmt := s.relabel id Number.canonical

theorem Literal.same_iff_canonical {x y : Literal} : x.same y ↔ x.canonical = y.canonical := by
  cases x <;> cases y <;>
    simp [Literal.same, Literal.canonical, Literal.relabel, Number.sameLiteral_iff_canonical]

/-- Lists are related part by part if they have the same image, for a relation that is equality of images. -/
theorem forall₂_iff_map_eq {α β : Type} {R : α → α → Prop} {f : α → β} {l : List α}
    (l' : List α) (h : ∀ a ∈ l, ∀ b, R a b ↔ f a = f b) : List.Forall₂ R l l' ↔ l.map f = l'.map f := by
  induction l generalizing l' with
  | nil => cases l' <;> simp
  | cons a l ih =>
    obtain ⟨ha, hl⟩ := List.forall_mem_cons.mp h
    cases l' <;> simp [ha, ih _ hl]

theorem Expr.same_iff_canonical {e f : Expr} : e.same f ↔ e.canonical = f.canonical := by
  unfold Expr.canonical
  induction e generalizing f with
  | literal pos x =>
    have hliteral (y : Literal) := Literal.same_iff_canonical (x := x) (y := y)
    cases f <;> simp [Expr.same, Expr.relabel, hliteral, Literal.canonical]
  | group pos e ih => cases f <;> simp [Expr.same, Expr.relabel, ih]
  | unary pos op e ih => cases f <;> simp [Expr.same, Expr.relabel, ih, and_assoc]
  | binary pos op l r ihl ihr => cases f <;> simp [Expr.same, Expr.relabel, ihl, ihr, and_assoc]
  | logical pos op l r ihl ihr => cases f <;> simp [Expr.same, Expr.relabel, ihl, ihr, and_assoc]
  | var pos x => cases f <;> simp [Expr.same, Expr.relabel]
  | assign pos x e ih => cases f <;> simp [Expr.same, Expr.relabel, ih, and_assoc]
  | call pos callee args ihf ihargs =>
    have hargs (args' : List Expr) := forall₂_iff_map_eq args' fun a ha b => ihargs a ha (f := b)
    cases f <;> simp [Expr.same, Expr.relabel, ihf, Expr.sameList_iff, hargs, and_assoc]

theorem Expr.sameOption_iff_canonical {o o' : Option Expr} :
    Expr.sameOption o o' ↔ o.map Expr.canonical = o'.map Expr.canonical := by
  cases o <;> cases o' <;> simp [Expr.sameOption, Expr.same_iff_canonical]

theorem Stmt.same_iff_canonical {s t : Stmt} : s.same t ↔ s.canonical = t.canonical := by
  have hexpr {e f : Expr} : e.same f ↔ e.relabel id Number.canonical = f.relabel id Number.canonical :=
    Expr.same_iff_canonical
  have hoption {o o' : Option Expr} : Expr.sameOption o o' ↔
      o.map (Expr.relabel id Number.canonical) = o'.map (Expr.relabel id Number.canonical) :=
    Expr.sameOption_iff_canonical
  unfold Stmt.canonical
  induction s generalizing t with
  | expression pos e | print pos e => cases t <;> simp [Stmt.same, Stmt.relabel, hexpr]
  | declare pos x initial => cases t <;> simp [Stmt.same, Stmt.relabel, hoption, and_assoc]
  | block pos body ih =>
    have hbody (body' : List Stmt) := forall₂_iff_map_eq body' fun s hs t => ih s hs (t := t)
    cases t <;> simp [Stmt.same, Stmt.relabel, Stmt.sameList_iff, hbody]
  | cond pos test onTrue onFalse iht ihf =>
    cases t with
    | cond pos' test' onTrue' onFalse' =>
      have helse : Stmt.sameOption onFalse onFalse' ↔
          onFalse.map (Stmt.relabel id Number.canonical) = onFalse'.map (Stmt.relabel id Number.canonical) := by
        cases onFalse with
        | none => cases onFalse' <;> simp [Stmt.sameOption]
        | some s => cases onFalse' <;> simp [Stmt.sameOption, ihf s rfl]
      simp [Stmt.same, Stmt.relabel, hexpr, iht, helse, and_assoc]
    | _ => simp [Stmt.same, Stmt.relabel]
  | loop pos test body ih => cases t <;> simp [Stmt.same, Stmt.relabel, hexpr, ih, and_assoc]
  | function pos name params body ih =>
    have hbody (body' : List Stmt) := forall₂_iff_map_eq body' fun s hs t => ih s hs (t := t)
    cases t <;> simp [Stmt.same, Stmt.relabel, Stmt.sameList_iff, hbody, and_assoc]
  | ret pos value => cases t <;> simp [Stmt.same, Stmt.relabel, hoption]

theorem Stmt.sameList_iff_canonical {p q : Program} :
    Stmt.sameList p q ↔ p.map Stmt.canonical = q.map Stmt.canonical := by
  rw [Stmt.sameList_iff]
  exact forall₂_iff_map_eq q fun _ _ _ => Stmt.same_iff_canonical

/-! ## Differences -/

namespace Tree

/-- Equality of syntax trees; trees of different sorts are different. -/
def same : Tree → Tree → Bool
  | expr e, expr f => e.same f
  | stmt s, stmt t => s.same t
  | program p, program q => Stmt.sameList p q
  | _, _ => false

def canonical : Tree → Tree
  | expr e => .expr e.canonical
  | stmt s => .stmt s.canonical
  | program p => .program (p.map Stmt.canonical)

theorem same_iff_canonical {t u : Tree} : t.same u ↔ t.canonical = u.canonical := by
  cases t <;> cases u <;>
    simp [same, canonical, Expr.same_iff_canonical, Stmt.same_iff_canonical, Stmt.sameList_iff_canonical]

/-- What a node is, with its number literal in canonical form if it has one. -/
def Kind.canonical : Kind → Kind
  | .literal x => .literal x.canonical
  | kind => kind

/-- The mark at the top of a tree, up to what number literals have in common. -/
def canonicalMark (t : Tree) : Mark := (t.mark.1, t.mark.2.canonical)

theorem mark_canonical (t : Tree) : t.canonical.mark = t.canonicalMark := by
  cases t with
  | expr e =>
    rw [canonical, Expr.canonical, canonicalMark, mark, mark]
    cases e <;> simp [Expr.relabel, Expr.pos, Expr.kind, Kind.canonical, Literal.canonical]
  | stmt s =>
    rw [canonical, Stmt.canonical, canonicalMark, mark, mark]
    cases s <;> simp [Stmt.relabel, Stmt.pos, Stmt.kind, Kind.canonical]
  | program p => simp [canonical, canonicalMark, mark, Kind.canonical]

theorem parts_canonical (t : Tree) : t.canonical.parts = t.parts.map canonical := by
  have hexprs (o : Option Expr) :
      (o.map Expr.canonical).toList.map expr = (o.toList.map expr).map canonical := by
    cases o <;> rfl
  have hstmts (o : Option Stmt) :
      (o.map Stmt.canonical).toList.map stmt = (o.toList.map stmt).map canonical := by
    cases o <;> rfl
  cases t with
  | expr e => cases e <;> simp [canonical, parts, Expr.canonical, Expr.relabel, Expr.parts]
  | stmt s =>
    cases s with
    | declare _ _ o | «return» _ o => exact hexprs o
    | cond _ _ _ o =>
      rw [canonical, Stmt.canonical, Stmt.relabel, Stmt.relabelOption_eq_map]
      exact congrArg (_ :: _ :: ·) (hstmts o)
    | _ => simp [canonical, parts, Stmt.canonical, Stmt.relabel, Stmt.parts, Expr.canonical]
  | program p => simp [canonical, parts]

theorem at?_canonical (t : Tree) (path : List Nat) : t.canonical.at? path = (t.at? path).map canonical := by
  induction path generalizing t with
  | nil => rfl
  | cons i path ih =>
    rw [at?_cons, at?_cons, parts_canonical, List.getElem?_map]
    cases t.parts[i]? with
    | none => rfl
    | some part => exact ih part

/-- Trees are the same if and only if they have the same marks at the same places, up to what number literals
have in common. -/
theorem same_iff_marks {t u : Tree} :
    t.same u ↔ ∀ path, (t.at? path).map canonicalMark = (u.at? path).map canonicalMark := by
  have hmark : mark ∘ canonical = canonicalMark := funext mark_canonical
  simp only [same_iff_canonical, eq_iff_marks, at?_canonical, Option.map_map, hmark]

theorem equivalence_of_iff {α β : Type} {R : α → α → Prop} {f : α → β} (h : ∀ {a b}, R a b ↔ f a = f b) :
    Equivalence R where
  refl _ := h.mpr rfl
  symm hab := h.mpr (h.mp hab).symm
  trans hab hbc := h.mpr ((h.mp hab).trans (h.mp hbc))

end Tree

/-- **Equality of syntax trees is equality of canonical trees.** Expressions, statements and programs are the
same if and only if they are equal, positions and the bits of numbers included, when all NaN literals are
replaced by one and all negative zeros by zero, also in function bodies. So each of the three equalities is an
equivalence relation, and a tree with NaNs is the same as itself.

Trees are different if and only if they have different marks at some place, however deep: another position,
kind of node, operator, name, parameter list, or literal, a list of another length, or an optional part that
only one of them has. -/
theorem Tree.same_iff_canonical_eq :
    (∀ e f : Expr, e.same f ↔ e.canonical = f.canonical) ∧
      (∀ s t : Stmt, s.same t ↔ s.canonical = t.canonical) ∧
      (∀ p q : Program, Stmt.sameList p q ↔ p.map Stmt.canonical = q.map Stmt.canonical) ∧
      Equivalence (fun e f : Expr => e.same f) ∧ Equivalence (fun s t : Stmt => s.same t) ∧
      Equivalence (fun p q : Program => Stmt.sameList p q) ∧
      ∀ t u : Tree, t.same u = false ↔
        ∃ path, (t.at? path).map canonicalMark ≠ (u.at? path).map canonicalMark := by
  refine ⟨fun _ _ => Expr.same_iff_canonical, fun _ _ => Stmt.same_iff_canonical,
    fun _ _ => Stmt.sameList_iff_canonical, equivalence_of_iff Expr.same_iff_canonical,
    equivalence_of_iff Stmt.same_iff_canonical, equivalence_of_iff Stmt.sameList_iff_canonical, fun t u => ?_⟩
  rw [← Bool.not_eq_true, same_iff_marks, not_forall]

end Lox
