import Lox.Syntax.Equality
import Lox.Proofs.Base.Induction
import Mathlib.Data.List.Forall2

/-!
# Trees that differ in number literals

Trees are equal up to a relation between numbers if they differ at most in their number literals, and these
are in the relation (`Expr.EqUpTo`, `Stmt.EqUpTo`). The equality of syntax trees is of that kind
(`Stmt.same_iff`), as it only tells literals apart as far as `Number.sameLiteral` does.
-/

namespace Lox

variable {R : Number → Number → Prop}

inductive Literal.EqUpTo (R : Number → Number → Prop) : Literal → Literal → Prop
  | number {x y : Number} (h : R x y) : EqUpTo R (.number x) (.number y)
  | string (text : String) : EqUpTo R (.string text) (.string text)
  | bool (b : Bool) : EqUpTo R (.bool b) (.bool b)
  | nil : EqUpTo R .nil .nil

/-- The expressions are equal, but for number literals, which are in the relation. -/
inductive Expr.EqUpTo (R : Number → Number → Prop) : Expr → Expr → Prop
  | literal (pos : Pos) {x y : Literal} (h : x.EqUpTo R y) : EqUpTo R (.literal pos x) (.literal pos y)
  | group (pos : Pos) {e f : Expr} (h : EqUpTo R e f) : EqUpTo R (.group pos e) (.group pos f)
  | unary (pos : Pos) (op : UnaryOp) {e f : Expr} (h : EqUpTo R e f) :
    EqUpTo R (.unary pos op e) (.unary pos op f)
  | binary (pos : Pos) (op : BinaryOp) {l l' r r' : Expr} (hl : EqUpTo R l l') (hr : EqUpTo R r r') :
    EqUpTo R (.binary pos op l r) (.binary pos op l' r')
  | logical (pos : Pos) (op : LogicalOp) {l l' r r' : Expr} (hl : EqUpTo R l l')
    (hr : EqUpTo R r r') : EqUpTo R (.logical pos op l r) (.logical pos op l' r')
  | var (pos : Pos) (x : String) : EqUpTo R (.variable pos x) (.variable pos x)
  | assign (pos : Pos) (x : String) {e f : Expr} (h : EqUpTo R e f) :
    EqUpTo R (.assign pos x e) (.assign pos x f)
  | call (pos : Pos) {callee callee' : Expr} {args args' : List Expr} (hcallee : EqUpTo R callee callee')
    (hlength : args.length = args'.length) (hargs : ∀ a a', (a, a') ∈ args.zip args' → EqUpTo R a a') :
    EqUpTo R (.call pos callee args) (.call pos callee' args')

/-- The statements are equal, but for number literals, which are in the relation. -/
inductive Stmt.EqUpTo (R : Number → Number → Prop) : Stmt → Stmt → Prop
  | expression (pos : Pos) {e f : Expr} (h : e.EqUpTo R f) : EqUpTo R (.expression pos e) (.expression pos f)
  | print (pos : Pos) {e f : Expr} (h : e.EqUpTo R f) : EqUpTo R (.print pos e) (.print pos f)
  | declare (pos : Pos) (x : String) {initial initial' : Option Expr}
    (h : Option.Rel (Expr.EqUpTo R) initial initial') :
    EqUpTo R (.declare pos x initial) (.declare pos x initial')
  | block (pos : Pos) {body body' : List Stmt} (hlength : body.length = body'.length)
    (hbody : ∀ s s', (s, s') ∈ body.zip body' → EqUpTo R s s') :
    EqUpTo R (.block pos body) (.block pos body')
  | ifThen (pos : Pos) {test test' : Expr} {onTrue onTrue' : Stmt} (htest : test.EqUpTo R test')
    (htrue : EqUpTo R onTrue onTrue') :
    EqUpTo R (.cond pos test onTrue none) (.cond pos test' onTrue' none)
  | ifElse (pos : Pos) {test test' : Expr} {onTrue onTrue' onFalse onFalse' : Stmt}
    (htest : test.EqUpTo R test') (htrue : EqUpTo R onTrue onTrue')
    (hfalse : EqUpTo R onFalse onFalse') :
    EqUpTo R (.cond pos test onTrue (some onFalse)) (.cond pos test' onTrue' (some onFalse'))
  | loop (pos : Pos) {test test' : Expr} {body body' : Stmt} (htest : test.EqUpTo R test')
    (hbody : EqUpTo R body body') : EqUpTo R (.loop pos test body) (.loop pos test' body')
  | function (pos : Pos) (name : String) (params : List String) {body body' : List Stmt}
    (hlength : body.length = body'.length) (hbody : ∀ s s', (s, s') ∈ body.zip body' → EqUpTo R s s') :
    EqUpTo R (.function pos name params body) (.function pos name params body')
  | ret (pos : Pos) {value value' : Option Expr} (h : Option.Rel (Expr.EqUpTo R) value value') :
    EqUpTo R (.return pos value) (.return pos value')

/-! ## Reflexivity -/

section reflexive

variable (hR : ∀ x, R x x)
include hR

theorem Literal.EqUpTo.refl (x : Literal) : x.EqUpTo R x := by
  cases x with
  | number x => exact .number (hR x)
  | string text => exact .string text
  | bool b => exact .bool b
  | nil => exact .nil

theorem Expr.EqUpTo.refl (e : Expr) : e.EqUpTo R e := by
  induction e with
  | literal pos x => exact .literal pos (.refl hR x)
  | group pos e ih => exact .group pos ih
  | unary pos op e ih => exact .unary pos op ih
  | binary pos op l r ihl ihr => exact .binary pos op ihl ihr
  | logical pos op l r ihl ihr => exact .logical pos op ihl ihr
  | var pos x => exact .var pos x
  | assign pos x e ih => exact .assign pos x ih
  | call pos callee args ihf ihargs =>
    have hall := List.forall₂_iff_zip.mp (List.forall₂_same.mpr ihargs)
    exact .call pos ihf rfl fun _ _ ha => hall.2 ha

theorem Expr.EqUpTo.rel_refl (o : Option Expr) : Option.Rel (Expr.EqUpTo R) o o := by
  cases o with
  | none => exact .none
  | some e => exact .some (.refl hR e)

theorem Stmt.EqUpTo.refl (s : Stmt) : s.EqUpTo R s := by
  induction s with
  | expression pos e => exact .expression pos (.refl hR e)
  | print pos e => exact .print pos (.refl hR e)
  | declare pos x initial => exact .declare pos x (Expr.EqUpTo.rel_refl hR initial)
  | block pos body ih =>
    have hall := List.forall₂_iff_zip.mp (List.forall₂_same.mpr ih)
    exact .block pos rfl fun _ _ hs => hall.2 hs
  | cond pos test onTrue onFalse iht ihf =>
    cases onFalse with
    | none => exact .ifThen pos (.refl hR test) iht
    | some s => exact .ifElse pos (.refl hR test) iht (ihf s rfl)
  | loop pos test body ih => exact .loop pos (.refl hR test) ih
  | function pos name params body ih =>
    have hall := List.forall₂_iff_zip.mp (List.forall₂_same.mpr ih)
    exact .function pos name params rfl fun _ _ hs => hall.2 hs
  | ret pos value => exact .ret pos (Expr.EqUpTo.rel_refl hR value)

end reflexive

/-! ## Equality of syntax trees -/

theorem Literal.same_iff {x y : Literal} : x.same y ↔ x.EqUpTo (fun a b => a.sameLiteral b) y := by
  constructor
  · intro h
    cases x <;> cases y <;> simp only [Literal.same, beq_iff_eq, Bool.false_eq_true] at h
    · exact .number h
    · subst h
      exact .string _
    · subst h
      exact .bool _
    · exact .nil
  · intro h
    cases h with
    | number h => exact h
    | string text => exact beq_self_eq_true text
    | bool b => exact beq_self_eq_true b
    | nil => rfl

theorem Expr.sameList_iff {es fs : List Expr} :
    Expr.sameList es fs ↔ List.Forall₂ (fun e f => e.same f) es fs := by
  induction es generalizing fs with
  | nil => cases fs <;> simp [Expr.sameList]
  | cons e es ih => cases fs <;> simp [Expr.sameList, ih]

theorem Stmt.sameList_iff {ss ts : List Stmt} :
    Stmt.sameList ss ts ↔ List.Forall₂ (fun s t => s.same t) ss ts := by
  induction ss generalizing ts with
  | nil => cases ts <;> simp [Stmt.sameList]
  | cons s ss ih => cases ts <;> simp [Stmt.sameList, ih]

theorem Expr.eqUpTo_of_same {e f : Expr} (h : e.same f) : e.EqUpTo (fun x y => x.sameLiteral y) f := by
  induction e generalizing f with
  | literal pos x =>
    cases f with
    | literal pos' y =>
      simp only [Expr.same, Bool.and_eq_true, beq_iff_eq] at h
      obtain ⟨rfl, h⟩ := h
      exact .literal pos (Literal.same_iff.mp h)
    | _ => cases h
  | group pos e ih =>
    cases f with
    | group pos' f =>
      simp only [Expr.same, Bool.and_eq_true, beq_iff_eq] at h
      obtain ⟨rfl, h⟩ := h
      exact .group pos (ih h)
    | _ => cases h
  | unary pos op e ih =>
    cases f with
    | unary pos' op' f =>
      simp only [Expr.same, Bool.and_eq_true, beq_iff_eq] at h
      obtain ⟨⟨rfl, rfl⟩, h⟩ := h
      exact .unary pos op (ih h)
    | _ => cases h
  | binary pos op l r ihl ihr =>
    cases f with
    | binary pos' op' l' r' =>
      simp only [Expr.same, Bool.and_eq_true, beq_iff_eq] at h
      obtain ⟨⟨⟨rfl, rfl⟩, hl⟩, hr⟩ := h
      exact .binary pos op (ihl hl) (ihr hr)
    | _ => cases h
  | logical pos op l r ihl ihr =>
    cases f with
    | logical pos' op' l' r' =>
      simp only [Expr.same, Bool.and_eq_true, beq_iff_eq] at h
      obtain ⟨⟨⟨rfl, rfl⟩, hl⟩, hr⟩ := h
      exact .logical pos op (ihl hl) (ihr hr)
    | _ => cases h
  | var pos x =>
    cases f with
    | «variable» pos' y =>
      simp only [Expr.same, Bool.and_eq_true, beq_iff_eq] at h
      obtain ⟨rfl, rfl⟩ := h
      exact .var pos x
    | _ => cases h
  | assign pos x e ih =>
    cases f with
    | assign pos' y f =>
      simp only [Expr.same, Bool.and_eq_true, beq_iff_eq] at h
      obtain ⟨⟨rfl, rfl⟩, h⟩ := h
      exact .assign pos x (ih h)
    | _ => cases h
  | call pos callee args ihf ihargs =>
    cases f with
    | call pos' callee' args' =>
      simp only [Expr.same, Bool.and_eq_true, beq_iff_eq, Expr.sameList_iff] at h
      obtain ⟨⟨rfl, hf⟩, hargs⟩ := h
      obtain ⟨hlength, hargs⟩ := List.forall₂_iff_zip.mp hargs
      exact .call pos (ihf hf) hlength fun a a' ha => ihargs a (List.of_mem_zip ha).1 (hargs ha)
    | _ => cases h

theorem Expr.same_of_eqUpTo {e f : Expr} (h : e.EqUpTo (fun x y => x.sameLiteral y) f) : e.same f := by
  induction h with
  | literal pos h => simp [Expr.same, Literal.same_iff.mpr h]
  | group pos h ih => simp [Expr.same, ih]
  | unary pos op h ih => simp [Expr.same, ih]
  | binary pos op hl hr ihl ihr => simp [Expr.same, ihl, ihr]
  | logical pos op hl hr ihl ihr => simp [Expr.same, ihl, ihr]
  | var pos x => simp [Expr.same]
  | assign pos x h ih => simp [Expr.same, ih]
  | call pos hf hlength hargs ihf ihargs =>
    have hall := Expr.sameList_iff.mpr (List.forall₂_iff_zip.mpr ⟨hlength, fun ha => ihargs _ _ ha⟩)
    simp [Expr.same, ihf, hall]

theorem Expr.same_iff {e f : Expr} : e.same f ↔ e.EqUpTo (fun x y => x.sameLiteral y) f :=
  ⟨Expr.eqUpTo_of_same, Expr.same_of_eqUpTo⟩

theorem Expr.sameOption_iff {o o' : Option Expr} :
    Expr.sameOption o o' ↔ Option.Rel (Expr.EqUpTo fun x y => x.sameLiteral y) o o' := by
  cases o <;> cases o' <;> simp [Expr.sameOption, Expr.same_iff]

theorem Stmt.eqUpTo_of_same {s t : Stmt} (h : s.same t) : s.EqUpTo (fun x y => x.sameLiteral y) t := by
  induction s generalizing t with
  | expression pos e =>
    cases t with
    | expression pos' f =>
      simp only [Stmt.same, Bool.and_eq_true, beq_iff_eq] at h
      obtain ⟨rfl, h⟩ := h
      exact .expression pos (Expr.same_iff.mp h)
    | _ => cases h
  | print pos e =>
    cases t with
    | print pos' f =>
      simp only [Stmt.same, Bool.and_eq_true, beq_iff_eq] at h
      obtain ⟨rfl, h⟩ := h
      exact .print pos (Expr.same_iff.mp h)
    | _ => cases h
  | declare pos x initial =>
    cases t with
    | declare pos' y initial' =>
      simp only [Stmt.same, Bool.and_eq_true, beq_iff_eq] at h
      obtain ⟨⟨rfl, rfl⟩, h⟩ := h
      exact .declare pos x (Expr.sameOption_iff.mp h)
    | _ => cases h
  | block pos body ih =>
    cases t with
    | block pos' body' =>
      simp only [Stmt.same, Bool.and_eq_true, beq_iff_eq, Stmt.sameList_iff] at h
      obtain ⟨rfl, hbody⟩ := h
      obtain ⟨hlength, hbody⟩ := List.forall₂_iff_zip.mp hbody
      exact .block pos hlength fun s s' hs => ih s (List.of_mem_zip hs).1 (hbody hs)
    | _ => cases h
  | cond pos test onTrue onFalse iht ihf =>
    cases t with
    | cond pos' test' onTrue' onFalse' =>
      simp only [Stmt.same, Bool.and_eq_true, beq_iff_eq] at h
      obtain ⟨⟨⟨rfl, htest⟩, htrue⟩, hfalse⟩ := h
      cases onFalse with
      | none =>
        cases onFalse' with
        | none => exact .ifThen pos (Expr.same_iff.mp htest) (iht htrue)
        | some _ => cases hfalse
      | some s =>
        cases onFalse' with
        | none => cases hfalse
        | some s' => exact .ifElse pos (Expr.same_iff.mp htest) (iht htrue) (ihf s rfl hfalse)
    | _ => cases h
  | loop pos test body ih =>
    cases t with
    | loop pos' test' body' =>
      simp only [Stmt.same, Bool.and_eq_true, beq_iff_eq] at h
      obtain ⟨⟨rfl, htest⟩, hbody⟩ := h
      exact .loop pos (Expr.same_iff.mp htest) (ih hbody)
    | _ => cases h
  | function pos name params body ih =>
    cases t with
    | function pos' name' params' body' =>
      simp only [Stmt.same, Bool.and_eq_true, beq_iff_eq, Stmt.sameList_iff] at h
      obtain ⟨⟨⟨rfl, rfl⟩, rfl⟩, hbody⟩ := h
      obtain ⟨hlength, hbody⟩ := List.forall₂_iff_zip.mp hbody
      exact .function pos name params hlength fun s s' hs => ih s (List.of_mem_zip hs).1 (hbody hs)
    | _ => cases h
  | ret pos value =>
    cases t with
    | «return» pos' value' =>
      simp only [Stmt.same, Bool.and_eq_true, beq_iff_eq] at h
      obtain ⟨rfl, h⟩ := h
      exact .ret pos (Expr.sameOption_iff.mp h)
    | _ => cases h

theorem Stmt.same_of_eqUpTo {s t : Stmt} (h : s.EqUpTo (fun x y => x.sameLiteral y) t) : s.same t := by
  induction h with
  | expression pos h => simp [Stmt.same, Expr.same_iff.mpr h]
  | print pos h => simp [Stmt.same, Expr.same_iff.mpr h]
  | declare pos x h => simp [Stmt.same, Expr.sameOption_iff.mpr h]
  | block pos hlength hbody ih =>
    have hall := Stmt.sameList_iff.mpr (List.forall₂_iff_zip.mpr ⟨hlength, fun hs => ih _ _ hs⟩)
    simp [Stmt.same, hall]
  | ifThen pos htest htrue iht => simp [Stmt.same, Stmt.sameOption, Expr.same_iff.mpr htest, iht]
  | ifElse pos htest htrue hfalse iht ihf =>
    simp [Stmt.same, Stmt.sameOption, Expr.same_iff.mpr htest, iht, ihf]
  | loop pos htest hbody ih => simp [Stmt.same, Expr.same_iff.mpr htest, ih]
  | function pos name params hlength hbody ih =>
    have hall := Stmt.sameList_iff.mpr (List.forall₂_iff_zip.mpr ⟨hlength, fun hs => ih _ _ hs⟩)
    simp [Stmt.same, hall]
  | ret pos h => simp [Stmt.same, Expr.sameOption_iff.mpr h]

theorem Stmt.same_iff {s t : Stmt} : s.same t ↔ s.EqUpTo (fun x y => x.sameLiteral y) t :=
  ⟨Stmt.eqUpTo_of_same, Stmt.same_of_eqUpTo⟩

end Lox
