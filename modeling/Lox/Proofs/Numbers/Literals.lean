import Lox.Proofs.Base.Nodes
import Lox.Proofs.Numbers.Nan
import Lox.Proofs.Numbers.Trees

/-!
# Number literals

Equal trees have their number literals at the same places, so those at corresponding places can be found by
going through both trees from left to right (`Expr.numbers`, `Stmt.numbers`). If they are in a relation, then
the trees are equal up to that relation (`Stmt.EqUpTo.of_numbers`).

So for two programs to be equal up to the bits of NaNs is for them to be equal syntax trees in which zeros at
corresponding places have the same sign (`Program.eqUpToNaN_iff`).
-/

namespace Lox

variable {R R' : Number → Number → Prop}

def Expr.number? : Expr → Option Number
  | .literal _ (.number x) => some x
  | _ => none

/-- The number literals in an expression, from left to right. -/
def Expr.numbers (e : Expr) : List Number := e.nodes.filterMap Expr.number?

def Stmt.numbers (s : Stmt) : List Number := s.nodes.filterMap Expr.number?

def Program.numbers (p : Program) : List Number := (Stmt.nodesOfList p).filterMap Expr.number?

theorem Expr.filterMap_nodesOfList (es : List Expr) :
    (Expr.nodesOfList es).filterMap Expr.number? = es.flatMap Expr.numbers := by
  induction es with
  | nil => rfl
  | cons e es ih => rw [Expr.nodesOfList, List.filterMap_append, ih, List.flatMap_cons, Expr.numbers]

theorem Expr.numbers_binary (pos : Pos) (op : BinaryOp) (l r : Expr) :
    (Expr.binary pos op l r).numbers = l.numbers ++ r.numbers := List.filterMap_append

theorem Expr.numbers_logical (pos : Pos) (op : LogicalOp) (l r : Expr) :
    (Expr.logical pos op l r).numbers = l.numbers ++ r.numbers := List.filterMap_append

theorem Expr.numbers_call (pos : Pos) (callee : Expr) (args : List Expr) :
    (Expr.call pos callee args).numbers = callee.numbers ++ args.flatMap Expr.numbers := by
  rw [← Expr.filterMap_nodesOfList]
  exact List.filterMap_append

theorem Program.numbers_eq_flatMap (p : Program) : p.numbers = p.flatMap Stmt.numbers := by
  induction p with
  | nil => rfl
  | cons s ss ih =>
    rw [Program.numbers, Stmt.nodesOfList, List.filterMap_append, List.flatMap_cons, ← ih, Stmt.numbers,
      Program.numbers]

section lists

variable {α : Type} {numbers : α → List Number} {l l' m m' : List Number} {as bs : List α}

theorem forall₂_append_iff (h : l.length = l'.length) :
    List.Forall₂ R (l ++ m) (l' ++ m') ↔ List.Forall₂ R l l' ∧ List.Forall₂ R m m' := by
  induction l generalizing l' with
  | nil =>
    cases l' with
    | nil => simp
    | cons y l' => simp at h
  | cons x l ih =>
    cases l' with
    | nil => simp at h
    | cons y l' => simp [ih (Nat.succ.inj h), and_assoc]

theorem forall₂_of_flatMap {P : α → α → Prop}
    (h : List.Forall₂ (fun a b => (numbers a).length = (numbers b).length ∧
      (List.Forall₂ R (numbers a) (numbers b) → P a b)) as bs)
    (hnumbers : List.Forall₂ R (as.flatMap numbers) (bs.flatMap numbers)) : List.Forall₂ P as bs := by
  induction h with
  | nil => exact .nil
  | cons hab _ ih =>
    rw [List.flatMap_cons, List.flatMap_cons, forall₂_append_iff hab.1] at hnumbers
    exact .cons (hab.2 hnumbers.1) (ih hnumbers.2)

end lists

namespace Expr

theorem EqUpTo.numbers {e f : Expr} (h : e.EqUpTo R f) : List.Forall₂ R e.numbers f.numbers := by
  induction h with
  | literal pos h =>
    cases h with
    | number h => exact .cons h .nil
    | string _ | bool _ | nil => exact .nil
  | group pos h ih | unary pos op h ih | assign pos x h ih => exact ih
  | var pos x => exact .nil
  | binary pos op hl hr ihl ihr =>
    rw [numbers_binary, numbers_binary]
    exact List.rel_append ihl ihr
  | logical pos op hl hr ihl ihr =>
    rw [numbers_logical, numbers_logical]
    exact List.rel_append ihl ihr
  | call pos hf hlength hargs ihf ihargs =>
    have hall := List.rel_flatMap (List.forall₂_iff_zip.mpr ⟨hlength, fun ha => ihargs _ _ ha⟩)
      fun _ _ hnumbers => hnumbers
    rw [numbers_call, numbers_call]
    exact List.rel_append ihf hall

theorem EqUpTo.of_numbers {e f : Expr} (h : e.EqUpTo R f) (hnumbers : List.Forall₂ R' e.numbers f.numbers) :
    e.EqUpTo R' f := by
  induction h with
  | literal pos h =>
    cases h with
    | number h => exact .literal pos (.number (List.forall₂_cons.mp hnumbers).1)
    | string text => exact .literal pos (.string text)
    | bool b => exact .literal pos (.bool b)
    | nil => exact .literal pos .nil
  | group pos h ih => exact .group pos (ih hnumbers)
  | unary pos op h ih => exact .unary pos op (ih hnumbers)
  | binary pos op hl hr ihl ihr =>
    rw [numbers_binary, numbers_binary, forall₂_append_iff hl.numbers.length_eq] at hnumbers
    exact .binary pos op (ihl hnumbers.1) (ihr hnumbers.2)
  | logical pos op hl hr ihl ihr =>
    rw [numbers_logical, numbers_logical, forall₂_append_iff hl.numbers.length_eq] at hnumbers
    exact .logical pos op (ihl hnumbers.1) (ihr hnumbers.2)
  | var pos x => exact .var pos x
  | assign pos x h ih => exact .assign pos x (ih hnumbers)
  | call pos hf hlength hargs ihf ihargs =>
    rw [numbers_call, numbers_call, forall₂_append_iff hf.numbers.length_eq] at hnumbers
    have hall := forall₂_of_flatMap (List.forall₂_iff_zip.mpr
      ⟨hlength, fun ha => ⟨(hargs _ _ ha).numbers.length_eq, ihargs _ _ ha⟩⟩) hnumbers.2
    exact .call pos (ihf hnumbers.1) hlength fun a a' ha => (List.forall₂_iff_zip.mp hall).2 ha

def numbersOfOption (o : Option Expr) : List Number := (nodesOfOption o).filterMap number?

theorem numbersOfOption_rel {o o' : Option Expr} (h : Option.Rel (EqUpTo R) o o') :
    List.Forall₂ R (numbersOfOption o) (numbersOfOption o') := by
  cases h with
  | none => exact .nil
  | some h => exact h.numbers

theorem rel_of_numbersOfOption {o o' : Option Expr} (h : Option.Rel (EqUpTo R) o o')
    (hnumbers : List.Forall₂ R' (numbersOfOption o) (numbersOfOption o')) :
    Option.Rel (EqUpTo R') o o' := by
  cases h with
  | none => exact .none
  | some h => exact .some (h.of_numbers hnumbers)

end Expr

namespace Stmt

theorem numbers_cond (pos : Pos) (test : Expr) (onTrue : Stmt) (onFalse : Option Stmt) :
    (Stmt.cond pos test onTrue onFalse).numbers =
      test.numbers ++ (onTrue.numbers ++ onFalse.toList.flatMap Stmt.numbers) := by
  cases onFalse with
  | none =>
    simp [Stmt.numbers, Stmt.nodes, Stmt.nodesOfOption, Expr.numbers]
  | some s => simp [Stmt.numbers, Stmt.nodes, Stmt.nodesOfOption, Expr.numbers]

theorem numbers_loop (pos : Pos) (test : Expr) (body : Stmt) :
    (Stmt.loop pos test body).numbers = test.numbers ++ body.numbers := List.filterMap_append

theorem numbers_block (pos : Pos) (body : List Stmt) :
    (Stmt.block pos body).numbers = body.flatMap Stmt.numbers := Program.numbers_eq_flatMap body

theorem numbers_function (pos : Pos) (name : String) (params : List String) (body : List Stmt) :
    (Stmt.function pos name params body).numbers = body.flatMap Stmt.numbers :=
  Program.numbers_eq_flatMap body

theorem EqUpTo.numbers {s t : Stmt} (h : s.EqUpTo R t) : List.Forall₂ R s.numbers t.numbers := by
  induction h with
  | expression pos h | print pos h => exact h.numbers
  | declare pos x h => exact Expr.numbersOfOption_rel h
  | ret pos h => exact Expr.numbersOfOption_rel h
  | block pos hlength hbody ih =>
    rw [numbers_block, numbers_block]
    exact List.rel_flatMap (List.forall₂_iff_zip.mpr ⟨hlength, fun hs => ih _ _ hs⟩) fun _ _ h => h
  | function pos name params hlength hbody ih =>
    rw [numbers_function, numbers_function]
    exact List.rel_flatMap (List.forall₂_iff_zip.mpr ⟨hlength, fun hs => ih _ _ hs⟩) fun _ _ h => h
  | ifThen pos htest htrue iht =>
    rw [numbers_cond, numbers_cond]
    exact List.rel_append htest.numbers (List.rel_append iht .nil)
  | ifElse pos htest htrue hfalse iht ihf =>
    rw [numbers_cond, numbers_cond]
    exact List.rel_append htest.numbers (List.rel_append iht (List.rel_append ihf .nil))
  | loop pos htest hbody ih =>
    rw [numbers_loop, numbers_loop]
    exact List.rel_append htest.numbers ih

theorem EqUpTo.of_numbers {s t : Stmt} (h : s.EqUpTo R t) (hnumbers : List.Forall₂ R' s.numbers t.numbers) :
    s.EqUpTo R' t := by
  induction h with
  | expression pos h => exact .expression pos (h.of_numbers hnumbers)
  | print pos h => exact .print pos (h.of_numbers hnumbers)
  | declare pos x h => exact .declare pos x (Expr.rel_of_numbersOfOption h hnumbers)
  | ret pos h => exact .ret pos (Expr.rel_of_numbersOfOption h hnumbers)
  | block pos hlength hbody ih =>
    rw [numbers_block, numbers_block] at hnumbers
    have hall := forall₂_of_flatMap (List.forall₂_iff_zip.mpr
      ⟨hlength, fun hs => ⟨(hbody _ _ hs).numbers.length_eq, ih _ _ hs⟩⟩) hnumbers
    exact .block pos hlength fun s s' hs => (List.forall₂_iff_zip.mp hall).2 hs
  | function pos name params hlength hbody ih =>
    rw [numbers_function, numbers_function] at hnumbers
    have hall := forall₂_of_flatMap (List.forall₂_iff_zip.mpr
      ⟨hlength, fun hs => ⟨(hbody _ _ hs).numbers.length_eq, ih _ _ hs⟩⟩) hnumbers
    exact .function pos name params hlength fun s s' hs => (List.forall₂_iff_zip.mp hall).2 hs
  | ifThen pos htest htrue iht =>
    rw [numbers_cond, numbers_cond, forall₂_append_iff htest.numbers.length_eq,
      forall₂_append_iff htrue.numbers.length_eq] at hnumbers
    obtain ⟨htest', htrue', _⟩ := hnumbers
    exact .ifThen pos (htest.of_numbers htest') (iht htrue')
  | ifElse pos htest htrue hfalse iht ihf =>
    rw [numbers_cond, numbers_cond, forall₂_append_iff htest.numbers.length_eq,
      forall₂_append_iff htrue.numbers.length_eq] at hnumbers
    obtain ⟨htest', htrue', hfalse'⟩ := hnumbers
    exact .ifElse pos (htest.of_numbers htest') (iht htrue') (ihf (by simpa using hfalse'))
  | loop pos htest hbody ih =>
    rw [numbers_loop, numbers_loop, forall₂_append_iff htest.numbers.length_eq] at hnumbers
    exact .loop pos (htest.of_numbers hnumbers.1) (ih hnumbers.2)

end Stmt

/-! ## Equality up to the bits of NaNs -/

/-- The programs are equal syntax trees, and number literals at corresponding places that are both zero have
the same sign. -/
structure Program.EqUpToNaN (p q : Program) : Prop where
  same : Stmt.sameList p q
  signs : ∀ x y, (x, y) ∈ p.numbers.zip q.numbers → x.isZero → y.isZero → x.isNegative = y.isNegative

theorem Program.eqUpToNaN_iff {p q : Program} :
    Program.EqUpToNaN p q ↔ List.Forall₂ (Stmt.EqUpTo Number.EqUpToNaN) p q := by
  constructor
  · rintro ⟨hsame, hsigns⟩
    have hall : List.Forall₂ (Stmt.EqUpTo fun x y => x.sameLiteral y) p q :=
      (Stmt.sameList_iff.mp hsame).imp fun _ _ => Stmt.same_iff.mp
    have hliterals : List.Forall₂ (fun x y => x.sameLiteral y) p.numbers q.numbers := by
      rw [Program.numbers_eq_flatMap, Program.numbers_eq_flatMap]
      exact List.rel_flatMap hall fun _ _ h => h.numbers
    have hnumbers : List.Forall₂ Number.EqUpToNaN p.numbers q.numbers := by
      obtain ⟨hlength, hliterals⟩ := List.forall₂_iff_zip.mp hliterals
      refine List.forall₂_iff_zip.mpr ⟨hlength, fun hxy => ?_⟩
      exact Number.eqUpToNaN_iff.mpr ⟨hliterals hxy, hsigns _ _ hxy⟩
    rw [Program.numbers_eq_flatMap, Program.numbers_eq_flatMap] at hnumbers
    refine forall₂_of_flatMap (hall.imp fun s t h => ⟨h.numbers.length_eq, h.of_numbers⟩) hnumbers
  · intro h
    have hnumbers : List.Forall₂ Number.EqUpToNaN p.numbers q.numbers := by
      rw [Program.numbers_eq_flatMap, Program.numbers_eq_flatMap]
      exact List.rel_flatMap h fun _ _ h => h.numbers
    refine ⟨Stmt.sameList_iff.mpr (h.imp fun s t hst => ?_), fun x y hxy => ?_⟩
    · have hst' := hst.numbers.imp fun x y hxy => (Number.eqUpToNaN_iff.mp hxy).1
      exact Stmt.same_iff.mpr (hst.of_numbers hst')
    · exact (Number.eqUpToNaN_iff.mp ((List.forall₂_iff_zip.mp hnumbers).2 hxy)).2

theorem Program.EqUpToNaN.refl (p : Program) : Program.EqUpToNaN p p :=
  Program.eqUpToNaN_iff.mpr (List.forall₂_same.mpr fun s _ => .refl Number.EqUpToNaN.refl s)

end Lox
