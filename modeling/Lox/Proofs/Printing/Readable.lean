import Lox.Proofs.Printing.Trees

/-!
# Reading printed trees

A tree can be read off its text, but for its positions and the bits of its NaNs (`text_eq_iff_bare_eq`). That
takes names that are words, as names of letters, digits and underscores are, and string literals without
quotes: names are not set apart from the syntax around them, and there are no escapes in strings.
-/

namespace Lox

/-! ## Legible trees -/

def Literal.Legible : Literal → Prop
  | .string text => '"' ∉ text.toList
  | _ => True

open Sexp (IsWord)

/-- All names are words, and there are no quotes in string literals. -/
inductive Expr.Legible : Expr → Prop
  | literal (pos : Pos) {x : Literal} (h : x.Legible) : Legible (.literal pos x)
  | group (pos : Pos) {e : Expr} (h : Legible e) : Legible (.group pos e)
  | unary (pos : Pos) (op : UnaryOp) {e : Expr} (h : Legible e) : Legible (.unary pos op e)
  | binary (pos : Pos) (op : BinaryOp) {l r : Expr} (hl : Legible l) (hr : Legible r) :
    Legible (.binary pos op l r)
  | logical (pos : Pos) (op : LogicalOp) {l r : Expr} (hl : Legible l) (hr : Legible r) :
    Legible (.logical pos op l r)
  | var (pos : Pos) {x : String} (hx : IsWord x) : Legible (.variable pos x)
  | assign (pos : Pos) {x : String} {e : Expr} (hx : IsWord x) (h : Legible e) :
    Legible (.assign pos x e)
  | call (pos : Pos) {callee : Expr} {args : List Expr} (hcallee : Legible callee)
    (hargs : ∀ a ∈ args, Legible a) : Legible (.call pos callee args)

/-- All names are words, those of functions and parameters as well, and there are no quotes in string
literals. -/
inductive Stmt.Legible : Stmt → Prop
  | expression (pos : Pos) {e : Expr} (h : e.Legible) : Legible (.expression pos e)
  | print (pos : Pos) {e : Expr} (h : e.Legible) : Legible (.print pos e)
  | declare (pos : Pos) {x : String} {initial : Option Expr} (hx : IsWord x)
    (h : ∀ e ∈ initial, e.Legible) : Legible (.declare pos x initial)
  | block (pos : Pos) {body : List Stmt} (hbody : ∀ s ∈ body, Legible s) : Legible (.block pos body)
  | cond (pos : Pos) {test : Expr} {onTrue : Stmt} {onFalse : Option Stmt} (htest : test.Legible)
    (htrue : Legible onTrue) (hfalse : ∀ s ∈ onFalse, Legible s) :
    Legible (.cond pos test onTrue onFalse)
  | loop (pos : Pos) {test : Expr} {body : Stmt} (htest : test.Legible) (hbody : Legible body) :
    Legible (.loop pos test body)
  | function (pos : Pos) {name : String} {params : List String} {body : List Stmt} (hname : IsWord name)
    (hparams : ∀ x ∈ params, IsWord x) (hbody : ∀ s ∈ body, Legible s) :
    Legible (.function pos name params body)
  | ret (pos : Pos) {value : Option Expr} (h : ∀ e ∈ value, e.Legible) : Legible (.return pos value)

/-! ## Legible S-expressions -/

theorem isWord_keyword : ∀ w ∈ ["group", "ident", "=", "call", ";", "print", "var", "block", "if", "if-else",
    "while", "fun", "return"], IsWord w := by
  decide +kernel

theorem UnaryOp.isWord_token (op : UnaryOp) : IsWord op.token := by
  cases op <;> decide +kernel

theorem BinaryOp.isWord_token (op : BinaryOp) : IsWord op.token := by
  cases op <;> decide +kernel

theorem LogicalOp.isWord_token (op : LogicalOp) : IsWord op.token := by
  cases op <;> decide +kernel

theorem Number.isWord_write (x : Number) : IsWord (String.ofList (x.write shortInfinity)) := by
  refine ⟨fun h => x.write_ne_nil (String.ofList_eq_empty_iff.mp h), fun c hc hdelimiter => ?_⟩
  rw [String.toList_ofList] at hc
  simp only [Sexp.delimiters, List.mem_cons, List.not_mem_nil, or_false] at hdelimiter
  rcases hdelimiter with rfl | rfl | rfl | rfl
  all_goals exact absurd (mem_write hc) (by decide)

theorem Literal.Legible.sexp {x : Literal} (h : x.Legible) : x.sexp.Legible := by
  cases x with
  | number x => exact .word x.isWord_write
  | string text => exact .quoted h
  | bool b => cases b <;> exact .word (by decide +kernel)
  | nil => exact .word (by decide +kernel)

theorem Expr.Legible.sexp {e : Expr} (h : e.Legible) : e.sexp.Legible := by
  induction h with
  | literal pos h => exact h.sexp
  | group pos h ih => simp [Expr.sexp, isWord_keyword, ih]
  | unary pos op h ih => simp [Expr.sexp, op.isWord_token, ih]
  | binary pos op hl hr ihl ihr => simp [Expr.sexp, op.isWord_token, ihl, ihr]
  | logical pos op hl hr ihl ihr => simp [Expr.sexp, op.isWord_token, ihl, ihr]
  | var pos hx => simp [Expr.sexp, isWord_keyword, hx]
  | assign pos hx h ih => simp [Expr.sexp, isWord_keyword, hx, ih]
  | call pos hcallee hargs ihf ihargs =>
    simpa [Expr.sexp, Expr.sexps_eq_map, isWord_keyword, ihf] using ihargs

theorem Stmt.Legible.sexp {s : Stmt} (h : s.Legible) : s.sexp.Legible := by
  induction h with
  | expression pos h => simp [Stmt.sexp, isWord_keyword, h.sexp]
  | print pos h => simp [Stmt.sexp, isWord_keyword, h.sexp]
  | declare pos hx h =>
    simpa [Stmt.sexp, Expr.sexps_eq_map, isWord_keyword, hx] using fun e he => (h e he).sexp
  | block pos hbody ih => simpa [Stmt.sexp, Stmt.sexps_eq_map, isWord_keyword] using ih
  | @cond pos test onTrue onFalse htest htrue hfalse iht ihf =>
    cases onFalse with
    | none => simp [Stmt.sexp, isWord_keyword, htest.sexp, iht]
    | some s => simp [Stmt.sexp, isWord_keyword, htest.sexp, iht, ihf s rfl]
  | loop pos htest hbody ih => simp [Stmt.sexp, isWord_keyword, htest.sexp, ih]
  | function pos hname hparams hbody ih =>
    simpa [Stmt.sexp, Stmt.sexps_eq_map, isWord_keyword, hname] using ⟨hparams, ih⟩
  | ret pos h => simpa [Stmt.sexp, Expr.sexps_eq_map, isWord_keyword] using fun e he => (h e he).sexp

/-! ## Unique readability -/

theorem Expr.text_eq_iff {e f : Expr} (he : e.Legible) (hf : f.Legible) :
    e.text = f.text ↔ e.bare = f.bare := by
  rw [← Expr.sexp_eq_iff, Expr.text, Expr.text, String.ofList_inj, e.write_eq, f.write_eq]
  exact ⟨Sexp.eq_of_write_eq he.sexp hf.sexp, fun h => by rw [h]⟩

theorem Stmt.text_eq_iff {s t : Stmt} (hs : s.Legible) (ht : t.Legible) :
    s.text = t.text ↔ s.bare = t.bare := by
  rw [← Stmt.sexp_eq_iff, Stmt.text, Stmt.text, String.ofList_inj, s.write_eq, t.write_eq]
  exact ⟨Sexp.eq_of_write_eq hs.sexp ht.sexp, fun h => by rw [h]⟩

/-- **Printed trees are uniquely readable.** Let all names be words, and let there be no quotes in string
literals. Two expressions have one text if and only if they are equal without their positions and the bits of
their NaNs, and so do two statements. Zeros are told apart by their signs. -/
theorem text_eq_iff_bare_eq :
    (∀ e f : Expr, e.Legible → f.Legible → (e.text = f.text ↔ e.bare = f.bare)) ∧
      ∀ s t : Stmt, s.Legible → t.Legible → (s.text = t.text ↔ s.bare = t.bare) :=
  ⟨fun _ _ => Expr.text_eq_iff, fun _ _ => Stmt.text_eq_iff⟩

/-- `fun f(a_1, b) { return f(")(", x); }`, all at one position. -/
private def quotingFunction (pos : Pos) (x : Number) : Stmt :=
  .function pos "f" ["a_1", "b"] [.return pos (some (.call pos (.variable pos "f")
    [.literal pos (.string ")("), .literal pos (.number x)]))]

private theorem isWord_quotingNames : ∀ x ∈ ["f", "a_1", "b"], IsWord x := by
  intro x hx
  refine Sexp.isWord_of_identifier ?_ ?_
  all_goals
    revert x
    decide +kernel

private theorem legible_quotingFunction (pos : Pos) (x : Number) : (quotingFunction pos x).Legible := by
  have hf : IsWord "f" := isWord_quotingNames "f" List.mem_cons_self
  have hparams : ∀ y ∈ ["a_1", "b"], IsWord y := fun y hy =>
    isWord_quotingNames y (List.mem_cons_of_mem _ hy)
  have hstring : (Literal.string ")(").Legible := by
    unfold Literal.Legible
    decide +kernel
  have hargs : ∀ a ∈ [Expr.literal pos (.string ")("), .literal pos (.number x)], a.Legible := by
    rw [List.forall_mem_cons, List.forall_mem_singleton]
    exact ⟨.literal pos hstring, .literal pos trivial⟩
  refine .function pos hf hparams ?_
  rw [List.forall_mem_singleton]
  refine .ret pos fun e he => ?_
  rw [← Option.some.inj he]
  exact .call pos (.var pos hf) hargs

/-- Different NaNs at different places have no part in the text. A difference is not printed like the
opposite of a number. -/
theorem text_eq_iff_bare_eq_quoting :
    quotingFunction ⟨1, 0⟩ ⟨Number.infinityBits + 1⟩ ≠ quotingFunction ⟨2, 7⟩ ⟨Number.infinityBits + 2⟩ ∧
      (quotingFunction ⟨1, 0⟩ ⟨Number.infinityBits + 1⟩).text =
        (quotingFunction ⟨2, 7⟩ ⟨Number.infinityBits + 2⟩).text ∧
      (Expr.unary ⟨1, 0⟩ .negate (.variable ⟨1, 1⟩ "b")).text ≠
        (Expr.binary ⟨1, 2⟩ .subtract (.variable ⟨1, 0⟩ "b") (.variable ⟨1, 4⟩ "b")).text := by
  have hb : IsWord "b" := isWord_quotingNames "b" (by simp)
  refine ⟨?_, ?_, fun htext => ?_⟩
  · intro h
    injection h with hpos
    cases hpos
  · exact (text_eq_iff_bare_eq.2 _ _ (legible_quotingFunction _ _) (legible_quotingFunction _ _)).mpr rfl
  · have hbare := (text_eq_iff_bare_eq.1 _ _ (.unary _ _ (.var _ hb))
      (.binary _ _ (.var _ hb) (.var _ hb))).mp htext
    cases hbare

end Lox
