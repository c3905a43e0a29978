import Lox.Proofs.Base.Frames
import Lox.Syntax.Basic

/-!
# Well-scoped programs

A check of names that needs no run: every variable that a program reads or assigns must have been
declared before, in a scope around it. The check goes over a program from top to bottom with the names
that each open scope binds so far. Names that the branch of a conditional or the body of a loop declares
directly do not count afterwards, as the declaration may not have been run.
-/

namespace Lox

/-- The names that each scope binds, innermost scope first. -/
abbrev Scopes := List (List String)

namespace Scopes

def binds (Γ : Scopes) (name : String) : Bool := Γ.any fun names => names.contains name

def add (name : String) : Scopes → Scopes
  | [] => [[name]]
  | names :: Γ => (name :: names) :: Γ

variable {Γ : Scopes} {name x : String} {names : List String}

@[simp] theorem binds_cons : binds (names :: Γ) x ↔ x ∈ names ∨ Γ.binds x := by simp [binds]

@[simp] theorem binds_add : (Γ.add name).binds x ↔ x = name ∨ Γ.binds x := by
  cases Γ with
  | nil => simp [add, binds]
  | cons names Γ => simp [add, or_assoc]

end Scopes

/-! ## The check -/

mutual

/-- All variables and targets of assignments are bound. -/
def Expr.scoped (Γ : Scopes) : Expr → Bool
  | .literal _ _ => true
  | .group _ e | .unary _ _ e => e.scoped Γ
  | .binary _ _ l r | .logical _ _ l r => l.scoped Γ && r.scoped Γ
  | .variable _ name => Γ.binds name
  | .assign _ name e => e.scoped Γ && Γ.binds name
  | .call _ callee args => callee.scoped Γ && Expr.scopedList Γ args

def Expr.scopedList (Γ : Scopes) : List Expr → Bool
  | [] => true
  | e :: es => e.scoped Γ && Expr.scopedList Γ es

end

def Expr.scopedOption (Γ : Scopes) : Option Expr → Bool
  | some e => e.scoped Γ
  | none => true

/-- The scopes after a statement: a declaration binds a name in the innermost one. -/
def Stmt.after (Γ : Scopes) : Stmt → Scopes
  | .declare _ name _ | .function _ name _ _ => Γ.add name
  | _ => Γ

mutual

/-- All variables and targets of assignments are bound, in the bodies of functions as well. A function is
bound in its own body, around its parameters. -/
def Stmt.scoped (Γ : Scopes) : Stmt → Bool
  | .expression _ e | .print _ e => e.scoped Γ
  | .declare _ _ initial => Expr.scopedOption Γ initial
  | .block _ body => Stmt.scopedList ([] :: Γ) body
  | .cond _ test onTrue onFalse => test.scoped Γ && onTrue.scoped Γ && Stmt.scopedOption Γ onFalse
  | .loop _ test body => test.scoped Γ && body.scoped Γ
  | .function _ name params body => Stmt.scopedList (params :: Γ.add name) body
  | .return _ value => Expr.scopedOption Γ value

/-- Each statement is checked with the scopes after the one before it. -/
def Stmt.scopedList (Γ : Scopes) : List Stmt → Bool
  | [] => true
  | s :: ss => s.scoped Γ && Stmt.scopedList (s.after Γ) ss

def Stmt.scopedOption (Γ : Scopes) : Option Stmt → Bool
  | some s => s.scoped Γ
  | none => true

end

theorem Expr.scopedList_iff {Γ : Scopes} {es : List Expr} :
    Expr.scopedList Γ es ↔ ∀ e ∈ es, e.scoped Γ := by
  induction es with
  | nil => simp [Expr.scopedList]
  | cons e es ih => simp [Expr.scopedList, ih]

/-! ## Frames and scopes -/

namespace Frames

variable {s t : Frames} {f : FrameId} {Γ : Scopes}

/-- All names that the scopes bind stand for something in the frame. -/
def Covers (s : Frames) (f : FrameId) (Γ : Scopes) : Prop := ∀ x, Γ.binds x → (s.get? f x).isSome

/-- The scopes of a frame: the names that it binds itself, and those of the frames around it. -/
def scopes (s : Frames) (f : FrameId) : Scopes := (s.chain f).map s.names

theorem covers_scopes (s : Frames) (f : FrameId) : s.Covers f (s.scopes f) := by
  intro x hx
  simp only [Scopes.binds, scopes, List.any_map, List.any_eq_true, Function.comp_apply,
    List.contains_iff_mem, mem_names] at hx
  exact get?_isSome_iff.mpr hx

theorem Covers.grows (h : s.Covers f Γ) (hst : s.Grows t) : t.Covers f Γ :=
  fun x hx => hst.get?_isSome (h x hx)

theorem Covers.define (h : s.Covers f Γ) (hf : f < s.all.size) (name : String) (value : Value) :
    (s.define f name value).Covers f (Γ.add name) := by
  intro x hx
  rcases Scopes.binds_add.mp hx with rfl | hx
  · exact get?_define_isSome hf x value
  · exact (grows_define s f name value).get?_isSome (h x hx)

theorem Covers.openScope (h : s.Covers f Γ) (hf : f < s.all.size) :
    (s.openScope f).2.Covers s.all.size Γ :=
  fun x hx => get?_openScope_isSome hf (h x hx)

theorem Covers.cons (h : s.Covers f Γ) {names : List String}
    (hnames : ∀ x ∈ names, (s.get? f x).isSome) : s.Covers f (names :: Γ) := by
  intro x hx
  rcases Scopes.binds_cons.mp hx with hx | hx
  · exact hnames x hx
  · exact h x hx

end Frames

end Lox
