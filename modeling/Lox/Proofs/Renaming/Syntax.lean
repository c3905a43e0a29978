import Lox.Proofs.Base.Induction

/-!
# Names in syntax trees

The names that a tree mentions, the functions that it declares, and the tree with its names replaced. A
parameter of a function is renamed in its list of parameters and in its body, at one place of a program
and nowhere else (`Stmt.RenamesParam`).
-/

namespace Lox

/-! ## The names of a tree -/

mutual

/-- The variables of an expression and the targets of its assignments. -/
def Expr.names : Expr → List String
  | .literal _ _ => []
  | .group _ e | .unary _ _ e => e.names
  | .binary _ _ l r | .logical _ _ l r => l.names ++ r.names
  | .variable _ x => [x]
  | .assign _ x e => x :: e.names
  | .call _ callee args => callee.names ++ Expr.namesOfList args

def Expr.namesOfList : List Expr → List String
  | [] => []
  | e :: es => e.names ++ Expr.namesOfList es

end

def Expr.namesOfOption : Option Expr → List String
  | some e => e.names
  | none => []

mutual

/-- All names in a statement: variables and assignments, declarations, and parameters. -/
def Stmt.names : Stmt → List String
  | .expression _ e | .print _ e => e.names
  | .declare _ x initial => x :: Expr.namesOfOption initial
  | .block _ body => Stmt.namesOfList body
  | .cond _ test onTrue onFalse => test.names ++ (onTrue.names ++ Stmt.namesOfOption onFalse)
  | .loop _ test body => test.names ++ body.names
  | .function _ name params body => name :: (params ++ Stmt.namesOfList body)
  | .return _ value => Expr.namesOfOption value

def Stmt.namesOfList : List Stmt → List String
  | [] => []
  | s :: ss => s.names ++ Stmt.namesOfList ss

def Stmt.namesOfOption : Option Stmt → List String
  | some s => s.names
  | none => []

end

mutual

/-- The names of the functions that are declared in a statement, at any depth. -/
def Stmt.functions : Stmt → List String
  | .expression _ _ | .print _ _ | .declare _ _ _ | .return _ _ => []
  | .block _ body => Stmt.functionsOfList body
  | .cond _ _ onTrue onFalse => onTrue.functions ++ Stmt.functionsOfOption onFalse
  | .loop _ _ body => body.functions
  | .function _ name _ body => name :: Stmt.functionsOfList body

def Stmt.functionsOfList : List Stmt → List String
  | [] => []
  | s :: ss => s.functions ++ Stmt.functionsOfList ss

def Stmt.functionsOfOption : Option Stmt → List String
  | some s => s.functions
  | none => []

end

theorem Expr.mem_namesOfList {x : String} {es : List Expr} :
    x ∈ Expr.namesOfList es ↔ ∃ e ∈ es, x ∈ e.names := by
  induction es with
  | nil => simp [Expr.namesOfList]
  | cons e es ih => simp [Expr.namesOfList, ih]

theorem Stmt.mem_namesOfList {x : String} {ss : List Stmt} :
    x ∈ Stmt.namesOfList ss ↔ ∃ s ∈ ss, x ∈ s.names := by
  induction ss with
  | nil => simp [Stmt.namesOfList]
  | cons s ss ih => simp [Stmt.namesOfList, ih]

theorem Stmt.mem_functionsOfList {x : String} {ss : List Stmt} :
    x ∈ Stmt.functionsOfList ss ↔ ∃ s ∈ ss, x ∈ s.functions := by
  induction ss with
  | nil => simp [Stmt.functionsOfList]
  | cons s ss ih => simp [Stmt.functionsOfList, ih]

/-! ## Replacing names -/

section rename

variable (ρ : String → String)

mutual

def Expr.rename : Expr → Expr
  | .literal pos x => .literal pos x
  | .group pos e => .group pos e.rename
  | .unary pos op e => .unary pos op e.rename
  | .binary pos op l r => .binary pos op l.rename r.rename
  | .logical pos op l r => .logical pos op l.rename r.rename
  | .variable pos x => .variable pos (ρ x)
  | .assign pos x e => .assign pos (ρ x) e.rename
  | .call pos callee args => .call pos callee.rename (Expr.renameList args)

def Expr.renameList : List Expr → List Expr
  | [] => []
  | e :: es => e.rename :: Expr.renameList es

end

mutual

def Stmt.rename : Stmt → Stmt
  | .expression pos e => .expression pos (e.rename ρ)
  | .print pos e => .print pos (e.rename ρ)
  | .declare pos x initial => .declare pos (ρ x) (initial.map (Expr.rename ρ))
  | .block pos body => .block pos (Stmt.renameList body)
  | .cond pos test onTrue onFalse =>
    .cond pos (test.rename ρ) onTrue.rename (Stmt.renameOption onFalse)
  | .loop pos test body => .loop pos (test.rename ρ) body.rename
  | .function pos name params body => .function pos (ρ name) (params.map ρ) (Stmt.renameList body)
  | .return pos value => .return pos (value.map (Expr.rename ρ))

def Stmt.renameList : List Stmt → List Stmt
  | [] => []
  | s :: ss => s.rename :: Stmt.renameList ss

def Stmt.renameOption : Option Stmt → Option Stmt
  | some s => some s.rename
  | none => none

end

theorem Expr.renameList_eq_map (es : List Expr) : Expr.renameList ρ es = es.map (Expr.rename ρ) := by
  induction es with
  | nil => rfl
  | cons e es ih => rw [Expr.renameList, ih, List.map_cons]

theorem Stmt.renameList_eq_map (ss : List Stmt) : Stmt.renameList ρ ss = ss.map (Stmt.rename ρ) := by
  induction ss with
  | nil => rfl
  | cons s ss ih => rw [Stmt.renameList, ih, List.map_cons]

end rename

/-! ### Replacing each name by itself -/

section same

variable {ρ : String → String}

theorem Expr.rename_eq_self {e : Expr} (h : ∀ x ∈ e.names, ρ x = x) : e.rename ρ = e := by
  induction e with
  | literal pos x => rfl
  | group pos e ih => rw [Expr.rename, ih h]
  | unary pos op e ih => rw [Expr.rename, ih h]
  | binary pos op l r ihl ihr =>
    rw [Expr.names, List.forall_mem_append] at h
    rw [Expr.rename, ihl h.1, ihr h.2]
  | logical pos op l r ihl ihr =>
    rw [Expr.names, List.forall_mem_append] at h
    rw [Expr.rename, ihl h.1, ihr h.2]
  | var pos x => rw [Expr.rename, h x (by simp [Expr.names])]
  | assign pos x e ih =>
    rw [Expr.names, List.forall_mem_cons] at h
    rw [Expr.rename, h.1, ih h.2]
  | call pos callee args ihf ihargs =>
    rw [Expr.names, List.forall_mem_append] at h
    have hargs (e : Expr) (he : e ∈ args) : e.rename ρ = e :=
      ihargs e he fun x hx => h.2 x (Expr.mem_namesOfList.mpr ⟨e, he, hx⟩)
    rw [Expr.rename, ihf h.1, Expr.renameList_eq_map, List.map_congr_left hargs, List.map_id']

theorem Expr.map_rename_eq_self {o : Option Expr} (h : ∀ x ∈ Expr.namesOfOption o, ρ x = x) :
    o.map (Expr.rename ρ) = o := by
  cases o with
  | none => rfl
  | some e => rw [Option.map_some, Expr.rename_eq_self h]

theorem Stmt.rename_eq_self {s : Stmt} (h : ∀ x ∈ s.names, ρ x = x) : s.rename ρ = s := by
  have list {ss : List Stmt} (ih : ∀ s ∈ ss, (∀ x ∈ s.names, ρ x = x) → s.rename ρ = s)
      (h : ∀ x ∈ Stmt.namesOfList ss, ρ x = x) : Stmt.renameList ρ ss = ss := by
    have hss (s : Stmt) (hs : s ∈ ss) : s.rename ρ = s :=
      ih s hs fun x hx => h x (Stmt.mem_namesOfList.mpr ⟨s, hs, hx⟩)
    rw [Stmt.renameList_eq_map, List.map_congr_left hss, List.map_id']
  induction s with
  | expression pos e => rw [Stmt.rename, Expr.rename_eq_self h]
  | print pos e => rw [Stmt.rename, Expr.rename_eq_self h]
  | declare pos x initial =>
    rw [Stmt.names, List.forall_mem_cons] at h
    rw [Stmt.rename, h.1, Expr.map_rename_eq_self h.2]
  | block pos body ih => rw [Stmt.rename, list ih h]
  | cond pos test onTrue onFalse iht ihf =>
    rw [Stmt.names, List.forall_mem_append, List.forall_mem_append] at h
    have hfalse : Stmt.renameOption ρ onFalse = onFalse := by
      cases onFalse with
      | none => rfl
      | some s => rw [Stmt.renameOption, ihf s rfl h.2.2]
    rw [Stmt.rename, Expr.rename_eq_self h.1, iht h.2.1, hfalse]
  | loop pos test body ih =>
    rw [Stmt.names, List.forall_mem_append] at h
    rw [Stmt.rename, Expr.rename_eq_self h.1, ih h.2]
  | function pos name params body ih =>
    rw [Stmt.names, List.forall_mem_cons, List.forall_mem_append] at h
    have hparams : params.map ρ = params := by rw [List.map_congr_left h.2.1, List.map_id']
    rw [Stmt.rename, h.1, hparams, list ih h.2.2]
  | ret pos value => rw [Stmt.rename, Expr.map_rename_eq_self h]

end same

/-! ## Renaming a parameter -/

/-- The function that puts `q` in the place of `p`. -/
def substitute (p q x : String) : String := if x = p then q else x

/-- Somewhere in the statement a function with a parameter `p` is declared, and no function inside it is
called `p`. There the parameter is renamed to `q`; all else is as before. -/
inductive Stmt.RenamesParam (p q : String) : Stmt → Stmt → Prop
  | here (pos : Pos) (name : String) {params : List String} {body : List Stmt} (hparam : p ∈ params)
    (hbody : p ∉ Stmt.functionsOfList body) :
    RenamesParam p q (.function pos name params body)
      (.function pos name (params.map (substitute p q)) (Stmt.renameList (substitute p q) body))
  | block (pos : Pos) (before after : List Stmt) {s s' : Stmt} (h : RenamesParam p q s s') :
    RenamesParam p q (.block pos (before ++ s :: after)) (.block pos (before ++ s' :: after))
  | onTrue (pos : Pos) (test : Expr) {s s' : Stmt} (onFalse : Option Stmt)
    (h : RenamesParam p q s s') : RenamesParam p q (.cond pos test s onFalse) (.cond pos test s' onFalse)
  | onFalse (pos : Pos) (test : Expr) (onTrue : Stmt) {s s' : Stmt} (h : RenamesParam p q s s') :
    RenamesParam p q (.cond pos test onTrue (some s)) (.cond pos test onTrue (some s'))
  | loop (pos : Pos) (test : Expr) {s s' : Stmt} (h : RenamesParam p q s s') :
    RenamesParam p q (.loop pos test s) (.loop pos test s')
  | function (pos : Pos) (name : String) (params : List String) (before after : List Stmt)
    {s s' : Stmt} (h : RenamesParam p q s s') :
    RenamesParam p q (.function pos name params (before ++ s :: after))
      (.function pos name params (before ++ s' :: after))

/-- The function is declared in one of the statements. -/
def Stmt.RenamesParamIn (p q : String) (ss ss' : List Stmt) : Prop :=
  ∃ before s s' after, s.RenamesParam p q s' ∧ ss = before ++ s :: after ∧ ss' = before ++ s' :: after

end Lox
