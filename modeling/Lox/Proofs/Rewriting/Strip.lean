import Lox.Proofs.Base.Agreement
import Lox.Proofs.Base.Induction
import Lox.Proofs.Run.Simulation

/-!
# Stripped programs

A tree without parentheses, and with its positions replaced (`Expr.strip`, `Stmt.strip`). What a run makes
of a tree is stripped along with it: a function value keeps the body that it was declared with, so values
are stripped (`Value.strip`), and so are frames and machines that hold them. That commutes with all
operations on frames (`Frames.strip_define`, `Frames.strip_openScope`, `Frames.owner?_strip`).
-/

namespace Lox

/-! ## Trees -/

section trees

variable (φ : Pos → Pos)

mutual

/-- The expression without parentheses, and with its positions replaced. -/
def Expr.strip : Expr → Expr
  | .literal pos x => .literal (φ pos) x
  | .group _ e => e.strip
  | .unary pos op e => .unary (φ pos) op e.strip
  | .binary pos op l r => .binary (φ pos) op l.strip r.strip
  | .logical pos op l r => .logical (φ pos) op l.strip r.strip
  | .variable pos x => .variable (φ pos) x
  | .assign pos x e => .assign (φ pos) x e.strip
  | .call pos callee args => .call (φ pos) callee.strip (Expr.stripList args)

def Expr.stripList : List Expr → List Expr
  | [] => []
  | e :: es => e.strip :: Expr.stripList es

end

mutual

/-- The statement without parentheses, and with its positions replaced. -/
def Stmt.strip : Stmt → Stmt
  | .expression pos e => .expression (φ pos) (e.strip φ)
  | .print pos e => .print (φ pos) (e.strip φ)
  | .declare pos x initial => .declare (φ pos) x (initial.map (Expr.strip φ))
  | .block pos body => .block (φ pos) (Stmt.stripList body)
  | .cond pos test onTrue onFalse =>
    .cond (φ pos) (test.strip φ) onTrue.strip (Stmt.stripOption onFalse)
  | .loop pos test body => .loop (φ pos) (test.strip φ) body.strip
  | .function pos name params body => .function (φ pos) name params (Stmt.stripList body)
  | .return pos value => .return (φ pos) (value.map (Expr.strip φ))

def Stmt.stripList : List Stmt → List Stmt
  | [] => []
  | s :: ss => s.strip :: Stmt.stripList ss

def Stmt.stripOption : Option Stmt → Option Stmt
  | some s => some s.strip
  | none => none

end

theorem Expr.stripList_eq_map (es : List Expr) : Expr.stripList φ es = es.map (Expr.strip φ) := by
  induction es with
  | nil => rfl
  | cons e es ih => rw [Expr.stripList, ih, List.map_cons]

theorem Stmt.stripList_eq_map (ss : List Stmt) : Stmt.stripList φ ss = ss.map (Stmt.strip φ) := by
  induction ss with
  | nil => rfl
  | cons s ss ih => rw [Stmt.stripList, ih, List.map_cons]

end trees

/-! ## Values -/

section values

variable (φ : Pos → Pos)

def Function.strip (fn : Function) : Function := { fn with body := Stmt.stripList φ fn.body }

/-- A declared function has a stripped body; a native function is as it was. -/
def Code.strip : Code → Code
  | .closure fn scope => .closure (fn.strip φ) scope
  | .native fn => .native fn

def Callable.strip (f : Callable) : Callable := { f with code := f.code.strip φ }

def Value.strip : Value → Value
  | .callable f => .callable (f.strip φ)
  | v => v

end values

/-! ## Frames -/

def Bindings.map {α β : Type} (g : α → β) (b : Bindings α) : Bindings β where
  entries := b.entries.map fun e => (e.1, g e.2)
  sorted := List.pairwise_map.mpr b.sorted

theorem Bindings.get?_map {α β : Type} (g : α → β) (b : Bindings α) (name : String) :
    (b.map g).get? name = (b.get? name).map g := by
  show (b.entries.map fun e => (e.1, g e.2)).lookup name = (b.entries.lookup name).map g
  induction b.entries with
  | nil => rfl
  | cons e rest ih =>
    rw [List.map_cons, List.lookup_cons, List.lookup_cons, ih]
    split <;> rfl

theorem Bindings.map_place {α β : Type} (g : α → β) (name : String) (value : α)
    (l : List (String × α)) :
    (place name value l).map (fun e => (e.1, g e.2)) =
      place name (g value) (l.map fun e => (e.1, g e.2)) := by
  induction l with
  | nil => rfl
  | cons e rest ih =>
    rw [place, List.map_cons, place]
    split
    · rfl
    · split
      · rfl
      · rw [List.map_cons, ih]

theorem Bindings.map_set {α β : Type} (g : α → β) (b : Bindings α) (name : String) (value : α) :
    (b.set name value).map g = (b.map g).set name (g value) :=
  Bindings.ext (map_place g name value b.entries)

def Frame.strip (φ : Pos → Pos) (frame : Frame) : Frame :=
  { frame with bindings := frame.bindings.map (Value.strip φ) }

namespace Frames

def strip (φ : Pos → Pos) (s : Frames) : Frames := ⟨s.all.map (Frame.strip φ)⟩

variable (φ : Pos → Pos) (s : Frames)

@[simp] theorem size_strip : (s.strip φ).all.size = s.all.size := Array.size_map

@[simp] theorem enclosing?_strip (f : FrameId) : (s.strip φ).enclosing? f = s.enclosing? f := by
  rw [enclosing?, enclosing?, strip, Array.getElem?_map]
  cases s.all[f]? <;> rfl

@[simp] theorem own?_strip (f : FrameId) (name : String) :
    (s.strip φ).own? f name = (s.own? f name).map (Value.strip φ) := by
  rw [own?, own?, strip, Array.getElem?_map]
  cases s.all[f]? with
  | none => rfl
  | some frame => exact Bindings.get?_map _ frame.bindings name

@[simp] theorem chain_strip (f : FrameId) : (s.strip φ).chain f = s.chain f :=
  climb_congr (S := fun _ => True) (fun f _ => enclosing?_strip φ s f) (fun _ _ _ _ => trivial) trivial
    (f + 1)

@[simp] theorem depth_strip (f : FrameId) : (s.strip φ).depth f = s.depth f := by
  rw [depth, depth, chain_strip]

@[simp] theorem owner?_strip (f : FrameId) (name : String) :
    (s.strip φ).owner? f name = s.owner? f name := by
  simp only [owner?, chain_strip, own?_strip, Option.isSome_map]

theorem ext_getElem? {s t : Frames} (h : ∀ f : FrameId, s.all[f]? = t.all[f]?) : s = t :=
  congrArg mk (Array.ext_getElem? h)

theorem strip_define (f : FrameId) (name : String) (value : Value) :
    (s.define f name value).strip φ = (s.strip φ).define f name (value.strip φ) := by
  refine ext_getElem? fun g => ?_
  rw [getElem?_define, strip, strip, Array.getElem?_map, Array.getElem?_map, getElem?_define]
  split
  · cases s.all[g]? with
    | none => rfl
    | some frame =>
      show some (Frame.strip φ _) = some _
      rw [Frame.strip, Bindings.map_set]
      rfl
  · rfl

theorem strip_openScope (f : FrameId) :
    (s.openScope f).2.strip φ = ((s.strip φ).openScope f).2 := by
  refine ext_getElem? fun g => ?_
  rw [getElem?_openScope, size_strip, strip, strip, Array.getElem?_map, Array.getElem?_map,
    getElem?_openScope]
  split <;> rfl

theorem strip_defineAll (f : FrameId) (names : List String) (values : List Value) :
    (s.defineAll f names values).strip φ =
      (s.strip φ).defineAll f names (values.map (Value.strip φ)) := by
  induction names generalizing s values with
  | nil => rfl
  | cons name names ih =>
    cases values with
    | nil => rfl
    | cons value values =>
      rw [defineAll, ih, strip_define]
      rfl

end Frames

def Machine.strip (φ : Pos → Pos) (m : Machine) : Machine := { m with frames := m.frames.strip φ }

end Lox
