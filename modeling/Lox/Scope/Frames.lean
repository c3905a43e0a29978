import Lox.Scope.Bindings
import Lox.Value.Basic
import Lox.Text.Quoted

/-!
# Frames

The frames of variables that a run has made so far. A frame holds bindings and a link to the frame
that encloses it; a name stands for its binding in the nearest frame of the chain of links. Frames are
only ever added, and a link is never changed.
-/

namespace Lox

/-- One scope: its own bindings, and the frame around it, which only the outermost lacks. -/
structure Frame where
  bindings : Bindings Value
  enclosing : Option FrameId
  deriving Inhabited

/-- All frames made so far; a frame's identity is its index. -/
structure Frames where
  all : Array Frame
  deriving Inhabited

namespace Frames

/-- One frame without bindings, enclosed by nothing. -/
def initial : Frames := ⟨#[⟨.empty, none⟩]⟩

def enclosing? (s : Frames) (f : FrameId) : Option FrameId := s.all[f]?.bind (·.enclosing)

/-- The value that the frame `f` itself binds to a name. -/
def own? (s : Frames) (f : FrameId) (name : String) : Option Value :=
  s.all[f]?.bind (·.bindings.get? name)

/-- The names that the frame `f` itself binds, in increasing order. -/
def names (s : Frames) (f : FrameId) : List String := (s.all[f]?.map (·.bindings.names)).getD []

/-! ## The chain of a frame -/

/-- At most `n` frames, from `f` outwards. -/
def climb (s : Frames) : Nat → FrameId → List FrameId
  | 0, _ => []
  | n + 1, f =>
    f :: match s.enclosing? f with
      | some g => s.climb n g
      | none => []

/-- The frame `f` and all frames around it, nearest first. A link leads to a frame with a smaller
index, so there are at most `f + 1` of them. -/
def chain (s : Frames) (f : FrameId) : List FrameId := s.climb (f + 1) f

/-- The number of frames around `f`. -/
def depth (s : Frames) (f : FrameId) : Nat := (s.chain f).tail.length

/-- The nearest frame of the chain of `f` that binds the name. -/
def owner? (s : Frames) (f : FrameId) (name : String) : Option FrameId :=
  (s.chain f).find? fun g => (s.own? g name).isSome

/-- The value that the name stands for in `f`. -/
def get? (s : Frames) (f : FrameId) (name : String) : Option Value :=
  (s.chain f).findSome? fun g => s.own? g name

/-! ## Changes -/

/-- A new frame without bindings inside `parent`. -/
def openScope (s : Frames) (parent : FrameId) : FrameId × Frames :=
  (s.all.size, ⟨s.all.push ⟨.empty, some parent⟩⟩)

def define (s : Frames) (f : FrameId) (name : String) (value : Value) : Frames :=
  ⟨s.all.modify f fun frame => { frame with bindings := frame.bindings.set name value }⟩

/-! ## Reading after a change -/

@[simp] theorem size_define (s : Frames) (f : FrameId) (name : String) (value : Value) :
    (s.define f name value).all.size = s.all.size := by simp [define]

@[simp] theorem enclosing?_define (s : Frames) (f g : FrameId) (name : String) (value : Value) :
    (s.define f name value).enclosing? g = s.enclosing? g := by
  simp only [enclosing?, define, Array.getElem?_modify]
  split <;> cases s.all[g]? <;> rfl

theorem own?_define (s : Frames) (f g : FrameId) (name other : String) (value : Value) :
    (s.define f name value).own? g other =
      if g = f ∧ other = name ∧ g < s.all.size then some value else s.own? g other := by
  simp only [own?, define, Array.getElem?_modify]
  by_cases hg : g < s.all.size
  · by_cases hf : f = g
    · subst hf
      by_cases hn : other = name
      · subst hn; simp [hg]
      · simp [hg, hn, Bindings.get?_set_of_ne hn]
    · have hf' : g ≠ f := fun h => hf h.symm
      simp [hf, hf']
  · simp [hg]

@[simp] theorem climb_define (s : Frames) (f : FrameId) (name : String) (value : Value) (n : Nat)
    (g : FrameId) : (s.define f name value).climb n g = s.climb n g := by
  induction n generalizing g with
  | zero => rfl
  | succ n ih => simp only [climb, enclosing?_define]; split <;> simp_all

@[simp] theorem chain_define (s : Frames) (f g : FrameId) (name : String) (value : Value) :
    (s.define f name value).chain g = s.chain g := climb_define s f name value _ g

/-- The text that shows a frame: its own names in order, and how deep it lies. -/
def describe (s : Frames) (f : FrameId) : String :=
  "Environment \x7b names: [" ++ String.intercalate ", " ((s.names f).map Text.quoted) ++
    "], depth: " ++ toString (s.depth f) ++ " \x7d"

end Frames

end Lox
