import Lox.Call
import Lox.Proofs.Numbers.Values
import Lox.Proofs.Scoping.Names

/-!
# Machines that are equal up to the bits of NaNs

Frames are equal up to the bits of NaNs if they are linked in the same way, and bind the same names to values
that are. The steps of runs keep that, and give results that are equal in that sense.
-/

namespace Lox

variable {ε ε₁ α α₁ : Type}

/-- The frames are linked in the same way, and bind the same names to values that are equal but for the bits
of NaNs. -/
structure Frames.EqUpToNaN (s t : Frames) : Prop where
  size : s.all.size = t.all.size
  link : ∀ f, s.enclosing? f = t.enclosing? f
  values : ∀ f name, Option.Rel Value.EqUpToNaN (s.own? f name) (t.own? f name)

theorem Value.EqUpToNaN.rel_refl (o : Option Value) : Option.Rel Value.EqUpToNaN o o := by
  cases o with
  | none => exact .none
  | some v => exact .some (.refl v)

theorem Value.EqUpToNaN.isSome_eq {o o' : Option Value} (h : Option.Rel Value.EqUpToNaN o o') :
    o.isSome = o'.isSome := by
  cases h <;> rfl

namespace Frames.EqUpToNaN

variable {s t : Frames} {v w : Value}

theorem refl (s : Frames) : s.EqUpToNaN s := ⟨rfl, fun _ => rfl, fun _ _ => Value.EqUpToNaN.rel_refl _⟩

/-! ## Reading -/

variable (h : s.EqUpToNaN t)
include h

theorem isSome_own? (f : FrameId) (name : String) : (s.own? f name).isSome = (t.own? f name).isSome :=
  Value.EqUpToNaN.isSome_eq (h.values f name)

/-- As names are in order, frames that bind the same names have the same list of them. -/
theorem names (f : FrameId) : s.names f = t.names f := by
  have hmem (x : String) : x ∈ s.names f ↔ x ∈ t.names f := by
    rw [mem_names, mem_names, h.isSome_own?]
  exact List.Subset.antisymm_of_pairwise (pairwise_names s f) (pairwise_names t f)
    (fun x => (hmem x).mp) fun x => (hmem x).mpr

theorem chain (f : FrameId) : s.chain f = t.chain f :=
  climb_congr (S := fun _ => True) (fun f _ => h.link f) (fun _ _ _ _ => trivial) trivial (f + 1)

theorem depth (f : FrameId) : s.depth f = t.depth f := by rw [Frames.depth, Frames.depth, h.chain]

theorem owner? (f : FrameId) (name : String) : s.owner? f name = t.owner? f name := by
  simp only [Frames.owner?, h.chain, h.isSome_own?]

theorem get? (f : FrameId) (name : String) :
    Option.Rel Value.EqUpToNaN (s.get? f name) (t.get? f name) := by
  rw [get?_eq_owner?_bind, get?_eq_owner?_bind, h.owner?]
  cases t.owner? f name with
  | none => exact .none
  | some g => exact h.values g name

/-! ## Changing -/

theorem define (hv : v.EqUpToNaN w) (f : FrameId) (name : String) :
    (s.define f name v).EqUpToNaN (t.define f name w) where
  size := by rw [size_define, size_define, h.size]
  link g := by rw [enclosing?_define, enclosing?_define, h.link]
  values g other := by
    rw [own?_define, own?_define, h.size]
    split
    · exact .some hv
    · exact h.values g other

theorem openScope (f : FrameId) : (s.openScope f).2.EqUpToNaN (t.openScope f).2 where
  size := by rw [size_openScope, size_openScope, h.size]
  link g := by rw [enclosing?_openScope, enclosing?_openScope, h.size, h.link]
  values g name := by
    rw [own?_openScope, own?_openScope]
    exact h.values g name

end Frames.EqUpToNaN

structure Machine.EqUpToNaN (m n : Machine) : Prop where
  frames : m.frames.EqUpToNaN n.frames
  current : m.current = n.current
  globals : m.globals = n.globals
  nextId : m.nextId = n.nextId
  output : m.output = n.output
  buffer : m.buffer = n.buffer

theorem Machine.EqUpToNaN.refl (m : Machine) : m.EqUpToNaN m := ⟨.refl _, rfl, rfl, rfl, rfl, rfl⟩

/-- From machines that are equal up to the bits of NaNs the runs come to such machines, and there to errors in
the relation `E`, or to values in the relation `V`. -/
abbrev Run.EqUpToNaN (E : ε → ε₁ → Prop) (V : α → α₁ → Prop) : Run ε α → Run ε₁ α₁ → Prop :=
  Run.Coupled Machine.EqUpToNaN E V

namespace Run.EqUpToNaN

variable {E : ε → ε₁ → Prop} {V : α → α₁ → Prop} {v w : Value}

theorem inScope {x : Run ε α} {y : Run ε₁ α₁} (h : Run.EqUpToNaN E V x y) (f : FrameId) :
    Run.EqUpToNaN E V (Run.inScope f x) (Run.inScope f y) := by
  intro m n hmn
  have hentered : Machine.EqUpToNaN { m with current := f } { n with current := f } :=
    { hmn with current := rfl }
  refine .inScope ((h _ _ hentered).mono ?_)
  rintro r m' s n' ⟨hmn', hrs⟩
  exact ⟨{ hmn' with current := hmn.current }, hrs⟩

theorem print (text : String) :
    Run.EqUpToNaN E (fun _ _ => True) (Run.print text) (Run.print text) := by
  intro m n h
  have hbuffer : m.output.println text m.buffer = n.output.println text n.buffer := by
    rw [h.output, h.buffer]
  exact ⟨{ h with buffer := hbuffer }, trivial⟩

theorem current : Run.EqUpToNaN E (· = ·) (Run.read (·.current)) (Run.read (·.current)) :=
  .read fun _ _ h => h.current

theorem depth : Run.EqUpToNaN E (· = ·) (Run.read fun m => m.frames.depth m.current)
    (Run.read fun m => m.frames.depth m.current) := by
  refine .read fun m n h => ?_
  rw [h.current, h.frames.depth]

theorem place (p : Place) : Run.EqUpToNaN E (· = ·) (Run.read p.frame) (Run.read p.frame) := by
  refine .read fun m n h => ?_
  cases p with
  | current => exact h.current
  | globals => exact h.globals

theorem define (f : FrameId) (name : String) (hv : v.EqUpToNaN w) :
    Run.EqUpToNaN E (fun _ _ => True) (Run.define f name v) (Run.define f name w) :=
  fun _ _ h => ⟨{ h with frames := h.frames.define hv f name }, trivial⟩

theorem defineHere (name : String) (hv : v.EqUpToNaN w) :
    Run.EqUpToNaN E (fun _ _ => True) (Run.defineHere name v) (Run.defineHere name w) := by
  refine .bind current ?_
  rintro f _ rfl
  exact define f name hv

theorem bindAll (f : FrameId) (names : List String) {vs ws : List Value}
    (hvs : List.Forall₂ Value.EqUpToNaN vs ws) :
    Run.EqUpToNaN E (fun _ _ => True) (Run.bindAll f names vs) (Run.bindAll f names ws) := by
  induction hvs generalizing names with
  | nil => cases names <;> exact .pure trivial
  | cons hv _ ih =>
    cases names with
    | nil => exact .pure trivial
    | cons name names => exact .bind (define f name hv) fun _ _ _ => ih names

theorem openScope (f : FrameId) : Run.EqUpToNaN E (· = ·) (Run.openScope f) (Run.openScope f) :=
  fun _ _ h => ⟨{ h with frames := h.frames.openScope f }, h.frames.size⟩

theorem newCallable {code code' : Code} (h : ∀ id, Callable.EqUpToNaN ⟨id, code⟩ ⟨id, code'⟩) :
    Run.EqUpToNaN E Callable.EqUpToNaN (Run.newCallable code) (Run.newCallable code') := by
  intro m n hmn
  rw [Run.newCallable, Run.newCallable, ← hmn.nextId]
  exact ⟨{ hmn with nextId := rfl }, h m.nextId⟩

theorem lookup (name : String) :
    Run.EqUpToNaN (· = ·) Value.EqUpToNaN (Run.lookup name) (Run.lookup name) := by
  intro m n h
  show (Run.lookupIn m.current name m).Rel _ (Run.lookupIn n.current name n)
  have hget : Option.Rel Value.EqUpToNaN (m.frames.get? m.current name) (n.frames.get? n.current name) := by
    rw [h.current]
    exact h.frames.get? n.current name
  rw [Run.lookupIn, Run.lookupIn]
  generalize m.frames.get? m.current name = o, n.frames.get? n.current name = o' at hget ⊢
  cases hget with
  | none => exact ⟨h, rfl⟩
  | some hv => exact ⟨h, hv⟩

theorem assign (name : String) (hv : v.EqUpToNaN w) :
    Run.EqUpToNaN (· = ·) (· = ·) (Run.assign name v) (Run.assign name w) := by
  intro m n h
  show (Run.assignIn m.current name v m).Rel _ (Run.assignIn n.current name w n)
  have howner : m.frames.owner? m.current name = n.frames.owner? n.current name := by
    rw [h.current, h.frames.owner?]
  rw [Run.assignIn, Run.assignIn, howner]
  cases n.frames.owner? n.current name with
  | none => exact ⟨h, rfl⟩
  | some g => exact ⟨{ h with frames := h.frames.define hv g name }, rfl⟩

end Run.EqUpToNaN

end Lox
