import Lox.Proofs.Run.Judgement
import Mathlib.Logic.Relation

/-!
# What a run can do to a machine

A run prints, binds names in frames, opens scopes and numbers function values, and nothing else
(`Machine.Step`). Statements in a block and the body of a function run in another frame, but `inScope`
comes back from it on every way out, so from its beginning to its end a run takes a machine through such
steps only (`Machine.Evolves`), whatever it ends with.

What no step changes, no run changes (`Machine.Evolves.current`); what every step lets grow, every run
lets grow (`Machine.Evolves.grows`).
-/

namespace Lox

/-! ## Steps -/

/-- One change of a machine. -/
inductive Machine.Step (m : Machine) : Machine → Prop
  | print (text : String) : Step m { m with buffer := m.output.println text m.buffer }
  | define (f : FrameId) (name : String) (value : Value) :
    Step m { m with frames := m.frames.define f name value }
  | openScope (f : FrameId) : Step m { m with frames := (m.frames.openScope f).2 }
  | number : Step m { m with nextId := m.nextId + 1 }

/-- Steps, one after the other. -/
def Machine.Evolves : Machine → Machine → Prop := Relation.ReflTransGen Machine.Step

namespace Machine

variable {m m' m'' : Machine}

theorem Evolves.refl (m : Machine) : m.Evolves m := Relation.ReflTransGen.refl

theorem Evolves.single (h : m.Step m') : m.Evolves m' := Relation.ReflTransGen.single h

theorem Evolves.trans (h : m.Evolves m') (h' : m'.Evolves m'') : m.Evolves m'' :=
  Relation.ReflTransGen.trans h h'

theorem Step.current (h : m.Step m') : m'.current = m.current := by cases h <;> rfl

theorem Step.globals (h : m.Step m') : m'.globals = m.globals := by cases h <;> rfl

theorem Step.grows (h : m.Step m') : m.frames.Grows m'.frames := by
  cases h with
  | print text => exact .refl _
  | define f name value => exact Frames.grows_define _ f name value
  | openScope f => exact Frames.grows_openScope _ f
  | number => exact .refl _

/-- No step looks at the current frame. -/
theorem Step.within (h : m.Step m') (f : FrameId) :
    Step { m with current := f } { m' with current := f } := by
  cases h with
  | print text => exact .print text
  | define g name value => exact .define g name value
  | openScope g => exact .openScope g
  | number => exact .number

theorem Evolves.current (h : m.Evolves m') : m'.current = m.current := by
  induction h with
  | refl => rfl
  | tail _ step ih => exact step.current.trans ih

theorem Evolves.globals (h : m.Evolves m') : m'.globals = m.globals := by
  induction h with
  | refl => rfl
  | tail _ step ih => exact step.globals.trans ih

theorem Evolves.grows (h : m.Evolves m') : m.frames.Grows m'.frames := by
  induction h with
  | refl => exact .refl _
  | tail _ step ih => exact ih.trans step.grows

theorem Evolves.within (h : m.Evolves m') (f : FrameId) :
    Evolves { m with current := f } { m' with current := f } := by
  induction h with
  | refl => exact .refl _
  | tail _ step ih => exact ih.trans (.single (step.within f))

end Machine

/-! ## Runs that are made of steps -/

/-- A run that takes a machine through steps only, however it ends, with errors that satisfy `E` and
values that satisfy `V`. -/
def Run.Evolving {ε α : Type} (E : ε → Prop) (V : α → Prop) (x : Run ε α) : Prop :=
  ∀ m : Machine, x.Keeps m.Evolves E V

namespace Run.Evolving

variable {ε α : Type} {E : ε → Prop} {V : α → Prop}

theorem all {x : Run ε α} (h : x.Evolving E V) (m : Machine) : (x m).All fun _ m' => m.Evolves m' :=
  (h m m (.refl m)).mono fun _ _ h => h.1

theorem final? {x : Run ε α} (hx : x.Evolving E V) {m m' : Machine} (h : (x m).final? = some m') :
    m.Evolves m' := by
  have hall := hx.all m
  cases ho : x m with
  | exhausted => simp [ho, Outcome.final?] at h
  | ended r n =>
    rw [ho] at hall h
    cases h
    exact hall

theorem answer? {x : Run ε α} (hx : x.Evolving E V) {value : Except ε α → Option Value} {m m' : Machine}
    {o : Option Value} (h : (x m).answer? value = some (o, m')) : m.Evolves m' :=
  hx.final? (Outcome.final?_of_answer? h)

theorem update {f : Machine → Machine} (h : ∀ m : Machine, m.Step (f m)) :
    (Run.update f : Run ε Unit).Evolving E fun _ => True :=
  fun _ => .update fun m hm => hm.trans (.single (h m))

/-- Within a scope the steps are taken elsewhere, and then the run comes back. -/
theorem inScope {x : Run ε α} (hx : x.Evolving E V) (f : FrameId) :
    (Run.inScope f x).Evolving E V := by
  intro m₀ m hm
  have hscope := hx { m with current := f } { m with current := f } (.refl _)
  refine .inScope (hscope.mono fun r m' h => ⟨?_, h.2⟩)
  have back : m.Evolves { m' with current := m.current } := h.1.within m.current
  exact hm.trans back

theorem define (f : FrameId) (name : String) (value : Value) :
    (Run.define f name value : Run ε Unit).Evolving E fun _ => True :=
  .update fun _ => .define f name value

theorem print (text : String) : (Run.print text : Run ε Unit).Evolving E fun _ => True :=
  .update fun _ => .print text

theorem openScope (f : FrameId) : (Run.openScope f : Run ε FrameId).Evolving E fun _ => True :=
  fun _ _ hm => ⟨hm.trans (.single (.openScope f)), trivial⟩

theorem newCallable (code : Code) :
    (Run.newCallable code : Run ε Callable).Evolving E fun _ => True :=
  fun _ _ hm => ⟨hm.trans (.single .number), trivial⟩

theorem lookupIn (f : FrameId) (name : String) :
    (Run.lookupIn f name).Evolving (· = .undefinedVariable name) (Value.Only fun _ => True) := by
  intro m₀ m hm
  simp only [Run.lookupIn]
  split
  · exact ⟨hm, fun _ _ => trivial⟩
  · exact ⟨hm, rfl⟩

theorem assignIn (f : FrameId) (name : String) (value : Value) :
    (Run.assignIn f name value).Evolving (· = .undefinedVariable name) fun _ => True := by
  intro m₀ m hm
  simp only [Run.assignIn]
  split
  · next g _ => exact ⟨hm.trans (.single (.define g name value)), trivial⟩
  · exact ⟨hm, rfl⟩

end Run.Evolving

/-- Whatever is run, and with whatever native functions, takes steps only. -/
def Judgement.evolving (host : Host) : Judgement host where
  holds := Run.Evolving
  nodes _ := True
  errors _ := True
  functions _ := True
  frames _ := True
  conduct := .any
  ofResult h := fun _ => .ofResult h
  exhausted := fun _ => .exhausted
  continueWith hx hf := fun m => .continueWith (hx m) fun r hr => hf r hr m
  inScope _ hx := .inScope hx _
  print := .print
  current := fun _ => .read fun _ _ => trivial
  depth := fun _ => .read fun _ _ => trivial
  place _ := fun _ => .read fun _ _ => trivial
  openScope _ := .openScope _
  define _ name v _ := .define _ name v
  newCallable _ := .newCallable _
  lookupIn _ name := .lookupIn _ name
  assignIn _ name v _ := .assignIn _ name v
  raised _ _ := trivial
  failed _ _ := trivial
  heard _ := trivial
  executed _ _ _ := trivial
  declared _ _ _ := trivial
  captured _ _ := ⟨trivial, fun _ _ => trivial⟩
  native _ _ _ := Action.obeys_of_forall _ fun _ => trivial

end Lox
