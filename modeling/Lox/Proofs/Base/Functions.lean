import Lox.Call
import Lox.Proofs.Base.Frames
import Lox.Proofs.Base.Outcome

/-!
# The function values in the frames

`Machine.Holds F` says that all function values that are bound anywhere satisfy `F`. The steps of a run
preserve it as long as the values that they bind satisfy `F` too, and look-ups give such values only.
-/

namespace Lox

/-- All function values in the frames satisfy `F`. -/
def Machine.Holds (F : Callable → Prop) (m : Machine) : Prop :=
  m.frames.Guarded (fun _ => True) F

namespace Run.Keeps

variable {ε α : Type} {F : Callable → Prop} {E : ε → Prop} {V : α → Prop}

theorem print (text : String) :
    (Run.print text : Run ε Unit).Keeps (Machine.Holds F) E fun _ => True :=
  .update fun _ hm => hm

theorem define (f : FrameId) (name : String) {v : Value} (hv : v.Only F) :
    (Run.define f name v : Run ε Unit).Keeps (Machine.Holds F) E fun _ => True :=
  .update fun _ hm => Frames.Guarded.define hm f name hv

theorem openScope (f : FrameId) :
    (Run.openScope f : Run ε FrameId).Keeps (Machine.Holds F) E fun _ => True :=
  fun _ hm => ⟨Frames.Guarded.openScope hm trivial, trivial⟩

theorem newCallable {code : Code} (h : ∀ id, F ⟨id, code⟩) :
    (Run.newCallable code : Run ε Callable).Keeps (Machine.Holds F) E F :=
  fun m hm => ⟨hm, h m.nextId⟩

/-- No frame is special, so it does not matter which one is current. -/
theorem inScope {x : Run ε α} (hx : x.Keeps (Machine.Holds F) E V) (f : FrameId) :
    (Run.inScope f x).Keeps (Machine.Holds F) E V :=
  fun m hm => .inScope (hx { m with current := f } hm)

theorem lookupIn (f : FrameId) (name : String) :
    (Run.lookupIn f name).Keeps (Machine.Holds F) (· = .undefinedVariable name) (Value.Only F) := by
  intro m hm
  simp only [Run.lookupIn]
  split
  · next v hv => exact ⟨hm, Frames.Guarded.get? hm trivial hv⟩
  · exact ⟨hm, rfl⟩

theorem assignIn (f : FrameId) (name : String) {v : Value} (hv : v.Only F) :
    (Run.assignIn f name v).Keeps (Machine.Holds F) (· = .undefinedVariable name) fun _ => True := by
  intro m hm
  simp only [Run.assignIn]
  split
  · next g _ => exact ⟨Frames.Guarded.define hm g name hv, trivial⟩
  · exact ⟨hm, rfl⟩

end Run.Keeps

end Lox
