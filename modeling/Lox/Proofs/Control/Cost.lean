import Lox.Proofs.Base.Frames
import Lox.Proofs.Output.Printout

/-!
# What a run costs

`Run.Costs` says of a run that it ends, and bounds how many texts it prints and how many frames it makes. There
is a rule for each step and for each way to combine runs. Costs add up along a run, and an error, which keeps
the rest from being run, makes it no more expensive.

There is no rule for loops and none for calls. That a run costs something in this sense is to say that it has
no need of a bound.
-/

namespace Lox

variable {ε ε' α β : Type}

/-- From every machine the run ends. What it prints is `p`, of which there are at most `prints` texts, and it
leaves at most `frames` frames more than there were. -/
def Run.Costs (x : Run ε α) (p : Printout) (prints frames : Nat) : Prop :=
  ∀ m, (p m).length ≤ prints ∧
    ∃ r m', x m = .ended r m' ∧ m'.frames.all.size ≤ m.frames.all.size + frames

namespace Run.Costs

variable {x : Run ε α} {p : Printout} {prints prints' frames frames' : Nat}

theorem mono (h : x.Costs p prints frames) (hprints : prints ≤ prints') (hframes : frames ≤ frames') :
    x.Costs p prints' frames' := by
  intro m
  obtain ⟨hp, r, m', hx, hsize⟩ := h m
  exact ⟨Nat.le_trans hp hprints, r, m', hx, by omega⟩

/-! ## Steps -/

section steps

theorem of_ended (h : ∀ m, ∃ r m', x m = .ended r m' ∧ m'.frames.all.size = m.frames.all.size) :
    x.Costs .nothing 0 0 := by
  intro m
  obtain ⟨r, m', hx, hsize⟩ := h m
  exact ⟨Nat.le_refl 0, r, m', hx, Nat.le_of_eq hsize⟩

theorem ofResult (r : Except ε α) : (Run.ofResult r).Costs .nothing 0 0 :=
  of_ended fun m => ⟨r, m, rfl, rfl⟩

theorem pure (a : α) : (Pure.pure a : Run ε α).Costs .nothing 0 0 := ofResult (.ok a)

theorem fail (e : ε) : (Run.fail e : Run ε α).Costs .nothing 0 0 := ofResult (.error e)

theorem read (f : Machine → α) : (Run.read f : Run ε α).Costs .nothing 0 0 :=
  of_ended fun m => ⟨.ok (f m), m, rfl, rfl⟩

theorem print (text : String) : (Run.print text : Run ε Unit).Costs (.text text) 1 0 :=
  fun _ => ⟨Nat.le_refl 1, _, _, rfl, Nat.le_refl _⟩

theorem define (f : FrameId) (name : String) (v : Value) :
    (Run.define f name v : Run ε Unit).Costs .nothing 0 0 :=
  of_ended fun m => ⟨_, _, rfl, m.frames.size_define f name v⟩

theorem openScope (f : FrameId) : (Run.openScope f : Run ε FrameId).Costs .nothing 0 1 :=
  fun m => ⟨Nat.le_refl 0, _, _, rfl, Nat.le_of_eq (m.frames.size_openScope f)⟩

theorem newCallable (code : Code) : (Run.newCallable code : Run ε Callable).Costs .nothing 0 0 :=
  of_ended fun _ => ⟨_, _, rfl, rfl⟩

theorem lookupIn (f : FrameId) (name : String) : (Run.lookupIn f name).Costs .nothing 0 0 := by
  refine of_ended fun m => ?_
  rw [Run.lookupIn]
  split <;> exact ⟨_, m, rfl, rfl⟩

theorem assignIn (f : FrameId) (name : String) (v : Value) :
    (Run.assignIn f name v).Costs .nothing 0 0 := by
  refine of_ended fun m => ?_
  rw [Run.assignIn]
  split
  · next g _ => exact ⟨_, _, rfl, m.frames.size_define g name v⟩
  · exact ⟨_, m, rfl, rfl⟩

end steps

/-! ## Combinations -/

theorem continueWith {f : Except ε α → Run ε' β} {next : Except ε α → Printout}
    (hx : x.Costs p prints frames) (hf : ∀ r, (f r).Costs (next r) prints' frames') :
    (x.continueWith f).Costs (p.followedBy x next) (prints + prints') (frames + frames') := by
  intro m
  obtain ⟨hp, r, m₁, hrun, hsize⟩ := hx m
  obtain ⟨hp', r', m', hrun', hsize'⟩ := hf r m₁
  simp only [Run.continueWith, Printout.followedBy, hrun, List.length_append]
  exact ⟨by omega, r', m', hrun', by omega⟩

theorem bind {f : α → Run ε β} {next : α → Printout} (hx : x.Costs p prints frames)
    (hf : ∀ a, (f a).Costs (next a) prints' frames') :
    (x >>= f).Costs (p.andThen x next) (prints + prints') (frames + frames') := by
  rw [Run.bind_eq_continueWith]
  refine continueWith hx ?_
  rintro (e | a)
  · exact (fail e).mono (Nat.zero_le _) (Nat.zero_le _)
  · exact hf a

theorem continueWith_nothing {f : Except ε α → Run ε' β} (hx : x.Costs p prints frames)
    (hf : ∀ r, (f r).Costs .nothing 0 0) : (x.continueWith f).Costs p prints frames := by
  have hboth := continueWith hx hf
  rwa [Printout.followedBy_nothing] at hboth

theorem bind_nothing {f : α → Run ε β} (hx : x.Costs p prints frames)
    (hf : ∀ a, (f a).Costs .nothing 0 0) : (x >>= f).Costs p prints frames := by
  rw [Run.bind_eq_continueWith]
  refine continueWith_nothing hx ?_
  rintro (e | a)
  · exact fail e
  · exact hf a

theorem mapError (hx : x.Costs p prints frames) (f : ε → ε') : (x.mapError f).Costs p prints frames :=
  continueWith_nothing hx fun _ => ofResult _

theorem inScope (hx : x.Costs p prints frames) (f : FrameId) :
    (Run.inScope f x).Costs (p.inScope f) prints frames := by
  intro m
  obtain ⟨hp, r, m', hrun, hsize⟩ := hx { m with current := f }
  refine ⟨hp, r, { m' with current := m.current }, ?_, hsize⟩
  simp only [Run.inScope, hrun]

theorem defineHere (name : String) (v : Value) :
    (Run.defineHere name v : Run ε Unit).Costs .nothing 0 0 :=
  bind_nothing (read _) fun f => define f name v

theorem lookup (name : String) : (Run.lookup name).Costs .nothing 0 0 :=
  bind_nothing (read _) fun f => lookupIn f name

theorem assign (name : String) (v : Value) : (Run.assign name v).Costs .nothing 0 0 :=
  bind_nothing (read _) fun f => assignIn f name v

end Run.Costs

end Lox
