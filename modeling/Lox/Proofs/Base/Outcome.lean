import Lox.Eval

/-!
# Reasoning about runs

`Outcome.All Q` says that a run that ended did so as `Q` asks. `Run.Keeps I E V x` is an invariant of
machines that `x` preserves however it ends, together with what is known of its errors (`E`) and of its
values (`V`).

Both have a rule for each way to combine runs that the evaluator is made of.
-/

namespace Lox

variable {ε ε' α β : Type}

/-- A result that satisfies `E` as an error and `V` as a value. -/
def Ends (E : ε → Prop) (V : α → Prop) : Except ε α → Prop
  | .ok a => V a
  | .error e => E e

@[simp] theorem ends_ok {E : ε → Prop} {V : α → Prop} {a : α} : Ends E V (.ok a) ↔ V a := .rfl

@[simp] theorem ends_error {E : ε → Prop} {V : α → Prop} {e : ε} : Ends E V (.error e) ↔ E e := .rfl

theorem Ends.mono {E E' : ε → Prop} {V V' : α → Prop} {r : Except ε α} (h : Ends E V r)
    (hE : ∀ e, E e → E' e) (hV : ∀ a, V a → V' a) : Ends E' V' r := by
  cases r with
  | ok a => exact hV a h
  | error e => exact hE e h

theorem Ends.mapError {E : ε → Prop} {E' : ε' → Prop} {V : α → Prop} {f : ε → ε'}
    {r : Except ε α} (h : Ends E V r) (hf : ∀ e, E e → E' (f e)) : Ends E' V (r.mapError f) := by
  cases r with
  | ok a => exact h
  | error e => exact hf e h

theorem ends_true (r : Except ε α) : Ends (fun _ => True) (fun _ => True) r := by
  cases r <;> trivial

/-- The value that is returned, if that is why statements stop. -/
def Unwind.value? : Unwind → Option Value
  | .error _ => none
  | .return v => some v

/-- A reason to stop that satisfies `E` as an error and `V` as a returned value. -/
def Unwind.Meets (E : RuntimeError → Prop) (V : Value → Prop) : Unwind → Prop
  | .error e => E e
  | .return v => V v

def Output.printAll (o : Output) (texts : List String) (b : Buffer) : Buffer :=
  texts.foldl (fun b text => o.println text b) b

theorem Output.printAll_append (o : Output) (texts texts' : List String) (b : Buffer) :
    o.printAll (texts ++ texts') b = o.printAll texts' (o.printAll texts b) := List.foldl_append

/-! ## Equations -/

theorem Run.bind_eq_continueWith (x : Run ε α) (f : α → Run ε β) :
    x >>= f = x.continueWith fun
      | .ok a => f a
      | .error e => Run.fail e := by
  funext m
  rw [Run.bind_apply]
  simp only [Run.continueWith]
  rcases x m with ⟨_ | _, _⟩ | _ <;> rfl

theorem Run.bind_eq_ok {x : Run ε α} {f : α → Run ε β} {m m' : Machine} {b : β}
    (h : (x >>= f) m = .ended (.ok b) m') :
    ∃ a m₁, x m = .ended (.ok a) m₁ ∧ f a m₁ = .ended (.ok b) m' := by
  rw [Run.bind_apply] at h
  rcases hx : x m with ⟨_ | a, m₁⟩ | _
  · rw [hx] at h
    cases h
  · rw [hx] at h
    exact ⟨a, m₁, rfl, h⟩
  · rw [hx] at h
    cases h

theorem Run.repeatWhile_succ (round : Run ε Bool) (n : Nat) :
    Run.repeatWhile round (n + 1) =
      round >>= fun again => if again then Run.repeatWhile round n else pure () := by
  funext m
  rw [Run.bind_apply]
  simp only [Run.repeatWhile]
  rcases round m with ⟨_ | ⟨_ | _⟩, _⟩ | _ <;> rfl

/-! ## One run -/

namespace Outcome

/-- The machine that a run leaves, if it ended. -/
def final? : Outcome ε α → Option Machine
  | ended _ m => some m
  | exhausted => none

/-- How a run ended: the value that it hands out, if there is one, and the machine that it leaves. -/
def answer? (value : Except ε α → Option Value) : Outcome ε α → Option (Option Value × Machine)
  | ended r m => some (value r, m)
  | exhausted => none

/-- The value and the machine of a run that ended without an error. -/
def done? : Outcome ε α → Option (α × Machine)
  | ended (.ok a) m => some (a, m)
  | ended (.error _) _ | exhausted => none

/-- The error and the machine of a run that ended with one. -/
def failed? : Outcome ε α → Option (ε × Machine)
  | ended (.error e) m => some (e, m)
  | ended (.ok _) _ | exhausted => none

theorem final?_of_answer? {o : Outcome ε α} {value : Except ε α → Option Value} {v : Option Value} {m : Machine}
    (h : o.answer? value = some (v, m)) : o.final? = some m := by
  cases o with
  | ended r n =>
    cases h
    rfl
  | exhausted => cases h

theorem eq_of_done? {o : Outcome ε α} {p : α × Machine} (h : o.done? = some p) :
    o = ended (.ok p.1) p.2 := by
  rcases o with ⟨_ | a, m⟩ | _ <;> cases h
  rfl

theorem eq_of_failed? {o : Outcome ε α} {p : ε × Machine} (h : o.failed? = some p) :
    o = ended (.error p.1) p.2 := by
  rcases o with ⟨e | _, m⟩ | _ <;> cases h
  rfl

/-- If the run ended, then with a result and a machine that satisfy `Q`. -/
def All (Q : Except ε α → Machine → Prop) : Outcome ε α → Prop
  | ended r m => Q r m
  | exhausted => True

theorem All.mono {Q Q' : Except ε α → Machine → Prop} {o : Outcome ε α} (h : o.All Q)
    (hQ : ∀ r m, Q r m → Q' r m) : o.All Q' := by
  cases o with
  | ended r m => exact hQ r m h
  | exhausted => trivial

theorem All.continueWith {x : Run ε α} {f : Except ε α → Run ε' β} {m : Machine}
    {P : Except ε α → Machine → Prop} {Q : Except ε' β → Machine → Prop} (hx : (x m).All P)
    (hf : ∀ r m', P r m' → (f r m').All Q) : (x.continueWith f m).All Q := by
  simp only [Run.continueWith]
  cases h : x m with
  | ended r m' => rw [h] at hx; exact hf r m' hx
  | exhausted => trivial

theorem All.bind {x : Run ε α} {f : α → Run ε β} {m : Machine} {P : Except ε α → Machine → Prop}
    {Q : Except ε β → Machine → Prop} (hx : (x m).All P)
    (ok : ∀ a m', P (.ok a) m' → (f a m').All Q)
    (error : ∀ e m', P (.error e) m' → Q (.error e) m') : ((x >>= f) m).All Q := by
  rw [Run.bind_eq_continueWith]
  refine .continueWith hx ?_
  rintro (e | a) m' h
  · exact error e m' h
  · exact ok a m' h

theorem All.inScope {x : Run ε α} {f : FrameId} {m : Machine} {Q : Except ε α → Machine → Prop}
    (h : (x { m with current := f }).All fun r m' => Q r { m' with current := m.current }) :
    (Run.inScope f x m).All Q := by
  simp only [Run.inScope]
  cases hx : x { m with current := f } with
  | ended r m' => rw [hx] at h; exact h
  | exhausted => trivial

end Outcome

/-- A run that preserves `I`, with errors that satisfy `E` and values that satisfy `V`. -/
def Run.Keeps (I : Machine → Prop) (E : ε → Prop) (V : α → Prop) (x : Run ε α) : Prop :=
  ∀ m, I m → (x m).All fun r m' => I m' ∧ Ends E V r

namespace Run.Keeps

variable {I : Machine → Prop} {E : ε → Prop} {E' : ε' → Prop} {V : α → Prop} {W : β → Prop}

theorem exhausted : (Run.exhausted : Run ε α).Keeps I E V := fun _ _ => trivial

theorem ofResult {r : Except ε α} (h : Ends E V r) : (Run.ofResult r).Keeps I E V :=
  fun _ hm => ⟨hm, h⟩

theorem read {f : Machine → α} (h : ∀ m, I m → V (f m)) : (Run.read f : Run ε α).Keeps I E V :=
  fun m hm => ⟨hm, h m hm⟩

theorem update {f : Machine → Machine} (h : ∀ m, I m → I (f m)) :
    (Run.update f : Run ε Unit).Keeps I E fun _ => True :=
  fun m hm => ⟨h m hm, trivial⟩

theorem continueWith {x : Run ε α} {f : Except ε α → Run ε' β} (hx : x.Keeps I E V)
    (hf : ∀ r, Ends E V r → (f r).Keeps I E' W) : (x.continueWith f).Keeps I E' W :=
  fun m hm => .continueWith (hx m hm) fun r m' h => hf r h.2 m' h.1

theorem pure {a : α} (h : V a) : (Pure.pure a : Run ε α).Keeps I E V := fun _ hm => ⟨hm, h⟩

theorem fail {e : ε} (h : E e) : (Run.fail e : Run ε α).Keeps I E V := fun _ hm => ⟨hm, h⟩

theorem bind {x : Run ε α} {f : α → Run ε β} (hx : x.Keeps I E V)
    (hf : ∀ a, V a → (f a).Keeps I E W) : (x >>= f).Keeps I E W := by
  rw [Run.bind_eq_continueWith]
  refine continueWith hx ?_
  rintro (e | a) h
  · exact fail h
  · exact hf a h

theorem mapError {x : Run ε α} {f : ε → ε'} (hx : x.Keeps I E V) (hf : ∀ e, E e → E' (f e)) :
    (x.mapError f).Keeps I E' V :=
  continueWith hx fun _ hr => ofResult (hr.mapError hf)

theorem repeatWhile {round : Run ε Bool} (h : round.Keeps I E fun _ => True) (n : Nat) :
    (Run.repeatWhile round n).Keeps I E fun _ => True := by
  induction n with
  | zero => exact exhausted
  | succ n ih =>
    rw [Run.repeatWhile_succ]
    refine bind h fun again _ => ?_
    split
    · exact ih
    · exact pure trivial

theorem of_ended {x : Run ε α} (h : x.Keeps I E V) {m m' : Machine} (hm : I m) {r : Except ε α}
    (hx : x m = .ended r m') : Ends E V r := by
  have hall := h m hm
  rw [hx] at hall
  exact hall.2

end Run.Keeps

end Lox
