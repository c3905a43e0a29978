import Lox.Proofs.Base.Outcome

/-!
# Two runs side by side

`Outcome.Rel Q` says that two runs ended as `Q` asks, or that both were exhausted. `Run.Coupled J E V x y`
says that from machines in the relation `J` the runs `x` and `y` come to machines in that relation, and
there with two errors in the relation `E` or two values in the relation `V`. There is one rule for each
way to combine runs, as for one run. `Run.Agrees` is the case of one and the same run with equal results.
-/

namespace Lox

variable {ε ε₁ ε' ε₁' α α₁ β β₁ : Type}

/-- Two errors in the relation `E`, or two values in the relation `V`. -/
def BothEnd (E : ε → ε₁ → Prop) (V : α → α₁ → Prop) : Except ε α → Except ε₁ α₁ → Prop
  | .ok a, .ok b => V a b
  | .error e, .error e₁ => E e e₁
  | _, _ => False

section results

variable {E : ε → ε₁ → Prop} {V : α → α₁ → Prop} {r : Except ε α} {s : Except ε₁ α₁}

theorem BothEnd.mono {E' : ε → ε₁ → Prop} {V' : α → α₁ → Prop} (h : BothEnd E V r s)
    (hE : ∀ e e₁, E e e₁ → E' e e₁) (hV : ∀ a a₁, V a a₁ → V' a a₁) : BothEnd E' V' r s := by
  cases r <;> cases s
  · exact hE _ _ h
  · exact h.elim
  · exact h.elim
  · exact hV _ _ h

theorem BothEnd.mapError {E' : ε' → ε₁' → Prop} {f : ε → ε'} {g : ε₁ → ε₁'} (h : BothEnd E V r s)
    (hfg : ∀ e e₁, E e e₁ → E' (f e) (g e₁)) : BothEnd E' V (r.mapError f) (s.mapError g) := by
  cases r <;> cases s
  · exact hfg _ _ h
  · exact h.elim
  · exact h.elim
  · exact h

theorem BothEnd.map {W : β → β₁ → Prop} {f : α → β} {g : α₁ → β₁} (h : BothEnd E V r s)
    (hfg : ∀ a a₁, V a a₁ → W (f a) (g a₁)) : BothEnd E W (r.map f) (s.map g) := by
  cases r <;> cases s
  · exact h
  · exact h.elim
  · exact h.elim
  · exact hfg _ _ h

end results

/-- Both runs ended, with results and machines that satisfy `Q`, or both were exhausted. -/
def Outcome.Rel (Q : Except ε α → Machine → Except ε₁ α₁ → Machine → Prop) :
    Outcome ε α → Outcome ε₁ α₁ → Prop
  | ended r m, ended s n => Q r m s n
  | exhausted, exhausted => True
  | _, _ => False

theorem Outcome.Rel.cases {Q : Except ε α → Machine → Except ε₁ α₁ → Machine → Prop}
    {o : Outcome ε α} {p : Outcome ε₁ α₁} (h : o.Rel Q p) :
    (∃ r m s n, o = ended r m ∧ p = ended s n ∧ Q r m s n) ∨ o = exhausted ∧ p = exhausted := by
  match o, p, h with
  | ended r m, ended s n, h => exact .inl ⟨r, m, s, n, rfl, rfl, h⟩
  | exhausted, exhausted, _ => exact .inr ⟨rfl, rfl⟩

theorem Outcome.Rel.mono {Q Q' : Except ε α → Machine → Except ε₁ α₁ → Machine → Prop}
    {o : Outcome ε α} {p : Outcome ε₁ α₁} (h : o.Rel Q p)
    (hQ : ∀ r m s n, Q r m s n → Q' r m s n) : o.Rel Q' p := by
  obtain ⟨r, m, s, n, rfl, rfl, h⟩ | ⟨rfl, rfl⟩ := h.cases
  · exact hQ r m s n h
  · trivial

theorem Outcome.Rel.continueWith {x : Run ε α} {y : Run ε₁ α₁} {f : Except ε α → Run ε' β}
    {g : Except ε₁ α₁ → Run ε₁' β₁} {m n : Machine}
    {P : Except ε α → Machine → Except ε₁ α₁ → Machine → Prop}
    {Q : Except ε' β → Machine → Except ε₁' β₁ → Machine → Prop} (h : (x m).Rel P (y n))
    (hfg : ∀ r m' s n', P r m' s n' → (f r m').Rel Q (g s n')) :
    (x.continueWith f m).Rel Q (y.continueWith g n) := by
  simp only [Run.continueWith]
  obtain ⟨r, m', s, n', hx, hy, h⟩ | ⟨hx, hy⟩ := h.cases
  · rw [hx, hy]
    exact hfg r m' s n' h
  · rw [hx, hy]
    trivial

theorem Outcome.Rel.inScope {x : Run ε α} {y : Run ε₁ α₁} {f g : FrameId} {m n : Machine}
    {Q : Except ε α → Machine → Except ε₁ α₁ → Machine → Prop}
    (h : (x { m with current := f }).Rel (fun r m' s n' =>
      Q r { m' with current := m.current } s { n' with current := n.current })
      (y { n with current := g })) :
    (Run.inScope f x m).Rel Q (Run.inScope g y n) := by
  simp only [Run.inScope]
  obtain ⟨r, m', s, n', hx, hy, h⟩ | ⟨hx, hy⟩ := h.cases
  · rw [hx, hy]
    exact h
  · rw [hx, hy]
    trivial

/-- Runs that go together from machines in `J` to machines in `J`. -/
def Run.Coupled (J : Machine → Machine → Prop) (E : ε → ε₁ → Prop) (V : α → α₁ → Prop)
    (x : Run ε α) (y : Run ε₁ α₁) : Prop :=
  ∀ m n, J m n → (x m).Rel (fun r m' s n' => J m' n' ∧ BothEnd E V r s) (y n)

namespace Run.Coupled

variable {J : Machine → Machine → Prop} {E : ε → ε₁ → Prop} {E' : ε' → ε₁' → Prop}
  {V : α → α₁ → Prop} {W : β → β₁ → Prop}

theorem ofResult {r : Except ε α} {s : Except ε₁ α₁} (h : BothEnd E V r s) :
    Coupled J E V (Run.ofResult r) (Run.ofResult s) := fun _ _ hmn => ⟨hmn, h⟩

theorem pure {a : α} {b : α₁} (h : V a b) :
    Coupled J E V (Pure.pure a : Run ε α) (Pure.pure b : Run ε₁ α₁) := fun _ _ hmn => ⟨hmn, h⟩

theorem fail {e : ε} {e₁ : ε₁} (h : E e e₁) :
    Coupled J E V (Run.fail e : Run ε α) (Run.fail e₁ : Run ε₁ α₁) := fun _ _ hmn => ⟨hmn, h⟩

theorem exhausted : Coupled J E V (Run.exhausted : Run ε α) (Run.exhausted : Run ε₁ α₁) :=
  fun _ _ _ => trivial

theorem read {f : Machine → α} {g : Machine → α₁} (h : ∀ m n, J m n → V (f m) (g n)) :
    Coupled J E V (Run.read f : Run ε α) (Run.read g : Run ε₁ α₁) :=
  fun m n hmn => ⟨hmn, h m n hmn⟩

theorem continueWith {x : Run ε α} {y : Run ε₁ α₁} {f : Except ε α → Run ε' β}
    {g : Except ε₁ α₁ → Run ε₁' β₁} (h : Coupled J E V x y)
    (hfg : ∀ r s, BothEnd E V r s → Coupled J E' W (f r) (g s)) :
    Coupled J E' W (x.continueWith f) (y.continueWith g) :=
  fun m n hmn => .continueWith (h m n hmn) fun r m' s n' hr => hfg r s hr.2 m' n' hr.1

theorem bind {x : Run ε α} {y : Run ε₁ α₁} {f : α → Run ε β} {g : α₁ → Run ε₁ β₁}
    (h : Coupled J E V x y) (hfg : ∀ a b, V a b → Coupled J E W (f a) (g b)) :
    Coupled J E W (x >>= f) (y >>= g) := by
  rw [Run.bind_eq_continueWith, Run.bind_eq_continueWith]
  refine continueWith h ?_
  rintro (e | a) (e₁ | b) hr
  · exact fail hr
  · exact hr.elim
  · exact hr.elim
  · exact hfg a b hr

theorem mapError {x : Run ε α} {y : Run ε₁ α₁} {f : ε → ε'} {g : ε₁ → ε₁'} (h : Coupled J E V x y)
    (hfg : ∀ e e₁, E e e₁ → E' (f e) (g e₁)) : Coupled J E' V (x.mapError f) (y.mapError g) :=
  continueWith h fun _ _ hr => ofResult (hr.mapError hfg)

theorem repeatWhile {round : Run ε Bool} {round₁ : Run ε₁ Bool}
    (h : Coupled J E (· = ·) round round₁) (n : Nat) :
    Coupled J E (fun _ _ => True) (Run.repeatWhile round n) (Run.repeatWhile round₁ n) := by
  induction n with
  | zero => exact exhausted
  | succ n ih =>
    rw [Run.repeatWhile_succ, Run.repeatWhile_succ]
    refine bind h ?_
    rintro again _ rfl
    split
    · exact ih
    · exact pure trivial

end Run.Coupled

/-- A run that goes the same way from machines in `J`, with errors that satisfy `E` and values that
satisfy `V`. -/
def Run.Agrees (J : Machine → Machine → Prop) (E : ε → Prop) (V : α → Prop) (x : Run ε α) : Prop :=
  Run.Coupled J (fun e e' => e = e' ∧ E e) (fun a b => a = b ∧ V a) x x

theorem bothEnd_same {E : ε → Prop} {V : α → Prop} {r s : Except ε α} :
    BothEnd (fun e e' => e = e' ∧ E e) (fun a b => a = b ∧ V a) r s ↔ r = s ∧ Ends E V r := by
  cases r <;> cases s <;> simp [BothEnd]

namespace Run.Agrees

variable {J : Machine → Machine → Prop} {E : ε → Prop} {E' : ε' → Prop} {V : α → Prop} {W : β → Prop}

theorem ofResult {r : Except ε α} (h : Ends E V r) : (Run.ofResult r).Agrees J E V :=
  Coupled.ofResult (bothEnd_same.mpr ⟨rfl, h⟩)

theorem pure {a : α} (h : V a) : (Pure.pure a : Run ε α).Agrees J E V := Coupled.pure ⟨rfl, h⟩

theorem fail {e : ε} (h : E e) : (Run.fail e : Run ε α).Agrees J E V := Coupled.fail ⟨rfl, h⟩

theorem exhausted : (Run.exhausted : Run ε α).Agrees J E V := Coupled.exhausted

theorem read {f : Machine → α} (h : ∀ m n, J m n → f m = f n ∧ V (f m)) :
    (Run.read f : Run ε α).Agrees J E V := Coupled.read h

theorem bind {x : Run ε α} {f : α → Run ε β} (hx : x.Agrees J E V)
    (hf : ∀ a, V a → (f a).Agrees J E W) : (x >>= f).Agrees J E W := by
  refine Coupled.bind hx ?_
  rintro a _ ⟨rfl, ha⟩
  exact hf a ha

theorem continueWith {x : Run ε α} {f : Except ε α → Run ε' β} (hx : x.Agrees J E V)
    (hf : ∀ r, Ends E V r → (f r).Agrees J E' W) : (x.continueWith f).Agrees J E' W := by
  refine Coupled.continueWith hx fun r s hrs => ?_
  obtain ⟨rfl, hr⟩ := bothEnd_same.mp hrs
  exact hf r hr

end Run.Agrees

end Lox
