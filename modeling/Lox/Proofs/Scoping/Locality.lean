import Lox.Proofs.Scoping.Region

/-!
# Locality

A run depends on the frames that can be reached from where it starts, and on nothing else. In particular
a call depends on the frame that the function was declared in, and not on the frame of the caller.

The proof runs two machines in lockstep within a region, namely what can be reached at the start together
with all that is yet to be made.
-/

namespace Lox

/-- A call of a declared function needs its own frame in the region, and no matter where it is made. -/
theorem Function.call_agrees {host : Host} {R : Region host} {a₀ b₀ : Machine} (bound : Nat)
    (fn : Function) {scope : FrameId} (hscope : R.frames scope) {args : List Value}
    (hargs : ∀ v ∈ args, v.Only R.functions) :
    (fn.call (.ofBound host bound) scope args).Agrees (R.Together a₀ b₀) (fun _ => True)
      (Value.Only R.functions) := by
  let J := R.judgement a₀ b₀
  have hbody : J.ofUnwind (Stmt.execList (.ofBound host bound) fn.body) :=
    Judgement.execAll (J.call bound) fn.body fun _ _ => trivial
  refine .bind (.openScope hscope) fun frame hframe => ?_
  refine .bind (.bindAll hframe _ hargs) fun _ _ => ?_
  refine .continueWith (.inScope hframe hbody) ?_
  rintro (⟨e | v⟩ | _) h
  · exact .fail h
  · exact .pure h
  · exact .pure Value.only_nil

/-! ## Locality -/

/-- The globals of both are one frame, and it is within reach. -/
def Machine.SharesGlobals (a : Machine) (root : FrameId → Prop) (b : Machine) : Prop :=
  a.globals = b.globals ∧ a.frames.Reachable root a.globals

/-- Machines that cannot be told apart from the roots: they have as many frames and function values, and
they agree on the frames within reach. Native functions there bind names and run code within reach
only. -/
structure Machine.SameReach (a : Machine) (host : Host) (root : FrameId → Prop) (b : Machine) : Prop where
  size : a.frames.all.size = b.frames.all.size
  nextId : a.nextId = b.nextId
  agree : a.frames.Agree (a.frames.Reachable root) b.frames
  natives : ∀ f name c, a.frames.Reachable root f → a.frames.own? f name = some (.callable c) →
    c.Obeys host (.sharing (a.SharesGlobals root b))

/-- Two runs from `a` and `b` leave `a'` and `b'`. They printed the same texts and made as many frames
and function values, they agree on the frames within reach and the new ones, and left all other frames
alone. -/
structure Machine.SameEffects (a : Machine) (root : FrameId → Prop) (b a' b' : Machine) : Prop where
  printed : ∃ texts, a'.buffer = a.output.printAll texts a.buffer ∧
    b'.buffer = b.output.printAll texts b.buffer
  size : a'.frames.all.size = b'.frames.all.size
  nextId : a'.nextId = b'.nextId
  agree : a'.frames.Agree (a.frames.InReach root) b'.frames
  left : ∀ f, f < a.frames.all.size → ¬ a.frames.Reachable root f →
    a'.frames.all[f]? = a.frames.all[f]?
  right : ∀ f, f < b.frames.all.size → ¬ b.frames.Reachable root f →
    b'.frames.all[f]? = b.frames.all[f]?

/-- From both machines the run ends or not, and if so with the same result and the same effects. -/
def Run.SameFrom {ε α : Type} (x : Run ε α) (root : FrameId → Prop) (a b : Machine) : Prop :=
  (x a).Rel (fun r a' s b' => r = s ∧ a.SameEffects root b a' b') (x b)

namespace Machine

variable {root : FrameId → Prop} {a b : Machine}

/-- What can be reached from the roots, and all that is yet to be made. -/
def reach (a : Machine) (host : Host) (root : FrameId → Prop) (b : Machine) : Region host where
  frames := a.frames.InReach root
  functions f := (∀ g, f.Captures g → a.frames.InReach root g) ∧
    f.Obeys host (.sharing (a.SharesGlobals root b))
  shared := a.SharesGlobals root b
  captured f g hf := hf.1 g
  declared id fn g hg := ⟨by rintro _ ⟨_, h⟩; cases h; exact hg, nofun⟩
  native f fn hf hcode args hargs := by
    refine (hf.2 fn hcode).acts hargs fun g made hmade hobeys => ⟨?_, .of_native hmade hobeys⟩
    rintro scope ⟨_, hclosure⟩
    cases hmade.symm.trans hclosure

theorem SameReach.together (h : SameReach a host root b) :
    (a.reach host root b).Together a b a b := by
  refine ⟨?_, [], .refl a, .refl b⟩
  exact {
    size := h.size
    nextId := h.nextId
    agree := by
      rintro f (hf | hf)
      · exact h.agree f hf
      · rw [Array.getElem?_eq_none hf, Array.getElem?_eq_none (h.size ▸ hf)]
    guarded := {
      link := (Frames.guarded_inReach a.frames root).link
      value := by
        rintro f name _ hf hv c rfl
        have hreach := hf.reachable (Frames.lt_size_of_own? hv)
        exact ⟨(Frames.guarded_inReach a.frames root).value f name _ hf hv c rfl,
          h.natives f name c hreach hv⟩ }
    fresh := fun _ hf => .inr hf
    globals := fun hshared => ⟨hshared.1, .inl hshared.2⟩ }

theorem SameReach.lockstep (h : SameReach a host (· = a.current) b) (hcurrent : a.current = b.current) :
    (a.reach host (· = a.current) b).Lockstep a b a b :=
  ⟨h.together, hcurrent, .inl (.root rfl)⟩

theorem SameReach.effects (h : SameReach a host root b) {a' b' : Machine}
    (hab : (a.reach host root b).Together a b a' b') : SameEffects a root b a' b' := by
  obtain ⟨halike, texts, ha, hb⟩ := hab
  have outside {f : FrameId} (hf : f < a.frames.all.size) (hn : ¬ a.frames.Reachable root f) :
      ¬ a.frames.InReach root f := fun hin => hn (hin.reachable hf)
  exact {
    printed := ⟨texts, ha.printed, hb.printed⟩
    size := halike.size
    nextId := halike.nextId
    agree := halike.agree
    left := fun f hf hn => ha.outside f (outside hf hn)
    right := fun f hf hn => hb.outside f (outside (h.size ▸ hf) fun hr => hn (hr.of_agree h.agree)) }

/-- Runs that go the same way within reach cannot tell the machines apart. -/
theorem SameReach.sameFrom (h : SameReach a host root b) {ε α : Type} {E : ε → Prop} {V : α → Prop}
    {J : Machine → Machine → Prop} {x : Run ε α} (hx : x.Agrees J E V) (hJ : J a b)
    (htogether : ∀ a' b', J a' b' → (a.reach host root b).Together a b a' b') :
    x.SameFrom root a b :=
  (hx a b hJ).mono fun _ a' _ b' hr =>
    ⟨(bothEnd_same.mp hr.2).1, h.effects (htogether a' b' hr.1)⟩

end Machine

/-- The roots of a call: the frames that the function and the functions among its arguments were declared
in. -/
def callRoots (scope : FrameId) (args : List Value) (f : FrameId) : Prop :=
  f = scope ∨ ∃ c, .callable c ∈ args ∧ c.Captures f

/-- **Execution is local.** Let two machines be the same within reach of the current frame. Then a
statement or an expression ends in one of them if and only if it does in the other, with the same result
and the same effects. A call of a declared function does so already if the machines are the same within
reach of the frames that the function and its arguments come from, whichever frames they are called in. -/
theorem Interpreter.run_local (host : Host) (bound : Nat) (a b : Machine) :
    (∀ s, a.current = b.current → a.SameReach host (· = a.current) b →
        (execute host bound s).SameFrom (· = a.current) a b) ∧
      (∀ e, a.current = b.current → a.SameReach host (· = a.current) b →
        (evaluate host bound e).SameFrom (· = a.current) a b) ∧
      ∀ id fn scope args site,
        (∀ c, .callable c ∈ args → c.Obeys host (.sharing (a.SharesGlobals (callRoots scope args) b))) →
        a.SameReach host (callRoots scope args) b →
        (call host bound ⟨id, .closure fn scope⟩ args site).SameFrom (callRoots scope args) a b := by
  refine ⟨fun s hcurrent h => ?_, fun e hcurrent h => ?_, fun id fn scope args site hnatives h => ?_⟩
  · have hrun : (execute host bound s).Agrees (Region.Lockstep _ a b) _ _ :=
      ((a.reach host (· = a.current) b).judgement a b).execute bound s fun _ _ => trivial
    exact h.sameFrom hrun (h.lockstep hcurrent) fun _ _ hab => hab.together
  · have hrun : (evaluate host bound e).Agrees (Region.Lockstep _ a b) _ _ :=
      ((a.reach host (· = a.current) b).judgement a b).evaluate bound e fun _ _ => trivial
    exact h.sameFrom hrun (h.lockstep hcurrent) fun _ _ hab => hab.together
  · cases bound with
    | zero => trivial
    | succ bound =>
      have hscope : a.frames.InReach (callRoots scope args) scope := .inl (.root (.inl rfl))
      have hargs : ∀ v ∈ args, v.Only (a.reach host (callRoots scope args) b).functions := by
        rintro v hv c rfl
        exact ⟨fun g hg => .inl (.root (.inr ⟨c, hv, hg⟩)), hnatives c hv⟩
      have hrun : (fn.call (.ofBound host bound) scope args).Agrees (Region.Together _ a b) _ _ :=
        Function.call_agrees bound fn hscope hargs
      exact h.sameFrom hrun h.together fun _ _ hab => hab

/-- Two frames inside the globals that bind the same name. Only the second depends on `secret`. -/
private def apart (secret : String) (current : FrameId) : Machine :=
  let globals := Frames.initial.define 0 "setGlobal" (.callable ⟨0, .native ⟨"setGlobal", 2⟩⟩)
  let scope := (globals.openScope 0).2.define 1 "n" (.string "x")
  { Machine.initial with
    frames := (scope.openScope 0).2.define 2 "n" (.string secret)
    current
    nextId := 1 }

/-- A function of the first frame that appends what the frame binds to its argument. -/
private def appending : Callable :=
  ⟨1, .closure ⟨"g", ["s"], [.return ⟨1, 0⟩ (some (.binary ⟨1, 0⟩ .add (.variable ⟨1, 0⟩ "s")
    (.variable ⟨1, 0⟩ "n")))]⟩ 1⟩

/-- A function that assigns what its argument makes of a name, prints it, and binds it in the globals. -/
private def applying : Function where
  name := "f"
  params := ["g"]
  body := [
    .expression ⟨2, 0⟩ (.assign ⟨2, 0⟩ "n" (.call ⟨2, 0⟩ (.variable ⟨2, 0⟩ "g") [.variable ⟨2, 0⟩ "n"])),
    .print ⟨3, 0⟩ (.variable ⟨3, 0⟩ "n"),
    .return ⟨4, 0⟩ (some (.call ⟨4, 0⟩ (.variable ⟨4, 0⟩ "setGlobal")
      [.literal ⟨4, 0⟩ (.string "seen"), .variable ⟨4, 0⟩ "n"]))]

private theorem apart_sharesGlobals :
    (apart "left" 2).SharesGlobals (callRoots 1 [.callable appending]) (apart "right" 0) := by
  have henclosing : (apart "left" 2).frames.enclosing? 1 = some 0 := by decide
  exact ⟨rfl, .link (.root (.inl rfl)) henclosing⟩

private theorem apart_guarded {shared : Prop} (hshared : shared) :
    (apart "left" 2).frames.Guarded (fun f => f = 0 ∨ f = 1) fun c =>
      (∀ g, c.Captures g → g = 0 ∨ g = 1) ∧
        c.Obeys (Native.Toolkit.host (.ofInt 0)) (.sharing shared) := by
  refine .define (.openScope (.define (.openScope (.define (Frames.guarded_initial _ _) 0 _ ?_)
    (.inl rfl)) 1 _ Value.only_string) (.inl rfl)) 2 _ Value.only_string
  refine Value.only_callable.mpr ⟨nofun, fun fn hfn => .of_args fun args => ?_⟩
  cases hfn
  have hargs : ∀ v ∈ args, v.Only fun f => .callable f ∈ args := by
    rintro v hv f rfl
    exact hv
  exact ⟨fun _ => hshared, Native.Toolkit.arg_only hargs 1, Value.only_nil⟩

theorem Interpreter.run_local_apart :
    (call (Native.Toolkit.host (.ofInt 0)) 9 ⟨2, .closure applying 1⟩ [.callable appending] ⟨5, 0⟩
        (apart "left" 2)).final?.map (·.buffer.contents) = some "xx\n" ∧
      (call (Native.Toolkit.host (.ofInt 0)) 9 ⟨2, .closure applying 1⟩ [.callable appending]
        ⟨5, 0⟩).SameFrom (callRoots 1 [.callable appending]) (apart "left" 2) (apart "right" 0) := by
  have guarded := apart_guarded apart_sharesGlobals
  have reach {f : FrameId}
      (hf : (apart "left" 2).frames.Reachable (callRoots 1 [.callable appending]) f) :
      f = 0 ∨ f = 1 := by
    refine hf.least ?_ (guarded.mono fun c hc => hc.1)
    rintro f (rfl | ⟨c, hc, fn, hcode⟩)
    · exact .inr rfl
    · cases List.mem_singleton.mp hc
      cases hcode
      exact .inr rfl
  have agree : (apart "left" 2).frames.Agree (fun f => f = 0 ∨ f = 1) (apart "right" 0).frames := by
    have other : ¬ ((2 : FrameId) = 0 ∨ (2 : FrameId) = 1) := by decide
    exact (Frames.agree_define other _ _ _).trans (Frames.agree_define other _ _ _).symm
  refine ⟨by decide +kernel, ?_⟩
  refine (run_local _ 9 (apart "left" 2) (apart "right" 0)).2.2 2 applying 1 _ ⟨5, 0⟩ ?_ ?_
  · rintro c hc fn hcode
    cases List.mem_singleton.mp hc
    cases hcode
  · exact {
      size := rfl
      nextId := rfl
      agree := fun f hf => agree f (reach hf)
      natives := fun f name c hf hv => (guarded.value f name _ (reach hf) hv c rfl).2 }

end Lox
