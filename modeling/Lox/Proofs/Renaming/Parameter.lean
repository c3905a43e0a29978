import Lox.Proofs.Renaming.Frames
import Lox.Proofs.Scoping.Reachability

/-!
# Parameters can be renamed

A program does the same when a parameter of a function that it declares is renamed, in the list of
parameters and in the body. The new name must not occur in the program. Closures of the function may
outlive its calls, and be called from where the old name stands for something else.

The two runs are shown to go together by the simulation of `Lox.Proofs.Renaming.Frames`. At the start all
frames in reach are outside, and like themselves, as there are no declared functions in them.
-/

namespace Lox

open Classical in
/-- The frames `S` are outside, and nothing is known of the others. -/
noncomputable def Zones.outside (S : FrameId → Prop) : Zones :=
  fun f => if S f then some .outside else none

theorem Zones.outside_eq_some {S : FrameId → Prop} {f : FrameId} {k : Zone} :
    Zones.outside S f = some k ↔ S f ∧ k = .outside := by
  unfold Zones.outside
  split
  · next h => simp [h, eq_comm]
  · next h => simp [h]

/-- The frames that a machine starts from: the current frame and the globals. -/
def Machine.starts (m : Machine) (f : FrameId) : Prop := f = m.current ∨ f = m.globals

/-- In reach of where a machine starts there are frames that exist, and in them no function values but
native functions, which act alike on like arguments and do what `c` allows. -/
structure Machine.OnlyNatives (m : Machine) (host : Host) (c : Access) : Prop where
  made : ∀ f, m.frames.Reachable m.starts f → f < m.frames.all.size
  values : ∀ f name g, m.frames.Reachable m.starts f → m.frames.own? f name = some (.callable g) →
    ∃ fn, g.code = .native fn ∧ fn.Mirrors host c

section start

variable {host : Host} {m : Machine} (p q : String) (hm : m.OnlyNatives host .nameless)
include hm

/-- Before the first call of a declared function all frames are outside. -/
theorem Frames.alike_start :
    m.frames.Alike p q host (Zones.outside (m.frames.Reachable m.starts)) m.frames where
  size := rfl
  known f k hf := hm.made f (Zones.outside_eq_some.mp hf).1
  link _ _ _ := rfl
  closed f k g hf he := by
    have hreach := (Zones.outside_eq_some.mp hf).1
    exact ⟨.outside, Zones.outside_eq_some.mpr ⟨.link hreach he, rfl⟩, fun _ => rfl⟩
  value f k x hf _ := by
    obtain ⟨hreach, rfl⟩ := Zones.outside_eq_some.mp hf
    show Option.Rel _ (m.frames.own? f x) (m.frames.own? f x)
    cases hown : m.frames.own? f x with
    | none => exact .none
    | some v =>
      refine .some (Correspondence.values_self ?_)
      rintro ⟨id, code⟩ rfl
      obtain ⟨fn, rfl, hfn⟩ := hm.values f x _ hreach hown
      exact .native id hfn

theorem Machine.renamed_start :
    m.Renamed p q host (Zones.outside (m.frames.Reachable m.starts)) m where
  frames := Frames.alike_start p q hm
  anchored f hf := by cases (Zones.outside_eq_some.mp hf).2
  globals := rfl
  global := ⟨.outside, Zones.outside_eq_some.mpr ⟨.root (.inr rfl), rfl⟩⟩
  nextId := rfl
  output := rfl
  buffer := rfl

end start

/-- The run ends with the result `r`, and with `printed` in the buffer. -/
def Run.EndsWith {ε α : Type} (x : Run ε α) (m : Machine) (r : Except ε α) (printed : Buffer) : Prop :=
  ∃ m', x m = .ended r m' ∧ m'.buffer = printed

theorem Run.endsWith_iff_of_rel {ε α : Type} {x y : Run ε α} {m n : Machine}
    (h : (x m).Rel (fun r a s b => r = s ∧ a.buffer = b.buffer) (y n)) (r : Except ε α)
    (printed : Buffer) : x.EndsWith m r printed ↔ y.EndsWith n r printed := by
  obtain ⟨r', a, _, b, hx, hy, rfl, hbuffer⟩ | ⟨hx, hy⟩ := h.cases
  · simp [EndsWith, hx, hy, hbuffer]
  · simp [EndsWith, hx, hy]

/-- **A parameter can be renamed.** In a program one function is declared with a parameter `p`, and no
function inside it is called `p`. Let `q` occur nowhere in the program, and let `p` be renamed to `q` in
the parameters and in the body of that function. Start both programs in a machine that has no declared
functions in reach, and in which native functions read and write no variables by name, run no code that
does so, and call no declared functions. Then one of them ends if and only if the other does, with the
same result and the same printed text. -/
theorem Interpreter.interpret_renames_param (host : Host) (bound : Nat) {p q : String}
    {program renamed : Program} (hrenamed : Stmt.RenamesParamIn p q program renamed)
    (hfresh : q ∉ Stmt.namesOfList program) {m : Machine} (hm : m.OnlyNatives host .nameless)
    (r : Except RuntimeError Unit) (printed : Buffer) :
    (interpret host bound program).EndsWith m r printed ↔
      (interpret host bound renamed).EndsWith m r printed := by
  let S := Simulation.renaming p q host
  obtain ⟨before, s, s', after, h, rfl, rfl⟩ := hrenamed
  have hmatches : List.Forall₂ (Stmt.Matches S.toTranslation .outside) (before ++ s :: after)
      (before ++ s' :: after) := Stmt.matches_among hfresh h.matches
  have hstart : S.Together .outside (Zones.outside (m.frames.Reachable m.starts)) m m := by
    refine ⟨Machine.renamed_start p q hm, rfl, ?_⟩
    exact Zones.outside_eq_some.mpr ⟨.root (.inl rfl), rfl⟩
  refine Run.endsWith_iff_of_rel ((S.interpret bound hmatches _ m m hstart).mono ?_) r printed
  rintro r a r' b ⟨z, _, ⟨hab, _⟩, hend⟩
  refine ⟨?_, hab.buffer⟩
  cases r <;> cases r'
  · rw [RuntimeError.Like.eq hend]
  · exact hend.elim
  · exact hend.elim
  · rfl

/-- The globals with two functions of the toolkit. -/
private def echoing : Machine :=
  let frames := Frames.initial.define 0 "echo" (.callable ⟨0, .native ⟨"echo", 1⟩⟩)
  { Machine.initial with
    frames := frames.define 0 "same" (.callable ⟨1, .native ⟨"same", 2⟩⟩)
    nextId := 2 }

private theorem echoing_onlyNatives :
    echoing.OnlyNatives (Native.Toolkit.host (.ofInt 0)) .nameless := by
  have guarded : echoing.frames.Guarded (· = 0) fun g =>
      ∃ fn, g.code = .native fn ∧ fn.Mirrors (Native.Toolkit.host (.ofInt 0)) .nameless := by
    refine .define (.define (Frames.guarded_initial _ _) 0 _ ?_) 0 _ ?_
    · exact Value.only_callable.mpr ⟨_, rfl, Native.Toolkit.mirrors _ trivial (by decide)⟩
    · exact Value.only_callable.mpr ⟨_, rfl, Native.Toolkit.mirrors _ trivial (by decide)⟩
  have reach {f : FrameId} (hf : echoing.frames.Reachable echoing.starts f) : f = 0 := by
    refine hf.least (S := (· = 0)) (by rintro f (rfl | rfl) <;> rfl) (guarded.mono ?_)
    rintro g ⟨fn, hfn, _⟩ scope ⟨_, hclosure⟩
    cases hfn.symm.trans hclosure
  exact {
    made := fun f hf => by rw [reach hf]; decide
    values := fun f name g hf hown => guarded.value f name _ (reach hf) hown g rfl }

/-- A function with a parameter `x`, which a function inside it changes. A variable in a block and the
parameter of another function inside have that name too. -/
private def counting (x : String) : Stmt :=
  let read (name : String) : Expr := .variable ⟨1, 0⟩ name
  let echo : Stmt := .expression ⟨2, 0⟩ (.call ⟨2, 0⟩ (read "echo") [read x])
  let append : Expr := .assign ⟨3, 0⟩ x (.binary ⟨3, 0⟩ .add (read x) (read "more"))
  .function ⟨1, 0⟩ "count" [x] [
    .block ⟨4, 0⟩ [.declare ⟨4, 0⟩ x (some (read x)), echo],
    .function ⟨5, 0⟩ "show" [x] [echo],
    .expression ⟨5, 0⟩ (.call ⟨5, 0⟩ (read "show") [.literal ⟨5, 0⟩ .nil]),
    .function ⟨6, 0⟩ "step" ["more"] [
      .expression ⟨6, 0⟩ append, echo, .return ⟨6, 0⟩ (some (read "step"))],
    .return ⟨7, 0⟩ (some (read "step"))]

/-- The inner function is called where `p` means something else. In the end the program fails. -/
private def steps : List Stmt :=
  let read (name : String) : Expr := .variable ⟨8, 0⟩ name
  let call (name : String) (args : List Expr) : Expr := .call ⟨8, 0⟩ (read name) args
  let text (s : String) : Expr := .literal ⟨8, 0⟩ (.string s)
  [.declare ⟨8, 0⟩ "p" (some (text "main")),
    .declare ⟨8, 0⟩ "f" (some (call "count" [text "a"])),
    .print ⟨8, 0⟩ (call "same" [read "f", call "f" [text "b"]]),
    .print ⟨8, 0⟩ (read "p"), .expression ⟨9, 0⟩ (.unary ⟨9, 0⟩ .negate (read "f"))]

theorem Interpreter.interpret_renames_param_escaping :
    (interpret (Native.Toolkit.host (.ofInt 0)) 9 (counting "q" :: steps)).EndsWith echoing
      (.error ⟨.operandNotNumber, ⟨9, 0⟩⟩) ⟨"a\nnil\nab\ntrue\nmain\n"⟩ := by
  have hrenamed : (counting "p").RenamesParam "p" "q" (counting "q") := by
    have hhere : (counting "p").RenamesParam "p" "q" _ :=
      .here ⟨1, 0⟩ "count" (by simp) (by decide +kernel)
    simpa [counting, substitute, Stmt.renameList, Stmt.rename, Expr.rename, Expr.renameList] using hhere
  have hin : Stmt.RenamesParamIn "p" "q" (counting "p" :: steps) (counting "q" :: steps) :=
    ⟨[], _, _, steps, hrenamed, rfl, rfl⟩
  have hfresh : "q" ∉ Stmt.namesOfList (counting "p" :: steps) := by decide +kernel
  refine (interpret_renames_param _ 9 hin hfresh echoing_onlyNatives _ _).mp ?_
  have failed : (interpret (Native.Toolkit.host (.ofInt 0)) 9 (counting "p" :: steps) echoing).failed?.map
      (fun p => (p.1, p.2.buffer)) =
        some (⟨.operandNotNumber, ⟨9, 0⟩⟩, ⟨"a\nnil\nab\ntrue\nmain\n"⟩) := by
    decide +kernel
  obtain ⟨⟨e, m'⟩, hfailed, hseen⟩ := Option.map_eq_some_iff.mp failed
  obtain ⟨rfl, hbuffer⟩ := Prod.mk.inj hseen
  exact ⟨m', Outcome.eq_of_failed? hfailed, hbuffer⟩

end Lox
