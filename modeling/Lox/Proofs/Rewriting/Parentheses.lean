import Lox.Proofs.Base.Functions
import Lox.Proofs.Rewriting.Strip

/-!
# Parentheses and positions do not matter

A program without its parentheses, and with other positions, does what the program did. All that can be
told is where an error is reported.

A tree matches the stripped tree (`Stmt.matches_strip`). Values of the two runs correspond when the second
is the first one stripped (`Correspondence.stripping_values`), and machines do when the second is the first
one stripped. This is a simulation, as stripping commutes with the operations on frames.
-/

namespace Lox

variable {ε ε' α α' : Type}

/-! ## Trees match -/

/-- The translation that drops parentheses, and replaces positions. -/
def Translation.stripping (φ : Pos → Pos) : Translation where
  Kind := Unit
  names _ x y := x = y
  declares _ := True
  enters _ params params' _ := params = params'
  arity := by
    rintro _ _ _ _ rfl
    rfl
  positions pos pos' := pos' = φ pos
  functions fn fn' := fn' = fn.strip φ

section trees

variable (φ : Pos → Pos) (k : (Translation.stripping φ).Kind)

theorem Expr.matches_strip (e : Expr) : e.Matches (.stripping φ) k (e.strip φ) := by
  induction e with
  | literal pos x => exact .literal pos _ x
  | group pos e ih => exact .groupLeft pos ih
  | unary pos op e ih => exact .unary op rfl ih
  | binary pos op l r ihl ihr => exact .binary op rfl ihl ihr
  | logical pos op l r ihl ihr => exact .logical pos _ op ihl ihr
  | var pos x => exact .var rfl rfl
  | assign pos x e ih => exact .assign rfl rfl ih
  | call pos callee args ihf ihargs =>
    rw [Expr.strip, Expr.stripList_eq_map]
    exact .call_all rfl ihf (List.forall₂_map_right_iff.mpr (List.forall₂_same.mpr ihargs))

theorem Expr.rel_matches_strip (o : Option Expr) :
    Option.Rel (Expr.Matches (.stripping φ) k) o (o.map (Expr.strip φ)) := by
  cases o with
  | none => exact .none
  | some e => exact .some (e.matches_strip φ k)

theorem Stmt.matches_stripList_of_forall {ss : List Stmt}
    (h : ∀ s ∈ ss, s.Matches (.stripping φ) k (s.strip φ)) :
    List.Forall₂ (Stmt.Matches (.stripping φ) k) ss (Stmt.stripList φ ss) := by
  rw [Stmt.stripList_eq_map]
  exact List.forall₂_map_right_iff.mpr (List.forall₂_same.mpr h)

theorem Stmt.matches_strip (s : Stmt) : s.Matches (.stripping φ) k (s.strip φ) := by
  induction s with
  | expression pos e => exact .expression pos _ (e.matches_strip φ k)
  | print pos e => exact .print pos _ (e.matches_strip φ k)
  | declare pos x initial => exact .declare pos _ trivial rfl (Expr.rel_matches_strip φ k initial)
  | block pos body ih => exact .block_all pos _ rfl (matches_stripList_of_forall φ k ih)
  | cond pos test onTrue onFalse iht ihf =>
    cases onFalse with
    | none => exact .ifThen pos _ (test.matches_strip φ k) iht
    | some s => exact .ifElse pos _ (test.matches_strip φ k) iht (ihf s rfl)
  | loop pos test body ih => exact .loop pos _ (test.matches_strip φ k) ih
  | function pos name params body ih =>
    exact .function_all pos _ trivial rfl rfl rfl (matches_stripList_of_forall φ k ih)
  | ret pos value => exact .ret pos _ (Expr.rel_matches_strip φ k value)

theorem Stmt.matches_stripList (ss : List Stmt) :
    List.Forall₂ (Stmt.Matches (.stripping φ) k) ss (Stmt.stripList φ ss) :=
  matches_stripList_of_forall φ k fun s _ => s.matches_strip φ k

end trees

/-! ## Values correspond -/

/-- A native function that may do everything, but of the code that it runs parentheses and positions do
not matter, and in errors of that code it does not see positions. -/
def Access.unlocated (φ : Pos → Pos) : Access where
  names := True
  depth := True
  declared := True
  defines _ := True
  runs _ body := Stmt.stripList φ body = body
  positions pos pos' := pos' = φ pos

/-- In runs of a program and of the stripped program each frame corresponds to itself. -/
def Correspondence.stripping (φ : Pos → Pos) : Correspondence where
  toTranslation := .stripping φ
  World := Unit
  later _ _ := True
  frames _ _ f g := f = g
  access := .unlocated φ

section values

variable {φ : Pos → Pos} {host : Host} {w : (Correspondence.stripping φ).World}

theorem Correspondence.stripping_functions {f g : Callable} :
    (Correspondence.stripping φ).Functions host w f g ↔
      g = f.strip φ ∧ f.Mirrors host (.unlocated φ) := by
  constructor
  · intro h
    cases h with
    | native id h => exact ⟨rfl, fun fn hfn => by cases hfn; exact h⟩
    | closure id hscope name hfn henters hbody =>
      cases hscope
      cases hfn
      exact ⟨rfl, nofun⟩
  · rintro ⟨rfl, hf⟩
    obtain ⟨id, code⟩ := f
    cases code with
    | closure fn scope =>
      obtain ⟨name, params, body⟩ := fn
      exact .closure id (k := ()) rfl name rfl rfl (Stmt.matches_stripList φ () body)
    | native fn => exact .native id (hf fn rfl)

theorem Correspondence.stripping_values {v v' : Value} :
    (Correspondence.stripping φ).Values host w v v' ↔
      v' = v.strip φ ∧ v.Only (Callable.Mirrors host (.unlocated φ)) := by
  constructor
  · intro h
    cases h with
    | callable hf =>
      obtain ⟨rfl, hmirrors⟩ := stripping_functions.mp hf
      exact ⟨rfl, Value.only_callable.mpr hmirrors⟩
    | nil => exact ⟨rfl, Value.only_nil⟩
    | bool b => exact ⟨rfl, Value.only_bool⟩
    | number x => exact ⟨rfl, Value.only_number⟩
    | string text => exact ⟨rfl, Value.only_string⟩
  · rintro ⟨rfl, hv⟩
    cases v with
    | callable f => exact .callable (stripping_functions.mpr ⟨rfl, hv f rfl⟩)
    | nil => exact .nil
    | bool b => exact .bool b
    | number x => exact .number x
    | string text => exact .string text

theorem Correspondence.stripping_args {args args' : List Value}
    (h : List.Forall₂ ((Correspondence.stripping φ).Values host w) args args') :
    args' = args.map (Value.strip φ) ∧
      ∀ v ∈ args, v.Only (Callable.Mirrors host (.unlocated φ)) := by
  induction h with
  | nil => exact ⟨rfl, nofun⟩
  | cons hv _ ih =>
    obtain ⟨rfl, honly⟩ := stripping_values.mp hv
    obtain ⟨rfl, hrest⟩ := ih
    exact ⟨rfl, List.forall_mem_cons.mpr ⟨honly, hrest⟩⟩

end values

/-! ## The simulation -/

/-- The second machine is the first one stripped, but for the current frame. -/
structure Machine.Stripped (φ : Pos → Pos) (host : Host) (a b : Machine) : Prop where
  frames : b.frames = a.frames.strip φ
  globals : b.globals = a.globals
  nextId : b.nextId = a.nextId
  output : b.output = a.output
  buffer : b.buffer = a.buffer
  natives : a.Holds (Callable.Mirrors host (.unlocated φ))

theorem Machine.stripped_strip {φ : Pos → Pos} {host : Host} {m : Machine}
    (hm : m.Holds (Callable.Mirrors host (.unlocated φ))) : m.Stripped φ host (m.strip φ) :=
  ⟨rfl, rfl, rfl, rfl, rfl, hm⟩

theorem Machine.Stripped.eq {φ : Pos → Pos} {host : Host} {a b : Machine} (h : a.Stripped φ host b)
    (hcurrent : a.current = b.current) : b = a.strip φ := by
  obtain ⟨frames, current, globals, nextId, output, buffer⟩ := b
  obtain ⟨rfl, rfl, rfl, rfl, rfl, _⟩ := h
  cases hcurrent
  rfl

theorem Frames.finds_strip {φ : Pos → Pos} {host : Host} {s : Frames}
    (h : s.Guarded (fun _ => True) (Callable.Mirrors host (.unlocated φ)))
    (w : (Correspondence.stripping φ).World) (f : FrameId) (x : String) :
    (Correspondence.stripping φ).Finds host w s (s.strip φ) x x (s.owner? f x) (s.owner? f x) := by
  cases howner : s.owner? f x with
  | none => exact .nowhere rfl
  | some g =>
    obtain ⟨v, hv⟩ := Option.isSome_iff_exists.mp (own?_of_owner? howner)
    have hvalue := Correspondence.stripping_values (w := w).mpr ⟨rfl, h.value g x v trivial hv⟩
    exact .binding (k := ()) rfl rfl hv (by rw [own?_strip, hv]; rfl) hvalue

/-- A run of a program goes together with that of the stripped program. -/
def Simulation.stripping (φ : Pos → Pos) (host : Host) : Simulation host where
  toCorrespondence := .stripping φ
  machines _ := Machine.Stripped φ host
  refl _ := trivial
  trans _ _ := trivial
  persists _ hfg := hfg
  within h _ _ := { h with }
  print h text := { h with buffer := by rw [h.output, h.buffer] }
  number h := ⟨h.nextId.symm, { h with nextId := by rw [h.nextId] }⟩
  enter {_ a b f _ k params _ k' args _} h hfg henters hargs _ := by
    obtain rfl := hfg
    obtain rfl := henters
    obtain ⟨rfl, hnatives⟩ := Correspondence.stripping_args hargs
    have hsize : b.frames.all.size = a.frames.all.size := by rw [h.frames, Frames.size_strip]
    refine ⟨(), trivial, { h with frames := ?_, natives := ?_ }, hsize.symm⟩
    · rw [Machine.enter, Machine.enter, hsize, h.frames, Frames.strip_defineAll, Frames.strip_openScope]
    · exact (h.natives.openScope trivial).defineAll _ _ hnatives
  find {w a b k f _ x _} h hfg hxy := by
    obtain rfl := hfg
    obtain rfl := hxy
    rw [h.frames, Frames.owner?_strip]
    exact Frames.finds_strip h.natives w f x
  define {_ a b k f _ x _ v _} h hfg hxy _ hv := by
    obtain rfl := hfg
    obtain rfl := hxy
    obtain ⟨rfl, hnative⟩ := Correspondence.stripping_values.mp hv
    refine { h with frames := ?_, natives := h.natives.define f x hnative }
    rw [h.frames, Frames.strip_define]
  lookups _ _ _ := rfl
  depth _ _ a b _ h hfg := by
    rw [h.frames, Frames.depth_strip]
    exact congrArg a.frames.depth hfg
  place {_ a b k} h hfg p := by
    refine ⟨(), ?_, fun _ => ⟨trivial, fun _ => rfl⟩, fun body hbody => ?_⟩
    · cases p with
      | current => exact hfg
      | globals => exact h.globals.symm
    · have hmatches := Stmt.matches_stripList φ () body
      rwa [show Stmt.stripList φ body = body from hbody] at hmatches
  sees h := h

def Outcome.map (f : Except ε α → Except ε' α') (g : Machine → Machine) : Outcome ε α → Outcome ε' α'
  | ended r m => ended (f r) (g m)
  | exhausted => exhausted

def RuntimeError.move (φ : Pos → Pos) (e : RuntimeError) : RuntimeError := { e with pos := φ e.pos }

/-- **Parentheses and positions do not matter.** Let the positions of a program be replaced by `φ`, and
its parentheses be dropped, in the program and in the declared functions that the machine holds at the
start. Native functions see neither: they do not look inside function values, and code that they run
themselves is left as it is by `φ`. Then the program ends if and only if it did before, without an error or
with the same error at the position replaced by `φ`. It leaves the machine that it left before, with the
positions replaced and the parentheses dropped in the declared functions that it holds. In particular it
prints the same. -/
theorem Interpreter.interpret_strip (host : Host) (bound : Nat) (φ : Pos → Pos) (program : Program)
    {m : Machine} (hm : m.Holds (Callable.Mirrors host (.unlocated φ))) :
    interpret host bound (Stmt.stripList φ program) (m.strip φ) =
      (interpret host bound program m).map (Except.mapError (RuntimeError.move φ))
        (Machine.strip φ) := by
  let S := Simulation.stripping φ host
  have hmatches : List.Forall₂ (Stmt.Matches S.toTranslation ()) program (Stmt.stripList φ program) :=
    Stmt.matches_stripList φ () program
  have hruns := S.interpret bound hmatches () m (m.strip φ) ⟨Machine.stripped_strip hm, rfl⟩
  obtain ⟨r, a, s, b, hx, hy, ⟨_, _, ⟨hab, hcurrent⟩, hrs⟩⟩ | ⟨hx, hy⟩ := hruns.cases
  · rw [hx, hy, Outcome.map, hab.eq hcurrent]
    congr 1
    cases r <;> cases s
    · next e e' =>
      obtain ⟨hfault, hpos⟩ := hrs
      cases e'
      cases hfault
      cases hpos
      rfl
    · exact hrs.elim
    · exact hrs.elim
    · rfl
  · rw [hx, hy]
    rfl

/-- Globals that hold a declared function with a parenthesis, and a native function that calls its
argument. -/
private def holding : Machine :=
  let step : Expr := .group ⟨1, 0⟩ (.binary ⟨1, 0⟩ .add (.variable ⟨1, 0⟩ "n") (.variable ⟨1, 0⟩ "n"))
  let again : Function := ⟨"again", [], [.expression ⟨1, 0⟩ (.assign ⟨1, 0⟩ "n" step)]⟩
  let frames := Frames.initial.define 0 "apply" (.callable ⟨0, .native ⟨"apply", 1⟩⟩)
  { Machine.initial with
    frames := (frames.define 0 "again" (.callable ⟨1, .closure again 0⟩)).define 0 "n" (.string "x")
    nextId := 2 }

/-- A function that has its argument called, and then calls it itself. In the end the program fails. -/
private def recalling : Program :=
  let read (line : Nat) (name : String) : Expr := .group ⟨line, 1⟩ (.variable ⟨line, 2⟩ name)
  let call (line : Nat) (f x : String) : Expr := .call ⟨line, 3⟩ (read line f) [read line x]
  [.function ⟨2, 0⟩ "twice" ["f"] [
      .expression ⟨3, 0⟩ (call 3 "apply" "f"),
      .return ⟨4, 0⟩ (some (.group ⟨4, 0⟩ (.call ⟨4, 0⟩ (read 4 "f") [])))],
    .expression ⟨5, 0⟩ (call 5 "twice" "again"),
    .print ⟨6, 0⟩ (read 6 "n"),
    .expression ⟨7, 0⟩ (.unary ⟨7, 4⟩ .negate (read 7 "twice"))]

theorem Interpreter.interpret_strip_holding :
    let φ (pos : Pos) : Pos := ⟨pos.line + 1, 0⟩
    ∃ m', interpret (Native.Toolkit.host (.ofInt 0)) 9 recalling holding =
        .ended (.error ⟨.operandNotNumber, ⟨7, 4⟩⟩) m' ∧ m'.buffer.contents = "xxxx\n" ∧
      interpret (Native.Toolkit.host (.ofInt 0)) 9 (Stmt.stripList φ recalling) (holding.strip φ) =
        .ended (.error ⟨.operandNotNumber, ⟨8, 0⟩⟩) (m'.strip φ) := by
  intro φ
  have hnatives : holding.Holds (Callable.Mirrors (Native.Toolkit.host (.ofInt 0)) (.unlocated φ)) := by
    refine ⟨fun _ _ _ _ => trivial, fun _ _ _ _ _ f _ fn _ => Native.Toolkit.mirrors_of_allows _ ?_⟩
    exact ⟨fun _ => trivial, fun _ => trivial, fun _ => trivial, fun _ => trivial, fun _ => trivial⟩
  have failed : (interpret (Native.Toolkit.host (.ofInt 0)) 9 recalling holding).failed?.map
      (fun p => (p.1, p.2.buffer.contents)) = some (⟨.operandNotNumber, ⟨7, 4⟩⟩, "xxxx\n") := by
    decide +kernel
  obtain ⟨⟨e, m'⟩, hfailed, hseen⟩ := Option.map_eq_some_iff.mp failed
  obtain ⟨rfl, hprinted⟩ := Prod.mk.inj hseen
  have hrun := Outcome.eq_of_failed? hfailed
  refine ⟨m', hrun, hprinted, ?_⟩
  rw [interpret_strip _ 9 φ recalling hnatives, hrun]
  rfl

end Lox
