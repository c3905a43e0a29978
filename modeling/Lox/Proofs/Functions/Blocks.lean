import Lox.Proofs.Control.Session
import Lox.Proofs.Scoping.Calls

/-!
# Calls and blocks

A call of a declared function is a block, executed in the frame that the function was declared in: variables
are declared with the arguments, in the order of the parameters, and the body follows
(`Function.asBlock`). Both make one frame, bind the same names in it one after the other, and execute the same
statements in it (`Function.call_eq_block`). What is left is how they end, as a call has a value
(`Run.catchReturn_eq_ok_iff`).
-/

namespace Lox

/-! ## The block of a call -/

/-- Declarations of the names with literals, as far as there is a literal for each name. -/
def Stmt.declareAll (pos : Pos) (names : List String) (xs : List Literal) : List Stmt :=
  names.zipWith (fun name x => .declare pos name (some (.literal pos x))) xs

/-- The block that declares parameters with literals as their values, and then does what the body does. -/
def Function.asBlock (fn : Function) (pos : Pos) (xs : List Literal) : Stmt :=
  .block pos (Stmt.declareAll pos fn.params xs ++ fn.body)

theorem Stmt.execList_declareAll (ctx : Context) (pos : Pos) (names : List String) (xs : List Literal)
    (m : Machine) :
    Stmt.execList ctx (Stmt.declareAll pos names xs) m =
      .ended (.ok ())
        { m with frames := m.frames.defineAll m.current names (xs.map Literal.value) } := by
  induction names generalizing xs m with
  | nil => rfl
  | cons name names ih =>
    cases xs with
    | nil => rfl
    | cons x xs => exact ih xs { m with frames := m.frames.define m.current name x.value }

theorem Function.inScope_asBlock (ctx : Context) (fn : Function) (scope : FrameId) (pos : Pos)
    (xs : List Literal) (m : Machine) :
    Run.inScope scope ((fn.asBlock pos xs).exec ctx) m =
      Run.inScope m.frames.all.size (Stmt.execList ctx fn.body)
        (m.enter scope fn.params (xs.map Literal.value)) := by
  rw [Run.inScope, asBlock, Stmt.exec_block_apply, Stmt.execList_append]
  simp only [Run.inScope, Run.bind_apply, Stmt.execList_declareAll]
  simp only [Machine.enter, Frames.defineAll]
  generalize Stmt.execList ctx fn.body _ = o
  cases o <;> rfl

theorem Function.call_eq_block (ctx : Context) (fn : Function) (scope : FrameId) (pos : Pos)
    (xs : List Literal) :
    fn.call ctx scope (xs.map Literal.value) =
      (Run.inScope scope ((fn.asBlock pos xs).exec ctx)).catchReturn := by
  funext m
  rw [Function.call_apply]
  simp only [Run.catchReturn, Run.continueWith, inScope_asBlock]

/-! ## How calls end -/

namespace Run

variable {x : Run Unwind Unit} {m m' : Machine}

theorem catchReturn_eq_ok_iff {v : Value} :
    x.catchReturn m = .ended (.ok v) m' ↔
      x m = .ended (.error (.return v)) m' ∨ v = .nil ∧ x m = .ended (.ok ()) m' := by
  simp only [catchReturn, continueWith]
  rcases x m with ⟨⟨e | w⟩ | _, m₁⟩ | _
  · simp [fail]
  · simp
  · simp [eq_comm]
  · simp

theorem catchReturn_eq_error_iff {e : RuntimeError} :
    x.catchReturn m = .ended (.error e) m' ↔ x m = .ended (.error (.error e)) m' := by
  simp only [catchReturn, continueWith]
  rcases x m with ⟨⟨e' | w⟩ | _, m₁⟩ | _ <;> simp [fail]

end Run

/-! ## Calls of a host -/

theorem Interpreter.call_closure (host : Host) (bound id : Nat) (fn : Function) (scope : FrameId)
    (args : List Value) (site : Pos) :
    call host (bound + 1) ⟨id, .closure fn scope⟩ args site =
      fn.call (.ofBound host bound) scope args := rfl

/-- A call does the same wherever it is made from, and comes back there. -/
theorem Function.call_elsewhere {ctx : Context} {fn : Function} {scope : FrameId} {args : List Value}
    {m m' : Machine} {r : Except RuntimeError Value} (h : fn.call ctx scope args m = .ended r m')
    (here : FrameId) :
    fn.call ctx scope args { m with current := here } = .ended r { m' with current := here } := by
  rw [Function.call_apply] at h ⊢
  simp only [Run.catchReturn, Run.continueWith, Run.inScope, Machine.enter] at h ⊢
  generalize Stmt.execList ctx fn.body _ = o at h ⊢
  rcases o with ⟨⟨e | v⟩ | _, m₁⟩ | _ <;> cases h <;> rfl

theorem Stmt.execList_singleton (ctx : Context) (s : Stmt) : Stmt.execList ctx [s] = s.exec ctx := by
  rw [Stmt.execList]
  exact bind_pure (s.exec ctx)

/-- A call needs a bound that is greater by one, as it is itself an open call. -/
theorem Interpreter.call_ends_iff (host : Host) (id : Nat) (fn : Function) (scope : FrameId)
    (xs : List Literal) (pos site : Pos) (m m' : Machine) (r : Except RuntimeError Value) :
    (∃ bound, call host bound ⟨id, .closure fn scope⟩ (xs.map Literal.value) site m = .ended r m') ↔
      ∃ bound, (executeIn host bound [fn.asBlock pos xs] scope).catchReturn m = .ended r m' := by
  have hblock (bound : Nat) : fn.call (.ofBound host bound) scope (xs.map Literal.value) =
      (executeIn host bound [fn.asBlock pos xs] scope).catchReturn := by
    rw [executeIn, Stmt.execList_singleton, Function.call_eq_block _ fn scope pos xs]
  constructor
  · rintro ⟨bound, h⟩
    cases bound with
    | zero => cases h
    | succ bound =>
      rw [call_closure, hblock] at h
      exact ⟨bound, h⟩
  · rintro ⟨bound, h⟩
    refine ⟨bound + 1, ?_⟩
    rw [call_closure, hblock]
    exact h

/-- **A call is a block of parameter declarations.** A declared function is called with values that have a
literal, which are all but functions. With some bound the call ends, if and only if the block with the same
arguments as its declarations does in the frame that the function was declared in, and both leave the same
machine. A return of the block is the value of the call, which is `nil` if the block comes to its end, and
the errors are the same.

So it makes no difference where a call is made from. The body is executed in a new frame, in which a parameter
means the last argument for its name. Arguments without a parameter are dropped, and a parameter without an
argument means what any other name means, which is what it means in the frame that the function was declared
in. (Frames lie in frames that were made before, as they do in all machines that a host can come to.) -/
theorem Interpreter.call_iff_block (host : Host) (id : Nat) (fn : Function) (scope : FrameId) (site : Pos)
    (m : Machine) :
    (∀ (xs : List Literal) (pos : Pos) (m' : Machine),
        let calls (r : Except RuntimeError Value) : Prop := ∃ bound,
          call host bound ⟨id, .closure fn scope⟩ (xs.map Literal.value) site m = .ended r m'
        let executes (r : Except Unwind Unit) : Prop := ∃ bound,
          executeIn host bound [fn.asBlock pos xs] scope m = .ended r m'
        (∀ v, calls (.ok v) ↔ executes (.error (.return v)) ∨ v = .nil ∧ executes (.ok ())) ∧
          ∀ e, calls (.error e) ↔ executes (.error (.error e))) ∧
      (∀ bound args r m' site' here,
        call host bound ⟨id, .closure fn scope⟩ args site m = .ended r m' →
          call host bound ⟨id, .closure fn scope⟩ args site' { m with current := here } =
            .ended r { m' with current := here }) ∧
      ∀ args, m.frames.Layered → scope < m.frames.all.size →
        (∀ bound, call host (bound + 1) ⟨id, .closure fn scope⟩ args site m =
            (executeIn host bound fn.body m.frames.all.size).catchReturn (m.enter scope fn.params args)) ∧
          ∀ x, (m.enter scope fn.params args).frames.get? m.frames.all.size x =
            ((fn.params.zip args).reverse.lookup x).or (m.frames.get? scope x) := by
  refine ⟨fun xs pos m' => ⟨fun v => ?_, fun e => ?_⟩, fun bound args r m' site' here h => ?_,
    fun args hlayered hscope => ⟨fun bound => ?_, fun x => ?_⟩⟩
  · simp only [call_ends_iff host id fn scope xs pos, Run.catchReturn_eq_ok_iff, exists_or,
      exists_and_left]
  · simp only [call_ends_iff host id fn scope xs pos, Run.catchReturn_eq_error_iff]
  · cases bound with
    | zero => cases h
    | succ bound => exact Function.call_elsewhere h here
  · rw [call_closure]
    exact Function.call_apply _ fn scope args m
  · exact hlayered.get?_enter hscope x

/-- A function of which two parameters have one name, and another has the name of a global variable. -/
private def doubling : Function where
  name := "f"
  params := ["x", "x", "far"]
  body := [.print ⟨1, 0⟩ (.variable ⟨1, 0⟩ "x"), .return ⟨1, 0⟩ (some (.variable ⟨1, 0⟩ "far"))]

private def withFar : Machine :=
  { Machine.initial with frames := Frames.initial.define 0 "far" (.string "away") }

/-- With two arguments the last parameter has none. -/
theorem Interpreter.call_iff_block_doubling :
    withFar.frames.Layered ∧ 0 < withFar.frames.all.size ∧
      (withFar.enter 0 doubling.params [.string "a", .string "b"]).frames.get? 1 "far" =
        some (.string "away") ∧
      ∃ v m', v.text = "away" ∧ m'.buffer.contents = "b\n" ∧
        call (Native.clockHost (.ofInt 0)) 9 ⟨0, .closure doubling 0⟩ [.string "a", .string "b"] ⟨2, 0⟩
          withFar = .ended (.ok v) m' ∧
        ∃ bound, executeIn (Native.clockHost (.ofInt 0)) bound
          [doubling.asBlock ⟨2, 0⟩ [.string "a", .string "b"]] 0 withFar = .ended (.error (.return v)) m' := by
  have hlayered : withFar.frames.Layered := Frames.layered_initial.define 0 "far" (.string "away")
  have hscope : 0 < withFar.frames.all.size := by decide
  have hcall : (call (Native.clockHost (.ofInt 0)) 9 ⟨0, .closure doubling 0⟩ [.string "a", .string "b"]
      ⟨2, 0⟩ withFar).done?.map (fun p => (p.1.text, p.2.buffer.contents)) = some ("away", "b\n") := by
    decide +kernel
  obtain ⟨⟨v, m'⟩, hdone, hseen⟩ := Option.map_eq_some_iff.mp hcall
  obtain ⟨htext, hprinted⟩ := Prod.mk.inj hseen
  have hrun := Outcome.eq_of_done? hdone
  obtain ⟨hends, _, hbody⟩ := call_iff_block (Native.clockHost (.ofInt 0)) 0 doubling 0 ⟨2, 0⟩ withFar
  refine ⟨hlayered, hscope, (hbody [.string "a", .string "b"] hlayered hscope).2 "far", v, m', htext,
    hprinted, hrun, ?_⟩
  rcases ((hends [.string "a", .string "b"] ⟨2, 0⟩ m').1 v).mp ⟨9, hrun⟩ with hreturn | ⟨rfl, _⟩
  · exact hreturn
  · exact absurd (show Value.nil.text = "away" from htext) (by decide)

end Lox
