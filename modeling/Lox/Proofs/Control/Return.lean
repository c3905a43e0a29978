import Lox.Proofs.Run.Evolution

/-!
# Returns stop at the nearest call

A return is caught by the call whose body it stands in, so code without a return statement of its own
never stops with one, whatever it calls.

That a call does not stop with a return is clear from its type. What is left is an induction over
statements, by the rules for runs that take steps only, with a postcondition that no return meets
(`Unwind.NoReturn`).
-/

namespace Lox

/-! ## Statements that return -/

mutual

/-- There is a return statement, outside of the bodies of functions that are declared. -/
def Stmt.returns : Stmt → Bool
  | .return _ _ => true
  | .block _ body => Stmt.returnsList body
  | .cond _ _ onTrue onFalse => onTrue.returns || Stmt.returnsOption onFalse
  | .loop _ _ body => body.returns
  | .expression _ _ | .print _ _ | .declare _ _ _ | .function _ _ _ _ => false

def Stmt.returnsList : List Stmt → Bool
  | [] => false
  | s :: ss => s.returns || Stmt.returnsList ss

def Stmt.returnsOption : Option Stmt → Bool
  | some s => s.returns
  | none => false

end

theorem Stmt.returnsList_eq_false {ss : List Stmt} :
    Stmt.returnsList ss = false ↔ ∀ s ∈ ss, s.returns = false := by
  induction ss with
  | nil => simp [Stmt.returnsList]
  | cons s ss ih => simp [Stmt.returnsList, ih]

/-! ## Runs that do not return -/

abbrev Unwind.NoReturn : Unwind → Prop := Unwind.Meets (fun _ => True) fun _ => False

section statements

variable {host : Host} {ctx : Context} (hctx : (Judgement.evolving host).ofCalls ctx.invoke)
include hctx

theorem Stmt.exec_noReturn (s : Stmt) (hs : s.returns = false) :
    (s.exec ctx).Evolving Unwind.NoReturn fun _ => True := by
  let J := Judgement.evolving host
  have eval (e : Expr) : J.holds Unwind.NoReturn (Value.Only J.functions) (e.eval ctx).within :=
    J.within (Judgement.eval hctx e fun _ _ => trivial)
  induction s with
  | expression pos e => exact J.bind (eval e) fun _ _ => J.pure trivial
  | print pos e => exact J.bind (eval e) fun v _ => J.print v.text
  | declare pos name initial =>
    have heval : J.ofValue (Expr.evalOption ctx initial) :=
      Judgement.evalOption hctx initial fun _ _ => trivial
    exact J.bind (J.within heval) fun v hv => J.defineHere name hv
  | block pos body ih =>
    rw [Stmt.returns, Stmt.returnsList_eq_false] at hs
    rw [Stmt.exec]
    refine J.bind J.current fun c hc => J.bind (J.openScope hc) fun f hf => J.inScope hf ?_
    exact Judgement.execList fun s hmem => ih s hmem (hs s hmem)
  | cond pos test onTrue onFalse iht ihf =>
    rw [Stmt.returns, Bool.or_eq_false_iff] at hs
    rw [Stmt.exec]
    refine J.bind (eval test) fun v _ => ?_
    split
    · exact iht hs.1
    · cases onFalse with
      | none => exact J.pure trivial
      | some s => exact ihf s rfl hs.2
  | loop pos test body ih =>
    rw [Stmt.returns] at hs
    rw [Stmt.exec]
    refine J.repeatWhile (J.bind (eval test) fun v _ => ?_) _
    split
    · exact J.bind (ih hs) fun _ _ => J.pure trivial
    · exact J.pure trivial
  | function pos name params body ih =>
    rw [Stmt.exec]
    refine J.bind J.current fun c _ => J.bind (J.newCallable fun _ => trivial) fun f hf => ?_
    exact J.defineHere name (Value.only_callable.mpr hf)
  | ret pos value => cases hs

theorem Stmt.execList_noReturn {ss : List Stmt} (hss : Stmt.returnsList ss = false) :
    (Stmt.execList ctx ss).Evolving Unwind.NoReturn fun _ => True :=
  (Judgement.evolving host).execList fun s hs =>
    Stmt.exec_noReturn hctx s (Stmt.returnsList_eq_false.mp hss s hs)

/-- A body without a return comes to its end, and then the value of the call is `nil`. -/
theorem Function.call_nil {fn : Function} (hbody : Stmt.returnsList fn.body = false)
    (scope : FrameId) (args : List Value) :
    (fn.call ctx scope args).Evolving (fun _ => True) (· = .nil) := by
  let J := Judgement.evolving host
  refine J.bind (J.openScope trivial) fun frame hframe => ?_
  refine J.bind (J.bindAll hframe _ fun _ _ _ _ => trivial) fun _ _ => ?_
  refine J.continueWith (J.inScope hframe (Stmt.execList_noReturn hctx hbody)) ?_
  rintro (⟨e | v⟩ | _) h
  · exact J.fail trivial
  · exact h.elim
  · exact J.pure rfl

end statements

/-! ## Returns and calls -/

/-- **A return unwinds to the nearest call.** Statements without a return outside of function bodies never
end with one, be they run as they are or as a list in some frame. So the call of a function whose body has
no return gives `nil` if it does not fail. -/
theorem Interpreter.return_stops_at_call (host : Host) (bound : Nat) (m m' : Machine) :
    (∀ s v, s.returns = false → execute host bound s m ≠ .ended (.error (.return v)) m') ∧
      (∀ body f v, Stmt.returnsList body = false →
        executeIn host bound body f m ≠ .ended (.error (.return v)) m') ∧
      ∀ id fn scope args site v, Stmt.returnsList fn.body = false →
        call host bound ⟨id, .closure fn scope⟩ args site m = .ended (.ok v) m' → v = .nil := by
  let J := Judgement.evolving host
  refine ⟨fun s v hs hrun => ?_, fun body f v hbody hrun => ?_,
    fun id fn scope args site v hbody hrun => ?_⟩
  · exact Run.Keeps.of_ended (Stmt.exec_noReturn (J.call bound) s hs m) (.refl m) hrun
  · have hexec : (Stmt.execList (.ofBound host bound) body).Evolving Unwind.NoReturn fun _ => True :=
      Stmt.execList_noReturn (J.call bound) hbody
    exact Run.Keeps.of_ended (hexec.inScope f m) (.refl m) hrun
  · cases bound with
    | zero => cases hrun
    | succ bound =>
      exact Run.Keeps.of_ended (Function.call_nil (J.call bound) hbody scope args m) (.refl m) hrun

/-- A function without a return of its own. It loops on the calls of one that returns out of a loop and
the blocks around. -/
private def looping : Function where
  name := "f"
  params := ["x"]
  body :=
    let x : Expr := .variable ⟨1, 0⟩ "x"
    let call : Expr := .call ⟨2, 0⟩ (.variable ⟨2, 0⟩ "g") []
    let returning : Stmt := .loop ⟨1, 0⟩ x (.block ⟨1, 0⟩ [.cond ⟨1, 0⟩ x (.return ⟨1, 0⟩ (some x)) none])
    [.function ⟨1, 0⟩ "g" [] [returning],
      .loop ⟨2, 0⟩ call (.block ⟨2, 0⟩ [.print ⟨2, 0⟩ call,
        .expression ⟨2, 0⟩ (.assign ⟨2, 0⟩ "x" (.literal ⟨2, 0⟩ (.bool false)))])]

theorem Interpreter.return_stops_at_call_looping :
    (∃ v m', call (Native.clockHost (.ofInt 0)) 9 ⟨0, .closure looping 0⟩ [.bool true] ⟨3, 0⟩ .initial =
        .ended (.ok v) m' ∧ m'.buffer.contents = "true\n" ∧ v = .nil) ∧
      ∀ v m', execute (Native.clockHost (.ofInt 0)) 9
        (.block ⟨1, 0⟩ (.declare ⟨1, 0⟩ "x" (some (.literal ⟨1, 0⟩ (.bool true))) :: looping.body))
        .initial ≠ .ended (.error (.return v)) m' := by
  have printed : (call (Native.clockHost (.ofInt 0)) 9 ⟨0, .closure looping 0⟩ [.bool true] ⟨3, 0⟩
      .initial).done?.map (·.2.buffer.contents) = some "true\n" := by decide +kernel
  refine ⟨?_, fun v m' => ?_⟩
  · obtain ⟨⟨v, m'⟩, hdone, hprinted⟩ := Option.map_eq_some_iff.mp printed
    have hrun := Outcome.eq_of_done? hdone
    refine ⟨v, m', hrun, hprinted, ?_⟩
    exact (return_stops_at_call _ 9 .initial m').2.2 0 looping 0 _ _ v (by decide) hrun
  · exact (return_stops_at_call _ 9 .initial m').1 _ v (by decide)

end Lox
