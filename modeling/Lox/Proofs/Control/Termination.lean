import Lox.Proofs.Base.Nodes
import Lox.Proofs.Control.Cost
import Lox.Proofs.Output.Append
import Lox.Proofs.Run.Evolution

/-!
# Only loops and calls can diverge

A program comes to an end if all its loops and calls stand in the bodies of functions that it declares. These
bodies are not run then, and neither are the functions that the machine has.

Every other statement is run at most once. So the statements outside of function bodies count what is printed
and how many frames are made (`Stmt.exec_costs`): a `print` statement prints one text, a block makes one frame,
and nothing else does either. The evaluator needs no bound for any of this, so the induction is on syntax trees
alone.
-/

namespace Lox

/-! ## Outside of function bodies -/

mutual

/-- The statement itself and those in it, but for the bodies of the functions that it declares. -/
def Stmt.outer : Stmt → List Stmt
  | .expression pos e => [.expression pos e]
  | .print pos e => [.print pos e]
  | .declare pos name initial => [.declare pos name initial]
  | .block pos body => .block pos body :: Stmt.outerOfList body
  | .cond pos test onTrue onFalse =>
    .cond pos test onTrue onFalse :: (onTrue.outer ++ Stmt.outerOfOption onFalse)
  | .loop pos test body => .loop pos test body :: body.outer
  | .function pos name params body => [.function pos name params body]
  | .return pos value => [.return pos value]

def Stmt.outerOfList : List Stmt → List Stmt
  | [] => []
  | s :: ss => s.outer ++ Stmt.outerOfList ss

def Stmt.outerOfOption : Option Stmt → List Stmt
  | some s => s.outer
  | none => []

end

theorem Stmt.mem_outer_self (s : Stmt) : s ∈ s.outer := by cases s <;> simp [outer]

theorem Stmt.mem_outerOfList {t : Stmt} {ss : List Stmt} :
    t ∈ Stmt.outerOfList ss ↔ ∃ s ∈ ss, t ∈ s.outer := by
  induction ss with
  | nil => simp [outerOfList]
  | cons s ss ih => simp [outerOfList, ih]

/-- The expressions right below a statement. -/
def Stmt.exprs : Stmt → List Expr
  | .expression _ e | .print _ e | .cond _ e _ _ | .loop _ e _ => [e]
  | .declare _ _ e | .return _ e => e.toList
  | .block _ _ | .function _ _ _ _ => []

def Stmt.isPrint : Stmt → Bool
  | .print _ _ => true
  | _ => false

def Stmt.isBlock : Stmt → Bool
  | .block _ _ => true
  | _ => false

def Stmt.isLoop : Stmt → Bool
  | .loop _ _ _ => true
  | _ => false

def Expr.isCall : Expr → Bool
  | .call _ _ _ => true
  | _ => false

def Expr.CallFree (e : Expr) : Prop := ∀ n ∈ e.nodes, n.isCall = false

/-- The statement is no loop, and there is no call in the expressions right below it. -/
def Stmt.Straight (s : Stmt) : Prop := s.isLoop = false ∧ ∀ e ∈ s.exprs, e.CallFree

instance : DecidablePred Expr.CallFree :=
  fun e => inferInstanceAs (Decidable (∀ n ∈ e.nodes, n.isCall = false))

instance : DecidablePred Stmt.Straight :=
  fun s => inferInstanceAs (Decidable (s.isLoop = false ∧ ∀ e ∈ s.exprs, e.CallFree))

/-! ## The evaluator -/

section evaluator

variable (ctx : Context) (calls : Callable → List Value → Pos → Printout)

theorem Expr.eval_costs {e : Expr} (he : e.CallFree) : (e.eval ctx).Costs (e.prints ctx calls) 0 0 := by
  unfold CallFree at he
  induction e with
  | literal pos x => exact .pure x.value
  | group pos e ih =>
    simp only [Expr.nodes, List.forall_mem_cons] at he
    exact ih he.2
  | unary pos op e ih =>
    simp only [Expr.nodes, List.forall_mem_cons] at he
    exact .bind_nothing (ih he.2) fun v => .ofResult _
  | binary pos op l r ihl ihr =>
    simp only [Expr.nodes, List.forall_mem_cons, List.forall_mem_append] at he
    obtain ⟨_, hl, hr⟩ := he
    exact .bind (ihl hl) fun v => .bind_nothing (ihr hr) fun w => .ofResult _
  | logical pos op l r ihl ihr =>
    simp only [Expr.nodes, List.forall_mem_cons, List.forall_mem_append] at he
    obtain ⟨_, hl, hr⟩ := he
    have hrest (v : Value) : (if op.stopsAt v then pure v else r.eval ctx).Costs
        (if op.stopsAt v then .nothing else r.prints ctx calls) 0 0 := by
      split
      · exact .pure v
      · exact ihr hr
    exact .bind (ihl hl) hrest
  | var pos name => exact .mapError (.lookup name) _
  | assign pos name e ih =>
    simp only [Expr.nodes, List.forall_mem_cons] at he
    exact .bind_nothing (ih he.2) fun v => .bind_nothing (.mapError (.assign name v) _) fun _ => .pure v
  | call pos callee args => simp [Expr.nodes, isCall] at he

theorem Expr.evalOption_costs {o : Option Expr} (ho : ∀ e ∈ o.toList, e.CallFree) :
    (Expr.evalOption ctx o).Costs (Expr.printsOption ctx calls o) 0 0 := by
  cases o with
  | none => exact .pure Value.nil
  | some e => exact Expr.eval_costs ctx calls (ho e (.head _))

theorem Stmt.execList_costs_of_forall {ss : List Stmt}
    (h : ∀ s ∈ ss, (s.exec ctx).Costs (s.prints ctx calls) (s.outer.countP isPrint) (s.outer.countP isBlock)) :
    (Stmt.execList ctx ss).Costs (Stmt.printsList ctx calls ss) ((Stmt.outerOfList ss).countP isPrint)
      ((Stmt.outerOfList ss).countP isBlock) := by
  induction ss with
  | nil => exact .pure ()
  | cons s ss ih =>
    obtain ⟨hs, hss⟩ := List.forall_mem_cons.mp h
    rw [Stmt.execList, Stmt.printsList, Stmt.outerOfList, List.countP_append, List.countP_append]
    exact .bind hs fun _ => ih hss

/-- A statement costs at most what the statements outside of function bodies count for, as if all of them were
run. -/
theorem Stmt.exec_costs {s : Stmt} (hs : ∀ t ∈ s.outer, t.Straight) :
    (s.exec ctx).Costs (s.prints ctx calls) (s.outer.countP isPrint) (s.outer.countP isBlock) := by
  have within {e : Expr} (he : e.CallFree) : ((e.eval ctx).within).Costs (e.prints ctx calls) 0 0 :=
    .mapError (e.eval_costs ctx calls he) _
  have withinOption {o : Option Expr} (ho : ∀ e ∈ o.toList, e.CallFree) :
      ((Expr.evalOption ctx o).within).Costs (Expr.printsOption ctx calls o) 0 0 :=
    .mapError (Expr.evalOption_costs ctx calls ho) _
  induction s with
  | expression pos e =>
    obtain ⟨_, hexprs⟩ := hs _ (mem_outer_self _)
    exact .bind_nothing (within (hexprs e (.head _))) fun _ => .pure ()
  | print pos e =>
    obtain ⟨_, hexprs⟩ := hs _ (mem_outer_self _)
    exact .bind (within (hexprs e (.head _))) fun v => .print v.text
  | declare pos name initial =>
    obtain ⟨_, hexprs⟩ := hs _ (mem_outer_self _)
    exact .bind_nothing (withinOption hexprs) fun v => .defineHere name v
  | block pos body ih =>
    rw [outer, List.forall_mem_cons] at hs
    have hbody : (Stmt.execList ctx body).Costs (Stmt.printsList ctx calls body)
        ((Stmt.outerOfList body).countP isPrint) ((Stmt.outerOfList body).countP isBlock) :=
      execList_costs_of_forall ctx calls fun s hmem =>
        ih s hmem fun t ht => hs.2 t (mem_outerOfList.mpr ⟨s, hmem, ht⟩)
    rw [Stmt.exec, Stmt.prints, outer]
    refine .mono (.bind (.read _) fun parent => .bind (.openScope parent) fun f => .inScope hbody f) ?_ ?_
    · simp [isPrint]
    · simp [List.countP_cons, isBlock, Nat.add_comm]
  | cond pos test onTrue onFalse iht ihf =>
    rw [outer, List.forall_mem_cons, List.forall_mem_append] at hs
    obtain ⟨⟨_, hexprs⟩, ht, hf⟩ := hs
    -- One branch is run, but both are counted.
    have hbranch (v : Value) :
        (if v.isTruthy then onTrue.exec ctx else Stmt.execOption ctx onFalse).Costs
          (if v.isTruthy then onTrue.prints ctx calls else Stmt.printsOption ctx calls onFalse)
          ((onTrue.outer ++ Stmt.outerOfOption onFalse).countP isPrint)
          ((onTrue.outer ++ Stmt.outerOfOption onFalse).countP isBlock) := by
      rw [List.countP_append, List.countP_append]
      split
      · exact (iht ht).mono (Nat.le_add_right _ _) (Nat.le_add_right _ _)
      · cases onFalse with
        | none => exact (Run.Costs.pure ()).mono (Nat.zero_le _) (Nat.zero_le _)
        | some s => exact (ihf s rfl hf).mono (Nat.le_add_left _ _) (Nat.le_add_left _ _)
    rw [Stmt.exec, Stmt.prints, outer]
    refine .mono (.bind (within (hexprs test (.head _))) hbranch) ?_ ?_
    · simp [isPrint]
    · simp [isBlock]
  | loop pos test body =>
    obtain ⟨hloop, _⟩ := hs _ (mem_outer_self _)
    cases hloop
  | function pos name params body =>
    refine .bind_nothing (.read _) fun scope => .bind_nothing (.newCallable _) fun f => ?_
    exact .defineHere name (.callable f)
  | ret pos value =>
    obtain ⟨_, hexprs⟩ := hs _ (mem_outer_self _)
    exact .bind_nothing (withinOption hexprs) fun v => .fail _

theorem Stmt.execList_costs {ss : List Stmt} (hss : ∀ t ∈ Stmt.outerOfList ss, t.Straight) :
    (Stmt.execList ctx ss).Costs (Stmt.printsList ctx calls ss) ((Stmt.outerOfList ss).countP isPrint)
      ((Stmt.outerOfList ss).countP isBlock) :=
  execList_costs_of_forall ctx calls fun s hs =>
    s.exec_costs ctx calls fun t ht => hss t (mem_outerOfList.mpr ⟨s, hs, ht⟩)

end evaluator

/-! ## Programs -/

namespace Interpreter

theorem interpret_of_execList {host : Host} {bound : Nat} {p : Program} {m m' : Machine}
    {r : Except Unwind Unit} (h : Stmt.execList (.ofBound host bound) p m = .ended r m') :
    ∃ r', interpret host bound p m = .ended r' m' := by
  simp only [interpret, Run.continueWith, h]
  rcases r with (⟨e | v⟩ | _) <;> exact ⟨_, rfl⟩

/-- **Only loops and calls can diverge.** A program that has no loops and no calls outside of the bodies of
functions that it declares ends, with an error or without, on any machine and whatever functions the machine
has. No bound is too small for it. It prints at most as many texts as it has `print` statements outside of these
bodies, and to the frames that there are it adds at most as many as it has blocks there. -/
theorem straight_program_ends (host : Host) (bound : Nat) (p : Program)
    (hp : ∀ s ∈ Stmt.outerOfList p, s.Straight) (m : Machine) :
    let texts := Stmt.printsList (.ofBound host bound) (Callable.prints host bound) p m
    ∃ r m', interpret host bound p m = .ended r m' ∧
      m'.buffer = m.output.printAll texts m.buffer ∧
      texts.length ≤ (Stmt.outerOfList p).countP Stmt.isPrint ∧
      m.frames.Grows m'.frames ∧
      m'.frames.all.size ≤ m.frames.all.size + (Stmt.outerOfList p).countP Stmt.isBlock := by
  intro texts
  obtain ⟨htexts, r₀, m', hexec, hsize⟩ := Stmt.execList_costs (.ofBound host bound)
    (Callable.prints host bound) hp m
  obtain ⟨r, hrun⟩ := interpret_of_execList hexec
  have hbuffer : m'.buffer = m.output.printAll texts m.buffer :=
    ((Stmt.execList_writes (Callable.call_writes host bound) p).leaves hexec).2
  have hevolves : m.Evolves m' :=
    Run.Evolving.final? ((Judgement.evolving host).interpret bound p fun _ _ => trivial) (by rw [hrun]; rfl)
  exact ⟨r, m', hrun, hbuffer, htexts, hevolves.grows, hsize⟩

/-- A program that declares a function whose calls never end, and then fails in a block. -/
private def spinning : Program :=
  let x : Expr := .variable ⟨3, 0⟩ "x"
  let spin : Expr := .variable ⟨1, 0⟩ "spin"
  [.function ⟨1, 0⟩ "spin" [] [
      .loop ⟨1, 0⟩ (.literal ⟨1, 0⟩ (.bool true)) (.block ⟨1, 0⟩ [.print ⟨1, 0⟩ (.call ⟨1, 0⟩ spin [])])],
    .print ⟨2, 0⟩ (.literal ⟨2, 0⟩ (.string "a")),
    .block ⟨3, 0⟩ [
      .declare ⟨3, 0⟩ "x" (some (.logical ⟨3, 0⟩ .or (.variable ⟨3, 0⟩ "f") spin)),
      .cond ⟨4, 0⟩ x (.block ⟨4, 0⟩ [.print ⟨4, 0⟩ x]) (some (.block ⟨4, 0⟩ [.print ⟨4, 0⟩ spin])),
      .print ⟨5, 0⟩ (.unary ⟨5, 0⟩ .negate x)]]

/-- A machine with a function whose calls never end. -/
private def spinningMachine : Machine :=
  let f : Function := ⟨"f", [], [.loop ⟨1, 0⟩ (.literal ⟨1, 0⟩ (.bool true)) (.block ⟨1, 0⟩ [])]⟩
  { Machine.initial with
    frames := Frames.initial.define 0 "f" (.callable ⟨0, .closure f 0⟩)
    nextId := 1 }

theorem straight_program_ends_spinning :
    (∀ s ∈ Stmt.outerOfList spinning, s.Straight) ∧
      ∃ r m', interpret (Native.clockHost (.ofInt 0)) 0 spinning spinningMachine = .ended r m' ∧
        m'.buffer.contents = "a\n<fn f>\n" ∧ m'.frames.all.size ≤ 1 + 3 := by
  have hp : ∀ s ∈ Stmt.outerOfList spinning, s.Straight := by decide
  obtain ⟨r, m', hrun, hbuffer, -, -, hsize⟩ :=
    straight_program_ends (Native.clockHost (.ofInt 0)) 0 spinning hp spinningMachine
  refine ⟨hp, r, m', hrun, ?_, hsize⟩
  rw [hbuffer]
  decide +kernel

end Interpreter

end Lox
