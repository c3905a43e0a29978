import Lox.Interpreter
import Lox.Proofs.Base.Frames
import Lox.Proofs.Base.Induction
import Lox.Proofs.Run.Evolution
import Mathlib.Data.List.Sort

/-!
# Names stay in their scope

A run binds new names in two places only: in frames that it makes, and in the frame that it starts in.
In the latter it binds no other names than those that its code declares outside of blocks and function
bodies (`Stmt.declared`). Expressions and calls bind no names in the frames that there were before.

The proof fixes the names that each frame may come to bind (`P`), all names being free in the frames that
are yet to be made. While a run is in some frame, only its own declarations are to be in `P` there
(`Machine.Confined`). Blocks and calls move to a new frame, where nothing is asked.
-/

namespace Lox

/-! ## Declarations -/

mutual

/-- The names that a statement declares in the scope that it is run in. -/
def Stmt.declared : Stmt → List String
  | .declare _ name _ | .function _ name _ _ => [name]
  | .cond _ _ onTrue onFalse => onTrue.declared ++ Stmt.declaredOption onFalse
  | .loop _ _ body => body.declared
  | .expression _ _ | .print _ _ | .block _ _ | .return _ _ => []

def Stmt.declaredOption : Option Stmt → List String
  | some s => s.declared
  | none => []

end

/-- The native function binds no names, and neither does the code that it runs. -/
def Action.BindsNothing : Action → Prop
  | finish _ => True
  | print _ next => next.BindsNothing
  | depth next => ∀ n, (next n).BindsNothing
  | lookup _ next => ∀ r, (next r).BindsNothing
  | assign _ _ next => ∀ r, (next r).BindsNothing
  | define _ _ _ _ => False
  | call _ _ _ next => ∀ r, (next r).BindsNothing
  | execute _ body next => (∀ s ∈ body, s.declared = []) ∧ ∀ r, (next r).BindsNothing

/-! ## Runs in a frame -/

/-- Frames bind names in `P` only, and may bind all names if they are yet to be made. -/
structure Machine.Confined (P : FrameId → String → Prop) (c : FrameId) (m : Machine) : Prop where
  current : m.current = c
  names : ∀ f x, (m.frames.own? f x).isSome → P f x
  fresh : ∀ f x, m.frames.all.size ≤ f → P f x

/-- The run keeps to the names in `P` when it starts in the frame `c`. -/
abbrev Run.Confines {ε α : Type} (P : FrameId → String → Prop) (c : FrameId) (V : α → Prop)
    (x : Run ε α) : Prop :=
  x.Keeps (Machine.Confined P c) (fun _ => True) V

namespace Run.Confines

variable {ε α : Type} {P : FrameId → String → Prop} {c : FrameId} {V : α → Prop}

theorem print (text : String) : (Run.print text : Run ε Unit).Confines P c fun _ => True :=
  .update fun _ h => ⟨h.current, h.names, h.fresh⟩

theorem define {f : FrameId} {name : String} (hname : P f name) (value : Value) :
    (Run.define f name value : Run ε Unit).Confines P c fun _ => True := by
  refine .update fun m h => ⟨h.current, fun g x hx => ?_, by simpa using h.fresh⟩
  rw [Frames.own?_define] at hx
  split at hx
  · next heq => exact heq.1 ▸ heq.2.1 ▸ hname
  · exact h.names g x hx

theorem openScope (parent : FrameId) :
    (Run.openScope parent : Run ε FrameId).Confines P c fun f => ∀ x, P f x := by
  refine fun m h => ⟨⟨h.current, fun f x hx => ?_, fun f x hf => h.fresh f x ?_⟩, fun x => ?_⟩
  · exact h.names f x ((Frames.own?_openScope m.frames parent f x) ▸ hx)
  · have hsize := Frames.size_openScope m.frames parent
    exact Nat.le_trans (Nat.le_of_lt (Nat.lt_of_succ_le (hsize ▸ Nat.le_refl _))) hf
  · exact h.fresh _ x (Nat.le_refl _)

theorem newCallable (code : Code) :
    (Run.newCallable code : Run ε Callable).Confines P c fun _ => True :=
  fun _ h => ⟨⟨h.current, h.names, h.fresh⟩, trivial⟩

theorem lookupIn (f : FrameId) (name : String) :
    (Run.lookupIn f name).Confines P c fun _ => True := by
  intro m h
  simp only [Run.lookupIn]
  split <;> exact ⟨h, trivial⟩

theorem assignIn (f : FrameId) (name : String) (value : Value) :
    (Run.assignIn f name value).Confines P c fun _ => True := by
  intro m h
  simp only [Run.assignIn]
  split
  · next g howner =>
    have hname : P g name := h.names g name (Frames.own?_of_owner? howner)
    exact define (ε := Fault) hname value m h
  · exact ⟨h, trivial⟩

theorem current : (Run.read (·.current) : Run ε FrameId).Confines P c (· = c) :=
  .read fun _ h => h.current

theorem lookup (name : String) : (Run.lookup name).Confines P c fun _ => True :=
  .bind current fun f _ => lookupIn f name

theorem assign (name : String) (value : Value) :
    (Run.assign name value).Confines P c fun _ => True :=
  .bind current fun f _ => assignIn f name value

theorem defineHere {name : String} (hname : P c name) (value : Value) :
    (Run.defineHere name value : Run ε Unit).Confines P c fun _ => True := by
  refine .bind current fun f hf => ?_
  subst hf
  exact define hname value

theorem inScope {x : Run ε α} {f : FrameId} (hx : x.Confines P f V) :
    (Run.inScope f x).Confines P c V := by
  intro m h
  have hscope := hx { m with current := f } ⟨rfl, h.names, h.fresh⟩
  refine .inScope (hscope.mono fun r m' hr => ?_)
  exact ⟨⟨h.current, hr.1.names, hr.1.fresh⟩, hr.2⟩

theorem bindAll {f : FrameId} (hf : ∀ x, P f x) (names : List String) (vs : List Value) :
    (Run.bindAll f names vs : Run ε Unit).Confines P c fun _ => True :=
  Run.bindAll_induction (.pure trivial) fun name v _ _ hx => .bind (define (hf name) v) fun _ _ => hx

end Run.Confines

/-! ## The evaluator -/

/-- Calls keep to the names in `P`, whichever frame they are made in. -/
def ConfinedCalls (P : FrameId → String → Prop)
    (invoke : Callable → List Value → Pos → Run RuntimeError Value) : Prop :=
  ∀ f vs site c, (invoke f vs site).Confines P c fun _ => True

section evaluator

variable {ctx : Context} {P : FrameId → String → Prop} {c : FrameId}

theorem Expr.evalList_confines {es : List Expr}
    (h : ∀ e ∈ es, (e.eval ctx).Confines P c fun _ => True) :
    (Expr.evalList ctx es).Confines P c fun _ => True := by
  induction es with
  | nil => exact .pure trivial
  | cons e es ih =>
    rw [Expr.evalList]
    refine .bind (h e (by simp)) fun v _ => ?_
    exact .bind (ih fun e he => h e (by simp [he])) fun vs _ => .pure trivial

theorem Stmt.execList_confines_of_forall {ss : List Stmt}
    (h : ∀ s ∈ ss, (s.exec ctx).Confines P c fun _ => True) :
    (Stmt.execList ctx ss).Confines P c fun _ => True := by
  induction ss with
  | nil => exact .pure trivial
  | cons s ss ih =>
    rw [Stmt.execList]
    exact .bind (h s (by simp)) fun _ _ => ih fun s hs => h s (by simp [hs])

variable (hctx : ConfinedCalls P ctx.invoke)
include hctx

theorem Context.apply_confines (pos : Pos) (callee : Value) (args : List Value) :
    (ctx.apply pos callee args).Confines P c fun _ => True := by
  unfold Context.apply
  split
  · split
    · exact hctx _ _ _ c
    · exact .fail trivial
  · exact .fail trivial

theorem Expr.eval_confines (e : Expr) : (e.eval ctx).Confines P c fun _ => True := by
  induction e with
  | literal pos x => exact .pure trivial
  | group pos e ih => exact ih
  | unary pos op e ih => exact .bind ih fun v _ => .ofResult (ends_true _)
  | binary pos op l r ihl ihr =>
    exact .bind ihl fun v _ => .bind ihr fun w _ => .ofResult (ends_true _)
  | logical pos op l r ihl ihr =>
    rw [Expr.eval]
    refine .bind ihl fun v _ => ?_
    split
    · exact .pure trivial
    · exact ihr
  | var pos name =>
    exact .mapError (Run.Confines.lookup name) fun _ _ => trivial
  | assign pos name e ih =>
    refine .bind ih fun v _ => ?_
    exact .bind (.mapError (Run.Confines.assign name v) fun _ _ => trivial) fun _ _ => .pure trivial
  | call pos callee args ihf ihargs =>
    rw [Expr.eval]
    refine .bind ihf fun f _ => .bind (Expr.evalList_confines ihargs) fun vs _ => ?_
    exact Context.apply_confines hctx pos f vs

theorem Expr.evalOption_confines (o : Option Expr) :
    (Expr.evalOption ctx o).Confines P c fun _ => True := by
  cases o with
  | none => exact .pure trivial
  | some e => exact Expr.eval_confines hctx e

theorem Stmt.exec_confines (s : Stmt) (hs : ∀ x ∈ s.declared, P c x) :
    (s.exec ctx).Confines P c fun _ => True := by
  have eval (e : Expr) {c : FrameId} : (e.eval ctx).within.Confines P c fun _ => True :=
    .mapError (Expr.eval_confines hctx e) fun _ _ => trivial
  have evalOption (o : Option Expr) {c : FrameId} :
      (Expr.evalOption ctx o).within.Confines P c fun _ => True :=
    .mapError (Expr.evalOption_confines hctx o) fun _ _ => trivial
  induction s generalizing c with
  | expression pos e => exact .bind (eval e) fun _ _ => .pure trivial
  | print pos e => exact .bind (eval e) fun v _ => Run.Confines.print v.text
  | declare pos name initial =>
    have hname : P c name := hs name (by simp [Stmt.declared])
    exact .bind (evalOption initial) fun v _ => Run.Confines.defineHere hname v
  | block pos body ih =>
    rw [Stmt.exec]
    refine .bind Run.Confines.current fun f _ => .bind (Run.Confines.openScope f) fun g hg => ?_
    refine Run.Confines.inScope ?_
    exact Stmt.execList_confines_of_forall fun s hmem => ih s hmem fun x _ => hg x
  | cond pos test onTrue onFalse iht ihf =>
    simp only [Stmt.declared, List.forall_mem_append] at hs
    rw [Stmt.exec]
    refine .bind (eval test) fun v _ => ?_
    split
    · exact iht hs.1
    · cases onFalse with
      | none => exact .pure trivial
      | some s => exact ihf s rfl hs.2
  | loop pos test body ih =>
    rw [Stmt.exec]
    refine .repeatWhile (.bind (eval test) fun v _ => ?_) _
    split
    · exact .bind (ih hs) fun _ _ => .pure trivial
    · exact .pure trivial
  | function pos name params body ih =>
    rw [Stmt.exec]
    have hname : P c name := hs name (by simp [Stmt.declared])
    refine .bind Run.Confines.current fun f _ => .bind (Run.Confines.newCallable _) fun g _ => ?_
    exact Run.Confines.defineHere hname _
  | ret pos value => exact .bind (evalOption value) fun v _ => .fail trivial

theorem Function.call_confines (fn : Function) (scope : FrameId) (args : List Value) :
    (fn.call ctx scope args).Confines P c fun _ => True := by
  refine .bind (Run.Confines.openScope scope) fun frame hframe => ?_
  refine .bind (Run.Confines.bindAll hframe fn.params args) fun _ _ => ?_
  have hbody : (Stmt.execList ctx fn.body).Confines P frame fun _ => True :=
    Stmt.execList_confines_of_forall fun s _ => Stmt.exec_confines hctx s fun x _ => hframe x
  refine .continueWith (Run.Confines.inScope hbody) ?_
  rintro (⟨e | v⟩ | _) _
  · exact .fail trivial
  · exact .pure trivial
  · exact .pure trivial

theorem Action.perform_confines (site : Pos) (a : Action) (ha : a.BindsNothing) :
    (a.perform ctx site).Confines P c fun _ => True := by
  induction a with
  | finish r => exact .ofResult (ends_true _)
  | print text next ih => exact .bind (Run.Confines.print text) fun _ _ => ih ha
  | depth next ih => exact .bind (V := fun _ => True) (.read fun _ _ => trivial) fun n _ => ih n (ha n)
  | lookup name next ih =>
    exact .continueWith (Run.Confines.lookup name) fun r _ => ih r (ha r)
  | assign name v next ih =>
    exact .continueWith (Run.Confines.assign name v) fun r _ => ih r (ha r)
  | define place name v next ih => exact ha.elim
  | call f vs inner next ih => exact .continueWith (hctx f vs inner c) fun r _ => ih _ (ha _)
  | execute place body next ih =>
    refine .bind (V := fun _ => True) (.read fun _ _ => trivial) fun f _ => ?_
    have hbody : (Stmt.execList ctx body).Confines P f fun _ => True :=
      Stmt.execList_confines_of_forall fun s hs => Stmt.exec_confines hctx s (by simp [ha.1 s hs])
    exact .continueWith (Run.Confines.inScope hbody) fun r _ => ih r (ha.2 r)

end evaluator

theorem Callable.call_confines {host : Host} (natives : ∀ fn args, (host fn args).BindsNothing)
    (P : FrameId → String → Prop) (bound : Nat) : ConfinedCalls P (Callable.call host bound) := by
  induction bound with
  | zero => exact fun _ _ _ _ => .exhausted
  | succ bound ih =>
    intro f args site c
    rw [Callable.call]
    split
    · next fn scope _ => exact Function.call_confines ih fn scope args
    · next fn _ => exact Action.perform_confines ih site _ (natives fn args)

/-! ## Names before and after -/

theorem Bindings.pairwise_names {α : Type} (b : Bindings α) : b.names.Pairwise (· < ·) :=
  List.pairwise_map.mpr b.sorted

theorem Frames.pairwise_names (s : Frames) (f : FrameId) : (s.names f).Pairwise (· < ·) := by
  unfold Frames.names
  cases s.all[f]? with
  | none => exact .nil
  | some frame => exact frame.bindings.pairwise_names

/-- The frames of `m` keep their names, and get no others but maybe some of `new` in the current one. -/
def Machine.Gains (m : Machine) (new : List String) (m' : Machine) : Prop :=
  ∀ f < m.frames.all.size, m.frames.names f ⊆ m'.frames.names f ∧
    ∀ x ∈ m'.frames.names f, x ∈ m.frames.names f ∨ f = m.current ∧ x ∈ new

section gains

variable {m m' : Machine} {new : List String} {f : FrameId}

/-- As names are in order, a frame that gets none has the same list of them. -/
theorem Machine.Gains.names_eq (h : m.Gains new m') (hf : f < m.frames.all.size)
    (hnew : f = m.current → new = []) : m'.frames.names f = m.frames.names f := by
  have hsub : m'.frames.names f ⊆ m.frames.names f := by
    intro x hx
    rcases (h f hf).2 x hx with hx | ⟨hcurrent, hx⟩
    · exact hx
    · simp [hnew hcurrent] at hx
  exact List.Subset.antisymm_of_pairwise (Frames.pairwise_names _ f) (Frames.pairwise_names _ f) hsub
    (h f hf).1

theorem Machine.Gains.names_current (h : m.Gains new m') (hf : m.current < m.frames.all.size) :
    m.frames.names m.current ⊆ m'.frames.names m.current ∧
      m'.frames.names m.current ⊆ m.frames.names m.current ++ new := by
  refine ⟨(h _ hf).1, fun x hx => ?_⟩
  rcases (h _ hf).2 x hx with hx | ⟨-, hx⟩
  · exact List.mem_append_left _ hx
  · exact List.mem_append_right _ hx

/-- The names that each frame has, the names `new` in the current one, and all names elsewhere. -/
def Machine.room (m : Machine) (new : List String) (f : FrameId) (x : String) : Prop :=
  f < m.frames.all.size → x ∈ m.frames.names f ∨ f = m.current ∧ x ∈ new

theorem Run.Confines.gains {ε α : Type} {x : Run ε α} {r : Except ε α} {E : ε → Prop} {V W : α → Prop}
    (hx : x.Confines (m.room new) m.current V) (hevolving : x.Evolving E W)
    (h : x m = .ended r m') : m.Gains new m' := by
  have hstart : m.Confined (m.room new) m.current := {
    current := rfl
    names := fun f x hx _ => .inl (Frames.mem_names.mpr hx)
    fresh := fun f x hf hlt => absurd hlt (Nat.not_lt_of_le hf) }
  have hend := hx m hstart
  have hevolves := hevolving.all m
  rw [h] at hend hevolves
  intro f hf
  refine ⟨fun name hname => ?_, fun name hname => ?_⟩
  · exact Frames.mem_names.mpr (hevolves.grows.names f name (Frames.mem_names.mp hname))
  · exact hend.1.names f name (Frames.mem_names.mp hname) hf

end gains

/-! ## Names and scopes -/

/-- **No name leaks out of a scope.** Let the native functions bind no names. A statement may bind names
that it declares outside of blocks and function bodies in the current frame. Apart from these, all frames
that there were keep exactly the names that they had, however the statement ends. Expressions, and calls
of declared functions with whatever arguments, leave the names of all these frames as they were. -/
theorem Interpreter.names_stay_in_scope (host : Host)
    (natives : ∀ fn args, (host fn args).BindsNothing) (bound : Nat) (m m' : Machine) :
    (∀ s r, execute host bound s m = .ended r m' →
        (∀ f < m.frames.all.size, f ≠ m.current → m'.frames.names f = m.frames.names f) ∧
        (m.current < m.frames.all.size → m.frames.names m.current ⊆ m'.frames.names m.current ∧
          m'.frames.names m.current ⊆ m.frames.names m.current ++ s.declared)) ∧
      (∀ e r, evaluate host bound e m = .ended r m' →
        ∀ f < m.frames.all.size, m'.frames.names f = m.frames.names f) ∧
      ∀ id fn scope args site r, call host bound ⟨id, .closure fn scope⟩ args site m = .ended r m' →
        ∀ f < m.frames.all.size, m'.frames.names f = m.frames.names f := by
  let J := Judgement.evolving host
  have calls (P) := Callable.call_confines natives P bound
  refine ⟨fun s r h => ?_, fun e r h f hf => ?_, fun id fn scope args site r h f hf => ?_⟩
  · have hroom : ∀ x ∈ s.declared, m.room s.declared m.current x := fun x hx _ => .inr ⟨rfl, hx⟩
    have hgains : m.Gains s.declared m' :=
      (Stmt.exec_confines (calls _) s hroom).gains (J.execute bound s fun _ _ => trivial) h
    exact ⟨fun f hf hne => hgains.names_eq hf fun heq => absurd heq hne, hgains.names_current⟩
  · have hgains : m.Gains [] m' :=
      (Expr.eval_confines (calls _) e).gains (J.evaluate bound e fun _ _ => trivial) h
    exact hgains.names_eq hf fun _ => rfl
  · have hgains : m.Gains [] m' := Run.Confines.gains (calls _ _ args site _)
      (J.call bound _ args site trivial fun _ _ _ _ => trivial) h
    exact hgains.names_eq hf fun _ => rfl

/-- The native functions of this host call their argument, assign to `n`, and run a block. -/
private def borrowing : Host := fun _ args =>
  match args with
  | [.callable f] => .call f [] ⟨9, 0⟩ fun _ => .assign "n" (.string "native") fun _ =>
      .execute .current [.block ⟨9, 0⟩ [.declare ⟨9, 0⟩ "m" none]] fun _ => .value .nil
  | _ => .value .nil

/-- A frame inside the globals, which bind `n`, a native function, and a function with names of its
own. -/
private def nested : Machine :=
  let text (s : String) : Expr := .literal ⟨1, 0⟩ (.string s)
  let body : List Stmt := [.expression ⟨1, 0⟩ (.assign ⟨1, 0⟩ "n" (text "function")),
    .declare ⟨1, 0⟩ "n" (some (text "own")), .function ⟨1, 0⟩ "g" [] []]
  let globals := ((Frames.initial.define 0 "n" (.string "start")).define 0 "f"
    (.callable ⟨0, .closure ⟨"f", [], body⟩ 0⟩)).define 0 "native" (.callable ⟨1, .native ⟨"native", 1⟩⟩)
  { Machine.initial with frames := (globals.openScope 0).2, current := 1, nextId := 2 }

/-- A conditional with a declaration on each side, of which only the first is run. -/
private def declaringOnce : Stmt :=
  let call : Expr := .call ⟨2, 0⟩ (.variable ⟨2, 0⟩ "native") [.variable ⟨2, 0⟩ "f"]
  .cond ⟨2, 0⟩ (.literal ⟨2, 0⟩ (.bool true)) (.declare ⟨2, 0⟩ "x" (some call))
    (some (.function ⟨2, 0⟩ "y" [] []))

theorem Interpreter.names_stay_in_scope_branch :
    ∃ m', execute borrowing 9 declaringOnce nested = .ended (.ok ()) m' ∧
      m'.frames.names 1 = ["x"] ∧ m'.frames.names 1 ⊆ nested.frames.names 1 ++ ["x", "y"] ∧
      m'.frames.names 0 = nested.frames.names 0 := by
  have natives : ∀ fn args, (borrowing fn args).BindsNothing := by
    intro fn args
    unfold borrowing
    split
    · exact fun _ _ => ⟨by simp [Stmt.declared], fun _ => trivial⟩
    · trivial
  have declared : (execute borrowing 9 declaringOnce nested).done?.map (·.2.frames.names 1) =
      some ["x"] := by decide +kernel
  obtain ⟨⟨_, m'⟩, hdone, hnames⟩ := Option.map_eq_some_iff.mp declared
  have hrun := Outcome.eq_of_done? hdone
  obtain ⟨hothers, hcurrent⟩ := (names_stay_in_scope borrowing natives 9 nested m').1 _ _ hrun
  exact ⟨m', hrun, hnames, (hcurrent (by decide)).2, hothers 0 (by decide) (by decide)⟩

end Lox
