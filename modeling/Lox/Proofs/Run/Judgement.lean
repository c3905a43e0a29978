import Lox.Interpreter
import Lox.Proofs.Base.Conduct
import Lox.Proofs.Base.Induction
import Lox.Proofs.Base.Nodes

/-!
# The induction over the evaluator

A `Judgement` says of runs what errors and values they end with, and maybe more: which machines they lead
to, or that two runs go together. It names the syntax nodes, the function values and the frames that runs
have to do with, and has a rule for each way to combine runs and for each step. That is all the evaluator
is made of. So a judgement holds of every statement and expression, and of every call.
-/

namespace Lox

/-- What holds of doing nothing, and of binding a name to one of the values before what it holds of, holds
of binding parameters to arguments. -/
theorem Run.bindAll_induction {ε : Type} {f : FrameId} {names : List String} {vs : List Value}
    {P : Run ε Unit → Prop} (done : P (pure ()))
    (define : ∀ name, ∀ v ∈ vs, ∀ x, P x → P (Run.define f name v >>= fun _ => x)) :
    P (Run.bindAll f names vs) := by
  induction names generalizing vs with
  | nil => exact done
  | cons name names ih =>
    cases vs with
    | nil => exact done
    | cons v vs =>
      have hrest := ih fun name w hw => define name w (List.mem_cons_of_mem v hw)
      exact define name v (List.mem_cons_self) _ hrest

/-- A statement about runs that holds of all steps and is kept by all ways to combine runs. -/
structure Judgement (host : Host) where
  /-- If the run ends with an error, then with one in `E`; if with a value, then with one in `V`. -/
  holds {ε α : Type} (E : ε → Prop) (V : α → Prop) (x : Run ε α) : Prop
  nodes : Expr → Prop
  errors : RuntimeError → Prop
  functions : Callable → Prop
  frames : FrameId → Prop
  conduct : Conduct
  /- Combinations -/
  ofResult {ε α : Type} {E : ε → Prop} {V : α → Prop} {r : Except ε α} (h : Ends E V r) :
    holds E V (.ofResult r)
  exhausted {ε α : Type} {E : ε → Prop} {V : α → Prop} : holds E V (.exhausted : Run ε α)
  continueWith {ε ε' α β : Type} {E : ε → Prop} {E' : ε' → Prop} {V : α → Prop} {W : β → Prop}
    {x : Run ε α} {f : Except ε α → Run ε' β} (hx : holds E V x)
    (hf : ∀ r, Ends E V r → holds E' W (f r)) : holds E' W (x.continueWith f)
  inScope {ε α : Type} {E : ε → Prop} {V : α → Prop} {x : Run ε α} {f : FrameId} (hf : frames f)
    (hx : holds E V x) : holds E V (.inScope f x)
  /- Steps -/
  print {ε : Type} {E : ε → Prop} (text : String) : holds E (fun _ => True) (.print text)
  current {ε : Type} {E : ε → Prop} : holds E frames (.read (·.current))
  depth {ε : Type} {E : ε → Prop} :
    holds E (fun _ => True) (.read fun m => m.frames.depth m.current)
  place {ε : Type} {E : ε → Prop} {p : Place} (hp : conduct.reaches p) : holds E frames (.read p.frame)
  openScope {ε : Type} {E : ε → Prop} {f : FrameId} (hf : frames f) : holds E frames (.openScope f)
  define {ε : Type} {E : ε → Prop} {f : FrameId} (hf : frames f) (name : String) {v : Value}
    (hv : v.Only functions) : holds E (fun _ => True) (.define f name v)
  newCallable {ε : Type} {E : ε → Prop} {code : Code} (h : ∀ id, functions ⟨id, code⟩) :
    holds E functions (.newCallable code)
  lookupIn {f : FrameId} (hf : frames f) (name : String) :
    holds (· = .undefinedVariable name) (Value.Only functions) (.lookupIn f name)
  assignIn {f : FrameId} (hf : frames f) (name : String) {v : Value} (hv : v.Only functions) :
    holds (· = .undefinedVariable name) (fun _ => True) (.assignIn f name v)
  /- What runs have to do with -/
  raised {n : Expr} {f : Fault} (hn : nodes n) (hf : n.Raises f) : errors ⟨f, n.pos⟩
  failed {pos : Pos} {callee : Expr} {args : List Expr} {f : Fault} (hn : nodes (.call pos callee args))
    (hf : conduct.ends f) : errors ⟨f, pos⟩
  heard (f : Fault) : conduct.hears f
  executed {body : List Stmt} (h : conduct.runs body) : ∀ n ∈ Stmt.nodesOfList body, nodes n
  declared {fn : Function} {scope : FrameId} (hbody : ∀ n ∈ Stmt.nodesOfList fn.body, nodes n)
    (hscope : frames scope) (id : Nat) : functions ⟨id, .closure fn scope⟩
  captured {f : Callable} {fn : Function} {scope : FrameId} (hf : functions f)
    (hcode : f.code = .closure fn scope) : frames scope ∧ ∀ n ∈ Stmt.nodesOfList fn.body, nodes n
  native {f : Callable} {fn : Native} {args : List Value} (hf : functions f)
    (hcode : f.code = .native fn) (hargs : ∀ v ∈ args, v.Only functions) :
    (host fn args).Obeys conduct functions

namespace Judgement

variable {host : Host} (J : Judgement host) {ε ε' α β : Type} {E : ε → Prop} {E' : ε' → Prop}
  {V : α → Prop} {W : β → Prop}

/-! ## Derived rules -/

theorem pure {a : α} (h : V a) : J.holds E V (Pure.pure a) := J.ofResult (r := .ok a) h

theorem fail {e : ε} (h : E e) : J.holds E V (Run.fail e) := J.ofResult (r := .error e) h

theorem bind {x : Run ε α} {f : α → Run ε β} (hx : J.holds E V x)
    (hf : ∀ a, V a → J.holds E W (f a)) : J.holds E W (x >>= f) := by
  rw [Run.bind_eq_continueWith]
  refine J.continueWith hx ?_
  rintro (e | a) h
  · exact J.fail h
  · exact hf a h

theorem mapError {x : Run ε α} {f : ε → ε'} (hx : J.holds E V x) (hf : ∀ e, E e → E' (f e)) :
    J.holds E' V (x.mapError f) :=
  J.continueWith hx fun _ hr => J.ofResult (hr.mapError hf)

theorem mono {F : ε → Prop} {x : Run ε α} (hx : J.holds E V x) (hE : ∀ e, E e → F e) :
    J.holds F V x := by
  have hmap := J.mapError (f := id) hx hE
  have hid : x.mapError id = x := by
    funext m
    simp only [Run.mapError, Run.continueWith]
    rcases x m with ⟨_ | _, _⟩ | _ <;> rfl
  rwa [hid] at hmap

theorem within {E : RuntimeError → Prop} {R : Value → Prop} {x : Run RuntimeError α}
    (hx : J.holds E V x) : J.holds (Unwind.Meets E R) V x.within :=
  J.mapError hx fun _ h => h

theorem repeatWhile {round : Run ε Bool} (h : J.holds E (fun _ => True) round) (n : Nat) :
    J.holds E (fun _ => True) (Run.repeatWhile round n) := by
  induction n with
  | zero => exact J.exhausted
  | succ n ih =>
    rw [Run.repeatWhile_succ]
    refine J.bind h fun again _ => ?_
    split
    · exact ih
    · exact J.pure trivial

theorem lookup (name : String) :
    J.holds (· = .undefinedVariable name) (Value.Only J.functions) (Run.lookup name) :=
  J.bind J.current fun _ hf => J.lookupIn hf name

theorem assign (name : String) {v : Value} (hv : v.Only J.functions) :
    J.holds (· = .undefinedVariable name) (fun _ => True) (Run.assign name v) :=
  J.bind J.current fun _ hf => J.assignIn hf name hv

theorem defineHere (name : String) {v : Value} (hv : v.Only J.functions) :
    J.holds E (fun _ => True) (Run.defineHere name v) :=
  J.bind J.current fun _ hf => J.define hf name hv

theorem bindAll {f : FrameId} (hf : J.frames f) (names : List String) {vs : List Value}
    (hvs : ∀ v ∈ vs, v.Only J.functions) : J.holds E (fun _ => True) (Run.bindAll f names vs) :=
  Run.bindAll_induction (J.pure trivial) fun name v hv _ hx =>
    J.bind (J.define hf name (hvs v hv)) fun _ _ => hx

/-! ## The evaluator -/

abbrev ofValue (x : Run RuntimeError Value) : Prop := J.holds J.errors (Value.Only J.functions) x

/-- The judgement of a statement, which may also stop with a return. -/
abbrev ofUnwind (x : Run Unwind Unit) : Prop :=
  J.holds (Unwind.Meets J.errors (Value.Only J.functions)) (fun _ => True) x

/-- The judgement of a call at `site`, where a native function may have failed. -/
abbrev ofCall (site : Pos) (x : Run RuntimeError Value) : Prop :=
  J.holds (fun e => J.errors e ∨ ∃ f, J.conduct.ends f ∧ e = ⟨f, site⟩) (Value.Only J.functions) x

/-- The judgement holds of all calls of functions that it knows, on arguments that it knows. -/
def ofCalls (invoke : Callable → List Value → Pos → Run RuntimeError Value) : Prop :=
  ∀ f vs site, J.functions f → (∀ v ∈ vs, v.Only J.functions) → J.ofCall site (invoke f vs site)

variable {J}

/-- The fault of an operator gets the position of its node. -/
theorem raising {n : Expr} (hn : J.nodes n) {r : Except Fault Value}
    (hr : Ends n.Raises (Value.Only J.functions) r) : J.ofValue (Run.raising n.pos r) :=
  J.ofResult (hr.mapError fun _ hf => J.raised hn hf)

section evaluator

variable {ctx : Context}

theorem evalList {es : List Expr} (h : ∀ e ∈ es, J.ofValue (e.eval ctx)) :
    J.holds J.errors (fun vs => vs.length = es.length ∧ ∀ v ∈ vs, v.Only J.functions)
      (Expr.evalList ctx es) := by
  induction es with
  | nil => exact J.pure ⟨rfl, by simp⟩
  | cons e es ih =>
    rw [Expr.evalList]
    refine J.bind (h e (by simp)) fun v hv => ?_
    refine J.bind (ih fun e he => h e (by simp [he])) fun vs hvs => J.pure ⟨?_, ?_⟩
    · rw [List.length_cons, List.length_cons, hvs.1]
    · intro w hw
      rcases List.mem_cons.mp hw with rfl | hw
      · exact hv
      · exact hvs.2 w hw

theorem execList {E : Unwind → Prop} {ss : List Stmt}
    (h : ∀ s ∈ ss, J.holds E (fun _ => True) (s.exec ctx)) :
    J.holds E (fun _ => True) (Stmt.execList ctx ss) := by
  induction ss with
  | nil => exact J.pure trivial
  | cons s ss ih =>
    rw [Stmt.execList]
    exact J.bind (h s (by simp)) fun _ _ => ih fun s hs => h s (by simp [hs])

variable (hctx : J.ofCalls ctx.invoke)
include hctx

/-- Whatever goes wrong with a call, apart from what goes wrong inside, is the fault of its node. -/
theorem apply {pos : Pos} {e : Expr} {es : List Expr} (hn : J.nodes (.call pos e es))
    {callee : Value} {args : List Value} (hcallee : callee.Only J.functions)
    (hlength : args.length = es.length) (hargs : ∀ v ∈ args, v.Only J.functions) :
    J.ofValue (ctx.apply pos callee args) := by
  unfold Context.apply
  split
  · next f =>
    split
    · refine J.mono (hctx f args pos (hcallee f rfl) hargs) ?_
      rintro err (h | ⟨fault, hends, rfl⟩)
      · exact h
      · exact J.failed hn hends
    · next hne =>
      have hraises : (Expr.call pos e es).Raises (.arityMismatch f.arity args.length) :=
        ⟨hlength.symm, fun h => hne h.symm⟩
      exact J.fail (J.raised hn hraises)
  · have hraises : (Expr.call pos e es).Raises .notCallable := trivial
    exact J.fail (J.raised hn hraises)

theorem eval (e : Expr) (he : ∀ n ∈ e.nodes, J.nodes n) : J.ofValue (e.eval ctx) := by
  induction e with
  | literal pos x => exact J.pure (x.only_value _)
  | group pos e ih =>
    simp only [Expr.nodes, List.forall_mem_cons] at he
    exact ih he.2
  | unary pos op e ih =>
    simp only [Expr.nodes, List.forall_mem_cons] at he
    obtain ⟨hn, he⟩ := he
    refine J.bind (ih he) fun v _ => ?_
    exact raising hn (Value.ends_unary _ pos op e v)
  | binary pos op l r ihl ihr =>
    simp only [Expr.nodes, List.forall_mem_cons, List.forall_mem_append] at he
    obtain ⟨hn, hl, hr⟩ := he
    refine J.bind (ihl hl) fun v _ => J.bind (ihr hr) fun w _ => ?_
    exact raising hn (Value.ends_binary _ pos op l r v w)
  | logical pos op l r ihl ihr =>
    simp only [Expr.nodes, List.forall_mem_cons, List.forall_mem_append] at he
    obtain ⟨_, hl, hr⟩ := he
    rw [Expr.eval]
    refine J.bind (ihl hl) fun v hv => ?_
    split
    · exact J.pure hv
    · exact ihr hr
  | var pos name =>
    have hn : J.nodes (.variable pos name) := he _ (by simp [Expr.nodes])
    refine J.mapError (J.lookup name) ?_
    rintro f rfl
    exact J.raised hn rfl
  | assign pos name e ih =>
    simp only [Expr.nodes, List.forall_mem_cons] at he
    obtain ⟨hn, he⟩ := he
    refine J.bind (ih he) fun v hv => ?_
    refine J.bind (J.mapError (J.assign name hv) ?_) fun _ _ => J.pure hv
    rintro f rfl
    exact J.raised hn rfl
  | call pos callee args ihf ihargs =>
    simp only [Expr.nodes, List.forall_mem_cons, List.forall_mem_append] at he
    obtain ⟨hn, hf, hargs⟩ := he
    rw [Expr.eval]
    refine J.bind (ihf hf) fun f hv => ?_
    have hlist : ∀ a ∈ args, J.ofValue (a.eval ctx) := by
      intro a ha
      refine ihargs a ha fun n hmem => hargs n ?_
      exact Expr.mem_nodesOfList.mpr ⟨a, ha, hmem⟩
    exact J.bind (evalList hlist) fun vs hvs => apply hctx hn hv hvs.1 hvs.2

theorem evalOption (o : Option Expr) (ho : ∀ n ∈ Expr.nodesOfOption o, J.nodes n) :
    J.ofValue (Expr.evalOption ctx o) := by
  cases o with
  | none => exact J.pure Value.only_nil
  | some e => exact eval hctx e ho

theorem exec (s : Stmt) (hs : ∀ n ∈ s.nodes, J.nodes n) : J.ofUnwind (s.exec ctx) := by
  induction s with
  | expression pos e =>
    exact J.bind (J.within (eval hctx e hs)) fun _ _ => J.pure trivial
  | print pos e =>
    exact J.bind (J.within (eval hctx e hs)) fun v _ => J.print v.text
  | declare pos name initial =>
    exact J.bind (J.within (evalOption hctx initial hs)) fun v hv => J.defineHere name hv
  | block pos body ih =>
    rw [Stmt.exec]
    refine J.bind J.current fun c hc => J.bind (J.openScope hc) fun f hf => ?_
    refine J.inScope hf (execList fun s hmem => ih s hmem fun n hn => hs n ?_)
    exact Stmt.mem_nodesOfList.mpr ⟨s, hmem, hn⟩
  | cond pos test onTrue onFalse iht ihf =>
    simp only [Stmt.nodes, List.forall_mem_append] at hs
    obtain ⟨htest, ht, hf⟩ := hs
    rw [Stmt.exec]
    refine J.bind (J.within (eval hctx test htest)) fun v _ => ?_
    split
    · exact iht ht
    · cases onFalse with
      | none => exact J.pure trivial
      | some s => exact ihf s rfl hf
  | loop pos test body ih =>
    simp only [Stmt.nodes, List.forall_mem_append] at hs
    obtain ⟨htest, hbody⟩ := hs
    rw [Stmt.exec]
    refine J.repeatWhile (J.bind (J.within (eval hctx test htest)) fun v _ => ?_) _
    split
    · exact J.bind (ih hbody) fun _ _ => J.pure trivial
    · exact J.pure trivial
  | function pos name params body ih =>
    rw [Stmt.exec]
    refine J.bind J.current fun c hc => ?_
    have hf : ∀ id, J.functions ⟨id, .closure ⟨name, params, body⟩ c⟩ := J.declared hs hc
    exact J.bind (J.newCallable hf) fun f hf => J.defineHere name (Value.only_callable.mpr hf)
  | ret pos value =>
    exact J.bind (J.within (evalOption hctx value hs)) fun v hv => J.fail hv

theorem execAll (ss : List Stmt) (hss : ∀ n ∈ Stmt.nodesOfList ss, J.nodes n) :
    J.ofUnwind (Stmt.execList ctx ss) := by
  refine execList fun s hs => exec hctx s fun n hn => hss n ?_
  exact Stmt.mem_nodesOfList.mpr ⟨s, hs, hn⟩

/-! ## Calls -/

theorem callFunction {fn : Function} {scope : FrameId} (hscope : J.frames scope)
    (hbody : ∀ n ∈ Stmt.nodesOfList fn.body, J.nodes n) {args : List Value}
    (hargs : ∀ v ∈ args, v.Only J.functions) : J.ofValue (fn.call ctx scope args) := by
  refine J.bind (J.openScope hscope) fun frame hframe => ?_
  refine J.bind (J.bindAll hframe _ hargs) fun _ _ => ?_
  refine J.continueWith (J.inScope hframe (execAll hctx fn.body hbody)) ?_
  rintro (⟨e | v⟩ | _) h
  · exact J.fail h
  · exact J.pure h
  · exact J.pure Value.only_nil

theorem perform (site : Pos) (a : Action) (ha : a.Obeys J.conduct J.functions) :
    J.ofCall site (a.perform ctx site) := by
  -- All that is learnt are known functions, so there is never more to know.
  have learnt {a : Action} {r : Except Fault Value} (ha : a.Obeys J.conduct (learn J.functions r))
      (hr : Ends (fun _ => True) (Value.Only J.functions) r) : a.Obeys J.conduct J.functions :=
    ha.mono (learn_le (fun _ hf => hf) (fun _ hf => hf) hr)
  induction a with
  | finish r =>
    refine J.ofResult ?_
    cases r with
    | ok v => exact ha
    | error f => exact .inr ⟨f, ha, rfl⟩
  | print text next ih => exact J.bind (J.print text) fun _ _ => ih ha
  | depth next ih => exact J.bind J.depth fun n _ => ih n (ha n)
  | lookup name next ih =>
    refine J.continueWith (J.lookup name) fun r hr => ih r (learnt (ha r) ?_)
    exact hr.mono (fun _ _ => trivial) fun _ hv => hv
  | assign name v next ih =>
    exact J.continueWith (J.assign name ha.1) fun r _ => ih r (ha.2 r)
  | define place name v next ih =>
    obtain ⟨hplace, hv, hnext⟩ := ha
    exact J.bind (J.place hplace) fun f hf => J.bind (J.define hf name hv) fun _ _ => ih hnext
  | call f vs inner next ih =>
    obtain ⟨hf, hvs, _, hnext⟩ := ha
    refine J.continueWith (hctx f vs inner hf hvs) fun r hr => ih _ (learnt (hnext _ ?_) ?_)
    · exact (ends_true r).mapError fun e _ => J.heard e.fault
    · exact hr.mapError fun _ _ => trivial
  | execute place body next ih =>
    obtain ⟨hplace, hbody, hnext⟩ := ha
    refine J.bind (J.place hplace) fun f hf => ?_
    have hrun := J.inScope hf (execAll hctx body (J.executed hbody))
    refine J.continueWith hrun fun r hr => ih r ((hnext r).mono ?_)
    rintro g (hg | rfl)
    · exact hg
    · exact hr g rfl

end evaluator

theorem call (J : Judgement host) (bound : Nat) : J.ofCalls (Callable.call host bound) := by
  induction bound with
  | zero => exact fun _ _ _ _ _ => J.exhausted
  | succ bound ih =>
    intro f args site hf hargs
    rw [Callable.call]
    split
    · next fn scope hcode =>
      obtain ⟨hscope, hbody⟩ := J.captured hf hcode
      exact J.mono (callFunction ih hscope hbody hargs) fun _ he => .inl he
    · next fn hcode => exact perform ih site _ (J.native hf hcode hargs)

/-! ## The interpreter -/

section interpreter

variable (J : Judgement host) (bound : Nat)

theorem execute (s : Stmt) (hs : ∀ n ∈ s.nodes, J.nodes n) :
    J.ofUnwind (Interpreter.execute host bound s) := exec (J.call bound) s hs

theorem executeIn (body : List Stmt) (f : FrameId) (hf : J.frames f)
    (hbody : ∀ n ∈ Stmt.nodesOfList body, J.nodes n) :
    J.ofUnwind (Interpreter.executeIn host bound body f) :=
  J.inScope hf (execAll (J.call bound) body hbody)

theorem evaluate (e : Expr) (he : ∀ n ∈ e.nodes, J.nodes n) :
    J.ofValue (Interpreter.evaluate host bound e) := eval (J.call bound) e he

theorem interpret (p : Program) (hp : ∀ n ∈ Stmt.nodesOfList p, J.nodes n) :
    J.holds J.errors (fun _ => True) (Interpreter.interpret host bound p) := by
  have hbody : J.ofUnwind (Stmt.execList (.ofBound host bound) p) := execAll (J.call bound) p hp
  refine J.continueWith hbody ?_
  rintro (⟨e | v⟩ | _) h
  · exact J.fail h
  · exact J.pure trivial
  · exact J.pure trivial

theorem interpretAndReport (p : Program) (reports : Reports)
    (hp : ∀ n ∈ Stmt.nodesOfList p, J.nodes n) :
    J.holds E (fun _ => True) (Interpreter.interpretAndReport host bound p reports) := by
  refine J.continueWith (J.interpret bound p hp) ?_
  rintro (_ | _) _
  · exact J.pure trivial
  · exact J.pure trivial

theorem evaluateAndPrint (e : Expr) (he : ∀ n ∈ e.nodes, J.nodes n) :
    J.ofValue (Interpreter.evaluateAndPrint host bound e) :=
  J.bind (J.evaluate bound e he) fun v hv => J.bind (J.print v.text) fun _ _ => J.pure hv

theorem defineCallable {f : FrameId} (hf : J.frames f) (name : String) {code : Code}
    (hcode : ∀ id, J.functions ⟨id, code⟩) :
    J.holds E (Value.Only J.functions) (Interpreter.defineCallable f name code) := by
  refine J.bind (J.newCallable hcode) fun c hc => ?_
  have hv : (Value.callable c).Only J.functions := Value.only_callable.mpr hc
  exact J.bind (J.define hf name hv) fun _ _ => J.pure hv

theorem defineBuiltins {f : FrameId} (hf : J.frames f)
    (h : ∀ fn ∈ Interpreter.builtins, ∀ id, J.functions ⟨id, .native fn⟩) :
    J.holds E (fun _ => True) (Interpreter.defineBuiltins f) := by
  unfold Interpreter.defineBuiltins
  generalize Interpreter.builtins = fns at h ⊢
  induction fns with
  | nil => exact J.pure trivial
  | cons fn fns ih =>
    have hfirst := J.defineCallable (E := E) hf fn.name (h fn (.head fns))
    have hrest := ih fun g hg => h g (.tail fn hg)
    exact J.bind (V := fun _ => True) (J.bind hfirst fun _ _ => J.pure trivial) fun _ _ => hrest

end interpreter

end Judgement

end Lox
