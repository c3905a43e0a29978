import Lox.Proofs.Run.Host

/-!
# Invariants that grow

A frame or a function value that a run meets is known by what was made before it, and there is more of
that after each step. So what is known of frames and function values is indexed by a *world*, and a run
leads from a machine in one world to a machine in a later one. What is known in a world is known in all
later ones.

An `Invariant` is shown for the steps of runs: opening a scope, binding a name, finding one, printing,
and numbering function values. From that it follows here, once, for statements, expressions and calls, and
for all that a host can do, with what it is given (`Invariant.answers`).
-/

namespace Lox

/-- What is known of machines, of frames and of function values, and is kept by each step. -/
structure Invariant (host : Host) where
  /-- What is known at some point. -/
  World : Type
  /-- More is known in the second world than in the first. -/
  later : World → World → Prop
  machines : World → Machine → Prop
  frames : World → FrameId → Prop
  functions : World → Callable → Prop
  refl : ∀ w, later w w
  trans : ∀ {w w' w''}, later w w' → later w' w'' → later w w''
  frames_later : ∀ {w w' f}, later w w' → frames w f → frames w' f
  functions_later : ∀ {w w' f}, later w w' → functions w f → functions w' f
  /- Steps -/
  within : ∀ {w m f}, machines w m → frames w f → machines w { m with current := f }
  print : ∀ {w m}, machines w m → ∀ text,
    machines w { m with buffer := m.output.println text m.buffer }
  openScope : ∀ {w m f}, machines w m → frames w f →
    ∃ w', later w w' ∧ machines w' { m with frames := (m.frames.openScope f).2 } ∧
      frames w' m.frames.all.size
  define : ∀ {w m f v}, machines w m → frames w f → v.Only (functions w) → ∀ name,
    machines w { m with frames := m.frames.define f name v }
  newCallable : ∀ {w m code}, machines w m → (∀ fn scope, code = .closure fn scope → frames w scope) →
    ∃ w', later w w' ∧ machines w' { m with nextId := m.nextId + 1 } ∧ functions w' ⟨m.nextId, code⟩
  place : ∀ {w m}, machines w m → ∀ p : Place, frames w (p.frame m)
  owner : ∀ {w m f g name}, machines w m → frames w f → m.frames.owner? f name = some g → frames w g
  value : ∀ {w m f name v}, machines w m → frames w f → m.frames.own? f name = some v →
    v.Only (functions w)
  captured : ∀ {w f fn scope}, functions w f → f.code = .closure fn scope → frames w scope
  native : ∀ {w f fn args}, functions w f → f.code = .native fn → (∀ v ∈ args, v.Only (functions w)) →
    (host fn args).Obeys .any (functions w)

namespace Invariant

variable {host : Host} {I : Invariant host} {ε ε' α β : Type} {w w' : I.World}

variable (I) in
/-- From a machine in the world `w` the run leads to one in a later world. What is known there of its
errors is `E`, and of its values `V`. -/
def Keeps (w : I.World) (E : I.World → ε → Prop) (V : I.World → α → Prop) (x : Run ε α) : Prop :=
  ∀ m, I.machines w m →
    (x m).All fun r m' => ∃ w', I.later w w' ∧ I.machines w' m' ∧ Ends (E w') (V w') r

variable (I) in
abbrev Values (w : I.World) : Value → Prop := Value.Only (I.functions w)

variable (I) in
abbrev Unwinds (w : I.World) : Unwind → Prop := Unwind.Meets (fun _ => True) (I.Values w)

variable (I) in
abbrev Anything (_ : I.World) (_ : α) : Prop := True

theorem values_later (h : I.later w w') {v : Value} (hv : I.Values w v) : I.Values w' v :=
  hv.mono fun _ => I.functions_later h

/-! ## Combinations of runs -/

namespace Keeps

variable {E : I.World → ε → Prop} {E' : I.World → ε' → Prop} {V : I.World → α → Prop}
  {W : I.World → β → Prop}

theorem ofResult {r : Except ε α} (h : Ends (E w) (V w) r) : I.Keeps w E V (Run.ofResult r) :=
  fun _ hm => ⟨w, I.refl w, hm, h⟩

theorem pure {a : α} (h : V w a) : I.Keeps w E V (Pure.pure a) := fun _ hm => ⟨w, I.refl w, hm, h⟩

theorem fail {e : ε} (h : E w e) : I.Keeps w E V (Run.fail e) := fun _ hm => ⟨w, I.refl w, hm, h⟩

theorem exhausted : I.Keeps w E V (Run.exhausted : Run ε α) := fun _ _ => trivial

theorem continueWith {x : Run ε α} {f : Except ε α → Run ε' β} (hx : I.Keeps w E V x)
    (hf : ∀ w', I.later w w' → ∀ r, Ends (E w') (V w') r → I.Keeps w' E' W (f r)) :
    I.Keeps w E' W (x.continueWith f) := by
  intro m hm
  refine .continueWith (hx m hm) ?_
  rintro r m' ⟨w', hw, hm', hr⟩
  refine (hf w' hw r hr m' hm').mono ?_
  rintro s m'' ⟨w'', hw', h⟩
  exact ⟨w'', I.trans hw hw', h⟩

theorem bind {x : Run ε α} {f : α → Run ε β} (hx : I.Keeps w E V x)
    (hf : ∀ w', I.later w w' → ∀ a, V w' a → I.Keeps w' E W (f a)) : I.Keeps w E W (x >>= f) := by
  rw [Run.bind_eq_continueWith]
  refine continueWith hx ?_
  rintro w' hw (e | a) hr
  · exact fail hr
  · exact hf w' hw a hr

theorem mapError {x : Run ε α} {f : ε → ε'} (hx : I.Keeps w E V x) (hf : ∀ w' e, E w' e → E' w' (f e)) :
    I.Keeps w E' V (x.mapError f) :=
  continueWith hx fun w' _ _ hr => ofResult (hr.mapError (hf w'))

theorem within {x : Run RuntimeError α} (hx : I.Keeps w I.Anything V x) :
    I.Keeps w I.Unwinds V x.within :=
  mapError hx fun _ _ _ => trivial

theorem repeatWhile {round : Run ε Bool}
    (h : ∀ w', I.later w w' → I.Keeps w' E I.Anything round) (n : Nat) :
    I.Keeps w E I.Anything (Run.repeatWhile round n) := by
  induction n generalizing w with
  | zero => exact exhausted
  | succ n ih =>
    rw [Run.repeatWhile_succ]
    refine bind (h w (I.refl w)) fun w' hw again _ => ?_
    split
    · exact ih fun w'' hw' => h w'' (I.trans hw hw')
    · exact pure trivial

theorem inScope {x : Run ε α} {f : FrameId} (hf : I.frames w f) (hx : I.Keeps w E V x) :
    I.Keeps w E V (Run.inScope f x) := by
  intro m hm
  refine .inScope ((hx _ (I.within hm hf)).mono ?_)
  rintro r m' ⟨w', hw, hm', hr⟩
  have hback : I.frames w' m.current := I.frames_later hw (I.place hm .current)
  exact ⟨w', hw, I.within hm' hback, hr⟩

/-! ## Steps -/

theorem print (text : String) : I.Keeps w E I.Anything (Run.print text) :=
  fun _ hm => ⟨w, I.refl w, I.print hm text, trivial⟩

theorem current : I.Keeps w E I.frames (Run.read (·.current)) :=
  fun _ hm => ⟨w, I.refl w, hm, I.place hm .current⟩

theorem depth : I.Keeps w E I.Anything (Run.read fun m => m.frames.depth m.current) :=
  fun _ hm => ⟨w, I.refl w, hm, trivial⟩

theorem place (p : Place) : I.Keeps w E I.frames (Run.read p.frame) :=
  fun _ hm => ⟨w, I.refl w, hm, I.place hm p⟩

theorem openScope {f : FrameId} (hf : I.frames w f) : I.Keeps w E I.frames (Run.openScope f) := by
  intro m hm
  obtain ⟨w', hw, hm', hnew⟩ := I.openScope hm hf
  exact ⟨w', hw, hm', hnew⟩

theorem newCallable {code : Code} (h : ∀ fn scope, code = .closure fn scope → I.frames w scope) :
    I.Keeps w E I.functions (Run.newCallable code) := by
  intro m hm
  obtain ⟨w', hw, hm', hnew⟩ := I.newCallable hm h
  exact ⟨w', hw, hm', hnew⟩

theorem define {f : FrameId} (hf : I.frames w f) (name : String) {v : Value} (hv : I.Values w v) :
    I.Keeps w E I.Anything (Run.define f name v) :=
  fun _ hm => ⟨w, I.refl w, I.define hm hf hv name, trivial⟩

theorem defineHere (name : String) {v : Value} (hv : I.Values w v) :
    I.Keeps w E I.Anything (Run.defineHere name v) :=
  bind current fun _ hw _ hf => define hf name (values_later hw hv)

theorem lookupIn {f : FrameId} (hf : I.frames w f) (name : String) :
    I.Keeps w I.Anything I.Values (Run.lookupIn f name) := by
  intro m hm
  simp only [Run.lookupIn]
  split
  · next v hv =>
    rw [Frames.get?_eq_owner?_bind] at hv
    obtain ⟨g, hg, hown⟩ := Option.bind_eq_some_iff.mp hv
    exact ⟨w, I.refl w, hm, I.value hm (I.owner hm hf hg) hown⟩
  · exact ⟨w, I.refl w, hm, trivial⟩

theorem assignIn {f : FrameId} (hf : I.frames w f) (name : String) {v : Value} (hv : I.Values w v) :
    I.Keeps w I.Anything I.Anything (Run.assignIn f name v) := by
  intro m hm
  simp only [Run.assignIn]
  split
  · next g hg => exact ⟨w, I.refl w, I.define hm (I.owner hm hf hg) hv name, trivial⟩
  · exact ⟨w, I.refl w, hm, trivial⟩

theorem lookup (name : String) : I.Keeps w I.Anything I.Values (Run.lookup name) :=
  bind current fun _ _ _ hf => lookupIn hf name

theorem assign (name : String) {v : Value} (hv : I.Values w v) :
    I.Keeps w I.Anything I.Anything (Run.assign name v) :=
  bind current fun _ hw _ hf => assignIn hf name (values_later hw hv)

theorem bindAll {f : FrameId} (hf : I.frames w f) (names : List String) {vs : List Value}
    (hvs : ∀ v ∈ vs, I.Values w v) : I.Keeps w E I.Anything (Run.bindAll f names vs) := by
  induction names generalizing vs w with
  | nil => exact pure trivial
  | cons name names ih =>
    cases vs with
    | nil => exact pure trivial
    | cons v vs =>
      rw [List.forall_mem_cons] at hvs
      refine bind (define hf name hvs.1) fun w' hw _ _ => ?_
      exact ih (I.frames_later hw hf) fun u hu => values_later hw (hvs.2 u hu)

end Keeps

/-! ## The evaluator -/

variable (I) in
/-- Calls of known functions, on known arguments, keep the invariant. -/
def Calls (invoke : Callable → List Value → Pos → Run RuntimeError Value) : Prop :=
  ∀ w f vs site, I.functions w f → (∀ v ∈ vs, I.Values w v) →
    I.Keeps w I.Anything I.Values (invoke f vs site)

section evaluator

variable {ctx : Context}

theorem evalList {es : List Expr} (h : ∀ e ∈ es, ∀ w, I.Keeps w I.Anything I.Values (e.eval ctx))
    (w : I.World) :
    I.Keeps w I.Anything (fun w' vs => ∀ v ∈ vs, I.Values w' v) (Expr.evalList ctx es) := by
  induction es generalizing w with
  | nil => exact .pure (by simp)
  | cons e es ih =>
    rw [Expr.evalList]
    refine .bind (h e (by simp) w) fun w' _ v hv => ?_
    refine .bind (ih (fun e he => h e (by simp [he])) w') fun w'' hw vs hvs => .pure ?_
    rw [List.forall_mem_cons]
    exact ⟨values_later hw hv, hvs⟩

theorem execList {ss : List Stmt} (h : ∀ s ∈ ss, ∀ w, I.Keeps w I.Unwinds I.Anything (s.exec ctx))
    (w : I.World) : I.Keeps w I.Unwinds I.Anything (Stmt.execList ctx ss) := by
  induction ss generalizing w with
  | nil => exact .pure trivial
  | cons s ss ih =>
    rw [Stmt.execList]
    exact .bind (h s (by simp) w) fun w' _ _ _ => ih (fun s hs => h s (by simp [hs])) w'

variable (hctx : I.Calls ctx.invoke)
include hctx

theorem apply (pos : Pos) {callee : Value} {args : List Value} (hcallee : I.Values w callee)
    (hargs : ∀ v ∈ args, I.Values w v) : I.Keeps w I.Anything I.Values (ctx.apply pos callee args) := by
  unfold Context.apply
  split
  · next f =>
    split
    · exact hctx w f args pos (hcallee f rfl) hargs
    · exact .fail trivial
  · exact .fail trivial

theorem eval (e : Expr) (w : I.World) : I.Keeps w I.Anything I.Values (e.eval ctx) := by
  have operator {w : I.World} {pos : Pos} {n : Expr} {r : Except Fault Value}
      (h : Ends n.Raises (I.Values w) r) : I.Keeps w I.Anything I.Values (Run.raising pos r) :=
    .ofResult (h.mapError fun _ _ => trivial)
  induction e generalizing w with
  | literal pos x => exact .pure (x.only_value _)
  | group pos e ih => exact ih w
  | unary pos op e ih =>
    exact .bind (ih w) fun w' _ v _ => operator (Value.ends_unary _ pos op e v)
  | binary pos op l r ihl ihr =>
    refine .bind (ihl w) fun w' _ v _ => .bind (ihr w') fun w'' _ u _ => ?_
    exact operator (Value.ends_binary _ pos op l r v u)
  | logical pos op l r ihl ihr =>
    rw [Expr.eval]
    refine .bind (ihl w) fun w' _ v hv => ?_
    split
    · exact .pure hv
    · exact ihr w'
  | var pos name => exact .mapError (.lookup name) fun _ _ _ => trivial
  | assign pos name e ih =>
    refine .bind (ih w) fun w' _ v hv => ?_
    refine .bind (.mapError (.assign name hv) fun _ _ _ => trivial) fun w'' hw _ _ => ?_
    exact .pure (values_later hw hv)
  | call pos callee args ihf ihargs =>
    rw [Expr.eval]
    refine .bind (ihf w) fun w' _ f hf => .bind (evalList ihargs w') fun w'' hw vs hvs => ?_
    exact apply hctx pos (values_later hw hf) hvs

theorem evalOption (o : Option Expr) (w : I.World) :
    I.Keeps w I.Anything I.Values (Expr.evalOption ctx o) := by
  cases o with
  | none => exact .pure Value.only_nil
  | some e => exact eval hctx e w

theorem exec (s : Stmt) (w : I.World) : I.Keeps w I.Unwinds I.Anything (s.exec ctx) := by
  induction s generalizing w with
  | expression pos e => exact .bind (.within (eval hctx e w)) fun _ _ _ _ => .pure trivial
  | print pos e => exact .bind (.within (eval hctx e w)) fun _ _ v _ => .print v.text
  | declare pos name initial =>
    exact .bind (.within (evalOption hctx initial w)) fun _ _ _ hv => .defineHere name hv
  | block pos body ih =>
    rw [Stmt.exec]
    refine .bind .current fun w₁ _ c hc => .bind (.openScope hc) fun w₂ _ f hf => ?_
    exact .inScope hf (execList ih w₂)
  | cond pos test onTrue onFalse iht ihf =>
    rw [Stmt.exec]
    refine .bind (.within (eval hctx test w)) fun w' _ v _ => ?_
    split
    · exact iht w'
    · cases onFalse with
      | none => exact .pure trivial
      | some s => exact ihf s rfl w'
  | loop pos test body ih =>
    rw [Stmt.exec]
    refine .repeatWhile (fun w' _ => ?_) _
    refine .bind (.within (eval hctx test w')) fun w'' _ v _ => ?_
    split
    · exact .bind (ih w'') fun _ _ _ _ => .pure trivial
    · exact .pure trivial
  | function pos name params body ih =>
    rw [Stmt.exec]
    refine .bind .current fun w₁ _ c hc => ?_
    refine .bind (.newCallable fun fn scope h => ?_) fun w₂ _ f hf => ?_
    · cases h
      exact hc
    · exact .defineHere name (Value.only_callable.mpr hf)
  | ret pos value => exact .bind (.within (evalOption hctx value w)) fun _ _ _ hv => .fail hv

theorem execAll (ss : List Stmt) (w : I.World) :
    I.Keeps w I.Unwinds I.Anything (Stmt.execList ctx ss) :=
  execList (fun s _ => exec hctx s) w

/-! ## Calls -/

theorem callFunction {fn : Function} {scope : FrameId} (hscope : I.frames w scope)
    {args : List Value} (hargs : ∀ v ∈ args, I.Values w v) :
    I.Keeps w I.Anything I.Values (fn.call ctx scope args) := by
  refine .bind (.openScope hscope) fun w₁ hw frame hframe => ?_
  refine .bind (.bindAll hframe fn.params fun v hv => values_later hw (hargs v hv)) fun w₂ hw' _ _ => ?_
  refine .continueWith (.inScope (I.frames_later hw' hframe) (execAll hctx fn.body w₂)) ?_
  rintro w₃ _ (⟨e | v⟩ | _) h
  · exact .fail trivial
  · exact .pure h
  · exact .pure Value.only_nil

theorem perform (site : Pos) (a : Action) {known : Callable → Prop}
    (hknown : ∀ f, known f → I.functions w f) (ha : a.Obeys .any known) :
    I.Keeps w I.Anything I.Values (a.perform ctx site) := by
  induction a generalizing w known with
  | finish r =>
    cases r with
    | ok v => exact .ofResult (Value.Only.mono ha hknown)
    | error f => exact .ofResult trivial
  | print text next ih =>
    exact .bind (.print text) fun w' hw _ _ => ih (fun f hf => I.functions_later hw (hknown f hf)) ha
  | depth next ih =>
    refine .bind .depth fun w' hw n _ => ?_
    exact ih n (fun f hf => I.functions_later hw (hknown f hf)) (ha n)
  | lookup name next ih =>
    refine .continueWith (.lookup name) fun w' hw r hr => ?_
    exact ih r (learn_le hknown (fun _ => I.functions_later hw) hr) (ha r)
  | assign name v next ih =>
    refine .continueWith (.assign name (ha.1.mono hknown)) fun w' hw r _ => ?_
    exact ih r (fun f hf => I.functions_later hw (hknown f hf)) (ha.2 r)
  | define place name v next ih =>
    obtain ⟨_, hv, hnext⟩ := ha
    refine .bind (.place place) fun w₁ hw f hf => ?_
    refine .bind (.define hf name (values_later hw (hv.mono hknown))) fun w₂ hw' _ _ => ?_
    exact ih (fun f hf => I.functions_later (I.trans hw hw') (hknown f hf)) hnext
  | call f vs inner next ih =>
    obtain ⟨hf, hvs, _, hnext⟩ := ha
    refine .continueWith (hctx w f vs inner (hknown f hf) fun v hv => (hvs v hv).mono hknown) ?_
    intro w' hw r hr
    have hfault : Ends (fun _ => True) (I.Values w') (r.mapError (·.fault)) :=
      hr.mapError fun _ _ => trivial
    refine ih _ (learn_le hknown (fun _ => I.functions_later hw) hfault) (hnext _ ?_)
    exact hfault.mono (fun _ _ => trivial) fun _ _ => trivial
  | execute place body next ih =>
    obtain ⟨_, _, hnext⟩ := ha
    refine .bind (.place place) fun w₁ hw frame hframe => ?_
    refine .continueWith (.inScope hframe (execAll hctx body w₁)) fun w₂ hw' r hr => ?_
    refine ih r ?_ (hnext r)
    rintro f (hf | rfl)
    · exact I.functions_later (I.trans hw hw') (hknown f hf)
    · exact hr f rfl

end evaluator

variable (I) in
theorem calls (bound : Nat) : I.Calls (Callable.call host bound) := by
  induction bound with
  | zero => exact fun _ _ _ _ _ _ => .exhausted
  | succ bound ih =>
    intro w f args site hf hargs
    rw [Callable.call]
    split
    · next fn scope hcode => exact callFunction ih (I.captured hf hcode) hargs
    · next fn hcode => exact perform ih site _ (fun _ h => h) (I.native hf hcode hargs)

/-! ## What a host can do -/

theorem interpret (bound : Nat) (p : Program) (w : I.World) :
    I.Keeps w I.Anything I.Anything (Interpreter.interpret host bound p) := by
  refine .continueWith (execAll (I.calls bound) p w) ?_
  rintro w' _ (⟨e | v⟩ | _) _
  · exact .fail trivial
  · exact .pure trivial
  · exact .pure trivial

theorem interpretAndReport {E : I.World → ε → Prop} (bound : Nat) (p : Program) (reports : Reports)
    (w : I.World) :
    I.Keeps w E I.Anything (Interpreter.interpretAndReport host bound p reports) := by
  refine .continueWith (interpret bound p w) ?_
  rintro w' _ (e | _) _
  · exact .pure trivial
  · exact .pure trivial

theorem evaluateAndPrint (bound : Nat) (e : Expr) (w : I.World) :
    I.Keeps w I.Anything I.Values (Interpreter.evaluateAndPrint host bound e) := by
  refine .bind (eval (I.calls bound) e w) fun w' _ v hv => .bind (.print v.text) fun w'' hw _ _ => ?_
  exact .pure (values_later hw hv)

theorem defineCallable {E : I.World → ε → Prop} {f : FrameId} (hf : I.frames w f) (name : String)
    {code : Code} (hcode : ∀ fn scope, code = .closure fn scope → I.frames w scope) :
    I.Keeps w E I.Values (Interpreter.defineCallable f name code) := by
  refine .bind (.newCallable hcode) fun w₁ hw c hc => ?_
  have hv : I.Values w₁ (.callable c) := Value.only_callable.mpr hc
  refine .bind (.define (I.frames_later hw hf) name hv) fun w₂ hw' _ _ => ?_
  exact .pure (values_later hw' hv)

theorem defineBuiltins {E : I.World → ε → Prop} {f : FrameId} (hf : I.frames w f) :
    I.Keeps w E I.Anything (Interpreter.defineBuiltins f) := by
  unfold Interpreter.defineBuiltins
  induction Interpreter.builtins generalizing w with
  | nil => exact .pure trivial
  | cons fn fns ih =>
    have hfirst : I.Keeps w E I.Values (Interpreter.defineCallable f fn.name (.native fn)) :=
      defineCallable hf fn.name nofun
    refine .bind (V := I.Anything) (.bind hfirst fun _ _ _ _ => .pure trivial) fun w' hw _ _ => ?_
    exact ih (I.frames_later hw hf)

end Invariant

namespace HostCall

/-- The host call names frames in `F` only, and function values in `C` only. -/
def Mentions (F : FrameId → Prop) (C : Callable → Prop) : HostCall → Prop
  | execute _ | evaluate _ | interpret _ | interpretAndReport _ _ | evaluateAndPrint _ => True
  | executeIn _ f | openScope f | defineBuiltins f => F f
  | call f args _ => C f ∧ ∀ v ∈ args, v.Only C
  | define f _ v | assign f _ v => F f ∧ v.Only C
  | defineCallable f _ code => F f ∧ ∀ fn scope, code = .closure fn scope → F scope

end HostCall

namespace Invariant

variable {host : Host} {I : Invariant host} {w : I.World} {m m' : Machine} {o : Option Value}

theorem Keeps.answer? {ε α : Type} {E : I.World → ε → Prop} {V : I.World → α → Prop} {x : Run ε α}
    {value : Except ε α → Option Value} (hx : I.Keeps w E V x) (hm : I.machines w m)
    (hvalue : ∀ w r v, Ends (E w) (V w) r → value r = some v → I.Values w v)
    (h : (x m).answer? value = some (o, m')) :
    ∃ w', I.later w w' ∧ I.machines w' m' ∧ ∀ v, o = some v → I.Values w' v := by
  have hall := hx m hm
  cases hend : x m with
  | exhausted => simp [hend, Outcome.answer?] at h
  | ended r n =>
    rw [hend] at hall h
    cases h
    obtain ⟨w', hw, hm', hr⟩ := hall
    exact ⟨w', hw, hm', fun v => hvalue w' r v hr⟩

/-- **What a host call hands out is known**, if the frames and function values that it names are. -/
theorem answers {bound : Nat} {c : HostCall} (hm : I.machines w m)
    (hc : c.Mentions (I.frames w) (I.functions w)) (h : c.answer? host bound m = some (o, m')) :
    ∃ w', I.later w w' ∧ I.machines w' m' ∧ ∀ v, o = some v → I.Values w' v := by
  have given {ε : Type} {E : I.World → ε → Prop} (w : I.World) (r : Except ε Value) (v : Value)
      (hr : Ends (E w) (I.Values w) r) (hv : r.toOption = some v) : I.Values w v := by
    cases r with
    | error e => cases hv
    | ok u =>
      cases hv
      exact hr
  have returned (w : I.World) (r : Except Unwind Unit) (v : Value)
      (hr : Ends (I.Unwinds w) (I.Anything w) r) (hv : Unwind.returned r = some v) : I.Values w v := by
    rcases r with (e | u) | _
    · cases hv
    · cases hv
      exact hr
    · cases hv
  have nothing {ε α : Type} {E : I.World → ε → Prop} {V : I.World → α → Prop} (w : I.World)
      (r : Except ε α) (v : Value) (_ : Ends (E w) (V w) r) (hv : none = some v) : I.Values w v := nomatch hv
  cases c with
  | execute s => exact (exec (I.calls bound) s w).answer? hm returned h
  | executeIn body f =>
    exact (Keeps.inScope hc (execAll (I.calls bound) body w)).answer? hm returned h
  | evaluate e => exact (eval (I.calls bound) e w).answer? hm given h
  | interpret p => exact (interpret bound p w).answer? hm nothing h
  | interpretAndReport p reports =>
    exact (interpretAndReport (E := fun _ => Empty.elim) bound p reports w).answer? hm nothing h
  | evaluateAndPrint e => exact (evaluateAndPrint bound e w).answer? hm given h
  | call f args site => exact (I.calls bound w f args site hc.1 hc.2).answer? hm given h
  | openScope f =>
    rw [HostCall.answer?] at h
    exact (Keeps.openScope (E := fun _ => Empty.elim) hc).answer? hm nothing h
  | define f name v =>
    rw [HostCall.answer?] at h
    exact (Keeps.define (E := fun _ => Empty.elim) hc.1 name hc.2).answer? hm nothing h
  | assign f name v => exact (Keeps.assignIn hc.1 name hc.2).answer? hm nothing h
  | defineCallable f name code =>
    exact (defineCallable (E := fun _ => Empty.elim) hc.1 name hc.2).answer? hm given h
  | defineBuiltins f =>
    rw [HostCall.answer?] at h
    exact (defineBuiltins (E := fun _ => Empty.elim) hc).answer? hm nothing h

/-- **Host calls keep invariants**, as long as they name known frames and function values. -/
theorem leaves {bound : Nat} {c : HostCall} (hm : I.machines w m)
    (hc : c.Mentions (I.frames w) (I.functions w)) (h : c.leaves host bound m = some m') :
    ∃ w', I.later w w' ∧ I.machines w' m' := by
  obtain ⟨o, ho⟩ := HostCall.leaves_eq_some_iff.mp h
  obtain ⟨w', hw, hm', _⟩ := answers hm hc ho
  exact ⟨w', hw, hm'⟩

end Invariant

end Lox
