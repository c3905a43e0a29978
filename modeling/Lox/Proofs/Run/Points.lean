import Lox.Proofs.Run.Answers
import Lox.Proofs.Scoping.Grounded

/-!
# Points of a run

A run turns from what it has to do to a part of that, and each part begins at some machine, with some values
kept for later: operands that have been evaluated, arguments, and what a native function was told
(`Point.Turns`). A host could have made the runs so far one after the other. So all points that a run comes to
are at machines that a host can come to, and the values that are kept have been found (`Point.Reaches.known`).
-/

namespace Lox

/-- What a run has to do. -/
inductive Task where
  | eval (e : Expr)
  | evalAll (es : List Expr)
  | exec (s : Stmt)
  | execAll (ss : List Stmt)
  | call (f : Callable) (args : List Value)
  | perform (a : Action)

/-- What is to be done, at which machine, and how many calls may be open at once. -/
structure Point where
  bound : Nat
  task : Task
  machine : Machine

/-- The run turns to a part of what it has to do, and keeps some values for later. -/
inductive Point.Turns (host : Host) : Point → List Value → Point → Prop
  /- Expressions -/
  | group {b m pos e} : Turns host ⟨b, .eval (.group pos e), m⟩ [] ⟨b, .eval e, m⟩
  | operand {b m pos op e} : Turns host ⟨b, .eval (.unary pos op e), m⟩ [] ⟨b, .eval e, m⟩
  | left {b m pos op l r} : Turns host ⟨b, .eval (.binary pos op l r), m⟩ [] ⟨b, .eval l, m⟩
  | right {b m m' pos op l r v} (hl : l.eval (.ofBound host b) m = .ended (.ok v) m') :
    Turns host ⟨b, .eval (.binary pos op l r), m⟩ [v] ⟨b, .eval r, m'⟩
  | first {b m pos op l r} : Turns host ⟨b, .eval (.logical pos op l r), m⟩ [] ⟨b, .eval l, m⟩
  | second {b m m' pos op l r v} (hl : l.eval (.ofBound host b) m = .ended (.ok v) m')
    (hv : op.stopsAt v = false) : Turns host ⟨b, .eval (.logical pos op l r), m⟩ [] ⟨b, .eval r, m'⟩
  | assigned {b m pos x e} : Turns host ⟨b, .eval (.assign pos x e), m⟩ [] ⟨b, .eval e, m⟩
  | callee {b m pos e args} : Turns host ⟨b, .eval (.call pos e args), m⟩ [] ⟨b, .eval e, m⟩
  | arguments {b m m' pos e args v} (he : e.eval (.ofBound host b) m = .ended (.ok v) m') :
    Turns host ⟨b, .eval (.call pos e args), m⟩ [v] ⟨b, .evalAll args, m'⟩
  | apply {b m m₁ m₂ pos e args f vs}
    (he : e.eval (.ofBound host b) m = .ended (.ok (.callable f)) m₁)
    (hargs : Expr.evalList (.ofBound host b) args m₁ = .ended (.ok vs) m₂)
    (harity : vs.length = f.arity) :
    Turns host ⟨b, .eval (.call pos e args), m⟩ (.callable f :: vs) ⟨b, .call f vs, m₂⟩
  | head {b m e es} : Turns host ⟨b, .evalAll (e :: es), m⟩ [] ⟨b, .eval e, m⟩
  | tail {b m m' e es v} (he : e.eval (.ofBound host b) m = .ended (.ok v) m') :
    Turns host ⟨b, .evalAll (e :: es), m⟩ [v] ⟨b, .evalAll es, m'⟩
  /- Statements -/
  | expression {b m pos e} : Turns host ⟨b, .exec (.expression pos e), m⟩ [] ⟨b, .eval e, m⟩
  | print {b m pos e} : Turns host ⟨b, .exec (.print pos e), m⟩ [] ⟨b, .eval e, m⟩
  | declare {b m pos x e} : Turns host ⟨b, .exec (.declare pos x (some e)), m⟩ [] ⟨b, .eval e, m⟩
  | returned {b m pos e} : Turns host ⟨b, .exec (.return pos (some e)), m⟩ [] ⟨b, .eval e, m⟩
  | block {b m pos body} : Turns host ⟨b, .exec (.block pos body), m⟩ []
      ⟨b, .execAll body, { m.enter m.current [] [] with current := m.frames.all.size }⟩
  | test {b m pos test onTrue onFalse} :
    Turns host ⟨b, .exec (.cond pos test onTrue onFalse), m⟩ [] ⟨b, .eval test, m⟩
  | onTrue {b m m' pos test onTrue onFalse v}
    (htest : test.eval (.ofBound host b) m = .ended (.ok v) m') (hv : v.isTruthy) :
    Turns host ⟨b, .exec (.cond pos test onTrue onFalse), m⟩ [] ⟨b, .exec onTrue, m'⟩
  | onFalse {b m m' pos test onTrue onFalse v}
    (htest : test.eval (.ofBound host b) m = .ended (.ok v) m') (hv : v.isTruthy = false) :
    Turns host ⟨b, .exec (.cond pos test onTrue (some onFalse)), m⟩ [] ⟨b, .exec onFalse, m'⟩
  | loopTest {b m pos test body} :
    Turns host ⟨b, .exec (.loop pos test body), m⟩ [] ⟨b, .eval test, m⟩
  | loopBody {b m m' pos test body v} (htest : test.eval (.ofBound host b) m = .ended (.ok v) m')
    (hv : v.isTruthy) : Turns host ⟨b, .exec (.loop pos test body), m⟩ [] ⟨b, .exec body, m'⟩
  | again {b m m₁ m₂ pos test body v} (htest : test.eval (.ofBound host b) m = .ended (.ok v) m₁)
    (hv : v.isTruthy) (hbody : body.exec (.ofBound host b) m₁ = .ended (.ok ()) m₂) :
    Turns host ⟨b, .exec (.loop pos test body), m⟩ [] ⟨b, .exec (.loop pos test body), m₂⟩
  | statement {b m s ss} : Turns host ⟨b, .execAll (s :: ss), m⟩ [] ⟨b, .exec s, m⟩
  | statements {b m m' s ss} (hs : s.exec (.ofBound host b) m = .ended (.ok ()) m') :
    Turns host ⟨b, .execAll (s :: ss), m⟩ [] ⟨b, .execAll ss, m'⟩
  /- Calls -/
  | enter {b m id fn scope args} : Turns host ⟨b + 1, .call ⟨id, .closure fn scope⟩ args, m⟩ []
      ⟨b, .execAll fn.body, { m.enter scope fn.params args with current := m.frames.all.size }⟩
  | native {b m id fn args} :
    Turns host ⟨b + 1, .call ⟨id, .native fn⟩ args, m⟩ [] ⟨b, .perform (host fn args), m⟩
  /- Native functions -/
  | printed {b m text next} : Turns host ⟨b, .perform (.print text next), m⟩ []
      ⟨b, .perform next, { m with buffer := m.output.println text m.buffer }⟩
  | measured {b m next} : Turns host ⟨b, .perform (.depth next), m⟩ []
      ⟨b, .perform (next (m.frames.depth m.current)), m⟩
  | lookedUp {b m m' name next r} (h : Run.lookup name m = .ended r m') :
    Turns host ⟨b, .perform (.lookup name next), m⟩ r.toOption.toList ⟨b, .perform (next r), m'⟩
  | changed {b m m' name v next r} (h : Run.assign name v m = .ended r m') :
    Turns host ⟨b, .perform (.assign name v next), m⟩ [] ⟨b, .perform (next r), m'⟩
  | defined {b m place name v next} : Turns host ⟨b, .perform (.define place name v next), m⟩ []
      ⟨b, .perform next, { m with frames := m.frames.define (place.frame m) name v }⟩
  | calling {b m f args site next} :
    Turns host ⟨b, .perform (.call f args site next), m⟩ [] ⟨b, .call f args, m⟩
  | called {b m m' f args site next r} (h : f.call host b args site m = .ended r m') :
    Turns host ⟨b, .perform (.call f args site next), m⟩ r.toOption.toList
      ⟨b, .perform (next (r.mapError (·.fault))), m'⟩
  | executing {b m place body next} : Turns host ⟨b, .perform (.execute place body next), m⟩ []
      ⟨b, .execAll body, { m with current := place.frame m }⟩
  | executed {b m m' place body next r}
    (h : Interpreter.executeIn host b body (place.frame m) m = .ended r m') :
    Turns host ⟨b, .perform (.execute place body next), m⟩ (Unwind.returned r).toList
      ⟨b, .perform (next r), m'⟩

/-- The run comes from one point to the other, and there keeps the values for later. -/
inductive Point.Reaches (host : Host) : Point → List Value → Point → Prop
  | refl (p : Point) : Reaches host p [] p
  | step {p q r : Point} {held held' : List Value} (h : p.Turns host held q)
    (hrest : Reaches host q held' r) : Reaches host p (held ++ held') r

/-- What is to be done names only function values that have been found. -/
def Task.Known (found : Callable → Prop) : Task → Prop
  | call f args => found f ∧ ∀ v ∈ args, v.Only found
  | perform a => a.Obeys .any found
  | eval _ | evalAll _ | exec _ | execAll _ => True

variable {host : Host} {m m' : Machine} {found : Callable → Prop} {b : Nat}

/-- Native functions make up no function values. They hand on such as they are given. -/
def Host.Honest (host : Host) : Prop :=
  ∀ fn args, (host fn args).Obeys .any fun c => .callable c ∈ args

theorem Host.Honest.obeys (h : host.Honest) {fn : Native} {args : List Value} {F : Callable → Prop}
    (hargs : ∀ v ∈ args, v.Only F) : (host fn args).Obeys .any F :=
  (h fn args).mono fun c hc => hargs _ hc c rfl

theorem Host.Honest.grounded (h : host.Honest) : host.Grounded := fun _ _ _ hargs => h.obeys hargs

namespace Machine.Found

theorem after (h : m.Found host found) (call : HostCall)
    (hcall : call.Mentions (· < m.frames.all.size) found) {o : Option Value}
    (hanswer : call.answer? host b m = some (o, m')) :
    ∃ found', m'.Found host found' ∧ (∀ c, found c → found' c) ∧ ∀ v, o = some v → v.Only found' := by
  refine ⟨_, h.next b call hcall hanswer, fun c hc => .inl hc, ?_⟩
  rintro v rfl c rfl
  exact .inr (.inr rfl)

/-- All scopes exist, also those of the functions that have been found. -/
theorem scopes (h : m.Found host found) (honest : host.Honest) :
    m.Grounded ∧ ∀ f, found f → f.Within m.frames.all.size := by
  let I := Invariant.grounded host honest.grounded
  have hnew (output : Output) : I.machines (1 : Nat) { Machine.initial with output } :=
    ⟨grounded_new output, rfl⟩
  obtain ⟨_, ⟨hm, rfl⟩, hknown⟩ := h.known I hnew fun _ _ _ hm hf => hm.2 ▸ hf
  exact ⟨hm, hknown⟩

theorem grounded (h : m.Found host found) (honest : host.Honest) : m.Grounded := (h.scopes honest).1

theorem evaluated (h : m.Found host found) {e : Expr} {v : Value}
    (he : e.eval (.ofBound host b) m = .ended (.ok v) m') :
    ∃ found', m'.Found host found' ∧ (∀ c, found c → found' c) ∧ v.Only found' := by
  have hanswer : (HostCall.evaluate e).answer? host b m = some (some v, m') := by
    rw [HostCall.answer?, Interpreter.evaluate, he]
    rfl
  obtain ⟨found', hm', hle, hv⟩ := h.after (.evaluate e) trivial hanswer
  exact ⟨found', hm', hle, hv v rfl⟩

theorem executed (h : m.Found host found) {s : Stmt}
    (hs : s.exec (.ofBound host b) m = .ended (.ok ()) m') :
    ∃ found', m'.Found host found' ∧ ∀ c, found c → found' c := by
  have hanswer : (HostCall.execute s).answer? host b m = some (none, m') := by
    rw [HostCall.answer?, Interpreter.execute, hs]
    rfl
  obtain ⟨found', hm', hle, _⟩ := h.after (.execute s) trivial hanswer
  exact ⟨found', hm', hle⟩

theorem printed (h : m.Found host found) (text : String) :
    ∃ found', Machine.Found host { m with buffer := m.output.println text m.buffer } found' ∧
      ∀ c, found c → found' c := by
  have hanswer : (HostCall.evaluateAndPrint (.literal ⟨0, 0⟩ (.string text))).answer? host 0 m =
      some (some (.string text), { m with buffer := m.output.println text m.buffer }) := by rfl
  obtain ⟨found', hm', hle, _⟩ := h.after (.evaluateAndPrint _) trivial hanswer
  exact ⟨found', hm', hle⟩

theorem evaluatedAll (h : m.Found host found) {es : List Expr} {vs : List Value}
    (hes : Expr.evalList (.ofBound host b) es m = .ended (.ok vs) m') :
    ∃ found', m'.Found host found' ∧ (∀ c, found c → found' c) ∧ ∀ v ∈ vs, v.Only found' := by
  induction es generalizing m found vs with
  | nil =>
    cases hes
    exact ⟨found, h, fun _ hc => hc, nofun⟩
  | cons e es ih =>
    rw [Expr.evalList] at hes
    obtain ⟨v, m₁, he, hrest⟩ := Run.bind_eq_ok hes
    obtain ⟨us, m₂, hes, hend⟩ := Run.bind_eq_ok hrest
    cases hend
    obtain ⟨found₁, hm₁, hle₁, hv⟩ := h.evaluated he
    obtain ⟨found₂, hm₂, hle₂, hus⟩ := ih hm₁ hes
    exact ⟨found₂, hm₂, fun c hc => hle₂ c (hle₁ c hc), List.forall_mem_cons.mpr ⟨hv.mono hle₂, hus⟩⟩

theorem defineAll (h : m.Found host found) {f : FrameId} (hf : f < m.frames.all.size)
    (names : List String) {values : List Value} (hvalues : ∀ v ∈ values, v.Only found) :
    ∃ found', Machine.Found host { m with frames := m.frames.defineAll f names values } found' ∧
      ∀ c, found c → found' c := by
  induction names generalizing m found values with
  | nil => exact ⟨found, h, fun _ hc => hc⟩
  | cons name names ih =>
    cases values with
    | nil => exact ⟨found, h, fun _ hc => hc⟩
    | cons v values =>
      obtain ⟨hv, hvalues⟩ := List.forall_mem_cons.mp hvalues
      have hdefine := h.next 0 (.define f name v) ⟨hf, hv⟩ (by rw [HostCall.answer?]; rfl)
      obtain ⟨found', hfound', hle⟩ :=
        ih hdefine (by simpa using hf) fun u hu => (hvalues u hu).mono fun _ => .inl
      exact ⟨found', hfound', fun c hc => hle c (.inl hc)⟩

/-- Parameters are bound one after the other, and then the body of a function is run in their frame. -/
theorem enter (h : m.Found host found) {scope : FrameId} (hscope : scope < m.frames.all.size)
    (params : List String) {args : List Value} (hargs : ∀ v ∈ args, v.Only found) :
    ∃ found', Machine.Found host { m.enter scope params args with current := m.frames.all.size } found' ∧
      ∀ c, found c → found' c := by
  have hopen := h.next 0 (.openScope scope) hscope (by rw [HostCall.answer?]; rfl)
  have hsize : m.frames.all.size < (m.frames.openScope scope).2.all.size := by simp
  obtain ⟨found', hfound', hle⟩ :=
    hopen.defineAll hsize params fun v hv => (hargs v hv).mono fun _ => .inl
  refine ⟨found', hfound'.within ?_, fun c hc => hle c (.inl hc)⟩
  exact Nat.lt_of_lt_of_le hsize (Frames.grows_defineAll _ _ _ _).size

end Machine.Found

/-! ## Points are at machines that a host comes to -/

/-- A look-up changes nothing, and gives a value that is bound in some frame. -/
theorem Run.lookup_ended {name : String} {r : Except Fault Value}
    (h : Run.lookup name m = .ended r m') :
    m' = m ∧ ∀ c, r = .ok (.callable c) → m.Binds c := by
  change Run.lookupIn m.current name m = .ended r m' at h
  cases hget : m.frames.get? m.current name with
  | none =>
    rw [Run.lookupIn, hget] at h
    cases h
    refine ⟨rfl, fun c hc => ?_⟩
    cases hc
  | some v =>
    rw [Run.lookupIn, hget] at h
    cases h
    refine ⟨rfl, fun c hc => ?_⟩
    cases hc
    obtain ⟨g, _, hown⟩ := Frames.exists_of_get? hget
    exact ⟨g, name, hown⟩

theorem mem_handedOn {ε : Type} {r : Except ε Value} {v : Value} : v ∈ r.toOption.toList ↔ r = .ok v := by
  cases r <;> simp [Except.toOption, eq_comm]

/-- At the point, and with the values kept for it, no function values are met but such as have been found. -/
def Point.Known (host : Host) (found : Callable → Prop) (held : List Value) (q : Point) : Prop :=
  ∃ found', q.machine.Found host found' ∧ (∀ c, found c → found' c) ∧ q.task.Known found' ∧
    ∀ v ∈ held, v.Only found'

/-- What a run turns to begins at a machine that a host comes to. -/
theorem Point.Turns.known (honest : host.Honest) {p q : Point} {held : List Value}
    (h : p.Turns host held q) (hp : p.machine.Found host found)
    (htask : p.task.Known found) : q.Known host found held := by
  have hgrounded := hp.grounded honest
  have stay {q : Point} (hq : q.machine.Found host found) (hknown : q.task.Known found) :
      q.Known host found [] := ⟨found, hq, fun _ hc => hc, hknown, nofun⟩
  cases h with
  | group | operand | left | first | assigned | callee | head => exact stay hp trivial
  | expression | print | declare | returned | test | loopTest | statement => exact stay hp trivial
  | right he | arguments he | tail he =>
    obtain ⟨found', hq, hle, hv⟩ := hp.evaluated he
    exact ⟨found', hq, hle, trivial, List.forall_mem_singleton.mpr hv⟩
  | second he | onTrue he | onFalse he | loopBody he =>
    obtain ⟨found', hq, hle, _⟩ := hp.evaluated he
    exact ⟨found', hq, hle, trivial, nofun⟩
  | apply he hargs harity =>
    obtain ⟨found₁, hm₁, hle₁, hf⟩ := hp.evaluated he
    obtain ⟨found₂, hq, hle₂, hvs⟩ := hm₁.evaluatedAll hargs
    have hf' := hle₂ _ (hf _ rfl)
    exact ⟨found₂, hq, fun c hc => hle₂ c (hle₁ c hc), ⟨hf', hvs⟩,
      List.forall_mem_cons.mpr ⟨Value.only_callable.mpr hf', hvs⟩⟩
  | block =>
    obtain ⟨found', hq, hle⟩ := hp.enter hgrounded.current [] (List.forall_mem_nil _)
    exact ⟨found', hq, hle, trivial, nofun⟩
  | again htest hv hbody =>
    obtain ⟨found₁, hm₁, hle₁, _⟩ := hp.evaluated htest
    obtain ⟨found₂, hq, hle₂⟩ := hm₁.executed hbody
    exact ⟨found₂, hq, fun c hc => hle₂ c (hle₁ c hc), trivial, nofun⟩
  | statements hs =>
    obtain ⟨found', hq, hle⟩ := hp.executed hs
    exact ⟨found', hq, hle, trivial, nofun⟩
  | @enter b m id fn scope args =>
    have hscope := (hp.scopes honest).2 _ htask.1 scope ⟨fn, rfl⟩
    obtain ⟨found', hq, hle⟩ := hp.enter hscope fn.params htask.2
    exact ⟨found', hq, hle, trivial, nofun⟩
  | native => exact stay hp (honest.obeys htask.2)
  | printed =>
    obtain ⟨found', hq, hle⟩ := hp.printed _
    exact ⟨found', hq, hle, Action.Obeys.mono htask hle, nofun⟩
  | measured => exact stay hp (htask _)
  | @lookedUp b m m' name next r hrun =>
    obtain ⟨rfl, hr⟩ := Run.lookup_ended hrun
    have hfound (c : Callable) (hc : r = .ok (.callable c)) : found c := hp.of_binds (hr c hc)
    refine ⟨found, hp, fun _ hc => hc, Action.Obeys.mono (htask r) ?_, ?_⟩
    · rintro c (hc | hc)
      · exact hc
      · exact hfound c hc
    · rintro v hv c rfl
      exact hfound c (mem_handedOn.mp hv)
  | @changed b m m' name v next r hrun =>
    have hanswer : (HostCall.assign m.current name v).answer? host b m = some (none, m') := by
      rw [HostCall.answer?, show Run.assignIn m.current name v m = .ended r m' from hrun]
      rfl
    obtain ⟨found', hq, hle, _⟩ := hp.after (.assign _ _ _) ⟨hgrounded.current, htask.1⟩ hanswer
    exact ⟨found', hq, hle, Action.Obeys.mono (htask.2 r) hle, nofun⟩
  | @defined b m place name v next =>
    have hanswer : (HostCall.define (place.frame m) name v).answer? host b m =
        some (none, { m with frames := m.frames.define (place.frame m) name v }) := by
      rw [HostCall.answer?]
      rfl
    obtain ⟨found', hq, hle, _⟩ := hp.after (.define _ _ _) ⟨hgrounded.place place, htask.2.1⟩ hanswer
    exact ⟨found', hq, hle, Action.Obeys.mono htask.2.2 hle, nofun⟩
  | calling => exact stay hp ⟨htask.1, htask.2.1⟩
  | @called b m m' f args site next r hrun =>
    have hanswer : (HostCall.call f args site).answer? host b m = some (r.toOption, m') := by
      rw [HostCall.answer?, Interpreter.call, hrun]
      rfl
    obtain ⟨found', hq, hle, ho⟩ := hp.after (.call f args site) ⟨htask.1, htask.2.1⟩ hanswer
    refine ⟨found', hq, hle, Action.Obeys.mono (htask.2.2.2 _ (by cases r <;> trivial)) ?_, ?_⟩
    · rintro c (hc | hc)
      · exact hle c hc
      · cases r with
        | error e => cases hc
        | ok v =>
          cases hc
          exact ho _ rfl c rfl
    · exact fun v hv => ho v (Option.mem_toList.mp hv)
  | @executing b m place body next => exact stay (hp.within (hgrounded.place place)) trivial
  | @executed b m m' place body next r hrun =>
    have hanswer : (HostCall.executeIn body (place.frame m)).answer? host b m =
        some (Unwind.returned r, m') := by
      rw [HostCall.answer?, hrun]
      rfl
    obtain ⟨found', hq, hle, ho⟩ := hp.after (.executeIn _ _) (hgrounded.place place) hanswer
    refine ⟨found', hq, hle, Action.Obeys.mono (htask.2.2 r) ?_, ?_⟩
    · rintro c (hc | rfl)
      · exact hle c hc
      · exact ho _ rfl c rfl
    · exact fun v hv => ho v (Option.mem_toList.mp hv)

/-- **All points that a run comes to are at machines that a host can come to**, and the values that are kept
until then have been found. -/
theorem Point.Reaches.known (honest : host.Honest) {p q : Point} {held : List Value}
    (h : p.Reaches host held q) (hp : p.machine.Found host found) (htask : p.task.Known found) :
    q.Known host found held := by
  induction h generalizing found with
  | refl p => exact ⟨found, hp, fun _ hc => hc, htask, nofun⟩
  | step h _ ih =>
    obtain ⟨found₁, hq, hle₁, htask₁, hheld₁⟩ := h.known honest hp htask
    obtain ⟨found₂, hr, hle₂, htask₂, hheld₂⟩ := ih hq htask₁
    refine ⟨found₂, hr, fun c hc => hle₂ c (hle₁ c hc), htask₂, ?_⟩
    exact List.forall_mem_append.mpr ⟨fun v hv => (hheld₁ v hv).mono hle₂, hheld₂⟩

end Lox
