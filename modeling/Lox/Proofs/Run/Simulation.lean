import Lox.Interpreter
import Lox.Proofs.Base.Frames
import Lox.Proofs.Base.Matching
import Lox.Proofs.Base.Mirror

/-!
# Simulation

Programs that match run alike. To show that for one way of matching takes a relation between the machines
of the two runs, and a proof that the steps of runs preserve it: opening a scope, binding a name, finding
a name, printing, and numbering function values (`Simulation`). From that it follows here, once, that
statements, expressions and calls preserve it, and that they end alike (`Simulation.interpret`).

Which frames of the two machines correspond changes during a run, as frames are made, so the relation is
indexed by a *world*. What corresponds in a world does so in all later ones. Function values are alike in
a world if their scopes correspond and their bodies match; so like values are not equal, but they show no
difference other than that.
-/

namespace Lox

variable {ε ε₁ ε' ε₁' α α₁ β β₁ : Type}

/-! ## Entering a scope -/

/-- Bind parameters to arguments in the frame `f`. -/
def Frames.defineAll (s : Frames) (f : FrameId) : List String → List Value → Frames
  | name :: names, value :: values => (s.define f name value).defineAll f names values
  | _, _ => s

theorem Frames.grows_defineAll (s : Frames) (f : FrameId) (names : List String) (values : List Value) :
    s.Grows (s.defineAll f names values) := by
  induction names generalizing s values with
  | nil => exact .refl s
  | cons name names ih =>
    cases values with
    | nil => exact .refl s
    | cons value values => exact (Frames.grows_define s f name value).trans (ih _ values)

theorem Frames.own?_defineAll_isSome {s : Frames} {f : FrameId} (hf : f < s.all.size) {x : String}
    {names : List String} (hx : x ∈ names) {values : List Value}
    (hlength : values.length = names.length) :
    ((s.defineAll f names values).own? f x).isSome := by
  induction names generalizing s values with
  | nil => cases hx
  | cons name names ih =>
    cases values with
    | nil => cases hlength
    | cons value values =>
      have hrest := Frames.grows_defineAll (s.define f name value) f names values
      by_cases hmem : x ∈ names
      · exact ih (by simpa using hf) hmem (by simpa using hlength)
      · obtain rfl : x = name := (List.mem_cons.mp hx).resolve_right hmem
        refine hrest.names f x ?_
        rw [Frames.own?_define, if_pos ⟨rfl, rfl, hf⟩]
        rfl

theorem Frames.Guarded.defineAll {S : FrameId → Prop} {F : Callable → Prop} {s : Frames}
    (h : s.Guarded S F) (f : FrameId) (names : List String) {values : List Value}
    (hvalues : ∀ v ∈ values, v.Only F) : (s.defineAll f names values).Guarded S F := by
  induction names generalizing s values with
  | nil => exact h
  | cons name names ih =>
    cases values with
    | nil => exact h
    | cons value values =>
      obtain ⟨hv, hvalues⟩ := List.forall_mem_cons.mp hvalues
      exact ih (h.define f name hv) hvalues

/-- The machine with one more frame, inside `scope`, that binds parameters to arguments. -/
def Machine.enter (m : Machine) (scope : FrameId) (params : List String) (args : List Value) : Machine :=
  { m with frames := (m.frames.openScope scope).2.defineAll m.frames.all.size params args }

theorem Run.bindAll_apply (f : FrameId) (names : List String) (values : List Value) (m : Machine) :
    (Run.bindAll f names values : Run ε Unit) m =
      .ended (.ok ()) { m with frames := m.frames.defineAll f names values } := by
  induction names generalizing values m with
  | nil => rfl
  | cons name names ih =>
    cases values with
    | nil => rfl
    | cons value values => exact ih values _

theorem Function.call_apply (ctx : Context) (fn : Function) (scope : FrameId) (args : List Value)
    (m : Machine) :
    fn.call ctx scope args m =
      (Run.inScope m.frames.all.size (Stmt.execList ctx fn.body)).catchReturn
        (m.enter scope fn.params args) := by
  show (Run.bindAll m.frames.all.size fn.params args >>= fun _ =>
    (Run.inScope m.frames.all.size (Stmt.execList ctx fn.body)).catchReturn)
      { m with frames := (m.frames.openScope scope).2 } = _
  rw [Run.bind_apply, Run.bindAll_apply]
  rfl

theorem Stmt.exec_block_apply (ctx : Context) (pos : Pos) (body : List Stmt) (m : Machine) :
    (Stmt.block pos body).exec ctx m =
      Run.inScope m.frames.all.size (Stmt.execList ctx body) (m.enter m.current [] []) := by
  rw [Stmt.exec]
  rfl

/-! ## Correspondences -/

/-- A translation of programs, and what corresponds in runs of them. -/
structure Correspondence extends Translation where
  /-- What is known of two runs at some point. -/
  World : Type
  /-- More is known in the second world than in the first. -/
  later : World → World → Prop
  /-- The frames correspond, and are of the kind. -/
  frames : World → Kind → FrameId → FrameId → Prop
  /-- What native functions may do. -/
  access : Access

namespace Correspondence

variable (C : Correspondence) (host : Host) (w : C.World)

/-- One native function, or declarations that match in scopes that correspond. -/
inductive Functions : Callable → Callable → Prop
  | native (id : Nat) {fn : Native} (h : fn.Mirrors host C.access) :
    Functions ⟨id, .native fn⟩ ⟨id, .native fn⟩
  | closure (id : Nat) {k k' : C.Kind} {scope scope' : FrameId} (hscope : C.frames w k scope scope')
    (name : String) {params params' : List String} {body body' : List Stmt}
    (hfn : C.toTranslation.functions ⟨name, params, body⟩ ⟨name, params', body'⟩)
    (henters : C.enters k params params' k')
    (hbody : List.Forall₂ (Stmt.Matches C.toTranslation k') body body') :
    Functions ⟨id, .closure ⟨name, params, body⟩ scope⟩ ⟨id, .closure ⟨name, params', body'⟩ scope'⟩

/-- Values that differ at most in function values that are alike. -/
abbrev Values : Value → Value → Prop := Value.Like (C.Functions host w)

/-- A name of one program was found in one frame, and that of the other program in another. Both have a
binding, in frames that correspond, or neither has. -/
inductive Finds (s t : Frames) (x y : String) : Option FrameId → Option FrameId → Prop
  | nowhere (h : x = y) : Finds s t x y none none
  | binding {k : C.Kind} {f g : FrameId} {v v' : Value} (hframes : C.frames w k f g)
    (hnames : C.names k x y) (hv : s.own? f x = some v) (hv' : t.own? g y = some v')
    (h : C.Values host w v v') : Finds s t x y (some f) (some g)

variable {C host w}

theorem functions_resemble : C.Functions host w ≤ Callable.Resembles := by
  intro f g h
  cases h with
  | native id h => exact .refl _
  | closure id hscope name hfn henters hbody => exact ⟨rfl, rfl, C.arity henters, rfl⟩

theorem functions_mono {w' : C.World} (h : ∀ k f g, C.frames w k f g → C.frames w' k f g) :
    C.Functions host w ≤ C.Functions host w' := by
  intro f g hfg
  cases hfg with
  | native id h => exact .native id h
  | closure id hscope name hfn henters hbody =>
    exact .closure id (h _ _ _ hscope) name hfn henters hbody

theorem values_self {v : Value} (h : v.Only fun f => C.Functions host w f f) : C.Values host w v v := by
  cases v with
  | nil => exact .nil
  | bool b => exact .bool b
  | number x => exact .number x
  | string text => exact .string text
  | callable f => exact .callable (h f rfl)

end Correspondence

/-- A correspondence of runs: machines may correspond, and steps preserve that. -/
structure Simulation (host : Host) extends Correspondence where
  machines : World → Machine → Machine → Prop
  refl : ∀ w, later w w
  trans : ∀ {w w' w''}, later w w' → later w' w'' → later w w''
  persists : ∀ {w w' k f g}, later w w' → frames w k f g → frames w' k f g
  /- Steps -/
  within : ∀ {w a b}, machines w a b → ∀ f g,
    machines w { a with current := f } { b with current := g }
  print : ∀ {w a b}, machines w a b → ∀ text,
    machines w { a with buffer := a.output.println text a.buffer }
      { b with buffer := b.output.println text b.buffer }
  number : ∀ {w a b}, machines w a b → a.nextId = b.nextId ∧
    machines w { a with nextId := a.nextId + 1 } { b with nextId := b.nextId + 1 }
  enter : ∀ {w a b k f g params params' k' args args'}, machines w a b → frames w k f g →
    enters k params params' k' → List.Forall₂ (toCorrespondence.Values host w) args args' →
    args.length = params.length ∨ access.declared →
    ∃ w', later w w' ∧ machines w' (a.enter f params args) (b.enter g params' args') ∧
      frames w' k' a.frames.all.size b.frames.all.size
  find : ∀ {w a b k f g x y}, machines w a b → frames w k f g → names k x y →
    toCorrespondence.Finds host w a.frames b.frames x y (a.frames.owner? f x) (b.frames.owner? g y)
  define : ∀ {w a b k f g x y v v'}, machines w a b → frames w k f g → names k x y →
    declares k ∨ (a.frames.own? f x).isSome ∧ (b.frames.own? g y).isSome →
    toCorrespondence.Values host w v v' →
    machines w { a with frames := a.frames.define f x v } { b with frames := b.frames.define g y v' }
  /- What native functions may do -/
  lookups : access.names → ∀ k x, names k x x
  depth : access.depth → ∀ {w a b k}, machines w a b → frames w k a.current b.current →
    a.frames.depth a.current = b.frames.depth b.current
  place : ∀ {w a b k}, machines w a b → frames w k a.current b.current → ∀ p : Place,
    ∃ k', frames w k' (p.frame a) (p.frame b) ∧
      (access.defines p → declares k' ∧ ∀ x, names k' x x) ∧
      ∀ body, access.runs p body → List.Forall₂ (Stmt.Matches toTranslation k') body body
  sees : ∀ {pos pos'}, positions pos pos' → access.positions pos pos'

namespace Simulation

variable {host : Host} (S : Simulation host)

abbrev Functions (w : S.World) : Callable → Callable → Prop := S.toCorrespondence.Functions host w

abbrev Values (w : S.World) : Value → Value → Prop := S.toCorrespondence.Values host w

/-- Errors of the same cause at positions that correspond. -/
abbrev Errors : RuntimeError → RuntimeError → Prop := RuntimeError.Like S.positions

abbrev Unwinds (w : S.World) : Unwind → Unwind → Prop := Unwind.Like S.Errors (S.Functions w)

/-- The machines correspond, and statements run in frames that correspond. -/
def Together (k : S.Kind) (w : S.World) (a b : Machine) : Prop :=
  S.machines w a b ∧ S.frames w k a.current b.current

/-- In a world later than `w` the machines correspond, and the results are errors in the relation `E` or
values in the relation `V`. -/
def Leads (k : S.Kind) (w : S.World) (E : S.World → ε → ε₁ → Prop) (V : S.World → α → α₁ → Prop)
    (r : Except ε α) (a : Machine) (s : Except ε₁ α₁) (b : Machine) : Prop :=
  ∃ w', S.later w w' ∧ S.Together k w' a b ∧ BothEnd (E w') (V w') r s

/-- The runs go together, from corresponding machines in the world `w` to such in a later world. -/
def Coupled (k : S.Kind) (w : S.World) (E : S.World → ε → ε₁ → Prop) (V : S.World → α → α₁ → Prop)
    (x : Run ε α) (y : Run ε₁ α₁) : Prop :=
  ∀ a b, S.Together k w a b → (x a).Rel (S.Leads k w E V) (y b)

variable {S}

theorem Leads.since {k : S.Kind} {w w' : S.World} {E : S.World → ε → ε₁ → Prop}
    {V : S.World → α → α₁ → Prop} {r : Except ε α} {a b : Machine} {s : Except ε₁ α₁}
    (h : S.Leads k w' E V r a s b) (hw : S.later w w') : S.Leads k w E V r a s b := by
  obtain ⟨w'', hw', h⟩ := h
  exact ⟨w'', S.trans hw hw', h⟩

theorem functions_later {w w' : S.World} (h : S.later w w') : S.Functions w ≤ S.Functions w' :=
  Correspondence.functions_mono fun _ _ _ => S.persists h

theorem values_later {w w' : S.World} (h : S.later w w') {v v' : Value} (hv : S.Values w v v') :
    S.Values w' v v' := hv.mono (functions_later h)

/-! ## Combinations of runs -/

namespace Coupled

variable {k k' : S.Kind} {w : S.World} {E : S.World → ε → ε₁ → Prop} {E' : S.World → ε' → ε₁' → Prop}
  {V : S.World → α → α₁ → Prop} {W : S.World → β → β₁ → Prop}

theorem ofResult {r : Except ε α} {s : Except ε₁ α₁} (h : BothEnd (E w) (V w) r s) :
    S.Coupled k w E V (Run.ofResult r) (Run.ofResult s) :=
  fun _ _ hab => ⟨w, S.refl w, hab, h⟩

theorem pure {a : α} {b : α₁} (h : V w a b) :
    S.Coupled k w E V (Pure.pure a : Run ε α) (Pure.pure b : Run ε₁ α₁) :=
  fun _ _ hab => ⟨w, S.refl w, hab, h⟩

theorem fail {e : ε} {e₁ : ε₁} (h : E w e e₁) :
    S.Coupled k w E V (Run.fail e : Run ε α) (Run.fail e₁ : Run ε₁ α₁) :=
  fun _ _ hab => ⟨w, S.refl w, hab, h⟩

theorem exhausted : S.Coupled k w E V (Run.exhausted : Run ε α) (Run.exhausted : Run ε₁ α₁) :=
  fun _ _ _ => trivial

theorem continueWith {x : Run ε α} {y : Run ε₁ α₁} {f : Except ε α → Run ε' β}
    {g : Except ε₁ α₁ → Run ε₁' β₁} (h : S.Coupled k w E V x y)
    (hfg : ∀ w', S.later w w' → ∀ r s, BothEnd (E w') (V w') r s → S.Coupled k w' E' W (f r) (g s)) :
    S.Coupled k w E' W (x.continueWith f) (y.continueWith g) := by
  intro a b hab
  refine .continueWith (h a b hab) ?_
  rintro r a' s b' ⟨w', hw, hab', hrs⟩
  exact (hfg w' hw r s hrs a' b' hab').mono fun _ _ _ _ h => h.since hw

theorem bind {x : Run ε α} {y : Run ε₁ α₁} {f : α → Run ε β} {g : α₁ → Run ε₁ β₁}
    (h : S.Coupled k w E V x y)
    (hfg : ∀ w', S.later w w' → ∀ a b, V w' a b → S.Coupled k w' E W (f a) (g b)) :
    S.Coupled k w E W (x >>= f) (y >>= g) := by
  rw [Run.bind_eq_continueWith, Run.bind_eq_continueWith]
  refine continueWith h ?_
  rintro w' hw (e | a) (e₁ | b) hr
  · exact fail hr
  · exact hr.elim
  · exact hr.elim
  · exact hfg w' hw a b hr

theorem mapError {x : Run ε α} {y : Run ε₁ α₁} {f : ε → ε'} {g : ε₁ → ε₁'}
    (h : S.Coupled k w E V x y) (hfg : ∀ w' e e₁, E w' e e₁ → E' w' (f e) (g e₁)) :
    S.Coupled k w E' V (x.mapError f) (y.mapError g) :=
  continueWith h fun w' _ _ _ hr => ofResult (hr.mapError (hfg w'))

theorem mono {F : S.World → ε → ε₁ → Prop} {x : Run ε α} {y : Run ε₁ α₁}
    (h : S.Coupled k w E V x y) (hE : ∀ w' e e₁, E w' e e₁ → F w' e e₁) : S.Coupled k w F V x y := by
  intro a b hab
  refine (h a b hab).mono ?_
  rintro r a' s b' ⟨w', hw, hab', hrs⟩
  exact ⟨w', hw, hab', hrs.mono (hE w') fun _ _ h => h⟩

theorem within {F : RuntimeError → RuntimeError → Prop} {x : Run RuntimeError α}
    {y : Run RuntimeError α₁} (h : S.Coupled k w (fun _ => F) V x y) :
    S.Coupled k w (fun w' => Unwind.Like F (S.Functions w')) V x.within y.within :=
  mapError h fun _ _ _ he => .error he

theorem repeatWhile {round round' : Run ε Bool} {E : S.World → ε → ε → Prop}
    (h : ∀ w', S.later w w' → S.Coupled k w' E (fun _ => (· = ·)) round round') (n : Nat) :
    S.Coupled k w E (fun _ _ _ => True) (Run.repeatWhile round n) (Run.repeatWhile round' n) := by
  induction n generalizing w with
  | zero => exact exhausted
  | succ n ih =>
    rw [Run.repeatWhile_succ, Run.repeatWhile_succ]
    refine bind (h w (S.refl w)) ?_
    rintro w' hw again _ rfl
    split
    · exact ih fun w'' hw' => h w'' (S.trans hw hw')
    · exact pure trivial

theorem inScope {x : Run ε α} {y : Run ε₁ α₁} {f g : FrameId} (hfg : S.frames w k' f g)
    (h : S.Coupled k' w E V x y) : S.Coupled k w E V (Run.inScope f x) (Run.inScope g y) := by
  rintro a b ⟨hab, hcurrent⟩
  refine .inScope ((h _ _ ⟨S.within hab f g, hfg⟩).mono ?_)
  rintro r a' s b' ⟨w', hw, ⟨hab', _⟩, hrs⟩
  exact ⟨w', hw, ⟨S.within hab' _ _, S.persists hw hcurrent⟩, hrs⟩

theorem entered {x : Run ε α} {y : Run ε₁ α₁} {k₁ : S.Kind} {a b : Machine} {f g : FrameId}
    {params params' : List String} {args args' : List Value} (hab : S.Together k w a b)
    (hfg : S.frames w k₁ f g) (henters : S.enters k₁ params params' k')
    (hargs : List.Forall₂ (S.Values w) args args')
    (hlength : args.length = params.length ∨ S.access.declared)
    (h : ∀ w', S.frames w' k' a.frames.all.size b.frames.all.size → S.Coupled k w' E V x y) :
    (x (a.enter f params args)).Rel (S.Leads k w E V) (y (b.enter g params' args')) := by
  obtain ⟨w', hw, hab', hnew⟩ := S.enter hab.1 hfg henters hargs hlength
  exact (h w' hnew _ _ ⟨hab', S.persists hw hab.2⟩).mono fun _ _ _ _ h => h.since hw

/-! ## Steps -/

theorem print (text : String) :
    S.Coupled k w E (fun _ _ _ => True) (Run.print text) (Run.print text) :=
  fun _ _ hab => ⟨w, S.refl w, ⟨S.print hab.1 text, hab.2⟩, trivial⟩

theorem current : S.Coupled k w E (fun w' => S.frames w' k) (Run.read (·.current))
    (Run.read (·.current)) :=
  fun _ _ hab => ⟨w, S.refl w, hab, hab.2⟩

theorem newCallable {code code' : Code} (h : ∀ id, S.Functions w ⟨id, code⟩ ⟨id, code'⟩) :
    S.Coupled k w E S.Functions (Run.newCallable code) (Run.newCallable code') := by
  rintro a b ⟨hab, hcurrent⟩
  obtain ⟨hid, hab'⟩ := S.number hab
  have hfunctions := h a.nextId
  rw [Run.newCallable, Run.newCallable, ← hid]
  rw [← hid] at hab'
  exact ⟨w, S.refl w, ⟨hab', hcurrent⟩, hfunctions⟩

theorem define {f g : FrameId} {x y : String} {v v' : Value} (hfg : S.frames w k' f g)
    (hdeclares : S.declares k') (hxy : S.names k' x y) (hv : S.Values w v v') :
    S.Coupled k w E (fun _ _ _ => True) (Run.define f x v) (Run.define g y v') :=
  fun _ _ hab => ⟨w, S.refl w, ⟨S.define hab.1 hfg hxy (.inl hdeclares) hv, hab.2⟩, trivial⟩

theorem defineHere {x y : String} {v v' : Value} (hdeclares : S.declares k) (hxy : S.names k x y)
    (hv : S.Values w v v') :
    S.Coupled k w E (fun _ _ _ => True) (Run.defineHere x v) (Run.defineHere y v') :=
  bind current fun _ hw _ _ hfg => define hfg hdeclares hxy (values_later hw hv)

theorem lookup {x y : String} (hxy : S.names k x y) :
    S.Coupled k w (fun _ => (· = ·)) S.Values (Run.lookup x) (Run.lookup y) := by
  intro a b hab
  have hfind := S.find hab.1 hab.2 hxy
  show (Run.lookupIn a.current x a).Rel _ (Run.lookupIn b.current y b)
  rw [Run.lookupIn, Run.lookupIn, Frames.get?_eq_owner?_bind, Frames.get?_eq_owner?_bind]
  generalize a.frames.owner? a.current x = o, b.frames.owner? b.current y = o' at hfind ⊢
  cases hfind with
  | nowhere h => exact ⟨w, S.refl w, hab, congrArg _ h⟩
  | binding hframes hnames hv hv' h =>
    simp only [Option.bind_some, hv, hv']
    exact ⟨w, S.refl w, hab, h⟩

theorem assign {x y : String} {v v' : Value} (hxy : S.names k x y) (hv : S.Values w v v') :
    S.Coupled k w (fun _ => (· = ·)) (fun _ => (· = ·)) (Run.assign x v) (Run.assign y v') := by
  intro a b hab
  have hfind := S.find hab.1 hab.2 hxy
  show (Run.assignIn a.current x v a).Rel _ (Run.assignIn b.current y v' b)
  rw [Run.assignIn, Run.assignIn]
  generalize a.frames.owner? a.current x = o, b.frames.owner? b.current y = o' at hfind ⊢
  cases hfind with
  | nowhere h => exact ⟨w, S.refl w, hab, congrArg _ h⟩
  | @binding _ f g _ _ hframes hnames hown hown' h =>
    have hbound : (a.frames.own? f x).isSome := by rw [hown]; rfl
    have hbound' : (b.frames.own? g y).isSome := by rw [hown']; rfl
    exact ⟨w, S.refl w, ⟨S.define hab.1 hframes hnames (.inr ⟨hbound, hbound'⟩) hv, hab.2⟩, rfl⟩

theorem depth (hdepth : S.access.depth) :
    S.Coupled k w E (fun _ => (· = ·)) (Run.read fun m => m.frames.depth m.current)
      (Run.read fun m => m.frames.depth m.current) :=
  fun _ _ hab => ⟨w, S.refl w, hab, S.depth hdepth hab.1 hab.2⟩

theorem place (p : Place) :
    S.Coupled k w E (fun w' f g => ∃ k', S.frames w' k' f g ∧
      (S.access.defines p → S.declares k' ∧ ∀ x, S.names k' x x) ∧
      ∀ body, S.access.runs p body → List.Forall₂ (Stmt.Matches S.toTranslation k') body body)
      (Run.read p.frame) (Run.read p.frame) :=
  fun _ _ hab => ⟨w, S.refl w, hab, S.place hab.1 hab.2 p⟩

theorem raising {pos pos' : Pos} (hpos : S.positions pos pos') {r r' : Except Fault Value}
    (h : BothEnd (· = ·) (S.Values w) r r') :
    S.Coupled k w (fun _ => S.Errors) S.Values (Run.raising pos r) (Run.raising pos' r') :=
  ofResult (h.mapError fun _ _ hfault => ⟨hfault, hpos⟩)

end Coupled

/-! ## The evaluator -/

variable (S) in
/-- Errors of the same cause at positions that correspond, or at the sites of the calls that failed. -/
abbrev ErrorsAt (site site' : Pos) : RuntimeError → RuntimeError → Prop :=
  RuntimeError.Like fun pos pos' => S.positions pos pos' ∨ pos = site ∧ pos' = site'

variable (S) in
/-- Calls of function values that are alike, on arguments that are, go together. -/
def Calls (ctx : Context) : Prop :=
  ∀ k w f g args args' site site', S.Functions w f g → List.Forall₂ (S.Values w) args args' →
    args.length = f.arity ∨ f.isNative ∨ S.access.declared →
    S.Coupled k w (fun _ => S.ErrorsAt site site') S.Values (ctx.invoke f args site)
      (ctx.invoke g args' site')

section evaluator

variable {ctx : Context} {k : S.Kind}

theorem evalList {es es' : List Expr} (h : List.Forall₂ (fun e e' => ∀ w,
    S.Coupled k w (fun _ => S.Errors) S.Values (e.eval ctx) (e'.eval ctx)) es es') (w : S.World) :
    S.Coupled k w (fun _ => S.Errors) (fun w' => List.Forall₂ (S.Values w')) (Expr.evalList ctx es)
      (Expr.evalList ctx es') := by
  induction h generalizing w with
  | nil => exact .pure .nil
  | cons he _ ih =>
    rw [Expr.evalList, Expr.evalList]
    refine .bind (he w) fun w' _ v v' hv => .bind (ih w') fun w'' hw vs vs' hvs => ?_
    exact .pure (.cons (values_later hw hv) hvs)

theorem execList_of_forall {ss ss' : List Stmt} (h : List.Forall₂ (fun s s' => ∀ w,
    S.Coupled k w S.Unwinds (fun _ _ _ => True) (s.exec ctx) (s'.exec ctx)) ss ss') (w : S.World) :
    S.Coupled k w S.Unwinds (fun _ _ _ => True) (Stmt.execList ctx ss) (Stmt.execList ctx ss') := by
  induction h generalizing w with
  | nil => exact .pure trivial
  | cons hs _ ih =>
    rw [Stmt.execList, Stmt.execList]
    exact .bind (hs w) fun w' _ _ _ _ => ih w'

variable (hctx : S.Calls ctx)
include hctx

theorem apply {w : S.World} {pos pos' : Pos} (hpos : S.positions pos pos') {v v' : Value}
    (hv : S.Values w v v') {args args' : List Value} (hargs : List.Forall₂ (S.Values w) args args') :
    S.Coupled k w (fun _ => S.Errors) S.Values (ctx.apply pos v args) (ctx.apply pos' v' args') := by
  cases hv with
  | @callable f g hfg =>
    have harity : f.arity = g.arity := (Correspondence.functions_resemble f g hfg).arity
    rw [Context.apply, Context.apply, ← harity, ← hargs.length_eq]
    split
    · next hlength =>
      refine (hctx k w f g args args' pos pos' hfg hargs (.inl hlength)).mono ?_
      rintro _ e e' ⟨hfault, hsite | ⟨hsite, hsite'⟩⟩
      · exact ⟨hfault, hsite⟩
      · exact ⟨hfault, by rwa [hsite, hsite']⟩
    · exact .fail ⟨rfl, hpos⟩
  | nil | bool _ | number _ | string _ => exact .fail ⟨rfl, hpos⟩

theorem eval {e e' : Expr} (h : e.Matches S.toTranslation k e') (w : S.World) :
    S.Coupled k w (fun _ => S.Errors) S.Values (e.eval ctx) (e'.eval ctx) := by
  induction h generalizing w with
  | literal pos pos' x => exact .pure (.literal x)
  | groupLeft pos _ ih => exact ih w
  | groupRight pos _ ih => exact ih w
  | unary op hpos _ ih => exact .bind (ih w) fun w' _ v v' hv => .raising hpos (hv.unary op)
  | binary op hpos _ _ ihl ihr =>
    refine .bind (ihl w) fun w' _ v v' hv => .bind (ihr w') fun w'' hw u u' hu => ?_
    have hv' := values_later hw hv
    exact .raising hpos (hv'.binary Correspondence.functions_resemble hu op)
  | logical pos pos' op _ _ ihl ihr =>
    rw [Expr.eval, Expr.eval]
    refine .bind (ihl w) fun w' _ v v' hv => ?_
    have hstops : op.stopsAt v = op.stopsAt v' := by
      cases op <;> rw [LogicalOp.stopsAt, LogicalOp.stopsAt, hv.isTruthy]
    rw [hstops]
    split
    · exact .pure hv
    · exact ihr w'
  | var hpos hname => exact .mapError (.lookup hname) fun _ _ _ hfault => ⟨hfault, hpos⟩
  | assign hpos hname _ ih =>
    refine .bind (ih w) fun w' _ v v' hv => ?_
    refine .bind (.mapError (.assign hname hv) fun _ _ _ hfault => ⟨hfault, hpos⟩) ?_
    exact fun w'' hw _ _ _ => .pure (values_later hw hv)
  | call hpos _ hlength _ ihf ihargs =>
    have hlist := List.forall₂_iff_zip.mpr ⟨hlength, fun h => ihargs _ _ h⟩
    rw [Expr.eval, Expr.eval]
    refine .bind (ihf w) fun w' _ v v' hv => .bind (evalList hlist w') fun w'' hw vs vs' hvs => ?_
    exact apply hctx hpos (values_later hw hv) hvs

theorem evalOption {o o' : Option Expr} (h : Option.Rel (Expr.Matches S.toTranslation k) o o')
    (w : S.World) :
    S.Coupled k w (fun _ => S.Errors) S.Values (Expr.evalOption ctx o) (Expr.evalOption ctx o') := by
  cases h with
  | none => exact .pure .nil
  | some h => exact eval hctx h w

theorem exec {s s' : Stmt} (h : s.Matches S.toTranslation k s') (w : S.World) :
    S.Coupled k w S.Unwinds (fun _ _ _ => True) (s.exec ctx) (s'.exec ctx) := by
  induction h generalizing w with
  | expression pos pos' h =>
    exact .bind (.within (eval hctx h w)) fun _ _ _ _ _ => .pure trivial
  | print pos pos' h =>
    refine .bind (.within (eval hctx h w)) fun w' _ v v' hv => ?_
    rw [hv.text Correspondence.functions_resemble]
    exact .print _
  | declare pos pos' hdeclares hname h =>
    exact .bind (.within (evalOption hctx h w)) fun w' _ v v' hv => .defineHere hdeclares hname hv
  | block pos pos' henters hlength _ ih =>
    have hlist := List.forall₂_iff_zip.mpr ⟨hlength, fun h => ih _ _ h⟩
    intro a b hab
    rw [Stmt.exec_block_apply, Stmt.exec_block_apply]
    refine Coupled.entered hab hab.2 henters .nil (.inl rfl) fun w' hnew => ?_
    exact .inScope hnew (execList_of_forall hlist w')
  | ifThen pos pos' htest _ iht =>
    rw [Stmt.exec, Stmt.exec]
    refine .bind (.within (eval hctx htest w)) fun w' _ v v' hv => ?_
    rw [hv.isTruthy]
    split
    · exact iht w'
    · exact .pure trivial
  | ifElse pos pos' htest _ _ iht ihf =>
    rw [Stmt.exec, Stmt.exec]
    refine .bind (.within (eval hctx htest w)) fun w' _ v v' hv => ?_
    rw [hv.isTruthy]
    split
    · exact iht w'
    · exact ihf w'
  | loop pos pos' htest _ ih =>
    rw [Stmt.exec, Stmt.exec]
    refine .repeatWhile (fun w' _ => ?_) _
    refine .bind (.within (eval hctx htest w')) fun w'' _ v v' hv => ?_
    rw [hv.isTruthy]
    split
    · exact .bind (ih w'') fun _ _ _ _ _ => .pure rfl
    · exact .pure rfl
  | function pos pos' hdeclares hname hfn henters hlength hbody _ =>
    have hlist := List.forall₂_iff_zip.mpr ⟨hlength, fun h => hbody _ _ h⟩
    rw [Stmt.exec, Stmt.exec]
    refine .bind .current fun w' _ c c' hc => ?_
    refine .bind (.newCallable fun id => .closure id hc _ hfn henters hlist) fun w'' _ f g hfg => ?_
    exact .defineHere hdeclares hname (.callable hfg)
  | ret pos pos' h =>
    exact .bind (.within (evalOption hctx h w)) fun w' _ v v' hv => .fail (.return hv)

theorem execList {ss ss' : List Stmt} (h : List.Forall₂ (Stmt.Matches S.toTranslation k) ss ss')
    (w : S.World) :
    S.Coupled k w S.Unwinds (fun _ _ _ => True) (Stmt.execList ctx ss) (Stmt.execList ctx ss') :=
  execList_of_forall (h.imp fun _ _ hs => exec hctx hs) w

/-! ## Calls -/

theorem callFunction {w : S.World} {k₁ k' : S.Kind} {scope scope' : FrameId}
    (hscope : S.frames w k₁ scope scope') {name : String} {params params' : List String}
    (henters : S.enters k₁ params params' k') {body body' : List Stmt}
    (hbody : List.Forall₂ (Stmt.Matches S.toTranslation k') body body') {args args' : List Value}
    (hargs : List.Forall₂ (S.Values w) args args')
    (hlength : args.length = params.length ∨ S.access.declared) :
    S.Coupled k w (fun _ => S.Errors) S.Values (Function.call ctx ⟨name, params, body⟩ scope args)
      (Function.call ctx ⟨name, params', body'⟩ scope' args') := by
  intro a b hab
  rw [Function.call_apply, Function.call_apply]
  refine Coupled.entered hab hscope henters hargs hlength fun w' hnew => ?_
  refine .continueWith (.inScope hnew (execList hctx hbody w')) ?_
  rintro w'' _ (e | _) (e' | _) h
  · cases h with
    | error h => exact .fail h
    | «return» h => exact .pure h
  · exact h.elim
  · exact h.elim
  · exact .pure .nil

theorem perform {F : Callable → Callable → Prop} {a a' : Action} (h : a.Mirrors S.access F a')
    {w : S.World} (hF : F ≤ S.Functions w) (site site' : Pos) :
    S.Coupled k w (fun _ => S.ErrorsAt site site') S.Values (a.perform ctx site)
      (a'.perform ctx site') := by
  -- The relation of a native function may be narrower than what is alike, as it learns from answers only.
  have learnt {w w' : S.World} {F : Callable → Callable → Prop} (hF : F ≤ S.Functions w)
      (hw : S.later w w') : F ≤ S.Functions w' := fun f g hfg => functions_later hw f g (hF f g hfg)
  induction h generalizing w with
  | finish h =>
    have hresult := h.mono (fun _ _ h => h) fun _ _ hv => hv.mono hF
    exact .ofResult (hresult.mapError fun _ _ hfault => ⟨hfault, .inr ⟨rfl, rfl⟩⟩)
  | print text _ ih => exact .bind (.print text) fun w' hw _ _ _ => ih (learnt hF hw)
  | depth hc _ ih =>
    refine .bind (.depth hc) ?_
    rintro w' hw n _ rfl
    exact ih n (learnt hF hw)
  | lookup hc name _ ih =>
    refine .continueWith (.lookup (S.lookups hc k name)) fun w' hw r r' hr => ?_
    exact ih _ (learnt hF hw) Correspondence.functions_resemble r r' hr (fun _ _ h => h)
  | assign hc name hv _ ih =>
    refine .continueWith (.assign (S.lookups hc k name) (hv.mono hF)) ?_
    rintro w' hw (f | _) (f' | _) hr
    · cases hr
      exact ih _ (learnt hF hw)
    · exact hr.elim
    · exact hr.elim
    · exact ih _ (learnt hF hw)
  | define hc name hv _ ih =>
    refine .bind (.place _) ?_
    rintro w' hw f g ⟨k', hfg, hdefines, _⟩
    obtain ⟨hdeclares, hnames⟩ := hdefines hc
    refine .bind (.define hfg hdeclares (hnames name) (hv.mono (learnt hF hw))) ?_
    exact fun w'' hw' _ _ _ => ih (learnt hF (S.trans hw hw'))
  | call hc hf hargs inner _ ih =>
    have hargs' := hargs.imp fun _ _ hv => hv.mono hF
    refine .continueWith (hctx k w _ _ _ _ inner inner (hF _ _ hf) hargs' (.inr hc)) ?_
    intro w' hw r r' hr
    refine ih _ (learnt hF hw) Correspondence.functions_resemble _ _ ?_ fun _ _ h => h
    exact hr.mapError fun _ _ he => he.fault
  | execute hc _ ih =>
    refine .bind (.place _) ?_
    rintro w' hw f g ⟨k', hfg, _, hruns⟩
    refine .continueWith (.inScope hfg (execList hctx (hruns _ hc) w')) fun w'' hw' r r' hr => ?_
    refine ih _ (learnt hF (S.trans hw hw')) Correspondence.functions_resemble r r' ?_ fun _ _ h => h
    refine hr.mono (fun u u' hu => ?_) fun _ _ _ => rfl
    cases hu with
    | error he => exact .error ⟨he.fault, S.sees he.pos⟩
    | «return» hv => exact .return hv

end evaluator

theorem calls (bound : Nat) : S.Calls (.ofBound host bound) := by
  induction bound with
  | zero => exact fun _ _ _ _ _ _ _ _ _ _ _ => .exhausted
  | succ bound ih =>
    intro k w f g args args' site site' hfg hargs hlength
    cases hfg with
    | native id h =>
      have hacts := h.acts Correspondence.functions_resemble (fun id g hg => .native id hg) hargs
      exact perform ih hacts (fun _ _ h => h) site site'
    | closure id hscope name hfn henters hbody =>
      refine (callFunction ih hscope henters hbody hargs ?_).mono fun _ _ _ he => ?_
      · exact hlength.imp_right fun h => h.resolve_left Bool.false_ne_true
      · exact ⟨he.fault, .inl he.pos⟩

/-- **Programs that match run alike**, from machines that correspond: both end or both do not, and then
with the same result, up to the positions of errors. -/
theorem interpret {k : S.Kind} (bound : Nat) {program program' : Program}
    (h : List.Forall₂ (Stmt.Matches S.toTranslation k) program program') (w : S.World) :
    S.Coupled k w (fun _ => S.Errors) (fun _ => (· = ·)) (Interpreter.interpret host bound program)
      (Interpreter.interpret host bound program') := by
  refine .continueWith (execList (calls bound) h w) ?_
  rintro w' _ (e | _) (e' | _) hr
  · cases hr with
    | error he => exact .fail he
    | «return» hv => exact .pure rfl
  · exact hr.elim
  · exact hr.elim
  · exact .pure rfl

end Simulation

end Lox
