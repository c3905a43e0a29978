import Lox.Interpreter
import Lox.Proofs.Base.Conduct
import Lox.Proofs.Base.Nodes
import Lox.Proofs.Run.Evolution
import Lox.Proofs.Scoping.Check
import Lox.Proofs.Scoping.Reachability

/-!
# Well-scoped programs find all their variables

A program that the check accepts never ends with an undefined variable. The invariant is about all
function values in reach: the frame that a function was declared in still binds all names that its body
was checked with (`Callable.Scoped`). Frames only grow, so a function that was scoped once stays so, also
after the block that declared it was left.

What is known of a value depends on the frames, which change from one step of a run to the next. The
predicate on runs is therefore about a run from one machine (`Run.Sound`), and its rule for two runs in
a row says how the machine got from the first to the second.
-/

namespace Lox

/-- The fault is not that of an undefined variable. -/
def Fault.Known (f : Fault) : Prop := ∀ name, f ≠ .undefinedVariable name

/-- A native function that does not fail with an undefined variable, as long as the functions that it
calls do not, and that calls functions with as many arguments as they take. -/
def Conduct.scoped : Conduct where
  ends := Fault.Known
  hears := Fault.Known
  calls f args := args.length = f.arity

/-- All names that the scopes bind stand for something in the current frame. -/
def Machine.Covers (m : Machine) (Γ : Scopes) : Prop := m.frames.Covers m.current Γ

section soundness

variable (host : Host) (S : FrameId → Prop)

/-- The body is well-scoped in the frame that the function was declared in. -/
def Callable.Scoped (s : Frames) (f : Callable) : Prop :=
  match f.code with
  | .closure fn scope => S scope ∧ scope < s.all.size ∧
    ∃ Γ, s.Covers scope Γ ∧ Stmt.scopedList (fn.params :: Γ) fn.body
  | .native fn => fn.Obeys host .scoped

/-- All function values in the frames `S` are well-scoped. The current frame is among these frames, and
so are all that are yet to be made. -/
structure Machine.Safe (m : Machine) : Prop where
  guarded : m.frames.Guarded S (Callable.Scoped host S m.frames)
  inside : S m.current
  bounded : m.current < m.frames.all.size
  fresh : ∀ f, m.frames.all.size ≤ f → S f

/-- The run from `m` leaves a safe machine. What is known of its errors and values depends on the frames
that it leaves. -/
def Run.Sound {ε α : Type} (m : Machine) (E : Frames → ε → Prop) (V : Frames → α → Prop)
    (x : Run ε α) : Prop :=
  (x m).All fun r m' => m.Evolves m' ∧ m'.Safe host S ∧ Ends (E m'.frames) (V m'.frames) r

/-- The run of an expression from `m` ends without an undefined variable, and with a scoped value. -/
abbrev Run.SoundValue (m : Machine) (x : Run RuntimeError Value) : Prop :=
  x.Sound host S m (fun _ e => e.fault.Known) fun s => Value.Only (Callable.Scoped host S s)

/-- The same for statements. After the normal end their frame covers `Γ`. -/
abbrev Run.SoundUnwind (m : Machine) (Γ : Scopes) (x : Run Unwind Unit) : Prop :=
  x.Sound host S m
    (fun s => Unwind.Meets (fun e => e.fault.Known) (Value.Only (Callable.Scoped host S s)))
    fun s _ => s.Covers m.current Γ

/-- Calls of scoped functions are sound, given scoped arguments and as many as the function takes. -/
def SoundCalls (invoke : Callable → List Value → Pos → Run RuntimeError Value) : Prop :=
  ∀ f vs site m, m.Safe host S → f.Scoped host S m.frames →
    (∀ v ∈ vs, v.Only (Callable.Scoped host S m.frames)) → vs.length = f.arity →
    (invoke f vs site).SoundValue host S m

end soundness

variable {host : Host} {S : FrameId → Prop} {Γ : Scopes} {m m' : Machine}

theorem Callable.Scoped.of_native {s : Frames} {f : Callable} {fn : Native}
    (hcode : f.code = .native fn) (h : fn.Obeys host .scoped) : f.Scoped host S s := by
  rw [Callable.Scoped, hcode]
  exact h

theorem Callable.Scoped.grows {s t : Frames} {f : Callable} (h : f.Scoped host S s)
    (hst : s.Grows t) : f.Scoped host S t := by
  unfold Callable.Scoped at h ⊢
  split at h
  · obtain ⟨hS, hlt, Γ, hcovers, hbody⟩ := h
    exact ⟨hS, Nat.lt_of_lt_of_le hlt hst.size, Γ, hcovers.grows hst, hbody⟩
  · exact h

theorem Value.Only.grows {s t : Frames} {v : Value} (h : v.Only (Callable.Scoped host S s))
    (hst : s.Grows t) : v.Only (Callable.Scoped host S t) := h.mono fun _ hf => hf.grows hst

theorem Machine.Covers.evolves (h : m.Covers Γ) (hm : m.Evolves m') : m'.Covers Γ := by
  rw [Machine.Covers, hm.current]
  exact Frames.Covers.grows h hm.grows

namespace Machine.Safe

theorem step (h : m.Safe host S) (hstep : m.Step m')
    (hframes : m'.frames.Guarded S (Callable.Scoped host S m'.frames)) : m'.Safe host S where
  guarded := hframes
  inside := by rw [hstep.current]; exact h.inside
  bounded := by rw [hstep.current]; exact Nat.lt_of_lt_of_le h.bounded hstep.grows.size
  fresh f hf := h.fresh f (Nat.le_trans hstep.grows.size hf)

theorem define (h : m.Safe host S) (f : FrameId) (name : String) {v : Value}
    (hv : v.Only (Callable.Scoped host S (m.frames.define f name v))) :
    Safe host S { m with frames := m.frames.define f name v } :=
  have hguarded := h.guarded.mono fun _ hc => hc.grows (Frames.grows_define m.frames f name v)
  h.step (.define f name v) (hguarded.define f name hv)

theorem openScope (h : m.Safe host S) {f : FrameId} (hf : S f) :
    Safe host S { m with frames := (m.frames.openScope f).2 } :=
  have hguarded := h.guarded.mono fun _ hc => hc.grows (Frames.grows_openScope m.frames f)
  h.step (.openScope f) (hguarded.openScope hf)

theorem within (h : m.Safe host S) {f : FrameId} (hf : S f) (hlt : f < m.frames.all.size) :
    Safe host S { m with current := f } := ⟨h.guarded, hf, hlt, h.fresh⟩

end Machine.Safe

/-! ## Rules -/

namespace Run.Sound

variable {ε ε' α β : Type} {E : Frames → ε → Prop} {E' : Frames → ε' → Prop}
  {V : Frames → α → Prop} {W : Frames → β → Prop}

theorem pure (hm : m.Safe host S) {a : α} (h : V m.frames a) :
    (Pure.pure a : Run ε α).Sound host S m E V := ⟨.refl m, hm, h⟩

theorem fail (hm : m.Safe host S) {e : ε} (h : E m.frames e) :
    (Run.fail e : Run ε α).Sound host S m E V := ⟨.refl m, hm, h⟩

theorem ofResult (hm : m.Safe host S) {r : Except ε α} (h : Ends (E m.frames) (V m.frames) r) :
    (Run.ofResult r).Sound host S m E V := ⟨.refl m, hm, h⟩

theorem readBind (f : Machine → α) {g : α → Run ε β} (h : (g (f m)).Sound host S m E W) :
    (Run.read f >>= g).Sound host S m E W := h

theorem mono {E₁ : Frames → ε → Prop} {V₁ : Frames → α → Prop} {x : Run ε α}
    (h : x.Sound host S m E V) (hE : ∀ s e, E s e → E₁ s e) (hV : ∀ s a, V s a → V₁ s a) :
    x.Sound host S m E₁ V₁ :=
  Outcome.All.mono h fun _ m' ⟨hevolves, hsafe, hends⟩ =>
    ⟨hevolves, hsafe, hends.mono (hE m'.frames) (hV m'.frames)⟩

theorem covers {x : Run ε α} (h : x.Sound host S m E fun _ _ => True) (hΓ : m.Covers Γ) :
    x.Sound host S m E fun s _ => s.Covers m.current Γ :=
  Outcome.All.mono h fun _ _ ⟨hevolves, hsafe, hends⟩ =>
    ⟨hevolves, hsafe, hends.mono (fun _ h => h) fun _ _ => Frames.Covers.grows hΓ hevolves.grows⟩

theorem any {x : Run ε α} (h : x.Sound host S m E V) : x.Sound host S m E fun _ _ => True :=
  h.mono (fun _ _ h => h) fun _ _ _ => trivial

/-- The same, seen from a machine before. -/
theorem after (hevolves : m.Evolves m') {x : Run ε α} (h : x.Sound host S m' E V) :
    (x m').All fun r n => m.Evolves n ∧ n.Safe host S ∧ Ends (E n.frames) (V n.frames) r :=
  Outcome.All.mono h fun _ _ hr => ⟨hevolves.trans hr.1, hr.2⟩

theorem continueWith {x : Run ε α} {f : Except ε α → Run ε' β} (hx : x.Sound host S m E V)
    (hf : ∀ r m', m.Evolves m' → m'.Safe host S → Ends (E m'.frames) (V m'.frames) r →
      (f r).Sound host S m' E' W) : (x.continueWith f).Sound host S m E' W := by
  refine Outcome.All.continueWith hx fun r m' ⟨hevolves, hsafe, hends⟩ => ?_
  exact (hf r m' hevolves hsafe hends).after hevolves

theorem bind {x : Run ε α} {f : α → Run ε β} (hx : x.Sound host S m E V)
    (hf : ∀ a m', m.Evolves m' → m'.Safe host S → V m'.frames a → (f a).Sound host S m' E W) :
    (x >>= f).Sound host S m E W := by
  refine Outcome.All.bind hx (fun a m' ⟨hevolves, hsafe, ha⟩ => ?_) fun e m' h => h
  exact (hf a m' hevolves hsafe ha).after hevolves

theorem mapError {x : Run ε α} {f : ε → ε'} (hx : x.Sound host S m E V)
    (hf : ∀ s e, E s e → E' s (f e)) : (x.mapError f).Sound host S m E' V :=
  continueWith hx fun _ m' _ hsafe hends => ofResult hsafe (hends.mapError (hf m'.frames))

theorem within {R : Frames → Value → Prop} {E : Frames → RuntimeError → Prop}
    {x : Run RuntimeError α} (hx : x.Sound host S m E V) :
    x.within.Sound host S m (fun s => Unwind.Meets (E s) (R s)) V :=
  mapError hx fun _ _ h => h

theorem inScope (hm : m.Safe host S) {f : FrameId} {x : Run ε α}
    (hx : x.Sound host S { m with current := f } E V) : (Run.inScope f x).Sound host S m E V := by
  refine Outcome.All.inScope (Outcome.All.mono hx fun r m' ⟨hevolves, hsafe, hends⟩ => ?_)
  have back : m.Evolves { m' with current := m.current } := hevolves.within m.current
  have hlt : m.current < m'.frames.all.size := Nat.lt_of_lt_of_le hm.bounded back.grows.size
  exact ⟨back, hsafe.within hm.inside hlt, hends⟩

theorem repeatWhile {round : Run ε Bool}
    (h : ∀ m', m.Evolves m' → m'.Safe host S → round.Sound host S m' E fun _ _ => True)
    (hm : m.Safe host S) (n : Nat) :
    (Run.repeatWhile round n).Sound host S m E fun _ _ => True := by
  induction n generalizing m with
  | zero => trivial
  | succ n ih =>
    rw [Run.repeatWhile_succ]
    refine bind (h m (.refl m) hm) fun again m₁ h₁ hm₁ _ => ?_
    split
    · exact ih (fun m' h' => h m' (h₁.trans h')) hm₁
    · exact pure hm₁ trivial

theorem print (hm : m.Safe host S) (text : String) :
    (Run.print text : Run ε Unit).Sound host S m E fun _ _ => True :=
  ⟨.single (.print text), hm.step (.print text) hm.guarded, trivial⟩

theorem define (hm : m.Safe host S) (f : FrameId) (name : String) {v : Value}
    (hv : v.Only (Callable.Scoped host S (m.frames.define f name v))) :
    (Run.define f name v : Run ε Unit).Sound host S m E fun s _ => s = m.frames.define f name v :=
  ⟨.single (.define f name v), hm.define f name hv, rfl⟩

theorem defineHere (hm : m.Safe host S) (hΓ : m.Covers Γ) (name : String) {v : Value}
    (hv : v.Only (Callable.Scoped host S (m.frames.define m.current name v))) :
    (Run.defineHere name v : Run ε Unit).Sound host S m E fun s _ =>
      s.Covers m.current (Γ.add name) := by
  refine .readBind _ ((define hm m.current name hv).mono (fun _ _ h => h) ?_)
  rintro s _ rfl
  exact Frames.Covers.define hΓ hm.bounded name v

theorem openScope (hm : m.Safe host S) {f : FrameId} (hf : S f) :
    (Run.openScope f : Run ε FrameId).Sound host S m E fun s g =>
      g = m.frames.all.size ∧ s = (m.frames.openScope f).2 :=
  ⟨.single (.openScope f), hm.openScope hf, rfl, rfl⟩

theorem newCallable (hm : m.Safe host S) (code : Code) :
    (Run.newCallable code : Run ε Callable).Sound host S m E fun s f => s = m.frames ∧ f.code = code :=
  ⟨.single .number, hm.step .number hm.guarded, rfl, rfl⟩

theorem bindAll (hm : m.Safe host S) {f : FrameId} (hf : f < m.frames.all.size)
    (hΓ : m.frames.Covers f Γ) (names : List String) {vs : List Value}
    (hlength : vs.length = names.length) (hvs : ∀ v ∈ vs, v.Only (Callable.Scoped host S m.frames)) :
    (Run.bindAll f names vs : Run ε Unit).Sound host S m E fun s _ => s.Covers f (names :: Γ) := by
  induction names generalizing m vs Γ with
  | nil => exact .pure hm (hΓ.cons (by simp))
  | cons name names ih =>
    cases vs with
    | nil => cases hlength
    | cons v vs =>
      rw [Run.bindAll]
      have hv := (hvs v (by simp)).grows (Frames.grows_define m.frames f name v)
      refine .bind (.define hm f name hv) fun _ m₁ h₁ hm₁ hframes => ?_
      have hf₁ : f < m₁.frames.all.size := Nat.lt_of_lt_of_le hf h₁.grows.size
      have hΓ₁ : m₁.frames.Covers f (Γ.add name) := hframes ▸ hΓ.define hf name v
      have hvs₁ : ∀ w ∈ vs, w.Only (Callable.Scoped host S m₁.frames) :=
        fun w hw => (hvs w (by simp [hw])).grows h₁.grows
      have hlength₁ : vs.length = names.length := Nat.succ.inj hlength
      refine (ih hm₁ hf₁ hΓ₁ hlength₁ hvs₁).mono (fun _ _ h => h) fun s _ h x hx => h x ?_
      -- The first parameter was added to the scope around, and counts among the parameters.
      simp only [Scopes.binds_cons, Scopes.binds_add, List.mem_cons] at hx ⊢
      exact or_left_comm.mp (or_assoc.mp hx)

theorem lookup (hm : m.Safe host S) (name : String) {E : Frames → Fault → Prop}
    (hE : m.frames.get? m.current name = none → E m.frames (.undefinedVariable name)) :
    (Run.lookup name).Sound host S m E fun s => Value.Only (Callable.Scoped host S s) := by
  change Outcome.All _ (Run.lookupIn m.current name m)
  simp only [Run.lookupIn]
  split
  · next v hv => exact ⟨.refl m, hm, hm.guarded.get? hm.inside hv⟩
  · next hnone => exact ⟨.refl m, hm, hE hnone⟩

theorem assign (hm : m.Safe host S) (name : String) {v : Value}
    (hv : v.Only (Callable.Scoped host S m.frames)) {E : Frames → Fault → Prop}
    (hE : m.frames.get? m.current name = none → E m.frames (.undefinedVariable name)) :
    (Run.assign name v).Sound host S m E fun _ _ => True := by
  change Outcome.All _ (Run.assignIn m.current name v m)
  simp only [Run.assignIn]
  split
  · next g _ =>
    have hsafe := hm.define g name (hv.grows (Frames.grows_define _ g name v))
    exact ⟨.single (.define g name v), hsafe, trivial⟩
  · next hnone => exact ⟨.refl m, hm, hE (Frames.owner?_eq_none_iff.mp hnone)⟩

theorem lookup_covered (hm : m.Safe host S) (hΓ : m.Covers Γ) {name : String} (h : Γ.binds name)
    {E : Frames → Fault → Prop} :
    (Run.lookup name).Sound host S m E fun s => Value.Only (Callable.Scoped host S s) := by
  have hsome := hΓ name h
  refine lookup hm name fun hnone => ?_
  rw [hnone] at hsome
  cases hsome

theorem assign_covered (hm : m.Safe host S) (hΓ : m.Covers Γ) {name : String} (h : Γ.binds name)
    {v : Value} (hv : v.Only (Callable.Scoped host S m.frames)) {E : Frames → Fault → Prop} :
    (Run.assign name v).Sound host S m E fun _ _ => True := by
  have hsome := hΓ name h
  refine assign hm name hv fun hnone => ?_
  rw [hnone] at hsome
  cases hsome

end Run.Sound

/-! ## The evaluator -/

section evaluator

variable {ctx : Context}

theorem Expr.evalList_sound {es : List Expr}
    (h : ∀ e ∈ es, ∀ m', m.Evolves m' → m'.Safe host S → (e.eval ctx).SoundValue host S m')
    (hm : m.Safe host S) :
    (Expr.evalList ctx es).Sound host S m (fun _ e => e.fault.Known) fun s vs =>
      ∀ v ∈ vs, v.Only (Callable.Scoped host S s) := by
  induction es generalizing m with
  | nil => exact .pure hm (by simp)
  | cons e es ih =>
    rw [Expr.evalList]
    refine .bind (h e (by simp) m (.refl m) hm) fun v m₁ h₁ hm₁ hv => ?_
    have hrest : ∀ e ∈ es, ∀ m', m₁.Evolves m' → m'.Safe host S →
        (e.eval ctx).SoundValue host S m' :=
      fun e he m' h' => h e (by simp [he]) m' (h₁.trans h')
    refine .bind (ih hrest hm₁) fun vs m₂ h₂ hm₂ hvs => .pure hm₂ ?_
    simp only [List.mem_cons]
    rintro w (rfl | hw)
    · exact hv.grows h₂.grows
    · exact hvs w hw

/-- Each statement leaves its frame as the check of the next one wants it. -/
theorem Stmt.execList_sound_of_forall {ss : List Stmt}
    (h : ∀ s ∈ ss, ∀ Γ m, m.Safe host S → m.Covers Γ → s.scoped Γ →
      (s.exec ctx).SoundUnwind host S m (s.after Γ))
    (hm : m.Safe host S) (hΓ : m.Covers Γ) (hss : Stmt.scopedList Γ ss) :
    (Stmt.execList ctx ss).SoundUnwind host S m Γ := by
  induction ss generalizing m Γ with
  | nil => exact .pure hm hΓ
  | cons s ss ih =>
    simp only [Stmt.scopedList, Bool.and_eq_true] at hss
    rw [Stmt.execList]
    refine .covers (.bind (h s (by simp) Γ m hm hΓ hss.1) fun _ m₁ h₁ hm₁ hafter => ?_) hΓ
    rw [← h₁.current] at hafter
    exact (ih (fun s hs => h s (by simp [hs])) hm₁ hafter hss.2).any

variable (hctx : SoundCalls host S ctx.invoke)
include hctx

theorem Context.apply_sound (hm : m.Safe host S) (pos : Pos) {callee : Value} {args : List Value}
    (hcallee : callee.Only (Callable.Scoped host S m.frames))
    (hargs : ∀ v ∈ args, v.Only (Callable.Scoped host S m.frames)) :
    (ctx.apply pos callee args).SoundValue host S m := by
  unfold Context.apply
  split
  · next f =>
    split
    · next hlength => exact hctx f args pos m hm (hcallee f rfl) hargs hlength
    · exact .fail hm nofun
  · exact .fail hm nofun

theorem Expr.eval_sound (e : Expr) (hm : m.Safe host S) (hΓ : m.Covers Γ) (he : e.scoped Γ) :
    (e.eval ctx).SoundValue host S m := by
  induction e generalizing m with
  | literal pos x => exact .pure hm (x.only_value _)
  | group pos e ih => exact ih hm hΓ he
  | unary pos op e ih =>
    refine .bind (ih hm hΓ he) fun v m₁ _ hm₁ _ => .ofResult hm₁ ?_
    refine (Value.ends_unary _ pos op e v).mapError ?_
    rintro f hf x rfl
    exact hf
  | binary pos op l r ihl ihr =>
    simp only [Expr.scoped, Bool.and_eq_true] at he
    refine .bind (ihl hm hΓ he.1) fun v m₁ h₁ hm₁ _ => ?_
    refine .bind (ihr hm₁ (hΓ.evolves h₁) he.2) fun w m₂ _ hm₂ _ => .ofResult hm₂ ?_
    refine (Value.ends_binary _ pos op l r v w).mapError ?_
    rintro f hf x rfl
    exact hf
  | logical pos op l r ihl ihr =>
    simp only [Expr.scoped, Bool.and_eq_true] at he
    rw [Expr.eval]
    refine .bind (ihl hm hΓ he.1) fun v m₁ h₁ hm₁ hv => ?_
    split
    · exact .pure hm₁ hv
    · exact ihr hm₁ (hΓ.evolves h₁) he.2
  | var pos name =>
    have hlookup := Run.Sound.lookup_covered hm hΓ he (E := fun _ _ => False)
    exact hlookup.mapError fun _ _ h => h.elim
  | assign pos name e ih =>
    simp only [Expr.scoped, Bool.and_eq_true] at he
    refine .bind (ih hm hΓ he.1) fun v m₁ h₁ hm₁ hv => ?_
    have hΓ₁ := hΓ.evolves h₁
    have hassign := Run.Sound.assign_covered hm₁ hΓ₁ he.2 hv (E := fun _ _ => False)
    refine .bind (hassign.mapError fun _ _ h => h.elim) fun _ m₂ h₂ hm₂ _ => ?_
    exact .pure hm₂ (hv.grows h₂.grows)
  | call pos callee args ihf ihargs =>
    simp only [Expr.scoped, Bool.and_eq_true, Expr.scopedList_iff] at he
    rw [Expr.eval]
    refine .bind (ihf hm hΓ he.1) fun f m₁ h₁ hm₁ hf => ?_
    have hargs : ∀ e ∈ args, ∀ m', m₁.Evolves m' → m'.Safe host S →
        (e.eval ctx).SoundValue host S m' :=
      fun e hmem m' h' hm' => ihargs e hmem hm' (hΓ.evolves (h₁.trans h')) (he.2 e hmem)
    refine .bind (Expr.evalList_sound hargs hm₁) fun vs m₂ h₂ hm₂ hvs => ?_
    exact Context.apply_sound hctx hm₂ pos (hf.grows h₂.grows) hvs

theorem Expr.evalOption_sound (o : Option Expr) (hm : m.Safe host S) (hΓ : m.Covers Γ)
    (ho : Expr.scopedOption Γ o) : (Expr.evalOption ctx o).SoundValue host S m := by
  cases o with
  | none => exact .pure hm Value.only_nil
  | some e => exact Expr.eval_sound hctx e hm hΓ ho

theorem Stmt.exec_sound (s : Stmt) (hm : m.Safe host S) (hΓ : m.Covers Γ) (hs : s.scoped Γ) :
    (s.exec ctx).SoundUnwind host S m (s.after Γ) := by
  induction s generalizing m Γ with
  | expression pos e =>
    have heval := Expr.eval_sound hctx e hm hΓ hs
    exact .covers (.bind (.within heval) fun _ _ _ hm₁ _ => .pure hm₁ trivial) hΓ
  | print pos e =>
    have heval := Expr.eval_sound hctx e hm hΓ hs
    exact .covers (.bind (.within heval) fun v _ _ hm₁ _ => .print hm₁ v.text) hΓ
  | declare pos name initial =>
    have heval := Expr.evalOption_sound hctx initial hm hΓ hs
    refine .bind (.within heval) fun v m₁ h₁ hm₁ hv => ?_
    have hv₁ := hv.grows (Frames.grows_define m₁.frames m₁.current name v)
    rw [← h₁.current]
    exact .defineHere hm₁ (hΓ.evolves h₁) name hv₁
  | block pos body ih =>
    rw [Stmt.exec]
    refine .covers (.readBind _ (.bind (.openScope hm hm.inside) ?_)) hΓ
    rintro _ m₁ h₁ hm₁ ⟨rfl, hframes⟩
    have hlt : m.frames.all.size < m₁.frames.all.size := by rw [hframes]; simp
    have hinner : m₁.frames.Covers m.frames.all.size ([] :: Γ) := by
      rw [hframes]
      exact (Frames.Covers.openScope hΓ hm.bounded).cons (by simp)
    have hsafe := hm₁.within (hm.fresh _ (Nat.le_refl _)) hlt
    have hbody := Stmt.execList_sound_of_forall (fun s hmem _ _ => ih s hmem) hsafe hinner hs
    exact .any (.inScope hm₁ hbody)
  | cond pos test onTrue onFalse iht ihf =>
    simp only [Stmt.scoped, Bool.and_eq_true] at hs
    obtain ⟨⟨htest, ht⟩, hf⟩ := hs
    rw [Stmt.exec]
    have heval := Expr.eval_sound hctx test hm hΓ htest
    refine .covers (.bind (.within heval) fun v m₁ h₁ hm₁ _ => ?_) hΓ
    have hΓ₁ := hΓ.evolves h₁
    split
    · exact (iht hm₁ hΓ₁ ht).any
    · cases onFalse with
      | none => exact .pure hm₁ trivial
      | some s => exact (ihf s rfl hm₁ hΓ₁ hf).any
  | loop pos test body ih =>
    simp only [Stmt.scoped, Bool.and_eq_true] at hs
    rw [Stmt.exec]
    refine .covers (.repeatWhile (fun m₁ h₁ hm₁ => ?_) hm _) hΓ
    have hΓ₁ := hΓ.evolves h₁
    have heval := Expr.eval_sound hctx test hm₁ hΓ₁ hs.1
    refine .bind (.within heval) fun v m₂ h₂ hm₂ _ => ?_
    split
    · exact .bind (ih hm₂ (hΓ₁.evolves h₂) hs.2) fun _ m₃ _ hm₃ _ => .pure hm₃ trivial
    · exact .pure hm₂ trivial
  | function pos name params body ih =>
    rw [Stmt.exec]
    refine .readBind _ (.bind (.newCallable hm _) fun f m₁ h₁ hm₁ hf => ?_)
    have hΓ₁ := hΓ.evolves h₁
    have hcode : f.code = .closure ⟨name, params, body⟩ m₁.current := by rw [hf.2, h₁.current]
    rw [← h₁.current]
    refine .defineHere hm₁ hΓ₁ name (Value.only_callable.mpr ?_)
    -- The function is scoped once its own name is bound around it.
    simp only [Callable.Scoped, hcode]
    refine ⟨hm₁.inside, by simpa using hm₁.bounded, Γ.add name, ?_, hs⟩
    exact Frames.Covers.define hΓ₁ hm₁.bounded name _
  | ret pos value =>
    have heval := Expr.evalOption_sound hctx value hm hΓ hs
    exact .bind (.within heval) fun v m₁ _ hm₁ hv => .fail hm₁ hv

theorem Stmt.execList_sound (ss : List Stmt) (hm : m.Safe host S) (hΓ : m.Covers Γ)
    (hss : Stmt.scopedList Γ ss) : (Stmt.execList ctx ss).SoundUnwind host S m Γ :=
  Stmt.execList_sound_of_forall (fun s _ _ _ => Stmt.exec_sound hctx s) hm hΓ hss

end evaluator

/-! ## Calls -/

theorem Action.perform_sound {ctx : Context} (hctx : SoundCalls host S ctx.invoke) (site : Pos)
    (a : Action) {known : Callable → Prop} (hm : m.Safe host S)
    (hknown : ∀ f, known f → f.Scoped host S m.frames) (ha : a.Obeys .scoped known) :
    (a.perform ctx site).SoundValue host S m := by
  induction a generalizing m known with
  | finish r =>
    refine .ofResult hm ?_
    cases r with
    | ok v => exact ha.mono hknown
    | error f => exact ha
  | print text next ih =>
    refine .bind (.print hm text) fun _ m₁ h₁ hm₁ _ => ?_
    exact ih hm₁ (fun f hf => (hknown f hf).grows h₁.grows) ha
  | depth next ih => exact .readBind _ (ih _ hm hknown (ha _))
  | lookup name next ih =>
    refine .continueWith (.lookup (E := fun _ _ => True) hm name fun _ => trivial)
      fun r m₁ h₁ hm₁ hr => ?_
    exact ih r hm₁ (learn_le hknown (fun f hf => hf.grows h₁.grows) hr) (ha r)
  | assign name v next ih =>
    obtain ⟨hv, hnext⟩ := ha
    refine .continueWith (.assign (E := fun _ _ => True) hm name (hv.mono hknown) fun _ => trivial)
      fun r m₁ h₁ hm₁ _ => ?_
    exact ih r hm₁ (fun f hf => (hknown f hf).grows h₁.grows) (hnext r)
  | define place name v next ih =>
    obtain ⟨_, hv, hnext⟩ := ha
    refine .readBind _ (.bind (.define hm _ name ?_) fun _ m₁ h₁ hm₁ _ => ?_)
    · exact (hv.mono hknown).grows (Frames.grows_define _ _ name v)
    · exact ih hm₁ (fun f hf => (hknown f hf).grows h₁.grows) hnext
  | call f vs inner next ih =>
    obtain ⟨hf, hvs, hlength, hnext⟩ := ha
    have hargs : ∀ v ∈ vs, v.Only (Callable.Scoped host S m.frames) :=
      fun v hv => (hvs v hv).mono hknown
    have hcall := hctx f vs inner m hm (hknown f hf) hargs hlength
    refine .continueWith hcall fun r m₁ h₁ hm₁ hr => ?_
    have hr : Ends Fault.Known (Value.Only (Callable.Scoped host S m₁.frames))
        (r.mapError (·.fault)) := hr.mapError fun _ he => he
    refine ih _ hm₁ (learn_le hknown (fun f hf => hf.grows h₁.grows) hr) (hnext _ ?_)
    exact hr.mono (fun _ hf => hf) fun _ _ => trivial
  | execute place body next ih => exact ha.2.1.elim

theorem Function.call_sound {ctx : Context} (hctx : SoundCalls host S ctx.invoke)
    (hm : m.Safe host S) {fn : Function} {scope : FrameId} (hscope : S scope)
    (hlt : scope < m.frames.all.size) (hΓ : m.frames.Covers scope Γ)
    (hbody : Stmt.scopedList (fn.params :: Γ) fn.body) {args : List Value}
    (hlength : args.length = fn.params.length)
    (hargs : ∀ v ∈ args, v.Only (Callable.Scoped host S m.frames)) :
    (fn.call ctx scope args).SoundValue host S m := by
  refine .bind (.openScope hm hscope) ?_
  rintro _ m₁ h₁ hm₁ ⟨rfl, hframes⟩
  have hlt₁ : m.frames.all.size < m₁.frames.all.size := by rw [hframes]; simp
  have hΓ₁ : m₁.frames.Covers m.frames.all.size Γ := hframes ▸ hΓ.openScope hlt
  have hargs₁ : ∀ v ∈ args, v.Only (Callable.Scoped host S m₁.frames) :=
    fun v hv => (hargs v hv).grows h₁.grows
  refine .bind (.bindAll hm₁ hlt₁ hΓ₁ fn.params hlength hargs₁) fun _ m₂ h₂ hm₂ hparams => ?_
  have hsafe := hm₂.within (hm.fresh _ (Nat.le_refl _)) (Nat.lt_of_lt_of_le hlt₁ h₂.grows.size)
  refine .continueWith (.inScope hm₂ (Stmt.execList_sound hctx fn.body hsafe hparams hbody)) ?_
  rintro (⟨e | v⟩ | _) m₃ _ hm₃ h
  · exact .fail hm₃ h
  · exact .pure hm₃ h
  · exact .pure hm₃ Value.only_nil

theorem Callable.call_sound (bound : Nat) : SoundCalls host S (Callable.call host bound) := by
  induction bound with
  | zero => exact fun _ _ _ _ _ _ _ _ => trivial
  | succ bound ih =>
    intro f args site m hm hf hargs hlength
    rw [Callable.call]
    simp only [Callable.Scoped, Callable.arity] at hf hlength
    split
    · next fn scope hcode =>
      rw [hcode] at hf hlength
      obtain ⟨hscope, hlt, Γ, hΓ, hbody⟩ := hf
      exact Function.call_sound ih hm hscope hlt hΓ hbody hlength hargs
    · next fn hcode =>
      simp only [hcode] at hf
      have hacts := hf.acts hargs fun _ _ hmade hobeys => .of_native hmade hobeys
      exact Action.perform_sound ih site _ hm (fun _ hg => hg) hacts

/-! ## Soundness of the check -/

theorem Machine.safe_inReach (hcurrent : m.current < m.frames.all.size)
    (values : ∀ f name c, m.frames.Reachable (· = m.current) f →
      m.frames.own? f name = some (.callable c) → c.isNative ∧ c.Obeys host .scoped) :
    m.Safe host (m.frames.InReach (· = m.current)) where
  guarded.link := (Frames.guarded_inReach m.frames _).link
  guarded.value f name v hf hv := by
    rintro c rfl
    obtain ⟨hnative, hobeys⟩ := values f name c (hf.reachable (Frames.lt_size_of_own? hv)) hv
    unfold Callable.isNative at hnative
    split at hnative
    · cases hnative
    · next fn hcode => exact .of_native hcode (hobeys fn hcode)
  inside := .inl (.root rfl)
  bounded := hcurrent
  fresh _ hf := .inr hf

/-- **Well-scoped programs never meet an undefined variable.** Let the check accept a program in the
scopes of the current frame, which between programs is that of the globals. Let there be no declared
functions in the frames in reach. Let the native functions there not fail with an undefined variable of
their own, call functions with as many arguments as they take, and run no code of their own. Then no run
of the program that ends does so with an undefined variable. -/
theorem Interpreter.interpret_scoped (host : Host) (bound : Nat) (program : Program) (m m' : Machine)
    (r : Except RuntimeError Unit) (hcurrent : m.current < m.frames.all.size)
    (values : ∀ f name c, m.frames.Reachable (· = m.current) f →
      m.frames.own? f name = some (.callable c) → c.isNative ∧ c.Obeys host .scoped)
    (accepted : Stmt.scopedList (m.frames.scopes m.current) program)
    (h : interpret host bound program m = .ended r m') :
    ∀ name pos, r ≠ .error ⟨.undefinedVariable name, pos⟩ := by
  have hbody : (Stmt.execList (.ofBound host bound) program).SoundUnwind host _ m _ :=
    Stmt.execList_sound (Callable.call_sound bound) program (Machine.safe_inReach hcurrent values)
      (Frames.covers_scopes m.frames m.current) accepted
  have hrun : (interpret host bound program).Sound host (m.frames.InReach (· = m.current)) m
      (fun _ e => e.fault.Known) fun _ _ => True := by
    refine .continueWith hbody ?_
    rintro (⟨e | v⟩ | _) m₁ _ hm₁ he
    · exact .fail hm₁ he
    · exact .pure hm₁ trivial
    · exact .pure hm₁ trivial
  rw [Run.Sound, h] at hrun
  rintro name pos rfl
  exact hrun.2.2 name rfl

/-- The machine that knows the time. -/
private def clocked : Machine :=
  { Machine.initial with
    frames := Frames.initial.define 0 "clock" (.callable ⟨0, .native Native.clock⟩)
    nextId := 1 }

/-- A function that leaves its scope and still uses a parameter there, kept in a variable and called from
a function that calls itself, after a declaration that is not run. -/
private def escaping : Program :=
  let read (name : String) : Expr := .variable ⟨1, 0⟩ name
  let call (callee : Expr) (args : List Expr) : Expr := .call ⟨1, 0⟩ callee args
  let step : List Stmt := [
    .expression ⟨1, 0⟩ (.assign ⟨1, 0⟩ "n" (.binary ⟨1, 0⟩ .add (read "n") (read "n"))),
    .return ⟨1, 0⟩ (some (read "n"))]
  let again : List Stmt := [.cond ⟨2, 0⟩ (read "go") (.block ⟨2, 0⟩ [.print ⟨2, 0⟩ (call (read "c") []),
    .expression ⟨2, 0⟩ (call (read "again") [.literal ⟨2, 0⟩ (.bool false)])]) none]
  [.function ⟨1, 0⟩ "counter" ["n"]
      [.function ⟨1, 0⟩ "step" [] step, .return ⟨1, 0⟩ (some (read "step"))],
    .declare ⟨2, 0⟩ "c" (some (call (read "counter") [.literal ⟨2, 0⟩ (.string "a")])),
    .cond ⟨2, 0⟩ (.literal ⟨2, 0⟩ .nil) (.declare ⟨2, 0⟩ "d" (some (call (read "clock") []))) none,
    .block ⟨2, 0⟩ [.function ⟨2, 0⟩ "again" ["go"] again,
      .expression ⟨2, 0⟩ (call (read "again") [.literal ⟨2, 0⟩ (.bool true)])],
    .print ⟨3, 0⟩ (call (read "c") [])]

theorem Interpreter.interpret_scoped_escaping :
    ∃ m' r, interpret (Native.clockHost (.ofInt 0)) 9 escaping clocked = .ended r m' ∧
      m'.buffer.contents = "aa\naaaa\n" ∧ ∀ name pos, r ≠ .error ⟨.undefinedVariable name, pos⟩ := by
  have values : ∀ f name c, clocked.frames.Reachable (· = clocked.current) f →
      clocked.frames.own? f name = some (.callable c) →
      c.isNative ∧ c.Obeys (Native.clockHost (.ofInt 0)) .scoped := by
    intro f name c _ h
    rw [clocked, Frames.own?_define, Frames.own?_initial] at h
    split at h
    · cases h; exact ⟨rfl, fun fn _ => Native.clock_obeys _ _ fn⟩
    · cases h
  have printed : (interpret (Native.clockHost (.ofInt 0)) 9 escaping clocked).final?.map
      (·.buffer.contents) = some "aa\naaaa\n" := by decide +kernel
  cases h : interpret (Native.clockHost (.ofInt 0)) 9 escaping clocked with
  | exhausted => simp [h, Outcome.final?] at printed
  | ended r m' =>
    rw [h] at printed
    refine ⟨m', r, rfl, Option.some.inj printed, ?_⟩
    exact interpret_scoped _ 9 escaping clocked m' r (by decide) values (by decide +kernel) h

end Lox
