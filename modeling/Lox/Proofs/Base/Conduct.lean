import Lox.Native.Toolkit
import Lox.Proofs.Base.Frames
import Lox.Proofs.Base.Outcome

/-!
# The conduct of native functions

A native function belongs to the host, and nothing is known of it but what a theorem assumes. Such
assumptions are stated here once, on the tree of its actions. In all of them a native function hands on
only function values that it was given, as an argument, as the value of a name or by a call, and native
functions that act as it does. A `Conduct` says what else is asked of it.
-/

namespace Lox

/-- What is asked of a native function, besides that it makes up no declared functions. If nothing is
said, it runs no code of its own. -/
structure Conduct where
  /-- The faults that it may end with. -/
  ends : Fault → Prop := fun _ => True
  /-- The faults that the functions it calls are promised to end with. -/
  hears : Fault → Prop := fun _ => True
  /-- The calls that it may make. -/
  calls : Callable → List Value → Prop := fun _ _ => True
  /-- The frames that it may bind names and run code in. -/
  reaches : Place → Prop := fun _ => True
  /-- The code that it may run. -/
  runs : List Stmt → Prop := fun _ => False

/-- The function values that one knows after an answer. -/
def learn (known : Callable → Prop) (r : Except Fault Value) : Callable → Prop :=
  fun f => known f ∨ r = .ok (.callable f)

theorem learn_le {F G known : Callable → Prop} {E : Fault → Prop} {r : Except Fault Value}
    (hknown : ∀ f, known f → F f) (hFG : ∀ f, F f → G f) (hr : Ends E (Value.Only G) r) :
    ∀ f, learn known r f → G f := by
  rintro f (hf | rfl)
  · exact hFG f (hknown f hf)
  · exact hr f rfl

/-- The function values that one knows after code has run. -/
def learnReturn (known : Callable → Prop) (r : Except Unwind Unit) : Callable → Prop :=
  fun f => known f ∨ r = .error (.return (.callable f))

/-- The action of a native function that knows the function values `known` is as `c` asks. -/
def Action.Obeys (c : Conduct) : Action → (Callable → Prop) → Prop
  | finish (.ok v), known => v.Only known
  | finish (.error f), _ => c.ends f
  | print _ next, known => next.Obeys c known
  | depth next, known => ∀ n, (next n).Obeys c known
  | lookup _ next, known => ∀ r, (next r).Obeys c (learn known r)
  | assign _ v next, known => v.Only known ∧ ∀ r, (next r).Obeys c known
  | define place _ v next, known => c.reaches place ∧ v.Only known ∧ next.Obeys c known
  | call f args _ next, known =>
    known f ∧ (∀ v ∈ args, v.Only known) ∧ c.calls f args ∧
      ∀ r, Ends c.hears (fun _ => True) r → (next r).Obeys c (learn known r)
  | execute place body next, known =>
    c.reaches place ∧ c.runs body ∧ ∀ r, (next r).Obeys c (learnReturn known r)

theorem Action.Obeys.mono {c : Conduct} {a : Action} {known known' : Callable → Prop}
    (h : a.Obeys c known) (hle : ∀ f, known f → known' f) : a.Obeys c known' := by
  induction a generalizing known known' with
  | finish r =>
    cases r with
    | ok v => exact Value.Only.mono h hle
    | error f => exact h
  | print text next ih => exact ih h hle
  | depth next ih => exact fun n => ih n (h n) hle
  | lookup name next ih => exact fun r => ih r (h r) fun f => Or.imp_left (hle f)
  | assign name v next ih => exact ⟨h.1.mono hle, fun r => ih r (h.2 r) hle⟩
  | define place name v next ih => exact ⟨h.1, h.2.1.mono hle, ih h.2.2 hle⟩
  | call f args inner next ih =>
    obtain ⟨hf, hargs, hcalls, hnext⟩ := h
    refine ⟨hle f hf, fun v hv => (hargs v hv).mono hle, hcalls, fun r hr => ?_⟩
    exact ih r (hnext r hr) fun f => Or.imp_left (hle f)
  | execute place body next ih =>
    obtain ⟨hplace, hbody, hnext⟩ := h
    exact ⟨hplace, hbody, fun r => ih r (hnext r) fun f => Or.imp_left (hle f)⟩

/-- Nothing is asked but that no declared functions are made up. -/
def Conduct.any : Conduct where
  runs _ := True

/-- Who knows all function values makes none up. -/
theorem Action.obeys_of_forall (a : Action) {known : Callable → Prop} (h : ∀ f, known f) :
    a.Obeys .any known := by
  induction a generalizing known with
  | finish r =>
    cases r with
    | ok v => exact fun f _ => h f
    | error f => trivial
  | print text next ih => exact ih h
  | depth next ih => exact fun n => ih n h
  | lookup name next ih => exact fun r => ih r fun f => .inl (h f)
  | assign name v next ih => exact ⟨fun f _ => h f, fun r => ih r h⟩
  | define place name v next ih => exact ⟨trivial, fun f _ => h f, ih h⟩
  | call f args inner next ih =>
    exact ⟨h f, fun _ _ g _ => h g, trivial, fun r _ => ih r fun g => .inl (h g)⟩
  | execute place body next ih => exact ⟨trivial, trivial, fun r => ih r fun f => .inl (h f)⟩

/-- The function values that a native function knows at the start: those among its arguments, and the
native functions in `inPlay`, which it may make. -/
def handed (inPlay : Native → Prop) (args : List Value) : Callable → Prop :=
  fun f => .callable f ∈ args ∨ ∃ fn, f.code = .native fn ∧ inPlay fn

/-- Whatever arguments it is given, the native function acts as `c` asks. So do the native functions that
it makes, and those that they make. -/
def Native.Obeys (host : Host) (c : Conduct) (fn : Native) : Prop :=
  ∃ inPlay : Native → Prop, inPlay fn ∧
    ∀ g, inPlay g → ∀ args, (host g args).Obeys c (handed inPlay args)

section natives

variable {host : Host} {c : Conduct} {fn : Native}

theorem Native.Obeys.of_args (h : ∀ args, (host fn args).Obeys c fun f => .callable f ∈ args) :
    fn.Obeys host c := by
  refine ⟨(· = fn), rfl, ?_⟩
  rintro _ rfl args
  exact (h args).mono fun _ hf => .inl hf

/-- One goes on from a set that holds the arguments and all native functions that act as `c` asks. -/
theorem Native.Obeys.acts (h : fn.Obeys host c) {F : Callable → Prop} {args : List Value}
    (hargs : ∀ v ∈ args, v.Only F)
    (hmade : ∀ f g, f.code = .native g → g.Obeys host c → F f) : (host fn args).Obeys c F := by
  obtain ⟨inPlay, hfn, hacts⟩ := h
  refine (hacts fn hfn args).mono ?_
  rintro f (hf | ⟨g, hcode, hg⟩)
  · exact hargs _ hf f rfl
  · exact hmade f g hcode ⟨inPlay, hg, hacts⟩

end natives

/-- The function value is no native function, or one that acts as `c` asks. -/
def Callable.Obeys (host : Host) (c : Conduct) (f : Callable) : Prop :=
  ∀ fn, f.code = .native fn → fn.Obeys host c

theorem Callable.Obeys.of_native {host : Host} {c : Conduct} {f : Callable} {fn : Native}
    (hcode : f.code = .native fn) (h : fn.Obeys host c) : f.Obeys host c := by
  intro g hg
  cases hcode.symm.trans hg
  exact h

/-! ## The native functions at hand -/

namespace Native

theorem clock_obeys (now : Number) (c : Conduct) (fn : Native) : fn.Obeys (clockHost now) c :=
  .of_args fun _ => Value.only_number

namespace Toolkit

theorem arg_only {F : Callable → Prop} {args : List Value} (h : ∀ v ∈ args, v.Only F) (i : Nat) :
    (arg args i).Only F := by
  unfold arg
  cases hi : args[i]? with
  | none => exact Value.only_nil
  | some v => exact h v (List.mem_of_getElem? hi)

end Toolkit

end Native

end Lox
