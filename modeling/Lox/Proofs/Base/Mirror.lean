import Lox.Native.Toolkit
import Lox.Proofs.Base.Likeness
import Mathlib.Order.Basic
import Mathlib.Data.List.Forall2

/-!
# Native functions that cannot tell like values apart

A statement on runs of two programs has to say what native functions do in both. They get arguments that
are alike, but not equal: a declared function is another value in a program where it is declared in other
words. So native functions are taken to act alike on like arguments (`Native.Mirrors`), whichever relation
their function values are alike by. That is to say, they do not look inside function values.

What else a native function may do depends on what the two machines have in common, which an `Access`
says.
-/

namespace Lox

/-- What a native function may see and change of the machine, besides printing and calling native
functions. If nothing is said, it may do nothing else. -/
structure Access where
  /-- It may look up and assign names. -/
  names : Prop := False
  /-- It may measure the depth of the current frame. -/
  depth : Prop := False
  /-- It may call declared functions, and with any number of arguments. -/
  declared : Prop := False
  /-- The frames that it may bind names in. -/
  defines : Place → Prop := fun _ => False
  /-- The code that it may run in a frame. -/
  runs : Place → List Stmt → Prop := fun _ _ => False
  /-- The positions that it cannot tell apart in the errors of code that it runs. -/
  positions : Pos → Pos → Prop := (· = ·)

/-- Two native functions that share the function values in `F` do the same as far as they can see, and
nothing that `c` does not allow. An answer may teach them more function values. -/
inductive Action.Mirrors (c : Access) : (Callable → Callable → Prop) → Action → Action → Prop
  | finish {F : Callable → Callable → Prop} {r r' : Except Fault Value}
    (h : BothEnd (· = ·) (Value.Like F) r r') : Mirrors c F (.finish r) (.finish r')
  | print {F : Callable → Callable → Prop} {next next' : Action} (text : String)
    (h : Mirrors c F next next') : Mirrors c F (.print text next) (.print text next')
  | depth {F : Callable → Callable → Prop} {next next' : Nat → Action} (hc : c.depth)
    (h : ∀ n, Mirrors c F (next n) (next' n)) : Mirrors c F (.depth next) (.depth next')
  | lookup {F : Callable → Callable → Prop} {next next' : Except Fault Value → Action} (hc : c.names)
    (name : String) (h : ∀ G, F ≤ G → G ≤ Callable.Resembles → ∀ r r',
      BothEnd (· = ·) (Value.Like G) r r' → Mirrors c G (next r) (next' r')) :
    Mirrors c F (.lookup name next) (.lookup name next')
  | assign {F : Callable → Callable → Prop} {v v' : Value} {next next' : Except Fault Unit → Action}
    (hc : c.names) (name : String) (hv : v.Like F v') (h : ∀ r, Mirrors c F (next r) (next' r)) :
    Mirrors c F (.assign name v next) (.assign name v' next')
  | define {F : Callable → Callable → Prop} {place : Place} {v v' : Value} {next next' : Action}
    (hc : c.defines place) (name : String) (hv : v.Like F v') (h : Mirrors c F next next') :
    Mirrors c F (.define place name v next) (.define place name v' next')
  | call {F : Callable → Callable → Prop} {f f' : Callable} {args args' : List Value}
    {next next' : Except Fault Value → Action} (hc : f.isNative ∨ c.declared) (hf : F f f')
    (hargs : List.Forall₂ (Value.Like F) args args') (site : Pos)
    (h : ∀ G, F ≤ G → G ≤ Callable.Resembles → ∀ r r', BothEnd (· = ·) (Value.Like G) r r' →
      Mirrors c G (next r) (next' r')) :
    Mirrors c F (.call f args site next) (.call f' args' site next')
  | execute {F : Callable → Callable → Prop} {place : Place} {body : List Stmt}
    {next next' : Except Unwind Unit → Action} (hc : c.runs place body)
    (h : ∀ G, F ≤ G → G ≤ Callable.Resembles → ∀ r r',
      BothEnd (Unwind.Like (RuntimeError.Like c.positions) G) (· = ·) r r' →
      Mirrors c G (next r) (next' r')) :
    Mirrors c F (.execute place body next) (.execute place body next')

theorem Action.Mirrors.value {c : Access} {F : Callable → Callable → Prop} {v v' : Value}
    (h : v.Like F v') : Mirrors c F (.value v) (.value v') := .finish h

/-- On like arguments the native function acts alike, and so do the native functions that it makes, and
those that they make. -/
def Native.Mirrors (host : Host) (c : Access) (fn : Native) : Prop :=
  ∃ inPlay : Native → Prop, inPlay fn ∧
    ∀ g, inPlay g → ∀ F ≤ Callable.Resembles, (∀ id h, inPlay h → F ⟨id, .native h⟩ ⟨id, .native h⟩) →
      ∀ args args', List.Forall₂ (Value.Like F) args args' → (host g args).Mirrors c F (host g args')

section natives

variable {host : Host} {c : Access} {fn : Native}

theorem Native.Mirrors.of_args (h : ∀ F ≤ Callable.Resembles, ∀ args args',
    List.Forall₂ (Value.Like F) args args' → (host fn args).Mirrors c F (host fn args')) :
    fn.Mirrors host c := by
  refine ⟨(· = fn), rfl, ?_⟩
  rintro _ rfl F hF _ args args' hargs
  exact h F hF args args' hargs

/-- One goes on from a relation that holds of all native functions that act alike. -/
theorem Native.Mirrors.acts (h : fn.Mirrors host c) {F : Callable → Callable → Prop}
    (hF : F ≤ Callable.Resembles) (hmade : ∀ id g, g.Mirrors host c → F ⟨id, .native g⟩ ⟨id, .native g⟩)
    {args args' : List Value} (hargs : List.Forall₂ (Value.Like F) args args') :
    (host fn args).Mirrors c F (host fn args') := by
  obtain ⟨inPlay, hfn, hacts⟩ := h
  exact hacts fn hfn F hF (fun id g hg => hmade id g ⟨inPlay, hg, hacts⟩) args args' hargs

/-- If the function is native, then it acts alike on like arguments. -/
def Callable.Mirrors (host : Host) (c : Access) (f : Callable) : Prop :=
  ∀ fn, f.code = .native fn → fn.Mirrors host c

end natives

/-! ## The native functions at hand -/

namespace Native

namespace Toolkit

theorem arg_like {F : Callable → Callable → Prop} {args args' : List Value}
    (h : List.Forall₂ (Value.Like F) args args') (i : Nat) :
    (arg args i).Like F (arg args' i) := by
  induction h generalizing i with
  | nil => exact .nil
  | cons hv _ ih =>
    cases i with
    | zero => exact hv
    | succ i => exact ih i

/-- All that the function of the toolkit may do is allowed. -/
structure Allows (c : Access) (name : String) : Prop where
  names : name = "getHere" ∨ name = "setHere" → c.names
  depth : name = "depth" → c.depth
  declared : name = "apply" ∨ name = "apply2" → c.declared
  globals : name = "setGlobal" → c.defines .globals
  current : name = "defHere" → c.defines .current

theorem applying_mirrors {c : Access} (hc : c.declared) {F : Callable → Callable → Prop} {v v' : Value}
    (hv : v.Like F v') {args args' : List Value} (hargs : List.Forall₂ (Value.Like F) args args') :
    (applying v args).Mirrors c F (applying v' args') := by
  cases hv with
  | callable hf => exact .call (.inr hc) hf hargs callSite fun _ _ _ _ _ hr => .finish hr
  | nil | bool _ | number _ | string _ => exact .finish rfl

/-- The functions of the toolkit do not look inside function values. -/
theorem mirrors_of_allows (now : Number) {c : Access} {fn : Native} (hc : Allows c fn.name) :
    fn.Mirrors (host now) c := by
  refine .of_args fun F hF args args' hargs => ?_
  have hx (i : Nat) : (arg args i).Like F (arg args' i) := arg_like hargs i
  have htext (i : Nat) : (arg args i).text = (arg args' i).text := (hx i).text hF
  obtain ⟨name, arity⟩ := fn
  unfold host
  split
  · exact .value (.number now)
  · unfold action
    dsimp only
    split
    · exact .finish rfl
    · rw [htext]
      exact .finish rfl
    · exact .value (hx 0)
    · rw [htext, htext, htext]
      exact .value (.string _)
    · rw [(hx 0).same hF (hx 1)]
      exact .value (.bool _)
    · exact .depth (hc.depth rfl) fun n => .value (.number _)
    · rw [htext]
      exact .print _ (.value .nil)
    · rw [htext]
      exact .define (hc.globals rfl) _ (hx 1) (.value .nil)
    · rw [htext]
      exact .lookup (hc.names (.inl rfl)) _ fun _ _ _ _ _ hr => .finish hr
    · rw [htext]
      refine .assign (hc.names (.inr rfl)) _ (hx 1) ?_
      rintro (f | _)
      · exact .finish rfl
      · exact .finish (hx 1)
    · rw [htext]
      exact .define (hc.current rfl) _ (hx 1) (.value .nil)
    · exact applying_mirrors (hc.declared (.inl rfl)) (hx 0) .nil
    · exact applying_mirrors (hc.declared (.inr rfl)) (hx 0) (.cons (hx 1) (.cons (hx 2) .nil))
    · exact .value .nil

/-- The functions of the toolkit that work on their arguments only, print, and measure the depth. -/
theorem mirrors (now : Number) {c : Access} (hc : c.depth) {fn : Native}
    (hfn : fn.name ∉ ["setGlobal", "getHere", "setHere", "defHere", "apply", "apply2"]) :
    fn.Mirrors (host now) c := by
  refine mirrors_of_allows now ?_
  simp only [List.mem_cons, List.not_mem_nil, not_or, or_false] at hfn
  exact {
    names := fun h => h.elim (absurd · hfn.2.1) (absurd · hfn.2.2.1)
    depth := fun _ => hc
    declared := fun h => h.elim (absurd · hfn.2.2.2.2.1) (absurd · hfn.2.2.2.2.2)
    globals := fun h => absurd h hfn.1
    current := fun h => absurd h hfn.2.2.2.1 }

end Toolkit

end Native

end Lox
