import Lox.Native.Toolkit
import Lox.Value.Operators
import Lox.Proofs.Base.Likeness
import Lox.Proofs.Numbers.Literals

/-!
# Values that are equal up to the bits of NaNs

Function values are equal up to the bits of NaNs if what they run is (`Callable.EqUpToNaN`), and native
functions are blind to the bits of NaNs if they act alike on such values (`Host.BlindToNaNs`). Operators and
`print` are blind, as the operations on numbers are.
-/

namespace Lox

/-- The function values are one native function, or a function that was captured in one frame, and declared
by syntax trees that are equal, signed zeros aside. -/
inductive Callable.EqUpToNaN : Callable → Callable → Prop
  | native (id : Nat) (fn : Native) : EqUpToNaN ⟨id, .native fn⟩ ⟨id, .native fn⟩
  | closure (id : Nat) (name : String) (params : List String) (scope : FrameId) {body body' : Program}
    (h : Program.EqUpToNaN body body') :
    EqUpToNaN ⟨id, .closure ⟨name, params, body⟩ scope⟩ ⟨id, .closure ⟨name, params, body'⟩ scope⟩

/-- The values are equal, but for the bits of NaNs. -/
inductive Value.EqUpToNaN : Value → Value → Prop
  | nil : EqUpToNaN .nil .nil
  | bool (b : Bool) : EqUpToNaN (.bool b) (.bool b)
  | number {x y : Number} (h : x.EqUpToNaN y) : EqUpToNaN (.number x) (.number y)
  | string (text : String) : EqUpToNaN (.string text) (.string text)
  | callable {f g : Callable} (h : f.EqUpToNaN g) : EqUpToNaN (.callable f) (.callable g)

inductive Unwind.EqUpToNaN : Unwind → Unwind → Prop
  | error (e : RuntimeError) : EqUpToNaN (.error e) (.error e)
  | return {v w : Value} (h : v.EqUpToNaN w) : EqUpToNaN (.return v) (.return w)

theorem Callable.EqUpToNaN.resembles {f g : Callable} (h : f.EqUpToNaN g) : f.Resembles g := by
  cases h <;> exact ⟨rfl, rfl, rfl, rfl⟩

theorem Callable.EqUpToNaN.refl (f : Callable) : f.EqUpToNaN f := by
  obtain ⟨id, code⟩ := f
  cases code with
  | native fn => exact .native id fn
  | closure fn scope => exact .closure id fn.name fn.params scope (.refl fn.body)

namespace Value.EqUpToNaN

variable {v v' w w' : Value}

theorem refl (v : Value) : v.EqUpToNaN v := by
  cases v with
  | nil => exact .nil
  | bool b => exact .bool b
  | number x => exact .number (.refl x)
  | string text => exact .string text
  | callable f => exact .callable (.refl f)

theorem literal {x y : Literal} (h : x.EqUpTo Number.EqUpToNaN y) : x.value.EqUpToNaN y.value := by
  cases h with
  | number h => exact .number h
  | string text => exact .string text
  | bool b => exact .bool b
  | nil => exact .nil

theorem isTruthy (h : v.EqUpToNaN v') : v.isTruthy = v'.isTruthy := by cases h <;> rfl

theorem text (h : v.EqUpToNaN v') : v.text = v'.text := by
  cases h with
  | number h => rw [Value.text, Value.text, h.write]
  | callable h => rw [Value.text, Value.text, h.resembles.native, h.resembles.name]
  | nil | bool _ | string _ => rfl

/-! ## Operators -/

theorem unary (h : v.EqUpToNaN v') (op : UnaryOp) :
    BothEnd (· = ·) Value.EqUpToNaN (v.unary op) (v'.unary op) := by
  cases op with
  | not =>
    rw [Value.unary, Value.unary, h.isTruthy]
    exact .bool _
  | negate =>
    cases h with
    | number h => exact .number h.neg
    | nil | bool _ | string _ | callable _ => rfl

theorem numbers (h : v.EqUpToNaN v') (h' : w.EqUpToNaN w') :
    BothEnd (· = ·) (fun p q => p.1.EqUpToNaN q.1 ∧ p.2.EqUpToNaN q.2) (Value.numbers v w)
      (Value.numbers v' w') := by
  cases h <;> cases h' <;> first | rfl | exact ⟨‹_›, ‹_›⟩

theorem arith {op : Number → Number → Number} (h : v.EqUpToNaN v') (h' : w.EqUpToNaN w')
    (hop : ∀ {x x' y y' : Number}, x.EqUpToNaN x' → y.EqUpToNaN y' → op x y = op x' y') :
    BothEnd (· = ·) Value.EqUpToNaN (Value.arith op v w) (Value.arith op v' w') :=
  (h.numbers h').map fun _ _ hp => .number (.inl (hop hp.1 hp.2))

theorem compare {test : Number → Number → Bool} (h : v.EqUpToNaN v') (h' : w.EqUpToNaN w')
    (htest : ∀ {x x' y y' : Number}, x.EqUpToNaN x' → y.EqUpToNaN y' → test x y = test x' y') :
    BothEnd (· = ·) Value.EqUpToNaN (Value.compare test v w) (Value.compare test v' w') := by
  refine (h.numbers h').map fun p q hp => ?_
  rw [htest hp.1 hp.2]
  exact .bool _

theorem add (h : v.EqUpToNaN v') (h' : w.EqUpToNaN w') :
    BothEnd (· = ·) Value.EqUpToNaN (Value.add v w) (Value.add v' w') := by
  cases h with
  | number h =>
    cases h' with
    | number h' => exact .number (.inl (h.add h'))
    | nil | bool _ | string _ | callable _ => rfl
  | string text =>
    cases h' with
    | string text' => exact .string _
    | nil | bool _ | number _ | callable _ => rfl
  | nil | bool _ | callable _ => cases h' <;> rfl

theorem same (h : v.EqUpToNaN v') (h' : w.EqUpToNaN w') : v.same w = v'.same w' := by
  cases h with
  | number h =>
    cases h' with
    | number h' => exact h.ieeeEq h'
    | nil | bool _ | string _ | callable _ => rfl
  | callable h =>
    cases h' with
    | callable h' => rw [Value.same, Value.same, h.resembles.id, h'.resembles.id]
    | nil | bool _ | number _ | string _ => rfl
  | nil | bool _ | string _ => cases h' <;> rfl

theorem binary (h : v.EqUpToNaN v') (h' : w.EqUpToNaN w') (op : BinaryOp) :
    BothEnd (· = ·) Value.EqUpToNaN (Value.binary op v w) (Value.binary op v' w') := by
  cases op with
  | equal | notEqual =>
    rw [Value.binary, Value.binary, same h h']
    exact .bool _
  | less => exact h.compare h' Number.EqUpToNaN.lt
  | lessEqual => exact h.compare h' Number.EqUpToNaN.le
  | greater => exact h.compare h' fun hx hy => hy.lt hx
  | greaterEqual => exact h.compare h' fun hx hy => hy.le hx
  | add => exact h.add h'
  | subtract => exact h.arith h' Number.EqUpToNaN.sub
  | multiply => exact h.arith h' Number.EqUpToNaN.mul
  | divide => exact h.arith h' Number.EqUpToNaN.div

end Value.EqUpToNaN

/-! ## Native functions -/

/-- Two native functions do the same, but for the bits of NaNs, and go on so with all answers that are equal
but for these. -/
inductive Action.EqUpToNaN : Action → Action → Prop
  | finish {r r' : Except Fault Value} (h : BothEnd (· = ·) Value.EqUpToNaN r r') :
    EqUpToNaN (.finish r) (.finish r')
  | print (text : String) {next next' : Action} (h : EqUpToNaN next next') :
    EqUpToNaN (.print text next) (.print text next')
  | depth {next next' : Nat → Action} (h : ∀ n, EqUpToNaN (next n) (next' n)) :
    EqUpToNaN (.depth next) (.depth next')
  | lookup (name : String) {next next' : Except Fault Value → Action}
    (h : ∀ r r', BothEnd (· = ·) Value.EqUpToNaN r r' → EqUpToNaN (next r) (next' r')) :
    EqUpToNaN (.lookup name next) (.lookup name next')
  | assign (name : String) {v v' : Value} (hv : v.EqUpToNaN v') {next next' : Except Fault Unit → Action}
    (h : ∀ r, EqUpToNaN (next r) (next' r)) : EqUpToNaN (.assign name v next) (.assign name v' next')
  | define (place : Place) (name : String) {v v' : Value} (hv : v.EqUpToNaN v') {next next' : Action}
    (h : EqUpToNaN next next') : EqUpToNaN (.define place name v next) (.define place name v' next')
  | call {f f' : Callable} (hf : f.EqUpToNaN f') {args args' : List Value}
    (hargs : List.Forall₂ Value.EqUpToNaN args args') (site : Pos)
    {next next' : Except Fault Value → Action}
    (h : ∀ r r', BothEnd (· = ·) Value.EqUpToNaN r r' → EqUpToNaN (next r) (next' r')) :
    EqUpToNaN (.call f args site next) (.call f' args' site next')
  | execute (place : Place) {body body' : Program} (hbody : Program.EqUpToNaN body body')
    {next next' : Except Unwind Unit → Action}
    (h : ∀ r r', BothEnd Unwind.EqUpToNaN (· = ·) r r' → EqUpToNaN (next r) (next' r')) :
    EqUpToNaN (.execute place body next) (.execute place body' next')

/-- Native functions do not distinguish NaNs. On arguments that are equal but for the bits of NaNs they do the
same. -/
def Host.BlindToNaNs (host : Host) : Prop :=
  ∀ fn args args', List.Forall₂ Value.EqUpToNaN args args' → (host fn args).EqUpToNaN (host fn args')

theorem Action.EqUpToNaN.value {v v' : Value} (h : v.EqUpToNaN v') :
    EqUpToNaN (.value v) (.value v') := .finish h

namespace Native

theorem clockHost_blind (now : Number) : (clockHost now).BlindToNaNs :=
  fun _ _ _ _ => .value (.refl _)

namespace Toolkit

theorem arg_eqUpToNaN {args args' : List Value} (h : List.Forall₂ Value.EqUpToNaN args args') (i : Nat) :
    (arg args i).EqUpToNaN (arg args' i) := by
  induction h generalizing i with
  | nil => exact .nil
  | cons hv _ ih =>
    cases i with
    | zero => exact hv
    | succ i => exact ih i

theorem applying_eqUpToNaN {v v' : Value} (hv : v.EqUpToNaN v') {args args' : List Value}
    (hargs : List.Forall₂ Value.EqUpToNaN args args') :
    (applying v args).EqUpToNaN (applying v' args') := by
  cases hv with
  | callable hf => exact .call hf hargs callSite fun _ _ hr => .finish hr
  | nil | bool _ | number _ | string _ => exact .finish rfl

/-- The functions of the toolkit do not distinguish NaNs. -/
theorem blind (now : Number) : (host now).BlindToNaNs := by
  intro fn args args' hargs
  have hx (i : Nat) : (arg args i).EqUpToNaN (arg args' i) := arg_eqUpToNaN hargs i
  have htext (i : Nat) : (arg args i).text = (arg args' i).text := (hx i).text
  unfold host
  split
  · exact clockHost_blind now fn args args' hargs
  · unfold action
    dsimp only
    split
    · exact .finish rfl
    · rw [htext]
      exact .finish rfl
    · exact .value (hx 0)
    · rw [htext, htext, htext]
      exact .value (.string _)
    · rw [(hx 0).same (hx 1)]
      exact .value (.bool _)
    · exact .depth fun n => .value (.refl _)
    · rw [htext]
      exact .print _ (.value .nil)
    · rw [htext]
      exact .define .globals _ (hx 1) (.value .nil)
    · rw [htext]
      exact .lookup _ fun _ _ hr => .finish hr
    · rw [htext]
      refine .assign _ (hx 1) ?_
      rintro (f | _)
      · exact .finish rfl
      · exact .finish (hx 1)
    · rw [htext]
      exact .define .current _ (hx 1) (.value .nil)
    · exact applying_eqUpToNaN (hx 0) .nil
    · exact applying_eqUpToNaN (hx 0) (.cons (hx 1) (.cons (hx 2) .nil))
    · exact .value .nil

end Toolkit

end Native

end Lox
