import Lox.Eval
import Lox.Proofs.Base.Coupled

/-!
# Values that are alike

Two runs of different programs may make different function values where one program makes one. Values are
alike with respect to a relation between function values (`Value.Like`): function values are in that
relation, and all other values are equal. As long as the relation only holds of function values with the
same number, name and arity (`Callable.Resembles`), operators and `print` cannot tell like values apart.
-/

namespace Lox

/-- The function values look the same from outside, that is, unless they are called. -/
structure Callable.Resembles (f g : Callable) : Prop where
  id : f.id = g.id
  name : f.name = g.name
  arity : f.arity = g.arity
  native : f.isNative = g.isNative

theorem Callable.Resembles.refl (f : Callable) : f.Resembles f := ⟨rfl, rfl, rfl, rfl⟩

/-- Function values in the relation `F`, or other values that are equal. -/
inductive Value.Like (F : Callable → Callable → Prop) : Value → Value → Prop
  | nil : Like F .nil .nil
  | bool (b : Bool) : Like F (.bool b) (.bool b)
  | number (x : Number) : Like F (.number x) (.number x)
  | string (text : String) : Like F (.string text) (.string text)
  | callable {f g : Callable} (h : F f g) : Like F (.callable f) (.callable g)

/-- Errors of the same cause, at positions in the relation `P`. -/
structure RuntimeError.Like (P : Pos → Pos → Prop) (e e' : RuntimeError) : Prop where
  fault : e.fault = e'.fault
  pos : P e.pos e'.pos

theorem RuntimeError.Like.eq {e e' : RuntimeError} (h : RuntimeError.Like (· = ·) e e') : e = e' := by
  cases e
  cases e'
  obtain ⟨rfl, rfl⟩ := h
  rfl

/-- Two errors in the relation `E`, or returns of like values. -/
inductive Unwind.Like (E : RuntimeError → RuntimeError → Prop) (F : Callable → Callable → Prop) :
    Unwind → Unwind → Prop
  | error {e e' : RuntimeError} (h : E e e') : Like E F (.error e) (.error e')
  | return {v v' : Value} (h : v.Like F v') : Like E F (.return v) (.return v')

namespace Value.Like

variable {F G : Callable → Callable → Prop} {v v' w w' : Value}

theorem mono (h : v.Like F v') (hFG : ∀ f g, F f g → G f g) : v.Like G v' := by
  cases h with
  | nil => exact .nil
  | bool b => exact .bool b
  | number x => exact .number x
  | string text => exact .string text
  | callable h => exact .callable (hFG _ _ h)

theorem rel_imp {o o' : Option Value} (h : Option.Rel (Value.Like F) o o')
    (himp : ∀ v v' : Value, v.Like F v' → v.Like G v') : Option.Rel (Value.Like G) o o' := by
  cases h with
  | none => exact .none
  | some h => exact .some (himp _ _ h)

theorem literal (x : Literal) : x.value.Like F x.value := by
  cases x with
  | number x => exact .number x
  | string text => exact .string text
  | bool b => exact .bool b
  | nil => exact .nil

theorem isTruthy (h : v.Like F v') : v.isTruthy = v'.isTruthy := by cases h <;> rfl

/-! ## Operators -/

theorem unary (h : v.Like F v') (op : UnaryOp) :
    BothEnd (· = ·) (Value.Like F) (v.unary op) (v'.unary op) := by
  cases op with
  | not =>
    rw [Value.unary, Value.unary, h.isTruthy]
    exact .bool _
  | negate =>
    cases h with
    | number x => exact .number _
    | nil | bool _ | string _ | callable _ => rfl

theorem numbers (h : v.Like F v') (h' : w.Like F w') : Value.numbers v w = Value.numbers v' w' := by
  cases h <;> cases h' <;> rfl

theorem arith (h : v.Like F v') (h' : w.Like F w') (op : Number → Number → Number) :
    BothEnd (· = ·) (Value.Like F) (Value.arith op v w) (Value.arith op v' w') := by
  rw [Value.arith, Value.arith, h.numbers h']
  cases Value.numbers v' w' with
  | ok p => exact .number _
  | error f => rfl

theorem compare (h : v.Like F v') (h' : w.Like F w') (test : Number → Number → Bool) :
    BothEnd (· = ·) (Value.Like F) (Value.compare test v w) (Value.compare test v' w') := by
  rw [Value.compare, Value.compare, h.numbers h']
  cases Value.numbers v' w' with
  | ok p => exact .bool _
  | error f => rfl

theorem add (h : v.Like F v') (h' : w.Like F w') :
    BothEnd (· = ·) (Value.Like F) (Value.add v w) (Value.add v' w') := by
  cases h <;> cases h' <;> first | rfl | exact .number _ | exact .string _

variable (hF : ∀ f g, F f g → f.Resembles g)
include hF

theorem same (h : v.Like F v') (h' : w.Like F w') : v.same w = v'.same w' := by
  cases h with
  | callable h =>
    cases h' with
    | callable h' => rw [Value.same, Value.same, (hF _ _ h).id, (hF _ _ h').id]
    | nil | bool _ | number _ | string _ => rfl
  | nil | bool _ | number _ | string _ => cases h' <;> rfl

theorem text (h : v.Like F v') : v.text = v'.text := by
  cases h with
  | callable h => rw [Value.text, Value.text, (hF _ _ h).native, (hF _ _ h).name]
  | nil | bool _ | number _ | string _ => rfl

theorem binary (h : v.Like F v') (h' : w.Like F w') (op : BinaryOp) :
    BothEnd (· = ·) (Value.Like F) (Value.binary op v w) (Value.binary op v' w') := by
  cases op with
  | equal | notEqual =>
    rw [Value.binary, Value.binary, same hF h h']
    exact .bool _
  | less | lessEqual | greater | greaterEqual =>
    rw [Value.binary, Value.binary]
    exact h.compare h' _
  | subtract | multiply | divide => exact h.arith h' _
  | add => exact h.add h'

end Value.Like

end Lox
