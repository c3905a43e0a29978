import Lox.Value.Basic
import Lox.Fault

/-!
# Operators on values

The operators of the language on operands that are already evaluated. Addition joins two strings;
otherwise arithmetic and order take numbers only. Equality takes all values.
-/

namespace Lox.Value

/-- Two operands as numbers. -/
def numbers : Value → Value → Except Fault (Number × Number)
  | number x, number y => .ok (x, y)
  | _, _ => .error .operandsNotNumbers

/-- The sum of two numbers, or the concatenation of two strings. -/
def add : Value → Value → Except Fault Value
  | number x, number y => .ok (number (x + y))
  | string s, string t => .ok (string (s ++ t))
  | _, _ => .error .invalidAddOperands

/-- An operation of arithmetic, for two numbers. -/
def arith (op : Number → Number → Number) (v w : Value) : Except Fault Value :=
  (numbers v w).map fun p => number (op p.1 p.2)

/-- A comparison, for two numbers. -/
def compare (test : Number → Number → Bool) (v w : Value) : Except Fault Value :=
  (numbers v w).map fun p => bool (test p.1 p.2)

def neg : Value → Except Fault Value
  | number x => .ok (number (-x))
  | _ => .error .operandNotNumber

def binary : BinaryOp → Value → Value → Except Fault Value
  | .equal, v, w => .ok (bool (v.same w))
  | .notEqual, v, w => .ok (bool !(v.same w))
  | .less, v, w => compare Number.lt v w
  | .lessEqual, v, w => compare Number.le v w
  | .greater, v, w => compare (fun x y => y.lt x) v w
  | .greaterEqual, v, w => compare (fun x y => y.le x) v w
  | .add, v, w => add v w
  | .subtract, v, w => arith (· - ·) v w
  | .multiply, v, w => arith (· * ·) v w
  | .divide, v, w => arith (· / ·) v w

def unary : UnaryOp → Value → Except Fault Value
  | .not, v => .ok (bool !v.isTruthy)
  | .negate, v => neg v

end Lox.Value
