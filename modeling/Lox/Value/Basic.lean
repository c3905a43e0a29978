import Lox.Syntax.Basic

/-!
# Values

What expressions evaluate to. A function value is an object with an identity: each execution of a
function declaration, and each definition of a native function, makes a new one with a number of its
own, and two function values are equal exactly when they have the same number.
-/

namespace Lox

/-- The name of a frame of variables. -/
abbrev FrameId := Nat

/-- A function that the host provides. What it does is the host's to say. -/
structure Native where
  name : String
  arity : Nat
  deriving DecidableEq, Inhabited

/-- What a function value runs when it is called. -/
inductive Code where
  /-- A declared function, with the frame that it was declared in. -/
  | closure (fn : Function) (scope : FrameId)
  | native (fn : Native)
  deriving Inhabited

structure Callable where
  id : Nat
  code : Code
  deriving Inhabited

namespace Callable

def name (f : Callable) : String :=
  match f.code with
  | .closure fn _ => fn.name
  | .native fn => fn.name

def arity (f : Callable) : Nat :=
  match f.code with
  | .closure fn _ => fn.arity
  | .native fn => fn.arity

/-- Whether the host provides the function. -/
def isNative (f : Callable) : Bool :=
  match f.code with
  | .closure _ _ => false
  | .native _ => true

end Callable

inductive Value where
  | nil
  | bool (value : Bool)
  | number (value : Number)
  | string (text : String)
  | callable (fn : Callable)
  deriving Inhabited

namespace Value

/-- Only `nil` and `false` count as false. -/
def isTruthy : Value → Bool
  | nil => false
  | bool b => b
  | _ => true

/-- The function that a value is, if it is one. -/
def callable? : Value → Option Callable
  | callable f => some f
  | _ => none

def isCallable (v : Value) : Bool := v.callable?.isSome

/-- The language's equality: values of different kinds differ, numbers are compared as IEEE 754
says, and functions by identity. -/
def same : Value → Value → Bool
  | nil, nil => true
  | bool a, bool b => a == b
  | number x, number y => x.ieeeEq y
  | string s, string t => s == t
  | callable f, callable g => f.id == g.id
  | _, _ => false

end Value

def Literal.value : Literal → Value
  | number x => .number x
  | string s => .string s
  | bool b => .bool b
  | nil => .nil

end Lox
