import Lox.Text.Size
import Lox.Text.Blank
import Lox.Text.Quoted

/-!
# Settings

What the host can set through its environment: a filter for log messages, and the two sizes by which
the stack is grown. A variable that is unset leaves the default. The variables are read in a fixed
order, and the first one that cannot be read decides the error.
-/

namespace Lox

/-- The settings, with their defaults. -/
structure Settings where
  logFilter : String := "warn"
  /-- Grow the stack when fewer bytes than this are left. -/
  redZone : Nat := 100 * 1024
  /-- How many bytes a new piece of stack has. -/
  growth : Nat := 1024 * 1024
  deriving DecidableEq, Repr

namespace Settings

/-- The variables, in the order in which they are read. -/
inductive Variable where
  | logFilter
  | redZone
  | growth
  deriving DecidableEq, Repr

def Variable.name : Variable → String
  | logFilter => "LOXIDE_LOG"
  | redZone => "LOXIDE_STACK_RED_ZONE"
  | growth => "LOXIDE_STACK_GROWTH"

/-- Why settings cannot be read. -/
inductive Fault where
  | notUnicode (name : Variable)
  | notSize (name : Variable) (text : String) (cause : Text.SizeFault)
  deriving DecidableEq, Repr

namespace Fault

/-- The message of a fault, with the text of the variable as it was found. -/
def message : Fault → String
  | notUnicode v => v.name ++ " is not valid unicode"
  | notSize v text _ => "invalid value for " ++ v.name ++ ": " ++ Text.quoted text

/-- The message, and after it that of the cause if there is one. -/
def chain (f : Fault) : List String :=
  match f with
  | notUnicode _ => [f.message]
  | notSize _ _ cause => [f.message, cause.message]

end Fault

/-- Variables as a host has them: bytes under names. -/
abbrev Lookup := String → Option ByteArray

/-- The text of a variable, which may be unset but must be UTF-8. -/
def readText (lookup : Lookup) (v : Variable) : Except Fault (Option String) :=
  match lookup v.name with
  | none => .ok none
  | some bytes =>
    match String.fromUTF8? bytes with
    | some text => .ok (some text)
    | none => .error (.notUnicode v)

/-- The text of the log filter without the blanks around it, or the default. -/
def readFilter (lookup : Lookup) (v : Variable) (default : String) : Except Fault String := do
  match ← readText lookup v with
  | none => .ok default
  | some text => .ok (String.ofList (Text.trim text.toList))

def readSize (lookup : Lookup) (v : Variable) (default : Nat) : Except Fault Nat := do
  match ← readText lookup v with
  | none => .ok default
  | some text => (Text.readSize (Text.trim text.toList)).mapError (.notSize v text)

def ofLookup (lookup : Lookup) : Except Fault Settings := do
  let logFilter ← readFilter lookup .logFilter ({} : Settings).logFilter
  let redZone ← readSize lookup .redZone ({} : Settings).redZone
  let growth ← readSize lookup .growth ({} : Settings).growth
  return { logFilter, redZone, growth }

end Settings

end Lox
