/-!
# Sizes

A size is written in decimal digits, after a plus sign or none, and is below `2 ^ 64`. A text that is
no size is refused for the first failure that reading it from left to right meets.
-/

namespace Lox.Text

/-- Why a text is not a size. -/
inductive SizeFault where
  | empty
  | invalidDigit
  | tooLarge
  deriving DecidableEq, Repr

def SizeFault.message : SizeFault → String
  | empty => "cannot parse integer from empty string"
  | invalidDigit => "invalid digit found in string"
  | tooLarge => "number too large to fit in target type"

/-- The first number that is too large for a size. -/
def sizeLimit : Nat := Nat.pow 2 64

def digitValue (c : Char) : Nat := c.toNat - '0'.toNat

/-- Read digits after those that have the value `value`. -/
def readDigits (value : Nat) : List Char → Except SizeFault Nat
  | [] => .ok value
  | c :: rest =>
    if c.isDigit then
      let value := value * 10 + digitValue c
      if value < sizeLimit then readDigits value rest else .error .tooLarge
    else .error .invalidDigit

/-- Read a size. A sign alone is not one. -/
def readSize : List Char → Except SizeFault Nat
  | [] => .error .empty
  | ['+'] => .error .invalidDigit
  | '+' :: rest => readDigits 0 rest
  | text => readDigits 0 text

end Lox.Text
