import Lox.Number.Decimal

/-!
# The text of a number

A finite number is written positionally with the digits of its shortest decimal: never an exponent,
no fraction when it is whole, and a minus sign whenever the sign bit is set. A NaN has one text,
whatever its bits. The word for infinity is left to the caller, as literals and values differ in it.
-/

namespace Lox.Number

/-- The decimal digits of `n`, most significant first. -/
def digits (n : Nat) : List Char := Nat.toDigits 10 n

namespace Decimal

/-- A decimal in positional notation. A decimal finer than the integers has a point. -/
def write (d : Decimal) : List Char :=
  let places := (-d.exponent).toNat
  if places = 0 then digits (d.steps * Nat.pow 10 d.exponent.toNat)
  else
    digits (d.steps / Nat.pow 10 places) ++
      '.' :: (digits (d.steps % Nat.pow 10 places)).leftpad places '0'

end Decimal

/-- The text of a number, with `infinity` for the infinite magnitude. -/
def write (infinity : List Char) (x : Number) : List Char :=
  if x.isNaN then ['N', 'a', 'N']
  else
    (if x.isNegative then ['-'] else []) ++
      if x.isInfinite then infinity else (Decimal.shortest x.magnitude.toNat).write

/-- The word for infinity in literals and in debug texts. -/
def shortInfinity : List Char := ['i', 'n', 'f']

/-- The word for infinity in the text of a value. -/
def longInfinity : List Char := ['I', 'n', 'f', 'i', 'n', 'i', 't', 'y']

end Lox.Number
