/-!
# Numbers

A number of the language is an IEEE 754 double, held as its sixty-four bits: a sign bit above
sixty-three bits of magnitude. Two numbers are the same Lean value exactly when they have the same
bits, so the two zeros are different, and so are the many NaNs. The language's own equality, `ieeeEq`,
and the equality of number literals, `sameLiteral`, are functions on the bits.
-/

namespace Lox

/-- An IEEE 754 double, as its bits. -/
structure Number where
  bits : UInt64
  deriving DecidableEq, Inhabited

namespace Number

def toFloat (x : Number) : Float := Float.ofBits x.bits

def ofFloat (x : Float) : Number := ⟨x.toBits⟩

/-- The integer `n`, rounded to the nearest double. -/
def ofInt (n : Int) : Number := ofFloat (Float.ofInt n)

/-! ## Parts of the bits -/

/-- The sign bit alone. -/
def signMask : UInt64 := 0x8000000000000000

/-- The magnitude of the infinities, above every finite one and below every NaN. -/
def infinityBits : UInt64 := 0x7ff0000000000000

def isNegative (x : Number) : Bool := x.bits &&& signMask != 0

/-- The bits below the sign; finite magnitudes are ordered as the values that they stand for. -/
def magnitude (x : Number) : UInt64 := x.bits &&& ~~~signMask

/-- Whether the number is a NaN, of whatever payload. -/
def isNaN (x : Number) : Bool := infinityBits < x.magnitude

def isInfinite (x : Number) : Bool := x.magnitude == infinityBits

def isZero (x : Number) : Bool := x.magnitude == 0

/-! ## Arithmetic -/

def add (x y : Number) : Number := ofFloat (x.toFloat + y.toFloat)

def sub (x y : Number) : Number := ofFloat (x.toFloat - y.toFloat)

def mul (x y : Number) : Number := ofFloat (x.toFloat * y.toFloat)

/-- The quotient, rounded to the nearest double; division by zero gives an infinity or a NaN. -/
def div (x y : Number) : Number := ofFloat (x.toFloat / y.toFloat)

/-- The number with the other sign, also of a zero or a NaN. -/
def neg (x : Number) : Number := ⟨x.bits ^^^ signMask⟩

instance : Add Number := ⟨add⟩
instance : Sub Number := ⟨sub⟩
instance : Mul Number := ⟨mul⟩
instance : Div Number := ⟨div⟩
instance : Neg Number := ⟨neg⟩

/-! ## Comparisons -/

/-- Equality of values: a NaN equals nothing, and the two zeros equal each other. -/
def ieeeEq (x y : Number) : Bool :=
  !x.isNaN && !y.isNaN && (x.bits == y.bits || (x.isZero && y.isZero))

/-- Strict order of values, false when either is a NaN. -/
def lt (x y : Number) : Bool := x.toFloat < y.toFloat

/-- Order of values, false when either is a NaN. -/
def le (x y : Number) : Bool := x.toFloat ≤ y.toFloat

/-- Equality of number literals: all NaNs are one literal, and so are the two zeros. -/
def sameLiteral (x y : Number) : Bool := (x.isNaN && y.isNaN) || x.ieeeEq y

end Number

end Lox
