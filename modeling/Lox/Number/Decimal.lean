import Lox.Number.Basic

/-!
# Shortest decimals

The decimal that stands for a finite double is the shortest one that reads back as it. A decimal reads
back as the double with magnitude bits `u` when it lies between the midpoints to the neighbours `u - 1`
and `u + 1`; a midpoint itself goes to the neighbour with even bits. All of this is decided exactly,
in natural numbers.

The search walks decimal grids from coarse to fine. On each grid it looks only at the two points
around the value: when any point of a grid reads back, one of these two does.
-/

namespace Lox.Number

/-- Every finite double is a multiple of `2 ^ -1074`. -/
def finestBits : Nat := 1074

/-- The value of the magnitude bits `u` as a multiple of `2 ^ -1074`; at the bits of infinity, the next
power of two. -/
def scaled (u : Nat) : Nat :=
  let exponent := u / Nat.pow 2 52
  let fraction := u % Nat.pow 2 52
  if exponent = 0 then fraction else (Nat.pow 2 52 + fraction) * Nat.pow 2 (exponent - 1)

/-- The values that read back as one double, in some unit. -/
structure Interval where
  /-- The double itself. -/
  value : Nat
  /-- The sum of the double and its lower neighbour: twice the lower end. -/
  twiceLow : Nat
  /-- The sum of the double and its upper neighbour: twice the upper end. -/
  twiceHigh : Nat
  /-- Whether the ends belong to the interval. -/
  closed : Bool

namespace Interval

/-- The value of `u` and those of its neighbours are multiples of `2 ^ (coarseness u - 1074)`. -/
def coarseness (u : Nat) : Nat := u / Nat.pow 2 52 - 2

/-- The interval of the magnitude bits `u`, which are not zero, in the unit
`2 ^ (coarseness u - 1074)`. -/
def ofBits (u : Nat) : Interval where
  value := scaled u / Nat.pow 2 (coarseness u)
  twiceLow := (scaled (u - 1) + scaled u) / Nat.pow 2 (coarseness u)
  twiceHigh := (scaled u + scaled (u + 1)) / Nat.pow 2 (coarseness u)
  closed := u % 2 == 0

/-- The interval in a unit that is `n` times as fine. -/
def refine (n : Nat) (i : Interval) : Interval :=
  { i with value := i.value * n, twiceLow := i.twiceLow * n, twiceHigh := i.twiceHigh * n }

/-- Whether a value lies in the interval. -/
def holds (i : Interval) (x : Nat) : Bool :=
  if i.closed then i.twiceLow ≤ 2 * x && 2 * x ≤ i.twiceHigh
  else i.twiceLow < 2 * x && 2 * x < i.twiceHigh

/-- The multiple of `step` that stands for the interval, as a number of steps: of the two multiples
around the value the one that lies in the interval, and if both do, the nearer. From the middle it is
the greater. -/
def point? (step : Nat) (i : Interval) : Option Nat :=
  let n := i.value / step
  let below := n * step
  let above := below + step
  if i.holds below then
    if i.holds above && below + above ≤ 2 * i.value then some (n + 1) else some n
  else if i.holds above then some (n + 1)
  else none

end Interval

/-- A decimal: `steps` times `10 ^ exponent`. -/
structure Decimal where
  steps : Nat
  exponent : Int
  deriving DecidableEq, Repr

namespace Decimal

/-- The decimal with the given exponent that stands for the magnitude bits `u`, if one reads back. Step
and interval are measured in the unit `2 ^ (coarseness u - 1074)`, refined to make both whole. -/
def withExponent? (exponent : Int) (u : Nat) : Option Decimal :=
  let coarseness := Interval.coarseness u
  let step := Nat.pow 10 exponent.toNat * Nat.pow 2 (finestBits - coarseness)
  let finer := Nat.pow 10 (-exponent).toNat * Nat.pow 2 (coarseness - finestBits)
  let interval := (Interval.ofBits u).refine finer
  (interval.point? step).map (⟨·, exponent⟩)

/-- The first hit among the exponents from the given one down, `fuel` in all. -/
def search : Nat → Int → Nat → Option Decimal
  | 0, _, _ => none
  | fuel + 1, exponent, u => (withExponent? exponent u).or (search fuel (exponent - 1) u)

/-- An exponent whose power of ten is above the value of `u`: with `b` the bits of the scaled value,
the value is below `2 ^ (b - 1074)`, and a factor of two is less than `0.30103` decimal digits. -/
def startExponent (u : Nat) : Int :=
  ((Nat.log2 (scaled u) : Int) + 1 - finestBits) * 30103 / 100000 + 1

/-- The shortest decimal that reads back as the double of finite magnitude bits `u`. The search goes
down to `10 ^ -1074`, of which every finite double is a multiple. -/
def shortest (u : Nat) : Decimal :=
  if u = 0 then ⟨0, 0⟩
  else (search (startExponent u + finestBits + 1).toNat (startExponent u) u).getD ⟨0, 0⟩

end Decimal

end Lox.Number
