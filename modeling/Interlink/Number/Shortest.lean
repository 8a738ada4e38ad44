import Interlink.Number.Double

/-!
# The shortest decimal of a double

Every finite double owns an interval of reals: those that round to it. Its
shortest decimal is a decimal of that interval with the fewest digits, and of
those the nearest to the double. The search tries one digit, two digits, and
so on up to seventeen, which always suffice; on each grid only the two
neighbours of the double can be in the interval if any point is.

Two neighbours can be equally near. Which of them is taken is a decision of
the text that the digits are for, so it is a parameter here (`Tie`).
-/

namespace Interlink

/-- A positive decimal, `coefficient · 10 ^ exponent`. -/
structure Decimal where
  /-- The digits, read as a whole number. -/
  coefficient : Nat
  /-- The power of ten that the last digit counts. -/
  exponent : Int
  deriving DecidableEq

/-- **Which of two equally near decimals is taken.** -/
inductive Tie where
  /-- The one whose last digit is even. -/
  | toEven
  /-- The larger. -/
  | up
  deriving DecidableEq

/-- The decimal digits of a number, without leading zeros. -/
def digitsOf (n : Nat) : List Char := Nat.toDigits 10 n

namespace Decimal

/-- The same number with the zeros at the end of the coefficient moved to the
exponent. `fuel` bounds the number of zeros that are looked for. -/
def stripZeros : Nat → Nat → Int → Decimal
  | 0, coefficient, exponent => ⟨coefficient, exponent⟩
  | fuel + 1, coefficient, exponent =>
    if coefficient % 10 = 0 ∧ coefficient ≠ 0 then
      stripZeros fuel (coefficient / 10) (exponent + 1)
    else ⟨coefficient, exponent⟩

/-- The power of ten that the first digit counts. -/
def leading (d : Decimal) : Int :=
  d.exponent + (digitsOf d.coefficient).length - 1

/-- **Positional form**: the digits before the point and those after it. -/
def positional (d : Decimal) : List Char × List Char :=
  let digits := digitsOf d.coefficient
  if 0 ≤ d.exponent then
    (digits ++ List.replicate d.exponent.toNat '0', [])
  else
    let places := (-d.exponent).toNat
    if places < digits.length then
      (digits.take (digits.length - places),
        digits.drop (digits.length - places))
    else
      (['0'], List.replicate (places - digits.length) '0' ++ digits)

end Decimal

namespace Double

/-! ## The interval of a double

Lengths are counted in quarters of the double's own unit `2 ^ power`. The
double itself stands at four times its significand, its upper neighbour's
share begins two quarters above, and its lower neighbour's two quarters below
– or one, where the double is a power of two and the doubles below it are
twice as dense. -/

/-- Whether the doubles just below are twice as dense as those just above. -/
def atBinade (d : Double) : Bool := d.fraction == 0 && decide (1 < d.exponent)

/-- Lower end of the interval, in quarters. -/
def lowQuarters (d : Double) : Nat :=
  4 * d.significand - (if d.atBinade then 1 else 2)

/-- Upper end of the interval, in quarters. -/
def highQuarters (d : Double) : Nat := 4 * d.significand + 2

/-- A decimal grid beside a double: `x` steps of the grid and `y` quarters of
the double are compared as `x * step` and `y * quarter`. -/
structure Grid where
  /-- One step of the decimal grid. -/
  step : Nat
  /-- One quarter of the double's unit. -/
  quarter : Nat

/-- The grid of multiples of `10 ^ exponent`. -/
def grid (d : Double) (exponent : Int) : Grid where
  step := Nat.pow 10 exponent.toNat * Nat.pow 2 (2 - d.power).toNat
  quarter := Nat.pow 2 (d.power - 2).toNat * Nat.pow 10 (-exponent).toNat

/-- Whether a point of a grid is in the interval of a double. The ends belong
to it when the significand is even. -/
def covers (d : Double) (g : Grid) (x : Nat) : Bool :=
  let point := x * g.step
  let low := d.lowQuarters * g.quarter
  let high := d.highQuarters * g.quarter
  if d.significand % 2 = 0 then decide (low ≤ point ∧ point ≤ high)
  else decide (low < point ∧ point < high)

/-- The better of the double's two neighbours on a grid, if one of them is in
its interval. -/
def neighbour? (d : Double) (tie : Tie) (g : Grid) : Option Nat :=
  let target := 4 * d.significand * g.quarter
  let below := target / g.step
  match d.covers g below, d.covers g (below + 1) with
  | false, false => none
  | true, false => some below
  | false, true => some (below + 1)
  | true, true =>
    let up := (below + 1) * g.step - target
    let down := target - below * g.step
    if down < up then some below
    else if up < down then some (below + 1)
    else match tie with
      | .up => some (below + 1)
      | .toEven => some (below + below % 2)

/-- The power of ten that the first digit of a positive finite double
counts. -/
def leadingPower (d : Double) : Int :=
  let num := d.numerator
  let den := d.denominator
  if den ≤ num then ((digitsOf (num / den)).length : Int) - 1
  else -((digitsOf ((den - 1) / num)).length : Int)

/-- **The shortest decimal** of a finite double other than zero, without its
sign. -/
def shortest (d : Double) (tie : Tie) : Decimal :=
  let lead := d.leadingPower
  let candidate (count : Nat) : Option Decimal :=
    let exponent := lead + 1 - count
    (d.neighbour? tie (d.grid exponent)).map fun coefficient =>
      Decimal.stripZeros 18 coefficient exponent
  ((List.range' 1 17).findSome? candidate).getD ⟨0, 0⟩

end Double

end Interlink
