/-!
# Doubles as words

A double is its 64-bit word. Everything a compiler of interface documents
asks of one – is it finite, what number is it, which double is nearest to a
given ratio – is answered from the fields of the word in exact natural-number
arithmetic, so that no step of it is a machine operation.

A finite double is `± significand · 2 ^ power`. The one rounding rule is
`Double.ofRatio`: the nearest double, a tie going to the even significand, and
a ratio too large for every finite double giving an infinity. Whole numbers,
single-precision words, products and quotients all round through it.
-/

namespace Interlink

/-- **A double**: the word of an IEEE 754 binary64 number. Two doubles are
equal when their words are; `Double.same` is the comparison of the numbers
they stand for. -/
structure Double where
  /-- Sign, eleven bits of exponent, fifty-two bits of fraction. -/
  bits : UInt64
  deriving DecidableEq

namespace Double

/-! ## The fields of the word -/

/-- The sign bit. -/
def negative (d : Double) : Bool := decide (0x8000000000000000 ≤ d.bits.toNat)

/-- The exponent field, as it stands in the word. -/
def exponent (d : Double) : Nat := d.bits.toNat / 0x10000000000000 % 2048

/-- The fraction field. -/
def fraction (d : Double) : Nat := d.bits.toNat % 0x10000000000000

/-- Neither an infinity nor a NaN. -/
def isFinite (d : Double) : Bool := d.exponent != 2047

/-- One of the words that stand for no number. -/
def isNaN (d : Double) : Bool := d.exponent == 2047 && d.fraction != 0

/-- Either zero. -/
def isZero (d : Double) : Bool := d.exponent == 0 && d.fraction == 0

/-- The significand of a finite double, with the leading bit that the word
leaves out. -/
def significand (d : Double) : Nat :=
  if d.exponent = 0 then d.fraction else 0x10000000000000 + d.fraction

/-- The power of two that the significand of a finite double is multiplied
by. -/
def power (d : Double) : Int := (max d.exponent 1 : Nat) - 1075

/-- Numerator of the magnitude of a finite double. -/
def numerator (d : Double) : Nat := d.significand * Nat.pow 2 d.power.toNat

/-- Denominator of the magnitude of a finite double: a power of two. -/
def denominator (d : Double) : Nat := Nat.pow 2 (-d.power).toNat

/-- **Equality of numbers**: a NaN is equal to nothing, and the two zeros are
equal to each other. -/
def same (a b : Double) : Bool :=
  !a.isNaN && !b.isNaN && (a.bits == b.bits || (a.isZero && b.isZero))

/-! ## Words with a name -/

/-- The quiet NaN that stands for all of them when a text is read. -/
def nan : Double := ⟨0x7ff8000000000000⟩

def infinity (negative : Bool) : Double :=
  ⟨if negative then 0xfff0000000000000 else 0x7ff0000000000000⟩

/-! ## Rounding -/

/-- The whole number nearest to `num / den`, a half going to the even
neighbour. -/
def roundQuotient (num den : Nat) : Nat :=
  let floor := num / den
  let twice := 2 * (num % den)
  if twice < den then floor
  else if den < twice then floor + 1
  else floor + floor % 2

/-- The quotient of `num / den` by `2 ^ power`, rounded to a whole number. -/
def roundAt (num den : Nat) (power : Int) : Nat :=
  roundQuotient (num * Nat.pow 2 (-power).toNat) (den * Nat.pow 2 power.toNat)

/-- The power of two at which a positive ratio has a significand of
fifty-three bits, or the least one a double can have. -/
def powerFor (num den : Nat) : Int :=
  let guess : Int := (num.log2 : Int) - den.log2 - 53
  let fits := num * Nat.pow 2 (-guess).toNat / (den * Nat.pow 2 guess.toNat)
      < 0x20000000000000
  max (if fits then guess else guess + 1) (-1074)

/-- The word with a given sign and magnitude. -/
def signed (negative : Bool) (magnitude : Nat) : Double :=
  ⟨UInt64.ofNat (magnitude + if negative then 0x8000000000000000 else 0)⟩

/-- **The double nearest to a ratio.** A carry out of the significand lands in
the exponent field, so one sum makes the word; past the largest finite double
the answer is an infinity. -/
def ofRatio (negative : Bool) (num den : Nat) : Double :=
  if num = 0 then signed negative 0
  else
    let power := powerFor num den
    let magnitude :=
      (power + 1074).toNat * 0x10000000000000 + roundAt num den power
    if magnitude < 2047 * 0x10000000000000 then signed negative magnitude
    else infinity negative

/-- The double nearest to a whole number. -/
def ofInt (n : Int) : Double := ofRatio (decide (n < 0)) n.natAbs 1

/-- The double nearest to a power of ten. -/
def tenPow (n : Nat) : Double := ofRatio false (Nat.pow 10 n) 1

/-- The product of two finite magnitudes, under the sign of the first. -/
def scaleUp (d factor : Double) : Double :=
  ofRatio d.negative (d.numerator * factor.numerator)
    (d.denominator * factor.denominator)

/-- The quotient of two finite magnitudes, under the sign of the first. -/
def scaleDown (d divisor : Double) : Double :=
  ofRatio d.negative (d.numerator * divisor.denominator)
    (d.denominator * divisor.numerator)

/-- A single-precision word, widened. -/
def ofSingle (word : UInt32) : Double :=
  let negative := decide (0x80000000 ≤ word.toNat)
  let exponent := word.toNat / 0x800000 % 256
  let fraction := word.toNat % 0x800000
  if exponent = 255 then
    if fraction = 0 then infinity negative else nan
  else
    let significand := if exponent = 0 then fraction else 0x800000 + fraction
    let raised := max exponent 1
    ofRatio negative (significand * Nat.pow 2 raised) (Nat.pow 2 150)

end Double

end Interlink
