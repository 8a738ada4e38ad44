import Interlink.Number.Shortest

/-!
# Numbers as JSON writes them

A JSON number is a text of digits before it is a quantity: `1`, `1.0` and
`1e0` are different texts, and a field that wants a whole number takes the
first alone. So a number is kept here as it is written (`Json.Number`), and is
read as a whole number (`Number.int?`) or as a double (`Number.double?`) only
when a field asks for it.

Reading a double is quick rather than exact. The digits are gathered in a
64-bit word for as long as they fit, the word is rounded to a double, and the
double is multiplied or divided by a power of ten that is itself rounded. The
answer is the nearest double whenever the word has at most fifteen digits and
the power of ten is moderate, and can be a neighbour of it otherwise. Writing
a double (`Number.ofDouble`) gives its shortest decimal.
-/

namespace Interlink.Json

/-- **A number as it is written.** Exponents always carry a sign. -/
structure Number where
  /-- Whether a minus sign stands in front. -/
  negative : Bool
  /-- The digits before the point. -/
  whole : List Char
  /-- The digits after the point; none when there is no point. -/
  fraction : List Char
  /-- The exponent, if there is one: whether it is negative, and its digits. -/
  exponent : Option (Bool × List Char)
  deriving DecidableEq

def digitValue (c : Char) : Nat := c.toNat - '0'.toNat

/-- The whole number that a sequence of digits spells. -/
def digitsValue (digits : List Char) : Nat :=
  digits.foldl (fun n c => n * 10 + digitValue c) 0

namespace Number

def text (n : Number) : List Char :=
  (if n.negative then ['-'] else []) ++ n.whole
    ++ (if n.fraction.isEmpty then [] else '.' :: n.fraction)
    ++ match n.exponent with
      | none => []
      | some (below, digits) => 'e' :: (if below then '-' else '+') :: digits

/-! ## Whole numbers -/

/-- **Reading a whole number.** There is neither a point nor an exponent, and
the text is not `-0`, which is a double. -/
def int? (n : Number) : Option Int :=
  if n.fraction.isEmpty && n.exponent.isNone then
    let magnitude := digitsValue n.whole
    if n.negative then
      if magnitude = 0 then none else some (-(magnitude : Int))
    else some magnitude
  else none

def ofInt (n : Int) : Number where
  negative := decide (n < 0)
  whole := digitsOf n.natAbs
  fraction := []
  exponent := none

/-! ## Doubles -/

/-- Gather the digits before the point in a 64-bit word. Also says how many
are left over once the word is full. -/
def gatherWhole : List Char → Nat → Nat × Nat
  | [], word => (word, 0)
  | c :: cs, word =>
    let next := word * 10 + digitValue c
    if next < 0x10000000000000000 then gatherWhole cs next
    else (word, cs.length + 1)

/-- Gather the digits after the point behind those before it. Also says how
many were taken; those that find the word full are dropped. -/
def gatherFraction : List Char → Nat → Nat → Nat × Nat
  | [], word, taken => (word, taken)
  | c :: cs, word, taken =>
    let next := word * 10 + digitValue c
    if next < 0x10000000000000000 then gatherFraction cs next (taken + 1)
    else (word, taken)

/-- The number that the exponent spells, zero when there is none. -/
def exponentValue (n : Number) : Int :=
  match n.exponent with
  | none => 0
  | some (below, digits) =>
    if below then -(digitsValue digits : Int) else digitsValue digits

/-- A double times a power of ten: one rounding for the power, one for the
product or quotient. A power below `10 ^ -308` takes two quotients, and below
`10 ^ -616` nothing is left. A power above `10 ^ 308` is refused, and so is a
product too large for a finite double. -/
def shift? (d : Double) (power : Int) : Option Double :=
  if 308 < power then none
  else if 0 ≤ power then
    let product := d.scaleUp (.tenPow power.toNat)
    if product.isFinite then some product else none
  else
    let n := (-power).toNat
    if n ≤ 308 then some (d.scaleDown (.tenPow n))
    else if n ≤ 616 then
      some ((d.scaleDown (.tenPow 308)).scaleDown (.tenPow (n - 308)))
    else some (.signed d.negative 0)

/-- **Reading a double.** Any number will do, unless it is too large for a
finite double. -/
def double? (n : Number) : Option Double :=
  let (word, left) := gatherWhole n.whole 0
  let (word, taken) := gatherFraction n.fraction word 0
  if word = 0 then some (.signed n.negative 0)
  else shift? (.ofRatio n.negative word 1) (left - taken + n.exponentValue)

/-- **Writing a double.** From `10 ^ -5` up to, and without, `10 ^ 16` the
form is positional and always has a fraction; otherwise one digit stands
before the point and the exponent has a sign. Of two decimals equally near the
even one is written. -/
def ofDouble (d : Double) : Number :=
  if d.isZero then ⟨d.negative, ['0'], ['0'], none⟩
  else
    let decimal := d.shortest .toEven
    let leading := decimal.leading
    if -5 ≤ leading ∧ leading < 16 then
      let (whole, fraction) := decimal.positional
      ⟨d.negative, whole, if fraction.isEmpty then ['0'] else fraction, none⟩
    else
      let digits := digitsOf decimal.coefficient
      ⟨d.negative, digits.take 1, digits.drop 1,
        some (decide (leading < 0), digitsOf leading.natAbs)⟩

end Number

end Interlink.Json
