import Interlink.Number.Shortest
import Interlink.Text.Quoted
import Interlink.Value.Basic

/-!
# Values in messages

How a value is shown to the author of a document: numbers in plain digits,
texts in quotes, bytes by their count alone.
-/

namespace Interlink

/-- **A double in a message**: the fewest digits that tell it from its
neighbours, never with an exponent, and no point without digits after it. Of
two decimals equally near the larger is shown. -/
def Double.display (d : Double) : String :=
  if d.isNaN then "NaN"
  else
    let sign := if d.negative then "-" else ""
    if !d.isFinite then sign ++ "inf"
    else if d.isZero then sign ++ "0"
    else
      let (whole, fraction) := (d.shortest .up).positional
      let places := if fraction.isEmpty then [] else '.' :: fraction
      sign ++ String.ofList (whole ++ places)

namespace Value

mutual

/-- **A value in a message.** -/
def display : Value → String
  | .bool b => if b then "true" else "false"
  | .byte n => toString n.toInt
  | .i16 n => toString n.toInt
  | .i32 n => toString n.toInt
  | .i64 n => toString n.toInt
  | .double d => d.display
  | .string s => Text.quote s
  | .binary bytes => "<" ++ toString bytes.length ++ " bytes>"
  | .list items => "[" ++ ", ".intercalate (displayItems items) ++ "]"
  | .set items => "[" ++ ", ".intercalate (displayItems items) ++ "]"
  | .map entries =>
    "\x7b" ++ ", ".intercalate (displayEntries entries) ++ "\x7d"
  | .enum typeName n => typeName ++ "(" ++ toString n.toInt ++ ")"
  | .struct typeName fields =>
    typeName ++ " \x7b" ++ ",".intercalate (displayFields fields) ++ " \x7d"

def displayItems : List Value → List String
  | [] => []
  | item :: items => item.display :: displayItems items

/-- The pairs of a map, each with a colon. -/
def displayEntries : List (Value × Value) → List String
  | [] => []
  | (key, value) :: entries =>
    (key.display ++ ": " ++ value.display) :: displayEntries entries

/-- The fields of a struct, each with a blank in front. -/
def displayFields : List (String × Value) → List String
  | [] => []
  | (name, value) :: fields =>
    (" " ++ name ++ ": " ++ value.display) :: displayFields fields

end

end Value

end Interlink
