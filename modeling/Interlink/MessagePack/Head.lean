import Interlink.Number.Double
import Interlink.Text.Utf8

/-!
# MessagePack heads

A MessagePack value starts with its head: a marker byte, the bytes of a number
or of a length where the marker asks for them, and the content itself unless
the value is an array or a map. Those say only how much follows.

A number is written in the shortest form that holds it, and so is a length;
every form is read. `Head.write` is a head's one written form.

Reading takes bytes from the front of a payload and leaves the rest, which is
what lets readers follow one another (`Reader`).
-/

namespace Interlink.MessagePack

/-! ## Bytes -/

/-- A number in `width` bytes, the greatest first; what does not fit is left
off at the front. -/
def word : (width : Nat) → Nat → List UInt8
  | 0, _ => []
  | width + 1, n => word width (n / 256) ++ [UInt8.ofNat n]

/-- The number that bytes hold, the greatest first. -/
def number (bytes : List UInt8) : Nat :=
  bytes.foldl (fun n byte => n * 256 + byte.toNat) 0

/-! ## Readers -/

/-- **A reader** takes a value from the front of some bytes, or fails. -/
abbrev Reader (α : Type) := StateT (List UInt8) Option α

/-- The next bytes, as many as asked for. -/
def next (count : Nat) : Reader (List UInt8) := fun bytes =>
  let front := bytes.take count
  if front.length = count then some (front, bytes.drop count) else none

def nextNumber (width : Nat) : Reader Nat := do
  return number (← next width)

/-- The number in the next bytes, of which the first bit stands for the
sign. -/
def nextSigned (width : Nat) : Reader Int := do
  let n ← nextNumber width
  let size := Nat.pow 256 width
  return if 2 * n < size then (n : Int) else (n : Int) - size

/-- The bytes behind their number, which itself takes `width` bytes. -/
def nextCounted (width : Nat) : Reader (List UInt8) := do
  next (← nextNumber width)

/-- Read the same again and again. -/
def many {α : Type} (item : Reader α) : Nat → Reader (List α)
  | 0 => return []
  | count + 1 => do
    let first ← item
    let others ← many item count
    return first :: others

/-- Read the same again and again, and keep nothing. -/
def skipMany (item : Reader Unit) : Nat → Reader Unit
  | 0 => return
  | count + 1 => do
    item
    skipMany item count

/-! ## Heads -/

/-- **The head of a value.** -/
inductive Head where
  /-- Nothing. -/
  | nil
  /-- A truth value. -/
  | bool (b : Bool)
  /-- A number in a form without a sign. -/
  | unsigned (n : Nat)
  /-- A number in a form with a sign. -/
  | signed (n : Int)
  /-- A double, or a float of half its width widened. -/
  | double (d : Double)
  /-- A string; its bytes need not be those of a text. -/
  | text (bytes : List UInt8)
  /-- Bytes. -/
  | binary (bytes : List UInt8)
  /-- An array of so many items. -/
  | array (count : Nat)
  /-- A map of so many entries. -/
  | map (count : Nat)
  /-- An extension: its type and its data. -/
  | extension (type : UInt8) (data : List UInt8)

namespace Head

/-- A number: without a sign where it has none. -/
def int (n : Int) : Head := if 0 ≤ n then .unsigned n.toNat else .signed n

/-- The string with a text. -/
def ofText (text : String) : Head := .text (Text.utf8 text)

/-- The number of a head, in either form. -/
def int? : Head → Option Int
  | .unsigned n => some n
  | .signed n => some n
  | _ => none

/-- The bytes of a string, or plain bytes. -/
def bytes? : Head → Option (List UInt8)
  | .text bytes => some bytes
  | .binary bytes => some bytes
  | _ => none

/-! ### Writing -/

/-- A length behind the first marker of those whose field is wide enough. -/
def writeLength (markers : List (UInt8 × Nat)) (n : Nat) : List UInt8 :=
  match markers with
  | [] => []
  | [(marker, width)] => marker :: word width n
  | (marker, width) :: wider =>
    if n < Nat.pow 256 width then marker :: word width n else writeLength wider n

/-- The marker of an extension with a given number of data bytes, and that
number where the marker does not say it. -/
def writeExtension : (size : Nat) → List UInt8
  | 1 => [0xd4]
  | 2 => [0xd5]
  | 4 => [0xd6]
  | 8 => [0xd7]
  | 16 => [0xd8]
  | size => writeLength [(0xc7, 1), (0xc8, 2), (0xc9, 4)] size

/-- **The bytes of a head**, in its shortest form. -/
def write : Head → List UInt8
  | .nil => [0xc0]
  | .bool false => [0xc2]
  | .bool true => [0xc3]
  | .unsigned n =>
    if n < 0x80 then [UInt8.ofNat n]
    else writeLength [(0xcc, 1), (0xcd, 2), (0xce, 4), (0xcf, 8)] n
  | .signed n =>
    if -0x20 ≤ n then word 1 (n + 0x100).toNat
    else if -0x80 ≤ n then 0xd0 :: word 1 (n + 0x100).toNat
    else if -0x8000 ≤ n then 0xd1 :: word 2 (n + 0x10000).toNat
    else if -0x80000000 ≤ n then 0xd2 :: word 4 (n + 0x100000000).toNat
    else 0xd3 :: word 8 (n + 0x10000000000000000).toNat
  | .double d => 0xcb :: word 8 d.bits.toNat
  | .text bytes =>
    (if bytes.length < 0x20 then [UInt8.ofNat (0xa0 + bytes.length)]
      else writeLength [(0xd9, 1), (0xda, 2), (0xdb, 4)] bytes.length) ++ bytes
  | .binary bytes =>
    writeLength [(0xc4, 1), (0xc5, 2), (0xc6, 4)] bytes.length ++ bytes
  | .array count =>
    if count < 0x10 then [UInt8.ofNat (0x90 + count)]
    else writeLength [(0xdc, 2), (0xdd, 4)] count
  | .map count =>
    if count < 0x10 then [UInt8.ofNat (0x80 + count)]
    else writeLength [(0xde, 2), (0xdf, 4)] count
  | .extension type data => writeExtension data.length ++ type :: data

/-! ### Reading -/

/-- The type of an extension, and as many bytes of data as asked for. -/
def nextExtension (size : Nat) : Reader Head := do
  let type ← nextNumber 1
  return .extension (.ofNat type) (← next size)

/-- The rest of a head whose marker stands alone in naming its form. -/
def readMarked : (marker : Nat) → Reader Head
  | 0xc0 => return .nil
  | 0xc2 => return .bool false
  | 0xc3 => return .bool true
  | 0xc4 => return .binary (← nextCounted 1)
  | 0xc5 => return .binary (← nextCounted 2)
  | 0xc6 => return .binary (← nextCounted 4)
  | 0xc7 => do nextExtension (← nextNumber 1)
  | 0xc8 => do nextExtension (← nextNumber 2)
  | 0xc9 => do nextExtension (← nextNumber 4)
  | 0xca => return .double (.ofSingle (UInt32.ofNat (← nextNumber 4)))
  | 0xcb => return .double ⟨UInt64.ofNat (← nextNumber 8)⟩
  | 0xcc => return .unsigned (← nextNumber 1)
  | 0xcd => return .unsigned (← nextNumber 2)
  | 0xce => return .unsigned (← nextNumber 4)
  | 0xcf => return .unsigned (← nextNumber 8)
  | 0xd0 => return .signed (← nextSigned 1)
  | 0xd1 => return .signed (← nextSigned 2)
  | 0xd2 => return .signed (← nextSigned 4)
  | 0xd3 => return .signed (← nextSigned 8)
  | 0xd4 => nextExtension 1
  | 0xd5 => nextExtension 2
  | 0xd6 => nextExtension 4
  | 0xd7 => nextExtension 8
  | 0xd8 => nextExtension 16
  | 0xd9 => return .text (← nextCounted 1)
  | 0xda => return .text (← nextCounted 2)
  | 0xdb => return .text (← nextCounted 4)
  | 0xdc => return .array (← nextNumber 2)
  | 0xdd => return .array (← nextNumber 4)
  | 0xde => return .map (← nextNumber 2)
  | 0xdf => return .map (← nextNumber 4)
  | _ => failure

/-- **Read a head** in any of its forms. -/
def read : Reader Head := do
  let marker ← nextNumber 1
  if marker < 0x80 then return .unsigned marker
  else if marker < 0x90 then return .map (marker - 0x80)
  else if marker < 0xa0 then return .array (marker - 0x90)
  else if marker < 0xc0 then return .text (← next (marker - 0xa0))
  else if marker < 0xe0 then readMarked marker
  else return .signed (marker - 0x100)

end Head

end Interlink.MessagePack
