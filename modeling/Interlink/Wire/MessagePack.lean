import Interlink.MessagePack.Head
import Interlink.Number.Width
import Interlink.Wire.Basic

/-!
# Wire values in MessagePack

A wire value is a map of one entry, whose key is the name of its tag. A field
of a struct, and what a list, set or map holds, is a map of named parts. Bytes
go as an array of numbers.

More is read than is written. A record of named parts may have them in any
order, with others among them that are passed over, and may be an array of the
parts in their order; a name may be given as bytes or as a place in the list
of names; a number may take any form wide enough.

Reading is bounded as it is for JSON, only that the map around a wire value
takes no room: a nested wire value stands two brackets inside the wire value
around it, and in the entries of a map three. Since a reader leaves the bytes
behind the value alone, `unpack` can be followed by any other.
-/

namespace Interlink.Wire

open MessagePack (Head Reader many skipMany)
open Text (utf8 ofUtf8?)

/-! ## Writing -/

def packName (name : String) : List UInt8 := (Head.ofText name).write

def packInt (n : Int) : List UInt8 := (Head.int n).write

/-- The bytes of a wire value with a tag, given those of what it carries. -/
def packTagged (tag : Tag) (payload : List UInt8) : List UInt8 :=
  (Head.map 1).write ++ packName tag.name ++ payload

mutual

/-- **The bytes of a wire value.** -/
def pack : Wire → List UInt8
  | .bool b => packTagged .bool (Head.bool b).write
  | .byte n => packTagged .byte (packInt n.toInt)
  | .i16 n => packTagged .i16 (packInt n.toInt)
  | .i32 n => packTagged .i32 (packInt n.toInt)
  | .i64 n => packTagged .i64 (packInt n.toInt)
  | .double d => packTagged .double (Head.double d).write
  | .string s => packTagged .string (packName s)
  | .binary bytes =>
    packTagged .binary
      ((Head.array bytes.length).write
        ++ bytes.flatMap fun byte => packInt byte.toNat)
  | .struct fields =>
    packTagged .struct ((Head.array fields.length).write ++ packFields fields)
  | .map key value entries =>
    packTagged .map
      ((Head.map 3).write
        ++ packName "key" ++ packName key.name
        ++ packName "value" ++ packName value.name
        ++ packName "entries" ++ (Head.array entries.length).write
        ++ packEntries entries)
  | .set element items =>
    packTagged .set
      ((Head.map 2).write
        ++ packName "element" ++ packName element.name
        ++ packName "items" ++ (Head.array items.length).write
        ++ packItems items)
  | .list element items =>
    packTagged .list
      ((Head.map 2).write
        ++ packName "element" ++ packName element.name
        ++ packName "items" ++ (Head.array items.length).write
        ++ packItems items)

def packFields : List (Int16 × Wire) → List UInt8
  | [] => []
  | (id, value) :: fields =>
    (Head.map 2).write ++ packName "id" ++ packInt id.toInt
      ++ packName "value" ++ value.pack ++ packFields fields

def packItems : List Wire → List UInt8
  | [] => []
  | item :: items => item.pack ++ packItems items

/-- The bytes of the entries of a map: arrays of two. -/
def packEntries : List (Wire × Wire) → List UInt8
  | [] => []
  | (key, value) :: entries =>
    (Head.array 2).write ++ key.pack ++ value.pack ++ packEntries entries

end

/-! ## Passing over -/

/-- **Pass over a value**, whatever it is, in the given room. An extension
takes room as an array does. -/
def skip : (room : Nat) → Reader Unit
  | 0 => do
    match ← Head.read with
    | .array _ | .map _ | .extension .. => failure
    | _ => return
  | room + 1 => do
    match ← Head.read with
    | .array count => skipMany (skip room) count
    | .map count => skipMany (skip room) (2 * count)
    | _ => return

/-! ## Names, numbers and sequences -/

/-- The place that a head names in a list of names: by the name, or by the
number of the place. A head that can name nothing is refused; a name or a
number that is not in the list is no place. -/
def place? (names : List String) : Head → Option (Option Nat)
  | .unsigned n => some (if n < names.length then some n else none)
  | head => head.bytes?.map fun bytes =>
    names.findIdx? fun name => utf8 name == bytes

/-- The tag that a head names. -/
def Tag.ofHead? (head : Head) : Option Tag := do
  Tag.all[← (← place? (Tag.all.map Tag.name) head)]?

/-- Read a tag: its name, or a map of one entry from its name to nothing. -/
def readTag : Reader Tag := do
  match ← Head.read with
  | .map 1 => do
    let tag ← (Tag.ofHead? (← Head.read))
    let .nil ← Head.read | failure
    return tag
  | head => Tag.ofHead? head

def readBool : Reader Bool := do
  let .bool b ← Head.read | failure
  return b

def readInt : Reader Int := do
  (← Head.read).int?

/-- Read a double: from a double, or rounded from a whole number. -/
def readDouble : Reader Double := do
  match ← Head.read with
  | .double d => return d
  | head => return Double.ofInt (← head.int?)

def readText : Reader String := do
  ofUtf8? (← (← Head.read).bytes?)

/-- Read an unsigned number of eight bits. -/
def readByte : Reader UInt8 := do
  Width.uint8? (← readInt)

/-- Read the items of an array, which takes room. Bytes, when there are none
of them, stand for an array without items. -/
def readArray {α : Type} (room : Nat) (item : Reader α) : Reader (List α) := do
  match ← Head.read with
  | .array count => if 1 ≤ room then many item count else failure
  | .binary [] => return []
  | _ => failure

/-- Read bytes: from bytes, or from an array of numbers. -/
def readBinary (room : Nat) : Reader (List UInt8) := do
  match ← Head.read with
  | .array count => if 1 ≤ room then many readByte count else failure
  | .binary bytes => return bytes
  | _ => failure

/-- Read an array of a key and a value. -/
def readEntry (room : Nat) (item : Reader Wire) : Reader (Wire × Wire) := do
  let .array 2 ← Head.read | failure
  if 1 ≤ room then
    let key ← item
    let value ← item
    return (key, value)
  else failure

/-! ## Records -/

/-- A part of a record. -/
inductive Part where
  /-- The id of a field. -/
  | id (n : Int16)
  /-- The value of a field. -/
  | value (w : Wire)
  /-- The tag announced for what a container holds. -/
  | tag (tag : Tag)
  /-- The items of a list or set. -/
  | items (items : List Wire)
  /-- The entries of a map. -/
  | entries (entries : List (Wire × Wire))

/-- Read named parts into their places, each at most once, and pass over the
others. -/
def readNamed (room : Nat) (names : List String) (part : Nat → Reader Part) :
    (count : Nat) → List (Option Part) → Reader (List (Option Part))
  | 0, parts => return parts
  | count + 1, parts => do
    match ← place? names (← Head.read) with
    | none =>
      skip room
      readNamed room names part count parts
    | some place =>
      let some none := parts[place]? | failure
      let found ← part place
      readNamed room names part count (parts.set place (some found))

/-- **Read a record**, all of whose parts are needed: named parts, or an array
of the parts in order. It takes room, and `part` reads the part at a place. -/
def readRecord (room : Nat) (names : List String) (part : Nat → Reader Part) :
    Reader (List Part) := do
  match room, ← Head.read with
  | room + 1, .map count =>
    let parts ← readNamed room names part count
      (List.replicate names.length none)
    (parts.mapM id : Option (List Part))
  | _ + 1, .array count =>
    if count = names.length then (List.range count).mapM part else failure
  | _, _ => failure

def readField (room : Nat) (inner : Reader Wire) : Reader (Int16 × Wire) := do
  let parts ← readRecord room ["id", "value"] fun
    | 0 => do return .id (← Width.int16? (← readInt))
    | _ => do return .value (← inner)
  let [.id id, .value value] := parts | failure
  return (id, value)

/-- Read the tag and the items of a list or set. -/
def readSequence (room : Nat) (inner : Reader Wire) :
    Reader (Tag × List Wire) := do
  let parts ← readRecord room ["element", "items"] fun
    | 0 => do return .tag (← readTag)
    | _ => do return .items (← readArray (room - 1) inner)
  let [.tag element, .items items] := parts | failure
  return (element, items)

/-- Read the tags and the entries of a map. -/
def readMap (room : Nat) (innermost : Reader Wire) :
    Reader (Tag × Tag × List (Wire × Wire)) := do
  let parts ← readRecord room ["key", "value", "entries"] fun
    | 0 => do return .tag (← readTag)
    | 1 => do return .tag (← readTag)
    | _ => do
      return .entries (← readArray (room - 1) (readEntry (room - 2) innermost))
  let [.tag key, .tag value, .entries entries] := parts | failure
  return (key, value, entries)

/-! ## Wire values -/

/-- **One level of a wire value**, where `inner` reads what is nested two
brackets further in and `innermost` what is nested three further in. -/
def unpackLevel (room : Nat) (inner innermost : Reader Wire) : Reader Wire := do
  let .map 1 ← Head.read | failure
  match ← (Tag.ofHead? (← Head.read)) with
  | .bool => return .bool (← readBool)
  | .byte => return .byte (← Width.int8? (← readInt))
  | .i16 => return .i16 (← Width.int16? (← readInt))
  | .i32 => return .i32 (← Width.int32? (← readInt))
  | .i64 => return .i64 (← Width.int64? (← readInt))
  | .double => return .double (← readDouble)
  | .string => return .string (← readText)
  | .binary => return .binary (← readBinary room)
  | .struct => return .struct (← readArray room (readField (room - 1) inner))
  | .map =>
    let (key, value, entries) ← readMap room innermost
    return .map key value entries
  | .set =>
    let (element, items) ← readSequence room inner
    return .set element items
  | .list =>
    let (element, items) ← readSequence room inner
    return .list element items

/-- **Read a wire value** in the given room. -/
def unpackIn : (room : Nat) → Reader Wire
  | 0 => unpackLevel 0 failure failure
  | 1 => unpackLevel 1 failure failure
  | 2 => unpackLevel 2 (unpackIn 0) failure
  | room + 3 => unpackLevel (room + 3) (unpackIn (room + 1)) (unpackIn room)

/-- How many arrays and maps may stand inside one another, not counting the
maps around wire values. -/
def packDepth : Nat := 1023

/-- **Read a wire value** from the front of some bytes. -/
def unpack : Reader Wire := unpackIn packDepth

end Interlink.Wire
