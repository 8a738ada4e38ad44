import Interlink.Json.Record
import Interlink.Wire.Basic

/-!
# Wire values in JSON

A wire value is written as an object of one member named for its tag. A double
that is not finite has no number and is written as a text of its own.

Reading is bounded: a text may open so many brackets inside one another and no
more (`maxDepth`), and what is left to open at a place is its **room**. Members
that nobody asks for take no room, however deep they nest. A nested wire value
stands three brackets inside the wire value around it, and in the entries of a
map four; `content` reads one level, given readers for those two places, and
`ofJson?` ties them together.
-/

namespace Interlink

/-! ## Writing -/

/-- A double in JSON: a number, or the text that stands for one. -/
def Double.toWireJson (d : Double) : Json :=
  if d.isFinite then .num (.ofDouble d)
  else if d.isNaN then .text "nan"
  else if d.negative then .text "-inf"
  else .text "inf"

namespace Wire

mutual

/-- **A wire value in JSON.** -/
def toJson : Wire → Json
  | .bool b => .tagged "bool" (.bool b)
  | .byte n => .tagged "byte" (.int n.toInt)
  | .i16 n => .tagged "i16" (.int n.toInt)
  | .i32 n => .tagged "i32" (.int n.toInt)
  | .i64 n => .tagged "i64" (.int n.toInt)
  | .double d => .tagged "double" d.toWireJson
  | .string s => .tagged "string" (.text s)
  | .binary bytes => .tagged "binary" (.arr (bytes.map fun b => .int b.toNat))
  | .struct fields => .tagged "struct" (.arr (fieldsToJson fields))
  | .map key value entries =>
    .tagged "map"
      (.object [("key", .text key.name), ("value", .text value.name),
        ("entries", .arr (entriesToJson entries))])
  | .set element items =>
    .tagged "set"
      (.object [("element", .text element.name),
        ("items", .arr (itemsToJson items))])
  | .list element items =>
    .tagged "list"
      (.object [("element", .text element.name),
        ("items", .arr (itemsToJson items))])

def fieldsToJson : List (Int16 × Wire) → List Json
  | [] => []
  | (id, value) :: fields =>
    .object [("id", .int id.toInt), ("value", value.toJson)]
      :: fieldsToJson fields

def itemsToJson : List Wire → List Json
  | [] => []
  | item :: items => item.toJson :: itemsToJson items

/-- The entries of a map in JSON: arrays of two. -/
def entriesToJson : List (Wire × Wire) → List Json
  | [] => []
  | (key, value) :: entries =>
    .arr [key.toJson, value.toJson] :: entriesToJson entries

end

/-! ## Reading -/

end Wire

/-- A double from JSON: a number, or one of the texts that stand for one. -/
def Double.ofWireJson? : Json → Option Double
  | .str (some "inf") => some (.infinity false)
  | .str (some "-inf") => some (.infinity true)
  | .str (some "nan") => some .nan
  | j => j.double?

namespace Wire

/-- How many brackets a text may open inside one another. -/
def maxDepth : Nat := 127

/-- What is read `depth` brackets further in, if there is room for them. -/
def within {α : Type} (room depth : Nat) (found : Option α) : Option α :=
  if depth ≤ room then found else none

/-- A tag: its name, or an object of one member with that name and nothing in
it, which takes room. -/
def Tag.ofJson? (room : Nat) : Json → Option Tag
  | .str (some name) => Tag.ofName? name
  | .obj [(some name, .null)] => within room 1 (Tag.ofName? name)
  | _ => none

/-- The fields of a record, all of which are needed. -/
def parts? (names : List String) (j : Json) : Option (List Json) := do
  (← (← j.record?).slots? names).mapM id

/-- A field of a struct: a record of its id and its value. -/
def fieldOfJson? (read : Json → Option Wire) (j : Json) :
    Option (Int16 × Wire) := do
  let [id, value] ← parts? ["id", "value"] j | none
  return (← id.int16?, ← read value)

/-- An entry of a map: an array of its key and its value. -/
def entryOfJson? (read : Json → Option Wire) : Json → Option (Wire × Wire)
  | .arr [key, value] => do return (← read key, ← read value)
  | _ => none

/-- The tag and the items of a list or set. -/
def sequenceOfJson? (room : Nat) (read : Json → Option Wire) (j : Json) :
    Option (Tag × List Wire) := do
  let [element, items] ← parts? ["element", "items"] j | none
  return (← Tag.ofJson? (room - 2) element,
    ← within room 3 (items.list? read))

/-- The tags and the entries of a map. -/
def mapOfJson? (room : Nat) (read : Json → Option Wire) (j : Json) :
    Option (Tag × Tag × List (Wire × Wire)) := do
  let [key, value, entries] ← parts? ["key", "value", "entries"] j | none
  return (← Tag.ofJson? (room - 2) key, ← Tag.ofJson? (room - 2) value,
    ← within room 3
      (entries.list? fun entry => within room 4 (entryOfJson? read entry)))

/-- **One level of a wire value**, where `inner` reads what is nested three
brackets further in and `innermost` what is nested four further in. -/
def content (room : Nat) (inner innermost : Json → Option Wire) :
    Json → Option Wire
  | .obj [(some name, payload)] =>
    within room 1 <| (Tag.ofName? name).bind fun
    | .bool => payload.bool?.map .bool
    | .byte => (payload.int?.bind Width.int8?).map .byte
    | .i16 => payload.int16?.map .i16
    | .i32 => payload.int32?.map .i32
    | .i64 => payload.int64?.map .i64
    | .double => (Double.ofWireJson? payload).map .double
    | .string => payload.string?.map .string
    | .binary => within room 2 ((payload.list? Json.uint8?).map .binary)
    | .struct =>
      within room 2 <|
        (payload.list? fun field => within room 3 (fieldOfJson? inner field)).map
          .struct
    | .map =>
      within room 2 <| (mapOfJson? room innermost payload).map
        fun (key, value, entries) => .map key value entries
    | .set =>
      within room 2 <| (sequenceOfJson? room inner payload).map
        fun (element, items) => .set element items
    | .list =>
      within room 2 <| (sequenceOfJson? room inner payload).map
        fun (element, items) => .list element items
  | _ => none

/-- **Read a wire value** in the given room. -/
def ofJson? : Nat → Json → Option Wire
  | 0 => content 0 (fun _ => none) (fun _ => none)
  | 1 => content 1 (fun _ => none) (fun _ => none)
  | 2 => content 2 (fun _ => none) (fun _ => none)
  | 3 => content 3 (ofJson? 0) (fun _ => none)
  | room + 4 => content (room + 4) (ofJson? (room + 1)) (ofJson? room)

/-- **Read the payload of a wire value.** -/
def ofBytes? (bytes : List UInt8) : Option Wire :=
  (Json.ofBytes? bytes).bind (ofJson? maxDepth)

end Wire

end Interlink
