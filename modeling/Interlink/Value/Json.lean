import Interlink.Json.Record
import Interlink.Value.Basic

/-!
# Values in JSON

A value is written as an object of one member named for its form, so that
whole numbers of different widths stay apart. The fields of a struct are the
members of an object, in order.
-/

namespace Interlink.Value

open Json (Record)

/-! ## Writing -/

mutual

/-- **A value in JSON.** -/
def toJson : Value → Json
  | .bool b => .tagged "bool" (.bool b)
  | .byte n => .tagged "byte" (.int n.toInt)
  | .i16 n => .tagged "i16" (.int n.toInt)
  | .i32 n => .tagged "i32" (.int n.toInt)
  | .i64 n => .tagged "i64" (.int n.toInt)
  | .double d => .tagged "double" (.double d)
  | .string s => .tagged "string" (.text s)
  | .binary bytes => .tagged "binary" (.arr (bytes.map fun b => .int b.toNat))
  | .list items => .tagged "list" (.arr (itemsToJson items))
  | .set items => .tagged "set" (.arr (itemsToJson items))
  | .map entries => .tagged "map" (.arr (entriesToJson entries))
  | .enum typeName n =>
    .tagged "enum"
      (.object [("type_name", .text typeName), ("value", .int n.toInt)])
  | .struct typeName fields =>
    .tagged "struct"
      (.object [("type_name", .text typeName),
        ("fields", .obj (fieldsToJson fields))])

def itemsToJson : List Value → List Json
  | [] => []
  | item :: items => item.toJson :: itemsToJson items

/-- The entries of a map in JSON: arrays of two. -/
def entriesToJson : List (Value × Value) → List Json
  | [] => []
  | (key, value) :: entries =>
    .arr [key.toJson, value.toJson] :: entriesToJson entries

/-- The fields of a struct as the members of an object. -/
def fieldsToJson : List (String × Value) → List (Option String × Json)
  | [] => []
  | (name, value) :: fields => (some name, value.toJson) :: fieldsToJson fields

end

/-! ## Reading -/

/-- The value of an enum. -/
def enumOfJson? (j : Json) : Option Value := do
  let [typeName, n] ← (← j.record?).slots? ["type_name", "value"] | none
  return .enum (← typeName.bind Json.string?) (← n.bind Json.int32?)

/-- The name in the record of a struct, provided that neither member is given
twice. -/
def typeNameOf? (members : List (Option String × Json)) : Option String := do
  let [typeName, _] ←
    (Record.named members).slots? ["type_name", "fields"] | none
  typeName.bind Json.string?

mutual

/-- **Read a value.** -/
def ofJson? : Json → Option Value
  | .obj [(some "bool", j)] => j.bool?.map .bool
  | .obj [(some "byte", j)] => (j.int?.bind Width.int8?).map .byte
  | .obj [(some "i16", j)] => j.int16?.map .i16
  | .obj [(some "i32", j)] => j.int32?.map .i32
  | .obj [(some "i64", j)] => j.int64?.map .i64
  | .obj [(some "double", j)] => j.double?.map .double
  | .obj [(some "string", j)] => j.string?.map .string
  | .obj [(some "binary", j)] => (j.list? Json.uint8?).map .binary
  | .obj [(some "list", .arr items)] => (ofItems? items).map .list
  | .obj [(some "set", .arr items)] => (ofItems? items).map .set
  | .obj [(some "map", .arr entries)] => (ofEntries? entries).map .map
  | .obj [(some "enum", j)] => enumOfJson? j
  | .obj [(some "struct", .obj members)] =>
    match typeNameOf? members, ofStructMembers? members with
    | some typeName, some fields => some (.struct typeName fields)
    | _, _ => none
  | .obj [(some "struct", .arr [.str (some typeName), .obj members])] =>
    (ofFields? [] members).map (.struct typeName)
  | _ => none

def ofItems? : List Json → Option (List Value)
  | [] => some []
  | j :: items =>
    match ofJson? j, ofItems? items with
    | some item, some items => some (item :: items)
    | _, _ => none

def ofEntries? : List Json → Option (List (Value × Value))
  | [] => some []
  | .arr [j, k] :: entries =>
    match ofJson? j, ofJson? k, ofEntries? entries with
    | some key, some value, some entries => some ((key, value) :: entries)
    | _, _, _ => none
  | _ => none

/-- Read the fields in the record of a struct. -/
def ofStructMembers? :
    List (Option String × Json) → Option (List (String × Value))
  | [] => none
  | (some "fields", .obj members) :: _ => ofFields? [] members
  | (name, _) :: members =>
    if name = some "fields" then none else ofStructMembers? members

/-- Read the fields of a struct from the members of an object, behind those
that are there already. -/
def ofFields? (done : List (String × Value)) :
    List (Option String × Json) → Option (List (String × Value))
  | [] => some done
  | (some name, j) :: members =>
    match ofJson? j with
    | some value => ofFields? (put done name value) members
    | none => none
  | (none, _) :: _ => none

end

end Interlink.Value
