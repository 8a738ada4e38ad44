import Interlink.Number.Double

/-!
# Wire values

What a protocol sends is a wire value: a value without names. The fields of a
struct go by their ids, a value of an enum is its number, and a container says
which kind of value it holds, so that an empty one says so too. The kinds are
the tags; `Wire.tag` gives the tag of a wire value, which need not be the one
that a container around it announces.
-/

namespace Interlink

/-- **The kind of a wire value.** -/
inductive Wire.Tag where
  /-- A truth value. -/
  | bool
  /-- A whole number of eight bits. -/
  | byte
  /-- A whole number of sixteen bits. -/
  | i16
  /-- A whole number of thirty-two bits, or a value of an enum. -/
  | i32
  /-- A whole number of sixty-four bits. -/
  | i64
  /-- A double. -/
  | double
  /-- A text. -/
  | string
  /-- Bytes. -/
  | binary
  /-- An instance of a struct, union or exception. -/
  | struct
  /-- Keys with their values. -/
  | map
  /-- A sequence that stands for a set. -/
  | set
  /-- A sequence. -/
  | list
  deriving DecidableEq

namespace Wire.Tag

/-- The tags in the order in which a protocol counts them. -/
def all : List Tag :=
  [.bool, .byte, .i16, .i32, .i64, .double, .string, .binary, .struct, .map,
    .set, .list]

def name : Tag → String
  | .bool => "bool"
  | .byte => "byte"
  | .i16 => "i16"
  | .i32 => "i32"
  | .i64 => "i64"
  | .double => "double"
  | .string => "string"
  | .binary => "binary"
  | .struct => "struct"
  | .map => "map"
  | .set => "set"
  | .list => "list"

def ofName? (name : String) : Option Tag :=
  all.find? fun tag => tag.name == name

@[simp] theorem ofName?_name (tag : Tag) : ofName? tag.name = some tag := by
  cases tag <;> decide

end Wire.Tag

/-- **A value as a protocol sees it.** -/
inductive Wire where
  /-- A truth value. -/
  | bool (b : Bool)
  /-- A whole number of eight bits. -/
  | byte (n : Int8)
  /-- A whole number of sixteen bits. -/
  | i16 (n : Int16)
  /-- A whole number of thirty-two bits. -/
  | i32 (n : Int32)
  /-- A whole number of sixty-four bits. -/
  | i64 (n : Int64)
  /-- A double. -/
  | double (d : Double)
  /-- A text. -/
  | string (s : String)
  /-- Bytes. -/
  | binary (bytes : List UInt8)
  /-- Fields by their ids, in the order in which they are sent. -/
  | struct (fields : List (Int16 × Wire))
  /-- Keys with their values, under the tags announced for both. -/
  | map (key value : Wire.Tag) (entries : List (Wire × Wire))
  /-- The items of a set, under the tag announced for them. -/
  | set (element : Wire.Tag) (items : List Wire)
  /-- The items of a list, under the tag announced for them. -/
  | list (element : Wire.Tag) (items : List Wire)

namespace Wire

/-- The kind of a wire value. -/
def tag : Wire → Tag
  | .bool _ => .bool
  | .byte _ => .byte
  | .i16 _ => .i16
  | .i32 _ => .i32
  | .i64 _ => .i64
  | .double _ => .double
  | .string _ => .string
  | .binary _ => .binary
  | .struct _ => .struct
  | .map .. => .map
  | .set .. => .set
  | .list .. => .list

/-- The first field of a struct with an id. -/
def field? (id : Int16) : Wire → Option Wire
  | .struct fields => fields.lookup id
  | _ => none

end Wire

end Interlink
