/-!
# Primitive types

The types that a document may use without defining them.
-/

namespace Interlink

/-- **A primitive type.** -/
inductive Primitive where
  /-- A truth value. -/
  | bool
  /-- A whole number of eight bits. -/
  | byte
  /-- A whole number of sixteen bits. -/
  | i16
  /-- A whole number of thirty-two bits. -/
  | i32
  /-- A whole number of sixty-four bits. -/
  | i64
  /-- A double. -/
  | double
  /-- A text. -/
  | string
  /-- Bytes. -/
  | binary
  deriving DecidableEq

namespace Primitive

def keyword : Primitive → String
  | .bool => "bool"
  | .byte => "byte"
  | .i16 => "i16"
  | .i32 => "i32"
  | .i64 => "i64"
  | .double => "double"
  | .string => "string"
  | .binary => "binary"

def all : List Primitive :=
  [.bool, .byte, .i16, .i32, .i64, .double, .string, .binary]

def ofKeyword? (word : String) : Option Primitive :=
  all.find? fun p => p.keyword == word

/-- The least and the greatest number of an integer type. -/
def range? : Primitive → Option (Int × Int)
  | .byte => some (-0x80, 0x80 - 1)
  | .i16 => some (-0x8000, 0x8000 - 1)
  | .i32 => some (-0x80000000, 0x80000000 - 1)
  | .i64 => some (-0x8000000000000000, 0x8000000000000000 - 1)
  | _ => none

def isInteger (p : Primitive) : Bool := p.range?.isSome

end Primitive

end Interlink
