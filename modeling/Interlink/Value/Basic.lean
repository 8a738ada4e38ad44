import Interlink.Number.Double

/-!
# Values

The values of the types that documents define: what a constant evaluates to,
what a field defaults to, and what is sent and received. A value of a defined
type carries the name of its type.
-/

namespace Interlink

/-- **A value of some type.** The fields of a struct stand in the order in
which they were first set; a field that was never set is not among them. -/
inductive Value where
  /-- A truth value. -/
  | bool (b : Bool)
  /-- A whole number of eight bits. -/
  | byte (n : Int8)
  /-- A whole number of sixteen bits. -/
  | i16 (n : Int16)
  /-- A whole number of thirty-two bits. -/
  | i32 (n : Int32)
  /-- A whole number of sixty-four bits. -/
  | i64 (n : Int64)
  /-- A double. -/
  | double (d : Double)
  /-- A text. -/
  | string (s : String)
  /-- Bytes. -/
  | binary (bytes : List UInt8)
  /-- A sequence. -/
  | list (items : List Value)
  /-- A sequence that stands for a set. -/
  | set (items : List Value)
  /-- A sequence of keys with their values. -/
  | map (entries : List (Value × Value))
  /-- A value of an enum. -/
  | enum (typeName : String) (value : Int32)
  /-- An instance of a struct, union or exception. -/
  | struct (typeName : String) (fields : List (String × Value))

instance : Inhabited Value := ⟨.bool false⟩

/-- **Setting a name in an ordered table.** A new name goes to the end; a name
that is there keeps its place. -/
def put {α : Type} (table : List (String × α)) (name : String) (a : α) :
    List (String × α) :=
  if table.any fun entry => entry.1 == name then
    table.map fun entry => if entry.1 == name then (name, a) else entry
  else table ++ [(name, a)]

namespace Value

/-- What a value is, in a word, for messages. -/
def describe : Value → String
  | .bool _ => "bool"
  | .byte _ => "byte"
  | .i16 _ => "i16"
  | .i32 _ => "i32"
  | .i64 _ => "i64"
  | .double _ => "double"
  | .string _ => "string"
  | .binary _ => "binary"
  | .list _ => "list"
  | .set _ => "set"
  | .map _ => "map"
  | .enum .. => "enum value"
  | .struct .. => "struct value"

/-- The number of a whole number of any width. -/
def wholeNumber? : Value → Option Int
  | .byte n => some n.toInt
  | .i16 n => some n.toInt
  | .i32 n => some n.toInt
  | .i64 n => some n.toInt
  | _ => none

/-- The number of a whole number of any width, or of a value of an enum. -/
def int? : Value → Option Int
  | .enum _ n => some n.toInt
  | v => v.wholeNumber?

/-! ## Equality -/

mutual

/-- **Equality of values.** Doubles are compared as numbers, and the order of
the fields of a struct does not count. -/
def same : Value → Value → Bool
  | .bool a, .bool b => a == b
  | .byte a, .byte b => a == b
  | .i16 a, .i16 b => a == b
  | .i32 a, .i32 b => a == b
  | .i64 a, .i64 b => a == b
  | .double a, .double b => a.same b
  | .string a, .string b => a == b
  | .binary a, .binary b => a == b
  | .list as, .list bs => sameItems as bs
  | .set as, .set bs => sameItems as bs
  | .map as, .map bs => sameEntries as bs
  | .enum m a, .enum n b => m == n && a == b
  | .struct m as, .struct n bs =>
    m == n && as.length == bs.length && sameFields as bs
  | _, _ => false
termination_by structural a => a

/-- Equality of sequences, item by item. -/
def sameItems : List Value → List Value → Bool
  | [], [] => true
  | a :: as, b :: bs => a.same b && sameItems as bs
  | _, _ => false
termination_by structural as => as

/-- Equality of sequences of keys with their values, pair by pair. -/
def sameEntries : List (Value × Value) → List (Value × Value) → Bool
  | [], [] => true
  | (j, a) :: as, (k, b) :: bs => j.same k && a.same b && sameEntries as bs
  | _, _ => false
termination_by structural as => as

/-- Whether every field of the first table has an equal one in the second. -/
def sameFields : List (String × Value) → List (String × Value) → Bool
  | [], _ => true
  | (name, a) :: as, bs =>
    (match bs.lookup name with
      | some b => a.same b
      | none => false) && sameFields as bs
termination_by structural as => as

end

end Value

end Interlink
