import Interlink.Number.Width
import Interlink.Json.Tree

/-!
# Reading fields from a tree

Records are written as objects, and may be written as arrays: the fields in
their declared order, with as many left off at the end as have a default. A
`Record` is either form. Asked for the declared names it answers with one slot
for each, filled or empty (`Record.slots?`), and refuses a name given twice, a
name without a text and an item too many. Names that are not declared are
passed over. Of a record without defaults an array has to hold every field,
those that may be absent as `null` (`Record.fullSlots?`).

A choice is written as an object of one member named for it, or as its bare
name when it carries nothing (`Json.variant?`); a definition or header carries
its choice in a member `kind` of the record itself (`Json.kinded?`).
-/

namespace Interlink.Json

/-- **A record, read as far as its fields**: members by name or items by
place. -/
inductive Record (α : Type) where
  /-- Members with names. -/
  | named (members : List (Option String × α))
  /-- Items in the order of the fields. -/
  | positional (items : List α)

namespace Record

variable {α : Type}

/-- How often a name is given. -/
def occurrences (name : String) (members : List (Option String × α)) : Nat :=
  members.countP fun member => member.1 == some name

/-- **The slots of a record**, one for each declared name in order. -/
def slots? (names : List String) : Record α → Option (List (Option α))
  | .named members =>
    if members.all (fun member => member.1.isSome)
        && names.all (fun name => occurrences name members ≤ 1) then
      some (names.map fun name => members.lookup (some name))
    else none
  | .positional items =>
    if items.length ≤ names.length then
      some (items.map some ++ List.replicate (names.length - items.length) none)
    else none

/-- The slots of a record without defaults. Only as an object may it leave
fields off. -/
def fullSlots? (names : List String) : Record α → Option (List (Option α))
  | .named members => (named members).slots? names
  | .positional items =>
    if items.length = names.length then some (items.map some) else none

end Record

variable {α : Type}

/-- An object or an array as a record. -/
def record? : Json → Option (Record Json)
  | .obj members => some (.named members)
  | .arr items => some (.positional items)
  | _ => none

/-! ## Single values -/

/-- A string that has a text. -/
def string? : Json → Option String
  | .str s => s
  | _ => none

def bool? : Json → Option Bool
  | .bool b => some b
  | _ => none

def int? : Json → Option Int
  | .num n => n.int?
  | _ => none

/-- A double, from any number. -/
def double? : Json → Option Double
  | .num n => n.double?
  | _ => none

/-- An array, every item of which can be read. -/
def list? (read : Json → Option α) : Json → Option (List α)
  | .arr items => items.mapM read
  | _ => none

/-- **A whole number of a width.** -/
def fit? (w : Width α) (j : Json) : Option α := j.int?.bind w.fit?

def int16? : Json → Option Int16 := fit? .int16

def int32? : Json → Option Int32 := fit? .int32

def int64? : Json → Option Int64 := fit? .int64

def uint8? : Json → Option UInt8 := fit? .uint8

def uint32? : Json → Option UInt32 := fit? .uint32

def uint64? : Json → Option UInt64 := fit? .uint64

/-! ## Slots -/

/-- The value of a slot that stands for `fallback` when it is empty. -/
def orElse (slot : Option Json) (fallback : α) (read : Json → Option α) :
    Option α :=
  match slot with
  | none => some fallback
  | some j => read j

/-- The value of a slot that may be absent: empty, or `null`. -/
def orNull (slot : Option Json) (read : Json → Option α) : Option (Option α) :=
  match slot with
  | none => some none
  | some .null => some none
  | some j => (read j).map some

/-! ## Choices -/

/-- **A choice**: its name and what it carries, if it carries anything. -/
def variant? : Json → Option (String × Option Json)
  | .str (some name) => some (name, none)
  | .obj [(some name, payload)] => some (name, some payload)
  | _ => none

/-- A choice that carries nothing. What it carries may be spelled out as
`null`. -/
def bare? (j : Json) : Option String :=
  match j.variant? with
  | some (name, none) => some name
  | some (name, some .null) => some name
  | _ => none

/-- A choice that carries nothing, where that may also be spelled out as an
empty object. -/
def bareOrEmpty? (j : Json) : Option String :=
  match j.variant? with
  | some (name, some (.obj [])) => some name
  | _ => j.bare?

/-- **A record that names its own kind**: in the one member `kind`, wherever
it stands, or in the first item. -/
def kinded? : Json → Option (String × Record Json)
  | .obj members =>
    match members.filter fun member => member.1 == some "kind" with
    | [(_, .str (some kind))] =>
      some (kind, .named (members.filter fun member => member.1 != some "kind"))
    | _ => none
  | .arr (.str (some kind) :: items) => some (kind, .positional items)
  | _ => none

end Interlink.Json
