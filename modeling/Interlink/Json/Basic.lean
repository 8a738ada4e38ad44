import Interlink.Json.Number

/-!
# JSON trees

A JSON tree keeps what the text says and decides nothing: members stay in
order and may repeat, numbers stay as written, and a string that is not made of
characters alone is kept as a string without a text. What a document or a wire
value makes of a tree is its own affair. Two questions are common to all of
them, and are asked here: how deep a tree nests (`depth`), and whether all of
it can be read (`readable`).
-/

namespace Interlink

/-- **A JSON tree.** A string, and the name of a member, is `none` when it has
no text: an escape in it stands for half of a surrogate pair, or a byte in it
is part of no character. -/
inductive Json where
  /-- `null` -/
  | null
  /-- `true` or `false` -/
  | bool (b : Bool)
  /-- A number as it is written. -/
  | num (n : Json.Number)
  /-- A string, if it has a text. -/
  | str (text : Option String)
  /-- The items of an array. -/
  | arr (items : List Json)
  /-- The members of an object, as written. -/
  | obj (members : List (Option String × Json))

instance : Inhabited Json := ⟨.null⟩

namespace Json

def text (s : String) : Json := .str (some s)

def int (n : Int) : Json := .num (.ofInt n)

/-- A double; one that is not finite has no number and is written `null`. -/
def double (d : Double) : Json :=
  if d.isFinite then .num (.ofDouble d) else .null

/-- An object with members of the given names. -/
def object (members : List (String × Json)) : Json :=
  .obj (members.map fun (name, value) => (some name, value))

/-- An object of one member. -/
def tagged (tag : String) (value : Json) : Json := object [(tag, value)]

/-- A value that may be absent, `null` when it is. -/
def option {α : Type} (toJson : α → Json) : Option α → Json
  | none => .null
  | some a => toJson a

/-! ## Depth -/

mutual

/-- **How deep a tree nests**: the largest number of arrays and objects around
one place of it. -/
def depth : Json → Nat
  | .arr items => 1 + depthItems items
  | .obj members => 1 + depthMembers members
  | _ => 0

/-- The greatest depth among the items of an array. -/
def depthItems : List Json → Nat
  | [] => 0
  | item :: items => max item.depth (depthItems items)

/-- The greatest depth among the members of an object. -/
def depthMembers : List (Option String × Json) → Nat
  | [] => 0
  | (_, value) :: members => max value.depth (depthMembers members)

end

/-! ## Readability -/

mutual

/-- **Whether all of a tree can be read**: every string has a text and every
number is within the range of doubles. -/
def readable : Json → Bool
  | .num n => n.double?.isSome
  | .str text => text.isSome
  | .arr items => readableItems items
  | .obj members => readableMembers members
  | _ => true

/-- Whether all items of an array can be read. -/
def readableItems : List Json → Bool
  | [] => true
  | item :: items => item.readable && readableItems items

/-- Whether all members of an object can be read, names included. -/
def readableMembers : List (Option String × Json) → Bool
  | [] => true
  | (name, value) :: members =>
    name.isSome && value.readable && readableMembers members

end

end Json

end Interlink
