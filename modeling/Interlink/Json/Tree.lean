import Interlink.Json.Token
import Interlink.Text.Utf8

/-!
# JSON trees and their texts

A tree is built from the tokens of a text by a machine with a stack: one frame
for each array or object that is open, and between tokens either a finished
value or none. Written out, a tree is a sequence of tokens again
(`Json.tokens`), and a text is that sequence with or without blanks: compact,
or one item to a line (`Json.pretty`).
-/

namespace Interlink.Json

/-! ## Building -/

/-- An array or object that is still open, with what it holds so far, the last
item first. An object also waits for the value of its last name. -/
inductive Frame where
  /-- An open array. -/
  | array (items : List Json)
  /-- An open object. -/
  | object (members : List (Option String × Json)) (name : Option String)

/-- **Building a tree from tokens.** The first argument is the value just
finished, if the last token finished one, and the second the open frames, the
innermost first. -/
def build? : Option Json → List Frame → List Token → Option Json
  | some value, [], [] => some value
  | none, frames, .null :: rest => build? (some .null) frames rest
  | none, frames, .bool b :: rest => build? (some (.bool b)) frames rest
  | none, frames, .num n :: rest => build? (some (.num n)) frames rest
  | none, frames, .str s :: rest => build? (some (.str s)) frames rest
  | none, frames, .openArray :: .closeArray :: rest =>
    build? (some (.arr [])) frames rest
  | none, frames, .openArray :: rest => build? none (.array [] :: frames) rest
  | none, frames, .openObject :: .closeObject :: rest =>
    build? (some (.obj [])) frames rest
  | none, frames, .openObject :: .str name :: .colon :: rest =>
    build? none (.object [] name :: frames) rest
  | some value, .array items :: frames, .comma :: rest =>
    build? none (.array (value :: items) :: frames) rest
  | some value, .array items :: frames, .closeArray :: rest =>
    build? (some (.arr (value :: items).reverse)) frames rest
  | some value, .object members name :: frames,
      .comma :: .str next :: .colon :: rest =>
    build? none (.object ((name, value) :: members) next :: frames) rest
  | some value, .object members name :: frames, .closeObject :: rest =>
    build? (some (.obj ((name, value) :: members).reverse)) frames rest
  | _, _, _ => none

/-- **Reading a text.** -/
def parse? (s : String) : Option Json :=
  (Token.scan? (s.toList.map some)).bind (build? none [])

/-- **Reading a payload**, which need not be a text: a string in it may hold
bytes that are part of no character, and then has no text. -/
def ofBytes? (bytes : List UInt8) : Option Json :=
  (Token.scan? (Text.letters bytes)).bind (build? none [])

/-! ## Writing -/

mutual

/-- **The tokens of a tree.** -/
def tokens : Json → List Token
  | .null => [.null]
  | .bool b => [.bool b]
  | .num n => [.num n]
  | .str s => [.str s]
  | .arr items => .openArray :: itemTokens items ++ [.closeArray]
  | .obj members => .openObject :: memberTokens members ++ [.closeObject]

/-- The tokens of the items of an array, commas between them. -/
def itemTokens : List Json → List Token
  | [] => []
  | [item] => item.tokens
  | item :: items => item.tokens ++ .comma :: itemTokens items

/-- The tokens of the members of an object, commas between them. -/
def memberTokens : List (Option String × Json) → List Token
  | [] => []
  | [(name, value)] => .str name :: .colon :: value.tokens
  | (name, value) :: members =>
    .str name :: .colon :: value.tokens ++ .comma :: memberTokens members

end

/-- **The compact text of a tree**: its tokens and nothing between them. -/
def compact (j : Json) : String :=
  String.ofList (j.tokens.flatMap Token.text)

/-- A new line, indented two blanks for each level. -/
def newline (level : Nat) : List Char := '\n' :: List.replicate (2 * level) ' '

mutual

/-- The characters of a tree with one item or member to a line. -/
def prettyChars (level : Nat) : Json → List Char
  | .arr (item :: items) =>
    '[' :: prettyItems (level + 1) (item :: items) ++ newline level ++ [']']
  | .obj (member :: members) =>
    '\x7b' :: prettyMembers (level + 1) (member :: members)
      ++ newline level ++ ['\x7d']
  | .arr [] => ['[', ']']
  | .obj [] => ['\x7b', '\x7d']
  | .null => Token.text .null
  | .bool b => Token.text (.bool b)
  | .num n => n.text
  | .str s => Token.text (.str s)

/-- The items of an array, each on a line of its own. -/
def prettyItems (level : Nat) : List Json → List Char
  | [] => []
  | [item] => newline level ++ prettyChars level item
  | item :: items =>
    newline level ++ prettyChars level item ++ ',' :: prettyItems level items

/-- The members of an object, each on a line of its own. -/
def prettyMembers (level : Nat) : List (Option String × Json) → List Char
  | [] => []
  | [(name, value)] =>
    newline level ++ Token.text (.str name) ++ ':' :: ' '
      :: prettyChars level value
  | (name, value) :: members =>
    newline level ++ Token.text (.str name) ++ ':' :: ' '
      :: prettyChars level value ++ ',' :: prettyMembers level members

end

/-- **The spread text of a tree**: one item or member to a line, two blanks of
indentation for each level, a blank after a colon, and empty brackets left
together. -/
def pretty (j : Json) : String := String.ofList (prettyChars 0 j)

end Interlink.Json
