import Interlink.Json.Basic

/-!
# JSON texts as tokens

A JSON text is a sequence of tokens with blanks between them. Scanning a text
gives its tokens, or nothing when some of it is no token (`Token.scan?`); each
token also has a text of its own (`Token.text`).

What is scanned are letters: the characters of a text or, in a payload, also
bytes that are part of no character, which only a string may hold. A string is
scanned in two steps, because an escape `\uXXXX` stands for a unit of UTF-16
and not for a character: first the pieces of the string, then its characters,
where two units that make a surrogate pair are one character. A unit left
over, or a byte that is part of no character, makes the string one without a
text; it is still a token, for a value that nobody reads may hold it.
-/

namespace Interlink.Json

/-- **A token of a JSON text.** -/
inductive Token where
  /-- An opening square bracket. -/
  | openArray
  /-- A closing square bracket. -/
  | closeArray
  /-- An opening brace. -/
  | openObject
  /-- A closing brace. -/
  | closeObject
  /-- A comma. -/
  | comma
  /-- A colon. -/
  | colon
  /-- The word `null`. -/
  | null
  /-- The word `true` or `false`. -/
  | bool (b : Bool)
  /-- A number. -/
  | num (n : Number)
  /-- A string, if it has a text. -/
  | str (text : Option String)
  deriving DecidableEq

/-! ## Strings -/

/-- A piece of a string: a character that stands for itself or for a
one-letter escape, a unit of UTF-16 given by its number, or a byte that is
part of no character. -/
inductive Piece where
  /-- A character. -/
  | char (c : Char)
  /-- A unit of UTF-16. -/
  | unit (n : Nat)
  /-- A byte that is part of no character. -/
  | stray
  deriving DecidableEq

/-- The value of a hexadecimal digit, in either case. -/
def hexValue? (c : Char) : Option Nat :=
  if '0' ≤ c ∧ c ≤ '9' then some (c.toNat - '0'.toNat)
  else if 'a' ≤ c ∧ c ≤ 'f' then some (c.toNat - 'a'.toNat + 10)
  else if 'A' ≤ c ∧ c ≤ 'F' then some (c.toNat - 'A'.toNat + 10)
  else none

/-- The unit that four hexadecimal digits spell. -/
def unit? (a b c d : Char) : Option Nat :=
  match hexValue? a, hexValue? b, hexValue? c, hexValue? d with
  | some a, some b, some c, some d => some (((a * 16 + b) * 16 + c) * 16 + d)
  | _, _, _, _ => none

/-- The character that a one-letter escape stands for. -/
def escaped? : Char → Option Char
  | '"' => some '"'
  | '\\' => some '\\'
  | '/' => some '/'
  | 'b' => some '\x08'
  | 'f' => some '\x0c'
  | 'n' => some '\n'
  | 'r' => some '\r'
  | 't' => some '\t'
  | _ => none

/-- The pieces of a string up to its closing quote, and what follows the
quote. A control character may not stand for itself. `done` holds the pieces
so far, the last one first. -/
def pieces? (done : List Piece) :
    List (Option Char) → Option (List Piece × List (Option Char))
  | [] => none
  | none :: rest => pieces? (.stray :: done) rest
  | some '"' :: rest => some (done.reverse, rest)
  | some '\\' :: some 'u' :: some a :: some b :: some c :: some d :: rest =>
    match unit? a b c d with
    | some n => pieces? (.unit n :: done) rest
    | none => none
  | some '\\' :: some c :: rest =>
    match escaped? c with
    | some c => pieces? (.char c :: done) rest
    | none => none
  | some c :: rest =>
    if c.toNat < 0x20 ∨ c = '\\' then none else pieces? (.char c :: done) rest

/-- The first unit of a surrogate pair. -/
def isHighSurrogate (n : Nat) : Bool := decide (0xd800 ≤ n ∧ n < 0xdc00)

/-- The second unit of a surrogate pair. -/
def isLowSurrogate (n : Nat) : Bool := decide (0xdc00 ≤ n ∧ n < 0xe000)

/-- **The characters of a string**, if its pieces make a text. `done` holds
the characters so far, the last one first. -/
def characters? (done : List Char) : List Piece → Option (List Char)
  | [] => some done.reverse
  | .stray :: _ => none
  | .char c :: rest => characters? (c :: done) rest
  | .unit high :: .unit low :: rest =>
    if isHighSurrogate high && isLowSurrogate low then
      let point := 0x10000 + (high - 0xd800) * 0x400 + (low - 0xdc00)
      characters? (Char.ofNat point :: done) rest
    else if isHighSurrogate high || isLowSurrogate high then none
    else characters? (Char.ofNat high :: done) (.unit low :: rest)
  | .unit n :: rest =>
    if isHighSurrogate n || isLowSurrogate n then none
    else characters? (Char.ofNat n :: done) rest

/-! ## Numbers -/

def isDigit : Option Char → Bool
  | some c => decide ('0' ≤ c ∧ c ≤ '9')
  | none => false

/-- The digits in front of a text, and what follows them. -/
def spanDigits (letters : List (Option Char)) :
    List Char × List (Option Char) :=
  ((letters.takeWhile isDigit).filterMap id, letters.dropWhile isDigit)

/-- The digits after a point, if there is a point; at least one must follow
it. -/
def fraction? : List (Option Char) → Option (List Char × List (Option Char))
  | some '.' :: rest =>
    match spanDigits rest with
    | ([], _) => none
    | (digits, rest) => some (digits, rest)
  | rest => some ([], rest)

/-- The sign in front of an exponent: whether it is a minus. -/
def exponentSign : List (Option Char) → Bool × List (Option Char)
  | some '-' :: rest => (true, rest)
  | some '+' :: rest => (false, rest)
  | rest => (false, rest)

/-- The digits of an exponent, with its sign; there must be one at least. -/
def exponentDigits? (letters : List (Option Char)) :
    Option (Option (Bool × List Char) × List (Option Char)) :=
  let (below, rest) := exponentSign letters
  match spanDigits rest with
  | ([], _) => none
  | (digits, rest) => some (some (below, digits), rest)

/-- The exponent in front of a text, if there is one. -/
def exponent? : List (Option Char) →
    Option (Option (Bool × List Char) × List (Option Char))
  | some 'e' :: rest => exponentDigits? rest
  | some 'E' :: rest => exponentDigits? rest
  | rest => some (none, rest)

/-- The number in front of a text that starts with a digit or, when
`negative` says that a minus has been read, has to. A leading zero stands
alone. -/
def number? (negative : Bool) (letters : List (Option Char)) :
    Option (Number × List (Option Char)) :=
  match spanDigits letters with
  | ([], _) => none
  | ('0' :: _ :: _, _) => none
  | (whole, rest) =>
    match fraction? rest with
    | none => none
    | some (fraction, rest) =>
      match exponent? rest with
      | none => none
      | some (exponent, rest) =>
        some (⟨negative, whole, fraction, exponent⟩, rest)

/-! ## Scanning -/

/-- A word that is a token, if it stands in front of a text. -/
def word? (token : Token) : List Char → List (Option Char) →
    Option (Token × List (Option Char))
  | [], rest => some (token, rest)
  | c :: word, some d :: rest => if c = d then word? token word rest else none
  | _ :: _, _ => none

/-- The token that starts with a given character, of which the rest is in
front of a text. -/
def token? (first : Char) (rest : List (Option Char)) :
    Option (Token × List (Option Char)) :=
  match first with
  | '[' => some (.openArray, rest)
  | ']' => some (.closeArray, rest)
  | '\x7b' => some (.openObject, rest)
  | '\x7d' => some (.closeObject, rest)
  | ',' => some (.comma, rest)
  | ':' => some (.colon, rest)
  | 'n' => word? .null ['u', 'l', 'l'] rest
  | 't' => word? (.bool true) ['r', 'u', 'e'] rest
  | 'f' => word? (.bool false) ['a', 'l', 's', 'e'] rest
  | '"' =>
    match pieces? [] rest with
    | some (pieces, rest) =>
      some (.str ((characters? [] pieces).map String.ofList), rest)
    | none => none
  | '-' => (number? true rest).map fun (n, rest) => (.num n, rest)
  | c => (number? false (some c :: rest)).map fun (n, rest) => (.num n, rest)

/-- The four blanks of JSON. -/
def isBlank (c : Char) : Bool :=
  c == ' ' || c == '\t' || c == '\n' || c == '\r'

/-- Scan letters. `fuel` bounds their number and `done` holds the tokens so
far, the last one first. -/
def scanFrom? : Nat → List Token → List (Option Char) → Option (List Token)
  | _, done, [] => some done.reverse
  | _, _, none :: _ => none
  | 0, _, some _ :: _ => none
  | fuel + 1, done, some c :: rest =>
    if isBlank c then scanFrom? fuel done rest
    else
      match token? c rest with
      | some (token, rest) => scanFrom? fuel (token :: done) rest
      | none => none

/-- **The tokens in some letters**, if all of them but the blanks are part of
tokens. -/
def Token.scan? (letters : List (Option Char)) : Option (List Token) :=
  scanFrom? letters.length [] letters

/-! ## Texts -/

/-- A hexadecimal digit in lower case. -/
def hexDigit (n : Nat) : Char :=
  if n < 10 then Char.ofNat ('0'.toNat + n) else Char.ofNat ('a'.toNat + n - 10)

/-- **How a character is written in a string.** The quote, the backslash and
the control characters are escaped; nothing else is. -/
def escape (c : Char) : List Char :=
  if c = '"' then ['\\', '"']
  else if c = '\\' then ['\\', '\\']
  else if c = '\x08' then ['\\', 'b']
  else if c = '\x0c' then ['\\', 'f']
  else if c = '\n' then ['\\', 'n']
  else if c = '\r' then ['\\', 'r']
  else if c = '\t' then ['\\', 't']
  else if c.toNat < 0x20 then
    ['\\', 'u', '0', '0', hexDigit (c.toNat / 16), hexDigit (c.toNat % 16)]
  else [c]

/-- A string in its quotes. -/
def quoted (s : String) : List Char :=
  '"' :: s.toList.flatMap escape ++ ['"']

/-- **The text of a token.** A string without a text is never written. -/
def Token.text : Token → List Char
  | .openArray => ['[']
  | .closeArray => [']']
  | .openObject => ['\x7b']
  | .closeObject => ['\x7d']
  | .comma => [',']
  | .colon => [':']
  | .null => ['n', 'u', 'l', 'l']
  | .bool true => ['t', 'r', 'u', 'e']
  | .bool false => ['f', 'a', 'l', 's', 'e']
  | .num n => n.text
  | .str s => quoted (s.getD "")

end Interlink.Json
