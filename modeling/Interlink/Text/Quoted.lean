import Interlink.Text.Unprintable

/-!
# Texts quoted in messages

A message that shows a text puts it in double quotes, escapes the quote and
the backslash, gives the common control characters a letter, and spells out
every other unprintable character by its number. All other characters stand
for themselves, the single quote among them.
-/

namespace Interlink.Text

/-- A character spelled out by its number. -/
def spelledOut (c : Char) : List Char :=
  '\\' :: 'u' :: '\x7b' :: Nat.toDigits 16 c.toNat ++ ['\x7d']

/-- **How a character stands in a quoted text.** -/
def shown (c : Char) : List Char :=
  match c with
  | '\x00' => ['\\', '0']
  | '\t' => ['\\', 't']
  | '\r' => ['\\', 'r']
  | '\n' => ['\\', 'n']
  | '\\' => ['\\', '\\']
  | '"' => ['\\', '"']
  | c => if isUnprintable c then spelledOut c else [c]

/-- **A text in quotes.** -/
def quote (s : String) : String :=
  String.ofList ('"' :: s.toList.flatMap shown ++ ['"'])

end Interlink.Text
