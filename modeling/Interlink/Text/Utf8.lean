/-!
# Texts as bytes

Payloads and binary constants hold texts as bytes, in UTF-8. Not all bytes are
those of a text; where parts of a payload are of no interest, it is read
letter by letter (`letters`), a letter being a character or a single byte that
is part of none.
-/

namespace Interlink.Text

def utf8 (text : String) : List UInt8 := text.toUTF8.data.toList

/-- The text that bytes hold, if they hold one. -/
def ofUtf8? (bytes : List UInt8) : Option String :=
  String.fromUTF8? ⟨bytes.toArray⟩

@[simp] theorem ofUtf8?_utf8 (text : String) : ofUtf8? (utf8 text) = some text := by
  show String.fromUTF8? text.toByteArray = some text
  unfold String.fromUTF8?
  rw [dif_pos text.isValidUTF8]
  rfl

/-- The character in front of some bytes, with the number of bytes that it
takes: from one to four. -/
def front? (bytes : List UInt8) : Option (Char × Nat) :=
  [1, 2, 3, 4].findSome? fun size =>
    match (ofUtf8? (bytes.take size)).map String.toList with
    | some [c] => some (c, size)
    | _ => none

/-- The letters of some bytes, of which the first few belong to a character
that has been found already. -/
def lettersFrom : (found : Nat) → List UInt8 → List (Option Char)
  | _, [] => []
  | found + 1, _ :: bytes => lettersFrom found bytes
  | 0, byte :: bytes =>
    match front? (byte :: bytes) with
    | some (c, size) => some c :: lettersFrom (size - 1) bytes
    | none => none :: lettersFrom 0 bytes

/-- **The letters of some bytes**: characters, and `none` for each byte that
is part of no character. The letters of a text are its characters. -/
def letters (bytes : List UInt8) : List (Option Char) :=
  match ofUtf8? bytes with
  | some text => text.toList.map some
  | none => lettersFrom 0 bytes

end Interlink.Text
