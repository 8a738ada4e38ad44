/-!
# Places in a document

Whoever parses a document knows where each part of it stands; the compiler
only repeats it in what it reports.
-/

namespace Interlink

/-- **A place in a document**: line and column, both from one. Line zero says
that the place is not known. -/
structure Span where
  /-- The line. -/
  line : UInt32
  /-- The column. -/
  column : UInt32
  deriving DecidableEq

namespace Span

/-- The place of a part whose place is not known. -/
def unknown : Span := ⟨0, 0⟩

def isKnown (s : Span) : Bool := s.line != 0

/-- How a place is named in a message. -/
def describe (s : Span) : String :=
  if s.isKnown then
    "line " ++ toString s.line.toNat ++ ", column " ++ toString s.column.toNat
  else "<unknown location>"

end Span

end Interlink
