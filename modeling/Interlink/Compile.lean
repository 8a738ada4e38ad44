import Interlink.Link.Pass
import Interlink.Scope.Define

/-!
# Compiling a document

Headers first, then every definition is declared, then the scope is linked.
The first fault is the answer; nothing is returned beside it.
-/

namespace Interlink

/-- **A document compiled**: its scope, every entity of it resolved, and the
warnings. -/
structure Compiled where
  /-- The scope. -/
  scope : Scope
  /-- The warnings in the order in which they were found. -/
  warnings : List Warning

/-- **Compiling a document** under the name of its unit. -/
def Document.compile (d : Document) (name : String) :
    Except CompileError Compiled := do
  d.headers.forM Header.check
  let scope ← (Scope.empty name).defineAll d.definitions
  match scope.link with
  | .error halt => .error halt.error
  | .ok (scope, warnings) => return ⟨scope, warnings⟩

end Interlink
