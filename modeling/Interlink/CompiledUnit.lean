import Interlink.Catalog
import Interlink.Compile
import Interlink.Exchange.Receive
import Interlink.Options

/-!
# Compiled units

A unit is a compiled document together with the protocol in which its values
are exchanged.
-/

namespace Interlink

/-- **A compiled document with its protocol.** -/
structure CompiledUnit extends Compiled where
  /-- The protocol. -/
  protocol : Protocol

/-- **What a document may fail to become a unit for.** -/
inductive BuildError where
  /-- The document does not compile. -/
  | document (error : CompileError)
  /-- The options do not allow for a unit. -/
  | options (error : OptionsError)

def BuildError.message : BuildError → String
  | .document error => error.message
  | .options error => error.message

/-- **Building a unit.** That there is no protocol is found only after the
document has been compiled. -/
def Document.build (d : Document) (name : String) (protocol : Option Protocol) :
    Except BuildError CompiledUnit :=
  match d.compile name with
  | .error e => .error (.document e)
  | .ok compiled =>
    match protocol with
    | none => .error (.options .missingProtocol)
    | some protocol => .ok { compiled with protocol }

namespace CompiledUnit

/-- **The payload of a value of a type.** -/
def encodeAs (u : CompiledUnit) (ty : Ty) (v : Value) :
    Except ValueError (List UInt8) := do
  return u.protocol.encode (← v.toWire u.scope ty)

/-- The payload of a value of the type that it tells of itself. -/
def encode (u : CompiledUnit) (v : Value) : Except ValueError (List UInt8) := do
  u.encodeAs (← v.inferType u.scope) v

/-- **The value of a type in a payload.** -/
def decode (u : CompiledUnit) (ty : Ty) (bytes : List UInt8) :
    Except ValueError Value := do
  let tag ← ty.tag u.scope
  match u.protocol.decode tag bytes with
  | .error refusal => .error (.payload refusal)
  | .ok w => w.toValue u.scope ty

/-- A unit in one line. -/
def describe (u : CompiledUnit) : String :=
  "CompiledUnit \x7b name: " ++ Text.quote u.scope.name
    ++ ", entities: " ++ toString u.scope.entities.length
    ++ ", warnings: " ++ toString u.warnings.length
    ++ ", protocol: " ++ Text.quote u.protocol.name ++ " \x7d"

/-! ## The summary -/

/-- The kinds that a summary lists on lines of their own. -/
def summaryKinds : List Entity.Kind :=
  [.constant, .typedef, .enum, .struct .struct, .struct .union,
    .struct .exception]

/-- A word filled up with blanks to ten places. -/
def column (word : String) : String :=
  word ++ String.ofList (List.replicate (10 - word.length) ' ')

/-- The line for a kind of entities, if there are any. -/
def kindLine? (u : CompiledUnit) (kind : Entity.Kind) : Option String :=
  match u.scope.all kind with
  | [] => none
  | found =>
    some ("  " ++ column kind.noun ++ " "
      ++ ", ".intercalate (found.map fun (_, e) => e.name))

/-- A method in the line of a service, with the service that it is inherited
from. -/
def methodWord (service : String) (m : Operation) : String :=
  if m.declaredIn = service then m.function.name
  else m.declaredIn ++ "." ++ m.function.name

/-- The line for a service. -/
def serviceLine (t : ServiceType) : String :=
  "  " ++ column "service" ++ " " ++ t.name ++ " ["
    ++ ", ".intercalate (t.methods.map (methodWord t.name)) ++ "]"

/-- **The summary of a unit**, line by line. -/
def summary (u : CompiledUnit) : List String :=
  [u.scope.name ++ " (" ++ u.protocol.name ++ " protocol)"]
    ++ summaryKinds.filterMap u.kindLine?
    ++ u.scope.services.map serviceLine
    ++ if u.warnings.isEmpty then []
      else ["  " ++ toString u.warnings.length ++ " warning(s)"]

end CompiledUnit

end Interlink
