import Interlink.Link.Bind
import Interlink.Link.Evaluate

/-!
# Checks on members

What is checked of the members of an entity once their references are bound:
that names and ids are not used twice, that the fields of unions carry no
marker and no default, that a function nobody waits for has nothing to answer,
that declared exceptions are exceptions. Checking a list of fields ends with
the values of its defaults.
-/

namespace Interlink.Entity

/-! ## Names and ids -/

/-- **The fields of a list have different names and different ids.** `names`
and `ids` have the places of the fields before. -/
def checkDistinct (owner : String) (names : Std.HashMap String Span)
    (ids : Std.HashMap Int Span) : List Field → Except CompileError Unit
  | [] => .ok ()
  | f :: fields =>
    let name := qualified owner f.name
    match names[f.name]? with
    | some first => .error (.duplicate name f.span first)
    | none =>
      match ids[f.id.toInt]? with
      | some first =>
        let id := " (field id " ++ toString f.id.toInt ++ ")"
        .error (.duplicate (name ++ id) f.span first)
      | none =>
        checkDistinct owner (names.insert f.name f.span)
          (ids.insert f.id.toInt f.span) fields

/-- The functions of a service have different names. `names` has the places of
the functions before. -/
def checkFunctionNames (service : String) (names : Std.HashMap String Span) :
    List Function → Except CompileError Unit
  | [] => .ok ()
  | f :: functions =>
    match names[f.name]? with
    | some first =>
      .error (.duplicate (qualified service f.name) f.span first)
    | none =>
      checkFunctionNames service (names.insert f.name f.span) functions

/-! ## Unions -/

/-- The fields of a union are neither required nor have they a default. -/
def checkUnion (owner : String) : List Field → Except CompileError Unit
  | [] => .ok ()
  | f :: fields =>
    let name := qualified owner f.name
    if f.isRequired then .error (.invalid name f.span .unionRequired)
    else if f.default.isSome then .error (.invalid name f.span .unionDefault)
    else checkUnion owner fields

/-! ## Functions -/

/-- A oneway function has neither a result nor exceptions. -/
def Function.checkOneway (owner : String) (f : Function) :
    Except CompileError Unit :=
  if f.oneway then
    if f.returns.isSome then .error (.invalid owner f.span .onewayResult)
    else if f.exceptions.isEmpty then .ok ()
    else .error (.invalid owner f.span .onewayExceptions)
  else .ok ()

/-- A declared exception is an exception. -/
def Field.checkException (s : Scope) (owner : String) (f : Field) :
    Except CompileError Unit :=
  match s.dealias f.type owner with
  | .error e => .error e
  | .ok (.entity _ e) =>
    if e.kind = .struct .exception then .ok ()
    else .error (.mismatch (qualified owner f.name) f.span
      (.notException f.type))
  | .ok _ => .error (.mismatch (qualified owner f.name) f.span
      (.notException f.type))

/-! ## Defaults -/

/-- **A field with the value of its default**, if it has one. All constants
have been evaluated. -/
def Field.evaluateDefault (s : Scope) (owner : String) (f : Field) :
    Except CompileError Field :=
  match f.default with
  | none => .ok { f with defaultValue := none }
  | some init =>
    match init.evaluate s ⟨qualified owner f.name, f.span⟩ Scope.storedValue
        f.type with
    | .error e => .error e
    | .ok value => .ok { f with defaultValue := some value }

def evaluateDefaults (s : Scope) (owner : String) (fields : List Field) :
    Except CompileError (List Field) :=
  fields.mapM (Field.evaluateDefault s owner)

/-- A function whose lists of fields are sound, with the values of the
defaults of its parameters. -/
def Function.check (s : Scope) (service : String) (f : Function) :
    Except CompileError Function := do
  let owner := qualified service f.name
  checkDistinct owner ∅ ∅ f.parameters
  checkDistinct owner ∅ ∅ f.exceptions
  f.checkOneway owner
  let parameters ← evaluateDefaults s owner f.parameters
  return { f with parameters }

/-! ## Bound functions -/

/-- A function with its references bound, and its declared exceptions
checked. -/
def Function.bind (s : Scope) (service : String) (f : Function) :
    Except CompileError Function := do
  let owner := qualified service f.name
  let parameters ← bindFields s owner f.parameters
  let returns ← f.returns.mapM (Ty.bind s owner)
  let exceptions ← bindFields s owner f.exceptions
  exceptions.forM (Field.checkException s owner)
  return { f with parameters, returns, exceptions }

/-- The service that a service extends. -/
def bindParent (s : Scope) (service : String) (parent : Reference EntityId) :
    Except CompileError (Reference EntityId) :=
  match s.lookup parent.name parent.span service with
  | .error e => .error e
  | .ok (id, e) =>
    if e.kind = .service then .ok { parent with target := some id }
    else .error (.mismatch service parent.span (.notService parent.name e.kind))

end Interlink.Entity
