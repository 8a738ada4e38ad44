import Interlink.Scope.Define

/-!
# Binding references

Linking starts by binding: every reference in an entity gets the handle of
what its name means. A type reference must mean a type. A constant reference
means a constant, or else, when no entity has its name, the item of an enum:
`Color.RED` is the item `RED` of `Color`.
-/

namespace Interlink

/-! ## Types -/

/-- **Bind the references of a type**, those of a key before those of its
value. -/
def Ty.bind (s : Scope) (referrer : String) : Ty → Except CompileError Ty
  | .primitive p => .ok (.primitive p)
  | .list element => .list <$> element.bind s referrer
  | .set element => .set <$> element.bind s referrer
  | .map key value => do
    let key ← key.bind s referrer
    let value ← value.bind s referrer
    return .map key value
  | .named r =>
    match s.lookup r.name r.span referrer with
    | .error e => .error e
    | .ok (id, e) =>
      if e.kind.isType then .ok (.named { r with target := some id })
      else .error (.mismatch referrer r.span (.notType r.name e.kind))

/-! ## Constants -/

/-- A text split at its last dot. -/
def splitAtLastDot? (s : String) : Option (String × String) :=
  let (after, before) := s.toList.reverse.span fun c => c != '.'
  match before with
  | [] => none
  | _ :: before => some (.ofList before.reverse, .ofList after.reverse)

/-- The item of an enum with a name of the form `enum.item`. -/
def Scope.item? (s : Scope) (name : String) : Option ConstTarget := do
  let (enumName, itemName) ← splitAtLastDot? name
  let (id, e) ← s.named? enumName
  match e.body with
  | .enum items =>
    let item ← items.find? fun item => item.name == itemName
    return .item id item.value
  | _ => none

/-- **What a constant reference means.** -/
def Scope.constTarget (s : Scope) (referrer : String)
    (r : Reference ConstTarget) : Except CompileError ConstTarget :=
  match s.named? r.name with
  | some (id, e) =>
    if e.kind = .constant then .ok (.const id)
    else
      .error (.mismatch referrer r.span (.notConstantOrItem r.name e.kind))
  | none =>
    match s.item? r.name with
    | some target => .ok target
    | none => .error (.unknown r.name referrer r.span)

namespace Init

mutual

/-- **Bind the references of a constant expression**, in the order in which
they are written. -/
def bind (s : Scope) (referrer : String) : Init → Except CompileError Init
  | .bool b => .ok (.bool b)
  | .int n => .ok (.int n)
  | .double d => .ok (.double d)
  | .string t => .ok (.string t)
  | .list items => .list <$> bindItems s referrer items
  | .map entries => .map <$> bindEntries s referrer entries
  | .reference r =>
    match s.constTarget referrer r with
    | .error e => .error e
    | .ok target => .ok (.reference { r with target := some target })

def bindItems (s : Scope) (referrer : String) :
    List Init → Except CompileError (List Init)
  | [] => .ok []
  | item :: items => do
    let item ← item.bind s referrer
    let items ← bindItems s referrer items
    return item :: items

/-- Bind the references of a sequence of pairs, those of a key before those of
its value. -/
def bindEntries (s : Scope) (referrer : String) :
    List (Init × Init) → Except CompileError (List (Init × Init))
  | [] => .ok []
  | (key, value) :: entries => do
    let key ← key.bind s referrer
    let value ← value.bind s referrer
    let entries ← bindEntries s referrer entries
    return (key, value) :: entries

end

end Init

/-! ## Fields -/

namespace Entity

/-- Bind the references of a field: those of its type, then those of its
default. -/
def Field.bind (s : Scope) (owner : String) (f : Field) :
    Except CompileError Field := do
  let referrer := qualified owner f.name
  let type ← f.type.bind s referrer
  let default ← f.default.mapM (Init.bind s referrer)
  return { f with type, default }

def bindFields (s : Scope) (owner : String) (fields : List Field) :
    Except CompileError (List Field) :=
  fields.mapM (Field.bind s owner)

end Entity

end Interlink
