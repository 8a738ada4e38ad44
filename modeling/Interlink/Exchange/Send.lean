import Interlink.Exchange.Type

/-!
# Sending a value

A value is lowered to the wire as a value of a type. The type is followed
along with the value: every primitive value must have exactly its type, an
enum value must be that of an item, and a struct must have no fields but those
of its type and all the required ones; a union has just one. Fields are sent
in the order of their declaration, whatever the order in which they were set.
-/

namespace Interlink.Value

/-- A value as one of a primitive type. -/
def primitiveToWire : Primitive → Value → Except ValueError Wire
  | .bool, .bool b => .ok (.bool b)
  | .byte, .byte n => .ok (.byte n)
  | .i16, .i16 n => .ok (.i16 n)
  | .i32, .i32 n => .ok (.i32 n)
  | .i64, .i64 n => .ok (.i64 n)
  | .double, .double d => .ok (.double d)
  | .string, .string s => .ok (.string s)
  | .binary, .binary bytes => .ok (.binary bytes)
  | p, v => .error (.mismatch p.keyword v.describe)

/-- A value as one of an enum: the number of an item. -/
def enumToWire (typeName : String) (items : List Entity.Item) :
    Value → Except ValueError Wire
  | .enum found n =>
    if found = typeName then
      if items.any fun item => item.value == n then .ok (.i32 n)
      else .error (.unknownEnumValue typeName n)
    else .error (.mismatch typeName found)
  | v => .error (.mismatch typeName v.describe)

/-- The fields of a struct in the order of their declaration. `given` lowers
what was set, by name, to the type of its field. -/
def fieldsToWire (typeName : String)
    (given : List (String × (Ty → Except ValueError Wire))) :
    List Entity.Field → Except ValueError (List (Int16 × Wire))
  | [] => .ok []
  | f :: declared =>
    match given.lookup f.name with
    | some lower => do
      let value ← lower f.type
      let fields ← fieldsToWire typeName given declared
      return (f.id, value) :: fields
    | none =>
      if f.isRequired then .error (.missingField typeName f.name)
      else fieldsToWire typeName given declared

/-- A struct, union or exception, from what was set. -/
def structToWire (typeName : String) (kind : StructKind)
    (declared : List Entity.Field)
    (given : List (String × (Ty → Except ValueError Wire))) :
    Except ValueError Wire :=
  match given.find? fun (name, _) => !declared.any fun f => f.name == name with
  | some (name, _) => .error (.unknownField typeName name)
  | none =>
    if kind = .union ∧ given.length ≠ 1 then
      .error (.unionArity typeName given.length)
    else .struct <$> fieldsToWire typeName given declared

mutual

/-- **A value on the wire, as one of a type.** -/
def toWire (s : Scope) (v : Value) (ty : Ty) : Except ValueError Wire :=
  match s.shape ty with
  | .error e => .error e
  | .ok (.primitive p) => primitiveToWire p v
  | .ok (.list element) =>
    match v with
    | .list items => do
      let tag ← element.tag s
      let items ← itemsToWire s element items
      return .list tag items
    | v => .error (.mismatch ty.display v.describe)
  | .ok (.set element) =>
    match v with
    | .set items => do
      let tag ← element.tag s
      let items ← itemsToWire s element items
      return .set tag items
    | v => .error (.mismatch ty.display v.describe)
  | .ok (.map key value) =>
    match v with
    | .map entries => do
      let keyTag ← key.tag s
      let valueTag ← value.tag s
      let entries ← entriesToWire s key value entries
      return .map keyTag valueTag entries
    | v => .error (.mismatch ty.display v.describe)
  | .ok (.entity _ e) =>
    match e.body with
    | .enum items => enumToWire e.name items v
    | .struct kind declared =>
      match v with
      | .struct typeName fields =>
        if typeName = e.name then
          structToWire e.name kind declared (lowerings s fields)
        else .error (.mismatch e.name typeName)
      | v => .error (.mismatch e.name v.describe)
    | _ => .error e.notType

def itemsToWire (s : Scope) (element : Ty) :
    List Value → Except ValueError (List Wire)
  | [] => .ok []
  | item :: items => do
    let item ← toWire s item element
    let items ← itemsToWire s element items
    return item :: items

def entriesToWire (s : Scope) (key value : Ty) :
    List (Value × Value) → Except ValueError (List (Wire × Wire))
  | [] => .ok []
  | (k, v) :: entries => do
    let k ← toWire s k key
    let v ← toWire s v value
    let entries ← entriesToWire s key value entries
    return (k, v) :: entries

/-- What was set, by name, ready to be lowered to the type of its field. -/
def lowerings (s : Scope) :
    List (String × Value) → List (String × (Ty → Except ValueError Wire))
  | [] => []
  | (name, v) :: fields => (name, toWire s v) :: lowerings s fields

end

end Interlink.Value
