import Interlink.Exchange.Type

/-!
# Receiving a value

A wire value is raised to a value of a type, which is followed along with it.
What containers announce about their items is not looked at; each item must
itself be of the type. Of the fields of a struct those that the type does not
know are passed over, and of several with one id the first counts. A field
that is not there takes its default, if it has one.
-/

namespace Interlink.Wire

/-- A wire value as one of a primitive type. -/
def primitiveToValue : Primitive → Wire → Except ValueError Value
  | .bool, .bool b => .ok (.bool b)
  | .byte, .byte n => .ok (.byte n)
  | .i16, .i16 n => .ok (.i16 n)
  | .i32, .i32 n => .ok (.i32 n)
  | .i64, .i64 n => .ok (.i64 n)
  | .double, .double d => .ok (.double d)
  | .string, .string s => .ok (.string s)
  | .binary, .binary bytes => .ok (.binary bytes)
  | p, w => .error (.mismatch p.keyword w.tag.name)

/-- A wire value as one of an enum. `ty` is the type as it is asked for, for
messages. -/
def enumToValue (ty : Ty) (typeName : String) (items : List Entity.Item) :
    Wire → Except ValueError Value
  | .i32 n =>
    if items.any fun item => item.value == n then .ok (.enum typeName n)
    else .error (.unknownEnumValue typeName n)
  | w => .error (.mismatch ty.display w.tag.name)

/-- The fields of a struct, behind those that are `done`. `received` raises
what was sent, by id, to the type of its field. -/
def fieldsToValue (typeName : String)
    (received : List (Int16 × (Ty → Except ValueError Value)))
    (done : List (String × Value)) :
    List Entity.Field → Except ValueError (List (String × Value))
  | [] => .ok done
  | f :: declared =>
    match received.lookup f.id with
    | some raise => do
      let value ← raise f.type
      fieldsToValue typeName received (put done f.name value) declared
    | none =>
      match f.defaultValue with
      | some value =>
        fieldsToValue typeName received (put done f.name value) declared
      | none =>
        if f.isRequired then .error (.missingField typeName f.name)
        else fieldsToValue typeName received done declared

/-- A struct, union or exception, from what was sent. -/
def structToValue (typeName : String) (kind : StructKind)
    (declared : List Entity.Field)
    (received : List (Int16 × (Ty → Except ValueError Value))) :
    Except ValueError Value := do
  let fields ← fieldsToValue typeName received [] declared
  if kind = .union ∧ fields.length ≠ 1 then
    .error (.unionArity typeName fields.length)
  else return .struct typeName fields

mutual

/-- **A wire value as a value of a type.** -/
def toValue (s : Scope) (w : Wire) (ty : Ty) : Except ValueError Value :=
  match s.shape ty with
  | .error e => .error e
  | .ok (.primitive p) => primitiveToValue p w
  | .ok (.list element) =>
    match w with
    | .list _ items => .list <$> itemsToValue s element items
    | w => .error (.mismatch ty.display w.tag.name)
  | .ok (.set element) =>
    match w with
    | .set _ items => .set <$> itemsToValue s element items
    | w => .error (.mismatch ty.display w.tag.name)
  | .ok (.map key value) =>
    match w with
    | .map _ _ entries => .map <$> entriesToValue s key value entries
    | w => .error (.mismatch ty.display w.tag.name)
  | .ok (.entity _ e) =>
    match e.body with
    | .enum items => enumToValue ty e.name items w
    | .struct kind declared =>
      match w with
      | .struct fields => structToValue e.name kind declared (raisings s fields)
      | w => .error (.mismatch e.name w.tag.name)
    | _ => .error e.notType

def itemsToValue (s : Scope) (element : Ty) :
    List Wire → Except ValueError (List Value)
  | [] => .ok []
  | item :: items => do
    let item ← toValue s item element
    let items ← itemsToValue s element items
    return item :: items

def entriesToValue (s : Scope) (key value : Ty) :
    List (Wire × Wire) → Except ValueError (List (Value × Value))
  | [] => .ok []
  | (k, v) :: entries => do
    let k ← toValue s k key
    let v ← toValue s v value
    let entries ← entriesToValue s key value entries
    return (k, v) :: entries

/-- What was sent, by id, ready to be raised to the type of its field. -/
def raisings (s : Scope) :
    List (Int16 × Wire) → List (Int16 × (Ty → Except ValueError Value))
  | [] => []
  | (id, w) :: fields => (id, toValue s w) :: raisings s fields

end

end Interlink.Wire
