import Interlink.Scope.Shape
import Interlink.ValueError

/-!
# Types on the wire

A value goes over the wire as one of a type, and it is the shape of that type
that counts (`Scope.shape`). Each shape has its tag: an enum goes as its
number, and a struct, union or exception as its fields. A value can also be
asked for its own type, which a container without items cannot tell.
-/

namespace Interlink

namespace Scope

/-- **The shape of a type that is exchanged.** -/
def shape (s : Scope) (ty : Ty) : Except ValueError Shape :=
  match s.dealias ty s.name with
  | .ok shape => .ok shape
  | .error (.unknown name ..) => .error (.unknownType name)
  | .error e => .error (.type e)

/-- The type with a name, as a reference bound to its entity. -/
def typeNamed (s : Scope) (name : String) : Except ValueError Ty :=
  match s.named? name with
  | some (id, e) =>
    if e.kind.isType then .ok (.named ⟨name, .unknown, some id⟩)
    else .error (.unknownType name)
  | none => .error (.unknownType name)

end Scope

/-- The error that an entity stands where a type is expected. -/
def Entity.notType (e : Entity) : ValueError :=
  .mismatch "a type" (e.kind.noun ++ " '" ++ e.name ++ "'")

def Primitive.tag : Primitive → Wire.Tag
  | .bool => .bool
  | .byte => .byte
  | .i16 => .i16
  | .i32 => .i32
  | .i64 => .i64
  | .double => .double
  | .string => .string
  | .binary => .binary

def Shape.tag : Shape → Except ValueError Wire.Tag
  | .primitive p => .ok p.tag
  | .list _ => .ok .list
  | .set _ => .ok .set
  | .map _ _ => .ok .map
  | .entity _ e =>
    match e.body with
    | .enum _ => .ok .i32
    | .struct .. => .ok .struct
    | _ => .error e.notType

/-- **The tag of a type.** -/
def Ty.tag (s : Scope) (ty : Ty) : Except ValueError Wire.Tag := do
  (← s.shape ty).tag

/-- **The type that a value tells of itself.** A container is typed by its
first item. -/
def Value.inferType (s : Scope) : Value → Except ValueError Ty
  | .bool _ => .ok (.primitive .bool)
  | .byte _ => .ok (.primitive .byte)
  | .i16 _ => .ok (.primitive .i16)
  | .i32 _ => .ok (.primitive .i32)
  | .i64 _ => .ok (.primitive .i64)
  | .double _ => .ok (.primitive .double)
  | .string _ => .ok (.primitive .string)
  | .binary _ => .ok (.primitive .binary)
  | .list [] => .error (.cannotInfer "an empty list")
  | .list (first :: _) => do return .list (← first.inferType s)
  | .set [] => .error (.cannotInfer "an empty set")
  | .set (first :: _) => do return .set (← first.inferType s)
  | .map [] => .error (.cannotInfer "an empty map")
  | .map ((key, value) :: _) => do
    let key ← key.inferType s
    let value ← value.inferType s
    return .map key value
  | .enum typeName _ => s.typeNamed typeName
  | .struct typeName _ => s.typeNamed typeName

end Interlink
