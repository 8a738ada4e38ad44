import Interlink.Exchange.Send
import Interlink.Link.Methods

/-!
# The catalog of a scope

What a program that uses a unit asks for by name: its structs, enums and
services. Each is shown as it stands in the scope; nothing is kept twice. A
struct can also be built from values for its fields (`StructType.construct`),
which fills in defaults as receiving does.
-/

namespace Interlink

open Entity (Item Function)

/-! ## Structs -/

/-- **A struct, union or exception** of a scope. -/
structure StructType where
  /-- Its handle. -/
  id : EntityId
  /-- Its name. -/
  name : String
  /-- Where its definition stands. -/
  span : Span
  /-- Which of the three it is. -/
  kind : StructKind
  /-- Its fields. -/
  fields : List Entity.Field

/-- The entity as a struct, union or exception. -/
def Entity.structType? (id : EntityId) (e : Entity) : Option StructType :=
  match e.body with
  | .struct kind fields => some ⟨id, e.name, e.span, kind, fields⟩
  | _ => none

/-- The struct, union or exception with a name. -/
def Scope.structType? (s : Scope) (name : String) : Option StructType :=
  (s.named? name).bind fun (id, e) => e.structType? id

namespace StructType

def field? (t : StructType) (name : String) : Option Entity.Field :=
  t.fields.find? fun f => f.name == name

def fieldById? (t : StructType) (id : Int16) : Option Entity.Field :=
  t.fields.find? fun f => f.id == id

/-- The type, as a reference from where it is defined. -/
def type (t : StructType) : Ty := .named ⟨t.name, t.span, some t.id⟩

/-- Set fields to values, each of which must be one of the type of its
field. -/
def setAll (s : Scope) (t : StructType) (done : List (String × Value)) :
    List (String × Value) → Except ValueError (List (String × Value))
  | [] => .ok done
  | (name, v) :: given =>
    match t.field? name with
    | none => .error (.unknownField t.name name)
    | some f =>
      match v.toWire s f.type with
      | .error e => .error e
      | .ok _ => t.setAll s (put done name v) given

/-- Give the fields that are not set their defaults. -/
def fillIn (typeName : String) (done : List (String × Value)) :
    List Entity.Field → Except ValueError (List (String × Value))
  | [] => .ok done
  | f :: declared =>
    match done.lookup f.name with
    | some _ => fillIn typeName done declared
    | none =>
      match f.defaultValue with
      | some value => fillIn typeName (put done f.name value) declared
      | none =>
        if f.isRequired then .error (.missingField typeName f.name)
        else fillIn typeName done declared

/-- **Build a value** from values for fields. -/
def construct (s : Scope) (t : StructType) (given : List (String × Value)) :
    Except ValueError Value := do
  let fields ← t.setAll s [] given
  let fields ← fillIn t.name fields t.fields
  if t.kind = .union ∧ fields.length ≠ 1 then
    .error (.unionArity t.name fields.length)
  else return .struct t.name fields

end StructType

/-! ## Enums -/

/-- **An enum** of a scope. -/
structure EnumType where
  /-- Its name. -/
  name : String
  /-- Its items. -/
  items : List Item

def Entity.enumType? (e : Entity) : Option EnumType :=
  match e.body with
  | .enum items => some ⟨e.name, items⟩
  | _ => none

def Scope.enumType? (s : Scope) (name : String) : Option EnumType :=
  (s.named? name).bind fun (_, e) => e.enumType?

namespace EnumType

/-- The value of the item with a name. -/
def valueOf? (t : EnumType) (item : String) : Option Value :=
  (t.items.find? fun found => found.name == item).map fun found =>
    .enum t.name found.value

/-- The name of the item with a value. -/
def nameOf? (t : EnumType) (value : Int32) : Option String :=
  (t.items.find? fun found => found.value == value).map Item.name

end EnumType

/-! ## Services -/

/-- **A function as a service offers it.** -/
structure Operation where
  /-- The service that declares it. -/
  declaredIn : String
  /-- The function. -/
  function : Function

/-- **A service** of a scope. -/
structure ServiceType where
  /-- Its name. -/
  name : String
  /-- The name of the service that it extends. -/
  parent : Option String
  /-- The functions that it declares. -/
  functions : List Operation
  /-- All that it offers: what it inherits, then its own. -/
  methods : List Operation

/-- The method as an operation. -/
def Scope.operation? (s : Scope) (m : Entity.Method) : Option Operation :=
  (s.function? m).map fun f => ⟨s.nameOf m.service, f⟩

/-- The name of the service that a reference to a parent is bound to. -/
def Scope.parentName? (s : Scope) (parent : Option (Reference EntityId)) :
    Option String := do
  let e ← s.entity? (← (← parent).target)
  if e.kind = .service then some e.name else none

def Scope.serviceOf? (s : Scope) (e : Entity) : Option ServiceType :=
  match e.body with
  | .service functions parent methods =>
    some ⟨e.name, s.parentName? parent, functions.map fun f => ⟨e.name, f⟩,
      methods.filterMap s.operation?⟩
  | _ => none

def Scope.serviceType? (s : Scope) (name : String) : Option ServiceType :=
  (s.named? name).bind fun (_, e) => s.serviceOf? e

def ServiceType.method? (t : ServiceType) (name : String) : Option Operation :=
  t.methods.find? fun m => m.function.name == name

/-! ## Everything -/

/-- The entities of a kind, in the order of declaration. -/
def Scope.all (s : Scope) (kind : Entity.Kind) : List (EntityId × Entity) :=
  s.declared.filter fun (_, e) => e.kind == kind

/-- **The enums and structs of a scope**, in the order of declaration. -/
def Scope.types (s : Scope) : List (EnumType ⊕ StructType) :=
  s.declared.filterMap fun (id, e) =>
    match e.enumType? with
    | some t => some (.inl t)
    | none => (e.structType? id).map .inr

/-- **The services of a scope**, in the order of declaration. -/
def Scope.services (s : Scope) : List ServiceType :=
  s.declared.filterMap fun (_, e) => s.serviceOf? e

/-- The value of the constant with a name, once it is evaluated. -/
def Scope.constant? (s : Scope) (name : String) : Option Value :=
  (s.named? name).bind fun (_, e) =>
    match e.body with
    | .const _ _ value => value
    | _ => none

end Interlink
