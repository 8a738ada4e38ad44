import Interlink.Document.Basic
import Interlink.Entity.Type
import Interlink.Value.Basic

/-!
# Entities

An entity is what a definition becomes in a scope. It is declared with
references that are only names; linking binds them, evaluates constants and
defaults, and collects the methods of services. Everything that linking adds
has a place of its own in the entity, empty until then.
-/

namespace Interlink

/-- What a constant reference is bound to. -/
inductive ConstTarget where
  /-- Another constant. -/
  | const (id : EntityId)
  /-- An item of an enum, by the handle of the enum and the value of the
  item. -/
  | item (enumId : EntityId) (value : Int32)
  deriving DecidableEq

/-- **A constant expression with references.** -/
inductive Init where
  /-- A truth value. -/
  | bool (b : Bool)
  /-- A whole number. -/
  | int (n : Int64)
  /-- A double. -/
  | double (d : Double)
  /-- A text. -/
  | string (s : String)
  /-- A sequence. -/
  | list (items : List Init)
  /-- A sequence of pairs. -/
  | map (entries : List (Init × Init))
  /-- A constant or an enum item. -/
  | reference (reference : Reference ConstTarget)

namespace Entity

/-- An item of an enum, numbered. -/
structure Item where
  /-- The name. -/
  name : String
  /-- The value. -/
  value : Int32
  /-- Where the item stands. -/
  span : Span
  deriving DecidableEq

/-- A field of a struct, union or exception, or a parameter or declared
exception of a function, numbered. -/
structure Field where
  /-- The id. -/
  id : Int16
  /-- The name. -/
  name : String
  /-- The type. -/
  type : Ty
  /-- The marker. -/
  requiredness : Requiredness
  /-- The default as an expression, if the document gives one. -/
  default : Option Init
  /-- The value of the default, once it is evaluated. -/
  defaultValue : Option Value
  /-- Where the field stands. -/
  span : Span

def Field.isRequired (f : Field) : Bool := f.requiredness == .required

/-- A function of a service. -/
structure Function where
  /-- The name. -/
  name : String
  /-- The parameters. -/
  parameters : List Field
  /-- The type of the result; none for a function without one. -/
  returns : Option Ty
  /-- The exceptions it may end with. -/
  exceptions : List Field
  /-- Whether the caller does not wait for an answer. -/
  oneway : Bool
  /-- Where the function stands. -/
  span : Span

/-- **A method**: a function by the service that declares it and its place
there. -/
structure Method where
  /-- The service that declares the function. -/
  service : EntityId
  /-- The place of the function among those of the service. -/
  index : Nat
  deriving DecidableEq

/-- **What an entity is**, whatever its state. -/
inductive Kind where
  /-- A constant. -/
  | constant
  /-- Another name for a type. -/
  | typedef
  /-- An enum. -/
  | enum
  /-- A struct, union or exception. -/
  | struct (kind : StructKind)
  /-- A service. -/
  | service
  deriving DecidableEq

namespace Kind

/-- The noun for a kind of entity in messages. -/
def noun : Kind → String
  | .constant => "constant"
  | .typedef => "typedef"
  | .enum => "enum"
  | .struct kind => kind.keyword
  | .service => "service"

/-- Whether entities of a kind may stand where a type is expected. -/
def isType : Kind → Bool
  | .constant => false
  | .service => false
  | _ => true

/-- Whether a kind is that of structs, unions or exceptions. -/
def isStruct : Kind → Bool
  | .struct _ => true
  | _ => false

def all : List Kind :=
  [.constant, .typedef, .enum, .struct .struct, .struct .union,
    .struct .exception, .service]

end Kind

/-- **What an entity holds.** -/
inductive Body where
  /-- A constant: its type, its expression and, once it is evaluated, its
  value. -/
  | const (type : Ty) (init : Init) (value : Option Value)
  /-- Another name for a type. -/
  | typedef (target : Ty)
  /-- An enum. -/
  | enum (items : List Item)
  /-- A struct, union or exception. -/
  | struct (kind : StructKind) (fields : List Field)
  /-- A service: its functions, the service it extends and, once they are
  collected, all its methods. -/
  | service (functions : List Function) (parent : Option (Reference EntityId))
      (methods : List Method)

def Body.kind : Body → Kind
  | .const .. => .constant
  | .typedef _ => .typedef
  | .enum _ => .enum
  | .struct kind _ => .struct kind
  | .service .. => .service

end Entity

/-- **An entity of a scope.** -/
structure Entity where
  /-- The name it is declared under. -/
  name : String
  /-- Where its definition stands. -/
  span : Span
  /-- Whether linking is done with it. -/
  resolved : Bool
  /-- What it holds. -/
  body : Entity.Body

def Entity.kind (e : Entity) : Entity.Kind := e.body.kind

end Interlink
