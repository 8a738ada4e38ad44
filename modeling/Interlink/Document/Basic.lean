import Interlink.Number.Double
import Interlink.Primitive
import Interlink.Span

/-!
# Interface documents

A document is what a parser of the interface language hands over: headers,
then definitions, each with the place it stands at. Nothing in it has been
checked. Names are mentioned before anybody knows what they name, ids may be
missing, and a constant may be of any shape whatever its type says.
-/

namespace Interlink

/-- **A name as a document mentions it**: the name of a type, of a constant or
enum item, or of a service. -/
structure Mention where
  /-- The name. -/
  name : String
  /-- Where it is mentioned. -/
  span : Span
  deriving DecidableEq

/-- **A type as a document writes it.** -/
inductive TypeExpr where
  /-- A primitive type. -/
  | primitive (p : Primitive)
  /-- A list of elements of one type. -/
  | list (element : TypeExpr)
  /-- A set of elements of one type. -/
  | set (element : TypeExpr)
  /-- A map from keys of one type to values of another. -/
  | map (key value : TypeExpr)
  /-- A type that is defined somewhere. -/
  | named (mention : Mention)

/-- **A constant as a document writes it.** -/
inductive ConstExpr where
  /-- A truth value. -/
  | bool (b : Bool)
  /-- A whole number. -/
  | int (n : Int64)
  /-- A double. -/
  | double (d : Double)
  /-- A text. -/
  | string (s : String)
  /-- A sequence. -/
  | list (items : List ConstExpr)
  /-- A sequence of pairs. -/
  | map (entries : List (ConstExpr × ConstExpr))
  /-- A constant or an enum item that is defined somewhere. -/
  | reference (mention : Mention)

/-- **Whether a field has to be there.** -/
inductive Requiredness where
  /-- The field is marked as required. -/
  | required
  /-- The field is marked as optional. -/
  | optional
  /-- The field is not marked. -/
  | unmarked
  deriving DecidableEq

/-- A field of a struct, union or exception; also a parameter, or a declared
exception, of a function. -/
structure Field where
  /-- The id, if the document gives one. -/
  id : Option Int16
  /-- The name. -/
  name : String
  /-- The type. -/
  type : TypeExpr
  /-- The marker. -/
  requiredness : Requiredness
  /-- The default, if the document gives one. -/
  default : Option ConstExpr
  /-- Where the field stands. -/
  span : Span

structure EnumItem where
  /-- The name. -/
  name : String
  /-- The value, if the document gives one. -/
  value : Option Int32
  /-- Where the item stands. -/
  span : Span
  deriving DecidableEq

structure FunctionDecl where
  /-- The name. -/
  name : String
  /-- The parameters. -/
  parameters : List Field
  /-- The type of the result; none for a function without one. -/
  returns : Option TypeExpr
  /-- The exceptions it may end with. -/
  exceptions : List Field
  /-- Whether the caller does not wait for an answer. -/
  oneway : Bool
  /-- Where the function stands. -/
  span : Span

/-- **Which of the three types with fields.** -/
inductive StructKind where
  /-- All fields at once. -/
  | struct
  /-- Exactly one of the fields. -/
  | union
  /-- A struct that a function may end with. -/
  | exception
  deriving DecidableEq

/-- **What a definition defines.** -/
inductive Definition.Body where
  /-- A constant. -/
  | const (type : TypeExpr) (value : ConstExpr)
  /-- Another name for a type. -/
  | typedef (target : TypeExpr)
  /-- An enum. -/
  | enum (items : List EnumItem)
  /-- A struct, union or exception. -/
  | struct (kind : StructKind) (fields : List Field)
  /-- A service. -/
  | service (functions : List FunctionDecl) (parent : Option Mention)

/-- **A definition of a document.** -/
structure Definition where
  /-- The name it defines. -/
  name : String
  /-- Where it stands. -/
  span : Span
  /-- What it defines. -/
  body : Definition.Body

/-- **A header of a document.** -/
inductive Header where
  /-- Another document is asked for. -/
  | inclusion (path : String) (span : Span)
  /-- Generated code in a target language goes under a name. -/
  | naming (language name : String) (span : Span)

/-- **A document**: headers, then definitions. -/
structure Document where
  /-- The headers in order. -/
  headers : List Header
  /-- The definitions in order. -/
  definitions : List Definition

def StructKind.keyword : StructKind → String
  | .struct => "struct"
  | .union => "union"
  | .exception => "exception"

/-- The keyword that a definition starts with. -/
def Definition.keyword (d : Definition) : String :=
  match d.body with
  | .const .. => "const"
  | .typedef .. => "typedef"
  | .enum .. => "enum"
  | .struct kind _ => kind.keyword
  | .service .. => "service"

/-- The marker's word, as documents spell it. -/
def Requiredness.keyword : Requiredness → String
  | .required => "required"
  | .optional => "optional"
  | .unmarked => "default"

def Header.span : Header → Span
  | .inclusion _ span => span
  | .naming _ _ span => span

end Interlink
