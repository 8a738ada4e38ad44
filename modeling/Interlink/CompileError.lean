import Interlink.Entity.Basic
import Interlink.Value.Display

/-!
# What can be wrong with a document

A compilation ends with the first thing that is wrong, as one `CompileError`:
which kind of fault, the symbol it is about, where that stands, and the cause.
The wording is in `CompileError.message` and the functions it calls, and
nowhere else.

A `Warning` is a remark on a document that compiles.
-/

namespace Interlink

open Entity (Kind)

/-- **Why a value or a name does not fit** where it stands. -/
inductive Misfit where
  /-- A name stands for something that is no type. -/
  | notType (name : String) (kind : Kind)
  /-- A name stands for something that is neither a constant nor an item. -/
  | notConstantOrItem (name : String) (kind : Kind)
  /-- A name stands for something that is no constant. -/
  | notConstant (name : String) (kind : Kind)
  /-- A service extends something that is no service. -/
  | notService (name : String) (kind : Kind)
  /-- A function declares a type that is no exception. -/
  | notException (type : Ty)
  /-- A value cannot be used as a primitive type or a container. -/
  | notUsable (value : Value) (type : Ty)
  /-- A value cannot be used as a struct, union or exception. -/
  | notUsableAs (value : Value) (kind : StructKind) (typeName : String)
  /-- A number is out of the range of an integer type. -/
  | outOfRange (n : Int) (p : Primitive)
  /-- A value belongs to another enum. -/
  | otherEnum (found expected : String)
  /-- A value is none of an enum. -/
  | notItem (value : Value) (typeName : String)
  /-- A key in the constant of a struct is not the name of a field. -/
  | notFieldName (key : Value) (kind : StructKind)
  /-- A struct has no such field. -/
  | noField (field : String) (kind : StructKind) (typeName : String)
  /-- A field is set again. -/
  | fieldAgain (field : String) (kind : StructKind) (typeName : String)
  /-- A union has a number of fields set other than one. -/
  | unionCount (typeName : String) (count : Nat)
  /-- A required field is not set. -/
  | fieldMissing (field : String) (kind : StructKind) (typeName : String)

def Misfit.message : Misfit → String
  | .notType name kind =>
    "'" ++ name ++ "' is a " ++ kind.noun ++ ", expected a type"
  | .notConstantOrItem name kind =>
    "'" ++ name ++ "' is a " ++ kind.noun
      ++ ", expected a constant or enum item"
  | .notConstant name kind =>
    "'" ++ name ++ "' is a " ++ kind.noun ++ ", expected a constant"
  | .notService name kind =>
    "'" ++ name ++ "' is a " ++ kind.noun
      ++ ", services can only extend services"
  | .notException type => "'" ++ type.display ++ "' is not an exception type"
  | .notUsable value type =>
    "cannot use " ++ value.describe ++ " value " ++ value.display ++ " as "
      ++ type.display
  | .notUsableAs value kind typeName =>
    "cannot use " ++ value.describe ++ " value " ++ value.display ++ " as "
      ++ kind.keyword ++ " '" ++ typeName ++ "'"
  | .outOfRange n p =>
    "value " ++ toString n ++ " is out of range for " ++ p.keyword
  | .otherEnum found expected =>
    "item of enum '" ++ found ++ "' used where '" ++ expected
      ++ "' is expected"
  | .notItem value typeName =>
    value.display ++ " is not a valid value of enum '" ++ typeName ++ "'"
  | .notFieldName key kind =>
    "keys of a " ++ kind.keyword ++ " constant must be field names, found "
      ++ key.display
  | .noField field kind typeName =>
    kind.keyword ++ " '" ++ typeName ++ "' has no field '" ++ field ++ "'"
  | .fieldAgain field kind typeName =>
    "field '" ++ field ++ "' of " ++ kind.keyword ++ " '" ++ typeName
      ++ "' is set more than once"
  | .unionCount typeName count =>
    "union '" ++ typeName ++ "' needs exactly one field set, found "
      ++ toString count
  | .fieldMissing field kind typeName =>
    "required field '" ++ field ++ "' of " ++ kind.keyword ++ " '" ++ typeName
      ++ "' is missing"

/-- **Why a definition is malformed.** -/
inductive Malformation where
  /-- A definition has no name. -/
  | emptyName
  /-- The name of a definition has a dot in it. -/
  | dottedName
  /-- An item has no name, or one with a dot in it. -/
  | itemName
  /-- The value that an item would have does not fit in thirty-two bits. -/
  | itemOverflow
  /-- A field has no name. -/
  | emptyFieldName
  /-- There are no more ids for fields that the document gives none. -/
  | tooManyFields
  /-- A function has no name. -/
  | emptyFunctionName
  /-- There are no more handles. -/
  | tooManyDefinitions
  /-- A field of a union is required. -/
  | unionRequired
  /-- A field of a union has a default. -/
  | unionDefault
  /-- A oneway function has a result. -/
  | onewayResult
  /-- A oneway function declares exceptions. -/
  | onewayExceptions
  /-- A constant is asked for its value too early. -/
  | notEvaluated
  deriving DecidableEq

def Malformation.message : Malformation → String
  | .emptyName => "name must not be empty"
  | .dottedName => "name must not contain '.'"
  | .itemName => "enum item name must be a plain identifier"
  | .itemOverflow => "implicit enum value overflows i32"
  | .emptyFieldName => "field name must not be empty"
  | .tooManyFields => "too many fields without an id"
  | .emptyFunctionName => "function name must not be empty"
  | .tooManyDefinitions => "too many definitions in one document"
  | .unionRequired => "union fields cannot be required"
  | .unionDefault => "union fields cannot have default values"
  | .onewayResult => "oneway functions must return void"
  | .onewayExceptions => "oneway functions cannot declare exceptions"
  | .notEvaluated => "constant was not evaluated"

/-- **The fault that a compilation ends with.** -/
inductive CompileError where
  /-- A name, or the id of a field, is taken already. -/
  | duplicate (name : String) (span first : Span)
  /-- Another document is asked for. -/
  | inclusion (path : String) (span : Span)
  /-- A name stands for nothing. -/
  | unknown (name referrer : String) (span : Span)
  /-- A value or a name does not fit. -/
  | mismatch (name : String) (span : Span) (misfit : Misfit)
  /-- Typedefs, constants or services go round in a circle. -/
  | circular (name : String) (chain : List String) (span : Span)
  /-- A definition is malformed. -/
  | invalid (name : String) (span : Span) (malformation : Malformation)

namespace CompileError

/-- The name of the kind of a fault. -/
def kind : CompileError → String
  | .duplicate .. => "duplicate symbol"
  | .inclusion .. => "unsupported feature"
  | .unknown .. => "unknown symbol"
  | .mismatch .. => "type mismatch"
  | .circular .. => "circular definition"
  | .invalid .. => "invalid definition"

/-- The symbol, or path, that a fault is about. -/
def symbol : CompileError → String
  | .duplicate name .. => name
  | .inclusion path _ => path
  | .unknown name .. => name
  | .mismatch name .. => name
  | .circular name .. => name
  | .invalid name .. => name

def span : CompileError → Span
  | .duplicate _ span _ => span
  | .inclusion _ span => span
  | .unknown _ _ span => span
  | .mismatch _ span _ => span
  | .circular _ _ span => span
  | .invalid _ span _ => span

/-- **The wording of a fault.** -/
def message : CompileError → String
  | .duplicate name span first =>
    "duplicate definition of '" ++ name ++ "' at " ++ span.describe
      ++ " (first defined at " ++ first.describe ++ ")"
  | .inclusion path span =>
    "include of \"" ++ path ++ "\" found at " ++ span.describe
      ++ ": including other IDL documents is not supported"
  | .unknown name referrer span =>
    "unknown symbol '" ++ name ++ "' referenced by '" ++ referrer ++ "' at "
      ++ span.describe
  | .mismatch name span misfit =>
    "type mismatch in '" ++ name ++ "' at " ++ span.describe ++ ": "
      ++ misfit.message
  | .circular name chain span =>
    "circular definition of '" ++ name ++ "' at " ++ span.describe ++ ": "
      ++ " -> ".intercalate chain
  | .invalid name span malformation =>
    "invalid definition '" ++ name ++ "' at " ++ span.describe ++ ": "
      ++ malformation.message

end CompileError

/-- **A remark on a document that compiles**: a service declares a function
that it would inherit. -/
structure Warning where
  /-- The function. -/
  method : String
  /-- The service that declares it. -/
  service : String
  /-- The service that the function would be inherited from. -/
  inheritedFrom : String
  /-- Where the function of the service stands. -/
  span : Span
  deriving DecidableEq

def Warning.message (w : Warning) : String :=
  "method '" ++ w.method ++ "' of service '" ++ w.service
    ++ "' overrides the one inherited from '" ++ w.inheritedFrom ++ "'"

/-- A warning with the place it is about. -/
def Warning.display (w : Warning) : String :=
  "warning at " ++ w.span.describe ++ ": " ++ w.message

end Interlink
