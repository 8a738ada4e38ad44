import Interlink.CompileError
import Interlink.Protocol

/-!
# What can be wrong with a value

A value may not be one of the type it is sent as, and a payload may not hold
one of the type it is received as. The wording is in `ValueError.message`.
-/

namespace Interlink

/-- **Why a value, or what a payload holds, is not one of its type.** -/
inductive ValueError where
  /-- Something else stands where a value of a type is expected. -/
  | mismatch (expected found : String)
  /-- A required field is not set. -/
  | missingField (typeName field : String)
  /-- A field is set that the type does not have. -/
  | unknownField (typeName field : String)
  /-- A number is the value of no item of an enum. -/
  | unknownEnumValue (typeName : String) (value : Int32)
  /-- A union has a number of fields set other than one. -/
  | unionArity (typeName : String) (count : Nat)
  /-- A name stands for no type. -/
  | unknownType (name : String)
  /-- A container without items does not tell its type. -/
  | cannotInfer (container : String)
  /-- A type cannot be followed to its end. -/
  | type (error : CompileError)
  /-- A payload is refused. -/
  | payload (refusal : Protocol.Refusal)

/-- **The wording of what is wrong with a value.** -/
def ValueError.message : ValueError → String
  | .mismatch expected found => "expected " ++ expected ++ ", found " ++ found
  | .missingField typeName field =>
    "required field '" ++ field ++ "' of '" ++ typeName ++ "' is not set"
  | .unknownField typeName field =>
    "'" ++ typeName ++ "' has no field '" ++ field ++ "'"
  | .unknownEnumValue typeName value =>
    toString value.toInt ++ " is not a value of enum '" ++ typeName ++ "'"
  | .unionArity typeName count =>
    "union '" ++ typeName ++ "' must have exactly one field set, found "
      ++ toString count
  | .unknownType name => "unknown type '" ++ name ++ "'"
  | .cannotInfer container =>
    "cannot infer the type of " ++ container ++ ", use serialize_as"
  | .type error => error.message
  | .payload refusal => refusal.message

end Interlink
