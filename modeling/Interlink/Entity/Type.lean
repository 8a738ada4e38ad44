import Interlink.Primitive
import Interlink.Span

/-!
# Types with references

Inside a scope a type that is named carries a reference: the name, where it is
mentioned, and – once it is linked – the handle of the entity it means. A
handle is the place of an entity in the order of declaration, never a copy of
it, so types may mention each other in circles.
-/

namespace Interlink

/-- **The handle of an entity**: its place in the order of declaration, from
zero. -/
abbrev EntityId := Nat

/-- **A reference by name**, to a target of some kind once it is bound. -/
structure Reference (τ : Type) where
  /-- The name. -/
  name : String
  /-- Where it is mentioned. -/
  span : Span
  /-- What it is bound to, if it is. -/
  target : Option τ
  deriving DecidableEq

/-- **A type.** -/
inductive Ty where
  /-- A primitive type. -/
  | primitive (p : Primitive)
  /-- A list of elements of one type. -/
  | list (element : Ty)
  /-- A set of elements of one type. -/
  | set (element : Ty)
  /-- A map from keys of one type to values of another. -/
  | map (key value : Ty)
  /-- A type that is declared somewhere. -/
  | named (reference : Reference EntityId)
  deriving DecidableEq

/-- **How a type is written in a message.** -/
def Ty.display : Ty → String
  | .primitive p => p.keyword
  | .list element => "list<" ++ element.display ++ ">"
  | .set element => "set<" ++ element.display ++ ">"
  | .map key value => "map<" ++ key.display ++ ", " ++ value.display ++ ">"
  | .named reference => reference.name

end Interlink
