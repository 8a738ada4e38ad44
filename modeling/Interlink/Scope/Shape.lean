import Interlink.Scope.Basic

/-!
# Following references

A typedef may stand for another typedef, a constant may be made of other
constants, and a service may extend another. Whoever follows such references
keeps a `Trail`: the entities entered so far. An entity met again closes a
circle, which is reported by its names. No entity is entered twice, so a walk
takes at most as many steps as the scope has entities; when these are used up,
whatever is met next has been entered before.

The first use is `Scope.dealias`: the shape that a type has once all typedefs
in front of it are followed. A shape is never a mere name.
-/

namespace Interlink

/-! ## Trails -/

/-- **The entities entered on the way**, the last one first. -/
abbrev Trail := List EntityId

namespace Scope

/-- How many entities a trail can enter. -/
def steps (s : Scope) : Nat := s.entities.length

def nameOf (s : Scope) (id : EntityId) : String :=
  match s.entity? id with
  | some e => e.name
  | none => ""

/-- **The fault that a trail comes back to an entity**: the names from where it
was entered up to where it is met again. -/
def circle (s : Scope) (t : Trail) (id : EntityId) (e : Entity) :
    CompileError :=
  let since := t.takeWhile fun entered => entered != id
  .circular e.name (e.name :: since.reverse.map s.nameOf ++ [e.name]) e.span

end Scope

/-! ## Shapes -/

/-- **What a type is when its typedefs are followed**: a primitive type, a
container, or an entity that is no typedef. -/
inductive Shape where
  /-- A primitive type. -/
  | primitive (p : Primitive)
  /-- A list. -/
  | list (element : Ty)
  /-- A set. -/
  | set (element : Ty)
  /-- A map. -/
  | map (key value : Ty)
  /-- An entity that is no typedef. -/
  | entity (id : EntityId) (e : Entity)

namespace Scope

/-- Follow the typedefs in front of a type, along a trail with so many steps
left. -/
def follow (s : Scope) (referrer : String) :
    (left : Nat) → Trail → Ty → Except CompileError Shape
  | _, _, .primitive p => .ok (.primitive p)
  | _, _, .list element => .ok (.list element)
  | _, _, .set element => .ok (.set element)
  | _, _, .map key value => .ok (.map key value)
  | left, t, .named reference =>
    match s.targetOf reference referrer with
    | .error e => .error e
    | .ok (id, e) =>
      match e.body with
      | .typedef target =>
        match left with
        | 0 => .error (s.circle t id e)
        | left + 1 =>
          if t.contains id then .error (s.circle t id e)
          else follow s referrer left (id :: t) target
      | _ => .ok (.entity id e)

/-- **The shape of a type.** `referrer` is whom an unknown name is blamed
on. -/
def dealias (s : Scope) (ty : Ty) (referrer : String) :
    Except CompileError Shape :=
  s.follow referrer s.steps [] ty

/-- The shape of an entity: that of a typedef's target, and otherwise the
entity itself. -/
def dealiasEntity (s : Scope) (id : EntityId) (e : Entity) :
    Except CompileError Shape :=
  match e.body with
  | .typedef target => s.follow e.name s.steps [id] target
  | _ => .ok (.entity id e)

end Scope

end Interlink
