import Interlink.Scope.Shape

/-!
# The methods of services

A service has the methods of the service it extends, except those it declares
itself, and then its own functions. Each function that it declares although it
would inherit one of that name is worth a warning.

The method lists of services are kept in a table as they are found. A service
finds the list of its parent first, so the warnings about a parent come before
those about its children, and each comes once.
-/

namespace Interlink

open Entity (Function Method)

/-- **The method lists found so far**, and the warnings on the way. -/
structure MethodTable where
  /-- The method lists by service. -/
  known : List (EntityId × List Method)
  /-- The warnings in the order in which they were found. -/
  warnings : List Warning

namespace MethodTable

def empty : MethodTable := ⟨[], []⟩

end MethodTable

namespace Scope

/-- The function that a method is, if there is one. -/
def function? (s : Scope) (m : Method) : Option Function :=
  match s.entity? m.service with
  | some ⟨_, _, _, .service functions _ _⟩ => functions[m.index]?
  | _ => none

/-- The function among `own` that stands in for an inherited method. -/
def override? (s : Scope) (own : List Function) (m : Method) :
    Option Function :=
  (s.function? m).bind fun f => own.find? fun g => g.name == f.name

/-- **The method list of a service**, from that of its parent. -/
def methodsFrom (s : Scope) (id : EntityId) (own : List Function)
    (inherited : List Method) : List Method :=
  inherited.filter (fun m => (s.override? own m).isNone)
    ++ (List.range own.length).map fun index => ⟨id, index⟩

/-- The warnings about a service: one for each method that it would
inherit. -/
def overrideWarnings (s : Scope) (service : String) (own : List Function)
    (inherited : List Method) : List Warning :=
  inherited.filterMap fun m =>
    (s.override? own m).map fun f =>
      ⟨f.name, service, s.nameOf m.service, f.span⟩

/-- **Finding the method list of a service**, along a trail of services that
extend each other, with so many steps left. -/
def findMethods (s : Scope) : (left : Nat) → Trail → MethodTable → EntityId →
    Except CompileError (List Method × MethodTable)
  | left, t, table, id =>
    match table.known.lookup id, s.entity? id with
    | some methods, _ => .ok (methods, table)
    | none, none => .ok ([], table)
    | none, some e =>
      match left with
      | 0 => .error (s.circle t id e)
      | left + 1 =>
        if t.contains id then .error (s.circle t id e)
        else
          match e.body with
          | .service own parent _ =>
            match parent.bind Reference.target with
            | none =>
              let methods := s.methodsFrom id own []
              .ok (methods,
                { table with known := (id, methods) :: table.known })
            | some parent =>
              match findMethods s left (id :: t) table parent with
              | .error fault => .error fault
              | .ok (inherited, table) =>
                let methods := s.methodsFrom id own inherited
                .ok (methods, {
                  known := (id, methods) :: table.known
                  warnings := table.warnings
                    ++ s.overrideWarnings e.name own inherited })
          | _ => .ok ([], table)

end Scope

end Interlink
