import Interlink.Link.Check
import Interlink.Link.Methods

/-!
# Linking

A scope is linked in three passes: constants, then types, whose defaults may
mention constants, then services, whose signatures mention types. A pass goes
over its entities twice. In the first sweep it binds their references, and in
the second it checks them and evaluates what is to be evaluated; at its end all
of them are resolved.

Linking stops at the first fault. An entity is stored back only when a step is
done with all of it, so the scope that is left behind has each entity either
as it was before the step or as it is after it (`Halt`).
-/

namespace Interlink

/-- One sweep of a pass: a step for each entity, up to the first fault. -/
def sweep {σ : Type} (step : σ → EntityId → Except CompileError σ) :
    σ → List EntityId → Except (Halt σ) σ
  | state, [] => .ok state
  | state, id :: ids =>
    match step state id with
    | .error e => .error ⟨e, state⟩
    | .ok state => sweep step state ids

namespace Scope

/-- The handles of the entities of some kinds, in the order of declaration. -/
def idsOf (s : Scope) (kinds : Entity.Kind → Bool) : List EntityId :=
  (s.declared.filter fun (_, e) => kinds e.kind).map Prod.fst

def resolveAll (s : Scope) (ids : List EntityId) : Scope :=
  ids.foldl Scope.resolve s

/-! ## The steps -/

def bindStep (s : Scope) (id : EntityId) : Except CompileError Scope :=
  match s.entity? id with
  | none => .ok s
  | some e =>
    match e.body with
    | .const type init value => do
      let type ← type.bind s e.name
      let init ← init.bind s e.name
      return s.setBody id (.const type init value)
    | .typedef target => do
      let target ← target.bind s e.name
      return s.setBody id (.typedef target)
    | .enum _ => .ok s
    | .struct kind fields => do
      let fields ← Entity.bindFields s e.name fields
      return s.setBody id (.struct kind fields)
    | .service functions parent methods => do
      let parent ← parent.mapM (Entity.bindParent s e.name)
      let functions ← functions.mapM (Entity.Function.bind s e.name)
      return s.setBody id (.service functions parent methods)

def constantStep (state : Scope × ValueTable) (id : EntityId) :
    Except CompileError (Scope × ValueTable) :=
  let (s, table) := state
  match s.entity? id with
  | some e =>
    match e.body with
    | .const type init _ => do
      let (value, table) ← s.findValue s.steps [] table id e
      return (s.setBody id (.const type init (some value)), table)
    | _ => .ok state
  | none => .ok state

/-- Check a type: a typedef must come to an end, and the fields of a struct,
union or exception must be sound. -/
def typeStep (s : Scope) (id : EntityId) : Except CompileError Scope :=
  match s.entity? id with
  | some e =>
    match e.body with
    | .typedef _ => do
      discard (s.dealiasEntity id e)
      return s
    | .struct kind fields => do
      Entity.checkDistinct e.name ∅ ∅ fields
      if kind = .union then Entity.checkUnion e.name fields
      let fields ← Entity.evaluateDefaults s e.name fields
      return s.setBody id (.struct kind fields)
    | _ => .ok s
  | none => .ok s

/-- Check a service, and collect its methods. -/
def serviceStep (state : Scope × MethodTable) (id : EntityId) :
    Except CompileError (Scope × MethodTable) :=
  let (s, table) := state
  match s.entity? id with
  | some e =>
    match e.body with
    | .service functions parent _ => do
      Entity.checkFunctionNames e.name ∅ functions
      let functions ← functions.mapM (Entity.Function.check s e.name)
      let (methods, table) ← s.findMethods s.steps [] table id
      return (s.setBody id (.service functions parent methods), table)
    | _ => .ok state
  | none => .ok state

/-! ## The passes -/

/-- Constants: bind, evaluate, resolve. -/
def linkConstants (s : Scope) : Except (Halt Scope) Scope := do
  let ids := s.idsOf fun kind => kind == .constant
  let s ← sweep bindStep s ids
  match sweep constantStep (s, []) ids with
  | .error halt => .error ⟨halt.error, halt.left.1⟩
  | .ok (s, _) => return s.resolveAll ids

/-- Types: bind, check, resolve. -/
def linkTypes (s : Scope) : Except (Halt Scope) Scope := do
  let ids := s.idsOf Entity.Kind.isType
  let s ← sweep bindStep s ids
  let s ← sweep typeStep s ids
  return s.resolveAll ids

/-- Services: bind, check and collect, resolve. -/
def linkServices (s : Scope) :
    Except (Halt Scope) (Scope × List Warning) := do
  let ids := s.idsOf fun kind => kind == .service
  let s ← sweep bindStep s ids
  match sweep serviceStep (s, .empty) ids with
  | .error halt => .error ⟨halt.error, halt.left.1⟩
  | .ok (s, table) => return (s.resolveAll ids, table.warnings)

/-- **Linking a scope**: constants, types, services. -/
def link (s : Scope) : Except (Halt Scope) (Scope × List Warning) := do
  let s ← s.linkConstants
  let s ← s.linkTypes
  s.linkServices

end Scope

end Interlink
