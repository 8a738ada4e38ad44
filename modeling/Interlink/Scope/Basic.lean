import Interlink.CompileError

/-!
# Scopes

A scope holds the entities of one document in the order of declaration, and a
table of symbols from their names to their handles. Names are looked up as
they are written, letter for letter.

What is done to a scope may stop at a fault, and then the scope goes on as it was
left (`Halt`). Those who only ask whether it was done may forget about that
(`Halt.forget`).
-/

namespace Interlink

/-- **Work that stopped**: the fault, and the state it left behind. -/
structure Halt (σ : Type) where
  /-- The fault. -/
  error : CompileError
  /-- What had been done up to it. -/
  left : σ

/-- The outcome of some work, without what it left behind if it stopped. -/
def Halt.forget {σ α : Type} : Except (Halt σ) α → Except CompileError α
  | .ok a => .ok a
  | .error halt => .error halt.error

/-- **A scope.** -/
structure Scope where
  /-- The name of the unit. -/
  name : String
  /-- The entities; the handle of an entity is its place here. -/
  entities : List Entity
  /-- The handles by name, in the order of declaration. -/
  symbols : List (String × EntityId)

namespace Scope

def empty (name : String) : Scope := ⟨name, [], []⟩

/-- The entity behind a handle, if the scope ever issued it. -/
def entity? (s : Scope) (id : EntityId) : Option Entity := s.entities[id]?

def id? (s : Scope) (name : String) : Option EntityId := s.symbols.lookup name

/-- The entity of a name, with its handle. -/
def named? (s : Scope) (name : String) : Option (EntityId × Entity) :=
  (s.id? name).bind fun id => (s.entity? id).map fun e => (id, e)

/-- The entities in the order of their symbols, with their handles. -/
def declared (s : Scope) : List (EntityId × Entity) :=
  s.symbols.filterMap fun (_, id) => (s.entity? id).map fun e => (id, e)

/-- The entity of a name, or the fault that there is none. -/
def lookup (s : Scope) (name : String) (span : Span) (referrer : String) :
    Except CompileError (EntityId × Entity) :=
  match s.named? name with
  | some found => .ok found
  | none => .error (.unknown name referrer span)

/-- **What a type reference means.** A bound reference means the entity of its
handle, provided that it has the name of the reference, and otherwise nothing
in this scope. A reference not yet bound means what its name means. -/
def targetOf (s : Scope) (r : Reference EntityId) (referrer : String) :
    Except CompileError (EntityId × Entity) :=
  match r.target with
  | none => s.lookup r.name r.span referrer
  | some id =>
    match s.entity? id with
    | some e =>
      if e.name = r.name then .ok (id, e)
      else .error (.unknown r.name referrer r.span)
    | none => .error (.unknown r.name referrer r.span)

/-- **Declaring an entity**, with what is left of the scope if that fails. The
name must be free, and there must be a handle left: handles have thirty-two bits. -/
def declareOrHalt (s : Scope) (name : String) (span : Span) (body : Entity.Body) :
    Except (Halt Scope) Scope :=
  match s.named? name with
  | some (_, first) => .error ⟨.duplicate name span first.span, s⟩
  | none =>
    if s.entities.length < 0x100000000 then
      .ok { s with
        entities := s.entities ++ [⟨name, span, false, body⟩]
        symbols := s.symbols ++ [(name, s.entities.length)] }
    else .error ⟨.invalid name span .tooManyDefinitions, s⟩

def declare (s : Scope) (name : String) (span : Span) (body : Entity.Body) :
    Except CompileError Scope :=
  Halt.forget (s.declareOrHalt name span body)

def setBody (s : Scope) (id : EntityId) (body : Entity.Body) : Scope :=
  { s with entities := s.entities.modify id fun e => { e with body } }

def resolve (s : Scope) (id : EntityId) : Scope :=
  { s with entities := s.entities.modify id fun e => { e with resolved := true } }

end Scope

end Interlink
