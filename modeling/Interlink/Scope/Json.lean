import Interlink.Document.Json
import Interlink.Scope.Basic
import Interlink.Value.Json

/-!
# Scopes in JSON

A scope is written with everything that linking has added: bound references
with their handles, evaluated constants and defaults, collected methods. The
symbols are the members of an object, in the order of declaration. Reading a
scope takes what is written; records may also be arrays, of all their fields.
-/

namespace Interlink

open Json (Record)

/-! ## References -/

def Reference.toJson {τ : Type} (target : τ → Json) (r : Reference τ) : Json :=
  .object [("name", .text r.name), ("span", r.span.toJson),
    ("target", .option target r.target)]

def Reference.ofJson? {τ : Type} (target? : Json → Option τ) (j : Json) :
    Option (Reference τ) := do
  let [name, span, target] ← (← j.record?).fullSlots? ["name", "span", "target"]
    | none
  return ⟨← name.bind Json.string?, ← span.bind Span.ofJson?,
    ← Json.orNull target target?⟩

def EntityId.toJson (id : EntityId) : Json := .int id

def EntityId.ofJson? (j : Json) : Option EntityId :=
  j.uint32?.map UInt32.toNat

def ConstTarget.toJson : ConstTarget → Json
  | .const id => .tagged "Const" (EntityId.toJson id)
  | .item enumId n =>
    .tagged "EnumItem"
      (.object [("enum_id", EntityId.toJson enumId), ("value", .int n.toInt)])

/-- Read what a constant reference is bound to. An item is read from an object only:
an array of its two parts is refused, although a reader that makes no tree of the text
would take it. -/
def ConstTarget.ofJson? (j : Json) : Option ConstTarget :=
  match j.variant? with
  | some ("Const", some id) => (EntityId.ofJson? id).map .const
  | some ("EnumItem", some (.obj members)) => do
    let [enumId, n] ← (Record.named members).slots? ["enum_id", "value"] | none
    return .item (← enumId.bind EntityId.ofJson?) (← n.bind Json.int32?)
  | _ => none

/-! ## Types and expressions -/

namespace Ty

def toJson : Ty → Json
  | .primitive p => .tagged "primitive" (.text p.keyword)
  | .list element => .tagged "list" element.toJson
  | .set element => .tagged "set" element.toJson
  | .map key value => .tagged "map" (.arr [key.toJson, value.toJson])
  | .named reference => .tagged "named" (reference.toJson EntityId.toJson)

/-- **Read a type.** -/
def ofJson? : Json → Option Ty
  | .obj [(some "primitive", j)] =>
    (j.bare?.bind Primitive.ofKeyword?).map .primitive
  | .obj [(some "list", j)] => (ofJson? j).map .list
  | .obj [(some "set", j)] => (ofJson? j).map .set
  | .obj [(some "map", .arr [j, k])] =>
    match ofJson? j, ofJson? k with
    | some key, some value => some (.map key value)
    | _, _ => none
  | .obj [(some "named", j)] =>
    (Reference.ofJson? EntityId.ofJson? j).map .named
  | _ => none

end Ty

namespace Init

mutual

def toJson : Init → Json
  | .bool b => .tagged "bool" (.bool b)
  | .int n => .tagged "int" (.int n.toInt)
  | .double d => .tagged "double" (.double d)
  | .string s => .tagged "string" (.text s)
  | .list items => .tagged "list" (.arr (itemsToJson items))
  | .map entries => .tagged "map" (.arr (entriesToJson entries))
  | .reference r => .tagged "reference" (r.toJson ConstTarget.toJson)

def itemsToJson : List Init → List Json
  | [] => []
  | item :: items => item.toJson :: itemsToJson items

/-- The entries of a map in JSON: arrays of two. -/
def entriesToJson : List (Init × Init) → List Json
  | [] => []
  | (key, value) :: entries =>
    .arr [key.toJson, value.toJson] :: entriesToJson entries

end

mutual

/-- **Read a constant expression.** -/
def ofJson? : Json → Option Init
  | .obj [(some "bool", j)] => j.bool?.map .bool
  | .obj [(some "int", j)] => j.int64?.map .int
  | .obj [(some "double", j)] => j.double?.map .double
  | .obj [(some "string", j)] => j.string?.map .string
  | .obj [(some "list", .arr items)] => (ofItems? items).map .list
  | .obj [(some "map", .arr entries)] => (ofEntries? entries).map .map
  | .obj [(some "reference", j)] =>
    (Reference.ofJson? ConstTarget.ofJson? j).map .reference
  | _ => none

def ofItems? : List Json → Option (List Init)
  | [] => some []
  | j :: items =>
    match ofJson? j, ofItems? items with
    | some item, some items => some (item :: items)
    | _, _ => none

def ofEntries? : List Json → Option (List (Init × Init))
  | [] => some []
  | .arr [j, k] :: entries =>
    match ofJson? j, ofJson? k, ofEntries? entries with
    | some key, some value, some entries => some ((key, value) :: entries)
    | _, _, _ => none
  | _ => none

end

end Init

/-! ## Entities -/

namespace Entity

def Item.toJson (i : Item) : Json :=
  .object [("name", .text i.name), ("value", .int i.value.toInt),
    ("span", i.span.toJson)]

def Item.ofJson? (j : Json) : Option Item := do
  let [name, value, span] ← (← j.record?).fullSlots? ["name", "value", "span"]
    | none
  return ⟨← name.bind Json.string?, ← value.bind Json.int32?,
    ← span.bind Span.ofJson?⟩

def Field.toJson (f : Field) : Json :=
  .object [
    ("id", .int f.id.toInt),
    ("name", .text f.name),
    ("ty", f.type.toJson),
    ("requiredness", .text f.requiredness.keyword),
    ("default", .option Init.toJson f.default),
    ("default_value", .option Value.toJson f.defaultValue),
    ("span", f.span.toJson)]

def Field.ofJson? (j : Json) : Option Field := do
  let [id, name, type, requiredness, default, defaultValue, span] ←
    (← j.record?).fullSlots?
      ["id", "name", "ty", "requiredness", "default", "default_value", "span"]
    | none
  return {
    id := ← id.bind Json.int16?
    name := ← name.bind Json.string?
    type := ← type.bind Ty.ofJson?
    requiredness := ← Requiredness.ofKeyword? (← requiredness.bind Json.bare?)
    default := ← Json.orNull default Init.ofJson?
    defaultValue := ← Json.orNull defaultValue Value.ofJson?
    span := ← span.bind Span.ofJson? }

def Function.toJson (f : Function) : Json :=
  .object [
    ("name", .text f.name),
    ("parameters", .arr (f.parameters.map Field.toJson)),
    ("return_type", .option Ty.toJson f.returns),
    ("exceptions", .arr (f.exceptions.map Field.toJson)),
    ("oneway", .bool f.oneway),
    ("span", f.span.toJson)]

def Function.ofJson? (j : Json) : Option Function := do
  let [name, parameters, returns, exceptions, oneway, span] ←
    (← j.record?).fullSlots?
      ["name", "parameters", "return_type", "exceptions", "oneway", "span"]
    | none
  return {
    name := ← name.bind Json.string?
    parameters := ← parameters.bind (Json.list? Field.ofJson?)
    returns := ← Json.orNull returns Ty.ofJson?
    exceptions := ← exceptions.bind (Json.list? Field.ofJson?)
    oneway := ← oneway.bind Json.bool?
    span := ← span.bind Span.ofJson? }

def Method.toJson (m : Method) : Json :=
  .object [("service", EntityId.toJson m.service), ("index", .int m.index)]

def Method.ofJson? (j : Json) : Option Method := do
  let [service, index] ← (← j.record?).fullSlots? ["service", "index"] | none
  return ⟨← service.bind EntityId.ofJson?,
    (← index.bind Json.uint64?).toNat⟩

/-- The tag of a type with fields. -/
def structTag : StructKind → String
  | .struct => "Struct"
  | .union => "Union"
  | .exception => "Exception"

/-- The tag of a kind of entity. -/
def Kind.tag : Kind → String
  | .constant => "Const"
  | .typedef => "TypeAlias"
  | .enum => "Enum"
  | .struct kind => structTag kind
  | .service => "Service"

/-- **What an entity holds, in JSON.** -/
def Body.toJson (b : Body) : Json :=
  .tagged b.kind.tag <| match b with
    | .const type init value =>
      .object [("ty", type.toJson), ("expr", init.toJson),
        ("value", .option Value.toJson value)]
    | .typedef target => .object [("target", target.toJson)]
    | .enum items => .object [("items", .arr (items.map Item.toJson))]
    | .struct _ fields => .object [("fields", .arr (fields.map Field.toJson))]
    | .service functions parent methods =>
      .object [
        ("functions", .arr (functions.map Function.toJson)),
        ("parent", .option (Reference.toJson EntityId.toJson) parent),
        ("methods", .arr (methods.map Method.toJson))]

def constOfRecord? (r : Record Json) : Option Body := do
  let [type, init, value] ← r.fullSlots? ["ty", "expr", "value"] | none
  return .const (← type.bind Ty.ofJson?) (← init.bind Init.ofJson?)
    (← Json.orNull value Value.ofJson?)

def typedefOfRecord? (r : Record Json) : Option Body := do
  let [target] ← r.fullSlots? ["target"] | none
  return .typedef (← target.bind Ty.ofJson?)

def enumOfRecord? (r : Record Json) : Option Body := do
  let [items] ← r.fullSlots? ["items"] | none
  return .enum (← items.bind (Json.list? Item.ofJson?))

def structOfRecord? (kind : StructKind) (r : Record Json) : Option Body := do
  let [fields] ← r.fullSlots? ["fields"] | none
  return .struct kind (← fields.bind (Json.list? Field.ofJson?))

def serviceOfRecord? (r : Record Json) : Option Body := do
  let [functions, parent, methods] ←
    r.fullSlots? ["functions", "parent", "methods"] | none
  return .service
    (← functions.bind (Json.list? Function.ofJson?))
    (← Json.orNull parent (Reference.ofJson? EntityId.ofJson?))
    (← methods.bind (Json.list? Method.ofJson?))

/-- **Read what an entity holds.** -/
def Body.ofJson? (j : Json) : Option Body :=
  match j.variant? with
  | some (tag, some payload) =>
    payload.record?.bind fun r =>
      match tag with
      | "Const" => constOfRecord? r
      | "TypeAlias" => typedefOfRecord? r
      | "Enum" => enumOfRecord? r
      | "Struct" => structOfRecord? .struct r
      | "Union" => structOfRecord? .union r
      | "Exception" => structOfRecord? .exception r
      | "Service" => serviceOfRecord? r
      | _ => none
  | _ => none

/-- The word for the state of an entity. -/
def stateWord (resolved : Bool) : String :=
  if resolved then "Resolved" else "Unresolved"

/-- **An entity in JSON.** -/
def toJson (e : Entity) : Json :=
  .object [
    ("name", .text e.name),
    ("span", e.span.toJson),
    ("tag", .text e.kind.tag),
    ("state", .text (stateWord e.resolved)),
    ("kind", e.body.toJson)]

/-- Read the state of an entity. -/
def resolvedOfJson? (j : Json) : Option Bool :=
  j.bare?.bind fun
    | "Resolved" => some true
    | "Unresolved" => some false
    | _ => none

/-- **Read an entity.** An entity has no tag apart from its body, so a text in
which the tag is not that of the body is refused: nothing here could hold what it
says. No scope is written so. -/
def ofJson? (j : Json) : Option Entity := do
  let [name, span, tag, state, kind] ←
    (← j.record?).fullSlots? ["name", "span", "tag", "state", "kind"] | none
  let body ← kind.bind Body.ofJson?
  let tag ← tag.bind Json.bare?
  if tag = body.kind.tag then
    return ⟨← name.bind Json.string?, ← span.bind Span.ofJson?,
      ← state.bind resolvedOfJson?, body⟩
  else none

end Entity

/-! ## Scopes -/

namespace Scope

/-- **A scope in JSON.** -/
def toJson (s : Scope) : Json :=
  .object [
    ("name", .text s.name),
    ("entities", .arr (s.entities.map Entity.toJson)),
    ("symbols", .object (s.symbols.map fun (name, id) =>
      (name, EntityId.toJson id)))]

/-- Read a table of symbols, behind those that are there already. -/
def symbolsOf? (done : List (String × EntityId)) :
    List (Option String × Json) → Option (List (String × EntityId))
  | [] => some done
  | (name, j) :: members =>
    match name, EntityId.ofJson? j with
    | some name, some id => symbolsOf? (put done name id) members
    | _, _ => none

def symbolsOfJson? : Json → Option (List (String × EntityId))
  | .obj members => symbolsOf? [] members
  | _ => none

/-- **Read a scope.** -/
def ofJson? (j : Json) : Option Scope := do
  let [name, entities, symbols] ←
    (← j.record?).fullSlots? ["name", "entities", "symbols"] | none
  return ⟨← name.bind Json.string?,
    ← entities.bind (Json.list? Entity.ofJson?),
    ← symbols.bind symbolsOfJson?⟩

/-- **Read a scope from a text**, nested within the limit. -/
def parse? (text : String) : Option Scope :=
  (Json.parse? text).bind fun j =>
    if j.depth ≤ Document.maxDepth then ofJson? j else none

end Scope

end Interlink
