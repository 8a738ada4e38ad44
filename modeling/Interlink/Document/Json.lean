import Interlink.Document.Basic
import Interlink.Json.Record

/-!
# Documents in JSON

Every part of a document has a form in JSON: a tree that it is written as, and
a reading of trees that takes a little more than is ever written – members in
any order, fields left off that have a default, records as arrays.

Headers and definitions name their kind in a member of their own. To find it
the whole of a header or definition is read first, so all of it has to be
readable and nested within the limit, members that nobody asks for included.
Outside them such members are only passed over. Inside them a choice that
carries nothing may come with an empty object.
-/

namespace Interlink

open Json (Record)

/-! ## Places and names -/

/-- A place in JSON. -/
def Span.toJson (s : Span) : Json :=
  .object [("line", .int s.line.toNat), ("column", .int s.column.toNat)]

/-- Read a place; the column may be left off. -/
def Span.ofJson? (j : Json) : Option Span := do
  let [line, column] ← (← j.record?).slots? ["line", "column"] | none
  return ⟨← line.bind Json.uint32?, ← Json.orElse column 0 Json.uint32?⟩

/-- Read the place of a part, not known when it is left off. -/
def Span.ofSlot? (slot : Option Json) : Option Span :=
  Json.orElse slot .unknown Span.ofJson?

def Mention.toJson (m : Mention) : Json :=
  .object [("name", .text m.name), ("span", m.span.toJson)]

def Mention.ofJson? (j : Json) : Option Mention := do
  let [name, span] ← (← j.record?).slots? ["name", "span"] | none
  return ⟨← name.bind Json.string?, ← Span.ofSlot? span⟩

def Primitive.ofJson? (j : Json) : Option Primitive :=
  j.bareOrEmpty?.bind Primitive.ofKeyword?

def Requiredness.ofKeyword? : String → Option Requiredness
  | "required" => some .required
  | "optional" => some .optional
  | "default" => some .unmarked
  | _ => none

def Requiredness.ofJson? (j : Json) : Option Requiredness :=
  j.bareOrEmpty?.bind Requiredness.ofKeyword?

/-! ## Types -/

namespace TypeExpr

def toJson : TypeExpr → Json
  | .primitive p => .tagged "primitive" (.text p.keyword)
  | .list element => .tagged "list" element.toJson
  | .set element => .tagged "set" element.toJson
  | .map key value =>
    .tagged "map" (.object [("key", key.toJson), ("value", value.toJson)])
  | .named mention => .tagged "named" mention.toJson

/-- The map type of a record of two types. -/
def ofRecord? (r : Record (Option TypeExpr)) : Option TypeExpr :=
  match r.slots? ["key", "value"] with
  | some [some (some key), some (some value)] => some (.map key value)
  | _ => none

mutual

/-- **Read a type.** -/
def ofJson? : Json → Option TypeExpr
  | .obj [(some "primitive", j)] => (Primitive.ofJson? j).map .primitive
  | .obj [(some "list", j)] => (ofJson? j).map .list
  | .obj [(some "set", j)] => (ofJson? j).map .set
  | .obj [(some "map", .obj members)] => ofRecord? (.named (ofMembers members))
  | .obj [(some "map", .arr items)] => ofRecord? (.positional (ofItems items))
  | .obj [(some "named", j)] => (Mention.ofJson? j).map .named
  | _ => none

/-- The types that the members of an object can be read as. -/
def ofMembers :
    List (Option String × Json) → List (Option String × Option TypeExpr)
  | [] => []
  | (name, j) :: members => (name, ofJson? j) :: ofMembers members

/-- The types that the items of an array can be read as. -/
def ofItems : List Json → List (Option TypeExpr)
  | [] => []
  | j :: items => ofJson? j :: ofItems items

end

end TypeExpr

/-! ## Constants -/

namespace ConstExpr

mutual

def toJson : ConstExpr → Json
  | .bool b => .tagged "bool" (.bool b)
  | .int n => .tagged "int" (.int n.toInt)
  | .double d => .tagged "double" (.double d)
  | .string s => .tagged "string" (.text s)
  | .list items => .tagged "list" (.arr (itemsToJson items))
  | .map entries => .tagged "map" (.arr (entriesToJson entries))
  | .reference mention => .tagged "reference" mention.toJson

def itemsToJson : List ConstExpr → List Json
  | [] => []
  | item :: items => item.toJson :: itemsToJson items

/-- The entries of a map in JSON: arrays of two. -/
def entriesToJson : List (ConstExpr × ConstExpr) → List Json
  | [] => []
  | (key, value) :: entries =>
    .arr [key.toJson, value.toJson] :: entriesToJson entries

end

mutual

/-- **Read a constant.** -/
def ofJson? : Json → Option ConstExpr
  | .obj [(some "bool", j)] => j.bool?.map .bool
  | .obj [(some "int", j)] => j.int64?.map .int
  | .obj [(some "double", j)] => j.double?.map .double
  | .obj [(some "string", j)] => j.string?.map .string
  | .obj [(some "list", .arr items)] => (ofItems? items).map .list
  | .obj [(some "map", .arr entries)] => (ofEntries? entries).map .map
  | .obj [(some "reference", j)] => (Mention.ofJson? j).map .reference
  | _ => none

def ofItems? : List Json → Option (List ConstExpr)
  | [] => some []
  | j :: items =>
    match ofJson? j, ofItems? items with
    | some item, some items => some (item :: items)
    | _, _ => none

def ofEntries? : List Json → Option (List (ConstExpr × ConstExpr))
  | [] => some []
  | .arr [j, k] :: entries =>
    match ofJson? j, ofJson? k, ofEntries? entries with
    | some key, some value, some entries => some ((key, value) :: entries)
    | _, _, _ => none
  | _ => none

end

end ConstExpr

/-! ## Parts of definitions -/

def Field.toJson (f : Field) : Json :=
  .object [
    ("id", .option (fun id => .int id.toInt) f.id),
    ("name", .text f.name),
    ("ty", f.type.toJson),
    ("requiredness", .text f.requiredness.keyword),
    ("default", .option ConstExpr.toJson f.default),
    ("span", f.span.toJson)]

def Field.ofJson? (j : Json) : Option Field := do
  let [id, name, type, requiredness, default, span] ← (← j.record?).slots?
    ["id", "name", "ty", "requiredness", "default", "span"] | none
  return {
    id := ← Json.orNull id Json.int16?
    name := ← name.bind Json.string?
    type := ← type.bind TypeExpr.ofJson?
    requiredness := ← Json.orElse requiredness .unmarked Requiredness.ofJson?
    default := ← Json.orNull default ConstExpr.ofJson?
    span := ← Span.ofSlot? span }

/-- Read a sequence of fields, empty when it is left off. -/
def Field.listOfSlot? (slot : Option Json) : Option (List Field) :=
  Json.orElse slot [] (Json.list? Field.ofJson?)

def EnumItem.toJson (i : EnumItem) : Json :=
  .object [
    ("name", .text i.name),
    ("value", .option (fun n => .int n.toInt) i.value),
    ("span", i.span.toJson)]

def EnumItem.ofJson? (j : Json) : Option EnumItem := do
  let [name, value, span] ← (← j.record?).slots? ["name", "value", "span"]
    | none
  return ⟨← name.bind Json.string?, ← Json.orNull value Json.int32?,
    ← Span.ofSlot? span⟩

def FunctionDecl.toJson (f : FunctionDecl) : Json :=
  .object [
    ("name", .text f.name),
    ("parameters", .arr (f.parameters.map Field.toJson)),
    ("return_type", .option TypeExpr.toJson f.returns),
    ("exceptions", .arr (f.exceptions.map Field.toJson)),
    ("oneway", .bool f.oneway),
    ("span", f.span.toJson)]

def FunctionDecl.ofJson? (j : Json) : Option FunctionDecl := do
  let [name, parameters, returns, exceptions, oneway, span] ←
    (← j.record?).slots?
      ["name", "parameters", "return_type", "exceptions", "oneway", "span"]
    | none
  return {
    name := ← name.bind Json.string?
    parameters := ← Field.listOfSlot? parameters
    returns := ← Json.orNull returns TypeExpr.ofJson?
    exceptions := ← Field.listOfSlot? exceptions
    oneway := ← Json.orElse oneway false Json.bool?
    span := ← Span.ofSlot? span }

/-! ## Definitions -/

namespace Definition

/-- The members of a definition between its name and its place. -/
def Body.members : Body → List (String × Json)
  | .const type value => [("ty", type.toJson), ("value", value.toJson)]
  | .typedef target => [("target", target.toJson)]
  | .enum items => [("items", .arr (items.map EnumItem.toJson))]
  | .struct _ fields => [("fields", .arr (fields.map Field.toJson))]
  | .service functions parent =>
    [("functions", .arr (functions.map FunctionDecl.toJson)),
      ("extends", .option Mention.toJson parent)]

/-- **A definition in JSON.** -/
def toJson (d : Definition) : Json :=
  .object (("kind", .text d.keyword) :: ("name", .text d.name)
    :: d.body.members ++ [("span", d.span.toJson)])

def constOfRecord? (r : Record Json) : Option Definition := do
  let [name, type, value, span] ← r.slots? ["name", "ty", "value", "span"]
    | none
  return ⟨← name.bind Json.string?, ← Span.ofSlot? span,
    .const (← type.bind TypeExpr.ofJson?) (← value.bind ConstExpr.ofJson?)⟩

def typedefOfRecord? (r : Record Json) : Option Definition := do
  let [name, target, span] ← r.slots? ["name", "target", "span"] | none
  return ⟨← name.bind Json.string?, ← Span.ofSlot? span,
    .typedef (← target.bind TypeExpr.ofJson?)⟩

def enumOfRecord? (r : Record Json) : Option Definition := do
  let [name, items, span] ← r.slots? ["name", "items", "span"] | none
  return ⟨← name.bind Json.string?, ← Span.ofSlot? span,
    .enum (← items.bind (Json.list? EnumItem.ofJson?))⟩

def structOfRecord? (kind : StructKind) (r : Record Json) :
    Option Definition := do
  let [name, fields, span] ← r.slots? ["name", "fields", "span"] | none
  return ⟨← name.bind Json.string?, ← Span.ofSlot? span,
    .struct kind (← Field.listOfSlot? fields)⟩

def serviceOfRecord? (r : Record Json) : Option Definition := do
  let [name, functions, parent, span] ←
    r.slots? ["name", "functions", "extends", "span"] | none
  return ⟨← name.bind Json.string?, ← Span.ofSlot? span,
    .service
      (← Json.orElse functions [] (Json.list? FunctionDecl.ofJson?))
      (← Json.orNull parent Mention.ofJson?)⟩

/-- **Read a definition.** -/
def ofJson? (j : Json) : Option Definition :=
  j.kinded?.bind fun
    | ("const", r) => constOfRecord? r
    | ("typedef", r) => typedefOfRecord? r
    | ("enum", r) => enumOfRecord? r
    | ("struct", r) => structOfRecord? .struct r
    | ("union", r) => structOfRecord? .union r
    | ("exception", r) => structOfRecord? .exception r
    | ("service", r) => serviceOfRecord? r
    | _ => none

end Definition

/-! ## Headers -/

namespace Header

/-- **A header in JSON.** -/
def toJson : Header → Json
  | .inclusion path span =>
    .object [("kind", .text "include"), ("path", .text path),
      ("span", span.toJson)]
  | .naming language name span =>
    .object [("kind", .text "namespace"), ("scope", .text language),
      ("name", .text name), ("span", span.toJson)]

def inclusionOfRecord? (r : Record Json) : Option Header := do
  let [path, span] ← r.slots? ["path", "span"] | none
  return .inclusion (← path.bind Json.string?) (← Span.ofSlot? span)

def namingOfRecord? (r : Record Json) : Option Header := do
  let [language, name, span] ← r.slots? ["scope", "name", "span"] | none
  return .naming (← language.bind Json.string?) (← name.bind Json.string?)
    (← Span.ofSlot? span)

/-- **Read a header.** -/
def ofJson? (j : Json) : Option Header :=
  j.kinded?.bind fun
    | ("include", r) => inclusionOfRecord? r
    | ("namespace", r) => namingOfRecord? r
    | _ => none

end Header

/-! ## Documents -/

namespace Document

/-- **A document in JSON.** -/
def toJson (d : Document) : Json :=
  .object [
    ("headers", .arr (d.headers.map Header.toJson)),
    ("definitions", .arr (d.definitions.map Definition.toJson))]

/-- The deepest nesting that a text may have. -/
def maxDepth : Nat := 127

/-- Read a sequence of parts that name their kind, empty when it is left off.
It stands inside the document's own brackets. -/
def partsOfSlot? {α : Type} (read : Json → Option α) (slot : Option Json) :
    Option (List α) :=
  Json.orElse slot [] fun j =>
    if j.readable && decide (j.depth < maxDepth) then Json.list? read j
    else none

/-- **Read a document.** -/
def ofJson? (j : Json) : Option Document := do
  let [headers, definitions] ←
    (← j.record?).slots? ["headers", "definitions"] | none
  return ⟨← partsOfSlot? Header.ofJson? headers,
    ← partsOfSlot? Definition.ofJson? definitions⟩

/-- **Read a document from a text.** -/
def parse? (text : String) : Option Document :=
  (Json.parse? text).bind ofJson?

end Document

end Interlink
