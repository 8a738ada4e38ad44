import Interlink.Document.Json
import Interlink.Proofs.Json.Record

/-!
# Documents are read as they were written

Every part of a document survives JSON: it is written as a tree that can be
written and read, and the tree is read as the part it was. Records are followed
member by member (`ofJson?_object`), types and constants by induction. Of the
doubles it has to be known that they are kept (`Json.KeepsDouble`); they are
collected along the document (`Document.doubles`).

A document as a whole is read from its compact text exactly if the text does not
nest too deep (`Document.parse?_toJson`).
-/

namespace Interlink

open Json (KeepsDouble Legible Survives)

/-! ## Places and names -/

namespace Span

theorem ofJson?_object (line column : Json) :
    ofJson? (.object [("line", line), ("column", column)])
      = line.uint32?.bind fun line => column.uint32?.bind fun column =>
        some ⟨line, column⟩ := rfl

theorem survives (s : Span) : Survives toJson ofJson? s where
  legible := by simp [toJson]
  read := by
    rw [toJson, ofJson?_object, Json.uint32?_int, Option.bind_some, Json.uint32?_int,
      Option.bind_some]

end Span

namespace Mention

theorem ofJson?_object (name span : Json) :
    ofJson? (.object [("name", name), ("span", span)])
      = name.string?.bind fun name => (Span.ofJson? span).bind fun span =>
        some ⟨name, span⟩ := rfl

theorem survives (m : Mention) : Survives toJson ofJson? m where
  legible := by simp [toJson, m.span.survives.legible]
  read := by
    rw [toJson, ofJson?_object, m.span.survives.read]
    rfl

theorem toJson_ne_null (m : Mention) : m.toJson ≠ .null := nofun

end Mention

theorem Primitive.ofKeyword?_keyword (p : Primitive) : ofKeyword? p.keyword = some p := by
  cases p <;> rfl

theorem Requiredness.ofKeyword?_keyword (r : Requiredness) :
    ofKeyword? r.keyword = some r := by
  cases r <;> rfl

/-! ## Types -/

namespace TypeExpr

theorem toJson_ne_null (t : TypeExpr) : t.toJson ≠ .null := by
  cases t <;> nofun

/-- **A type survives JSON.** -/
theorem survives (t : TypeExpr) : Survives toJson ofJson? t := by
  induction t with
  | primitive p =>
    refine ⟨by simp [toJson], ?_⟩
    show (Primitive.ofKeyword? p.keyword).map primitive = _
    rw [p.ofKeyword?_keyword]
    rfl
  | list element ih =>
    refine ⟨by simp [toJson, ih.legible], ?_⟩
    show (ofJson? element.toJson).map list = _
    rw [ih.read]
    rfl
  | set element ih =>
    refine ⟨by simp [toJson, ih.legible], ?_⟩
    show (ofJson? element.toJson).map set = _
    rw [ih.read]
    rfl
  | map key value hkey hvalue =>
    refine ⟨by simp [toJson, hkey.legible, hvalue.legible], ?_⟩
    show ofRecord? (.named [(some "key", ofJson? key.toJson),
      (some "value", ofJson? value.toJson)]) = _
    rw [hkey.read, hvalue.read]
    rfl
  | named m =>
    refine ⟨by simp [toJson, m.survives.legible], ?_⟩
    show (Mention.ofJson? m.toJson).map named = _
    rw [m.survives.read]
    rfl

end TypeExpr

/-! ## Constants -/

namespace ConstExpr

mutual

/-- The doubles in a constant. -/
def doubles : ConstExpr → List Double
  | .double d => [d]
  | .list items => itemDoubles items
  | .map entries => entryDoubles entries
  | _ => []

def itemDoubles : List ConstExpr → List Double
  | [] => []
  | item :: items => item.doubles ++ itemDoubles items

def entryDoubles : List (ConstExpr × ConstExpr) → List Double
  | [] => []
  | (key, value) :: entries => key.doubles ++ value.doubles ++ entryDoubles entries

end

theorem toJson_ne_null (c : ConstExpr) : c.toJson ≠ .null := by
  cases c <;> nofun

mutual

/-- **A constant survives JSON** if its doubles do. -/
theorem survives (c : ConstExpr) (h : ∀ d ∈ c.doubles, KeepsDouble d) :
    Survives toJson ofJson? c := by
  cases c with
  | bool b => exact ⟨by simp [toJson], rfl⟩
  | int n =>
    refine ⟨by simp [toJson], ?_⟩
    show (Json.int n.toInt).int64?.map int = _
    rw [Json.int64?_int]
    rfl
  | double d =>
    have hd := h d List.mem_cons_self
    refine ⟨by simp [toJson, hd.legible], ?_⟩
    show (Json.double d).double?.map double = _
    rw [hd.double?]
    rfl
  | string s => exact ⟨by simp [toJson], rfl⟩
  | list items =>
    obtain ⟨hlegible, hread⟩ := survives_items items h
    refine ⟨by simpa [toJson] using hlegible, ?_⟩
    show (ofItems? (itemsToJson items)).map list = _
    rw [hread]
    rfl
  | map entries =>
    obtain ⟨hlegible, hread⟩ := survives_entries entries h
    refine ⟨by simpa [toJson] using hlegible, ?_⟩
    show (ofEntries? (entriesToJson entries)).map map = _
    rw [hread]
    rfl
  | reference m =>
    refine ⟨by simp [toJson, m.survives.legible], ?_⟩
    show (Mention.ofJson? m.toJson).map reference = _
    rw [m.survives.read]
    rfl

theorem survives_items (items : List ConstExpr)
    (h : ∀ d ∈ itemDoubles items, KeepsDouble d) :
    (∀ j ∈ itemsToJson items, j.Legible)
      ∧ ofItems? (itemsToJson items) = some items := by
  cases items with
  | nil => exact ⟨fun _ hj => absurd hj List.not_mem_nil, rfl⟩
  | cons item items =>
    obtain ⟨hitem, hitems⟩ := List.forall_mem_append.mp h
    have hfirst := survives item hitem
    obtain ⟨hlegible, hread⟩ := survives_items items hitems
    refine ⟨List.forall_mem_cons.mpr ⟨hfirst.legible, hlegible⟩, ?_⟩
    rw [itemsToJson, ofItems?, hfirst.read, hread]

theorem survives_entries (entries : List (ConstExpr × ConstExpr))
    (h : ∀ d ∈ entryDoubles entries, KeepsDouble d) :
    (∀ j ∈ entriesToJson entries, j.Legible)
      ∧ ofEntries? (entriesToJson entries) = some entries := by
  cases entries with
  | nil => exact ⟨fun _ hj => absurd hj List.not_mem_nil, rfl⟩
  | cons entry entries =>
    obtain ⟨key, value⟩ := entry
    obtain ⟨hentry, hentries⟩ := List.forall_mem_append.mp h
    obtain ⟨hkey, hvalue⟩ := List.forall_mem_append.mp hentry
    have hkey := survives key hkey
    have hvalue := survives value hvalue
    obtain ⟨hlegible, hread⟩ := survives_entries entries hentries
    refine ⟨List.forall_mem_cons.mpr ⟨?_, hlegible⟩, ?_⟩
    · simp [hkey.legible, hvalue.legible]
    · rw [entriesToJson, ofEntries?, hkey.read, hvalue.read, hread]

end

end ConstExpr

/-! ## Parts of definitions -/

namespace Field

/-- The doubles in a field. -/
def doubles (f : Field) : List Double := (f.default.map ConstExpr.doubles).getD []

theorem ofJson?_object (id name type requiredness default span : Json) :
    ofJson? (.object [("id", id), ("name", name), ("ty", type),
        ("requiredness", requiredness), ("default", default), ("span", span)])
      = (Json.orNull (some id) Json.int16?).bind fun id => name.string?.bind fun name =>
        (TypeExpr.ofJson? type).bind fun type =>
        (Requiredness.ofJson? requiredness).bind fun requiredness =>
        (Json.orNull (some default) ConstExpr.ofJson?).bind fun default =>
        (Span.ofJson? span).bind fun span =>
        some ⟨id, name, type, requiredness, default, span⟩ := rfl

/-- **A field survives JSON** if its doubles do. -/
theorem survives (f : Field) (h : ∀ d ∈ f.doubles, KeepsDouble d) :
    Survives toJson ofJson? f := by
  have hdefault : ∀ c ∈ f.default, Survives ConstExpr.toJson ConstExpr.ofJson? c := by
    intro c hc
    refine c.survives ?_
    unfold doubles at h
    rw [Option.mem_def.mp hc] at h
    exact h
  have hrequiredness : Requiredness.ofJson? (.text f.requiredness.keyword)
      = some f.requiredness := f.requiredness.ofKeyword?_keyword
  have hid : Json.orNull (some (.option (fun id : Int16 => .int id.toInt) f.id)) Json.int16?
      = some f.id := Json.orNull_option (fun _ => nofun) fun id _ => Json.int16?_int id
  refine ⟨?_, ?_⟩
  · have hlegible : (Json.option (fun id : Int16 => Json.int id.toInt) f.id).Legible
        ∧ (Json.option ConstExpr.toJson f.default).Legible :=
      ⟨Json.legible_option fun id _ => Json.legible_int16 id,
        Json.legible_option fun c hc => (hdefault c hc).legible⟩
    simp [toJson, hlegible, f.type.survives.legible, f.span.survives.legible]
  · rw [toJson, ofJson?_object, hid,
      Json.orNull_option ConstExpr.toJson_ne_null fun c hc => (hdefault c hc).read,
      f.type.survives.read, f.span.survives.read, hrequiredness]
    rfl

end Field

namespace EnumItem

theorem ofJson?_object (name value span : Json) :
    ofJson? (.object [("name", name), ("value", value), ("span", span)])
      = name.string?.bind fun name => (Json.orNull (some value) Json.int32?).bind fun value =>
        (Span.ofJson? span).bind fun span => some ⟨name, value, span⟩ := rfl

theorem survives (i : EnumItem) : Survives toJson ofJson? i where
  legible := by
    have hvalue : (Json.option (fun n : Int32 => Json.int n.toInt) i.value).Legible :=
      Json.legible_option fun n _ => Json.legible_int32 n
    simp [toJson, hvalue, i.span.survives.legible]
  read := by
    have hvalue : Json.orNull (some (.option (fun n : Int32 => .int n.toInt) i.value))
        Json.int32? = some i.value :=
      Json.orNull_option (fun _ => nofun) fun n _ => Json.int32?_int n
    rw [toJson, ofJson?_object, hvalue, i.span.survives.read]
    rfl

end EnumItem

namespace FunctionDecl

/-- The doubles in a function. -/
def doubles (f : FunctionDecl) : List Double :=
  f.parameters.flatMap Field.doubles ++ f.exceptions.flatMap Field.doubles

theorem ofJson?_object (name parameters returns exceptions oneway span : Json) :
    ofJson? (.object [("name", name), ("parameters", parameters),
        ("return_type", returns), ("exceptions", exceptions), ("oneway", oneway),
        ("span", span)])
      = name.string?.bind fun name => (parameters.list? Field.ofJson?).bind fun parameters =>
        (Json.orNull (some returns) TypeExpr.ofJson?).bind fun returns =>
        (exceptions.list? Field.ofJson?).bind fun exceptions =>
        oneway.bool?.bind fun oneway => (Span.ofJson? span).bind fun span =>
        some ⟨name, parameters, returns, exceptions, oneway, span⟩ := rfl

/-- **A function survives JSON** if its doubles do. -/
theorem survives (f : FunctionDecl) (h : ∀ d ∈ f.doubles, KeepsDouble d) :
    Survives toJson ofJson? f := by
  obtain ⟨hparameters, hexceptions⟩ := List.forall_mem_append.mp h
  rw [List.forall_mem_flatMap] at hparameters hexceptions
  have hparameter := fun g hg => Field.survives g (hparameters g hg)
  have hexception := fun g hg => Field.survives g (hexceptions g hg)
  refine ⟨?_, ?_⟩
  · have hreturns : (Json.option TypeExpr.toJson f.returns).Legible :=
      Json.legible_option fun t _ => t.survives.legible
    have hlegible : (∀ g ∈ f.parameters, g.toJson.Legible)
        ∧ ∀ g ∈ f.exceptions, g.toJson.Legible :=
      ⟨fun g hg => (hparameter g hg).legible, fun g hg => (hexception g hg).legible⟩
    simpa [toJson, hreturns, f.span.survives.legible] using hlegible
  · rw [toJson, ofJson?_object, Json.list?_arr fun g hg => (hparameter g hg).read,
      Json.list?_arr fun g hg => (hexception g hg).read,
      Json.orNull_option TypeExpr.toJson_ne_null fun t _ => t.survives.read,
      f.span.survives.read]
    rfl

end FunctionDecl

/-! ## Definitions -/

namespace Definition

/-- The doubles in what a definition defines. -/
def Body.doubles : Body → List Double
  | .const _ value => value.doubles
  | .struct _ fields => fields.flatMap Field.doubles
  | .service functions _ => functions.flatMap FunctionDecl.doubles
  | _ => []

/-- The members of a definition that are read once its kind is known. -/
def record (d : Definition) : List (String × Json) :=
  ("name", .text d.name) :: d.body.members ++ [("span", d.span.toJson)]

/-- **A definition names its kind** in a member of its own. -/
theorem kinded?_toJson (d : Definition) :
    d.toJson.kinded?
      = some (d.keyword, .named (d.record.map fun (name, value) => (some name, value))) := by
  obtain ⟨name, span, body⟩ := d
  cases body <;> rfl

theorem constOfRecord?_named (name type value span : Json) :
    constOfRecord? (.named [(some "name", name), (some "ty", type),
        (some "value", value), (some "span", span)])
      = name.string?.bind fun name => (Span.ofJson? span).bind fun span =>
        (TypeExpr.ofJson? type).bind fun type => (ConstExpr.ofJson? value).bind fun value =>
        some ⟨name, span, .const type value⟩ := rfl

theorem typedefOfRecord?_named (name target span : Json) :
    typedefOfRecord? (.named [(some "name", name), (some "target", target),
        (some "span", span)])
      = name.string?.bind fun name => (Span.ofJson? span).bind fun span =>
        (TypeExpr.ofJson? target).bind fun target => some ⟨name, span, .typedef target⟩ := rfl

theorem enumOfRecord?_named (name items span : Json) :
    enumOfRecord? (.named [(some "name", name), (some "items", items),
        (some "span", span)])
      = name.string?.bind fun name => (Span.ofJson? span).bind fun span =>
        (items.list? EnumItem.ofJson?).bind fun items => some ⟨name, span, .enum items⟩ := rfl

theorem structOfRecord?_named (kind : StructKind) (name fields span : Json) :
    structOfRecord? kind (.named [(some "name", name), (some "fields", fields),
        (some "span", span)])
      = name.string?.bind fun name => (Span.ofJson? span).bind fun span =>
        (fields.list? Field.ofJson?).bind fun fields =>
        some ⟨name, span, .struct kind fields⟩ := rfl

theorem serviceOfRecord?_named (name functions parent span : Json) :
    serviceOfRecord? (.named [(some "name", name), (some "functions", functions),
        (some "extends", parent), (some "span", span)])
      = name.string?.bind fun name => (Span.ofJson? span).bind fun span =>
        (functions.list? FunctionDecl.ofJson?).bind fun functions =>
        (Json.orNull (some parent) Mention.ofJson?).bind fun parent =>
        some ⟨name, span, .service functions parent⟩ := rfl

/-- **A definition survives JSON** if its doubles do. -/
theorem survives (d : Definition) (h : ∀ x ∈ d.body.doubles, KeepsDouble x) :
    Survives toJson ofJson? d := by
  obtain ⟨name, span, body⟩ := d
  have hspan := span.survives
  suffices hbody : (∀ member ∈ body.members, member.2.Legible)
      ∧ ofJson? (toJson ⟨name, span, body⟩) = some ⟨name, span, body⟩ by
    refine ⟨?_, hbody.2⟩
    have hlegible := hbody.1
    simp only [toJson, Json.legible_object, List.forall_mem_cons, List.cons_append,
      List.forall_mem_append, Json.legible_text, true_and]
    exact ⟨hlegible, hspan.legible, fun _ hm => absurd hm List.not_mem_nil⟩
  unfold ofJson?
  rw [kinded?_toJson, Option.bind_some]
  cases body with
  | const type value =>
    have hvalue := value.survives h
    refine ⟨?_, ?_⟩
    · simp [Body.members, type.survives.legible, hvalue.legible]
    · show constOfRecord? (.named [(some "name", .text name), (some "ty", type.toJson),
        (some "value", value.toJson), (some "span", span.toJson)]) = _
      rw [constOfRecord?_named, hspan.read, type.survives.read, hvalue.read]
      rfl
  | typedef target =>
    refine ⟨?_, ?_⟩
    · simp [Body.members, target.survives.legible]
    · show typedefOfRecord? (.named [(some "name", .text name),
        (some "target", target.toJson), (some "span", span.toJson)]) = _
      rw [typedefOfRecord?_named, hspan.read, target.survives.read]
      rfl
  | enum items =>
    refine ⟨?_, ?_⟩
    · have hitems : ∀ i ∈ items, i.toJson.Legible := fun i _ => i.survives.legible
      simpa [Body.members] using hitems
    · show enumOfRecord? (.named [(some "name", .text name),
        (some "items", .arr (items.map EnumItem.toJson)), (some "span", span.toJson)]) = _
      rw [enumOfRecord?_named, hspan.read, Json.list?_arr fun i _ => i.survives.read]
      rfl
  | struct kind fields =>
    have hfields := fun f hf => Field.survives f (List.forall_mem_flatMap.mp h f hf)
    refine ⟨?_, ?_⟩
    · have hlegible : ∀ f ∈ fields, f.toJson.Legible := fun f hf => (hfields f hf).legible
      simpa [Body.members] using hlegible
    · have hread := structOfRecord?_named kind (.text name)
        (.arr (fields.map Field.toJson)) span.toJson
      rw [hspan.read, Json.list?_arr fun f hf => (hfields f hf).read] at hread
      cases kind <;> exact hread
  | service functions parent =>
    have hfunctions := fun f hf => FunctionDecl.survives f (List.forall_mem_flatMap.mp h f hf)
    refine ⟨?_, ?_⟩
    · have hlegible : ∀ f ∈ functions, f.toJson.Legible :=
        fun f hf => (hfunctions f hf).legible
      have hparent : (Json.option Mention.toJson parent).Legible :=
        Json.legible_option fun m _ => m.survives.legible
      simpa [Body.members, hparent] using hlegible
    · show serviceOfRecord? (.named [(some "name", .text name),
        (some "functions", .arr (functions.map FunctionDecl.toJson)),
        (some "extends", .option Mention.toJson parent), (some "span", span.toJson)]) = _
      rw [serviceOfRecord?_named, hspan.read,
        Json.list?_arr fun f hf => (hfunctions f hf).read,
        Json.orNull_option Mention.toJson_ne_null fun m _ => m.survives.read]
      rfl

end Definition

/-! ## Headers -/

namespace Header

theorem ofJson?_inclusion (path span : Json) :
    ofJson? (.object [("kind", .text "include"), ("path", path), ("span", span)])
      = path.string?.bind fun path => (Span.ofJson? span).bind fun span =>
        some (.inclusion path span) := rfl

theorem ofJson?_naming (language name span : Json) :
    ofJson? (.object [("kind", .text "namespace"), ("scope", language), ("name", name),
        ("span", span)])
      = language.string?.bind fun language => name.string?.bind fun name =>
        (Span.ofJson? span).bind fun span => some (.naming language name span) := rfl

/-- **A header survives JSON.** -/
theorem survives (x : Header) : Survives toJson ofJson? x := by
  cases x with
  | inclusion path span =>
    refine ⟨by simp [toJson, span.survives.legible], ?_⟩
    rw [toJson, ofJson?_inclusion, span.survives.read]
    rfl
  | naming language name span =>
    refine ⟨by simp [toJson, span.survives.legible], ?_⟩
    rw [toJson, ofJson?_naming, span.survives.read]
    rfl

end Header

/-! ## Documents -/

namespace Document

/-- **The doubles in a document.** -/
def doubles (d : Document) : List Double :=
  d.definitions.flatMap fun x => x.body.doubles

theorem ofJson?_object (headers definitions : Json) :
    ofJson? (.object [("headers", headers), ("definitions", definitions)])
      = (partsOfSlot? Header.ofJson? (some headers)).bind fun headers =>
        (partsOfSlot? Definition.ofJson? (some definitions)).bind fun definitions =>
        some ⟨headers, definitions⟩ := rfl

/-- Parts are read if there is room for them, and refused if there is not. -/
theorem partsOfSlot?_arr {α : Type} {toJson : α → Json} {read : Json → Option α}
    {xs : List α} (h : ∀ x ∈ xs, Survives toJson read x) :
    partsOfSlot? read (some (.arr (xs.map toJson)))
      = if (Json.arr (xs.map toJson)).depth < maxDepth then some xs else none := by
  have hlegible : (Json.arr (xs.map toJson)).Legible := by
    rw [Json.legible_arr, List.forall_mem_map]
    exact fun x hx => (h x hx).legible
  show (if _ && _ then _ else none) = _
  rw [hlegible.2, Bool.true_and, Json.list?_arr fun x hx => (h x hx).read]
  simp only [decide_eq_true_eq]

/-- How deep a document nests. -/
theorem depth_toJson (d : Document) :
    d.toJson.depth = 1 + max (Json.arr (d.headers.map Header.toJson)).depth
      (Json.arr (d.definitions.map Definition.toJson)).depth := by
  show 1 + max _ (max _ 0) = _
  rw [Nat.max_zero]

/-- **A document is read from its compact text** if the text nests within the
limit, and refused if it nests deeper. The doubles of the document are finite,
and their numbers are read as they were written. -/
theorem parse?_toJson (d : Document) (hfinite : ∀ x ∈ d.doubles, x.isFinite = true)
    (hread : ∀ x ∈ d.doubles, (Json.Number.ofDouble x).double? = some x) :
    (d.toJson.depth ≤ maxDepth → parse? d.toJson.compact = some d)
      ∧ (maxDepth < d.toJson.depth → parse? d.toJson.compact = none) := by
  have hdefinitions : ∀ x ∈ d.definitions, Survives Definition.toJson Definition.ofJson? x := by
    intro x hx
    refine x.survives fun y hy => ?_
    have hmem : y ∈ d.doubles := List.mem_flatMap.mpr ⟨x, hx, hy⟩
    exact ⟨hfinite y hmem, hread y hmem⟩
  have hwritten : d.toJson.Written := by
    have hheader : ∀ x ∈ d.headers, x.toJson.Written := fun x _ => x.survives.legible.1
    have hdefinition : ∀ x ∈ d.definitions, x.toJson.Written :=
      fun x hx => (hdefinitions x hx).legible.1
    simpa [toJson] using ⟨hheader, hdefinition⟩
  have hparsed : parse? d.toJson.compact = ofJson? d.toJson := by
    unfold parse?
    rw [Json.parse?_compact hwritten, Option.bind_some]
  rw [hparsed, depth_toJson, toJson, ofJson?_object,
    partsOfSlot?_arr fun x _ => x.survives, partsOfSlot?_arr hdefinitions]
  refine ⟨fun hdepth => ?_, fun hdepth => ?_⟩
  · rw [if_pos (by omega), if_pos (by omega)]
    rfl
  · by_cases hheaders : (Json.arr (d.headers.map Header.toJson)).depth < maxDepth
    · rw [if_pos hheaders, if_neg (by omega)]
      rfl
    · rw [if_neg hheaders]
      rfl

/-- A document with something of every kind, in part with defaults and markers
left out. -/
def varied : Document where
  headers := [.inclusion "a \"b\"\\\t.idl" ⟨1, 1⟩, .naming "*" "é\x01" .unknown]
  definitions := [
    ⟨"tenths", ⟨3, 1⟩, .const (.map (.primitive .string) (.list (.primitive .double)))
      (.map [(.string "a\n", .list [.double ⟨0x3fb999999999999a⟩, .double ⟨0x8000000000000000⟩]),
        (.bool true, .reference ⟨"Color.red", ⟨3, 60⟩⟩)])⟩,
    ⟨"Names", ⟨4, 1⟩, .typedef (.set (.named ⟨"Color", ⟨4, 13⟩⟩))⟩,
    ⟨"Color", ⟨5, 1⟩, .enum [⟨"red", some (-2147483648), ⟨6, 3⟩⟩, ⟨"blue", none, ⟨7, 3⟩⟩]⟩,
    ⟨"Point", ⟨9, 1⟩, .struct .union
      [⟨some (-32768), "x", .primitive .i64, .optional, some (.int (-9223372036854775808)),
          ⟨10, 3⟩⟩,
        ⟨none, "y", .primitive .binary, .unmarked, none, ⟨4294967295, 3⟩⟩]⟩,
    ⟨"Gone", ⟨12, 1⟩, .struct .exception []⟩,
    ⟨"Plotter", ⟨13, 1⟩, .service
      [⟨"plot", [⟨some 1, "at", .named ⟨"Point", ⟨14, 13⟩⟩, .required, none, ⟨14, 10⟩⟩],
          some (.primitive .bool), [⟨some 1, "gone", .named ⟨"Gone", ⟨14, 40⟩⟩, .unmarked,
            some (.map []), ⟨14, 37⟩⟩], false, ⟨14, 3⟩⟩,
        ⟨"clear", [], none, [], true, ⟨15, 3⟩⟩]
      (some ⟨"Base", ⟨13, 25⟩⟩)⟩]

/-- So many lists inside one another. -/
def nestedLists : Nat → ConstExpr
  | 0 => .list []
  | n + 1 => .list [nestedLists n]

/-- A document with a constant of so many lists inside one another. -/
def deep (n : Nat) : Document :=
  ⟨[], [⟨"deep", .unknown, .const (.primitive .i32) (nestedLists n)⟩]⟩

theorem doubles_nestedLists (n : Nat) : (nestedLists n).doubles = [] := by
  induction n with
  | zero => rfl
  | succ n ih => rw [nestedLists, ConstExpr.doubles, ConstExpr.itemDoubles, ih]; rfl

theorem doubles_deep (n : Nat) : (deep n).doubles = [] := by
  show (nestedLists n).doubles ++ [] = []
  rw [doubles_nestedLists]
  rfl

theorem depth_nestedLists (n : Nat) : (nestedLists n).toJson.depth = 2 * (n + 1) := by
  induction n with
  | zero => rfl
  | succ n ih =>
    show 1 + max (1 + max (nestedLists n).toJson.depth 0) 0 = _
    rw [ih]
    omega

theorem depth_deep (n : Nat) : (deep n).toJson.depth = 2 * n + 5 := by
  show 1 + max 1 (max (1 + max (1 + max 0 (max 0 (max 1 (max (nestedLists n).toJson.depth
    (max 1 0))))) 0) 0) = _
  rw [depth_nestedLists]
  omega

/-- The document with something of every kind is read, its doubles included, and
63 lists inside one another are too many. -/
theorem parse?_toJson_varied :
    (varied.doubles = [⟨0x3fb999999999999a⟩, ⟨0x8000000000000000⟩]
        ∧ varied.toJson.depth ≤ maxDepth ∧ parse? varied.toJson.compact = some varied)
      ∧ (maxDepth < (deep 62).toJson.depth ∧ parse? (deep 62).toJson.compact = none) := by
  have hdoubles : varied.doubles = [⟨0x3fb999999999999a⟩, ⟨0x8000000000000000⟩] := by decide
  have hdepth : varied.toJson.depth ≤ maxDepth := by decide
  have hdeep : maxDepth < (deep 62).toJson.depth := by
    rw [depth_deep]
    decide
  have hvaried := parse?_toJson varied (by rw [hdoubles]; decide) (by rw [hdoubles]; decide)
  have hnested := parse?_toJson (deep 62) (by simp [doubles_deep]) (by simp [doubles_deep])
  exact ⟨⟨hdoubles, hdepth, hvaried.1 hdepth⟩, hdeep, hnested.2 hdeep⟩

end Document

end Interlink
