import Interlink.Proofs.Exchange.Rules
import Interlink.Proofs.Json.Record
import Interlink.Proofs.Link.Coerce
import Interlink.Value.Json

/-!
# Values are read as they were written

A value survives JSON if its doubles do and no struct in it has two fields of
one name (`Value.Tidy`). The fields of a struct are the members of an object, and
are put into a table when they are read; a name that is there already would keep
its place and lose its value.
-/

namespace Interlink.Value

open Json (KeepsDouble Legible Survives)

/-- The names of the fields of a struct. -/
def fieldNames : Value → List String
  | .struct _ fields => fields.map Prod.fst
  | _ => []

/-- **A tidy value**: no struct in it has two fields of one name. -/
inductive Tidy : Value → Prop
  | mk {v : Value} (names : v.fieldNames.Nodup) (parts : ∀ u ∈ v.children, Tidy u) : Tidy v

theorem Tidy.names {v : Value} (h : v.Tidy) : v.fieldNames.Nodup := by
  cases h with | mk names _ => exact names

theorem Tidy.parts {v : Value} (h : v.Tidy) : ∀ u ∈ v.children, u.Tidy := by
  cases h with | mk _ parts => exact parts

mutual

/-- The doubles in a value. -/
def doubles : Value → List Double
  | .double d => [d]
  | .list items => itemDoubles items
  | .set items => itemDoubles items
  | .map entries => entryDoubles entries
  | .struct _ fields => fieldDoubles fields
  | _ => []

def itemDoubles : List Value → List Double
  | [] => []
  | item :: items => item.doubles ++ itemDoubles items

def entryDoubles : List (Value × Value) → List Double
  | [] => []
  | (key, value) :: entries => key.doubles ++ value.doubles ++ entryDoubles entries

def fieldDoubles : List (String × Value) → List Double
  | [] => []
  | (_, value) :: fields => value.doubles ++ fieldDoubles fields

end

theorem toJson_ne_null (v : Value) : v.toJson ≠ .null := by
  cases v <;> nofun

theorem ofJson?_enum (typeName n : Json) :
    ofJson? (.tagged "enum" (.object [("type_name", typeName), ("value", n)]))
      = typeName.string?.bind fun typeName => n.int32?.bind fun n =>
        some (.enum typeName n) := rfl

theorem ofJson?_struct (typeName : String) (members : List (Option String × Json)) :
    ofJson? (.tagged "struct" (.object [("type_name", .text typeName),
        ("fields", .obj members)]))
      = (ofFields? [] members).map (.struct typeName) := by
  have hname : typeNameOf? [(some "type_name", .text typeName), (some "fields", .obj members)]
      = some typeName := rfl
  have hfields : ofStructMembers?
      [(some "type_name", .text typeName), (some "fields", .obj members)]
      = ofFields? [] members := rfl
  show ofJson? (.obj [(some "struct",
    .obj [(some "type_name", .text typeName), (some "fields", .obj members)])]) = _
  rw [ofJson?, hname, hfields]
  cases ofFields? [] members <;> rfl

mutual

/-- **A tidy value survives JSON** if its doubles do. -/
theorem survives (v : Value) (htidy : v.Tidy) (h : ∀ d ∈ v.doubles, KeepsDouble d) :
    Survives toJson ofJson? v := by
  have hparts := htidy.parts
  cases v with
  | bool b => exact ⟨by simp [toJson], rfl⟩
  | byte n =>
    refine ⟨by simp [toJson], ?_⟩
    show ((Json.int n.toInt).int?.bind Width.int8?).map byte = _
    rw [Json.int8?_int]
    rfl
  | i16 n =>
    refine ⟨by simp [toJson], ?_⟩
    show (Json.int n.toInt).int16?.map i16 = _
    rw [Json.int16?_int]
    rfl
  | i32 n =>
    refine ⟨by simp [toJson], ?_⟩
    show (Json.int n.toInt).int32?.map i32 = _
    rw [Json.int32?_int]
    rfl
  | i64 n =>
    refine ⟨by simp [toJson], ?_⟩
    show (Json.int n.toInt).int64?.map i64 = _
    rw [Json.int64?_int]
    rfl
  | double d =>
    have hd := h d List.mem_cons_self
    refine ⟨by simp [toJson, hd.legible], ?_⟩
    show (Json.double d).double?.map double = _
    rw [hd.double?]
    rfl
  | string s => exact ⟨by simp [toJson], rfl⟩
  | binary bytes =>
    refine ⟨by simp [toJson], ?_⟩
    show ((Json.arr (bytes.map fun b => .int b.toNat)).list? Json.uint8?).map binary = _
    rw [Json.list?_arr fun b _ => Json.uint8?_int b]
    rfl
  | list items =>
    obtain ⟨hlegible, hread⟩ := survives_items items hparts h
    refine ⟨by simpa [toJson] using hlegible, ?_⟩
    show (ofItems? (itemsToJson items)).map list = _
    rw [hread]
    rfl
  | set items =>
    obtain ⟨hlegible, hread⟩ := survives_items items hparts h
    refine ⟨by simpa [toJson] using hlegible, ?_⟩
    show (ofItems? (itemsToJson items)).map set = _
    rw [hread]
    rfl
  | map entries =>
    obtain ⟨hlegible, hread⟩ := survives_entries entries
      (fun x hx => ⟨hparts x.1 (key_mem_children hx), hparts x.2 (value_mem_children hx)⟩) h
    refine ⟨by simpa [toJson] using hlegible, ?_⟩
    show (ofEntries? (entriesToJson entries)).map map = _
    rw [hread]
    rfl
  | enum typeName n =>
    refine ⟨by simp [toJson], ?_⟩
    rw [toJson, ofJson?_enum, Json.int32?_int]
    rfl
  | struct typeName fields =>
    obtain ⟨hlegible, hread⟩ := survives_fields fields
      (fun x hx => hparts x.2 (List.mem_map_of_mem hx)) h
    refine ⟨?_, ?_⟩
    · have hfields : (Json.obj (fieldsToJson fields)).Legible := Json.legible_obj.mpr hlegible
      simp [toJson, hfields, -Json.legible_obj]
    · rw [toJson, ofJson?_struct, hread [] htidy.names]
      rfl

theorem survives_items (items : List Value) (htidy : ∀ v ∈ items, v.Tidy)
    (h : ∀ d ∈ itemDoubles items, KeepsDouble d) :
    (∀ j ∈ itemsToJson items, j.Legible)
      ∧ ofItems? (itemsToJson items) = some items := by
  cases items with
  | nil => exact ⟨fun _ hj => absurd hj List.not_mem_nil, rfl⟩
  | cons item items =>
    obtain ⟨hfirst, hrest⟩ := List.forall_mem_cons.mp htidy
    obtain ⟨hitem, hitems⟩ := List.forall_mem_append.mp h
    have hitem := survives item hfirst hitem
    obtain ⟨hlegible, hread⟩ := survives_items items hrest hitems
    refine ⟨List.forall_mem_cons.mpr ⟨hitem.legible, hlegible⟩, ?_⟩
    rw [itemsToJson, ofItems?, hitem.read, hread]

theorem survives_entries (entries : List (Value × Value))
    (htidy : ∀ x ∈ entries, x.1.Tidy ∧ x.2.Tidy)
    (h : ∀ d ∈ entryDoubles entries, KeepsDouble d) :
    (∀ j ∈ entriesToJson entries, j.Legible)
      ∧ ofEntries? (entriesToJson entries) = some entries := by
  cases entries with
  | nil => exact ⟨fun _ hj => absurd hj List.not_mem_nil, rfl⟩
  | cons entry entries =>
    obtain ⟨key, value⟩ := entry
    obtain ⟨hfirst, hrest⟩ := List.forall_mem_cons.mp htidy
    obtain ⟨hentry, hentries⟩ := List.forall_mem_append.mp h
    obtain ⟨hkey, hvalue⟩ := List.forall_mem_append.mp hentry
    have hkey := survives key hfirst.1 hkey
    have hvalue := survives value hfirst.2 hvalue
    obtain ⟨hlegible, hread⟩ := survives_entries entries hrest hentries
    refine ⟨List.forall_mem_cons.mpr ⟨?_, hlegible⟩, ?_⟩
    · simp [hkey.legible, hvalue.legible]
    · rw [entriesToJson, ofEntries?, hkey.read, hvalue.read, hread]

/-- The fields of a struct survive JSON, behind fields of other names. -/
theorem survives_fields (fields : List (String × Value)) (htidy : ∀ x ∈ fields, x.2.Tidy)
    (h : ∀ d ∈ fieldDoubles fields, KeepsDouble d) :
    (∀ member ∈ fieldsToJson fields, member.1.isSome = true ∧ member.2.Legible)
      ∧ ∀ done : List (String × Value), (done.map Prod.fst ++ fields.map Prod.fst).Nodup →
        ofFields? done (fieldsToJson fields) = some (done ++ fields) := by
  cases fields with
  | nil =>
    refine ⟨fun _ hmember => absurd hmember List.not_mem_nil, fun done _ => ?_⟩
    rw [fieldsToJson, ofFields?, List.append_nil]
  | cons field fields =>
    obtain ⟨name, value⟩ := field
    obtain ⟨hfirst, hrest⟩ := List.forall_mem_cons.mp htidy
    obtain ⟨hvalue, hfields⟩ := List.forall_mem_append.mp h
    have hvalue := survives value hfirst hvalue
    obtain ⟨hlegible, hread⟩ := survives_fields fields hrest hfields
    refine ⟨List.forall_mem_cons.mpr ⟨⟨rfl, hvalue.legible⟩, hlegible⟩, ?_⟩
    intro done hnodup
    have hnew : name ∉ done.map Prod.fst := fun hmem =>
      (List.nodup_append.mp hnodup).2.2 name hmem name List.mem_cons_self rfl
    have hnext : ((done ++ [(name, value)]).map Prod.fst ++ fields.map Prod.fst).Nodup := by
      rw [List.map_append, List.append_assoc]
      exact hnodup
    rw [fieldsToJson, ofFields?, hvalue.read]
    dsimp only
    rw [put_of_notMem hnew, hread _ hnext, List.append_assoc]
    rfl

end

end Interlink.Value
