import Interlink.Proofs.Document.Json
import Interlink.Proofs.Json.Pretty
import Interlink.Proofs.Scope.Erase
import Interlink.Proofs.Value.Json
import Interlink.Scope.Json

/-!
# Scopes are read as they were written

A scope survives JSON if what linking has put into it can be told apart in a
text: handles of thirty-two bits, places of methods of sixty-four, values that
are tidy, doubles that are kept, and symbols of different names
(`Scope.Storable`). Nothing else is asked of it; a scope need not be linked.

It may be read from its compact text or from its spread one
(`Scope.Storable.parse?_text`).
-/

namespace Interlink

open Json (KeepsDouble Legible Survives)

/-! ## References -/

theorem EntityId.toJson_ne_null (id : EntityId) : EntityId.toJson id ≠ .null := nofun

theorem EntityId.survives {id : EntityId} (h : id < 2 ^ 32) :
    Survives EntityId.toJson EntityId.ofJson? id := by
  obtain ⟨n, rfl⟩ : ∃ n : UInt32, n.toNat = id := ⟨.ofNat id, UInt32.toNat_ofNat_of_lt' h⟩
  refine ⟨Json.legible_uint32 n, ?_⟩
  show (Json.int n.toNat).uint32?.map UInt32.toNat = _
  rw [Json.uint32?_int]
  rfl

namespace ConstTarget

/-- The handle of the constant, or of the enum. -/
def handle : ConstTarget → EntityId
  | .const id => id
  | .item enumId _ => enumId

theorem toJson_ne_null (t : ConstTarget) : t.toJson ≠ .null := by
  cases t <;> nofun

theorem ofJson?_const (id : Json) :
    ofJson? (.tagged "Const" id) = (EntityId.ofJson? id).map .const := rfl

theorem ofJson?_item (enumId n : Json) :
    ofJson? (.tagged "EnumItem" (.object [("enum_id", enumId), ("value", n)]))
      = (EntityId.ofJson? enumId).bind fun enumId => n.int32?.bind fun n =>
        some (.item enumId n) := rfl

theorem survives (t : ConstTarget) (h : t.handle < 2 ^ 32) : Survives toJson ofJson? t := by
  cases t with
  | const id =>
    have hid : Survives EntityId.toJson EntityId.ofJson? id := EntityId.survives h
    refine ⟨by simp [toJson, hid.legible], ?_⟩
    rw [toJson, ofJson?_const, hid.read]
    rfl
  | item enumId n =>
    have hid : Survives EntityId.toJson EntityId.ofJson? enumId := EntityId.survives h
    refine ⟨by simp [toJson, hid.legible], ?_⟩
    rw [toJson, ofJson?_item, hid.read, Json.int32?_int]
    rfl

end ConstTarget

namespace Reference

variable {τ : Type} {target : τ → Json} {target? : Json → Option τ}

theorem ofJson?_object (name span target : Json) :
    ofJson? target? (.object [("name", name), ("span", span), ("target", target)])
      = name.string?.bind fun name => (Span.ofJson? span).bind fun span =>
        (Json.orNull (some target) target?).bind fun target =>
        some ⟨name, span, target⟩ := rfl

theorem toJson_ne_null (r : Reference τ) : r.toJson target ≠ .null := nofun

theorem survives (r : Reference τ) (hnull : ∀ t, target t ≠ .null)
    (h : ∀ t ∈ r.target, Survives target target? t) :
    Survives (toJson target) (ofJson? target?) r where
  legible := by
    have htarget : (Json.option target r.target).Legible :=
      Json.legible_option fun t ht => (h t ht).legible
    simp [toJson, htarget, r.span.survives.legible]
  read := by
    rw [toJson, ofJson?_object, r.span.survives.read,
      Json.orNull_option hnull fun t ht => (h t ht).read]
    rfl

/-- A reference to an entity is storable if its handle has thirty-two bits. -/
def Storable (r : Reference EntityId) : Prop := ∀ id ∈ r.target, id < 2 ^ 32

theorem Storable.survives {r : Reference EntityId} (h : r.Storable) :
    Survives (toJson EntityId.toJson) (ofJson? EntityId.ofJson?) r :=
  r.survives EntityId.toJson_ne_null fun id hid => EntityId.survives (h id hid)

end Reference

/-! ## Types and expressions -/

namespace Ty

def Storable (ty : Ty) : Prop := ∀ r ∈ ty.references, r.Storable

theorem toJson_ne_null (ty : Ty) : ty.toJson ≠ .null := by
  cases ty <;> nofun

/-- **A type survives JSON.** -/
theorem survives (ty : Ty) (h : ty.Storable) : Survives toJson ofJson? ty := by
  induction ty with
  | primitive p =>
    refine ⟨by simp [toJson], ?_⟩
    show (Primitive.ofKeyword? p.keyword).map primitive = _
    rw [p.ofKeyword?_keyword]
    rfl
  | list element ih =>
    have helement := ih h
    refine ⟨by simp [toJson, helement.legible], ?_⟩
    show (ofJson? element.toJson).map list = _
    rw [helement.read]
    rfl
  | set element ih =>
    have helement := ih h
    refine ⟨by simp [toJson, helement.legible], ?_⟩
    show (ofJson? element.toJson).map set = _
    rw [helement.read]
    rfl
  | map key value ihk ihv =>
    obtain ⟨hkey, hvalue⟩ := List.forall_mem_append.mp h
    have hkey := ihk hkey
    have hvalue := ihv hvalue
    refine ⟨by simp [toJson, hkey.legible, hvalue.legible], ?_⟩
    show ofJson? (.obj [(some "map", .arr [key.toJson, value.toJson])]) = _
    rw [ofJson?, hkey.read, hvalue.read]
  | named r =>
    have hr := (h r List.mem_cons_self).survives
    refine ⟨by simp [toJson, hr.legible], ?_⟩
    show (Reference.ofJson? EntityId.ofJson? (r.toJson EntityId.toJson)).map named = _
    rw [hr.read]
    rfl

end Ty

namespace Init

mutual

/-- The doubles in an expression. -/
def doubles : Init → List Double
  | .double d => [d]
  | .list items => itemDoubles items
  | .map entries => entryDoubles entries
  | _ => []

def itemDoubles : List Init → List Double
  | [] => []
  | item :: items => item.doubles ++ itemDoubles items

def entryDoubles : List (Init × Init) → List Double
  | [] => []
  | (key, value) :: entries => key.doubles ++ value.doubles ++ entryDoubles entries

end

theorem toJson_ne_null (init : Init) : init.toJson ≠ .null := by
  cases init <;> nofun

mutual

/-- **An expression survives JSON** if its references and doubles do. -/
theorem survives (init : Init)
    (hrefs : ∀ r ∈ init.references, ∀ t ∈ r.target, t.handle < 2 ^ 32)
    (h : ∀ d ∈ init.doubles, KeepsDouble d) : Survives toJson ofJson? init := by
  cases init with
  | bool b => exact ⟨by simp [toJson], rfl⟩
  | int n =>
    refine ⟨by simp [toJson], ?_⟩
    show (Json.int n.toInt).int64?.map int = _
    rw [Json.int64?_int]
    rfl
  | double d =>
    have hd := h d List.mem_cons_self
    refine ⟨by simp [toJson, hd.legible], ?_⟩
    show (Json.double d).double?.map double = _
    rw [hd.double?]
    rfl
  | string s => exact ⟨by simp [toJson], rfl⟩
  | list items =>
    obtain ⟨hlegible, hread⟩ := survives_items items hrefs h
    refine ⟨by simpa [toJson] using hlegible, ?_⟩
    show (ofItems? (itemsToJson items)).map list = _
    rw [hread]
    rfl
  | map entries =>
    obtain ⟨hlegible, hread⟩ := survives_entries entries hrefs h
    refine ⟨by simpa [toJson] using hlegible, ?_⟩
    show (ofEntries? (entriesToJson entries)).map map = _
    rw [hread]
    rfl
  | reference r =>
    have hr := r.survives ConstTarget.toJson_ne_null fun t ht =>
      t.survives (hrefs r List.mem_cons_self t ht)
    refine ⟨by simp [toJson, hr.legible], ?_⟩
    show (Reference.ofJson? ConstTarget.ofJson? (r.toJson ConstTarget.toJson)).map reference = _
    rw [hr.read]
    rfl

theorem survives_items (items : List Init)
    (hrefs : ∀ r ∈ itemReferences items, ∀ t ∈ r.target, t.handle < 2 ^ 32)
    (h : ∀ d ∈ itemDoubles items, KeepsDouble d) :
    (∀ j ∈ itemsToJson items, j.Legible)
      ∧ ofItems? (itemsToJson items) = some items := by
  cases items with
  | nil => exact ⟨fun _ hj => absurd hj List.not_mem_nil, rfl⟩
  | cons item items =>
    obtain ⟨hfirst, hrest⟩ := List.forall_mem_append.mp hrefs
    obtain ⟨hitem, hitems⟩ := List.forall_mem_append.mp h
    have hitem := survives item hfirst hitem
    obtain ⟨hlegible, hread⟩ := survives_items items hrest hitems
    refine ⟨List.forall_mem_cons.mpr ⟨hitem.legible, hlegible⟩, ?_⟩
    rw [itemsToJson, ofItems?, hitem.read, hread]

theorem survives_entries (entries : List (Init × Init))
    (hrefs : ∀ r ∈ entryReferences entries, ∀ t ∈ r.target, t.handle < 2 ^ 32)
    (h : ∀ d ∈ entryDoubles entries, KeepsDouble d) :
    (∀ j ∈ entriesToJson entries, j.Legible)
      ∧ ofEntries? (entriesToJson entries) = some entries := by
  cases entries with
  | nil => exact ⟨fun _ hj => absurd hj List.not_mem_nil, rfl⟩
  | cons entry entries =>
    obtain ⟨key, value⟩ := entry
    obtain ⟨hfirst, hrest⟩ := List.forall_mem_append.mp hrefs
    obtain ⟨hkeyRefs, hvalueRefs⟩ := List.forall_mem_append.mp hfirst
    obtain ⟨hentry, hentries⟩ := List.forall_mem_append.mp h
    obtain ⟨hkey, hvalue⟩ := List.forall_mem_append.mp hentry
    have hkey := survives key hkeyRefs hkey
    have hvalue := survives value hvalueRefs hvalue
    obtain ⟨hlegible, hread⟩ := survives_entries entries hrest hentries
    refine ⟨List.forall_mem_cons.mpr ⟨?_, hlegible⟩, ?_⟩
    · simp [hkey.legible, hvalue.legible]
    · rw [entriesToJson, ofEntries?, hkey.read, hvalue.read, hread]

end

/-- The references of an expression are storable, and its doubles are kept. -/
structure Storable (init : Init) : Prop where
  /-- Handles have thirty-two bits. -/
  references : ∀ r ∈ init.references, ∀ t ∈ r.target, t.handle < 2 ^ 32
  /-- Doubles are kept. -/
  doubles : ∀ d ∈ init.doubles, KeepsDouble d

end Init

/-- A value is tidy, and its doubles are kept. -/
structure Value.Storable (v : Value) : Prop where
  /-- No struct has two fields of one name. -/
  tidy : v.Tidy
  /-- Doubles are kept. -/
  doubles : ∀ d ∈ v.doubles, KeepsDouble d

/-! ## Parts of entities -/

namespace Entity

namespace Item

theorem ofJson?_object (name value span : Json) :
    ofJson? (.object [("name", name), ("value", value), ("span", span)])
      = name.string?.bind fun name => value.int32?.bind fun value =>
        (Span.ofJson? span).bind fun span => some ⟨name, value, span⟩ := rfl

theorem survives (i : Item) : Survives toJson ofJson? i where
  legible := by simp [toJson, i.span.survives.legible]
  read := by
    rw [toJson, ofJson?_object, Json.int32?_int, i.span.survives.read]
    rfl

end Item

namespace Field

/-- A field is storable if its type, its default and its value are. -/
structure Storable (f : Field) : Prop where
  /-- The type is. -/
  type : f.type.Storable
  /-- The default is. -/
  default : ∀ init ∈ f.default, init.Storable
  /-- The value is. -/
  value : ∀ v ∈ f.defaultValue, v.Storable

/-- The doubles in a field, in its default and in its value. -/
def doubles (f : Field) : List Double :=
  (f.default.map Init.doubles).getD [] ++ (f.defaultValue.map Value.doubles).getD []

/-- A field is storable if what it lists is. -/
theorem storable_of_parts {f : Field} (htypes : ∀ r ∈ f.type.references, r.Storable)
    (hconstants : ∀ r ∈ f.defaultReferences, ∀ t ∈ r.target, t.handle < 2 ^ 32)
    (hvalue : ∀ v ∈ f.defaultValue, v.Tidy) (h : ∀ d ∈ f.doubles, KeepsDouble d) :
    f.Storable := by
  obtain ⟨hdefault, hstored⟩ := List.forall_mem_append.mp h
  unfold defaultReferences at hconstants
  refine ⟨htypes, fun init hinit => ?_, fun v hv => ?_⟩
  · rw [Option.mem_def.mp hinit] at hconstants hdefault
    exact ⟨hconstants, hdefault⟩
  · rw [Option.mem_def.mp hv] at hstored
    exact ⟨hvalue v hv, hstored⟩

theorem ofJson?_object (id name type requiredness default defaultValue span : Json) :
    ofJson? (.object [("id", id), ("name", name), ("ty", type),
        ("requiredness", requiredness), ("default", default),
        ("default_value", defaultValue), ("span", span)])
      = id.int16?.bind fun id => name.string?.bind fun name =>
        (Ty.ofJson? type).bind fun type => requiredness.bare?.bind fun requiredness =>
        (Requiredness.ofKeyword? requiredness).bind fun requiredness =>
        (Json.orNull (some default) Init.ofJson?).bind fun default =>
        (Json.orNull (some defaultValue) Value.ofJson?).bind fun defaultValue =>
        (Span.ofJson? span).bind fun span =>
        some ⟨id, name, type, requiredness, default, defaultValue, span⟩ := rfl

/-- **A storable field survives JSON.** -/
theorem Storable.survives {f : Field} (h : f.Storable) : Survives toJson ofJson? f := by
  have htype := f.type.survives h.type
  have hdefault := fun init hinit =>
    Init.survives init (h.default init hinit).references (h.default init hinit).doubles
  have hvalue := fun v hv => Value.survives v (h.value v hv).tidy (h.value v hv).doubles
  refine ⟨?_, ?_⟩
  · have hlegible : (Json.option Init.toJson f.default).Legible
        ∧ (Json.option Value.toJson f.defaultValue).Legible :=
      ⟨Json.legible_option fun init hinit => (hdefault init hinit).legible,
        Json.legible_option fun v hv => (hvalue v hv).legible⟩
    simp [toJson, hlegible, htype.legible, f.span.survives.legible]
  · have hbare : (Json.text f.requiredness.keyword).bare? = some f.requiredness.keyword := rfl
    rw [toJson, ofJson?_object, Json.int16?_int, htype.read, hbare,
      Json.orNull_option Init.toJson_ne_null fun init hinit => (hdefault init hinit).read,
      Json.orNull_option Value.toJson_ne_null fun v hv => (hvalue v hv).read,
      f.span.survives.read]
    simp only [Option.bind_some, f.requiredness.ofKeyword?_keyword]
    rfl

end Field

namespace Function

/-- A function is storable if its fields and its result are. -/
structure Storable (f : Function) : Prop where
  /-- The parameters are. -/
  parameters : ∀ g ∈ f.parameters, g.Storable
  /-- The result is. -/
  returns : ∀ ty ∈ f.returns, ty.Storable
  /-- The declared exceptions are. -/
  exceptions : ∀ g ∈ f.exceptions, g.Storable

theorem ofJson?_object (name parameters returns exceptions oneway span : Json) :
    ofJson? (.object [("name", name), ("parameters", parameters),
        ("return_type", returns), ("exceptions", exceptions), ("oneway", oneway),
        ("span", span)])
      = name.string?.bind fun name => (parameters.list? Field.ofJson?).bind fun parameters =>
        (Json.orNull (some returns) Ty.ofJson?).bind fun returns =>
        (exceptions.list? Field.ofJson?).bind fun exceptions =>
        oneway.bool?.bind fun oneway => (Span.ofJson? span).bind fun span =>
        some ⟨name, parameters, returns, exceptions, oneway, span⟩ := rfl

def doubles (f : Function) : List Double :=
  f.parameters.flatMap Field.doubles ++ f.exceptions.flatMap Field.doubles

/-- The values that are stored in a function. -/
def values (f : Function) : List Value :=
  (f.parameters ++ f.exceptions).flatMap fun g => g.defaultValue.toList

/-- A function is storable if what it lists is. -/
theorem storable_of_parts {f : Function} (htypes : ∀ r ∈ f.typeReferences, r.Storable)
    (hconstants : ∀ r ∈ f.constReferences, ∀ t ∈ r.target, t.handle < 2 ^ 32)
    (hvalues : ∀ v ∈ f.values, v.Tidy) (h : ∀ d ∈ f.doubles, KeepsDouble d) :
    f.Storable := by
  simp only [typeReferences, constReferences, doubles, List.forall_mem_append,
    List.forall_mem_flatMap] at htypes hconstants h
  have hvalue : ∀ g ∈ f.parameters ++ f.exceptions, ∀ v ∈ g.defaultValue, v.Tidy :=
    fun g hg v hv => List.forall_mem_flatMap.mp hvalues g hg v (Option.mem_toList.mpr hv)
  obtain ⟨⟨hparameters, hreturns⟩, hexceptions⟩ := htypes
  refine ⟨fun g hg => ?_, fun ty hty => ?_, fun g hg => ?_⟩
  · exact Field.storable_of_parts (hparameters g hg) (hconstants.1 g hg)
      (hvalue g (List.mem_append_left _ hg)) (h.1 g hg)
  · rw [Option.mem_def.mp hty] at hreturns
    exact hreturns
  · exact Field.storable_of_parts (hexceptions g hg) (hconstants.2 g hg)
      (hvalue g (List.mem_append_right _ hg)) (h.2 g hg)

/-- **A storable function survives JSON.** -/
theorem Storable.survives {f : Function} (h : f.Storable) : Survives toJson ofJson? f := by
  have hparameter := fun g hg => (h.parameters g hg).survives
  have hexception := fun g hg => (h.exceptions g hg).survives
  have hreturns := fun ty hty => Ty.survives ty (h.returns ty hty)
  refine ⟨?_, ?_⟩
  · have hoption : (Json.option Ty.toJson f.returns).Legible :=
      Json.legible_option fun ty hty => (hreturns ty hty).legible
    have hlegible : (∀ g ∈ f.parameters, g.toJson.Legible)
        ∧ ∀ g ∈ f.exceptions, g.toJson.Legible :=
      ⟨fun g hg => (hparameter g hg).legible, fun g hg => (hexception g hg).legible⟩
    simpa [toJson, hoption, f.span.survives.legible] using hlegible
  · rw [toJson, ofJson?_object, Json.list?_arr fun g hg => (hparameter g hg).read,
      Json.list?_arr fun g hg => (hexception g hg).read,
      Json.orNull_option Ty.toJson_ne_null fun ty hty => (hreturns ty hty).read,
      f.span.survives.read]
    rfl

end Function

namespace Method

/-- A method is storable if its handle has thirty-two bits, and its place
sixty-four. -/
structure Storable (m : Method) : Prop where
  /-- The handle has thirty-two bits. -/
  service : m.service < 2 ^ 32
  /-- The place has sixty-four. -/
  index : m.index < 2 ^ 64

theorem ofJson?_object (service index : Json) :
    ofJson? (.object [("service", service), ("index", index)])
      = (EntityId.ofJson? service).bind fun service => index.uint64?.bind fun index =>
        some ⟨service, index.toNat⟩ := rfl

theorem Storable.survives {m : Method} (h : m.Storable) : Survives toJson ofJson? m := by
  have hservice := EntityId.survives h.service
  have hindex : (Json.int m.index).uint64?.map UInt64.toNat = some m.index := by
    obtain ⟨n, hn⟩ : ∃ n : UInt64, n.toNat = m.index :=
      ⟨.ofNat m.index, UInt64.toNat_ofNat_of_lt' h.index⟩
    rw [← hn, Json.uint64?_int]
    rfl
  refine ⟨?_, ?_⟩
  · have hlegible : (Json.int m.index).Legible := Json.legible_int (by have := h.index; omega)
    simp [toJson, hservice.legible, hlegible]
  · rw [toJson, ofJson?_object, hservice.read, Option.bind_some]
    obtain ⟨n, hn, hnat⟩ := Option.map_eq_some_iff.mp hindex
    rw [hn, Option.bind_some, hnat]

end Method

/-! ## Bodies -/

namespace Body

/-- **A storable body**: all its parts are storable. -/
def Storable : Body → Prop
  | .const type init value =>
    type.Storable ∧ init.Storable ∧ ∀ v ∈ value, v.Storable
  | .typedef target => target.Storable
  | .enum _ => True
  | .struct _ fields => ∀ f ∈ fields, f.Storable
  | .service functions parent methods =>
    (∀ f ∈ functions, f.Storable) ∧ (∀ r ∈ parent, r.Storable)
      ∧ ∀ m ∈ methods, m.Storable

/-- The values that are stored in a body. -/
def values : Body → List Value
  | .const _ _ value => value.toList
  | .struct _ fields => fields.flatMap fun f => f.defaultValue.toList
  | .service functions _ _ => functions.flatMap Function.values
  | _ => []

/-- The methods that are stored in a body. -/
def methods : Body → List Method
  | .service _ _ methods => methods
  | _ => []

/-- The doubles in a body: in expressions, and in values. -/
def doubles : Body → List Double
  | .const _ init value => init.doubles ++ (value.map Value.doubles).getD []
  | .struct _ fields => fields.flatMap Field.doubles
  | .service functions _ _ => functions.flatMap Function.doubles
  | _ => []

/-- **A body is storable if what it lists is**: its references, its values, its
methods and its doubles. -/
theorem storable_of_parts {b : Body} (htypes : ∀ r ∈ b.typeReferences, r.Storable)
    (hconstants : ∀ r ∈ b.constReferences, ∀ t ∈ r.target, t.handle < 2 ^ 32)
    (hparent : ∀ r ∈ b.parent?, r.Storable) (hvalues : ∀ v ∈ b.values, v.Tidy)
    (hmethods : ∀ m ∈ b.methods, m.Storable) (h : ∀ d ∈ b.doubles, KeepsDouble d) :
    b.Storable := by
  cases b with
  | const type init value =>
    obtain ⟨hinit, hvalue⟩ := List.forall_mem_append.mp h
    refine ⟨htypes, ⟨hconstants, hinit⟩, fun v hv => ?_⟩
    refine ⟨hvalues v (Option.mem_toList.mpr hv), ?_⟩
    rw [Option.mem_def.mp hv] at hvalue
    exact hvalue
  | typedef target => exact htypes
  | enum items => trivial
  | struct kind fields =>
    rw [typeReferences, List.forall_mem_flatMap] at htypes
    rw [constReferences, List.forall_mem_flatMap] at hconstants
    rw [values, List.forall_mem_flatMap] at hvalues
    rw [doubles, List.forall_mem_flatMap] at h
    exact fun f hf => Field.storable_of_parts (htypes f hf) (hconstants f hf)
      (fun v hv => hvalues f hf v (Option.mem_toList.mpr hv)) (h f hf)
  | service functions parent methods =>
    rw [typeReferences, List.forall_mem_flatMap] at htypes
    rw [constReferences, List.forall_mem_flatMap] at hconstants
    rw [values, List.forall_mem_flatMap] at hvalues
    rw [doubles, List.forall_mem_flatMap] at h
    exact ⟨fun f hf => Function.storable_of_parts (htypes f hf) (hconstants f hf)
      (hvalues f hf) (h f hf), hparent, hmethods⟩

theorem ofJson?_const (type init value : Json) :
    ofJson? (.tagged "Const" (.object [("ty", type), ("expr", init), ("value", value)]))
      = (Ty.ofJson? type).bind fun type => (Init.ofJson? init).bind fun init =>
        (Json.orNull (some value) Value.ofJson?).bind fun value =>
        some (.const type init value) := rfl

theorem ofJson?_typedef (target : Json) :
    ofJson? (.tagged "TypeAlias" (.object [("target", target)]))
      = (Ty.ofJson? target).bind fun target => some (.typedef target) := rfl

theorem ofJson?_enum (items : Json) :
    ofJson? (.tagged "Enum" (.object [("items", items)]))
      = (items.list? Item.ofJson?).bind fun items => some (.enum items) := rfl

theorem ofJson?_struct (kind : StructKind) (fields : Json) :
    ofJson? (.tagged (structTag kind) (.object [("fields", fields)]))
      = (fields.list? Field.ofJson?).bind fun fields => some (.struct kind fields) := by
  cases kind <;> rfl

theorem ofJson?_service (functions parent methods : Json) :
    ofJson? (.tagged "Service" (.object [("functions", functions), ("parent", parent),
        ("methods", methods)]))
      = (functions.list? Function.ofJson?).bind fun functions =>
        (Json.orNull (some parent) (Reference.ofJson? EntityId.ofJson?)).bind fun parent =>
        (methods.list? Method.ofJson?).bind fun methods =>
        some (.service functions parent methods) := rfl

/-- **A storable body survives JSON.** -/
theorem Storable.survives {b : Body} (h : b.Storable) : Survives toJson ofJson? b := by
  cases b with
  | const type init value =>
    obtain ⟨htype, hinit, hvalue⟩ := h
    have htype := type.survives htype
    have hinit := init.survives hinit.references hinit.doubles
    have hvalue := fun v hv => Value.survives v (hvalue v hv).tidy (hvalue v hv).doubles
    refine ⟨?_, ?_⟩
    · have hlegible : (Json.option Value.toJson value).Legible :=
        Json.legible_option fun v hv => (hvalue v hv).legible
      simp [toJson, htype.legible, hinit.legible, hlegible]
    · show ofJson? (.tagged "Const" (.object [("ty", type.toJson), ("expr", init.toJson),
        ("value", .option Value.toJson value)])) = _
      rw [ofJson?_const, htype.read, hinit.read,
        Json.orNull_option Value.toJson_ne_null fun v hv => (hvalue v hv).read]
      rfl
  | typedef target =>
    have htarget := target.survives h
    refine ⟨by simp [toJson, htarget.legible], ?_⟩
    show ofJson? (.tagged "TypeAlias" (.object [("target", target.toJson)])) = _
    rw [ofJson?_typedef, htarget.read]
    rfl
  | enum items =>
    refine ⟨?_, ?_⟩
    · have hitems : ∀ i ∈ items, i.toJson.Legible := fun i _ => i.survives.legible
      simpa [toJson] using hitems
    · show ofJson? (.tagged "Enum" (.object [("items", .arr (items.map Item.toJson))])) = _
      rw [ofJson?_enum, Json.list?_arr fun i _ => i.survives.read]
      rfl
  | struct kind fields =>
    have hfields := fun f hf => (h f hf).survives
    refine ⟨?_, ?_⟩
    · have hlegible : ∀ f ∈ fields, f.toJson.Legible := fun f hf => (hfields f hf).legible
      simpa [toJson] using hlegible
    · show ofJson? (.tagged (structTag kind)
        (.object [("fields", .arr (fields.map Field.toJson))])) = _
      rw [ofJson?_struct, Json.list?_arr fun f hf => (hfields f hf).read]
      rfl
  | service functions parent methods =>
    obtain ⟨hfunctions, hparent, hmethods⟩ := h
    have hfunctions := fun f hf => (hfunctions f hf).survives
    have hparent := fun r hr => (hparent r hr).survives
    have hmethods := fun m hm => (hmethods m hm).survives
    refine ⟨?_, ?_⟩
    · have hoption : (Json.option (Reference.toJson EntityId.toJson) parent).Legible :=
        Json.legible_option fun r hr => (hparent r hr).legible
      have hlegible : (∀ f ∈ functions, f.toJson.Legible) ∧ ∀ m ∈ methods, m.toJson.Legible :=
        ⟨fun f hf => (hfunctions f hf).legible, fun m hm => (hmethods m hm).legible⟩
      simpa [toJson, hoption] using hlegible
    · show ofJson? (.tagged "Service" (.object [
        ("functions", .arr (functions.map Function.toJson)),
        ("parent", .option (Reference.toJson EntityId.toJson) parent),
        ("methods", .arr (methods.map Method.toJson))])) = _
      rw [ofJson?_service, Json.list?_arr fun f hf => (hfunctions f hf).read,
        Json.orNull_option (fun r => r.toJson_ne_null) fun r hr => (hparent r hr).read,
        Json.list?_arr fun m hm => (hmethods m hm).read]
      rfl

end Body

/-! ## Entities -/

theorem ofJson?_object (name span tag state kind : Json) :
    ofJson? (.object [("name", name), ("span", span), ("tag", tag), ("state", state),
        ("kind", kind)])
      = (Body.ofJson? kind).bind fun body => tag.bare?.bind fun tag =>
        if tag = body.kind.tag then
          name.string?.bind fun name => (Span.ofJson? span).bind fun span =>
          (resolvedOfJson? state).bind fun resolved => some ⟨name, span, resolved, body⟩
        else none := rfl

/-- **An entity survives JSON** if its body is storable. -/
theorem survives (e : Entity) (h : e.body.Storable) : Survives toJson ofJson? e := by
  have hstate : resolvedOfJson? (.text (stateWord e.resolved)) = some e.resolved := by
    cases e.resolved <;> rfl
  refine ⟨by simp [toJson, h.survives.legible, e.span.survives.legible], ?_⟩
  rw [toJson, ofJson?_object, h.survives.read, Option.bind_some]
  show (if e.body.kind.tag = e.body.kind.tag then _ else none) = _
  rw [if_pos rfl, e.span.survives.read, hstate]
  rfl

end Entity

/-! ## Scopes -/

namespace Scope

/-- **A storable scope**: its entities are storable, and its symbols have
different names and handles of thirty-two bits. -/
structure Storable (s : Scope) : Prop where
  /-- Bodies are storable. -/
  bodies : ∀ e ∈ s.entities, e.body.Storable
  /-- Symbols have different names. -/
  distinct : (s.symbols.map Prod.fst).Nodup
  /-- Symbols have handles of thirty-two bits. -/
  handles : ∀ x ∈ s.symbols, x.2 < 2 ^ 32

/-- **The doubles in a scope.** -/
def doubles (s : Scope) : List Double := s.entities.flatMap fun e => e.body.doubles

/-- A symbol as the member of an object. -/
def symbolToJson (x : String × EntityId) : Option String × Json :=
  (some x.1, EntityId.toJson x.2)

theorem ofJson?_object (name entities : Json) (symbols : List (Option String × Json)) :
    ofJson? (.object [("name", name), ("entities", entities), ("symbols", .obj symbols)])
      = name.string?.bind fun name => (entities.list? Entity.ofJson?).bind fun entities =>
        (symbolsOf? [] symbols).bind fun symbols => some ⟨name, entities, symbols⟩ := rfl

theorem symbolsOf?_cons (done : List (String × EntityId)) (name : String) (j : Json)
    (members : List (Option String × Json)) :
    symbolsOf? done ((some name, j) :: members)
      = (EntityId.ofJson? j).bind fun id => symbolsOf? (put done name id) members := by
  cases hid : EntityId.ofJson? j <;> simp only [symbolsOf?, hid] <;> rfl

/-- Symbols of new names are read behind those that are there. -/
theorem symbolsOf?_map {symbols : List (String × EntityId)}
    (hhandles : ∀ x ∈ symbols, x.2 < 2 ^ 32) (done : List (String × EntityId))
    (hnodup : (done.map Prod.fst ++ symbols.map Prod.fst).Nodup) :
    symbolsOf? done (symbols.map symbolToJson) = some (done ++ symbols) := by
  induction symbols generalizing done with
  | nil => rw [List.map_nil, symbolsOf?, List.append_nil]
  | cons x symbols ih =>
    obtain ⟨hx, hrest⟩ := List.forall_mem_cons.mp hhandles
    have hnew : x.1 ∉ done.map Prod.fst := fun hmem =>
      (List.nodup_append.mp hnodup).2.2 x.1 hmem x.1 List.mem_cons_self rfl
    have hnext : ((done ++ [(x.1, x.2)]).map Prod.fst ++ symbols.map Prod.fst).Nodup := by
      rw [List.map_append, List.append_assoc]
      exact hnodup
    rw [List.map_cons, symbolToJson, symbolsOf?_cons, (EntityId.survives hx).read,
      Option.bind_some, put_of_notMem hnew, ih hrest _ hnext, List.append_assoc]
    rfl

theorem toJson_eq (s : Scope) :
    s.toJson = .object [("name", .text s.name),
      ("entities", .arr (s.entities.map Entity.toJson)),
      ("symbols", .obj (s.symbols.map symbolToJson))] := by
  unfold toJson Json.object
  simp only [List.map_map]
  rfl

/-- **A storable scope survives JSON.** -/
theorem Storable.survives {s : Scope} (h : s.Storable) : Survives toJson ofJson? s := by
  have hentities := fun e he => Entity.survives e (h.bodies e he)
  refine ⟨?_, ?_⟩
  · have hlegible : (Json.arr (s.entities.map Entity.toJson)).Legible
        ∧ (Json.obj (s.symbols.map symbolToJson)).Legible := by
      rw [Json.legible_arr, Json.legible_obj, List.forall_mem_map, List.forall_mem_map]
      exact ⟨fun e he => (hentities e he).legible,
        fun x hx => ⟨rfl, (EntityId.survives (h.handles x hx)).legible⟩⟩
    simp [toJson_eq, hlegible, -Json.legible_arr, -Json.legible_obj]
  · rw [toJson_eq, ofJson?_object, Json.list?_arr fun e he => (hentities e he).read,
      symbolsOf?_map h.handles [] h.distinct]
    rfl

/-- **A storable scope is read from each of its texts** if they nest within the
limit, and refused if they nest deeper. -/
theorem Storable.parse?_text {s : Scope} (h : s.Storable) {text : String}
    (htext : text = s.toJson.compact ∨ text = s.toJson.pretty) :
    parse? text = if s.toJson.depth ≤ Document.maxDepth then some s else none := by
  have hparsed : Json.parse? text = some s.toJson := by
    rcases htext with rfl | rfl
    · exact Json.parse?_compact h.survives.legible.1
    · exact Json.parse?_pretty h.survives.legible.1
  unfold parse?
  rw [hparsed, Option.bind_some, h.survives.read]

end Scope

end Interlink
