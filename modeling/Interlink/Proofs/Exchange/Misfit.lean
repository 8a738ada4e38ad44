import Interlink.Proofs.Exchange.Overlooked

/-!
# What sending and receiving fail for

Sending and receiving walk along a type and look up its names once more at every step.
So they may fail because of the type: a name is not defined, typedefs go round in
circles, or a constant or a service stands where a type is expected. At a **founded**
type (`Scope.Founded`), one that renders a type of the document whose names stand for
types, this never happens, however far the walk goes: what a container of such a type
holds is of such a type again, and so is what a field has.

What is left is that a value is a **misfit**, and this is said without sending it, by
the place where it does not fit (`Value.Misfit`): it is of another form than the type
asks for, a number is not that of an item, a field is unknown or missing, a union has
not one field, or one of these is so within the value. What arrives on the wire is a
misfit in the same ways (`Wire.Misfit`), except that fields which nobody declared are
passed over.
-/

namespace Interlink

/-- Two steps whose results are paired fail because one of them does. -/
theorem of_pair_eq_error {ε α β : Type} {x : Except ε α} {y : Except ε β} {fault : ε}
    (h : (do
      let a ← x
      let b ← y
      return (a, b)) = .error fault) : x = .error fault ∨ y = .error fault := by
  rcases bind_eq_error.mp h with hx | ⟨a, -, h⟩
  · exact .inl hx
  · rcases bind_eq_error.mp h with hy | ⟨b, -, hpure⟩
    · exact .inr hy
    · exact absurd hpure pure_ne_error

/-! ## Types that lead somewhere -/

/-- A shape that values can have: no constant and no service. -/
def Shape.IsType : Shape → Prop
  | .entity _ e =>
    (∃ items, e.body = .enum items) ∨ ∃ kind declared, e.body = .struct kind declared
  | _ => True

/-- What has a tag is a type. -/
theorem Shape.isType_of_tag {shape : Shape} {tag : Wire.Tag} (h : shape.tag = .ok tag) :
    shape.IsType := by
  cases shape with
  | entity id e =>
    unfold Shape.tag at h
    cases hbody : e.body with
    | enum items => exact .inl ⟨items, hbody⟩
    | struct kind declared => exact .inr ⟨kind, declared, hbody⟩
    | _ =>
      simp only [hbody] at h
      cases h
  | _ => trivial

/-- No primitive type is called "a type". -/
theorem Primitive.keyword_ne_type (p : Primitive) : p.keyword ≠ "a type" := by
  cases p <;> decide

/-- A type is written as "a type" only if it has a name. -/
theorem Ty.display_ne_type {ty : Ty} (hname : ∀ r, ty ≠ .named r) :
    ty.display ≠ "a type" := by
  intro h
  cases ty with
  | named r => exact hname r rfl
  | primitive p => exact p.keyword_ne_type h
  | _ =>
    have hfirst := congrArg (fun text => text.toList.head?) h
    simp [Ty.display] at hfirst

namespace Scope

/-- **A founded type** renders a type of the document whose names stand for types. -/
def Founded (s : Scope) (d : Document) (ty : Ty) : Prop :=
  ∃ t, s.Renders t ty ∧ ∀ m ∈ t.mentions, d.NamesType m.name

/-- **What a type is called in a message**: as it is written, or by the name of what it
comes to. -/
inductive Calls (s : Scope) (ty : Ty) : String → Prop
  | written : Calls s ty ty.display
  | keyword {p : Primitive} (shape : s.shape ty = .ok (.primitive p)) : Calls s ty p.keyword
  | entity {id : EntityId} {e : Entity} (shape : s.shape ty = .ok (.entity id e)) :
      Calls s ty e.name

variable {s : Scope} {d : Document} {ty : Ty}

theorem Models.tag_of_founded (h : s.Models d) (hd : d.WellFormed) (hty : s.Founded d ty) :
    ∃ tag, ty.tag s = .ok tag := by
  obtain ⟨t, hrenders, hnames⟩ := hty
  exact h.exists_tag hd hnames hrenders

theorem Models.tag_ne_error (h : s.Models d) (hd : d.WellFormed) (hty : s.Founded d ty)
    (error : ValueError) : ty.tag s ≠ .error error := by
  obtain ⟨tag, htag⟩ := h.tag_of_founded hd hty
  rw [htag]
  exact fun heq => by cases heq

/-- **A founded type has a shape**, which is a type. -/
theorem Models.shape_of_founded (h : s.Models d) (hd : d.WellFormed)
    (hty : s.Founded d ty) : ∃ shape, s.shape ty = .ok shape ∧ shape.IsType := by
  obtain ⟨tag, htag⟩ := h.tag_of_founded hd hty
  obtain ⟨shape, hshape, htag⟩ := bind_eq_ok.mp htag
  exact ⟨shape, hshape, Shape.isType_of_tag htag⟩

/-- What a container of a founded type holds is of a founded type. -/
theorem Models.founded_of_encloses (h : s.Models d) (hd : d.WellFormed)
    (hty : s.Founded d ty) {v : Value} {held : Ty} {items : List Value}
    (hencloses : s.Encloses ty v held items) : s.Founded d held := by
  obtain ⟨t, hrenders, hnames⟩ := hty
  exact h.renders_of_encloses hd hrenders hnames hencloses

/-- **A type is called "a type" only where the document calls one so.** -/
theorem Models.namesType_of_calls (h : s.Models d) (hd : d.WellFormed)
    (hty : s.Founded d ty) (hcalls : s.Calls ty "a type") : d.NamesType "a type" := by
  obtain ⟨t, hrenders, hnames⟩ := hty
  generalize htext : "a type" = text at hcalls
  cases hcalls with
  | written =>
    cases hrenders with
    | @named m r same _ =>
      rw [show (Ty.named r).display = m.name from same]
      exact hnames m (List.mem_singleton_self m)
    | _ => exact absurd htext.symm (Ty.display_ne_type nofun)
  | @keyword p _ => exact absurd htext.symm p.keyword_ne_type
  | entity shape =>
    obtain ⟨t', hreaches, hshape⟩ := h.dealias_sound hrenders (dealias_of_shape shape)
    cases hshape with | @entity m _ _ _ same =>
    rw [same]
    exact hd.namesType_of_reaches hreaches hnames m (List.mem_singleton_self m)

end Scope

/-- The errors that are about a value, and not about a type or a payload. -/
def ValueError.BlamesValue : ValueError → Prop
  | .mismatch .. => True
  | .missingField .. => True
  | .unknownField .. => True
  | .unknownEnumValue .. => True
  | .unionArity .. => True
  | _ => False

/-! ## Fields that are refused -/

/-- A field is refused because what was set is, or because nothing was. -/
theorem Entity.Field.send_eq_error {f : Field} {typeName : String} {error : ValueError}
    {given : List (String × (Ty → Except ValueError Wire))}
    (h : f.send typeName given = .error error) :
    (∃ lower, given.lookup f.name = some lower ∧ lower f.type = .error error)
      ∨ given.lookup f.name = none ∧ f.isRequired = true
        ∧ error = .missingField typeName f.name := by
  unfold send at h
  cases hlookup : given.lookup f.name with
  | some lower =>
    rw [hlookup] at h
    exact .inl ⟨lower, rfl, map_eq_error.mp h⟩
  | none =>
    rw [hlookup] at h
    cases hrequired : f.isRequired with
    | true =>
      rw [hrequired] at h
      cases h
      exact .inr ⟨rfl, rfl, rfl⟩
    | false =>
      rw [hrequired] at h
      cases h

/-- Nothing arrives for a field because what was sent is refused, or because nothing was
sent that is required. -/
theorem Entity.Field.receive_eq_error {f : Field} {typeName : String} {error : ValueError}
    {received : List (Int16 × (Ty → Except ValueError Value))}
    (h : f.receive typeName received = .error error) :
    (∃ raise, received.lookup f.id = some raise ∧ raise f.type = .error error)
      ∨ received.lookup f.id = none ∧ f.defaultValue = none ∧ f.isRequired = true
        ∧ error = .missingField typeName f.name := by
  unfold receive at h
  cases hlookup : received.lookup f.id with
  | some raise =>
    rw [hlookup] at h
    exact .inl ⟨raise, rfl, map_eq_error.mp h⟩
  | none =>
    rw [hlookup] at h
    cases hdefault : f.defaultValue with
    | some v =>
      rw [hdefault] at h
      cases h
    | none =>
      rw [hdefault] at h
      cases hrequired : f.isRequired with
      | true =>
        rw [hrequired] at h
        cases h
        exact .inr ⟨rfl, rfl, rfl, rfl⟩
      | false =>
        rw [hrequired] at h
        cases h

/-! ## Values that do not fit -/

/-- A value has the form that a shape asks for. What is in it is not looked at. -/
def Shape.Accepts : Shape → Value → Prop
  | .primitive p, v => v.primitive? = some p
  | .list _, v => ∃ items, v = .list items
  | .set _, v => ∃ items, v = .set items
  | .map _ _, v => ∃ entries, v = .map entries
  | .entity _ e, v =>
    (∃ items n, e.body = .enum items ∧ v = .enum e.name n)
      ∨ ∃ kind declared fields, e.body = .struct kind declared ∧ v = .struct e.name fields

namespace Value

/-- What a value is called in a message: what it is, or the type that it names. -/
inductive IsCalled : Value → String → Prop
  | described (v : Value) : IsCalled v v.describe
  | enum (name : String) (n : Int32) : IsCalled (.enum name n) name
  | struct (name : String) (fields : List (String × Value)) :
      IsCalled (.struct name fields) name

/-- **Why a value does not fit a type**, with the error that says so. -/
inductive Misfit (s : Scope) : Ty → Value → ValueError → Prop
  | form {ty : Ty} {asked : Shape} {v : Value} {expected found : String}
      (shape : s.shape ty = .ok asked) (other : ¬ asked.Accepts v)
      (type : s.Calls ty expected) (value : v.IsCalled found) :
      Misfit s ty v (.mismatch expected found)
  | held {ty held : Ty} {v u : Value} {items : List Value} {error : ValueError}
      (encloses : s.Encloses ty v held items) (member : u ∈ items)
      (misfit : Misfit s held u error) : Misfit s ty v error
  | item {ty : Ty} {id : EntityId} {e : Entity} {items : List Entity.Item} {n : Int32}
      (shape : s.shape ty = .ok (.entity id e)) (body : e.body = .enum items)
      (unknown : n ∉ items.map Entity.Item.value) :
      Misfit s ty (.enum e.name n) (.unknownEnumValue e.name n)
  | unknown {ty : Ty} {id : EntityId} {e : Entity} {kind : StructKind}
      {declared : List Entity.Field} {fields : List (String × Value)} {name : String}
      (shape : s.shape ty = .ok (.entity id e)) (body : e.body = .struct kind declared)
      (set : name ∈ fields.map Prod.fst)
      (unknown : name ∉ declared.map Entity.Field.name) :
      Misfit s ty (.struct e.name fields) (.unknownField e.name name)
  | arity {ty : Ty} {id : EntityId} {e : Entity} {declared : List Entity.Field}
      {fields : List (String × Value)} (shape : s.shape ty = .ok (.entity id e))
      (body : e.body = .struct .union declared) (count : fields.length ≠ 1) :
      Misfit s ty (.struct e.name fields) (.unionArity e.name fields.length)
  | missing {ty : Ty} {id : EntityId} {e : Entity} {kind : StructKind}
      {declared : List Entity.Field} {fields : List (String × Value)} {f : Entity.Field}
      (shape : s.shape ty = .ok (.entity id e)) (body : e.body = .struct kind declared)
      (member : f ∈ declared) (required : f.isRequired = true)
      (unset : fields.lookup f.name = none) :
      Misfit s ty (.struct e.name fields) (.missingField e.name f.name)
  | field {ty : Ty} {id : EntityId} {e : Entity} {kind : StructKind}
      {declared : List Entity.Field} {fields : List (String × Value)} {f : Entity.Field}
      {u : Value} {error : ValueError} (shape : s.shape ty = .ok (.entity id e))
      (body : e.body = .struct kind declared) (member : f ∈ declared)
      (set : fields.lookup f.name = some u) (misfit : Misfit s f.type u error) :
      Misfit s ty (.struct e.name fields) error

variable {s : Scope} {d : Document} {ty : Ty} {v : Value} {error : ValueError}
  {typeName : String}

/-! ## Sending fails at a misfit -/

/-- A value is refused at a primitive type because it is of another type. -/
theorem primitiveToWire_eq_error {p : Primitive} (h : primitiveToWire p v = .error error) :
    v.primitive? ≠ some p ∧ error = .mismatch p.keyword v.describe := by
  constructor
  · intro hexact
    obtain ⟨w, hw⟩ := exists_primitiveToWire hexact
    rw [hw] at h
    cases h
  · cases p <;> cases v <;> cases h <;> rfl

theorem itemsToWire_eq_mapM (element : Ty) (items : List Value) :
    itemsToWire s element items = items.mapM fun v => v.toWire s element := by
  induction items with
  | nil => rfl
  | cons v items ih => rw [itemsToWire, List.mapM_cons, ih]

theorem entriesToWire_eq_mapM (key value : Ty) (entries : List (Value × Value)) :
    entriesToWire s key value entries = entries.mapM fun x => do
      let k ← x.1.toWire s key
      let v ← x.2.toWire s value
      return (k, v) := by
  induction entries with
  | nil => rfl
  | cons x entries ih =>
    rw [entriesToWire, List.mapM_cons, ih]
    simp only [bind_assoc, pure_bind]

/-- Entries are refused because a key or a value is. -/
theorem exists_of_entriesToWire_eq_error {key value : Ty} {entries : List (Value × Value)}
    (h : entriesToWire s key value entries = .error error) :
    ∃ x ∈ entries, x.1.toWire s key = .error error ∨ x.2.toWire s value = .error error := by
  rw [entriesToWire_eq_mapM] at h
  obtain ⟨x, hx, h⟩ := exists_of_mapM_eq_error h
  exact ⟨x, hx, of_pair_eq_error h⟩

/-- A value is refused at an enum because it is no value of it, or not that of an
item. -/
theorem enumToWire_eq_error {items : List Entity.Item}
    (h : enumToWire typeName items v = .error error) :
    (∃ n, v = .enum typeName n ∧ n ∉ items.map Entity.Item.value
        ∧ error = .unknownEnumValue typeName n)
      ∨ (∀ n, v ≠ .enum typeName n) ∧ ∃ found, v.IsCalled found
        ∧ error = .mismatch typeName found := by
  cases v with
  | enum found n =>
    rw [enumToWire] at h
    by_cases hname : found = typeName
    · rw [if_pos hname] at h
      subst hname
      by_cases hn : (items.any fun item => item.value == n) = true
      · rw [if_pos hn] at h
        cases h
      · rw [if_neg hn] at h
        cases h
        exact .inl ⟨n, rfl, fun hmem => hn (Entity.any_value_eq_true.mpr hmem), rfl⟩
    · rw [if_neg hname] at h
      cases h
      refine .inr ⟨fun m heq => ?_, found, .enum found n, rfl⟩
      cases heq
      exact hname rfl
  | _ =>
    cases h
    refine .inr ⟨fun n heq => ?_, _, .described _, rfl⟩
    cases heq

/-- **A struct is refused** because a field is unknown, because a union has not one, or
because one of the declared fields is refused. -/
theorem structToWire_eq_error {kind : StructKind} {declared : List Entity.Field}
    {given : List (String × (Ty → Except ValueError Wire))}
    (h : structToWire typeName kind declared given = .error error) :
    (∃ name ∈ given.map Prod.fst, name ∉ declared.map Entity.Field.name
        ∧ error = .unknownField typeName name)
      ∨ (kind = .union ∧ given.length ≠ 1 ∧ error = .unionArity typeName given.length)
      ∨ ∃ f ∈ declared, f.send typeName given = .error error := by
  unfold structToWire at h
  split at h
  next name lower hfind =>
    cases h
    have hunknown : name ∉ declared.map Entity.Field.name := by
      simpa using List.find?_some hfind
    exact .inl ⟨name, List.mem_map_of_mem (f := Prod.fst) (List.mem_of_find?_eq_some hfind),
      hunknown, rfl⟩
  next =>
    by_cases hcount : kind = .union ∧ given.length ≠ 1
    · rw [if_pos hcount] at h
      cases h
      exact .inr (.inl ⟨hcount.1, hcount.2, rfl⟩)
    · rw [if_neg hcount, fieldsToWire_eq_map] at h
      exact .inr (.inr (exists_of_mapM_eq_error (map_eq_error.mp (map_eq_error.mp h))))

/-- A list or set is refused at a misfit, if its items are. The tag that it announces is
always found. -/
theorem misfit_of_sequence (hs : s.Models d) (hd : d.WellFormed) (hty : s.Founded d ty)
    {held : Ty} {items : List Value} (encloses : s.Encloses ty v held items)
    (hitems : ∀ u ∈ items, s.Founded d held → u.toWire s held = .error error →
      u.Misfit s held error)
    {pack : Wire.Tag → List Wire → Wire}
    (h : (do
      let tag ← held.tag s
      let ws ← itemsToWire s held items
      return pack tag ws) = .error error) : v.Misfit s ty error := by
  have hheld := hs.founded_of_encloses hd hty encloses
  rcases bind_eq_error.mp h with htag | ⟨tag, -, h⟩
  · exact absurd htag (hs.tag_ne_error hd hheld error)
  rcases bind_eq_error.mp h with h | ⟨ws, -, hpure⟩
  · rw [itemsToWire_eq_mapM] at h
    obtain ⟨u, hu, herror⟩ := exists_of_mapM_eq_error h
    exact .held encloses hu (hitems u hu hheld herror)
  · exact absurd hpure pure_ne_error

/-- A map is refused at a misfit, if its keys and values are. -/
theorem misfit_of_entries (hs : s.Models d) (hd : d.WellFormed) (hty : s.Founded d ty)
    {key value : Ty} {entries : List (Value × Value)}
    (shape : s.shape ty = .ok (.map key value))
    (hparts : ∀ u ∈ (map entries).children, ∀ {held}, s.Founded d held →
      u.toWire s held = .error error → u.Misfit s held error)
    (h : (do
      let keyTag ← key.tag s
      let valueTag ← value.tag s
      let ws ← entriesToWire s key value entries
      return Wire.map keyTag valueTag ws) = .error error) :
    (map entries).Misfit s ty error := by
  have hkeys : s.Encloses ty (map entries) key (entries.map Prod.fst) := .keys shape
  have hvalues : s.Encloses ty (map entries) value (entries.map Prod.snd) := .values shape
  have hkey := hs.founded_of_encloses hd hty hkeys
  have hvalue := hs.founded_of_encloses hd hty hvalues
  rcases bind_eq_error.mp h with htag | ⟨keyTag, -, h⟩
  · exact absurd htag (hs.tag_ne_error hd hkey error)
  rcases bind_eq_error.mp h with htag | ⟨valueTag, -, h⟩
  · exact absurd htag (hs.tag_ne_error hd hvalue error)
  rcases bind_eq_error.mp h with h | ⟨ws, -, hpure⟩
  · obtain ⟨x, hx, herror | herror⟩ := exists_of_entriesToWire_eq_error h
    · exact .held hkeys (List.mem_map_of_mem hx) (hparts _ (key_mem_children hx) hkey herror)
    · exact .held hvalues (List.mem_map_of_mem hx)
        (hparts _ (value_mem_children hx) hvalue herror)
  · exact absurd hpure pure_ne_error

/-- A struct is refused at a misfit, if what is set in it is. -/
theorem misfit_of_structToWire {id : EntityId} {e : Entity} {kind : StructKind}
    {declared : List Entity.Field} {fields : List (String × Value)}
    (shape : s.shape ty = .ok (.entity id e)) (body : e.body = .struct kind declared)
    (hset : ∀ f ∈ declared, ∀ u, fields.lookup f.name = some u →
      u.toWire s f.type = .error error → u.Misfit s f.type error)
    (h : structToWire e.name kind declared (lowerings s fields) = .error error) :
    (struct e.name fields).Misfit s ty error := by
  rw [lowerings_eq_map] at h
  rcases structToWire_eq_error h with
    ⟨name, hname, hunknown, rfl⟩ | ⟨rfl, hcount, rfl⟩ | ⟨f, hf, hsend⟩
  · rw [List.map_map] at hname
    exact .unknown shape body hname hunknown
  · rw [List.length_map] at hcount ⊢
    exact .arity shape body hcount
  · rcases Entity.Field.send_eq_error hsend with
      ⟨lower, hlower, herror⟩ | ⟨hunset, hrequired, rfl⟩
    · rw [lookup_map_snd, Option.map_eq_some_iff] at hlower
      obtain ⟨u, hu, rfl⟩ := hlower
      exact .field shape body hf hu (hset f hf u hu herror)
    · rw [lookup_map_snd, Option.map_eq_none_iff] at hunset
      exact .missing shape body hf hrequired hunset

/-- **Sending fails at a misfit only**, if the type is founded. -/
theorem misfit_of_toWire (hs : s.Models d) (hd : d.WellFormed) (hty : s.Founded d ty)
    (h : v.toWire s ty = .error error) : v.Misfit s ty error := by
  induction v using Value.childInduction generalizing ty error with
  | step v ih =>
    obtain ⟨shape, hshape, htype⟩ := hs.shape_of_founded hd hty
    rw [toWire, hshape] at h
    cases shape with
    | primitive p =>
      obtain ⟨hother, rfl⟩ := primitiveToWire_eq_error h
      exact .form hshape hother (.keyword hshape) (.described v)
    | list element =>
      cases v with
      | list items => exact misfit_of_sequence hs hd hty (.list hshape) (fun u hu => ih u hu) h
      | _ =>
        cases h
        refine .form hshape ?_ .written (.described _)
        rintro ⟨_, heq⟩
        cases heq
    | set element =>
      cases v with
      | set items => exact misfit_of_sequence hs hd hty (.set hshape) (fun u hu => ih u hu) h
      | _ =>
        cases h
        refine .form hshape ?_ .written (.described _)
        rintro ⟨_, heq⟩
        cases heq
    | map key value =>
      cases v with
      | map entries => exact misfit_of_entries hs hd hty hshape (fun u hu => ih u hu) h
      | _ =>
        cases h
        refine .form hshape ?_ .written (.described _)
        rintro ⟨_, heq⟩
        cases heq
    | entity id e =>
      rcases htype with ⟨items, hbody⟩ | ⟨kind, declared, hbody⟩
      · simp only [hbody] at h
        rcases enumToWire_eq_error h with ⟨n, rfl, hn, rfl⟩ | ⟨hother, found, hfound, rfl⟩
        · exact .item hshape hbody hn
        · refine .form hshape ?_ (.entity hshape) hfound
          rintro (⟨_, n, -, rfl⟩ | ⟨kind, declared, fields, hbody', -⟩)
          · exact hother n rfl
          · rw [hbody] at hbody'
            cases hbody'
      · simp only [hbody] at h
        have hform : ∀ found, v.IsCalled found → (∀ fields, v ≠ .struct e.name fields) →
            v.Misfit s ty (.mismatch e.name found) := by
          intro found hfound hother
          refine .form hshape ?_ (.entity hshape) hfound
          rintro (⟨_, n, hbody', -⟩ | ⟨_, _, fields, -, rfl⟩)
          · rw [hbody] at hbody'
            cases hbody'
          · exact hother fields rfl
        cases v with
        | struct typeName fields =>
          dsimp only at h
          by_cases hname : typeName = e.name
          · rw [if_pos hname] at h
            subst hname
            refine misfit_of_structToWire hshape hbody (fun f hf u hu herror => ?_) h
            exact ih u (List.mem_map_of_mem (mem_of_lookup_eq_some hu))
              (hs.exists_field hd (s.entity?_of_shape hshape) hbody hf) herror
          · rw [if_neg hname] at h
            cases h
            refine hform _ (.struct typeName fields) fun fields' heq => ?_
            cases heq
            exact hname rfl
        | _ =>
          cases h
          exact hform _ (.described _) fun fields heq => by cases heq

end Value

namespace Wire

/-- **Why a wire value does not fit a type**, with the error that says so. -/
inductive Misfit (s : Scope) : Ty → Wire → ValueError → Prop
  | form {ty : Ty} {asked : Shape} {w : Wire} {expected : String}
      (shape : s.shape ty = .ok asked) (other : asked.tag ≠ .ok w.tag)
      (type : s.Calls ty expected) : Misfit s ty w (.mismatch expected w.tag.name)
  | list {ty element : Ty} {tag : Tag} {items : List Wire} {u : Wire} {error : ValueError}
      (shape : s.shape ty = .ok (.list element)) (member : u ∈ items)
      (misfit : Misfit s element u error) : Misfit s ty (.list tag items) error
  | set {ty element : Ty} {tag : Tag} {items : List Wire} {u : Wire} {error : ValueError}
      (shape : s.shape ty = .ok (.set element)) (member : u ∈ items)
      (misfit : Misfit s element u error) : Misfit s ty (.set tag items) error
  | key {ty key value : Ty} {keyTag valueTag : Tag} {entries : List (Wire × Wire)}
      {x : Wire × Wire} {error : ValueError} (shape : s.shape ty = .ok (.map key value))
      (member : x ∈ entries) (misfit : Misfit s key x.1 error) :
      Misfit s ty (.map keyTag valueTag entries) error
  | value {ty key value : Ty} {keyTag valueTag : Tag} {entries : List (Wire × Wire)}
      {x : Wire × Wire} {error : ValueError} (shape : s.shape ty = .ok (.map key value))
      (member : x ∈ entries) (misfit : Misfit s value x.2 error) :
      Misfit s ty (.map keyTag valueTag entries) error
  | item {ty : Ty} {id : EntityId} {e : Entity} {items : List Entity.Item} {n : Int32}
      (shape : s.shape ty = .ok (.entity id e)) (body : e.body = .enum items)
      (unknown : n ∉ items.map Entity.Item.value) :
      Misfit s ty (.i32 n) (.unknownEnumValue e.name n)
  | missing {ty : Ty} {id : EntityId} {e : Entity} {kind : StructKind}
      {declared : List Entity.Field} {fields : List (Int16 × Wire)} {f : Entity.Field}
      (shape : s.shape ty = .ok (.entity id e)) (body : e.body = .struct kind declared)
      (member : f ∈ declared) (required : f.isRequired = true)
      (plain : f.defaultValue = none) (unsent : fields.lookup f.id = none) :
      Misfit s ty (.struct fields) (.missingField e.name f.name)
  | field {ty : Ty} {id : EntityId} {e : Entity} {kind : StructKind}
      {declared : List Entity.Field} {fields : List (Int16 × Wire)} {f : Entity.Field}
      {u : Wire} {error : ValueError} (shape : s.shape ty = .ok (.entity id e))
      (body : e.body = .struct kind declared) (member : f ∈ declared)
      (sent : fields.lookup f.id = some u) (misfit : Misfit s f.type u error) :
      Misfit s ty (.struct fields) error
  | arity {ty : Ty} {id : EntityId} {e : Entity} {declared : List Entity.Field}
      {fields : List (Int16 × Wire)} {count : Nat}
      (shape : s.shape ty = .ok (.entity id e)) (body : e.body = .struct .union declared)
      (sent : count = declared.countP fun f => (fields.lookup f.id).isSome)
      (several : count ≠ 1) : Misfit s ty (.struct fields) (.unionArity e.name count)

variable {s : Scope} {d : Document} {ty : Ty} {w : Wire} {error : ValueError}
  {typeName : String}

/-! ## Receiving fails at a misfit -/

/-- A wire value is refused at a primitive type because it has another tag. -/
theorem primitiveToValue_eq_error {p : Primitive}
    (h : primitiveToValue p w = .error error) :
    p.tag ≠ w.tag ∧ error = .mismatch p.keyword w.tag.name := by
  cases p <;> cases w <;> cases h <;> exact ⟨nofun, rfl⟩

/-- A wire value is refused at an enum because it is no number, or not that of an
item. -/
theorem enumToValue_eq_error {items : List Entity.Item}
    (h : enumToValue ty typeName items w = .error error) :
    (∃ n, w = .i32 n ∧ n ∉ items.map Entity.Item.value
        ∧ error = .unknownEnumValue typeName n)
      ∨ w.tag ≠ .i32 ∧ error = .mismatch ty.display w.tag.name := by
  cases w with
  | i32 n =>
    rw [enumToValue] at h
    by_cases hn : (items.any fun item => item.value == n) = true
    · rw [if_pos hn] at h
      cases h
    · rw [if_neg hn] at h
      cases h
      exact .inl ⟨n, rfl, fun hmem => hn (Entity.any_value_eq_true.mpr hmem), rfl⟩
  | _ =>
    cases h
    exact .inr ⟨nofun, rfl⟩

/-- What arrives for a union is counted by the fields that were sent. -/
theorem length_arrived {declared : List Entity.Field} {fields : List (Int16 × Wire)}
    {arrived : List (Option (String × Value))}
    (hplain : ∀ f ∈ declared, f.defaultValue = none)
    (each : List.Forall₂ (fun f o =>
      f.receive typeName (fields.map fun x => (x.1, x.2.toValue s)) = .ok o)
      declared arrived) :
    arrived.reduceOption.length = declared.countP fun f => (fields.lookup f.id).isSome := by
  induction each with
  | nil => rfl
  | @cons f o declared arrived hreceive _ ih =>
    rw [List.forall_mem_cons] at hplain
    have hsent : o.isSome = (fields.lookup f.id).isSome := by
      unfold Entity.Field.receive at hreceive
      rw [lookup_map_snd, hplain.1] at hreceive
      cases hlookup : fields.lookup f.id with
      | some u =>
        rw [hlookup] at hreceive
        obtain ⟨v, -, rfl⟩ := map_eq_ok.mp hreceive
        rfl
      | none =>
        rw [hlookup] at hreceive
        cases hrequired : f.isRequired <;> rw [hrequired] at hreceive <;> cases hreceive
        rfl
    rw [List.countP_cons, ← hsent, ← ih hplain.2]
    cases o <;> simp [List.reduceOption_cons_of_none, List.reduceOption_cons_of_some]

/-- **A struct is refused** because one of the declared fields is, or because not one
arrives for a union. -/
theorem structToValue_eq_error {kind : StructKind} {declared : List Entity.Field}
    (distinct : (declared.map Entity.Field.name).Nodup)
    {received : List (Int16 × (Ty → Except ValueError Value))}
    (h : structToValue typeName kind declared received = .error error) :
    (∃ f ∈ declared, f.receive typeName received = .error error)
      ∨ kind = .union ∧ ∃ arrived,
        List.Forall₂ (fun f o => f.receive typeName received = .ok o) declared arrived
        ∧ arrived.reduceOption.length ≠ 1
        ∧ error = .unionArity typeName arrived.reduceOption.length := by
  unfold structToValue at h
  rw [fieldsToValue_eq_map received [] declared distinct] at h
  rcases bind_eq_error.mp h with h | ⟨fields, hfields, h⟩
  · exact .inl (exists_of_mapM_eq_error (map_eq_error.mp h))
  · obtain ⟨arrived, harrived, rfl⟩ := map_eq_ok.mp hfields
    rw [List.nil_append] at h
    by_cases hcount : kind = .union ∧ arrived.reduceOption.length ≠ 1
    · rw [if_pos hcount] at h
      cases h
      exact .inr ⟨hcount.1, arrived, mapM_eq_ok.mp harrived, hcount.2, rfl⟩
    · rw [if_neg hcount] at h
      exact absurd h pure_ne_error

/-- A struct is refused at a misfit, if what was sent in it is. -/
theorem misfit_of_structToValue (hs : s.TellsApart) {id : EntityId} {e : Entity}
    {kind : StructKind} {declared : List Entity.Field} {fields : List (Int16 × Wire)}
    (shape : s.shape ty = .ok (.entity id e)) (body : e.body = .struct kind declared)
    (hsent : ∀ f ∈ declared, ∀ u, fields.lookup f.id = some u →
      u.toValue s f.type = .error error → u.Misfit s f.type error)
    (h : structToValue e.name kind declared (raisings s fields) = .error error) :
    (struct fields).Misfit s ty error := by
  have hfields := hs id e kind declared (s.entity?_of_shape shape) body
  rw [raisings_eq_map] at h
  rcases structToValue_eq_error hfields.names h with
    ⟨f, hf, hreceive⟩ | ⟨rfl, arrived, harrived, hcount, rfl⟩
  · rcases Entity.Field.receive_eq_error hreceive with
      ⟨raise, hraise, herror⟩ | ⟨hunsent, hplain, hrequired, rfl⟩
    · rw [lookup_map_snd, Option.map_eq_some_iff] at hraise
      obtain ⟨u, hu, rfl⟩ := hraise
      exact .field shape body hf hu (hsent f hf u hu herror)
    · rw [lookup_map_snd, Option.map_eq_none_iff] at hunsent
      exact .missing shape body hf hrequired hplain hunsent
  · exact .arity shape body (length_arrived (hfields.plain rfl) harrived) hcount

/-- **Receiving fails at a misfit only**, if the type is founded. -/
theorem misfit_of_toValue (hs : s.Models d) (hd : d.WellFormed) (hapart : s.TellsApart)
    (hty : s.Founded d ty) (h : w.toValue s ty = .error error) : w.Misfit s ty error := by
  induction w using Wire.childInduction generalizing ty error with
  | step w ih =>
    obtain ⟨shape, hshape, htype⟩ := hs.shape_of_founded hd hty
    rw [toValue, hshape] at h
    cases shape with
    | primitive p =>
      obtain ⟨hother, rfl⟩ := primitiveToValue_eq_error h
      exact .form hshape (fun heq => hother (Except.ok.inj heq)) (.keyword hshape)
    | list element =>
      cases w with
      | list tag items =>
        have helement := hs.founded_of_encloses hd hty (v := .list []) (.list hshape)
        have h := map_eq_error.mp h
        rw [itemsToValue_eq_mapM] at h
        obtain ⟨u, hu, herror⟩ := exists_of_mapM_eq_error h
        exact .list hshape hu (ih u hu helement herror)
      | _ =>
        cases h
        refine .form hshape ?_ .written
        intro heq
        cases heq
    | set element =>
      cases w with
      | set tag items =>
        have helement := hs.founded_of_encloses hd hty (v := .set []) (.set hshape)
        have h := map_eq_error.mp h
        rw [itemsToValue_eq_mapM] at h
        obtain ⟨u, hu, herror⟩ := exists_of_mapM_eq_error h
        exact .set hshape hu (ih u hu helement herror)
      | _ =>
        cases h
        refine .form hshape ?_ .written
        intro heq
        cases heq
    | map key value =>
      cases w with
      | map keyTag valueTag entries =>
        have hkey := hs.founded_of_encloses hd hty (v := .map []) (.keys hshape)
        have hvalue := hs.founded_of_encloses hd hty (v := .map []) (.values hshape)
        have h := map_eq_error.mp h
        rw [entriesToValue_eq_mapM] at h
        obtain ⟨x, hx, h⟩ := exists_of_mapM_eq_error h
        rcases of_pair_eq_error h with herror | herror
        · exact .key hshape hx (ih _ (key_mem_children hx) hkey herror)
        · exact .value hshape hx (ih _ (value_mem_children hx) hvalue herror)
      | _ =>
        cases h
        refine .form hshape ?_ .written
        intro heq
        cases heq
    | entity id e =>
      rcases htype with ⟨items, hbody⟩ | ⟨kind, declared, hbody⟩
      · simp only [hbody] at h
        rcases enumToValue_eq_error h with ⟨n, rfl, hn, rfl⟩ | ⟨hother, rfl⟩
        · exact .item hshape hbody hn
        · refine .form hshape (fun heq => hother ?_) .written
          rw [Shape.tag, hbody] at heq
          exact (Except.ok.inj heq).symm
      · simp only [hbody] at h
        cases w with
        | struct fields =>
          refine misfit_of_structToValue hapart hshape hbody (fun f hf u hu herror => ?_) h
          exact ih u (field_mem_children (mem_of_lookup_eq_some hu))
            (hs.exists_field hd (s.entity?_of_shape hshape) hbody hf) herror
        | _ =>
          cases h
          refine .form hshape (fun heq => ?_) (.entity hshape)
          rw [Shape.tag, hbody] at heq
          cases heq

end Wire

/-! ## What misfits are about -/

theorem Value.Misfit.blamesValue {s : Scope} {ty : Ty} {v : Value} {error : ValueError}
    (h : v.Misfit s ty error) : error.BlamesValue := by
  induction h with
  | held _ _ _ ih => exact ih
  | field _ _ _ _ _ ih => exact ih
  | _ => trivial

theorem Wire.Misfit.blamesValue {s : Scope} {ty : Ty} {w : Wire} {error : ValueError}
    (h : w.Misfit s ty error) : error.BlamesValue := by
  induction h with
  | list _ _ _ ih => exact ih
  | set _ _ _ ih => exact ih
  | key _ _ _ ih => exact ih
  | value _ _ _ ih => exact ih
  | field _ _ _ _ _ ih => exact ih
  | _ => trivial

section Calls

variable {s : Scope} {d : Document} {ty : Ty} {error : ValueError} {expected found : String}

/-- **Where another form was expected, a founded type is named.** -/
theorem Value.Misfit.exists_calls {v : Value} (h : v.Misfit s ty error) (hs : s.Models d)
    (hd : d.WellFormed) (hty : s.Founded d ty) (herror : error = .mismatch expected found) :
    ∃ asked, s.Founded d asked ∧ s.Calls asked expected := by
  induction h with
  | form _ _ type _ =>
    cases herror
    exact ⟨_, hty, type⟩
  | held encloses _ _ ih => exact ih (hs.founded_of_encloses hd hty encloses) herror
  | field shape body member _ _ ih =>
    exact ih (hs.exists_field hd (s.entity?_of_shape shape) body member) herror
  | _ => cases herror

theorem Wire.Misfit.exists_calls {w : Wire} (h : w.Misfit s ty error) (hs : s.Models d)
    (hd : d.WellFormed) (hty : s.Founded d ty) (herror : error = .mismatch expected found) :
    ∃ asked, s.Founded d asked ∧ s.Calls asked expected := by
  induction h with
  | form _ _ type =>
    cases herror
    exact ⟨_, hty, type⟩
  | list shape _ _ ih =>
    exact ih (hs.founded_of_encloses hd hty (v := .list []) (.list shape)) herror
  | set shape _ _ ih =>
    exact ih (hs.founded_of_encloses hd hty (v := .set []) (.set shape)) herror
  | key shape _ _ ih =>
    exact ih (hs.founded_of_encloses hd hty (v := .map []) (.keys shape)) herror
  | value shape _ _ ih =>
    exact ih (hs.founded_of_encloses hd hty (v := .map []) (.values shape)) herror
  | field shape body member _ _ ih =>
    exact ih (hs.exists_field hd (s.entity?_of_shape shape) body member) herror
  | _ => cases herror

end Calls

end Interlink
