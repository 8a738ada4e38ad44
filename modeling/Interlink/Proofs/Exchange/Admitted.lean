import Interlink.Proofs.Exchange.Complete
import Interlink.Proofs.Exchange.Send
import Interlink.Proofs.Wire.Basic

/-!
# Values that are received

What is received may come from anywhere: fields that nobody declared, fields sent
twice or in any order, containers that announce one thing and hold another.
Whatever it is, a value that is received is one of its type
(`Wire.admits_of_toValue`): structs have declared fields only, and all that are
required, unions have just one, and values of enums are those of items, all the
way down. That is said of the scope alone, by `Scope.Admits`. The defaults that
are filled in are no exception, since they can be sent.

A value of a type can be sent at it, but for one thing. A container announces
the tag of its items, also when it has none, and receiving an empty container
never looks for one. So an empty container may be received at a type whose items
have no tag, as a list of something that is not defined. Such a value is
**hollow** (`Scope.Hollow`), and being hollow is all that keeps a value from
being sent (`Scope.Models.exists_toWire_of_admits`). No value is hollow at a type
whose names stand for types (`Scope.Models.not_hollow`).
-/

namespace Interlink

/-! ## What arrives -/

/-- Something arrives for a field from the wire or from its default, and
nothing only for a field that has no default and is not required. -/
theorem Entity.Field.receive_eq_ok {f : Field} {typeName : String}
    {received : List (Int16 × (Ty → Except ValueError Value))}
    {o : Option (String × Value)} (h : f.receive typeName received = .ok o) :
    (∃ raise v, received.lookup f.id = some raise ∧ raise f.type = .ok v
        ∧ o = some (f.name, v))
      ∨ (∃ v, f.defaultValue = some v ∧ o = some (f.name, v))
      ∨ f.defaultValue = none ∧ f.isRequired = false ∧ o = none := by
  unfold receive at h
  cases hlookup : received.lookup f.id with
  | some raise =>
    rw [hlookup] at h
    obtain ⟨v, hv, rfl⟩ := map_eq_ok.mp h
    exact .inl ⟨raise, v, rfl, hv, rfl⟩
  | none =>
    rw [hlookup] at h
    cases hdefault : f.defaultValue with
    | some v =>
      rw [hdefault] at h
      cases h
      exact .inr (.inl ⟨v, rfl, rfl⟩)
    | none =>
      rw [hdefault] at h
      cases hrequired : f.isRequired with
      | true =>
        rw [hrequired] at h
        cases h
      | false =>
        rw [hrequired] at h
        cases h
        exact .inr (.inr ⟨rfl, rfl, rfl⟩)

theorem Entity.Field.name_of_receive {f : Field} {typeName : String}
    {received : List (Int16 × (Ty → Except ValueError Value))}
    {o : Option (String × Value)} (h : f.receive typeName received = .ok o) :
    ∀ entry ∈ o, entry.1 = f.name := by
  intro entry hentry
  rcases receive_eq_ok h with ⟨_, v, -, -, rfl⟩ | ⟨v, -, rfl⟩ | ⟨-, -, rfl⟩
  · cases hentry
    rfl
  · cases hentry
    rfl
  · cases hentry

namespace Wire

variable {s : Scope} {typeName : String} {declared : List Entity.Field}
  {fields : List (Int16 × Wire)} {arrived : List (Option (String × Value))}

/-- **What a received struct is made of** was received, or is a default. -/
theorem exists_of_mem_arrived
    (each : List.Forall₂ (fun f o =>
      f.receive typeName (fields.map fun x => (x.1, x.2.toValue s)) = .ok o)
      declared arrived)
    {x : String × Value} (hx : x ∈ arrived.reduceOption) :
    ∃ f ∈ declared, f.name = x.1
      ∧ ((∃ y ∈ fields, y.2.toValue s f.type = .ok x.2)
        ∨ f.defaultValue = some x.2) := by
  obtain ⟨f, hf, hreceive⟩ :=
    exists_left_of_forall₂ each (List.reduceOption_mem_iff.mp hx)
  refine ⟨f, hf, ?_⟩
  rcases Entity.Field.receive_eq_ok hreceive with
    ⟨raise, v, hlookup, hv, heq⟩ | ⟨v, hv, heq⟩ | ⟨-, -, heq⟩
  · cases heq
    rw [lookup_map_snd, Option.map_eq_some_iff] at hlookup
    obtain ⟨w, hw, rfl⟩ := hlookup
    exact ⟨rfl, .inl ⟨_, mem_of_lookup_eq_some hw, hv⟩⟩
  · cases heq
    exact ⟨rfl, .inr hv⟩
  · cases heq

/-- **Under the name of a field is what arrived for it.** -/
theorem lookup_arrived (distinct : (declared.map Entity.Field.name).Nodup)
    (each : List.Forall₂ (fun f o =>
      f.receive typeName (fields.map fun x => (x.1, x.2.toValue s)) = .ok o)
      declared arrived) {f : Entity.Field} (hf : f ∈ declared) :
    ∃ o, f.receive typeName (fields.map fun x => (x.1, x.2.toValue s)) = .ok o
      ∧ arrived.reduceOption.lookup f.name = o.map Prod.snd := by
  have hfound := forall₂_lookup_reduceOption distinct
    (each.imp fun f o hreceive => Entity.Field.name_of_receive hreceive)
  obtain ⟨o, -, ho, hlookup⟩ := exists_left_of_forall₂_and each.flip hfound.flip hf
  exact ⟨o, ho, hlookup⟩

end Wire

/-! ## Values of a type -/

/-- **A value is one of a type**, all the way down, in a scope: a primitive value
of exactly that type, a container of values of its types, the value of an item of
an enum, or a struct with declared fields only, all of the required ones, and one
for a union. -/
inductive Scope.Admits (s : Scope) : Ty → Value → Prop
  | primitive {ty : Ty} {p : Primitive} {v : Value}
      (shape : s.shape ty = .ok (.primitive p)) (exact : v.primitive? = some p) :
      Admits s ty v
  | list {ty element : Ty} {items : List Value}
      (shape : s.shape ty = .ok (.list element))
      (each : ∀ v ∈ items, Admits s element v) : Admits s ty (.list items)
  | set {ty element : Ty} {items : List Value}
      (shape : s.shape ty = .ok (.set element))
      (each : ∀ v ∈ items, Admits s element v) : Admits s ty (.set items)
  | map {ty key value : Ty} {entries : List (Value × Value)}
      (shape : s.shape ty = .ok (.map key value))
      (keys : ∀ x ∈ entries, Admits s key x.1)
      (values : ∀ x ∈ entries, Admits s value x.2) : Admits s ty (.map entries)
  | item {ty : Ty} {id : EntityId} {e : Entity} {items : List Entity.Item} {n : Int32}
      (shape : s.shape ty = .ok (.entity id e)) (body : e.body = .enum items)
      (member : n ∈ items.map Entity.Item.value) : Admits s ty (.enum e.name n)
  | struct {ty : Ty} {id : EntityId} {e : Entity} {kind : StructKind}
      {declared : List Entity.Field} {fields : List (String × Value)}
      (shape : s.shape ty = .ok (.entity id e)) (body : e.body = .struct kind declared)
      (known : ∀ x ∈ fields, x.1 ∈ declared.map Entity.Field.name)
      (each : ∀ f ∈ declared, ∀ v, fields.lookup f.name = some v → Admits s f.type v)
      (required : ∀ f ∈ declared, f.isRequired = true → f.name ∈ fields.map Prod.fst)
      (single : kind = .union → fields.length = 1) :
      Admits s ty (.struct e.name fields)

/-- A type that has values has a tag. -/
theorem Scope.Admits.exists_tag {s : Scope} {ty : Ty} {v : Value} (h : s.Admits ty v) :
    ∃ tag, ty.tag s = .ok tag := by
  cases h with
  | primitive shape _ => exact ⟨_, tag_of_shape shape⟩
  | list shape _ => exact ⟨_, tag_of_shape shape⟩
  | set shape _ => exact ⟨_, tag_of_shape shape⟩
  | map shape _ _ => exact ⟨_, tag_of_shape shape⟩
  | item shape body _ =>
    rw [tag_of_shape shape, Shape.tag, body]
    exact ⟨_, rfl⟩
  | struct shape body _ _ _ _ =>
    rw [tag_of_shape shape, Shape.tag, body]
    exact ⟨_, rfl⟩

/-- **What can be sent at a type is one of it.** -/
theorem Value.admits_of_toWire {s : Scope} {ty : Ty} {v : Value} {w : Wire}
    (hw : v.toWire s ty = .ok w) : s.Admits ty v := by
  induction v using Value.childInduction generalizing ty w with
  | step v ih =>
    obtain ⟨shape, hshape, hlowers⟩ := Value.toWire_eq_ok.mp hw
    cases hlowers with
    | primitive sent => exact .primitive hshape (Value.primitive?_of_primitiveToWire sent)
    | list announced each =>
      refine .list hshape fun v hv => ?_
      obtain ⟨w, -, hw⟩ := exists_right_of_forall₂ each hv
      exact ih v hv hw
    | set announced each =>
      refine .set hshape fun v hv => ?_
      obtain ⟨w, -, hw⟩ := exists_right_of_forall₂ each hv
      exact ih v hv hw
    | map keys values each =>
      refine .map hshape (fun x hx => ?_) fun x hx => ?_
      · obtain ⟨w, -, hk, -⟩ := exists_right_of_forall₂ each hx
        exact ih x.1 (Value.key_mem_children hx) hk
      · obtain ⟨w, -, -, hv⟩ := exists_right_of_forall₂ each hx
        exact ih x.2 (Value.value_mem_children hx) hv
    | item body member => exact .item hshape body member
    | @struct id e kind declared fields sent body known single each =>
      -- a declared field was set to what was sent, or need not be set
      have hfield : ∀ f ∈ declared, ∃ o, f.send e.name
          (fields.map fun x => (x.1, x.2.toWire s)) = .ok o := fun f hf =>
        (exists_right_of_forall₂ each hf).imp fun o ho => ho.2
      simp only [Entity.Field.send_eq_ok, lookup_map_snd] at hfield
      refine .struct hshape body known (fun f hf v hv => ?_) (fun f hf hrequired => ?_) single
      · obtain ⟨o, ⟨lower, w, hlower, hw, -⟩ | ⟨hnone, -⟩⟩ := hfield f hf
        · rw [hv] at hlower
          cases hlower
          exact ih v (List.mem_map_of_mem (mem_of_lookup_eq_some hv)) hw
        · rw [hv] at hnone
          cases hnone
      · obtain ⟨o, ⟨lower, w, hlower, -⟩ | ⟨-, hoptional, -⟩⟩ := hfield f hf
        · obtain ⟨v, hv, -⟩ := Option.map_eq_some_iff.mp hlower
          exact lookup_isSome_iff_mem.mp (Option.isSome_of_eq_some hv)
        · rw [hrequired] at hoptional
          cases hoptional

/-! ## Received values are of their types -/

/-- What is received at a primitive type is of that type. -/
theorem Wire.primitive?_of_primitiveToValue {p : Primitive} {w : Wire} {v : Value}
    (h : w.primitiveToValue p = .ok v) : v.primitive? = some p := by
  cases p <;> cases w <;> cases h <;> rfl

/-- The stored defaults can be sent. -/
def Scope.DefaultsSent (s : Scope) : Prop :=
  ∀ id e kind declared, s.entity? id = some e → e.body = .struct kind declared →
    ∀ f ∈ declared, ∀ v ∈ f.defaultValue, ∃ w, v.toWire s f.type = .ok w

/-- **A received value is one of its type**, whatever was sent. -/
theorem Wire.admits_of_toValue {s : Scope} (h : s.TellsApart) (hdefaults : s.DefaultsSent)
    {ty : Ty} {w : Wire} {v : Value} (hv : w.toValue s ty = .ok v) : s.Admits ty v := by
  induction w using Wire.childInduction generalizing ty v with
  | step w ih =>
    obtain ⟨shape, hshape, hraises⟩ := (Wire.toValue_eq_ok h).mp hv
    cases hraises with
    | primitive received =>
      exact .primitive hshape (Wire.primitive?_of_primitiveToValue received)
    | list each =>
      refine .list hshape fun v hv => ?_
      obtain ⟨w, hw, hv⟩ := exists_left_of_forall₂ each hv
      exact ih w hw hv
    | set each =>
      refine .set hshape fun v hv => ?_
      obtain ⟨w, hw, hv⟩ := exists_left_of_forall₂ each hv
      exact ih w hw hv
    | map each =>
      refine .map hshape (fun x hx => ?_) fun x hx => ?_
      · obtain ⟨w, hw, hk, -⟩ := exists_left_of_forall₂ each hx
        exact ih w.1 (Wire.key_mem_children hw) hk
      · obtain ⟨w, hw, -, hv⟩ := exists_left_of_forall₂ each hx
        exact ih w.2 (Wire.value_mem_children hw) hv
    | item body member => exact .item hshape body member
    | @struct id e kind declared fields arrived body each single =>
      have he := s.entity?_of_shape hshape
      have harrived := fun f (hf : f ∈ declared) =>
        Wire.lookup_arrived (h id e kind declared he body).names each hf
      refine .struct hshape body (fun x hx => ?_) (fun f hf v hv => ?_)
        (fun f hf hrequired => ?_) single
      · obtain ⟨f, hf, hname, -⟩ := Wire.exists_of_mem_arrived each hx
        exact hname ▸ List.mem_map_of_mem hf
      · obtain ⟨o, ho, hlookup⟩ := harrived f hf
        rw [hv] at hlookup
        rcases Entity.Field.receive_eq_ok ho with
          ⟨raise, u, hraise, hu, rfl⟩ | ⟨u, hdefault, rfl⟩ | ⟨-, -, rfl⟩
        · -- it was received
          cases hlookup
          rw [lookup_map_snd, Option.map_eq_some_iff] at hraise
          obtain ⟨w, hw, rfl⟩ := hraise
          exact ih w (Wire.field_mem_children (mem_of_lookup_eq_some hw)) hu
        · -- it is the default, which can be sent
          cases hlookup
          obtain ⟨w, hw⟩ := hdefaults id e kind declared he body f hf u hdefault
          exact Value.admits_of_toWire hw
        · cases hlookup
      · obtain ⟨o, ho, hlookup⟩ := harrived f hf
        rw [← lookup_isSome_iff_mem, hlookup]
        rcases Entity.Field.receive_eq_ok ho with
          ⟨raise, u, -, -, rfl⟩ | ⟨u, -, rfl⟩ | ⟨-, hoptional, -⟩
        · rfl
        · rfl
        · rw [hrequired] at hoptional
          cases hoptional

/-! ## Empty containers -/

namespace Scope

/-- A type without a tag: it leads to something that is not defined, or to
something that is no type. -/
def Untagged (s : Scope) (ty : Ty) : Prop := ∀ tag, ty.tag s ≠ .ok tag

/-- **What a container encloses**: the items of a list or set, and the keys and the
values of a map, with the types that they have to have. -/
inductive Encloses (s : Scope) : Ty → Value → Ty → List Value → Prop
  | list {ty element : Ty} {items : List Value}
      (shape : s.shape ty = .ok (.list element)) : Encloses s ty (.list items) element items
  | set {ty element : Ty} {items : List Value}
      (shape : s.shape ty = .ok (.set element)) : Encloses s ty (.set items) element items
  | keys {ty key value : Ty} {entries : List (Value × Value)}
      (shape : s.shape ty = .ok (.map key value)) :
      Encloses s ty (.map entries) key (entries.map Prod.fst)
  | values {ty key value : Ty} {entries : List (Value × Value)}
      (shape : s.shape ty = .ok (.map key value)) :
      Encloses s ty (.map entries) value (entries.map Prod.snd)

/-- **A hollow value** is an empty container of something without a tag, or a
container that encloses a hollow value. -/
inductive Hollow (s : Scope) : Ty → Value → Prop
  | empty {ty held : Ty} {v : Value} (encloses : s.Encloses ty v held [])
      (untagged : s.Untagged held) : Hollow s ty v
  | inside {ty held : Ty} {v u : Value} {items : List Value}
      (encloses : s.Encloses ty v held items) (member : u ∈ items)
      (hollow : Hollow s held u) : Hollow s ty v

variable {s : Scope} {d : Document} {ty : Ty}

/-- **A container is sent** with a tag for what it encloses, which is sent too. -/
theorem Encloses.of_toWire {v : Value} {held : Ty} {items : List Value}
    (h : s.Encloses ty v held items) {w : Wire} (hw : v.toWire s ty = .ok w) :
    (∃ tag, held.tag s = .ok tag) ∧ ∀ u ∈ items, ∃ w, u.toWire s held = .ok w := by
  cases h with
  | list shape =>
    cases Value.lowersAs_of_shape hw shape with | list announced each =>
    exact ⟨⟨_, announced⟩, fun u hu => (exists_right_of_forall₂ each hu).imp fun _ h => h.2⟩
  | set shape =>
    cases Value.lowersAs_of_shape hw shape with | set announced each =>
    exact ⟨⟨_, announced⟩, fun u hu => (exists_right_of_forall₂ each hu).imp fun _ h => h.2⟩
  | keys shape =>
    cases Value.lowersAs_of_shape hw shape with | map keys values each =>
    refine ⟨⟨_, keys⟩, List.forall_mem_map.mpr fun x hx => ?_⟩
    obtain ⟨w, -, hk, -⟩ := exists_right_of_forall₂ each hx
    exact ⟨_, hk⟩
  | values shape =>
    cases Value.lowersAs_of_shape hw shape with | map keys values each =>
    refine ⟨⟨_, values⟩, List.forall_mem_map.mpr fun x hx => ?_⟩
    obtain ⟨w, -, -, hv⟩ := exists_right_of_forall₂ each hx
    exact ⟨_, hv⟩

/-- **A hollow value cannot be sent.** -/
theorem Hollow.toWire_ne_ok {v : Value} (h : s.Hollow ty v) (w : Wire) :
    v.toWire s ty ≠ .ok w := by
  intro hw
  induction h generalizing w with
  | empty encloses untagged =>
    obtain ⟨⟨tag, htag⟩, -⟩ := encloses.of_toWire hw
    exact untagged tag htag
  | inside encloses member _ ih =>
    obtain ⟨-, hitems⟩ := encloses.of_toWire hw
    obtain ⟨w, hw⟩ := hitems _ member
    exact ih w hw

/-- **What a container encloses has a tag**: that of the first item, or there is
none and the container would be hollow. -/
theorem Encloses.exists_tag {v : Value} {held : Ty} {items : List Value}
    (h : s.Encloses ty v held items) (each : ∀ u ∈ items, s.Admits held u)
    (hsolid : ¬ s.Hollow ty v) : ∃ tag, held.tag s = .ok tag := by
  cases items with
  | nil =>
    by_contra hnone
    exact hsolid (.empty h (not_exists.mp hnone))
  | cons u items => exact (each u List.mem_cons_self).exists_tag

/-! ## Types that are known -/

/-- **A scope knows a type** if all its names stand for types. -/
def Knows (s : Scope) (ty : Ty) : Prop :=
  ∀ r ∈ ty.references, ∃ id e, s.targetOf r s.name = .ok (id, e)
    ∧ e.kind.isType = true

theorem Models.namesType (h : s.Models d) {id : EntityId} {e : Entity}
    (he : s.entity? id = some e) (hkind : e.kind.isType = true) :
    d.NamesType e.name := by
  obtain ⟨body, hdefines, hdeclared⟩ := h.exists_defines he
  refine ⟨body, hdefines, ?_⟩
  unfold Entity.kind at hkind
  generalize e.body = b at hdeclared hkind
  cases hdeclared with
  | const => cases hkind
  | service => cases hkind
  | _ => trivial

/-- **A type that a scope knows** is the rendering of a type whose names are
those of types. -/
theorem Models.exists_renders (h : s.Models d) (hty : s.Knows ty) :
    ∃ t, s.Renders t ty ∧ ∀ m ∈ t.mentions, d.NamesType m.name := by
  induction ty with
  | primitive p => exact ⟨_, .primitive p, fun m hm => absurd hm List.not_mem_nil⟩
  | list element ih =>
    obtain ⟨t, hrenders, hnames⟩ := ih hty
    exact ⟨_, .list hrenders, hnames⟩
  | set element ih =>
    obtain ⟨t, hrenders, hnames⟩ := ih hty
    exact ⟨_, .set hrenders, hnames⟩
  | map key value ihk ihv =>
    obtain ⟨k, hkey, hkeys⟩ := ihk fun r hr => hty r (List.mem_append_left _ hr)
    obtain ⟨v, hvalue, hvalues⟩ := ihv fun r hr => hty r (List.mem_append_right _ hr)
    refine ⟨_, .map hkey hvalue, fun m hm => ?_⟩
    rcases List.mem_append.mp hm with hm | hm
    · exact hkeys m hm
    · exact hvalues m hm
  | named r =>
    obtain ⟨id, e, htarget, hkind⟩ := hty r (List.mem_singleton_self r)
    obtain ⟨he, hname, hbound⟩ := h.arena.targetOf_eq_ok.mp htarget
    have hagrees : s.Agrees r := hbound.imp_right fun htarget => by
      rw [htarget]
      exact (h.arena.id?_eq_some.mpr ⟨e, he, hname⟩).symm
    refine ⟨.named ⟨r.name, r.span⟩, .named rfl hagrees, fun m hm => ?_⟩
    obtain rfl := List.mem_singleton.mp hm
    exact hname ▸ h.namesType he hkind

/-- **The type of a field of a struct** renders a type whose names are those of
types. -/
theorem Models.exists_field (h : s.Models d) (hd : d.WellFormed) {id : EntityId}
    {e : Entity} (he : s.entity? id = some e) {kind : StructKind}
    {declared : List Entity.Field} (hbody : e.body = .struct kind declared)
    {g : Entity.Field} (hg : g ∈ declared) :
    ∃ t, s.Renders t g.type ∧ ∀ m ∈ t.mentions, d.NamesType m.name := by
  obtain ⟨x, hdefines, hdeclared⟩ := h.exists_defines he
  rw [hbody] at hdeclared
  cases hdeclared with | struct hfields =>
  obtain ⟨f, hf, hfg⟩ := exists_left_of_forall₂ hfields.each hg
  refine ⟨f.type, h.renders_field he hbody hg hfg, fun m hm => ?_⟩
  exact hd.namesType hdefines (List.mem_flatMap.mpr ⟨f, hf, hm⟩)

/-- The names in the type of what a container encloses stand for types, if those in
the type of the container do. -/
theorem Models.renders_of_encloses (h : s.Models d) (hd : d.WellFormed) {t : TypeExpr}
    (hty : s.Renders t ty) (ht : ∀ m ∈ t.mentions, d.NamesType m.name) {v : Value}
    {held : Ty} {items : List Value} (hencloses : s.Encloses ty v held items) :
    ∃ t', s.Renders t' held ∧ ∀ m ∈ t'.mentions, d.NamesType m.name := by
  have hreached : ∀ {shape}, s.shape ty = .ok shape →
      ∃ t', s.RendersShape t' shape ∧ ∀ m ∈ t'.mentions, d.NamesType m.name := by
    intro shape hshape
    obtain ⟨t', hreaches, hrenders⟩ := h.dealias_sound hty (dealias_of_shape hshape)
    exact ⟨t', hrenders, hd.namesType_of_reaches hreaches ht⟩
  cases hencloses with
  | list shape =>
    obtain ⟨t', hrenders, hnames⟩ := hreached shape
    cases hrenders with | list helement =>
    exact ⟨_, helement, hnames⟩
  | set shape =>
    obtain ⟨t', hrenders, hnames⟩ := hreached shape
    cases hrenders with | set helement =>
    exact ⟨_, helement, hnames⟩
  | keys shape =>
    obtain ⟨t', hrenders, hnames⟩ := hreached shape
    cases hrenders with | map hkey _ =>
    exact ⟨_, hkey, fun m hm => hnames m (List.mem_append_left _ hm)⟩
  | values shape =>
    obtain ⟨t', hrenders, hnames⟩ := hreached shape
    cases hrenders with | map _ hvalue =>
    exact ⟨_, hvalue, fun m hm => hnames m (List.mem_append_right _ hm)⟩

/-- **No value is hollow at a type whose names stand for types.** -/
theorem Models.not_hollow (h : s.Models d) (hd : d.WellFormed) {t : TypeExpr}
    (hty : s.Renders t ty) (ht : ∀ m ∈ t.mentions, d.NamesType m.name) (v : Value) :
    ¬ s.Hollow ty v := by
  intro hhollow
  induction hhollow generalizing t with
  | empty encloses untagged =>
    obtain ⟨t', hrenders, hnames⟩ := h.renders_of_encloses hd hty ht encloses
    obtain ⟨tag, htag⟩ := h.exists_tag hd hnames hrenders
    exact untagged tag htag
  | inside encloses _ _ ih =>
    obtain ⟨t', hrenders, hnames⟩ := h.renders_of_encloses hd hty ht encloses
    exact ih hrenders hnames

/-! ## Values of a type can be sent -/

/-- **A value of a type can be sent at it, unless it is hollow.** -/
theorem Models.exists_toWire_of_admits (h : s.Models d) (hd : d.WellFormed) {v : Value}
    (hv : s.Admits ty v) (hsolid : ¬ s.Hollow ty v) : ∃ w, v.toWire s ty = .ok w := by
  induction hv with
  | primitive shape exact =>
    obtain ⟨w, hw⟩ := Value.exists_primitiveToWire exact
    exact ⟨w, Value.toWire_eq_ok.mpr ⟨_, shape, .primitive hw⟩⟩
  | list shape each ih =>
    obtain ⟨tag, htag⟩ := (Encloses.list shape).exists_tag each hsolid
    obtain ⟨ws, hws⟩ := Value.exists_itemsToWire fun v hv =>
      ih v hv fun hhollow => hsolid (.inside (.list shape) hv hhollow)
    exact ⟨_, Value.toWire_eq_ok.mpr ⟨_, shape, .list htag (Value.itemsToWire_eq_ok.mp hws)⟩⟩
  | set shape each ih =>
    obtain ⟨tag, htag⟩ := (Encloses.set shape).exists_tag each hsolid
    obtain ⟨ws, hws⟩ := Value.exists_itemsToWire fun v hv =>
      ih v hv fun hhollow => hsolid (.inside (.set shape) hv hhollow)
    exact ⟨_, Value.toWire_eq_ok.mpr ⟨_, shape, .set htag (Value.itemsToWire_eq_ok.mp hws)⟩⟩
  | map shape keys values ihk ihv =>
    obtain ⟨keyTag, hkeyTag⟩ :=
      (Encloses.keys shape).exists_tag (List.forall_mem_map.mpr keys) hsolid
    obtain ⟨valueTag, hvalueTag⟩ :=
      (Encloses.values shape).exists_tag (List.forall_mem_map.mpr values) hsolid
    obtain ⟨ws, hws⟩ := Value.exists_entriesToWire
      (fun x hx => ihk x hx fun hhollow =>
        hsolid (.inside (.keys shape) (List.mem_map_of_mem hx) hhollow))
      fun x hx => ihv x hx fun hhollow =>
        hsolid (.inside (.values shape) (List.mem_map_of_mem hx) hhollow)
    exact ⟨_, Value.toWire_eq_ok.mpr
      ⟨_, shape, .map hkeyTag hvalueTag (Value.entriesToWire_eq_ok.mp hws)⟩⟩
  | item shape body member =>
    exact ⟨_, Value.toWire_eq_ok.mpr ⟨_, shape, .item body member⟩⟩
  | struct shape body known each required single ih =>
    refine Scope.exists_toWire_struct shape body known (fun f hf v hv => ?_) required single
    -- the names in the type of a field stand for types, so `v` is not hollow
    obtain ⟨t, hrenders, hnames⟩ := h.exists_field hd (s.entity?_of_shape shape) body hf
    exact ih f hf v hv (h.not_hollow hd hrenders hnames v)

/-- **A stored default of a linked scope can be sent** at the type of its field. -/
theorem Stage.exists_toWire_default (h : s.Stage d (Entity.Linked s d) s)
    (hd : d.WellFormed) {id : EntityId} {e : Entity} (he : s.entity? id = some e)
    {g : Entity.Field} (hg : g ∈ e.body.valuedFields) {v : Value}
    (hv : g.defaultValue = some v) : ∃ w, v.toWire s g.type = .ok w := by
  obtain ⟨x, f, hdefines, hf, htype, hvalues⟩ := h.stored_default he hg
  rw [hv] at hvalues
  obtain ⟨expr, hvalue⟩ : ∃ expr, d.HasValue f.type expr v := by
    generalize g.default = o at hvalues
    cases hvalues with | some hsome => exact hsome.imp fun _ h => h.2
  refine h.models.exists_toWire hd (hd.hasType_of_hasValue hvalue)
    (fun m hm => hd.namesType hdefines (Definition.Body.mem_typeMentions hf hm))
    (renders_of_erase htype fun r hr => ?_)
  exact h.models.agrees e (List.mem_of_getElem? he) r
    (Entity.Body.mem_typeReferences hg hr)

theorem Stage.defaultsSent (h : s.Stage d (Entity.Linked s d) s) (hd : d.WellFormed) :
    s.DefaultsSent := by
  intro id e kind declared he hbody g hg v hv
  have hvalued : g ∈ e.body.valuedFields := by
    rw [hbody]
    exact hg
  exact h.exists_toWire_default hd he hvalued hv

end Scope

/-! ## Compiled documents -/

namespace Document

variable {d : Document} {name : String} {c : Compiled}

/-- **Whatever is received is a value of its type**, in the scope of a compiled
document. It can be sent again exactly if it is not hollow, and so always at a
type whose names stand for types. -/
theorem admits_of_compile (hok : d.compile name = .ok c) {ty : Ty} {w : Wire} {v : Value}
    (hv : w.toValue c.scope ty = .ok v) :
    c.scope.Admits ty v
      ∧ ((∃ w', v.toWire c.scope ty = .ok w') ↔ ¬ c.scope.Hollow ty v)
      ∧ (c.scope.Knows ty → ∃ w', v.toWire c.scope ty = .ok w') := by
  have hd := wellFormed_of_compile hok
  have hstage := stage_of_compile hok
  have hadmits := Wire.admits_of_toValue (tellsApart_of_compile hok)
    (hstage.defaultsSent hd) hv
  have hsend := hstage.models.exists_toWire_of_admits hd hadmits
  refine ⟨hadmits, ⟨?_, hsend⟩, fun hknows => hsend ?_⟩
  · rintro ⟨w', hw'⟩ hhollow
    exact hhollow.toWire_ne_ok w' hw'
  · obtain ⟨t, hrenders, hnames⟩ := hstage.models.exists_renders hknows
    exact hstage.models.not_hollow hd hrenders hnames v

/-- A document without definitions. -/
def blank : Document := ⟨[], []⟩

theorem compile_blank : blank.compile "blank" = .ok ⟨Scope.empty "blank", []⟩ := rfl

theorem knows_outerType (sets : Bool) : (nestedScope sets).Knows outerType := by
  intro r hr
  obtain rfl := List.mem_singleton.mp hr
  exact ⟨1, _, rfl, rfl⟩

/-- An outer struct sent by somebody else: a field that is not declared, and the
inner struct twice. -/
def strayOuter : Wire :=
  .struct [(9, .bool true), (1, .struct [(1, .i32 3), (1, .i32 4)]), (1, .struct [])]

/-- The stray struct is received as a struct of its type, which is not hollow and can
be sent. -/
theorem admits_stray :
    (nested true).compile "nested" = .ok ⟨nestedScope true, []⟩
      ∧ strayOuter.toValue (nestedScope true) outerType = .ok (outer [("x", .i32 3)])
      ∧ (nestedScope true).Knows outerType
      ∧ (nestedScope true).Admits outerType (outer [("x", .i32 3)])
      ∧ ¬ (nestedScope true).Hollow outerType (outer [("x", .i32 3)])
      ∧ ∃ w, (outer [("x", .i32 3)]).toWire (nestedScope true) outerType = .ok w := by
  have hv : strayOuter.toValue (nestedScope true) outerType
      = .ok (outer [("x", .i32 3)]) := rfl
  have hknows := knows_outerType true
  obtain ⟨hadmits, hsolid, hsent⟩ := admits_of_compile (compile_nested true) hv
  exact ⟨compile_nested true, hv, hknows, hadmits, hsolid.mp (hsent hknows), hsent hknows⟩

/-- **What is received need not be sent again**: an empty list is received at a
type whose elements are not defined. -/
theorem exists_hollow_blank :
    ∃ (c : Compiled) (ty : Ty) (w : Wire) (v : Value), blank.compile "blank" = .ok c
      ∧ w.toValue c.scope ty = .ok v ∧ ∀ w', v.toWire c.scope ty ≠ .ok w' := by
  refine ⟨_, .list (.named ⟨"Nope", .unknown, none⟩), .list .i32 [], .list [],
    compile_blank, rfl, ?_⟩
  rintro w' ⟨⟩

end Document

end Interlink
