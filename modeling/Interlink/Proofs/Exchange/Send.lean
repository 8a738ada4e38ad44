import Interlink.Proofs.Document.Typed
import Interlink.Proofs.Exchange.Rules
import Interlink.Proofs.Linked

/-!
# Stored values can be sent

Compiling and sending look at types independently of each other: one coerces
loose values, the other lowers finished ones. They agree, in that every value
which compiling stores can be sent at the type it is stored for
(`Document.exists_toWire_of_compile`). What passes between them is
`Document.HasType`: stored values have their types, and what has a type can be
sent at it (`Scope.Models.exists_toWire`).

A container asks for the tag of its element type even when it is empty, so it
is not enough that the values in it can be sent. The types in a well-formed
document all have tags, since their names stand for types and typedefs come to
an end (`Scope.Models.exists_tag`).
-/

namespace Interlink

/-! ## Lists, maps and structs -/

namespace Value

variable {s : Scope}

theorem exists_primitiveToWire {p : Primitive} {v : Value}
    (h : v.primitive? = some p) : ∃ w, primitiveToWire p v = .ok w := by
  cases v <;> cases h <;> exact ⟨_, rfl⟩

theorem exists_itemsToWire {element : Ty} {items : List Value}
    (h : ∀ v ∈ items, ∃ w, v.toWire s element = .ok w) :
    ∃ ws, itemsToWire s element items = .ok ws := by
  induction items with
  | nil => exact ⟨[], rfl⟩
  | cons v items ih =>
    obtain ⟨⟨w, hw⟩, hrest⟩ := List.forall_mem_cons.mp h
    obtain ⟨ws, hws⟩ := ih hrest
    refine ⟨w :: ws, ?_⟩
    rw [itemsToWire, hw, hws]
    rfl

theorem exists_entriesToWire {key value : Ty} {entries : List (Value × Value)}
    (hkeys : ∀ x ∈ entries, ∃ w, x.1.toWire s key = .ok w)
    (hvalues : ∀ x ∈ entries, ∃ w, x.2.toWire s value = .ok w) :
    ∃ ws, entriesToWire s key value entries = .ok ws := by
  induction entries with
  | nil => exact ⟨[], rfl⟩
  | cons x entries ih =>
    obtain ⟨⟨k, hk⟩, hkeys⟩ := List.forall_mem_cons.mp hkeys
    obtain ⟨w, hw⟩ := hvalues x List.mem_cons_self
    obtain ⟨ws, hws⟩ := ih hkeys fun y hy => hvalues y (List.mem_cons_of_mem _ hy)
    refine ⟨(k, w) :: ws, ?_⟩
    rw [entriesToWire, hk, hw, hws]
    rfl

end Value

/-! ## Types that are exchanged -/

namespace Document

variable {d : Document} {t t' : TypeExpr}

/-- A name that is reached is not that of a typedef. -/
theorem Reaches.defines_final (h : d.Reaches t t') {m : Mention}
    (ht : t' = .named m) :
    ∃ body, d.Defines m.name body ∧ ∀ target, body ≠ .typedef target := by
  induction h with
  | named hdefines hfinal =>
    cases ht
    exact ⟨_, hdefines, hfinal⟩
  | typedef _ _ ih => exact ih ht
  | _ => cases ht

/-- The names in a type that is reached stand for types. -/
theorem WellFormed.namesType_of_reaches (hd : d.WellFormed)
    (hreaches : d.Reaches t t') (ht : ∀ m ∈ t.mentions, d.NamesType m.name) :
    ∀ m ∈ t'.mentions, d.NamesType m.name := by
  induction hreaches with
  | typedef hdefines _ ih => exact ih fun m hm => hd.namesType hdefines hm
  | _ => exact ht

end Document

namespace Scope

variable {s : Scope} {d : Document} {t : TypeExpr} {ty : Ty}

theorem shape_eq_ok {shape : Shape} (h : s.dealias ty s.name = .ok shape) :
    s.shape ty = .ok shape := by
  unfold Scope.shape
  rw [h]

/-- **Types have tags**, if their names stand for types. -/
theorem Models.exists_tag (h : s.Models d) (hd : d.WellFormed)
    (ht : ∀ m ∈ t.mentions, d.NamesType m.name) (hty : s.Renders t ty) :
    ∃ tag, ty.tag s = .ok tag := by
  obtain ⟨t', hreaches⟩ := hd.exists_reaches h ht
  obtain ⟨shape, hok, hshape⟩ := h.dealias_complete s.name hreaches hty
  have htag : ∃ tag, shape.tag = .ok tag := by
    cases hshape with
    | @entity m id e he hname =>
      obtain ⟨body, hdefines, htype⟩ :=
        hd.namesType_of_reaches hreaches ht m (List.mem_singleton_self m)
      obtain ⟨body', hdefines', hfinal⟩ := hreaches.defines_final rfl
      cases hd.defines_unique hdefines hdefines'
      have hdeclared := h.declaredAs he (hname.symm ▸ hdefines)
      unfold Shape.tag
      dsimp only
      generalize e.body = b at hdeclared
      cases hdeclared with
      | const => cases htype
      | typedef => exact absurd rfl (hfinal _)
      | service => cases htype
      | _ => exact ⟨_, rfl⟩
    | _ => exact ⟨_, rfl⟩
  obtain ⟨tag, htag⟩ := htag
  refine ⟨tag, ?_⟩
  unfold Ty.tag
  rw [shape_eq_ok hok]
  exact htag

/-! ## What has a type can be sent -/

/-- **A struct can be sent** if its fields are declared ones and can be, those that
are required are set, and a union has one. -/
theorem exists_toWire_struct {id : EntityId} {e : Entity} {kind : StructKind}
    {declared : List Entity.Field} {fields : List (String × Value)}
    (shape : s.shape ty = .ok (.entity id e)) (body : e.body = .struct kind declared)
    (known : ∀ x ∈ fields, x.1 ∈ declared.map Entity.Field.name)
    (sendable : ∀ f ∈ declared, ∀ v, fields.lookup f.name = some v →
      ∃ w, v.toWire s f.type = .ok w)
    (required : ∀ f ∈ declared, f.isRequired = true → f.name ∈ fields.map Prod.fst)
    (single : kind = .union → fields.length = 1) :
    ∃ w, (Value.struct e.name fields).toWire s ty = .ok w := by
  have hsend : ∀ f ∈ declared, ∃ o,
      f.send e.name (fields.map fun x => (x.1, x.2.toWire s)) = .ok o := by
    intro f hf
    simp only [Entity.Field.send_eq_ok, lookup_map_snd]
    cases hlookup : fields.lookup f.name with
    | some v =>
      obtain ⟨w, hw⟩ := sendable f hf v hlookup
      exact ⟨_, .inl ⟨_, w, rfl, hw, rfl⟩⟩
    | none =>
      refine ⟨none, .inr ⟨rfl, Bool.eq_false_iff.mpr fun hrequired => ?_, rfl⟩⟩
      have hset := lookup_isSome_iff_mem.mpr (required f hf hrequired)
      rw [hlookup] at hset
      cases hset
  obtain ⟨sent, hsent⟩ := exists_mapM_eq_ok.mpr hsend
  exact ⟨_, Value.toWire_eq_ok.mpr
    ⟨_, shape, .struct body known single (mapM_eq_ok.mp hsent)⟩⟩

/-- **A struct can be sent** if what was set has the types of its fields, and what the
document requires was set. -/
theorem Models.exists_toWire_struct (h : s.Models d) (hd : d.WellFormed)
    {id : EntityId} {e : Entity} (hshape : s.shape ty = .ok (.entity id e))
    {kind : StructKind} {numbered : List Entity.Field}
    (hbody : e.body = .struct kind numbered) {declared : List Field}
    (hdefines : d.Defines e.name (.struct kind declared)) {fields : List (String × Value)}
    (hknown : ∀ x ∈ fields, (Field.named? declared x.1).isSome)
    (heach : ∀ x ∈ fields, ∀ f, Field.named? declared x.1 = some f →
      ∀ ty, s.Renders f.type ty → ∃ w, x.2.toWire s ty = .ok w)
    (hsingle : kind = .union → fields.length = 1)
    (hrequired : kind ≠ .union → ∀ f ∈ declared,
      f.requiredness = .required → f.name ∈ fields.map Prod.fst) :
    ∃ w, (Value.struct e.name fields).toWire s ty = .ok w := by
  have he := s.entity?_of_shape hshape
  have hdeclared := h.declaredAs he hdefines
  rw [hbody] at hdeclared
  cases hdeclared with | struct hfields =>
  have hnodup : (declared.map Field.name).Nodup := by
    obtain ⟨x, hx, -, hx'⟩ := hdefines
    exact (hd.fields x hx declared (by rw [hx']; exact List.mem_singleton_self _)).names
  refine Scope.exists_toWire_struct hshape hbody (fun x hx => ?_) (fun g hg v hv => ?_)
    (fun g hg hmarked => ?_) hsingle
  · obtain ⟨f, hf⟩ := Option.isSome_iff_exists.mp (hknown x hx)
    obtain ⟨g, hg, hfg⟩ :=
      exists_right_of_forall₂ hfields.each (List.mem_of_find?_eq_some hf)
    have hname : f.name = x.1 := by simpa using List.find?_some hf
    rw [← hname, ← hfg.name]
    exact List.mem_map_of_mem hg
  · obtain ⟨f, hf, hfg⟩ := exists_left_of_forall₂ hfields.each hg
    refine heach _ (mem_of_lookup_eq_some hv) f ?_ g.type (h.renders_field he hbody hg hfg)
    rw [hfg.name]
    exact find?_eq_some_of_mem hnodup hf
  · obtain ⟨f, hf, hfg⟩ := exists_left_of_forall₂ hfields.each hg
    have hreq : f.requiredness = .required := by
      rw [← hfg.requiredness]
      exact beq_iff_eq.mp hmarked
    -- no field of a union is required
    have hkind : kind ≠ .union := by
      rintro rfl
      exact (hd.unions e.name declared hdefines f hf).1 hreq
    rw [hfg.name]
    exact hrequired hkind f hf hreq

/-- The items of a sequence can be sent, with the tag of their type. -/
theorem Models.exists_sequence (h : s.Models d) (hd : d.WellFormed)
    (hty : s.Renders t ty) (ht : ∀ m ∈ t.mentions, d.NamesType m.name)
    {items : List Value} (heach : ∀ v ∈ items, ∃ w, v.toWire s ty = .ok w) :
    ∃ tag ws, ty.tag s = .ok tag ∧ Value.itemsToWire s ty items = .ok ws := by
  obtain ⟨tag, htag⟩ := h.exists_tag hd ht hty
  obtain ⟨ws, hws⟩ := Value.exists_itemsToWire heach
  exact ⟨tag, ws, htag, hws⟩

/-- **A value that has a type can be sent at it.** -/
theorem Models.exists_toWire (h : s.Models d) (hd : d.WellFormed) {v : Value}
    (hv : d.HasType t v) (ht : ∀ m ∈ t.mentions, d.NamesType m.name)
    (hty : s.Renders t ty) : ∃ w, v.toWire s ty = .ok w := by
  induction hv generalizing ty with
  | primitive type exact =>
    obtain ⟨shape, hok, hshape⟩ := h.dealias_complete s.name type hty
    cases hshape
    rw [Value.toWire, shape_eq_ok hok]
    exact Value.exists_primitiveToWire exact
  | list type _ ih =>
    obtain ⟨shape, hok, hshape⟩ := h.dealias_complete s.name type hty
    cases hshape with | list helement =>
    have helements := hd.namesType_of_reaches type ht
    obtain ⟨tag, ws, htag, hws⟩ := h.exists_sequence hd helement helements
      fun v hv => ih v hv helements helement
    rw [Value.toWire, shape_eq_ok hok]
    dsimp only
    rw [htag, hws]
    exact ⟨_, rfl⟩
  | set type _ ih =>
    obtain ⟨shape, hok, hshape⟩ := h.dealias_complete s.name type hty
    cases hshape with | set helement =>
    have helements := hd.namesType_of_reaches type ht
    obtain ⟨tag, ws, htag, hws⟩ := h.exists_sequence hd helement helements
      fun v hv => ih v hv helements helement
    rw [Value.toWire, shape_eq_ok hok]
    dsimp only
    rw [htag, hws]
    exact ⟨_, rfl⟩
  | map type _ _ ihk ihv =>
    obtain ⟨shape, hok, hshape⟩ := h.dealias_complete s.name type hty
    cases hshape with | map hkey hvalue =>
    have hnames := hd.namesType_of_reaches type ht
    have hkeys := fun m hm => hnames m (List.mem_append_left _ hm)
    have hvalues := fun m hm => hnames m (List.mem_append_right _ hm)
    obtain ⟨keyTag, hkeyTag⟩ := h.exists_tag hd hkeys hkey
    obtain ⟨valueTag, hvalueTag⟩ := h.exists_tag hd hvalues hvalue
    obtain ⟨ws, hws⟩ := Value.exists_entriesToWire
      (fun x hx => ihk x hx hkeys hkey) fun x hx => ihv x hx hvalues hvalue
    rw [Value.toWire, shape_eq_ok hok]
    dsimp only
    rw [hkeyTag, hvalueTag, hws]
    exact ⟨_, rfl⟩
  | item type member =>
    obtain ⟨id, e, hok, he, rfl, hdeclared⟩ := h.reachesBody_complete s.name type hty
    generalize hbody : e.body = b at hdeclared
    cases hdeclared with | enum _ hnumbers =>
    rw [← hnumbers.map_value] at member
    obtain ⟨item, hitem, hn⟩ := List.mem_map.mp member
    obtain rfl := Int32.toInt_inj.mp hn
    exact ⟨_, Value.toWire_eq_ok.mpr
      ⟨_, shape_eq_ok hok, .item hbody (List.mem_map_of_mem hitem)⟩⟩
  | struct type known _ single required ih =>
    obtain ⟨id, e, hok, he, rfl, hdeclared⟩ := h.reachesBody_complete s.name type hty
    generalize hbody : e.body = b at hdeclared
    cases hdeclared with | struct hfields =>
    obtain ⟨m, hm, -, hdefines⟩ := type
    refine h.exists_toWire_struct hd (shape_eq_ok hok) hbody hdefines known
      (fun x hx f hf ty hty => ih x hx f hf (fun m hm => ?_) hty) single required
    exact hd.namesType hdefines
      (List.mem_flatMap.mpr ⟨f, List.mem_of_find?_eq_some hf, hm⟩)

end Scope

/-! ## Stored values -/

namespace Document

variable {d : Document} {name : String} {c : Compiled}

/-- **Stored values can be sent.** In the scope of a compiled document every
constant has a value that can be sent at its type, and so has every field or
parameter that has a default. -/
theorem exists_toWire_of_compile (hok : d.compile name = .ok c) :
    (∀ id e ty init stored, c.scope.entity? id = some e →
        e.body = .const ty init stored →
        ∃ v w, stored = some v ∧ v.toWire c.scope ty = .ok w)
      ∧ ∀ id e, c.scope.entity? id = some e → ∀ f ∈ e.body.valuedFields,
        ∀ init, f.default = some init →
        ∃ v w, f.defaultValue = some v ∧ v.toWire c.scope f.type = .ok w := by
  have hd := wellFormed_of_compile hok
  have hstage := stage_of_compile hok
  have h := hstage.models
  constructor
  · intro id e ty init stored he hbody
    obtain ⟨t, expr, v, hdefines, htype, -, hstored, hv⟩ :=
      hstage.stored_const he hbody
    have hagrees := h.agrees e (List.mem_of_getElem? he)
    rw [hbody] at hagrees
    obtain ⟨w, hw⟩ := h.exists_toWire hd (hd.hasType_of_hasValue hv)
      (fun m hm => hd.namesType hdefines hm) (Scope.renders_of_erase htype hagrees)
    exact ⟨v, w, hstored, hw⟩
  · intro id e he g hg init hinit
    obtain ⟨x, f, hdefines, hf, htype, hvalues⟩ := hstage.stored_default he hg
    have hagrees := h.agrees e (List.mem_of_getElem? he)
    rw [hinit] at hvalues
    generalize g.defaultValue = stored at hvalues ⊢
    cases hvalues with | @some _ v hsome =>
    obtain ⟨expr, -, hv⟩ := hsome
    obtain ⟨w, hw⟩ := h.exists_toWire hd (hd.hasType_of_hasValue hv)
      (fun m hm => hd.namesType hdefines (Definition.Body.mem_typeMentions hf hm))
      (Scope.renders_of_erase htype fun r hr =>
        hagrees r (Entity.Body.mem_typeReferences hg hr))
    exact ⟨v, w, rfl, hw⟩

/-- The stored values of the small document can be sent. -/
theorem exists_toWire_sample :
    sample.compile "sample" = .ok ⟨sampleScope, []⟩
      ∧ (∀ id e ty init stored, sampleScope.entity? id = some e →
        e.body = .const ty init stored →
        ∃ v w, stored = some v ∧ v.toWire sampleScope ty = .ok w)
      ∧ ∀ id e, sampleScope.entity? id = some e → ∀ f ∈ e.body.valuedFields,
        ∀ init, f.default = some init →
        ∃ v w, f.defaultValue = some v ∧ v.toWire sampleScope f.type = .ok w :=
  ⟨compile_sample, exists_toWire_of_compile compile_sample⟩

end Document

end Interlink
