import Interlink.Proofs.Acceptance

/-!
# What a compiled scope is like

Everything in the scope of a compiled document is settled
(`Scope.IsLinked`): its entities are resolved, every reference is bound to
what the scope finds under its name, values are there where they should be, and
constants, typedefs and services do not lead back to themselves.

This is said of the scope alone. Going round in circles is a matter of handles
here, not of names; the two agree, since a bound reference leads to the entity
with its name (`Scope.acyclic_of_names`).

The values that are stored were found while the scope was still being linked,
in whatever order constants mention each other. They are what evaluating their
expressions in the linked scope gives (`Scope.Evaluates`): both are what the
document says, at `Scope.Stage.stored_const` and `Scope.Stage.stored_default`.
-/

namespace Interlink

/-- The fields of a body that have the values of their defaults stored: its
fields, or the parameters of its functions. -/
def Entity.Body.valuedFields : Entity.Body → List Entity.Field
  | .struct _ fields => fields
  | .service functions _ _ => functions.flatMap Entity.Function.parameters
  | _ => []

namespace Scope

/-! ## Bound references -/

/-- **A reference is resolved** to the entity that the scope finds under its
name, and that is of one of some kinds. -/
def Resolves (s : Scope) (kinds : Entity.Kind → Bool) (r : Reference EntityId) :
    Prop :=
  ∃ id e, s.named? r.name = some (id, e) ∧ kinds e.kind = true
    ∧ r.target = some id

/-- **A reference to a constant is resolved**: to the constant that the scope
finds under its name, or to an item of the enum that it finds under the part of
the name before the last dot, with the value of the item that the part after it
names. -/
def ResolvesConst (s : Scope) (r : Reference ConstTarget) : Prop :=
  (∃ id e, s.named? r.name = some (id, e) ∧ e.kind = .constant
      ∧ r.target = some (.const id))
    ∨ ∃ enumName itemName id e items item,
      r.name = qualified enumName itemName ∧ '.' ∉ itemName.toList
        ∧ s.named? enumName = some (id, e) ∧ e.body = .enum items
        ∧ (items.find? fun i => i.name == itemName) = some item
        ∧ r.target = some (.item id item.value)

/-! ## What leads to what -/

/-- A constant refers to a constant. -/
def ConstantRefers (s : Scope) (a b : EntityId) : Prop :=
  ∃ e type init value, s.entity? a = some e ∧ e.body = .const type init value
    ∧ ∃ r ∈ init.references, r.target = some (.const b)

/-- A typedef is directly another name for an entity. -/
def TypedefRefers (s : Scope) (a b : EntityId) : Prop :=
  ∃ e r, s.entity? a = some e ∧ e.body = .typedef (.named r)
    ∧ r.target = some b

/-- A service extends a service. -/
def ServiceExtends (s : Scope) (a b : EntityId) : Prop :=
  ∃ e r, s.entity? a = some e ∧ e.body.parent? = some r ∧ r.target = some b

/-- **A linked scope.** -/
structure IsLinked (s : Scope) : Prop where
  /-- All entities are resolved. -/
  resolved : ∀ id e, s.entity? id = some e → e.resolved = true
  /-- References to types lead to types. -/
  types : ∀ id e, s.entity? id = some e →
    ∀ r ∈ e.body.typeReferences, s.Resolves Entity.Kind.isType r
  /-- References to constants lead to constants or enum items. -/
  constants : ∀ id e, s.entity? id = some e →
    ∀ r ∈ e.body.constReferences, s.ResolvesConst r
  /-- Services extend services. -/
  parents : ∀ id e, s.entity? id = some e →
    ∀ r ∈ e.body.parent?, s.Resolves (fun kind => kind == .service) r
  /-- Constants have values. -/
  values : ∀ id e type init value, s.entity? id = some e →
    e.body = .const type init value → value.isSome = true
  /-- Fields and parameters have the value of a default exactly if they have a
  default. -/
  defaults : ∀ id e, s.entity? id = some e →
    ∀ f ∈ e.body.valuedFields, f.defaultValue.isSome = f.default.isSome
  /-- No constant is made of itself. -/
  constantsEnd : Acyclic s.ConstantRefers
  /-- No typedef stands for itself. -/
  typedefsEnd : Acyclic s.TypedefRefers
  /-- No service extends itself. -/
  servicesEnd : Acyclic s.ServiceExtends

/-! ## Bound references are resolved -/

variable {s : Scope} {d : Document} {id : EntityId} {e : Entity}

theorem IsArena.resolves_of_boundTo (h : s.IsArena) {kinds : Entity.Kind → Bool}
    {r : Reference EntityId} (hr : s.BoundTo kinds r) : s.Resolves kinds r := by
  obtain ⟨id, e, htarget, he, hname, hkind⟩ := hr
  exact ⟨id, e, h.named?_eq_some.mpr ⟨he, hname⟩, hkind, htarget⟩

theorem Models.resolvesConst_of_boundConst (h : s.Models d)
    {r : Reference ConstTarget} (hr : s.BoundConst r) : s.ResolvesConst r := by
  obtain ⟨target, htarget, hmeans⟩ := hr
  cases target with
  | const id =>
    obtain ⟨e, he, hname, hkind⟩ := hmeans
    exact .inl ⟨id, e, h.arena.named?_eq_some.mpr ⟨he, hname⟩, hkind, htarget⟩
  | item id n =>
    -- an item that is in the enum is the one found under its name
    obtain ⟨e, items, item, he, hbody, hitem, hname, hdot, rfl⟩ := hmeans
    refine .inr ⟨e.name, item.name, id, e, items, item, hname, hdot,
      h.arena.named?_eq_some.mpr ⟨he, rfl⟩, hbody, ?_, htarget⟩
    exact find?_eq_some_of_mem (h.nodup_items he hbody) hitem

/-! ## Circles of handles are circles of names -/

/-- Handles do not go round in circles if their names do not. -/
theorem acyclic_of_names {step : EntityId → EntityId → Prop}
    {named : String → String → Prop} (h : Acyclic named)
    (hstep : ∀ a b, step a b → named (s.nameOf a) (s.nameOf b)) : Acyclic step :=
  fun _ hcycle => h _ (hcycle.lift s.nameOf hstep)

/-- A constant that refers to a constant mentions its name. -/
theorem Models.constantMentions_of_refers (h : s.Models d)
    (hbound : s.ConstantsBound) {a b : EntityId} (hab : s.ConstantRefers a b) :
    d.ConstantMentions (s.nameOf a) (s.nameOf b) := by
  obtain ⟨e, type, init, value, he, hbody, r, hr, htarget⟩ := hab
  obtain ⟨target, htarget', hmeans⟩ := hbound a e type init value he hbody r hr
  rw [htarget] at htarget'
  cases htarget'
  obtain ⟨e', he', hname, -⟩ := hmeans
  obtain ⟨t, expr, hdefines, -, hinit⟩ := h.renders_const he hbody
  rw [nameOf_eq he, nameOf_eq he', hname]
  refine ⟨t, expr, hdefines, ?_⟩
  rw [← Init.map_name_references hinit]
  exact List.mem_map_of_mem hr

/-- A typedef that refers to an entity mentions its name. -/
theorem Models.typedefMentions_of_refers (h : s.Models d)
    (hbound : ∀ id e, s.entity? id = some e → e.body.Bound s) {a b : EntityId}
    (hab : s.TypedefRefers a b) : d.TypedefMentions (s.nameOf a) (s.nameOf b) := by
  obtain ⟨e, r, he, hbody, htarget⟩ := hab
  obtain ⟨t, hdefines, hty⟩ := h.renders_typedef he hbody
  have htypes := (hbound a e he).types
  rw [hbody] at htypes
  obtain ⟨id, e', htarget', he', hname, -⟩ := htypes r (List.mem_singleton_self r)
  rw [htarget] at htarget'
  cases htarget'
  cases hty with | @named m _ hsame _ =>
  rw [nameOf_eq he, nameOf_eq he', hname]
  exact ⟨m, hdefines, hsame.symm⟩

/-- A service that extends a service mentions its name. -/
theorem Models.extends_of_serviceExtends (h : s.Models d)
    (hparents : s.ParentsBound) {a b : EntityId} (hab : s.ServiceExtends a b) :
    d.Extends (s.nameOf a) (s.nameOf b) := by
  obtain ⟨e, r, he, hr, htarget⟩ := hab
  obtain ⟨id, e', htarget', he', hname, -⟩ := hparents a e he r hr
  rw [htarget] at htarget'
  cases htarget'
  rw [nameOf_eq he, nameOf_eq he', hname]
  exact (h.extends_iff he).mpr ⟨r, hr, rfl⟩

end Scope

/-! ## Values that are stored -/

/-- **The fields with stored values** come from fields of the definition, and
have the values of their defaults. -/
theorem Definition.Body.DeclaredAs.exists_valuedField {d : Document}
    {x : Definition.Body} {b : Entity.Body} (hdeclared : x.DeclaredAs b)
    (hvalued : x.ValuedAs d b) {g : Entity.Field} (hg : g ∈ b.valuedFields) :
    ∃ f ∈ x.valuedFields, f.DeclaredAs g ∧ Field.ValuedAs d f g := by
  cases hdeclared with
  | struct hfields => exact exists_left_of_forall₂_and hfields.each hvalued hg
  | service hfunctions _ =>
    obtain ⟨k, hk, hg⟩ := List.mem_flatMap.mp hg
    obtain ⟨h, hh, hdeclares, hvalues⟩ :=
      exists_left_of_forall₂_and hfunctions hvalued hk
    obtain ⟨f, hf, hboth⟩ :=
      exists_left_of_forall₂_and hdeclares.parameters.each hvalues hg
    exact ⟨f, List.mem_flatMap.mpr ⟨h, hh, hf⟩, hboth⟩
  | _ => exact absurd hg List.not_mem_nil

/-- **The default of a field and its value** are there together, and belong
together. -/
theorem Field.DeclaredAs.rel_default {d : Document} {f : Field}
    {g : Entity.Field} (hdeclared : f.DeclaredAs g)
    (hvalued : Field.ValuedAs d f g) :
    Option.Rel (fun init v =>
        ∃ expr, init.erase = expr.toInit ∧ d.HasValue f.type expr v)
      g.default g.defaultValue := by
  have hdefault := hdeclared.default
  unfold Field.ValuedAs at hvalued
  generalize f.default = o at hdefault hvalued
  generalize g.defaultValue = o' at hvalued ⊢
  cases hvalued with
  | none =>
    rw [Option.map_eq_none_iff.mp hdefault]
    exact .none
  | @some expr v hv =>
    obtain ⟨init, hinit, herase⟩ := Option.map_eq_some_iff.mp hdefault
    rw [hinit]
    exact .some ⟨expr, herase, hv⟩

namespace Scope.Stage

variable {s : Scope} {d : Document} {id : EntityId} {e : Entity}

/-- **The value of a constant is stored**, as the document has it. -/
theorem stored_const (h : s.Stage d (Entity.Linked s d) s)
    (he : s.entity? id = some e) {ty : Ty} {init : Init} {stored : Option Value}
    (hbody : e.body = .const ty init stored) :
    ∃ t expr v, d.Defines e.name (.const t expr) ∧ ty.erase = t.toTy
      ∧ init.erase = expr.toInit ∧ stored = some v ∧ d.HasValue t expr v := by
  obtain ⟨x, hx, hdeclared⟩ := h.models.exists_defines he
  obtain ⟨-, hvalued⟩ := (h.each id e he).settled x hx
  rw [hbody] at hdeclared hvalued
  cases hdeclared with | @const t expr _ _ _ htype hinit =>
  obtain ⟨v, hstored, hv⟩ := hvalued
  exact ⟨t, expr, v, hx, htype, hinit, hstored, hv⟩

/-- **So are the values of defaults.** -/
theorem stored_default (h : s.Stage d (Entity.Linked s d) s)
    (he : s.entity? id = some e) {g : Entity.Field}
    (hg : g ∈ e.body.valuedFields) :
    ∃ x f, d.Defines e.name x ∧ f ∈ x.valuedFields
      ∧ g.type.erase = f.type.toTy
      ∧ Option.Rel (fun init v =>
          ∃ expr, init.erase = expr.toInit ∧ d.HasValue f.type expr v)
        g.default g.defaultValue := by
  obtain ⟨x, hx, hdeclared⟩ := h.models.exists_defines he
  obtain ⟨-, hvalued⟩ := (h.each id e he).settled x hx
  obtain ⟨f, hf, hdeclares, hvalues⟩ := hdeclared.exists_valuedField hvalued hg
  exact ⟨x, f, hx, hf, hdeclares.type, hdeclares.rel_default hvalues⟩

end Scope.Stage

/-- The types of fields whose defaults are evaluated are among those of the
definition. -/
theorem Definition.Body.mem_typeMentions {x : Definition.Body} {f : Field}
    (hf : f ∈ x.valuedFields) {m : Mention} (hm : m ∈ f.type.mentions) :
    m ∈ x.typeMentions := by
  cases x with
  | struct kind fields => exact List.mem_flatMap.mpr ⟨f, hf, hm⟩
  | service functions parent =>
    obtain ⟨g, hg, hf⟩ := List.mem_flatMap.mp hf
    exact List.mem_flatMap.mpr ⟨g, hg, List.mem_append_left _
      (List.mem_append_left _ (List.mem_flatMap.mpr ⟨f, hf, hm⟩))⟩
  | _ => exact absurd hf List.not_mem_nil

namespace Entity.Body

variable {b : Entity.Body} {f : Entity.Field}

theorem mem_typeReferences (hf : f ∈ b.valuedFields) {r : Reference EntityId}
    (hr : r ∈ f.type.references) : r ∈ b.typeReferences := by
  cases b with
  | struct kind fields => exact List.mem_flatMap.mpr ⟨f, hf, hr⟩
  | service functions parent methods =>
    obtain ⟨g, hg, hf⟩ := List.mem_flatMap.mp hf
    refine List.mem_flatMap.mpr ⟨g, hg, List.mem_append_left _
      (List.mem_append_left _ (List.mem_flatMap.mpr ⟨f, hf, hr⟩))⟩
  | _ => exact absurd hf List.not_mem_nil

theorem mem_constReferences (hf : f ∈ b.valuedFields) {r : Reference ConstTarget}
    (hr : r ∈ f.defaultReferences) : r ∈ b.constReferences := by
  cases b with
  | struct kind fields => exact List.mem_flatMap.mpr ⟨f, hf, hr⟩
  | service functions parent methods =>
    obtain ⟨g, hg, hf⟩ := List.mem_flatMap.mp hf
    exact List.mem_flatMap.mpr ⟨g, hg, List.mem_append_left _
      (List.mem_flatMap.mpr ⟨f, hf, hr⟩)⟩
  | _ => exact absurd hf List.not_mem_nil

end Entity.Body

namespace Document

variable {d : Document} {name : String} {c : Compiled}

/-- **Every entity of a compiled document is linked.** -/
theorem stage_of_compile (hok : d.compile name = .ok c) :
    c.scope.Stage d (Entity.Linked c.scope d) c.scope := by
  obtain ⟨-, s, hs, hlink⟩ := compile_eq_ok.mp hok
  exact Scope.link_sound (Scope.models_of_defineAll hs) hlink

/-- **The scope of a compiled document is linked.** -/
theorem isLinked_of_compile (hok : d.compile name = .ok c) : c.scope.IsLinked := by
  have hd := wellFormed_of_compile hok
  have hstage := stage_of_compile hok
  have h := hstage.models
  have hbound : ∀ id e, c.scope.entity? id = some e → e.body.Bound c.scope :=
    fun id e he => (hstage.each id e he).bound.1
  have hconstants : c.scope.ConstantsBound := fun id e type init value he hbody r hr =>
    (hbound id e he).constants r (by rw [hbody]; exact hr)
  constructor
  · exact fun id e he => (hstage.each id e he).resolved
  · exact fun id e he r hr =>
      h.arena.resolves_of_boundTo ((hbound id e he).types r hr)
  · exact fun id e he r hr =>
      h.resolvesConst_of_boundConst ((hbound id e he).constants r hr)
  · exact fun id e he r hr =>
      h.arena.resolves_of_boundTo ((hbound id e he).parent r hr)
  · intro id e type init value he hbody
    obtain ⟨-, -, v, -, -, -, rfl, -⟩ := hstage.stored_const he hbody
    rfl
  · intro id e he g hg
    obtain ⟨_, _, -, -, -, hvalues⟩ := hstage.stored_default he hg
    generalize g.default = o at hvalues
    generalize g.defaultValue = o' at hvalues
    cases hvalues <;> rfl
  -- the document has no circles, so the handles have none
  · exact Scope.acyclic_of_names hd.constantsEnd fun _ _ =>
      h.constantMentions_of_refers hconstants
  · exact Scope.acyclic_of_names hd.typedefsEnd fun _ _ =>
      h.typedefMentions_of_refers hbound
  · exact Scope.acyclic_of_names hd.servicesEnd fun _ _ =>
      h.extends_of_serviceExtends fun id e he => (hbound id e he).parent

/-- The scope of the small document is linked. -/
theorem isLinked_sample :
    sample.compile "sample" = .ok ⟨sampleScope, []⟩ ∧ sampleScope.IsLinked :=
  ⟨compile_sample, isLinked_of_compile compile_sample⟩

end Document

/-! ## Values satisfy their equations -/

/-- **An expression comes to a value at a type** in a scope: its loose value,
with the stored value in the place of every constant that it refers to, is
coerced to that value, whoever it is for. -/
def Scope.Evaluates (s : Scope) (ty : Ty) (init : Init) (v : Value) : Prop :=
  ∀ site : Site, ∃ loose,
    init.loose s site.owner Scope.storedValue = .ok loose
      ∧ loose.coerce s site ty = .ok v

/-- **What an expression comes to** in a scope with all values stored is what
the document says. -/
theorem Scope.Models.evaluates_of_hasValue {s : Scope} {d : Document}
    (h : s.Models d) (hvalued : s.ConstantsValued d) {t : TypeExpr} {ty : Ty}
    (hty : ty.erase = t.toTy) (hagrees : ∀ r ∈ ty.references, s.Agrees r)
    {expr : ConstExpr} {init : Init} (hinit : init.erase = expr.toInit)
    (hbound : ∀ r ∈ init.references, s.BoundConst r) {v : Value}
    (hv : d.HasValue t expr v) : s.Evaluates ty init v := by
  intro site
  refine Init.evaluate_eq_ok_iff_coerce.mp ?_
  exact (Init.evaluate_eq_ok h site hinit (renders_of_erase hty hagrees) hbound
    fun r hr => hvalued.supplies h (hbound r hr)).mpr hv

namespace Document

variable {d : Document} {name : String} {c : Compiled}

/-- All constants of a compiled document have their values stored. -/
theorem constantsValued_of_compile (hok : d.compile name = .ok c) :
    c.scope.ConstantsValued d := by
  have hall : c.scope.Stage d (Entity.DoneIf c.scope d fun _ => true) c.scope :=
    (stage_of_compile hok).imp fun e hlinked _ => hlinked
  exact hall.constantsValued rfl

/-- **Stored values satisfy their equations.** In the scope of a compiled
document the value of a constant is what its expression comes to at its type,
and so are the values of the defaults of fields and parameters. -/
theorem evaluates_of_compile (hok : d.compile name = .ok c) :
    (∀ id e ty init stored, c.scope.entity? id = some e →
        e.body = .const ty init stored →
        ∃ v, stored = some v ∧ c.scope.Evaluates ty init v)
      ∧ ∀ id e, c.scope.entity? id = some e → ∀ f ∈ e.body.valuedFields,
        Option.Rel (c.scope.Evaluates f.type) f.default f.defaultValue := by
  have hstage := stage_of_compile hok
  have h := hstage.models
  have hvalued := constantsValued_of_compile hok
  constructor
  · intro id e ty init stored he hbody
    obtain ⟨t, expr, v, -, htype, hinit, hstored, hv⟩ :=
      hstage.stored_const he hbody
    have hbound := (hstage.each id e he).bound.1
    rw [hbody] at hbound
    refine ⟨v, hstored, h.evaluates_of_hasValue hvalued htype (fun r hr => ?_)
      hinit hbound.constants hv⟩
    exact h.arena.agrees_of_boundTo (hbound.types r hr)
  · intro id e he g hg
    obtain ⟨x, f, -, -, htype, hvalues⟩ := hstage.stored_default he hg
    have hbound := (hstage.each id e he).bound.1
    have hconstants : ∀ r ∈ g.defaultReferences, c.scope.BoundConst r :=
      fun r hr => hbound.constants r (Entity.Body.mem_constReferences hg hr)
    unfold Entity.Field.defaultReferences at hconstants
    generalize g.default = o at hvalues hconstants ⊢
    generalize g.defaultValue = o' at hvalues ⊢
    cases hvalues with
    | none => exact .none
    | some hsome =>
      obtain ⟨expr, hinit, hv⟩ := hsome
      refine .some (h.evaluates_of_hasValue hvalued htype (fun r hr => ?_)
        hinit hconstants hv)
      exact h.arena.agrees_of_boundTo
        (hbound.types r (Entity.Body.mem_typeReferences hg hr))

/-- The values of the small document satisfy their equations. -/
theorem evaluates_sample :
    sample.compile "sample" = .ok ⟨sampleScope, []⟩
      ∧ (∀ id e ty init stored, sampleScope.entity? id = some e →
        e.body = .const ty init stored →
        ∃ v, stored = some v ∧ sampleScope.Evaluates ty init v)
      ∧ ∀ id e, sampleScope.entity? id = some e → ∀ f ∈ e.body.valuedFields,
        Option.Rel (sampleScope.Evaluates f.type) f.default f.defaultValue :=
  ⟨compile_sample, evaluates_of_compile compile_sample⟩

end Document

end Interlink
