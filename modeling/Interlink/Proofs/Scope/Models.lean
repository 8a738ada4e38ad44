import Mathlib.Data.List.Nodup
import Interlink.Proofs.Scope.Declared

/-!
# Scopes of documents

Declaring all definitions of a document fills a scope. It succeeds when the
names of the definitions are plain and different, when their parts can be
numbered, and when there are handles for all of them (`exists_defineAll`).

The scope then **models** the document, and linking never changes that
(`Scope.Models`): its entities are the definitions, in their order, and a
reference to a type that is bound is bound to what its name means. What the
document defines and what the scope holds can be read off each other
(`Models.exists_entity`, `Models.exists_defines`).
-/

namespace Interlink

theorem Halt.forget_eq_ok {σ α : Type} {x : Except (Halt σ) α} {a : α} :
    Halt.forget x = .ok a ↔ x = .ok a := by
  cases x <;> simp [Halt.forget]

theorem Halt.forget_eq_error {σ α : Type} {x : Except (Halt σ) α} {fault : CompileError} :
    Halt.forget x = .error fault ↔ ∃ left, x = .error ⟨fault, left⟩ := by
  cases x with
  | ok a => simp [Halt.forget]
  | error halt =>
    obtain ⟨error, left⟩ := halt
    simp [Halt.forget]

/-- **An entity is what a definition declares.** -/
structure Definition.DeclaredAs (x : Definition) (e : Entity) : Prop where
  /-- The name. -/
  name : e.name = x.name
  /-- The place. -/
  span : e.span = x.span
  /-- The body. -/
  body : x.body.DeclaredAs e.body

theorem Definition.DeclaredAs.of_erase_eq {x : Definition} {e e' : Entity}
    (h : x.DeclaredAs e) (heq : e'.erase = e.erase) : x.DeclaredAs e' where
  name := (congrArg Entity.name heq).trans h.name
  span := (congrArg Entity.span heq).trans h.span
  body := Body.declaredAs_of_erase_eq (congrArg Entity.body heq) h.body

/-- A definition declares one entity, up to what linking adds. -/
theorem Definition.DeclaredAs.erase_eq {x : Definition} {e e' : Entity}
    (h : x.DeclaredAs e) (h' : x.DeclaredAs e') : e'.erase = e.erase := by
  unfold Entity.erase
  rw [h'.name, h.name, h'.span, h.span, h.body.erase_eq h'.body]

namespace Scope

variable {s s' : Scope} {id : EntityId} {e : Entity} {d : Document}

/-! ## Declaring -/

/-- A scope with one more entity. -/
def push (s : Scope) (e : Entity) : Scope :=
  { s with
    entities := s.entities ++ [e]
    symbols := s.symbols ++ [(e.name, s.entities.length)] }

/-- A new name keeps names and handles in agreement. -/
theorem IsArena.push (h : s.IsArena)
    (hfree : e.name ∉ s.entities.map Entity.name) : (s.push e).IsArena := by
  constructor
  · simp only [Scope.push, h.symbols, List.mapIdx_append, List.mapIdx_cons,
      List.mapIdx_nil, Nat.zero_add]
  · simp only [Scope.push, List.map_append, List.map_cons, List.map_nil]
    refine List.nodup_append.mpr ⟨h.distinct, List.nodup_singleton _, ?_⟩
    rintro name hname _ hsingle rfl
    rw [List.mem_singleton] at hsingle
    exact hfree (hsingle ▸ hname)

theorem IsArena.named?_eq_none (h : s.IsArena) {name : String} :
    s.named? name = none ↔ name ∉ s.entities.map Entity.name := by
  rw [Option.eq_none_iff_forall_ne_some]
  constructor
  · intro hnone hmem
    obtain ⟨e, he, hname⟩ := List.mem_map.mp hmem
    obtain ⟨id, hid⟩ := List.mem_iff_getElem?.mp he
    exact hnone (id, e) (h.named?_eq_some.mpr ⟨hid, hname⟩)
  · rintro hnot ⟨id, e⟩ hsome
    obtain ⟨he, hname⟩ := h.named?_eq_some.mp hsome
    exact hnot (List.mem_map.mpr ⟨e, List.mem_of_getElem? he, hname⟩)

/-- **Declaring an entity** needs a free name and a handle. -/
theorem declareOrHalt_eq_ok (h : s.IsArena) {name : String} {span : Span}
    {body : Entity.Body} :
    s.declareOrHalt name span body = .ok s' ↔
      name ∉ s.entities.map Entity.name ∧ s.entities.length < 0x100000000
        ∧ s' = s.push ⟨name, span, false, body⟩ := by
  unfold declareOrHalt
  rw [← h.named?_eq_none]
  cases s.named? name with
  | some found => simp
  | none =>
    by_cases hleft : s.entities.length < 0x100000000
    · rw [if_pos hleft, Except.ok.injEq, eq_comm]
      exact ⟨fun h => ⟨rfl, hleft, h⟩, fun h => h.2.2⟩
    · simp [hleft]

/-- **Declaring a definition** needs a plain name besides, and a body. -/
theorem defineOrHalt_eq_ok (h : s.IsArena) {x : Definition} :
    s.defineOrHalt x = .ok s' ↔
      IsPlain x.name ∧ ∃ body, x.toBody = .ok body
        ∧ x.name ∉ s.entities.map Entity.name
        ∧ s.entities.length < 0x100000000
        ∧ s' = s.push ⟨x.name, x.span, false, body⟩ := by
  unfold defineOrHalt
  rw [← nameFault?_eq_none]
  cases nameFault? x.name with
  | some malformation => simp
  | none =>
    cases x.toBody with
    | error fault => simp
    | ok body => simp [declareOrHalt_eq_ok h]

theorem define_eq_ok (h : s.IsArena) {x : Definition} :
    s.define x = .ok s' ↔
      IsPlain x.name ∧ ∃ body, x.toBody = .ok body
        ∧ x.name ∉ s.entities.map Entity.name
        ∧ s.entities.length < 0x100000000
        ∧ s' = s.push ⟨x.name, x.span, false, body⟩ :=
  Halt.forget_eq_ok.trans (defineOrHalt_eq_ok h)

/-- **The definitions that can be declared** one after the other: their names
are plain, different and free, their parts can be numbered, and there are
enough handles. -/
theorem exists_defineAll (h : s.IsArena)
    (hlength : s.entities.length ≤ 0x100000000) {xs : List Definition} :
    (∃ s', s.defineAll xs = .ok s') ↔
      (∀ x ∈ xs, IsPlain x.name ∧ x.body.Declarable)
        ∧ (s.entities.map Entity.name ++ xs.map Definition.name).Nodup
        ∧ s.entities.length + xs.length ≤ 0x100000000 := by
  induction xs generalizing s with
  | nil =>
    simp only [defineAll, List.map_nil, List.append_nil, List.length_nil]
    exact ⟨fun _ => ⟨fun x hx => absurd hx List.not_mem_nil, h.distinct, hlength⟩,
      fun _ => ⟨s, rfl⟩⟩
  | cons x xs ih =>
    simp only [List.forall_mem_cons, List.map_cons, List.length_cons]
    unfold defineAll
    -- the names before and after the first definition, in one list or in two
    have hnames : ∀ body, (s.push ⟨x.name, x.span, false, body⟩).entities.map
          Entity.name ++ xs.map Definition.name
        = s.entities.map Entity.name ++ x.name :: xs.map Definition.name := by
      intro body
      simp [push]
    have hpushed : ∀ body,
        (s.push ⟨x.name, x.span, false, body⟩).entities.length
          = s.entities.length + 1 := by
      intro body
      simp [push]
    constructor
    · rintro ⟨s', hs'⟩
      cases hx : s.define x with
      | error fault => rw [hx] at hs'; cases hs'
      | ok s₁ =>
        rw [hx] at hs'
        obtain ⟨hplain, body, hbody, hfree, hleft, rfl⟩ :=
          (define_eq_ok h).mp hx
        obtain ⟨hxs, hnodup, hfew⟩ :=
          (ih (h.push hfree) (by rw [hpushed]; omega)).mp ⟨s', hs'⟩
        rw [hpushed] at hfew
        exact ⟨⟨⟨hplain, Definition.exists_toBody.mp ⟨body, hbody⟩⟩, hxs⟩,
          hnames body ▸ hnodup, by omega⟩
    · rintro ⟨⟨⟨hplain, hdeclarable⟩, hxs⟩, hnodup, hfew⟩
      obtain ⟨body, hbody⟩ := Definition.exists_toBody.mpr hdeclarable
      have hfree : x.name ∉ s.entities.map Entity.name := fun hmem =>
        (List.nodup_append.mp hnodup).2.2 x.name hmem x.name
          List.mem_cons_self rfl
      rw [(define_eq_ok h).mpr ⟨hplain, body, hbody, hfree, by omega, rfl⟩]
      refine (ih (h.push hfree) (by rw [hpushed]; omega)).mpr
        ⟨hxs, (hnames body).symm ▸ hnodup, ?_⟩
      rw [hpushed]
      omega

/-- **Declared definitions are new entities**, in their order, with nothing in
them linked. -/
theorem entities_defineAll (h : s.IsArena) {xs : List Definition}
    (hs' : s.defineAll xs = .ok s') :
    s'.IsArena ∧ ∃ new, s'.entities = s.entities ++ new
      ∧ List.Forall₂ Definition.DeclaredAs xs new
      ∧ ∀ e ∈ new, e.erase = e := by
  induction xs generalizing s with
  | nil =>
    cases hs'
    exact ⟨h, [], (List.append_nil _).symm, .nil,
      fun e he => absurd he List.not_mem_nil⟩
  | cons x xs ih =>
    unfold defineAll at hs'
    cases hx : s.define x with
    | error fault => rw [hx] at hs'; cases hs'
    | ok s₁ =>
      rw [hx] at hs'
      obtain ⟨-, body, hbody, hfree, -, rfl⟩ := (define_eq_ok h).mp hx
      obtain ⟨harena, new, hentities, hdeclared, herased⟩ :=
        ih (h.push hfree) hs'
      obtain ⟨hdeclares, herase⟩ := Definition.toBody_eq_ok hbody
      refine ⟨harena, ⟨x.name, x.span, false, body⟩ :: new, ?_,
        .cons ⟨rfl, rfl, hdeclares⟩ hdeclared, ?_⟩
      · rw [hentities]
        simp [push]
      · exact List.forall_mem_cons.mpr
          ⟨congrArg (Entity.mk x.name x.span false) herase, herased⟩

/-! ## Modelling -/

/-- **A reference to a type agrees with a scope**: if it is bound, then to what
its name means. -/
def Agrees (s : Scope) (r : Reference EntityId) : Prop :=
  r.target = none ∨ r.target = s.id? r.name

theorem id?_eq_of_erase_eq (h : s'.erase = s.erase) (name : String) :
    s'.id? name = s.id? name := by
  show s'.erase.id? name = s.erase.id? name
  rw [h]

theorem agrees_of_erase_eq (h : s'.erase = s.erase) {r : Reference EntityId} :
    s'.Agrees r ↔ s.Agrees r := by
  unfold Agrees
  rw [id?_eq_of_erase_eq h]

/-- **A scope models a document**: its entities are the definitions of the
document, and no reference to a type is bound to anything but what its name
means. -/
structure Models (s : Scope) (d : Document) : Prop where
  /-- Names and handles agree. -/
  arena : s.IsArena
  /-- The entities are the definitions. -/
  declared : List.Forall₂ Definition.DeclaredAs d.definitions s.entities
  /-- The names are plain. -/
  plain : ∀ x ∈ d.definitions, IsPlain x.name
  /-- References agree. -/
  agrees : ∀ e ∈ s.entities, ∀ r ∈ e.body.typeReferences, s.Agrees r

namespace Models

/-- **Every definition has its entity.** -/
theorem exists_declared (h : s.Models d) {x : Definition}
    (hx : x ∈ d.definitions) : ∃ id e, s.entity? id = some e ∧ x.DeclaredAs e := by
  obtain ⟨e, he, hdeclared⟩ := exists_right_of_forall₂ h.declared hx
  obtain ⟨id, hid⟩ := List.mem_iff_getElem?.mp he
  exact ⟨id, e, hid, hdeclared⟩

/-- **Every entity has its definition.** -/
theorem exists_definition (h : s.Models d) (he : s.entity? id = some e) :
    ∃ x ∈ d.definitions, x.DeclaredAs e :=
  exists_left_of_forall₂ h.declared (List.mem_of_getElem? he)

theorem exists_entity (h : s.Models d) {name : String} {body : Definition.Body}
    (hdefines : d.Defines name body) :
    ∃ id e, s.entity? id = some e ∧ e.name = name ∧ body.DeclaredAs e.body := by
  obtain ⟨x, hx, rfl, rfl⟩ := hdefines
  obtain ⟨id, e, he, hdeclared⟩ := h.exists_declared hx
  exact ⟨id, e, he, hdeclared.name, hdeclared.body⟩

theorem exists_defines (h : s.Models d) (he : s.entity? id = some e) :
    ∃ body, d.Defines e.name body ∧ body.DeclaredAs e.body := by
  obtain ⟨x, hx, hdeclared⟩ := h.exists_definition he
  exact ⟨x.body, ⟨x, hx, hdeclared.name.symm, rfl⟩, hdeclared.body⟩

/-- A name is the name of one entity. -/
theorem declaredAs (h : s.Models d) (he : s.entity? id = some e)
    {body : Definition.Body} (hdefines : d.Defines e.name body) :
    body.DeclaredAs e.body := by
  obtain ⟨j, f, hf, hname, hdeclared⟩ := h.exists_entity hdefines
  obtain ⟨-, rfl⟩ := h.arena.entity?_inj hf he hname
  exact hdeclared

theorem names (h : s.Models d) :
    s.entities.map Entity.name = d.definitions.map Definition.name := by
  have hnames : List.Forall₂ (fun x e => x = e) (d.definitions.map Definition.name)
      (s.entities.map Entity.name) := by
    rw [List.forall₂_map_left_iff, List.forall₂_map_right_iff]
    exact h.declared.imp fun x e hx => hx.name.symm
  exact (List.forall₂_eq_eq_eq ▸ hnames : _ = _).symm

/-- **A name is defined once.** -/
theorem defines_unique (h : s.Models d) {name : String}
    {body body' : Definition.Body} (hb : d.Defines name body)
    (hb' : d.Defines name body') : body = body' :=
  Document.defines_unique_of_nodup (h.names ▸ h.arena.distinct) hb hb'

theorem isPlain (h : s.Models d) {name : String} {body : Definition.Body}
    (hdefines : d.Defines name body) : IsPlain name := by
  obtain ⟨x, hx, rfl, -⟩ := hdefines
  exact h.plain x hx

/-- **Linking keeps the model**: a scope with the same erasure models the same
documents, if its references agree. -/
theorem of_erase_eq (h : s.Models d) (heq : s'.erase = s.erase)
    (hagrees : ∀ e ∈ s'.entities, ∀ r ∈ e.body.typeReferences, s.Agrees r) :
    s'.Models d where
  arena := h.arena.of_erase_eq heq
  declared := by
    have hentities : s'.entities.map Entity.erase
        = s.entities.map Entity.erase := congrArg Scope.entities heq
    have hlength : s'.entities.length = s.entities.length := by
      simpa using congrArg List.length hentities
    obtain ⟨hlength', hget⟩ := List.forall₂_iff_get.mp h.declared
    refine List.forall₂_iff_get.mpr ⟨hlength'.trans hlength.symm, ?_⟩
    intro i hi hi'
    refine (hget i hi (hlength ▸ hi')).of_erase_eq ?_
    have hi'' := congrArg (fun es => es[i]?) hentities
    simpa [hi', hlength ▸ hi'] using hi''
  plain := h.plain
  agrees e he r hr := (agrees_of_erase_eq heq).mpr (hagrees e he r hr)

/-- **One entity gets another body** with the same erasure and references that
agree. -/
theorem setBody (h : s.Models d) (he : s.entity? id = some e)
    {b : Entity.Body} (hb : b.erase = e.body.erase)
    (hagrees : ∀ r ∈ b.typeReferences, s.Agrees r) : (s.setBody id b).Models d := by
  refine h.of_erase_eq (erase_setBody he hb) fun f hf r hr => ?_
  obtain ⟨j, hj⟩ := List.mem_iff_getElem?.mp hf
  have hset : (s.setBody id b).entity? j = some f := hj
  rw [entity?_setBody] at hset
  split at hset
  next hid =>
    subst hid
    rw [he] at hset
    cases hset
    exact hagrees r hr
  next => exact h.agrees f (List.mem_of_getElem? hset) r hr

theorem resolveAll (h : s.Models d) (ids : List EntityId) :
    (s.resolveAll ids).Models d := by
  refine h.of_erase_eq (erase_resolveAll s ids) fun f hf r hr => ?_
  obtain ⟨j, hj⟩ := List.mem_iff_getElem?.mp hf
  have hset : (s.resolveAll ids).entity? j = some f := hj
  rw [entity?_resolveAll] at hset
  split at hset
  next =>
    obtain ⟨g, hg, rfl⟩ := Option.map_eq_some_iff.mp hset
    exact h.agrees g (List.mem_of_getElem? hg) r hr
  next => exact h.agrees f (List.mem_of_getElem? hset) r hr

end Models

/-- **A document that was declared is modelled.** -/
theorem models_of_defineAll {name : String}
    (hs : (empty name).defineAll d.definitions = .ok s) : s.Models d := by
  have hcan := (exists_defineAll (isArena_empty name) (Nat.zero_le _)).mp ⟨s, hs⟩
  obtain ⟨harena, new, hentities, hdeclared, herased⟩ :=
    entities_defineAll (isArena_empty name) hs
  obtain rfl : s.entities = new := hentities
  refine ⟨harena, hdeclared, fun x hx => (hcan.1 x hx).1, fun e he r hr => ?_⟩
  -- nothing is bound yet
  rw [← herased e he, Entity.erase_body, Entity.Body.typeReferences_erase] at hr
  obtain ⟨r', -, rfl⟩ := List.mem_map.mp hr
  exact .inl rfl

end Scope

end Interlink
