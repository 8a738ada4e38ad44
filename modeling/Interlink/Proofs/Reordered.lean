import Interlink.Proofs.Document.Order
import Interlink.Proofs.Link.Exceptions
import Interlink.Proofs.Link.Rename
import Interlink.Proofs.Services

/-!
# The order of definitions does not matter

A document says the same whatever the order of its definitions
(`Document.Reorders`): it is compiled in all orders or in none, and the scopes
that come out differ only in their handles (`Document.compile_perm`). An entity
has in one scope the handle of its name there, and the other scope has the
handle of the same name for it (`Scope.handleIn`). With this renaming the
scopes are the same (`Scope.RenamedAs`): references are bound to the same names,
constants and defaults have the same values, and services have the same methods
in the same order.

Nothing of this is shown by following two runs side by side. Each run ends in a
scope that is determined by the document up to handles: what is declared
(`Definition.DeclaredAs.erase_eq`), what references are bound to
(`Scope.Aligned.body_eq`), values (`Definition.Body.ValuedAs.sameStored`), and
method lists and warnings (`Scope.HasMethods.unique`, `Scope.Warns.unique`).
-/

namespace Interlink

open Entity (Function Method)

/-! ## Scopes up to handles -/

namespace Scope

variable {ρ : EntityId → EntityId} {s s' : Scope} {d d' : Document} {id : EntityId}
  {e : Entity}

/-- **The handle that another scope has for the name of a handle.** -/
def handleIn (s s' : Scope) (id : EntityId) : EntityId :=
  (s'.id? (s.nameOf id)).getD id

/-- **A scope is another one with its handles renamed.** -/
structure RenamedAs (s : Scope) (ρ : EntityId → EntityId) (s' : Scope) : Prop where
  /-- The unit is the same. -/
  name : s'.name = s.name
  /-- The same names have handles. -/
  ids : ∀ name, s'.id? name = (s.id? name).map ρ
  /-- The entities are the same up to their handles. -/
  entities : ∀ id e, s.entity? id = some e → s'.entity? (ρ id) = some (e.rename ρ)
  /-- There are no other entities. -/
  onto : ∀ j e', s'.entity? j = some e' →
    ∃ id e, s.entity? id = some e ∧ ρ id = j

theorem handleIn_eq (h' : s'.IsArena) (he : s.entity? id = some e) {j : EntityId}
    {e' : Entity} (he' : s'.entity? j = some e') (hname : e'.name = e.name) :
    s.handleIn s' id = j := by
  unfold handleIn
  rw [nameOf_eq he, h'.id?_eq_some.mpr ⟨e', he', hname⟩]
  rfl

namespace Models

/-- **An entity and its counterpart**: both are what one definition declares. -/
theorem exists_counterpart (h : s.Models d) (h' : s'.Models d')
    (hd : d.Reorders d') (he : s.entity? id = some e) :
    ∃ e', s'.entity? (s.handleIn s' id) = some e'
      ∧ ∃ x ∈ d.definitions, x.DeclaredAs e ∧ x.DeclaredAs e' := by
  obtain ⟨x, hx, hdeclared⟩ := h.exists_definition he
  obtain ⟨j, e', he', hdeclared'⟩ := h'.exists_declared (hd.mem.mpr hx)
  have hj : s.handleIn s' id = j :=
    handleIn_eq h'.arena he he' (hdeclared'.name.trans hdeclared.name.symm)
  exact ⟨e', hj.symm ▸ he', x, hx, hdeclared, hdeclared'⟩

/-- **Scopes of reordered documents have the same declarations.** -/
theorem aligned (h : s.Models d) (h' : s'.Models d') (hd : d.Reorders d') :
    Aligned (s.handleIn s') s s' d' where
  arena := h.arena
  models := h'
  held id e he := by
    obtain ⟨e', he', x, -, hdeclared, hdeclared'⟩ := h.exists_counterpart h' hd he
    exact ⟨e', he', hdeclared.erase_eq hdeclared'⟩
  ids name id hid := by
    obtain ⟨e, he, rfl⟩ := h.arena.id?_eq_some.mp hid
    obtain ⟨e', he', x, -, hdeclared, hdeclared'⟩ := h.exists_counterpart h' hd he
    exact h'.arena.id?_eq_some.mpr
      ⟨e', he', hdeclared'.name.trans hdeclared.name.symm⟩

/-- Every entity of the one scope has a counterpart in the other. -/
theorem exists_handleIn (h : s.Models d) (h' : s'.Models d') (hd : d.Reorders d')
    {j : EntityId} {e' : Entity} (he' : s'.entity? j = some e') :
    ∃ id e, s.entity? id = some e ∧ s.handleIn s' id = j := by
  obtain ⟨x, hx, hdeclared'⟩ := h'.exists_definition he'
  obtain ⟨id, e, he, hdeclared⟩ := h.exists_declared (hd.mem.mp hx)
  exact ⟨id, e, he,
    handleIn_eq h'.arena he he' (hdeclared'.name.trans hdeclared.name.symm)⟩

end Models

/-- Different entities have different handles in the other scope. -/
theorem Aligned.injOn (h : Aligned ρ s s' d') {i j : EntityId} {e f : Entity}
    (he : s.entity? i = some e) (hf : s.entity? j = some f) (hij : ρ i = ρ j) :
    i = j := by
  have hi := h.nameOf_rename he
  rw [hij, h.nameOf_rename hf, nameOf_eq he, nameOf_eq hf] at hi
  exact (h.arena.entity?_inj he hf hi.symm).1

end Scope

/-! ## Values -/

section Values

variable {s : Scope} {d d' : Document}

theorem Field.ValuedAs.unique {f : Field} {g g' : Entity.Field} (h : s.Models d)
    (hin : d'.Within d) (hv : f.ValuedAs d g) (hv' : f.ValuedAs d' g') :
    g'.defaultValue = g.defaultValue := by
  unfold Field.ValuedAs at hv hv'
  generalize f.default = default, g.defaultValue = o, g'.defaultValue = o' at hv hv' ⊢
  cases hv with
  | none =>
    cases hv'
    rfl
  | some hvalue =>
    cases hv' with | some hvalue' =>
    exact congrArg some (h.hasValue_unique (hin.hasValue hvalue') hvalue)

/-- Fields have one list of values for their defaults. -/
theorem Field.ValuedAs.map_defaultValue {fields : List Field}
    {valued valued' : List Entity.Field} (h : s.Models d) (hin : d'.Within d)
    (hv : List.Forall₂ (Field.ValuedAs d) fields valued)
    (hv' : List.Forall₂ (Field.ValuedAs d') fields valued') :
    valued'.map Entity.Field.defaultValue = valued.map Entity.Field.defaultValue :=
  map_eq_map_of_forall₂ hv' hv fun _ _ _ hg' hg => hg.unique h hin hg'

/-- The values of declared exceptions are those of the erasure. -/
theorem Entity.map_exceptions_of_bare {functions functions' : List Function}
    (hbare : ∀ f ∈ functions, f.BareExceptions)
    (hbare' : ∀ f ∈ functions', f.BareExceptions)
    (herase : functions'.map Function.erase = functions.map Function.erase) :
    (functions'.map fun f => f.exceptions.map Entity.Field.defaultValue)
      = functions.map fun f => f.exceptions.map Entity.Field.defaultValue := by
  have herased : ∀ fs : List Function, (∀ f ∈ fs, f.BareExceptions) →
      (fs.map fun f => f.exceptions.map Entity.Field.defaultValue)
        = (fs.map Function.erase).map
          fun f => f.exceptions.map Entity.Field.defaultValue := by
    intro fs hfs
    rw [List.map_map]
    exact List.map_congr_left fun f hf => (hfs f hf).map_defaultValue
  rw [herased functions hbare, herased functions' hbare', herase]

/-- **What is stored with the entities of one definition is the same**, if
their methods are. -/
theorem Definition.Body.ValuedAs.sameStored {ρ : EntityId → EntityId}
    {x : Definition.Body} {b b' : Entity.Body} (h : s.Models d) (hin : d'.Within d)
    (hdeclared : x.DeclaredAs b) (hdeclared' : x.DeclaredAs b')
    (hv : x.ValuedAs d b) (hv' : x.ValuedAs d' b') (hbare : b.BareExceptions)
    (hbare' : b'.BareExceptions)
    (hmethods : ∀ own own' parent parent' methods methods',
      b = .service own parent methods → b' = .service own' parent' methods' →
      methods' = methods.map (Method.rename ρ)) :
    Entity.Body.SameStored ρ b b' := by
  have herase := hdeclared.erase_eq hdeclared'
  cases hdeclared with
  | const =>
    cases hdeclared' with | const =>
    obtain ⟨v, rfl, hvalue⟩ := hv
    obtain ⟨v', rfl, hvalue'⟩ := hv'
    exact congrArg some (h.hasValue_unique hvalue (hin.hasValue hvalue'))
  | typedef => exact trivial
  | enum => exact trivial
  | struct =>
    cases hdeclared' with | struct =>
    exact Field.ValuedAs.map_defaultValue h hin hv hv'
  | service =>
    cases hdeclared' with | service =>
    simp only [Entity.Body.erase, Entity.Body.service.injEq] at herase
    exact ⟨map_eq_map_of_forall₂ hv' hv fun _ _ _ hg' hg =>
        Field.ValuedAs.map_defaultValue h hin hg hg',
      Entity.map_exceptions_of_bare hbare hbare' herase.1,
      hmethods _ _ _ _ _ _ rfl rfl⟩

end Values

/-! ## Warnings -/

/-- **Scopes with the same declarations have the same warnings**, in some
order. -/
theorem Scope.Aligned.warnings_perm {ρ : EntityId → EntityId} {s s' : Scope}
    {d' : Document} (h : Aligned ρ s s' d')
    (honto : ∀ j e', s'.entity? j = some e' →
      ∃ id e, s.entity? id = some e ∧ ρ id = j)
    {warnings warnings' : List Warning} (hw : s.MethodsCollected warnings)
    (hw' : s'.MethodsCollected warnings') : warnings.Perm warnings' := by
  have hkind : ∀ id e e', s.entity? id = some e → s'.entity? (ρ id) = some e' →
      e'.kind = e.kind := by
    intro id e e' he he'
    obtain ⟨f, hf, herase⟩ := h.held id e he
    cases hf.symm.trans he'
    exact Entity.kind_eq_of_erase_eq herase
  -- the services of the one scope are those of the other
  have hperm : ((s.idsOf (· == .service)).map ρ).Perm (s'.idsOf (· == .service)) := by
    refine (List.perm_ext_iff_of_nodup ?_ (h.models.arena.nodup_idsOf _)).mpr fun j => ?_
    · refine List.Nodup.map_on (fun i hi j hj hij => ?_) (h.arena.nodup_idsOf _)
      obtain ⟨e, he, -⟩ := h.arena.mem_idsOf.mp hi
      obtain ⟨f, hf, -⟩ := h.arena.mem_idsOf.mp hj
      exact h.injOn he hf hij
    · rw [List.mem_map, h.models.arena.mem_idsOf]
      constructor
      · rintro ⟨id, hid, rfl⟩
        obtain ⟨e, he, hservice⟩ := h.arena.mem_idsOf.mp hid
        obtain ⟨e', he', herase⟩ := h.held id e he
        exact ⟨e', he', Entity.kind_eq_of_erase_eq herase ▸ hservice⟩
      · rintro ⟨e', he', hservice⟩
        obtain ⟨id, e, he, rfl⟩ := honto j e' he'
        exact ⟨id, h.arena.mem_idsOf.mpr ⟨e, he, hkind id e e' he he' ▸ hservice⟩, rfl⟩
  obtain ⟨about, habout, hflat⟩ := hw.warnings
  obtain ⟨about', habout', hflat'⟩ := hw'.warnings
  have hrenamed : List.Forall₂ s'.Warns ((s.idsOf (· == .service)).map ρ) about :=
    List.forall₂_map_left_iff.mpr (habout.imp fun _ _ hwarns => h.warns hwarns)
  obtain ⟨about'', habout'', hflat''⟩ := exists_warns_of_perm hperm hrenamed
  have hsame : about'' = about' :=
    eq_of_forall₂ habout'' habout' fun _ _ _ ha ha' => ha.unique ha'
  exact hflat.trans (hflat''.trans (hsame ▸ hflat'.symm))

/-! ## Compiling -/

namespace Scope

variable {s s' : Scope}

theorem IsArena.name_defineAll (h : s.IsArena) {xs : List Definition}
    (hs : s.defineAll xs = .ok s') : s'.name = s.name := by
  induction xs generalizing s with
  | nil =>
    cases hs
    rfl
  | cons x xs ih =>
    unfold defineAll at hs
    cases hx : s.define x with
    | error fault => rw [hx] at hs; cases hs
    | ok s₁ =>
      rw [hx] at hs
      obtain ⟨-, body, -, hfree, -, hpush⟩ := (define_eq_ok h).mp hx
      have harena : s₁.IsArena := hpush ▸ h.push hfree
      exact (ih harena hs).trans (congrArg Scope.name hpush :)

end Scope

namespace Document

variable {d d' : Document} {name : String} {c c' : Compiled}

theorem name_of_compile (hok : d.compile name = .ok c) : c.scope.name = name := by
  obtain ⟨-, s, hs, hlink⟩ := compile_eq_ok.mp hok
  have hsame : c.scope.name = s.name :=
    (congrArg Scope.name ((Scope.models_of_defineAll hs).stage_link hlink).same :)
  exact hsame.trans ((Scope.isArena_empty name).name_defineAll hs)

theorem bareExceptions_of_compile (hok : d.compile name = .ok c) :
    c.scope.BareExceptions := by
  obtain ⟨-, s, hs, hlink⟩ := compile_eq_ok.mp hok
  exact (Scope.bareExceptions_of_defineAll hs).link hlink

/-- **Counterparts in the scopes of reordered documents are equal up to
handles.** -/
theorem Reorders.entity_eq (h : d.Reorders d') (hok : d.compile name = .ok c)
    (hok' : d'.compile name = .ok c') {id : EntityId} {e : Entity}
    (he : c.scope.entity? id = some e) :
    c'.scope.entity? (c.scope.handleIn c'.scope id)
      = some (e.rename (c.scope.handleIn c'.scope)) := by
  have hstage := stage_of_compile hok
  have hstage' := stage_of_compile hok'
  have haligned := hstage.models.aligned hstage'.models h
  obtain ⟨e', he', x, hx, hdeclared, hdeclared'⟩ :=
    hstage.models.exists_counterpart hstage'.models h he
  have hlinked := hstage.each id e he
  have hlinked' := hstage'.each _ e' he'
  have hdefines : d.Defines e.name x.body := ⟨x, hx, hdeclared.name.symm, rfl⟩
  have hdefines' : d'.Defines e'.name x.body :=
    ⟨x, h.mem.mpr hx, hdeclared'.name.symm, rfl⟩
  -- the method lists of both scopes follow from their declarations
  have hmethods : ∀ own own' parent parent' methods methods',
      e.body = .service own parent methods →
      e'.body = .service own' parent' methods' →
      methods' = methods.map (Method.rename (c.scope.handleIn c'.scope)) := by
    intro own own' parent parent' methods methods' hbody hbody'
    have hlist := (methodsCollected_of_compile hok).methods id e own parent methods
      he hbody
    have hlist' := (methodsCollected_of_compile hok').methods _ e' own' parent'
      methods' he' hbody'
    exact hlist'.unique (haligned.hasMethods hlist)
  have hsame := Definition.Body.ValuedAs.sameStored hstage.models h.symm.within
    hdeclared.body hdeclared'.body (hlinked.settled x.body hdefines).2
    (hlinked'.settled x.body hdefines').2 (bareExceptions_of_compile hok id e he)
    (bareExceptions_of_compile hok' _ e' he') hmethods
  have hbody := haligned.body_eq (hdeclared.body.erase_eq hdeclared'.body)
    hlinked.bound.1 hlinked'.bound.1 hsame
  have heq : e' = e.rename (c.scope.handleIn c'.scope) := by
    obtain ⟨entityName, span, resolved, body⟩ := e'
    cases hdeclared'.name.trans hdeclared.name.symm
    cases hdeclared'.span.trans hdeclared.span.symm
    cases hlinked'.resolved.trans hlinked.resolved.symm
    cases hbody
    rfl
  rw [he', heq]

/-- The scopes of reordered documents are equal up to handles. -/
theorem Reorders.renamedAs (h : d.Reorders d') (hok : d.compile name = .ok c)
    (hok' : d'.compile name = .ok c') :
    c.scope.RenamedAs (c.scope.handleIn c'.scope) c'.scope := by
  have hm := (stage_of_compile hok).models
  have hm' := (stage_of_compile hok').models
  have haligned := hm.aligned hm' h
  refine ⟨(name_of_compile hok').trans (name_of_compile hok).symm, fun symbol => ?_,
    fun id e he => h.entity_eq hok hok' he,
    fun j e' he' => hm.exists_handleIn hm' h he'⟩
  cases hid : c.scope.id? symbol with
  | some id => exact haligned.ids symbol id hid
  | none =>
    -- a name without a handle here has none there
    refine Option.eq_none_iff_forall_ne_some.mpr fun j hj => ?_
    obtain ⟨e', he', rfl⟩ := hm'.arena.id?_eq_some.mp hj
    obtain ⟨id, e, he, rfl⟩ := hm.exists_handleIn hm' h he'
    have hname : e.name = e'.name := by
      rw [← Scope.nameOf_eq he, ← Scope.nameOf_eq he', haligned.nameOf_rename he]
    cases hid.symm.trans (hm.arena.id?_eq_some.mpr ⟨e, he, hname⟩)

/-- **Compiling does not depend on the order of definitions.** A document is
compiled if and only if it is compiled with its definitions in another order;
the scopes are then the same up to the handles of names, and the warnings are
the same up to their order. -/
theorem compile_perm (h : d.Reorders d') (name : String) :
    ((∃ c, d.compile name = .ok c) ↔ ∃ c', d'.compile name = .ok c')
      ∧ ∀ c c', d.compile name = .ok c → d'.compile name = .ok c' →
        c.scope.RenamedAs (c.scope.handleIn c'.scope) c'.scope
          ∧ c.warnings.Perm c'.warnings := by
  refine ⟨⟨?_, ?_⟩, ?_⟩
  · rintro ⟨c, hok⟩
    exact (h.wellFormed (wellFormed_of_compile hok)).exists_compile name
  · rintro ⟨c', hok'⟩
    exact (h.symm.wellFormed (wellFormed_of_compile hok')).exists_compile name
  · intro c c' hok hok'
    have hm := (stage_of_compile hok).models
    have hm' := (stage_of_compile hok').models
    exact ⟨h.renamedAs hok hok', (hm.aligned hm' h).warnings_perm
      (fun j e' he' => hm.exists_handleIn hm' h he')
      (methodsCollected_of_compile hok) (methodsCollected_of_compile hok')⟩

/-- The three services backwards. -/
theorem compile_perm_layered :
    ∃ c', (⟨layered.headers, layered.definitions.reverse⟩ : Document).compile "layered"
        = .ok c'
      ∧ layeredScope.RenamedAs (layeredScope.handleIn c'.scope) c'.scope
      ∧ List.Perm [⟨"poll", "Middle", "Base", ⟨10, 3⟩⟩,
        ⟨"start", "Top", "Base", ⟨3, 3⟩⟩] c'.warnings := by
  have hreorders : layered.Reorders ⟨layered.headers, layered.definitions.reverse⟩ :=
    ⟨rfl, (List.reverse_perm _).symm⟩
  have hperm := compile_perm hreorders "layered"
  obtain ⟨c', hok'⟩ := hperm.1.mp ⟨_, compile_layered⟩
  exact ⟨c', hok', hperm.2 _ c' compile_layered hok'⟩

end Document

end Interlink
