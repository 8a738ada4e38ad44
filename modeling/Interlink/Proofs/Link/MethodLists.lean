import Interlink.Proofs.Link.Pass

/-!
# The method lists that are found

A service has the methods of the service it extends, except those it declares
itself, and then its own (`Scope.HasMethods`). The rule looks at names only: at
the names of the functions and at the name of the service that is extended. So
it says the same of all scopes with the same declarations, whatever the handles
are (`Corresponds.hasMethods`), and however far the scopes are linked
(`HasMethods.of_erase_eq`): a list that is found while some services are checked
and others are not is still right at the end.

The table that lists are kept in has one list for each service that was met,
and the warnings about those services (`Scope.Collects`). Each step over a
service adds what is missing and changes nothing else, so after the last one
every service is in the table, once: its list is stored with it, and what
overrides something is in the warnings (`Scope.link_methods`).
-/

namespace Interlink

open Entity (Function Method)

/-- A method of a service under another handle. -/
def Entity.Method.rename (ρ : EntityId → EntityId) (m : Method) : Method :=
  { m with service := ρ m.service }

/-- A body with the erasure of a service is a service with the same functions
and the same parent, up to what linking adds. -/
theorem Entity.Body.exists_service_of_erase_eq {b b' : Entity.Body}
    (herase : b'.erase = b.erase) {own : List Function}
    {parent : Option (Reference EntityId)} {stored : List Method}
    (hb : b = .service own parent stored) :
    ∃ own' parent' stored', b' = .service own' parent' stored'
      ∧ own'.map Function.erase = own.map Function.erase
      ∧ parent'.map Reference.erase = parent.map Reference.erase := by
  subst hb
  cases b' with
  | service own' parent' stored' =>
    simp only [Entity.Body.erase, Entity.Body.service.injEq, and_true] at herase
    exact ⟨own', parent', stored', rfl, herase⟩
  | _ => cases herase

namespace Scope

variable {ρ : EntityId → EntityId} {s s' : Scope} {d : Document}
  {id : EntityId} {e : Entity}

/-! ## Scopes with the same declarations -/

/-- **Two scopes have the same declarations** under handles that a renaming
takes to each other. -/
structure Corresponds (ρ : EntityId → EntityId) (s s' : Scope) : Prop where
  /-- A name that has a handle in the one has the renamed handle in the other. -/
  ids : ∀ name id, s.id? name = some id → s'.id? name = some (ρ id)
  /-- An entity is declared in both. -/
  held : ∀ id e, s.entity? id = some e →
    ∃ e', s'.entity? (ρ id) = some e' ∧ e'.erase = e.erase

/-- Scopes with the same erasure have the same declarations under the same
handles. -/
theorem corresponds_of_erase_eq (heq : s'.erase = s.erase) :
    Corresponds (fun id => id) s s' where
  ids name _ hid := (id?_eq_of_erase_eq heq name).trans hid
  held _ _ he := exists_entity?_of_erase_eq heq he

/-- The function that stands in for a method, up to what linking adds, is a
matter of erasures. -/
theorem map_erase_override? (s : Scope) (own : List Function) (m : Method) :
    (s.override? own m).map Function.erase
      = ((s.function? m).map Function.erase).bind fun f =>
        (own.map Function.erase).find? fun g => g.name == f.name := by
  unfold override?
  cases s.function? m with
  | none => rfl
  | some f =>
    rw [Option.bind_some, Option.map_some, Option.bind_some, List.find?_map]
    rfl

/-! ## Method lists -/

/-- **The method list of a service**: that of the service it extends, without
what it declares itself, and then its own functions. -/
inductive HasMethods (s : Scope) : EntityId → List Method → Prop
  | root {id : EntityId} {e : Entity} {own : List Function} {stored : List Method}
      (held : s.entity? id = some e) (body : e.body = .service own none stored) :
      HasMethods s id (s.methodsFrom id own [])
  | child {id p : EntityId} {e : Entity} {own : List Function}
      {r : Reference EntityId} {stored inherited : List Method}
      (held : s.entity? id = some e)
      (body : e.body = .service own (some r) stored)
      (parent : s.id? r.name = some p) (inherits : HasMethods s p inherited) :
      HasMethods s id (s.methodsFrom id own inherited)

/-- **The warnings about a service**: one for each method that it would inherit
and declares itself. -/
inductive Warns (s : Scope) : EntityId → List Warning → Prop
  | root {id : EntityId} {e : Entity} {own : List Function} {stored : List Method}
      (held : s.entity? id = some e) (body : e.body = .service own none stored) :
      Warns s id []
  | child {id p : EntityId} {e : Entity} {own : List Function}
      {r : Reference EntityId} {stored inherited : List Method}
      (held : s.entity? id = some e)
      (body : e.body = .service own (some r) stored)
      (parent : s.id? r.name = some p) (inherits : s.HasMethods p inherited) :
      Warns s id (s.overrideWarnings e.name own inherited)

theorem HasMethods.unique {methods methods' : List Method}
    (h : s.HasMethods id methods) (h' : s.HasMethods id methods') :
    methods = methods' := by
  induction h generalizing methods' with
  | root he hbody =>
    cases h' with
    | root he' hbody' =>
      cases he.symm.trans he'
      cases hbody.symm.trans hbody'
      rfl
    | child he' hbody' =>
      cases he.symm.trans he'
      cases hbody.symm.trans hbody'
  | child he hbody hparent _ ih =>
    cases h' with
    | root he' hbody' =>
      cases he.symm.trans he'
      cases hbody.symm.trans hbody'
    | child he' hbody' hparent' hinherits' =>
      cases he.symm.trans he'
      cases hbody.symm.trans hbody'
      cases hparent.symm.trans hparent'
      rw [ih hinherits']

/-- **The warnings about a service are determined.** -/
theorem Warns.unique {warnings warnings' : List Warning} (h : s.Warns id warnings)
    (h' : s.Warns id warnings') : warnings = warnings' := by
  cases h with
  | root he hbody =>
    cases h' with
    | root => rfl
    | child he' hbody' =>
      cases he.symm.trans he'
      cases hbody.symm.trans hbody'
  | child he hbody hp hinherits =>
    cases h' with
    | root he' hbody' =>
      cases he.symm.trans he'
      cases hbody.symm.trans hbody'
    | child he' hbody' hp' hinherits' =>
      cases he.symm.trans he'
      cases hbody.symm.trans hbody'
      cases hp.symm.trans hp'
      rw [hinherits.unique hinherits']

/-- The methods of a service are methods of entities of the scope. -/
theorem HasMethods.exists_entity {methods : List Method}
    (h : s.HasMethods id methods) : ∀ m ∈ methods, ∃ e, s.entity? m.service = some e := by
  induction h with
  | root he =>
    intro m hm
    obtain ⟨i, -, rfl⟩ := List.mem_map.mp ((List.mem_append.mp hm).resolve_left
      List.not_mem_nil)
    exact ⟨_, he⟩
  | child he _ _ _ ih =>
    intro m hm
    rcases List.mem_append.mp hm with hm | hm
    · exact ih m (List.mem_of_mem_filter hm)
    · obtain ⟨i, -, rfl⟩ := List.mem_map.mp hm
      exact ⟨_, he⟩

namespace Corresponds

variable {own own' : List Function} {m : Method} {inherited : List Method}

theorem nameOf_rename (h : Corresponds ρ s s') (he : s.entity? id = some e) :
    s'.nameOf (ρ id) = s.nameOf id := by
  obtain ⟨e', he', herase⟩ := h.held id e he
  unfold nameOf
  rw [he, he']
  exact Entity.name_eq_of_erase_eq herase

/-- A method is the same function in both scopes, up to what linking adds. -/
theorem function?_rename (h : Corresponds ρ s s')
    (he : s.entity? m.service = some e) :
    (s'.function? (m.rename ρ)).map Function.erase
      = (s.function? m).map Function.erase := by
  obtain ⟨e', he', herase⟩ := h.held m.service e he
  have hbody : e'.body.erase = e.body.erase := congrArg Entity.body herase
  obtain ⟨name, span, resolved, body⟩ := e
  obtain ⟨name', span', resolved', body'⟩ := e'
  unfold function?
  rw [he, show s'.entity? (m.rename ρ).service = _ from he']
  cases body <;> cases body' <;>
    simp only [Entity.Body.erase, reduceCtorEq, Entity.Body.service.injEq] at hbody
  · rfl
  · rfl
  · rfl
  · rfl
  · dsimp only
    rw [← List.getElem?_map, ← List.getElem?_map, hbody.1]
    rfl

/-- What stands in for a method is the same in both scopes, up to what linking
adds. -/
theorem override?_rename (h : Corresponds ρ s s')
    (hown : own'.map Function.erase = own.map Function.erase)
    (he : s.entity? m.service = some e) :
    (s'.override? own' (m.rename ρ)).map Function.erase
      = (s.override? own m).map Function.erase := by
  rw [map_erase_override?, map_erase_override?, h.function?_rename he, hown]

/-- The method list of a service, from that of its parent, in both scopes. -/
theorem methodsFrom_rename (h : Corresponds ρ s s') (id : EntityId)
    (hown : own'.map Function.erase = own.map Function.erase)
    (hheld : ∀ m ∈ inherited, ∃ e, s.entity? m.service = some e) :
    (s.methodsFrom id own inherited).map (Method.rename ρ)
      = s'.methodsFrom (ρ id) own' (inherited.map (Method.rename ρ)) := by
  have hlength : own'.length = own.length := by
    simpa using congrArg List.length hown
  have hkept : inherited.filter (fun m => (s.override? own m).isNone)
      = inherited.filter fun m => (s'.override? own' (m.rename ρ)).isNone := by
    refine List.filter_congr fun m hm => ?_
    obtain ⟨e, he⟩ := hheld m hm
    rw [← Option.isNone_map, ← h.override?_rename hown he, Option.isNone_map]
  unfold methodsFrom
  rw [List.map_append, List.filter_map, hkept, hlength, List.map_map]
  rfl

/-- The warnings about a service are the same in both scopes. -/
theorem overrideWarnings_rename (h : Corresponds ρ s s') (service : String)
    (hown : own'.map Function.erase = own.map Function.erase)
    (hheld : ∀ m ∈ inherited, ∃ e, s.entity? m.service = some e) :
    s'.overrideWarnings service own' (inherited.map (Method.rename ρ))
      = s.overrideWarnings service own inherited := by
  -- a warning looks at the name and the place of a function only
  have hwarning : ∀ (o : Option Function) (from_ : String),
      o.map (fun f => Warning.mk f.name service from_ f.span)
        = (o.map Function.erase).map fun f => ⟨f.name, service, from_, f.span⟩ := by
    intro o from_
    rw [Option.map_map]
    rfl
  unfold overrideWarnings
  rw [List.filterMap_map]
  refine List.filterMap_congr fun m hm => ?_
  obtain ⟨e, he⟩ := hheld m hm
  rw [Function.comp_apply, hwarning, h.override?_rename hown he, ← hwarning]
  have hname : s'.nameOf (m.rename ρ).service = s.nameOf m.service := h.nameOf_rename he
  rw [hname]

theorem exists_service (h : Corresponds ρ s s') (he : s.entity? id = some e)
    {parent : Option (Reference EntityId)} {stored : List Method}
    (hbody : e.body = .service own parent stored) :
    ∃ e' own' parent' stored', s'.entity? (ρ id) = some e' ∧ e'.name = e.name
      ∧ e'.body = .service own' parent' stored'
      ∧ own'.map Function.erase = own.map Function.erase
      ∧ parent'.map Reference.erase = parent.map Reference.erase := by
  obtain ⟨e', he', herase⟩ := h.held id e he
  obtain ⟨own', parent', stored', hb, hown, hparent⟩ :=
    Entity.Body.exists_service_of_erase_eq (congrArg Entity.body herase) hbody
  exact ⟨e', own', parent', stored', he', Entity.name_eq_of_erase_eq herase, hb,
    hown, hparent⟩

/-- **The method list of a service is the same in both scopes**, renamed. -/
theorem hasMethods (h : Corresponds ρ s s') {methods : List Method}
    (hmethods : s.HasMethods id methods) :
    s'.HasMethods (ρ id) (methods.map (Method.rename ρ)) := by
  induction hmethods with
  | @root id e own stored he hbody =>
    obtain ⟨e', own', parent', stored', he', -, hbody', hown, hparent⟩ :=
      h.exists_service he hbody
    cases Option.map_eq_none_iff.mp hparent
    rw [h.methodsFrom_rename id hown fun m hm => absurd hm List.not_mem_nil]
    exact .root he' hbody'
  | @child id p e own r stored inherited he hbody hp hinherits ih =>
    obtain ⟨e', own', parent', stored', he', -, hbody', hown, hparent⟩ :=
      h.exists_service he hbody
    obtain ⟨r', rfl, hr⟩ := Option.map_eq_some_iff.mp hparent
    have hname : r'.name = r.name := (congrArg Reference.name hr :)
    rw [h.methodsFrom_rename id hown hinherits.exists_entity]
    exact .child he' hbody' (hname ▸ h.ids _ _ hp) ih

/-- **The warnings about a service are the same in both scopes.** -/
theorem warns (h : Corresponds ρ s s') {warnings : List Warning}
    (hwarns : s.Warns id warnings) : s'.Warns (ρ id) warnings := by
  cases hwarns with
  | root he hbody =>
    obtain ⟨e', own', parent', stored', he', -, hbody', -, hparent⟩ :=
      h.exists_service he hbody
    cases Option.map_eq_none_iff.mp hparent
    exact .root he' hbody'
  | @child p e own r stored inherited he hbody hp hinherits =>
    obtain ⟨e', own', parent', stored', he', hname', hbody', hown, hparent⟩ :=
      h.exists_service he hbody
    obtain ⟨r', rfl, hr⟩ := Option.map_eq_some_iff.mp hparent
    have hname : r'.name = r.name := (congrArg Reference.name hr :)
    rw [← h.overrideWarnings_rename e.name hown hinherits.exists_entity, ← hname']
    exact .child he' hbody' (hname ▸ h.ids _ _ hp) (h.hasMethods hinherits)

end Corresponds

/-- Renaming every service to itself changes no method. -/
theorem map_rename_self (methods : List Method) :
    methods.map (Method.rename fun id => id) = methods :=
  List.map_id methods

theorem HasMethods.of_erase_eq {methods : List Method} (h : s.HasMethods id methods)
    (heq : s'.erase = s.erase) : s'.HasMethods id methods := by
  have hrenamed := (corresponds_of_erase_eq heq).hasMethods h
  rwa [map_rename_self] at hrenamed

theorem Warns.of_erase_eq {warnings : List Warning} (h : s.Warns id warnings)
    (heq : s'.erase = s.erase) : s'.Warns id warnings :=
  (corresponds_of_erase_eq heq).warns h

/-! ## The table -/

/-- **A table of method lists**: right lists, one for each service that was met,
and the warnings about these services. -/
structure Collects (s : Scope) (table : MethodTable) : Prop where
  /-- The lists are right. -/
  lists : ∀ x ∈ table.known, s.HasMethods x.1 x.2
  /-- No service is there twice. -/
  once : (table.known.map Prod.fst).Nodup
  /-- The warnings are those about the services that are there. -/
  warnings : ∃ about, List.Forall₂ s.Warns (table.known.map Prod.fst) about
    ∧ table.warnings.Perm about.flatten

theorem collects_empty : s.Collects .empty :=
  ⟨fun _ hx => absurd hx List.not_mem_nil, List.nodup_nil, [], .nil, .refl _⟩

theorem Collects.of_erase_eq {table : MethodTable} (h : s.Collects table)
    (heq : s'.erase = s.erase) : s'.Collects table where
  lists x hx := (h.lists x hx).of_erase_eq heq
  once := h.once
  warnings := by
    obtain ⟨about, habout, hperm⟩ := h.warnings
    exact ⟨about, habout.imp fun _ _ hw => hw.of_erase_eq heq, hperm⟩

/-- **A service that is new in a table** may be added, with its warnings. -/
theorem Collects.cons {table : MethodTable} (h : s.Collects table)
    (hnew : id ∉ table.known.map Prod.fst) {methods : List Method}
    (hmethods : s.HasMethods id methods) {warnings : List Warning}
    (hwarns : s.Warns id warnings) :
    s.Collects ⟨(id, methods) :: table.known, table.warnings ++ warnings⟩ where
  lists := List.forall_mem_cons.mpr ⟨hmethods, h.lists⟩
  once := List.nodup_cons.mpr ⟨hnew, h.once⟩
  warnings := by
    obtain ⟨about, habout, hperm⟩ := h.warnings
    refine ⟨warnings :: about, .cons hwarns habout, ?_⟩
    rw [List.flatten_cons]
    exact (hperm.append_right warnings).trans List.perm_append_comm

theorem mem_known_of_lookup {table : MethodTable} {methods : List Method}
    (h : table.known.lookup id = some methods) :
    id ∈ table.known.map Prod.fst :=
  List.mem_map.mpr ⟨_, mem_of_lookup_eq_some h, rfl⟩

theorem not_mem_known_of_lookup {table : MethodTable}
    (h : table.known.lookup id = none) : id ∉ table.known.map Prod.fst := by
  rw [← lookup_isSome_iff_mem, h]
  exact Bool.false_ne_true

/-! ## Finding -/

/-- **How a method list is found**: the table has it; or the service extends
nothing; or it extends a service whose list is found first. -/
theorem ParentsBound.findMethods_cases (hparents : s.ParentsBound) {left : Nat}
    {t : Trail} {table table' : MethodTable} {methods : List Method}
    (he : s.entity? id = some e) (hkind : e.kind = .service)
    (hok : s.findMethods left t table id = .ok (methods, table')) :
    (table.known.lookup id = some methods ∧ table' = table)
      ∨ (table.known.lookup id = none ∧ id ∉ t ∧ ∃ own stored,
        e.body = .service own none stored
          ∧ methods = s.methodsFrom id own []
          ∧ table' = ⟨(id, methods) :: table.known, table.warnings⟩)
      ∨ table.known.lookup id = none ∧ id ∉ t ∧
        ∃ k own r stored p e' inherited table₁, left = k + 1
          ∧ e.body = .service own (some r) stored
          ∧ s.entity? p = some e' ∧ e'.name = r.name ∧ e'.kind = .service
          ∧ s.findMethods k (id :: t) table p = .ok (inherited, table₁)
          ∧ methods = s.methodsFrom id own inherited
          ∧ table' = ⟨(id, methods) :: table₁.known,
            table₁.warnings ++ s.overrideWarnings e.name own inherited⟩ := by
  unfold findMethods at hok
  rw [he] at hok
  cases hlookup : table.known.lookup id with
  | some known =>
    simp only [hlookup, Except.ok.injEq, Prod.mk.injEq] at hok
    exact .inl ⟨congrArg some hok.1, hok.2.symm⟩
  | none =>
    simp only [hlookup] at hok
    cases left with
    | zero => cases hok
    | succ k =>
      dsimp only at hok
      split at hok
      next => cases hok
      next hnew =>
        have hnew : id ∉ t := by simpa using hnew
        unfold Entity.kind at hkind
        cases hbody : e.body with
        | service own parent stored =>
          simp only [hbody] at hok
          cases parent with
          | none =>
            simp only [Option.bind_none, Except.ok.injEq, Prod.mk.injEq] at hok
            obtain ⟨rfl, rfl⟩ := hok
            exact .inr (.inl ⟨rfl, hnew, own, stored, rfl, rfl, rfl⟩)
          | some r =>
            have hr : r ∈ e.body.parent? := by rw [hbody]; rfl
            obtain ⟨p, e', htarget, he', hname, hservice⟩ := hparents id e he r hr
            simp only [Option.bind_some, htarget] at hok
            split at hok
            next => cases hok
            next inherited table₁ hinherited =>
              simp only [Except.ok.injEq, Prod.mk.injEq] at hok
              obtain ⟨rfl, rfl⟩ := hok
              exact .inr (.inr ⟨rfl, hnew, k, own, r, stored, p, e', inherited,
                table₁, rfl, rfl, he', hname, beq_iff_eq.mp hservice, hinherited,
                rfl, rfl⟩)
        | _ =>
          rw [hbody] at hkind
          cases hkind

/-- **What is found for a service** is its method list. The table has it
afterwards, beside all that it had before; of the services on the trail none is
added. -/
theorem IsArena.findMethods_collects (h : s.IsArena) (hparents : s.ParentsBound)
    {left : Nat} {t : Trail} {table table' : MethodTable} {methods : List Method}
    (htable : s.Collects table) (he : s.entity? id = some e)
    (hkind : e.kind = .service)
    (hok : s.findMethods left t table id = .ok (methods, table')) :
    s.HasMethods id methods ∧ s.Collects table'
      ∧ id ∈ table'.known.map Prod.fst
      ∧ table.known.map Prod.fst ⊆ table'.known.map Prod.fst
      ∧ ∀ j ∈ t, j ∈ table'.known.map Prod.fst → j ∈ table.known.map Prod.fst := by
  induction left using Nat.strong_induction_on
    generalizing t table table' id e methods with
  | _ left ih =>
    rcases hparents.findMethods_cases he hkind hok with
      ⟨hlookup, rfl⟩ | ⟨hlookup, hnew, own, stored, hbody, rfl, rfl⟩
      | ⟨hlookup, hnew, k, own, r, stored, p, e', inherited, table₁, rfl, hbody,
        he', hname, hservice, hfind, rfl, rfl⟩
    · exact ⟨htable.lists _ (mem_of_lookup_eq_some hlookup), htable,
        mem_known_of_lookup hlookup, List.Subset.refl _, fun j _ hj => hj⟩
    · have hmethods : s.HasMethods id (s.methodsFrom id own []) := .root he hbody
      have hcollects := htable.cons (not_mem_known_of_lookup hlookup) hmethods
        (.root he hbody)
      rw [List.append_nil] at hcollects
      refine ⟨hmethods, hcollects, List.mem_cons_self, List.subset_cons_self _ _, ?_⟩
      intro j hj hmem
      refine (List.mem_cons.mp hmem).resolve_left ?_
      rintro rfl
      exact hnew hj
    · obtain ⟨hinherits, htable₁, -, hgrows, htrail⟩ :=
        ih k (Nat.lt_succ_self k) htable he' hservice hfind
      have hp : s.id? r.name = some p := h.id?_eq_some.mpr ⟨e', he', hname⟩
      -- the service itself was on the trail while its parent was looked at
      have hnew₁ : id ∉ table₁.known.map Prod.fst := fun hmem =>
        not_mem_known_of_lookup hlookup (htrail id List.mem_cons_self hmem)
      have hmethods : s.HasMethods id (s.methodsFrom id own inherited) :=
        .child he hbody hp hinherits
      refine ⟨hmethods, htable₁.cons hnew₁ hmethods (.child he hbody hp hinherits),
        List.mem_cons_self, fun j hj => List.mem_cons_of_mem _ (hgrows hj), ?_⟩
      intro j hj hmem
      refine htrail j (List.mem_cons_of_mem _ hj)
        ((List.mem_cons.mp hmem).resolve_left ?_)
      rintro rfl
      exact hnew hj

/-! ## Sweeps over services -/

/-- The list that is stored with a service is its method list. -/
def StoresMethods (base : Scope) (e : Entity) : Prop :=
  ∀ own parent methods, e.body = .service own parent methods →
    ∀ id, base.id? e.name = some id → base.HasMethods id methods

variable {base : Scope} {earlier : Entity.Kind → Bool}

/-- **What a step over a service does to the table and to the service.** -/
theorem Stage.serviceStep_collects
    (hstage : base.Stage d (Entity.BoundIf base d earlier (· == .service)) s)
    {table table' : MethodTable} (htable : base.Collects table)
    (he : s.entity? id = some e) (hkind : e.kind = .service)
    (hok : serviceStep (s, table) id = .ok (s', table')) :
    base.Collects table' ∧ id ∈ table'.known.map Prod.fst
      ∧ table.known.map Prod.fst ⊆ table'.known.map Prod.fst
      ∧ ∀ b, s' = s.setBody id b → base.StoresMethods { e with body := b } := by
  have harena := hstage.models.arena
  have hbase : base.id? e.name = some id :=
    (harena.of_erase_eq hstage.same.symm).id?_eq_some.mpr (by
      obtain ⟨e', he', herase⟩ := exists_entity?_of_erase_eq hstage.same.symm he
      exact ⟨e', he', Entity.name_eq_of_erase_eq herase⟩)
  cases hbody : e.body with
  | service functions parent stored =>
    obtain ⟨-, valued, methods, -, hfind, rfl⟩ := (serviceStep_eq_ok he hbody).mp hok
    obtain ⟨hmethods, htable', hmem, hgrows, -⟩ := harena.findMethods_collects
      hstage.parentsBound (htable.of_erase_eq hstage.same) he hkind hfind
    refine ⟨htable'.of_erase_eq hstage.same.symm, hmem, hgrows, ?_⟩
    intro b hset own parent' methods' hb j hj
    -- the body that was stored can be read off the scope
    have hentity := congrArg (fun s => s.entity? id) hset
    simp only [entity?_setBody, if_true, he, Option.map_some, Option.some.injEq,
      Entity.mk.injEq, true_and] at hentity
    cases hentity.trans hb
    cases hbase.symm.trans hj
    exact hmethods.of_erase_eq hstage.same.symm
  | _ =>
    unfold Entity.kind at hkind
    rw [hbody] at hkind
    cases hkind

/-- The second sweep over services stores their method lists. -/
theorem serviceStep_keeps_methods (hearlier : earlier .constant = true)
    (hnew : ∀ kind, (kind == .service) = true → earlier kind = false) :
    Keeps base d (· == .service) Prod.fst
      (fun state => base.EndingTable d state.2 ∧ base.Collects state.2)
      (Entity.BoundIf base d earlier (· == .service))
      base.StoresMethods serviceStep := by
  intro state id e state' hstage hinv he hkind hok
  obtain ⟨hending, b, hview, herase, hbound, hknown, -⟩ :=
    serviceStep_keeps hearlier hnew state id e state' hstage hinv.1 he hkind hok
  obtain ⟨hcollects, -, -, hstores⟩ :=
    hstage.serviceStep_collects hinv.2 he (beq_iff_eq.mp hkind) hok
  exact ⟨⟨hending, hcollects⟩, b, hview, herase, hbound, hknown, hstores b hview⟩

/-- After the second sweep over services the table has all of them. -/
theorem sweep_serviceStep_known (hearlier : earlier .constant = true)
    (hnew : ∀ kind, (kind == .service) = true → earlier kind = false)
    {state state' : Scope × MethodTable} {ids : List EntityId}
    (hids : ids ⊆ base.idsOf (· == .service))
    (hstage : base.Stage d (Entity.BoundIf base d earlier (· == .service)) state.1)
    (hending : base.EndingTable d state.2) (htable : base.Collects state.2)
    (hok : sweep serviceStep state ids = .ok state') :
    state.2.known.map Prod.fst ⊆ state'.2.known.map Prod.fst
      ∧ ids ⊆ state'.2.known.map Prod.fst := by
  induction ids generalizing state with
  | nil =>
    cases hok
    exact ⟨List.Subset.refl _, List.nil_subset _⟩
  | cons id ids ih =>
    obtain ⟨hid, hids⟩ := List.cons_subset.mp hids
    obtain ⟨next, hnext, hok⟩ := sweep_cons_eq_ok.mp hok
    obtain ⟨e, he, hkind⟩ := hstage.exists_of_mem_idsOf hid
    obtain ⟨hending', b, hview, herase, hbound, hknown, -⟩ :=
      serviceStep_keeps hearlier hnew state id e next hstage hending he hkind hnext
    obtain ⟨htable', hmem, hgrows, -⟩ :=
      hstage.serviceStep_collects htable he (beq_iff_eq.mp hkind) hnext
    have hstage' : base.Stage d (Entity.BoundIf base d earlier (· == .service))
        next.1 := hview ▸ hstage.setBody he herase hbound hknown
    obtain ⟨hgrows', hall⟩ := ih hids hstage' hending' htable' hok
    exact ⟨List.Subset.trans hgrows hgrows', List.cons_subset.mpr ⟨hgrows' hmem, hall⟩⟩

/-- **The methods of a scope are collected**: with each service its method list
is stored, and the warnings are those about the services. -/
structure MethodsCollected (s : Scope) (warnings : List Warning) : Prop where
  /-- The stored lists are the method lists. -/
  methods : ∀ id e own parent methods, s.entity? id = some e →
    e.body = .service own parent methods → s.HasMethods id methods
  /-- The warnings are those about all services. -/
  warnings : ∃ about, List.Forall₂ s.Warns (s.idsOf (· == .service)) about
    ∧ warnings.Perm about.flatten

/-- The services of a scope are those that have a method list. -/
theorem HasMethods.mem_idsOf {methods : List Method} (h : s.HasMethods id methods)
    (harena : s.IsArena) : id ∈ s.idsOf (· == .service) := by
  have hservice : ∃ e own parent stored, s.entity? id = some e
      ∧ e.body = .service own parent stored := by
    cases h with
    | root he hbody => exact ⟨_, _, _, _, he, hbody⟩
    | child he hbody => exact ⟨_, _, _, _, he, hbody⟩
  obtain ⟨e, own, parent, stored, he, hbody⟩ := hservice
  exact harena.mem_idsOf.mpr
    ⟨e, he, beq_iff_eq.mpr (congrArg Entity.Body.kind hbody)⟩

/-- Warnings about services in one order are those in another. -/
theorem exists_warns_of_perm {ids ids' : List EntityId} (hperm : ids.Perm ids')
    {about : List (List Warning)} (h : List.Forall₂ s.Warns ids about) :
    ∃ about', List.Forall₂ s.Warns ids' about'
      ∧ about.flatten.Perm about'.flatten := by
  obtain ⟨about', habout', hperm'⟩ := List.perm_comp_forall₂ hperm.symm h
  exact ⟨about', habout', hperm'.flatten.symm⟩

/-- **The third pass collects methods.** -/
theorem Stage.linkServices_methods
    (h : base.Stage d (Entity.DoneIf base d beforeServices) s)
    {warnings : List Warning} (hok : s.linkServices = .ok (s', warnings)) :
    s'.MethodsCollected warnings := by
  have hsame : s'.erase = base.erase := (h.linkServices_sound hok).same
  have harena : base.IsArena := h.models.arena.of_erase_eq h.same.symm
  obtain ⟨bound, state, hbind, hsweep, rfl, rfl⟩ :=
    (linkServices_eq_ok (idsOf_eq_of_erase_eq h.same _)).mp hok
  obtain ⟨-, hbound⟩ := sweep_idsOf_sound (bindStep_keeps beforeServices_eq_false)
    h trivial hbind
  have hstage : base.Stage d
      (Entity.BoundIf base d beforeServices (· == .service))
      (Prod.fst (bound, MethodTable.empty)) := hbound
  have hinv : base.EndingTable d MethodTable.empty ∧ base.Collects .empty :=
    ⟨endingTable_empty, collects_empty⟩
  obtain ⟨⟨-, htable⟩, hstored⟩ := sweep_idsOf_sound
    (serviceStep_keeps_methods rfl beforeServices_eq_false) hstage hinv hsweep
  obtain ⟨-, hall⟩ := sweep_serviceStep_known rfl beforeServices_eq_false
    (List.Subset.refl _) hstage hinv.1 hinv.2 hsweep
  constructor
  · intro id e own parent methods he hbody
    obtain ⟨e', he', herase⟩ := exists_entity?_of_erase_eq hsame.symm he
    have hid : base.id? e.name = some id := harena.id?_eq_some.mpr
      ⟨e', he', Entity.name_eq_of_erase_eq herase⟩
    -- marking a service does not change what is stored with it
    have hstores : base.StoresMethods e := by
      rw [entity?_resolveAll] at he
      split at he
      next =>
        obtain ⟨f, hf, rfl⟩ := Option.map_eq_some_iff.mp he
        exact (hstored.each id f hf).2 (beq_iff_eq.mpr (congrArg Entity.Body.kind hbody))
      next =>
        exact (hstored.each id e he).2 (beq_iff_eq.mpr (congrArg Entity.Body.kind hbody))
    exact (hstores own parent methods hbody id hid).of_erase_eq hsame
  · obtain ⟨about, habout, hwarnings⟩ := htable.warnings
    have hperm : (state.2.known.map Prod.fst).Perm (base.idsOf (· == .service)) := by
      refine (List.perm_ext_iff_of_nodup htable.once (harena.nodup_idsOf _)).mpr
        fun id => ⟨fun hid => ?_, fun hid => hall hid⟩
      obtain ⟨x, hx, rfl⟩ := List.mem_map.mp hid
      exact (htable.lists x hx).mem_idsOf harena
    obtain ⟨about', habout', hflatten⟩ := exists_warns_of_perm hperm habout
    refine ⟨about', ?_, hwarnings.trans hflatten⟩
    rw [idsOf_eq_of_erase_eq hsame]
    exact habout'.imp fun _ _ hw => hw.of_erase_eq hsame

/-- **Linking collects the methods of a scope.** -/
theorem link_methods (h : s.Models d) {warnings : List Warning}
    (hok : s.link = .ok (s', warnings)) : s'.MethodsCollected warnings := by
  unfold link at hok
  simp only [bind_eq_ok] at hok
  obtain ⟨s₁, hconstants, s₂, htypes, hservices⟩ := hok
  exact ((h.stage.linkConstants_sound hconstants).linkTypes_sound
    htypes).linkServices_methods hservices

end Scope

end Interlink
