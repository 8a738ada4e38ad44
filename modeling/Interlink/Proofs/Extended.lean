import Interlink.Proofs.Exchange.Wider
import Interlink.Proofs.Reordered

/-!
# One more definition

A document may be given another definition at its end (`Document.push`). If it is
compiled before and after, nothing that was there changes
(`Document.compile_push`): the new scope is the old one with one entity more, the
old warnings come first, and what could be sent or received in the old scope is
sent or received in the new one.

The entities are the same since both scopes are determined by what is defined, and
nothing that the smaller document defines is defined differently in the other
(`Document.Within`). The order of the warnings is not determined in that way. It
depends on the order in which services are met, so for them the two runs are
followed side by side (`Scope.Stage.table_eq`): as long as the same services are
looked at, the same lists and warnings are found, also with more entities and more
steps left (`Scope.Corresponds.findMethods`).
-/

namespace Interlink

open Entity (Function Method)

/-- An entity of the kind of services has functions and methods. -/
theorem Entity.exists_service_of_kind {e : Entity} (hkind : e.kind = .service) :
    ∃ own parent stored, e.body = .service own parent stored := by
  unfold Entity.kind at hkind
  cases hbody : e.body with
  | service own parent stored => exact ⟨own, parent, stored, rfl⟩
  | _ =>
    rw [hbody] at hkind
    cases hkind

theorem sweep_append_eq_ok {σ : Type} {step : σ → EntityId → Except CompileError σ}
    {state state' : σ} {ids more : List EntityId} :
    sweep step state (ids ++ more) = .ok state' ↔
      ∃ between, sweep step state ids = .ok between
        ∧ sweep step between more = .ok state' := by
  induction ids generalizing state with
  | nil => simp [sweep]
  | cons id ids ih =>
    rw [List.cons_append, sweep, sweep]
    cases step state id with
    | error fault => simp
    | ok next => exact ih

/-! ## Documents -/

namespace Document

/-- **A document with one more definition** at its end. -/
def push (d : Document) (x : Definition) : Document :=
  { d with definitions := d.definitions ++ [x] }

theorem within_push (d : Document) (x : Definition) : d.Within (d.push x) := by
  rintro name body ⟨y, hy, hname, hbody⟩
  exact ⟨y, List.mem_append_left _ hy, hname, hbody⟩

end Document

namespace Scope

variable {ρ : EntityId → EntityId} {s s' base base' : Scope} {d d' : Document}
  {id : EntityId} {e : Entity}

/-! ## Declaring -/

/-- Definitions are declared one after the other. -/
theorem defineAll_append_eq_ok {xs ys : List Definition} :
    s.defineAll (xs ++ ys) = .ok s' ↔
      ∃ s₁, s.defineAll xs = .ok s₁ ∧ s₁.defineAll ys = .ok s' := by
  induction xs generalizing s with
  | nil => simp [defineAll]
  | cons x xs ih =>
    rw [List.cons_append, defineAll, defineAll]
    cases s.define x with
    | error fault => simp
    | ok next => exact ih

/-- **Declaring one more definition** adds one entity. -/
theorem exists_push_of_defineAll {name : String} {xs : List Definition}
    {x : Definition} (hs : (empty name).defineAll xs = .ok s)
    (hs' : (empty name).defineAll (xs ++ [x]) = .ok s') : ∃ e, s' = s.push e := by
  obtain ⟨s₁, hs₁, hx⟩ := defineAll_append_eq_ok.mp hs'
  obtain rfl : s₁ = s := Except.ok.inj (hs₁.symm.trans hs)
  obtain ⟨harena, -⟩ := entities_defineAll (isArena_empty name) hs
  cases hdefine : s₁.define x with
  | error fault =>
    rw [defineAll, hdefine] at hx
    cases hx
  | ok next =>
    rw [defineAll, hdefine] at hx
    cases hx
    obtain ⟨-, body, -, -, -, hpush⟩ := (define_eq_ok harena).mp hdefine
    exact ⟨_, hpush⟩

/-- The handles of some kinds come first in a scope with one more entity. -/
theorem IsArena.idsOf_prefix_push (h : s.IsArena) (h' : (s.push e).IsArena)
    (kinds : Entity.Kind → Bool) : s.idsOf kinds <+: (s.push e).idsOf kinds := by
  have hdeclared : (s.push e).declared = s.declared ++ [(s.entities.length, e)] := by
    rw [h'.declared_eq, h.declared_eq]
    show (s.entities ++ [e]).mapIdx _ = _
    rw [List.mapIdx_append, List.mapIdx_cons, List.mapIdx_nil, Nat.zero_add]
  unfold idsOf
  rw [hdeclared, List.filter_append, List.map_append]
  exact List.prefix_append _ _

/-! ## Scopes with the same declarations -/

/-- The entities of a scope are declared in a wider one. -/
theorem Within.corresponds (h : s.Within s') : Corresponds (fun id => id) s s' where
  ids := h.ids
  held id e he := ⟨e, h.entities id e he, rfl⟩

/-- What is declared does not depend on how far the scopes are linked. -/
theorem Corresponds.of_erase_eq (h : Corresponds ρ base base')
    (hs : s.erase = base.erase) (hs' : s'.erase = base'.erase) : Corresponds ρ s s' where
  ids name id hid := by
    rw [id?_eq_of_erase_eq hs']
    exact h.ids name id (id?_eq_of_erase_eq hs name ▸ hid)
  held id e he := by
    obtain ⟨f, hf, hfe⟩ := exists_entity?_of_erase_eq hs.symm he
    obtain ⟨f', hf', hff⟩ := h.held id f hf
    obtain ⟨e', he', hef⟩ := exists_entity?_of_erase_eq hs' hf'
    exact ⟨e', he', hef.trans (hff.trans hfe)⟩

theorem steps_eq_of_erase_eq (h : s'.erase = s.erase) : s'.steps = s.steps := by
  have hlength := congrArg (fun s => s.entities.length) h
  unfold steps
  simpa [Scope.erase] using hlength

/-! ## Finding method lists side by side -/

variable {left k : Nat} {t : Trail} {table table₁ : MethodTable} {own : List Function}
  {stored inherited : List Method}

theorem findMethods_known (left : Nat) (t : Trail) {methods : List Method}
    (hknown : table.known.lookup id = some methods) :
    s.findMethods left t table id = .ok (methods, table) := by
  unfold findMethods
  simp only [hknown]

/-- A new service that extends nothing. -/
theorem findMethods_root (hnone : table.known.lookup id = none)
    (he : s.entity? id = some e) (hnew : id ∉ t) (hbody : e.body = .service own none stored) :
    s.findMethods (k + 1) t table id
      = .ok (s.methodsFrom id own [],
        { table with known := (id, s.methodsFrom id own []) :: table.known }) := by
  have hcontains : t.contains id = false := by simpa using hnew
  unfold findMethods
  simp only [hnone, he, hcontains, hbody, Bool.false_eq_true, if_false, Option.bind_none]

/-- A new service that extends another one. -/
theorem findMethods_child (hnone : table.known.lookup id = none)
    (he : s.entity? id = some e) (hnew : id ∉ t) {r : Reference EntityId}
    (hbody : e.body = .service own (some r) stored) {p : EntityId}
    (htarget : r.target = some p)
    (hfind : s.findMethods k (id :: t) table p = .ok (inherited, table₁)) :
    s.findMethods (k + 1) t table id
      = .ok (s.methodsFrom id own inherited, {
          known := (id, s.methodsFrom id own inherited) :: table₁.known
          warnings := table₁.warnings ++ s.overrideWarnings e.name own inherited }) := by
  have hcontains : t.contains id = false := by simpa using hnew
  unfold findMethods
  simp only [hnone, he, hcontains, hbody, Bool.false_eq_true, if_false,
    Option.bind_some, htarget, hfind]

/-- Without steps left nothing new is found. -/
theorem findMethods_pos {methods : List Method} (he : s.entity? id = some e)
    (hnone : table.known.lookup id = none)
    (hok : s.findMethods left t table id = .ok (methods, table₁)) : 0 < left := by
  cases left with
  | zero =>
    unfold findMethods at hok
    simp only [hnone, he, reduceCtorEq] at hok
  | succ k => exact Nat.succ_pos k

/-- Under the same handles the method list of a service is the same. -/
theorem Corresponds.methodsFrom_eq (h : Corresponds (fun id => id) s s') (id : EntityId)
    {own own' : List Function} (hown : own'.map Function.erase = own.map Function.erase)
    (hheld : ∀ m ∈ inherited, ∃ e, s.entity? m.service = some e) :
    s'.methodsFrom id own' inherited = s.methodsFrom id own inherited := by
  have hrename := h.methodsFrom_rename id hown hheld
  rw [map_rename_self, map_rename_self] at hrename
  exact hrename.symm

/-- Under the same handles the warnings about a service are the same. -/
theorem Corresponds.overrideWarnings_eq (h : Corresponds (fun id => id) s s')
    (service : String) {own own' : List Function}
    (hown : own'.map Function.erase = own.map Function.erase)
    (hheld : ∀ m ∈ inherited, ∃ e, s.entity? m.service = some e) :
    s'.overrideWarnings service own' inherited
      = s.overrideWarnings service own inherited := by
  have hrename := h.overrideWarnings_rename service hown hheld
  rwa [map_rename_self] at hrename

/-- **What is found in one scope is found in another one** with the same
declarations under the same handles, however many more there are. -/
theorem Corresponds.findMethods (h : Corresponds (fun id => id) s s')
    (harena : s.IsArena) (harena' : s'.IsArena) (hparents : s.ParentsBound)
    (hparents' : s'.ParentsBound) {left left' : Nat} (hleft : left ≤ left') {t : Trail}
    {table table' : MethodTable} {methods : List Method} (htable : s.Collects table)
    (he : s.entity? id = some e) (hkind : e.kind = .service)
    (hok : s.findMethods left t table id = .ok (methods, table')) :
    s'.findMethods left' t table id = .ok (methods, table') := by
  induction left using Nat.strong_induction_on
    generalizing left' t table table' id e methods with
  | _ left ih =>
    rcases hparents.findMethods_cases he hkind hok with
      ⟨hlookup, rfl⟩ | ⟨hlookup, hnew, own, stored, hbody, rfl, rfl⟩
      | ⟨hlookup, hnew, k, own, r, stored, p, f, inherited, table₁, rfl, hbody,
        hf, hname, hservice, hfind, rfl, rfl⟩
    · exact findMethods_known left' t hlookup
    · obtain ⟨e', own', parent', stored', he', -, hbody', hown, hparent⟩ :=
        h.exists_service he hbody
      cases Option.map_eq_none_iff.mp hparent
      have hpos := findMethods_pos he hlookup hok
      obtain ⟨k, rfl⟩ : ∃ k, left' = k + 1 := ⟨left' - 1, by omega⟩
      rw [← h.methodsFrom_eq id hown fun m hm => absurd hm List.not_mem_nil]
      exact findMethods_root hlookup he' hnew hbody'
    · obtain ⟨e', own', parent', stored', he', hename, hbody', hown, hparent⟩ :=
        h.exists_service he hbody
      obtain ⟨r', rfl, hr⟩ := Option.map_eq_some_iff.mp hparent
      obtain ⟨j, rfl⟩ : ∃ j, left' = j + 1 := ⟨left' - 1, by omega⟩
      obtain ⟨hinherits, -⟩ :=
        harena.findMethods_collects hparents htable hf hservice hfind
      -- both services extend what the name means, which is the same
      have hparent' : r' ∈ e'.body.parent? := by
        rw [hbody']
        rfl
      obtain ⟨p', f', htarget, hf', hname', -⟩ := hparents' id e' he' r' hparent'
      have hsame : r'.name = r.name := (congrArg Reference.name hr :)
      have hp := h.ids r.name p (harena.id?_eq_some.mpr ⟨f, hf, hname⟩)
      have hp' := harena'.id?_eq_some.mpr ⟨f', hf', hname'.trans hsame⟩
      obtain rfl : p' = p := Option.some.inj (hp'.symm.trans hp)
      have hfind' := ih k (Nat.lt_succ_self k) (Nat.le_of_succ_le_succ hleft) htable hf
        hservice hfind
      rw [← h.methodsFrom_eq id hown hinherits.exists_entity,
        ← h.overrideWarnings_eq e.name hown hinherits.exists_entity, ← hename]
      exact findMethods_child hlookup he' hnew hbody' htarget hfind'

/-- Finding a list adds warnings at the end. -/
theorem warnings_findMethods {methods : List Method}
    (hok : s.findMethods left t table id = .ok (methods, table₁)) :
    table.warnings <+: table₁.warnings := by
  induction left generalizing t table table₁ id methods with
  | zero =>
    unfold findMethods at hok
    split at hok
    next => cases hok; exact List.prefix_rfl
    next => cases hok; exact List.prefix_rfl
    next => cases hok
  | succ k ih =>
    unfold findMethods at hok
    split at hok
    next => cases hok; exact List.prefix_rfl
    next => cases hok; exact List.prefix_rfl
    next =>
      dsimp only at hok
      split at hok
      next => cases hok
      next =>
        split at hok
        next =>
          split at hok
          next => cases hok; exact List.prefix_rfl
          next =>
            split at hok
            next => cases hok
            next hfind =>
              cases hok
              exact (ih hfind).trans (List.prefix_append _ _)
        next => cases hok; exact List.prefix_rfl

/-- A step over a service adds warnings at the end. -/
theorem warnings_serviceStep {state state' : Scope × MethodTable}
    (hok : serviceStep state id = .ok state') :
    state.2.warnings <+: state'.2.warnings := by
  obtain ⟨s, table⟩ := state
  unfold serviceStep at hok
  dsimp only at hok
  split at hok
  next e _ =>
    split at hok
    next =>
      simp only [bind_eq_ok, pure_eq_ok, Prod.exists] at hok
      obtain ⟨-, -, -, -, methods, table₁, hfind, rfl⟩ := hok
      exact warnings_findMethods hfind
    next => cases hok; exact List.prefix_rfl
  next => cases hok; exact List.prefix_rfl

/-! ## Services side by side -/

/-- **Two sweeps over the same services** that both come to their end find the same
lists and the same warnings. -/
theorem Stage.table_eq (h : Corresponds (fun id => id) base base')
    (hsteps : base.steps ≤ base'.steps) {ids : List EntityId}
    (hids : ids ⊆ base.idsOf (· == .service)) {table table₁ table₁' : MethodTable}
    (htable : base.Collects table) {s s₁ s' s₁' : Scope}
    (hstage : base.Stage d (Entity.BoundIf base d beforeServices (· == .service)) s)
    (hstage' : base'.Stage d' (Entity.BoundIf base' d' beforeServices (· == .service)) s')
    (hending : base.EndingTable d table) (hending' : base'.EndingTable d' table)
    (hok : sweep serviceStep (s, table) ids = .ok (s₁, table₁))
    (hok' : sweep serviceStep (s', table) ids = .ok (s₁', table₁')) :
    table₁' = table₁ := by
  induction ids generalizing s s' table with
  | nil =>
    cases hok
    cases hok'
    rfl
  | cons id ids ih =>
    obtain ⟨hid, hids⟩ := List.cons_subset.mp hids
    obtain ⟨⟨next, known⟩, hnext, hok⟩ := sweep_cons_eq_ok.mp hok
    obtain ⟨⟨next', known'⟩, hnext', hok'⟩ := sweep_cons_eq_ok.mp hok'
    obtain ⟨e, he, hkind⟩ := hstage.exists_of_mem_idsOf hid
    have hkind := beq_iff_eq.mp hkind
    have hsame := h.of_erase_eq hstage.same hstage'.same
    obtain ⟨own, parent, stored, hbody⟩ := Entity.exists_service_of_kind hkind
    obtain ⟨e', own', parent', stored', he', -, hbody', -⟩ := hsame.exists_service he hbody
    have hkind' : (e'.kind == .service) = true :=
      beq_iff_eq.mpr (congrArg Entity.Body.kind hbody')
    obtain ⟨-, -, methods, -, hfind, -⟩ := (serviceStep_eq_ok he hbody).mp hnext
    obtain ⟨-, -, methods', -, hfind', -⟩ := (serviceStep_eq_ok he' hbody').mp hnext'
    -- the service is looked up in both scopes with the same table
    have hleft : s.steps ≤ s'.steps := by
      rw [steps_eq_of_erase_eq hstage.same, steps_eq_of_erase_eq hstage'.same]
      exact hsteps
    have hfound := hsame.findMethods hstage.models.arena hstage'.models.arena
      hstage.parentsBound hstage'.parentsBound hleft (htable.of_erase_eq hstage.same) he
      hkind hfind
    cases hfound.symm.trans hfind'
    obtain ⟨htable', -⟩ := hstage.serviceStep_collects htable he hkind hnext
    obtain ⟨hinv, b, hview, herase, hbound, hknown, -⟩ := serviceStep_keeps rfl
      beforeServices_eq_false _ id e _ hstage hending he (beq_iff_eq.mpr hkind) hnext
    obtain ⟨hinv', b', hview', herase', hbound', hknown', -⟩ := serviceStep_keeps rfl
      beforeServices_eq_false _ id e' _ hstage' hending' he' hkind' hnext'
    obtain rfl : next = s.setBody id b := hview
    obtain rfl : next' = s'.setBody id b' := hview'
    exact ih hids htable' (hstage.setBody he herase hbound hknown)
      (hstage'.setBody he' herase' hbound' hknown') hinv hinv' hok hok'

/-- What the second sweep over services begins and ends with. -/
theorem Models.exists_sweep_of_link (h : base.Models d) {warnings : List Warning}
    (hok : base.link = .ok (s, warnings)) :
    ∃ bound state,
      base.Stage d (Entity.BoundIf base d beforeServices (· == .service)) bound
        ∧ sweep serviceStep (bound, .empty) (base.idsOf (· == .service)) = .ok state
        ∧ warnings = state.2.warnings := by
  unfold link at hok
  simp only [bind_eq_ok] at hok
  obtain ⟨s₁, hconstants, s₂, htypes, hservices⟩ := hok
  have hstage := (h.stage.linkConstants_sound hconstants).linkTypes_sound htypes
  obtain ⟨bound, state, hbind, hsweep, -, hwarnings⟩ :=
    (linkServices_eq_ok (idsOf_eq_of_erase_eq hstage.same _)).mp hservices
  obtain ⟨-, hbound⟩ := sweep_idsOf_sound (bindStep_keeps beforeServices_eq_false)
    hstage trivial hbind
  exact ⟨bound, state, hbound, hsweep, hwarnings⟩

/-- **The warnings of a scope come first** when a wider scope is linked. -/
theorem Models.warnings_prefix (h : base.Models d) (h' : base'.Models d')
    (hwithin : base.Within base')
    (hids : base.idsOf (· == .service) <+: base'.idsOf (· == .service))
    {warnings warnings' : List Warning} (hok : base.link = .ok (s, warnings))
    (hok' : base'.link = .ok (s', warnings')) : warnings <+: warnings' := by
  obtain ⟨bound, state, hstage, hsweep, rfl⟩ := h.exists_sweep_of_link hok
  obtain ⟨bound', state', hstage', hsweep', rfl⟩ := h'.exists_sweep_of_link hok'
  -- the services of the smaller scope are looked at first
  obtain ⟨more, hmore⟩ := hids
  rw [← hmore] at hsweep'
  obtain ⟨between, hfirst, hrest⟩ := sweep_append_eq_ok.mp hsweep'
  have htable : between.2 = state.2 := Stage.table_eq hwithin.corresponds hwithin.steps
    (List.Subset.refl _) collects_empty hstage hstage' endingTable_empty
    endingTable_empty hsweep hfirst
  have hprefix : between.2.warnings <+: state'.2.warnings :=
    sweep_induct (P := fun state => between.2.warnings <+: state.2.warnings)
      (fun _ _ _ hkept hstep => hkept.trans (warnings_serviceStep hstep))
      List.prefix_rfl hrest
  exact htable ▸ hprefix

end Scope

/-! ## Entities -/

theorem Entity.Body.sameStored_self (b : Entity.Body) :
    Entity.Body.SameStored (fun id => id) b b := by
  cases b with
  | service functions parent methods =>
    exact ⟨rfl, rfl, (Scope.map_rename_self methods).symm⟩
  | _ => simp [SameStored]

/-- Under the same handles it does not matter which body comes first. -/
theorem Entity.Body.SameStored.symm_self {b b' : Entity.Body}
    (h : Entity.Body.SameStored (fun id => id) b b') :
    Entity.Body.SameStored (fun id => id) b' b := by
  cases b <;> cases b' <;> simp only [SameStored] at h ⊢
  · exact h.symm
  · exact h.symm
  · rw [Scope.map_rename_self] at h ⊢
    exact ⟨h.1.symm, h.2.1.symm, h.2.2.symm⟩

namespace Scope

variable {s s' : Scope} {d d' : Document}

theorem Models.aligned_self (h : s.Models d) : Aligned (fun id => id) s s d where
  toCorresponds := corresponds_of_erase_eq rfl
  arena := h.arena
  models := h

/-- **Bodies that are bound under the same handles** and have the same values and
methods are equal. -/
theorem Aligned.body_eq_self (h : Aligned (fun id => id) s s' d') (hmodels : s.Models d)
    {b b' : Entity.Body} (herase : b'.erase = b.erase) (hbound : b.Bound s)
    (hbound' : b'.Bound s') (hsame : Entity.Body.SameStored (fun id => id) b b') :
    b' = b := by
  have hself : b = b.rename fun id => id :=
    hmodels.aligned_self.body_eq rfl hbound hbound b.sameStored_self
  exact (h.body_eq herase hbound hbound' hsame).trans hself.symm

end Scope

namespace Document

variable {d : Document} {x : Definition} {name : String} {c c' : Compiled}

/-- The scopes that are linked, before and after. -/
theorem exists_scopes_of_compile_push (hok : d.compile name = .ok c)
    (hok' : (d.push x).compile name = .ok c') :
    ∃ (base : Scope) (e : Entity), base.Models d ∧ (base.push e).Models (d.push x)
      ∧ base.link = .ok (c.scope, c.warnings)
      ∧ (base.push e).link = .ok (c'.scope, c'.warnings) := by
  obtain ⟨-, base, hs, hlink⟩ := compile_eq_ok.mp hok
  obtain ⟨-, base', hs', hlink'⟩ := compile_eq_ok.mp hok'
  obtain ⟨e, rfl⟩ := Scope.exists_push_of_defineAll hs hs'
  exact ⟨base, e, Scope.models_of_defineAll hs, Scope.models_of_defineAll hs', hlink,
    hlink'⟩

/-- What was declared is declared under the same handles. -/
theorem aligned_of_compile_push (hok : d.compile name = .ok c)
    (hok' : (d.push x).compile name = .ok c') :
    Scope.Aligned (fun id => id) c.scope c'.scope (d.push x) := by
  obtain ⟨base, e, hm, hm', hlink, hlink'⟩ := exists_scopes_of_compile_push hok hok'
  have hdeclared := (base.within_push e).corresponds.of_erase_eq
    (hm.stage_link hlink).same (hm'.stage_link hlink').same
  exact ⟨hdeclared, (stage_of_compile hok).models.arena, (stage_of_compile hok').models⟩

/-- **The old warnings come first.** -/
theorem warnings_of_compile_push (hok : d.compile name = .ok c)
    (hok' : (d.push x).compile name = .ok c') : c.warnings <+: c'.warnings := by
  obtain ⟨base, e, hm, hm', hlink, hlink'⟩ := exists_scopes_of_compile_push hok hok'
  exact hm.warnings_prefix hm' (base.within_push e)
    (hm.arena.idsOf_prefix_push hm'.arena _) hlink hlink'

/-- **What is compiled does not change** when one more definition is. -/
theorem entity?_of_compile_push (hok : d.compile name = .ok c)
    (hok' : (d.push x).compile name = .ok c') {id : EntityId} {e : Entity}
    (he : c.scope.entity? id = some e) : c'.scope.entity? id = some e := by
  have hstage := stage_of_compile hok
  have hstage' := stage_of_compile hok'
  have haligned := aligned_of_compile_push hok hok'
  obtain ⟨e', he', herase⟩ := haligned.held id e he
  obtain ⟨body, hdefines, hdeclared⟩ := hstage.models.exists_defines he
  have hname := Entity.name_eq_of_erase_eq herase
  have hdefines' : (d.push x).Defines e'.name body :=
    hname ▸ d.within_push x _ _ hdefines
  have hdeclared' := hstage'.models.declaredAs he' hdefines'
  have hlinked := hstage.each id e he
  have hlinked' := hstage'.each id e' he'
  -- the method lists of both scopes follow from their declarations
  have hmethods : ∀ own own' parent parent' methods methods',
      e'.body = .service own parent methods → e.body = .service own' parent' methods' →
      methods' = methods.map (Method.rename fun id => id) := by
    intro own own' parent parent' methods methods' hbody' hbody
    have hlist := (methodsCollected_of_compile hok).methods id e own' parent' methods' he
      hbody
    have hlist' := (methodsCollected_of_compile hok').methods id e' own parent methods he'
      hbody'
    have hrenamed := haligned.hasMethods hlist
    rw [Scope.map_rename_self] at hrenamed ⊢
    exact hrenamed.unique hlist'
  have hsame := Definition.Body.ValuedAs.sameStored hstage'.models (d.within_push x)
    hdeclared' hdeclared (hlinked'.settled body hdefines').2
    (hlinked.settled body hdefines).2 (bareExceptions_of_compile hok' id e' he')
    (bareExceptions_of_compile hok id e he) hmethods
  have hbody : e'.body = e.body := haligned.body_eq_self hstage.models
    (congrArg Entity.body herase) hlinked.bound.1 hlinked'.bound.1 hsame.symm_self
  have heq : e' = e := by
    obtain ⟨entityName, span, resolved, body⟩ := e'
    cases hname
    cases (congrArg Entity.span herase :)
    cases hlinked'.resolved.trans hlinked.resolved.symm
    cases hbody
    rfl
  rw [he', heq]

/-- **The scope is the old one with one entity more.** -/
theorem scope_of_compile_push (hok : d.compile name = .ok c)
    (hok' : (d.push x).compile name = .ok c') :
    ∃ e, c'.scope = c.scope.push e ∧ x.DeclaredAs e := by
  have hm := (stage_of_compile hok).models
  have hm' := (stage_of_compile hok').models
  have hprefix : c.scope.entities <+: c'.scope.entities := by
    refine List.prefix_iff_getElem?.mpr fun id hid => ?_
    exact entity?_of_compile_push hok hok' (List.getElem?_eq_getElem hid)
  obtain ⟨new, hnew⟩ := hprefix
  have hlast : List.Forall₂ Definition.DeclaredAs [x] new := by
    have hdrop := List.forall₂_drop d.definitions.length hm'.declared
    rw [← hnew, hm.declared.length_eq, List.drop_left] at hdrop
    rw [← hm.declared.length_eq] at hdrop
    have hx : (d.push x).definitions.drop d.definitions.length = [x] := List.drop_left
    exact hx ▸ hdrop
  obtain ⟨e, hdeclared, rfl⟩ : ∃ e, x.DeclaredAs e ∧ new = [e] := by
    cases hlast with | cons hx hnil =>
    cases hnil
    exact ⟨_, hx, rfl⟩
  refine ⟨e, ?_, hdeclared⟩
  have hname : c'.scope.name = c.scope.name :=
    (name_of_compile hok').trans (name_of_compile hok).symm
  have hsymbols : c'.scope.symbols
      = c.scope.symbols ++ [(e.name, c.scope.entities.length)] := by
    rw [hm'.arena.symbols, hm.arena.symbols, ← hnew, List.mapIdx_append, List.mapIdx_cons,
      List.mapIdx_nil, Nat.zero_add]
  obtain ⟨⟨unit, entities, symbols⟩, warnings⟩ := c'
  cases hname
  cases hnew
  cases hsymbols
  rfl

/-- **Compiling is conservative.** If a document is compiled, and also with one more
definition at its end, then the scope has got one entity and its symbol, and is
otherwise as it was: the handles, the values of constants and defaults and the
methods are the same. The warnings are the same, with new ones behind them. And
every value that could be sent or received is sent or received as before. -/
theorem compile_push (hok : d.compile name = .ok c)
    (hok' : (d.push x).compile name = .ok c') :
    (∃ e, c'.scope = c.scope.push e ∧ x.DeclaredAs e)
      ∧ c.warnings <+: c'.warnings
      ∧ (∀ (ty : Ty) (v : Value) (w : Wire),
        v.toWire c.scope ty = .ok w → v.toWire c'.scope ty = .ok w)
      ∧ ∀ (ty : Ty) (w : Wire) (v : Value),
        w.toValue c.scope ty = .ok v → w.toValue c'.scope ty = .ok v := by
  have hscope := scope_of_compile_push hok hok'
  have hwithin : c.scope.Within c'.scope := by
    obtain ⟨e, heq, -⟩ := hscope
    exact heq ▸ c.scope.within_push e
  refine ⟨hscope, warnings_of_compile_push hok hok', ?_, ?_⟩
  · exact fun ty v w hw => Value.toWire_within hwithin hw
  · exact fun ty w v hv => Wire.toValue_within hwithin (tellsApart_of_compile hok)
      (tellsApart_of_compile hok') hv

/-- A fourth service, which extends the first one and declares one of its functions
again. -/
def edge : Definition :=
  ⟨"Edge", ⟨12, 1⟩, .service [⟨"stop", [], none, [], false, ⟨13, 3⟩⟩]
    (some ⟨"Top", ⟨12, 22⟩⟩)⟩

def edgedScope : Scope :=
  layeredScope.push ⟨"Edge", ⟨12, 1⟩, true, .service
    [⟨"stop", [], none, [], false, ⟨13, 3⟩⟩] (some ⟨"Top", ⟨12, 22⟩, some 0⟩)
    [⟨2, 0⟩, ⟨0, 1⟩, ⟨3, 0⟩]⟩

section

open Evaluation

theorem compile_edged : (layered.push edge).compile "layered" = .ok ⟨edgedScope,
    [⟨"poll", "Middle", "Base", ⟨10, 3⟩⟩, ⟨"start", "Top", "Base", ⟨3, 3⟩⟩,
      ⟨"stop", "Edge", "Top", ⟨13, 3⟩⟩]⟩ := by
  simp [layered, layeredScope, edge, edgedScope, push, Scope.push]

end

/-- The fourth service leaves the three others as they were. -/
theorem compile_push_layered :
    (∃ e, edgedScope = layeredScope.push e ∧ edge.DeclaredAs e)
      ∧ [⟨"poll", "Middle", "Base", ⟨10, 3⟩⟩, ⟨"start", "Top", "Base", ⟨3, 3⟩⟩]
        <+: ([⟨"poll", "Middle", "Base", ⟨10, 3⟩⟩, ⟨"start", "Top", "Base", ⟨3, 3⟩⟩,
          ⟨"stop", "Edge", "Top", ⟨13, 3⟩⟩] : List Warning)
      ∧ (∀ (ty : Ty) (v : Value) (w : Wire),
        v.toWire layeredScope ty = .ok w → v.toWire edgedScope ty = .ok w)
      ∧ ∀ (ty : Ty) (w : Wire) (v : Value),
        w.toValue layeredScope ty = .ok v → w.toValue edgedScope ty = .ok v :=
  compile_push compile_layered compile_edged

end Document

end Interlink
