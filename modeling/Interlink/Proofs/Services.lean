import Interlink.Catalog
import Interlink.Proofs.Link.MethodLists
import Interlink.Proofs.Linked

/-!
# What a service offers

The services that a service extends form a chain (`Scope.Lineage`), and a name
means the function of the first service of the chain that declares it
(`Scope.nearest?`). The method list that is stored with a service is that: one
method for each name that is declared anywhere in the chain, the nearest one
(`Scope.OffersNearest`).

A list is made from that of the parent, in one step that looks at one service
only. What the step keeps is `OffersNearest` along a chain that is longer by
one service (`OffersNearest.methodsFrom`); it needs that the service does not
declare a name twice, which has been checked for all services when linking is
done, though not when the list was made.
-/

namespace Interlink

open Entity (Function Method)

namespace Scope

variable {s : Scope} {id : EntityId} {e : Entity}

/-! ## The nearest function -/

/-- The functions that a service declares. -/
def functionsOf (s : Scope) (id : EntityId) : List Function :=
  match s.entity? id with
  | some ⟨_, _, _, .service functions _ _⟩ => functions
  | _ => []

/-- The method that a service declares under a name. -/
def declared? (s : Scope) (name : String) (id : EntityId) : Option Method :=
  ((s.functionsOf id).findIdx? fun f => f.name == name).map fun index => ⟨id, index⟩

/-- **The nearest method with a name**: that of the first service of a chain
that declares one. -/
def nearest? (s : Scope) (chain : List EntityId) (name : String) :
    Option Method :=
  chain.findSome? (s.declared? name)

/-- **The chain of a service**: the service, the one that it extends, and so
on, up to one that extends nothing. -/
inductive Lineage (s : Scope) : EntityId → List EntityId → Prop
  | last {id : EntityId} {e : Entity} (held : s.entity? id = some e)
      (service : e.kind = .service) (root : e.body.parent? = none) :
      Lineage s id [id]
  | cons {id p : EntityId} {chain : List EntityId}
      (parent : s.ServiceExtends id p) (rest : Lineage s p chain) :
      Lineage s id (id :: chain)

/-- **A list of methods is what a chain of services offers**: of every name that
is declared somewhere in the chain the nearest function, once, and nothing
else. -/
structure OffersNearest (s : Scope) (chain : List EntityId)
    (methods : List Method) : Prop where
  /-- A method is a function, and the nearest one with its name. -/
  nearest : ∀ m ∈ methods, ∃ f, s.function? m = some f
    ∧ s.nearest? chain f.name = some m
  /-- The nearest function with a name is there. -/
  complete : ∀ name m, s.nearest? chain name = some m → m ∈ methods
  /-- No name is there twice. -/
  once : (methods.map fun m => (s.function? m).map Function.name).Nodup

theorem function?_eq (s : Scope) (m : Method) :
    s.function? m = (s.functionsOf m.service)[m.index]? := by
  unfold function? functionsOf
  cases s.entity? m.service with
  | none => rfl
  | some e =>
    obtain ⟨name, span, resolved, body⟩ := e
    cases body <;> rfl

theorem functionsOf_eq (he : s.entity? id = some e) {own : List Function}
    {parent : Option (Reference EntityId)} {stored : List Method}
    (hbody : e.body = .service own parent stored) : s.functionsOf id = own := by
  obtain ⟨name, span, resolved, body⟩ := e
  obtain rfl : body = _ := hbody
  unfold functionsOf
  rw [he]

/-- A method that a service declares under a name is one of its functions, and
has that name. -/
theorem function?_of_declared? {name : String} {m : Method}
    (h : s.declared? name id = some m) :
    m.service = id ∧ ∃ f, s.function? m = some f ∧ f.name = name := by
  obtain ⟨i, hi, rfl⟩ := Option.map_eq_some_iff.mp h
  obtain ⟨hlt, hname, -⟩ := List.findIdx?_eq_some_iff_getElem.mp hi
  refine ⟨rfl, (s.functionsOf id)[i], ?_, beq_iff_eq.mp hname⟩
  rw [function?_eq]
  exact List.getElem?_eq_getElem hlt

/-- A function of a service is what the service declares under its name, if it
does not declare a name twice. -/
theorem declared?_of_function? (hnodup : ((s.functionsOf id).map Function.name).Nodup)
    {i : Nat} {f : Function} (hf : s.function? ⟨id, i⟩ = some f) :
    s.declared? f.name id = some ⟨id, i⟩ := by
  rw [function?_eq] at hf
  obtain ⟨hlt, rfl⟩ := List.getElem?_eq_some_iff.mp hf
  refine Option.map_eq_some_iff.mpr ⟨i, ?_, rfl⟩
  refine List.findIdx?_eq_some_iff_getElem.mpr ⟨hlt, beq_self_eq_true _, ?_⟩
  intro j hj hname
  have hpairs := List.pairwise_map.mp hnodup
  exact List.pairwise_iff_getElem.mp hpairs j i (hj.trans hlt) hlt hj
    (beq_iff_eq.mp hname)

/-- A service declares nothing under a name that none of its functions has. -/
theorem declared?_eq_none {name : String} :
    s.declared? name id = none ↔ name ∉ (s.functionsOf id).map Function.name := by
  unfold declared?
  rw [Option.map_eq_none_iff, List.findIdx?_eq_none_iff]
  simp [List.mem_map]

/-- The nearest method with a name has that name. -/
theorem function?_of_nearest? {chain : List EntityId} {name : String} {m : Method}
    (h : s.nearest? chain name = some m) :
    ∃ f, s.function? m = some f ∧ f.name = name := by
  obtain ⟨i, -, hi⟩ := List.exists_of_findSome?_eq_some h
  exact (function?_of_declared? hi).2

/-- There is no nearest method with a name that no service of the chain
declares. -/
theorem nearest?_eq_none {chain : List EntityId} {name : String} :
    s.nearest? chain name = none ↔
      ∀ i ∈ chain, ∀ f ∈ s.functionsOf i, f.name ≠ name := by
  unfold nearest?
  rw [List.findSome?_eq_none_iff]
  refine forall₂_congr fun i _ => ?_
  rw [declared?_eq_none]
  simp only [List.mem_map, not_exists, not_and]

/-- The nearest method along a chain that is longer by one service. -/
theorem nearest?_cons (s : Scope) (id : EntityId) (chain : List EntityId)
    (name : String) :
    s.nearest? (id :: chain) name
      = (s.declared? name id).or (s.nearest? chain name) := by
  unfold nearest?
  rw [List.findSome?_cons]
  cases s.declared? name id <;> rfl

/-! ## From a parent to its children -/

/-- A method is inherited if the service does not declare its name. -/
theorem override?_isNone {own : List Function} {m : Method} :
    (s.override? own m).isNone
      = (s.function? m).all fun f => f.name ∉ own.map Function.name := by
  unfold override?
  cases s.function? m with
  | none => rfl
  | some f =>
    rw [Option.bind_some, Option.all_some, Bool.eq_iff_iff, Option.isNone_iff_eq_none,
      List.find?_eq_none, decide_eq_true_iff]
    simp only [List.mem_map, not_exists, not_and, beq_iff_eq]

/-- The methods of a service are those it inherits, and its own. -/
theorem mem_methodsFrom {own : List Function} {inherited : List Method} {m : Method} :
    m ∈ s.methodsFrom id own inherited ↔
      (m ∈ inherited ∧ (s.override? own m).isNone = true)
        ∨ ∃ i < own.length, m = ⟨id, i⟩ := by
  unfold methodsFrom
  simp only [List.mem_append, List.mem_filter, List.mem_map, List.mem_range,
    @eq_comm _ m]

/-- The names of the methods that a service declares. -/
theorem map_function?_own (s : Scope) (id : EntityId) :
    ((List.range (s.functionsOf id).length).map fun index => Method.mk id index).map
        (fun m => (s.function? m).map Function.name)
      = ((s.functionsOf id).map Function.name).map some := by
  refine List.ext_getElem (by simp) fun i hi hi' => ?_
  simp only [List.length_map, List.length_range] at hi
  simp only [List.getElem_map, List.getElem_range, function?_eq,
    List.getElem?_eq_getElem hi, Option.map_some]

namespace OffersNearest

variable {chain : List EntityId} {inherited : List Method}

/-- A method that is inherited has a name that the service does not declare. -/
theorem exists_of_kept (h : s.OffersNearest chain inherited) {m : Method}
    (hm : m ∈ inherited)
    (hkept : (s.override? (s.functionsOf id) m).isNone = true) :
    ∃ f, s.function? m = some f ∧ s.nearest? chain f.name = some m
      ∧ f.name ∉ (s.functionsOf id).map Function.name := by
  obtain ⟨f, hf, hnearest⟩ := h.nearest m hm
  rw [override?_isNone, hf, Option.all_some, decide_eq_true_iff] at hkept
  exact ⟨f, hf, hnearest, hkept⟩

theorem nodup_methodsFrom (h : s.OffersNearest chain inherited)
    (hnodup : ((s.functionsOf id).map Function.name).Nodup) :
    ((s.methodsFrom id (s.functionsOf id) inherited).map fun m =>
      (s.function? m).map Function.name).Nodup := by
  unfold Scope.methodsFrom
  rw [List.map_append, map_function?_own]
  refine List.nodup_append.mpr ⟨?_, ?_, ?_⟩
  · exact h.once.sublist (List.filter_sublist.map _)
  · exact hnodup.map fun _ _ heq => Option.some.inj heq
  · intro name hname name' hname' heq
    subst heq
    obtain ⟨m, hm, rfl⟩ := List.mem_map.mp hname
    obtain ⟨hm, hkept⟩ := List.mem_filter.mp hm
    obtain ⟨f, hf, -, hnew⟩ := h.exists_of_kept hm hkept
    rw [hf] at hname'
    obtain ⟨_, hmem, hsome⟩ := List.mem_map.mp hname'
    exact hnew (Option.some.inj hsome ▸ hmem)

/-- **One step along the chain.** What a chain offers and the functions of one
more service in front of it make what the longer chain offers. -/
theorem methodsFrom (h : s.OffersNearest chain inherited)
    (hnodup : ((s.functionsOf id).map Function.name).Nodup) :
    s.OffersNearest (id :: chain)
      (s.methodsFrom id (s.functionsOf id) inherited) := by
  refine ⟨fun m hm => ?_, fun name m hnearest => ?_, h.nodup_methodsFrom hnodup⟩
  · rcases mem_methodsFrom.mp hm with ⟨hm, hkept⟩ | ⟨i, hi, rfl⟩
    · obtain ⟨f, hf, hnearest, hnew⟩ := h.exists_of_kept hm hkept
      refine ⟨f, hf, ?_⟩
      rw [nearest?_cons, declared?_eq_none.mpr hnew, Option.none_or]
      exact hnearest
    · have hown : s.function? ⟨id, i⟩ = some (s.functionsOf id)[i] := by
        rw [function?_eq]
        exact List.getElem?_eq_getElem hi
      refine ⟨_, hown, ?_⟩
      rw [nearest?_cons, declared?_of_function? hnodup hown, Option.some_or]
  · rw [nearest?_cons] at hnearest
    cases hdeclared : s.declared? name id with
    | some m' =>
      rw [hdeclared, Option.some_or, Option.some.injEq] at hnearest
      subst hnearest
      obtain ⟨rfl, f, hf, -⟩ := function?_of_declared? hdeclared
      rw [function?_eq] at hf
      exact mem_methodsFrom.mpr
        (.inr ⟨m'.index, (List.getElem?_eq_some_iff.mp hf).1, rfl⟩)
    | none =>
      rw [hdeclared, Option.none_or] at hnearest
      obtain ⟨f, hf, rfl⟩ := function?_of_nearest? hnearest
      refine mem_methodsFrom.mpr (.inl ⟨h.complete _ m hnearest, ?_⟩)
      rw [override?_isNone, hf, Option.all_some, decide_eq_true_iff]
      exact declared?_eq_none.mp hdeclared

end OffersNearest

theorem offersNearest_nil : s.OffersNearest [] [] :=
  ⟨fun _ hm => absurd hm List.not_mem_nil,
    fun _ _ hnearest => (Option.some_ne_none _ hnearest.symm).elim, List.nodup_nil⟩

/-- **A service has one chain.** -/
theorem Lineage.unique {chain chain' : List EntityId} (h : s.Lineage id chain)
    (h' : s.Lineage id chain') : chain = chain' := by
  induction h generalizing chain' with
  | last he _ hroot =>
    cases h' with
    | last => rfl
    | cons hparent =>
      obtain ⟨e', r, he', hr, -⟩ := hparent
      cases he.symm.trans he'
      cases hroot.symm.trans hr
  | cons hparent _ ih =>
    obtain ⟨e, r, he, hr, htarget⟩ := hparent
    cases h' with
    | last he' _ hroot =>
      cases he.symm.trans he'
      cases hr.symm.trans hroot
    | cons hparent' hrest' =>
      obtain ⟨e', r', he', hr', htarget'⟩ := hparent'
      cases he.symm.trans he'
      cases hr.symm.trans hr'
      cases htarget.symm.trans htarget'
      rw [ih hrest']

/-! ## The method list of a service -/

/-- **Where a method list comes from, there is a chain**, and the list is what
the chain offers. -/
theorem HasMethods.exists_lineage {methods : List Method}
    (h : s.HasMethods id methods) (harena : s.IsArena) (hparents : s.ParentsBound)
    (hnodup : ∀ id, ((s.functionsOf id).map Function.name).Nodup) :
    ∃ chain, s.Lineage id chain ∧ s.OffersNearest chain methods := by
  induction h with
  | @root id e own stored he hbody =>
    have hoffers := offersNearest_nil.methodsFrom (hnodup id)
    rw [functionsOf_eq he hbody] at hoffers
    refine ⟨[id], .last he (congrArg Entity.Body.kind hbody) ?_, hoffers⟩
    rw [hbody]
    rfl
  | @child id p e own r stored inherited he hbody hp _ ih =>
    obtain ⟨chain, hlineage, hoffers⟩ := ih
    have hr : r ∈ e.body.parent? := by rw [hbody]; rfl
    obtain ⟨j, e', htarget, he', hname, -⟩ := hparents id e he r hr
    cases hp.symm.trans (harena.id?_eq_some.mpr ⟨e', he', hname⟩)
    have hoffers' := hoffers.methodsFrom (hnodup id)
    rw [functionsOf_eq he hbody] at hoffers'
    exact ⟨id :: chain, .cons ⟨e, r, he, hr, htarget⟩ hlineage, hoffers'⟩

/-- **What a service inherits**: nothing if it extends nothing, and otherwise
the list that is stored with the service that it is bound to. -/
def Inherits (s : Scope) (inherited : List Method) :
    Option (Reference EntityId) → Prop
  | none => inherited = []
  | some r => ∃ p e own parent, r.target = some p ∧ s.entity? p = some e
    ∧ e.body = .service own parent inherited

/-- **The stored list of a service comes from that of its parent.** -/
theorem MethodsCollected.exists_inherits {warnings : List Warning}
    (h : s.MethodsCollected warnings) (harena : s.IsArena)
    (hparents : s.ParentsBound) (he : s.entity? id = some e) {own : List Function}
    {parent : Option (Reference EntityId)} {methods : List Method}
    (hbody : e.body = .service own parent methods) :
    ∃ inherited, s.Inherits inherited parent
      ∧ methods = s.methodsFrom id own inherited := by
  have hmethods := h.methods id e own parent methods he hbody
  cases hmethods with
  | root he' hbody' =>
    cases he.symm.trans he'
    cases hbody.symm.trans hbody'
    exact ⟨[], rfl, rfl⟩
  | @child _ p _ _ r _ inherited he' hbody' hp hinherits =>
    cases he.symm.trans he'
    cases hbody.symm.trans hbody'
    have hr : r ∈ e.body.parent? := by rw [hbody]; rfl
    obtain ⟨j, e', htarget, hj, hname, hservice⟩ := hparents id e he r hr
    cases hp.symm.trans (harena.id?_eq_some.mpr ⟨e', hj, hname⟩)
    cases hb : e'.body with
    | service own' parent' methods' =>
      cases (h.methods p e' own' parent' methods' hj hb).unique hinherits
      exact ⟨inherited, ⟨p, e', own', parent', htarget, hj, hb⟩, rfl⟩
    | _ =>
      unfold Entity.kind at hservice
      rw [hb] at hservice
      cases hservice

/-! ## Services in the catalog -/

namespace OffersNearest

variable {chain : List EntityId} {methods : List Method}

/-- A method that is offered is an operation. -/
theorem exists_operation (h : s.OffersNearest chain methods) {m : Method}
    (hm : m ∈ methods) : ∃ f, s.function? m = some f
      ∧ s.operation? m = some ⟨s.nameOf m.service, f⟩ := by
  obtain ⟨f, hf, -⟩ := h.nearest m hm
  refine ⟨f, hf, ?_⟩
  unfold operation?
  rw [hf]
  rfl

/-- **No method that is offered is lost** on the way into the catalog. -/
theorem map_some_operations (h : s.OffersNearest chain methods) :
    (methods.filterMap s.operation?).map some = methods.map s.operation? := by
  have hsome : ∀ m ∈ methods, ∃ o, s.operation? m = some o := fun m hm => by
    obtain ⟨f, -, hoperation⟩ := h.exists_operation hm
    exact ⟨_, hoperation⟩
  clear h
  induction methods with
  | nil => rfl
  | cons m methods ih =>
    obtain ⟨⟨o, ho⟩, hsome⟩ := List.forall_mem_cons.mp hsome
    rw [List.filterMap_cons_some ho, List.map_cons, List.map_cons, ih hsome, ho]

theorem nodup_operations (h : s.OffersNearest chain methods) :
    ((methods.filterMap s.operation?).map fun o => o.function.name).Nodup := by
  have hnames : ((methods.filterMap s.operation?).map fun o =>
        some o.function.name)
      = methods.map fun m => (s.function? m).map Function.name := by
    calc ((methods.filterMap s.operation?).map fun o => some o.function.name)
        = ((methods.filterMap s.operation?).map some).map
            (Option.map fun o => o.function.name) := by
          rw [List.map_map]
          rfl
      _ = methods.map fun m => (s.function? m).map Function.name := by
          rw [h.map_some_operations, List.map_map]
          refine List.map_congr_left fun m _ => ?_
          unfold operation?
          rw [Function.comp_apply, Option.map_map]
          rfl
  have honce := h.once
  rw [← hnames, show (fun o : Operation => some o.function.name)
    = some ∘ fun o => o.function.name from rfl, ← List.map_map] at honce
  exact honce.of_map some

/-- **Asking for a method by name** gives the nearest one. -/
theorem find?_operations (h : s.OffersNearest chain methods) (name : String) :
    (methods.filterMap s.operation?).find? (fun o => o.function.name == name)
      = (s.nearest? chain name).bind s.operation? := by
  cases hnearest : s.nearest? chain name with
  | none =>
    refine List.find?_eq_none.mpr fun o ho heq => ?_
    obtain ⟨m, hm, hoperation⟩ := List.mem_filterMap.mp ho
    obtain ⟨f, hf, rfl⟩ := Option.map_eq_some_iff.mp hoperation
    obtain ⟨f', hf', hnearest'⟩ := h.nearest m hm
    cases hf.symm.trans hf'
    rw [← beq_iff_eq.mp heq] at hnearest
    cases hnearest'.symm.trans hnearest
  | some m =>
    have hm := h.complete name m hnearest
    obtain ⟨f, hf, hoperation⟩ := h.exists_operation hm
    obtain ⟨f', hf', rfl⟩ := function?_of_nearest? hnearest
    cases hf.symm.trans hf'
    rw [Option.bind_some, hoperation]
    exact find?_eq_some_of_mem h.nodup_operations
      (List.mem_filterMap.mpr ⟨m, hm, hoperation⟩)

end OffersNearest

end Scope

namespace Document

variable {d : Document} {name : String} {c : Compiled}

theorem methodsCollected_of_compile (hok : d.compile name = .ok c) :
    c.scope.MethodsCollected c.warnings := by
  obtain ⟨-, s, hs, hlink⟩ := compile_eq_ok.mp hok
  exact Scope.link_methods (Scope.models_of_defineAll hs) hlink

theorem parentsBound_of_compile (hok : d.compile name = .ok c) :
    c.scope.ParentsBound := fun id e he =>
  ((stage_of_compile hok).each id e he).bound.1.parent

/-- The services of a compiled document do not declare a name twice. -/
theorem nodup_functionsOf (hok : d.compile name = .ok c) (id : EntityId) :
    ((c.scope.functionsOf id).map Function.name).Nodup := by
  have hstage := stage_of_compile hok
  cases he : c.scope.entity? id with
  | none =>
    unfold Scope.functionsOf
    rw [he]
    exact List.nodup_nil
  | some e =>
    obtain ⟨x, hx, hdeclared⟩ := hstage.models.exists_defines he
    obtain ⟨hchecked, -⟩ := (hstage.each id e he).settled x hx
    cases hbody : e.body with
    | service own parent methods =>
      rw [Scope.functionsOf_eq he hbody]
      rw [hbody] at hdeclared
      cases hdeclared with | service hfunctions _ =>
      have hnames : own.map Function.name = _ :=
        (map_eq_map_iff_forall₂.mpr (hfunctions.imp fun _ _ hg => hg.name.symm)).symm
      rw [hnames]
      exact hchecked.1
    | _ =>
      unfold Scope.functionsOf
      rw [he]
      obtain ⟨entityName, span, resolved, body⟩ := e
      obtain rfl : body = _ := hbody
      exact List.nodup_nil

/-- **The methods of a service are the nearest ones.** A service of a compiled
document has a chain. Its stored list is that of its parent, in order and
without what the service declares, and then its own functions in order. It is
what the chain offers; in the catalog nothing of it is lost, and asking for a
name gives the nearest function, or nothing if no service of the chain declares
that name. -/
theorem methods_of_compile (hok : d.compile name = .ok c) {id : EntityId}
    {e : Entity} {own : List Function} {parent : Option (Reference EntityId)}
    {methods : List Method} (he : c.scope.entity? id = some e)
    (hbody : e.body = .service own parent methods) :
    (∃ chain, c.scope.Lineage id chain)
      ∧ (∃ inherited, c.scope.Inherits inherited parent
        ∧ methods = (inherited.filter fun m => (c.scope.function? m).all
            fun f => f.name ∉ own.map Function.name)
          ++ (List.range own.length).map fun index => ⟨id, index⟩)
      ∧ ∀ chain, c.scope.Lineage id chain →
        c.scope.OffersNearest chain methods
        ∧ ∃ t, c.scope.serviceType? e.name = some t
          ∧ t.methods.map some = methods.map c.scope.operation?
          ∧ ∀ function,
            t.method? function
              = (c.scope.nearest? chain function).bind c.scope.operation?
            ∧ (t.method? function = none ↔
              ∀ i ∈ chain, ∀ f ∈ c.scope.functionsOf i, f.name ≠ function) := by
  have harena := (stage_of_compile hok).models.arena
  have hparents := parentsBound_of_compile hok
  have hcollected := methodsCollected_of_compile hok
  obtain ⟨chain, hlineage, hoffers⟩ :=
    (hcollected.methods id e own parent methods he hbody).exists_lineage harena
      hparents (nodup_functionsOf hok)
  refine ⟨⟨chain, hlineage⟩, ?_, fun chain' hlineage' => ?_⟩
  · obtain ⟨inherited, hinherits, rfl⟩ :=
      hcollected.exists_inherits harena hparents he hbody
    refine ⟨inherited, hinherits, ?_⟩
    unfold Scope.methodsFrom
    simp only [Scope.override?_isNone]
  · cases hlineage.unique hlineage'
    have htype : c.scope.serviceType? e.name
        = some ⟨e.name, c.scope.parentName? parent, own.map fun f => ⟨e.name, f⟩,
          methods.filterMap c.scope.operation?⟩ := by
      unfold Scope.serviceType?
      rw [harena.named?_eq_some.mpr ⟨he, rfl⟩, Option.bind_some]
      show c.scope.serviceOf? e = _
      unfold Scope.serviceOf?
      rw [hbody]
    refine ⟨hoffers, _, htype, hoffers.map_some_operations, fun function => ?_⟩
    have hmethod := hoffers.find?_operations function
    refine ⟨hmethod, (iff_of_eq (congrArg (· = none) hmethod)).trans ?_⟩
    rw [← Scope.nearest?_eq_none, Option.bind_eq_none_iff]
    constructor
    · intro hnone
      refine Option.eq_none_iff_forall_ne_some.mpr fun m hm => ?_
      obtain ⟨f, -, hoperation⟩ := hoffers.exists_operation (hoffers.complete _ m hm)
      exact Option.some_ne_none _ (hoperation.symm.trans (hnone m hm))
    · intro hnone m hm
      cases hnone.symm.trans hm

/-- **Three services**, each extending the next, in an order that has parents
after their children: `Top` takes over a function of `Base`, and so does
`Middle`. -/
def layered : Document where
  headers := []
  definitions :=
    [⟨"Top", ⟨1, 1⟩, .service
        [⟨"stop", [], none, [], false, ⟨2, 3⟩⟩, ⟨"start", [], none, [], false, ⟨3, 3⟩⟩]
        (some ⟨"Middle", ⟨1, 21⟩⟩)⟩,
      ⟨"Base", ⟨5, 1⟩, .service
        [⟨"start", [], none, [], false, ⟨6, 3⟩⟩, ⟨"poll", [], none, [], false, ⟨7, 3⟩⟩]
        none⟩,
      ⟨"Middle", ⟨9, 1⟩, .service [⟨"poll", [], none, [], false, ⟨10, 3⟩⟩]
        (some ⟨"Base", ⟨9, 24⟩⟩)⟩]

/-- The three services compiled. -/
def layeredScope : Scope where
  name := "layered"
  entities :=
    [⟨"Top", ⟨1, 1⟩, true, .service
        [⟨"stop", [], none, [], false, ⟨2, 3⟩⟩, ⟨"start", [], none, [], false, ⟨3, 3⟩⟩]
        (some ⟨"Middle", ⟨1, 21⟩, some 2⟩) [⟨2, 0⟩, ⟨0, 0⟩, ⟨0, 1⟩]⟩,
      ⟨"Base", ⟨5, 1⟩, true, .service
        [⟨"start", [], none, [], false, ⟨6, 3⟩⟩, ⟨"poll", [], none, [], false, ⟨7, 3⟩⟩]
        none [⟨1, 0⟩, ⟨1, 1⟩]⟩,
      ⟨"Middle", ⟨9, 1⟩, true, .service [⟨"poll", [], none, [], false, ⟨10, 3⟩⟩]
        (some ⟨"Base", ⟨9, 24⟩, some 1⟩) [⟨1, 0⟩, ⟨2, 0⟩]⟩]
  symbols := [("Top", 0), ("Base", 1), ("Middle", 2)]

section

open Evaluation

/-- The three services are compiled, with a warning for each function that is
taken over. -/
theorem compile_layered : layered.compile "layered" = .ok ⟨layeredScope,
    [⟨"poll", "Middle", "Base", ⟨10, 3⟩⟩, ⟨"start", "Top", "Base", ⟨3, 3⟩⟩]⟩ := by
  simp [layered, layeredScope]

end

/-- The chain of `Top` offers the `poll` of `Middle`, and both functions of
`Top`. -/
theorem methods_layered :
    layeredScope.Lineage 0 [0, 2, 1]
      ∧ layeredScope.OffersNearest [0, 2, 1] [⟨2, 0⟩, ⟨0, 0⟩, ⟨0, 1⟩] := by
  have hlineage : layeredScope.Lineage 0 [0, 2, 1] :=
    .cons ⟨_, _, rfl, rfl, rfl⟩ (.cons ⟨_, _, rfl, rfl, rfl⟩ (.last rfl rfl rfl))
  exact ⟨hlineage, ((methods_of_compile compile_layered rfl rfl).2.2 _ hlineage).1⟩

end Document

end Interlink
