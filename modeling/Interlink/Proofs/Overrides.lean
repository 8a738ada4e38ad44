import Interlink.Proofs.Services

/-!
# The warnings about overriding

A function overrides if the service that declares it extends one that has a
method of that name. Compiling warns about each of these functions once
(`Document.warnings_of_compile`), in an order that is not the order in which
they are declared: services are visited from their parents on.

The warnings about one service are made by going through what it inherits, not
through what it declares. The two agree since no name is inherited twice and
none is declared twice (`Scope.overriders`).
-/

namespace Interlink

open Entity (Function Method)

namespace Scope

variable {s : Scope} {id : EntityId}

/-- The methods that are stored with a service. -/
def methodsOf (s : Scope) (id : EntityId) : List Method :=
  match s.entity? id with
  | some ⟨_, _, _, .service _ _ methods⟩ => methods
  | _ => []

/-- **A function overrides a method**: the service that declares the function
extends one that has the method, and the two have one name. -/
def Overrides (s : Scope) (m n : Method) : Prop :=
  ∃ p f g, s.ServiceExtends m.service p ∧ n ∈ s.methodsOf p
    ∧ s.function? m = some f ∧ s.function? n = some g ∧ g.name = f.name

/-- **A warning reports a function**: it stands where the function does, and it
names the function, its service, and the nearest service above that declares
the name. -/
def Reports (s : Scope) (m : Method) (w : Warning) : Prop :=
  ∃ f p chain n, s.function? m = some f ∧ s.ServiceExtends m.service p
    ∧ s.Lineage p chain ∧ s.nearest? chain f.name = some n ∧ s.Overrides m n
    ∧ w = ⟨f.name, s.nameOf m.service, s.nameOf n.service, f.span⟩
    ∧ w.message = "method '" ++ f.name ++ "' of service '" ++ s.nameOf m.service
      ++ "' overrides the one inherited from '" ++ s.nameOf n.service ++ "'"

/-- **Warnings report all overriding**: they are those about the functions that
override something, with each of these functions once. -/
def ReportsOverriding (s : Scope) (warnings : List Warning) : Prop :=
  ∃ overriding reports, overriding.Nodup
    ∧ (∀ m, m ∈ overriding ↔ ∃ n, s.Overrides m n)
    ∧ List.Forall₂ s.Reports overriding reports ∧ warnings.Perm reports

/-! ## The functions of one service that override -/

/-- The methods of the service that a service extends. -/
def inheritedBy (s : Scope) (id : EntityId) : List Method :=
  ((s.entity? id).bind fun e => e.body.parent?.bind Reference.target).elim []
    s.methodsOf

/-- The functions of a service that override, in the order of what it
inherits. -/
def overriders (s : Scope) (id : EntityId) : List Method :=
  (s.inheritedBy id).filterMap fun n =>
    (s.function? n).bind fun g => s.declared? g.name id

theorem methodsOf_eq {e : Entity} (he : s.entity? id = some e) {own : List Function}
    {parent : Option (Reference EntityId)} {methods : List Method}
    (hbody : e.body = .service own parent methods) : s.methodsOf id = methods := by
  obtain ⟨name, span, resolved, body⟩ := e
  obtain rfl : body = _ := hbody
  unfold methodsOf
  rw [he]

theorem inheritedBy_eq {p : EntityId} (h : s.ServiceExtends id p) :
    s.inheritedBy id = s.methodsOf p := by
  obtain ⟨e, r, he, hr, hp⟩ := h
  unfold inheritedBy
  rw [he, Option.bind_some, hr, Option.bind_some, hp]
  rfl

/-- What is inherited comes from a parent. -/
theorem exists_extends_of_mem {n : Method} (h : n ∈ s.inheritedBy id) :
    ∃ p, s.ServiceExtends id p ∧ n ∈ s.methodsOf p := by
  unfold inheritedBy at h
  cases hp : (s.entity? id).bind fun e => e.body.parent?.bind Reference.target with
  | none =>
    rw [hp] at h
    exact absurd h List.not_mem_nil
  | some p =>
    obtain ⟨e, he, hr⟩ := Option.bind_eq_some_iff.mp hp
    obtain ⟨r, hr, htarget⟩ := Option.bind_eq_some_iff.mp hr
    rw [hp] at h
    exact ⟨p, ⟨e, r, he, hr, htarget⟩, h⟩

/-- The overriding functions of a service are those that it declares and that
override something. -/
theorem mem_overriders {m : Method}
    (hnodup : ((s.functionsOf id).map Function.name).Nodup) :
    m ∈ s.overriders id ↔ m.service = id ∧ ∃ n, s.Overrides m n := by
  unfold overriders
  rw [List.mem_filterMap]
  constructor
  · rintro ⟨n, hn, hm⟩
    obtain ⟨g, hg, hdeclared⟩ := Option.bind_eq_some_iff.mp hm
    obtain ⟨rfl, f, hf, hname⟩ := function?_of_declared? hdeclared
    obtain ⟨p, hp, hnp⟩ := exists_extends_of_mem hn
    exact ⟨rfl, n, p, f, g, hp, hnp, hf, hg, hname.symm⟩
  · rintro ⟨rfl, n, p, f, g, hp, hn, hf, hg, hname⟩
    refine ⟨n, inheritedBy_eq hp ▸ hn, ?_⟩
    rw [hg, Option.bind_some, hname]
    exact declared?_of_function? hnodup hf

/-- **No function is found twice**, since no name is inherited twice. -/
theorem nodup_overriders
    (honce : ((s.inheritedBy id).map fun n => (s.function? n).map Function.name).Nodup) :
    (s.overriders id).Nodup := by
  have hnames : s.overriders id
      = ((s.inheritedBy id).map fun n => (s.function? n).map Function.name).filterMap
        fun name => name.bind fun name => s.declared? name id := by
    unfold overriders
    rw [List.filterMap_map]
    refine List.filterMap_congr fun n _ => ?_
    rw [Function.comp_apply, Option.bind_map]
    rfl
  rw [hnames]
  refine honce.filterMap fun name name' m hm hm' => ?_
  -- a name is found again in the function that is declared under it
  obtain ⟨name, rfl, hm⟩ := Option.bind_eq_some_iff.mp hm
  obtain ⟨name', rfl, hm'⟩ := Option.bind_eq_some_iff.mp hm'
  obtain ⟨-, f, hf, rfl⟩ := function?_of_declared? hm
  obtain ⟨-, f', hf', rfl⟩ := function?_of_declared? hm'
  cases hf.symm.trans hf'
  rfl

/-- The function that stands in for an inherited one is the one that is declared
under its name. -/
theorem override?_eq (s : Scope) (id : EntityId) (n : Method) :
    s.override? (s.functionsOf id) n
      = ((s.function? n).bind fun g => s.declared? g.name id).bind s.function? := by
  unfold override?
  cases hg : s.function? n with
  | none => rfl
  | some g =>
    rw [Option.bind_some, Option.bind_some, List.find?_eq_bind_findIdx?_getElem?]
    unfold declared?
    rw [Option.bind_map]
    refine congrArg _ (funext fun i => ?_)
    rw [Function.comp_apply, function?_eq]

/-! ## The warnings of a compiled document -/

theorem MethodsCollected.methodsOf_of_hasMethods {warnings : List Warning}
    {methods : List Method} (hcollected : s.MethodsCollected warnings)
    (h : s.HasMethods id methods) : s.methodsOf id = methods := by
  have hstored : ∃ e own parent stored, s.entity? id = some e
      ∧ e.body = .service own parent stored := by
    cases h with
    | root he hbody => exact ⟨_, _, _, _, he, hbody⟩
    | child he hbody => exact ⟨_, _, _, _, he, hbody⟩
  obtain ⟨e, own, parent, stored, he, hbody⟩ := hstored
  rw [methodsOf_eq he hbody]
  exact (hcollected.methods id e own parent stored he hbody).unique h

section Collected

variable {warnings : List Warning} (hcollected : s.MethodsCollected warnings)
  (harena : s.IsArena) (hparents : s.ParentsBound)
  (hnodup : ∀ id, ((s.functionsOf id).map Function.name).Nodup)

include hcollected harena hparents hnodup

/-- What a service inherits is what the chain of its parent offers. -/
theorem MethodsCollected.offers_inheritedBy {p : EntityId}
    (hp : s.ServiceExtends id p) :
    ∃ chain, s.Lineage p chain ∧ s.OffersNearest chain (s.inheritedBy id) := by
  obtain ⟨e, r, he, hr, htarget⟩ := hp
  obtain ⟨j, e', htarget', hj, -, hservice⟩ := hparents id e he r hr
  cases htarget.symm.trans htarget'
  rw [inheritedBy_eq ⟨e, r, he, hr, htarget⟩]
  cases hb : e'.body with
  | service own parent methods =>
    rw [methodsOf_eq hj hb]
    exact (hcollected.methods p e' own parent methods hj hb).exists_lineage harena
      hparents hnodup
  | _ =>
    unfold Entity.kind at hservice
    rw [hb] at hservice
    cases hservice

theorem MethodsCollected.nodup_inheritedBy (id : EntityId) :
    ((s.inheritedBy id).map fun n => (s.function? n).map Function.name).Nodup := by
  by_cases hp : ∃ p, s.ServiceExtends id p
  · obtain ⟨p, hp⟩ := hp
    obtain ⟨chain, -, hoffers⟩ :=
      hcollected.offers_inheritedBy harena hparents hnodup hp
    exact hoffers.once
  · have hnone : s.inheritedBy id = [] := List.eq_nil_iff_forall_not_mem.mpr
      fun n hn => hp ((exists_extends_of_mem hn).imp fun p h => h.1)
    rw [hnone]
    exact List.nodup_nil

/-- **The warnings about a service** report its overriding functions, in
order. -/
theorem MethodsCollected.reports_of_warns {about : List Warning}
    (hwarns : s.Warns id about) :
    List.Forall₂ s.Reports (s.overriders id) about := by
  cases hwarns with
  | @root e own stored he hbody =>
    have hnone : s.overriders id = [] := by
      unfold overriders inheritedBy
      rw [he, Option.bind_some, hbody]
      rfl
    rw [hnone]
    exact .nil
  | @child p e own r stored inherited he hbody hp hinherits =>
    have hr : e.body.parent? = some r := by rw [hbody]; rfl
    obtain ⟨j, e', htarget, hj, hname, -⟩ := hparents id e he r hr
    cases hp.symm.trans (harena.id?_eq_some.mpr ⟨e', hj, hname⟩)
    have hextends : s.ServiceExtends id p := ⟨e, r, he, hr, htarget⟩
    have hinherited : s.inheritedBy id = inherited :=
      (inheritedBy_eq hextends).trans (hcollected.methodsOf_of_hasMethods hinherits)
    obtain ⟨chain, hlineage, hoffers⟩ :=
      hcollected.offers_inheritedBy harena hparents hnodup hextends
    have hid : s.nameOf id = e.name := by
      unfold nameOf
      rw [he]
    unfold overriders overrideWarnings
    rw [← hinherited, ← functionsOf_eq he hbody, ← hid]
    refine List.rel_filterMap (R := fun n n' => n = n' ∧ n ∈ s.inheritedBy id) ?_
      (List.forall₂_same.mpr fun n hn => ⟨rfl, hn⟩)
    rintro n _ ⟨rfl, hn⟩
    show Option.Rel s.Reports ((s.function? n).bind fun g => s.declared? g.name id)
      ((s.override? (s.functionsOf id) n).map _)
    obtain ⟨g, hg, hnearest⟩ := hoffers.nearest n hn
    rw [override?_eq, hg, Option.bind_some]
    cases hdeclared : s.declared? g.name id with
    | none => exact .none
    | some m =>
      obtain ⟨rfl, f, hf, hfg⟩ := function?_of_declared? hdeclared
      rw [Option.bind_some, hf, Option.map_some]
      exact .some ⟨f, p, chain, n, hf, hextends, hlineage, hfg ▸ hnearest,
        ⟨p, f, g, hextends, inheritedBy_eq hextends ▸ hn, hf, hg, hfg.symm⟩, rfl, rfl⟩

/-- **The warnings that are collected report all overriding.** -/
theorem MethodsCollected.reportsOverriding : s.ReportsOverriding warnings := by
  obtain ⟨about, habout, hperm⟩ := hcollected.warnings
  refine ⟨(s.idsOf (· == .service)).flatMap s.overriders, about.flatten, ?_,
    fun m => ?_, ?_, hperm⟩
  · refine List.nodup_flatMap.mpr ⟨fun id _ => ?_, ?_⟩
    · exact nodup_overriders (hcollected.nodup_inheritedBy harena hparents hnodup id)
    -- a function is declared by one service
    · refine (harena.nodup_idsOf _).imp fun {a b} hab m hma hmb => hab ?_
      exact ((mem_overriders (hnodup a)).mp hma).1.symm.trans
        ((mem_overriders (hnodup b)).mp hmb).1
  · rw [List.mem_flatMap]
    constructor
    · rintro ⟨id, -, hm⟩
      exact ((mem_overriders (hnodup id)).mp hm).2
    · rintro ⟨n, p, f, g, hp, hrest⟩
      have hservice : m.service ∈ s.idsOf (· == .service) := by
        obtain ⟨e, r, he, hr, -⟩ := hp
        refine harena.mem_idsOf.mpr ⟨e, he, ?_⟩
        unfold Entity.kind
        cases hb : e.body with
        | service own parent methods => rfl
        | _ =>
          rw [hb] at hr
          cases hr
      exact ⟨m.service, hservice,
        (mem_overriders (hnodup _)).mpr ⟨rfl, n, p, f, g, hp, hrest⟩⟩
  · refine List.rel_flatten (List.forall₂_map_left_iff.mpr ?_)
    exact habout.imp fun id about hwarns =>
      hcollected.reports_of_warns harena hparents hnodup hwarns

end Collected

end Scope

namespace Document

variable {d : Document} {name : String} {c : Compiled}

/-- **The warnings are exact.** Compiling warns once about each function of a
service whose parent has a method of that name, and about nothing else,
whatever the order of the services; a warning stands where the function does
and names the nearest service above that declares it. -/
theorem warnings_of_compile (hok : d.compile name = .ok c) :
    c.scope.ReportsOverriding c.warnings :=
  (methodsCollected_of_compile hok).reportsOverriding
    (stage_of_compile hok).models.arena (parentsBound_of_compile hok)
    (nodup_functionsOf hok)

/-- `Middle` overrides the `poll` of `Base`, and `Top` its `start`, with one
warning each. -/
theorem warnings_layered :
    layered.compile "layered" = .ok ⟨layeredScope,
      [⟨"poll", "Middle", "Base", ⟨10, 3⟩⟩, ⟨"start", "Top", "Base", ⟨3, 3⟩⟩]⟩
      ∧ layeredScope.ReportsOverriding
        [⟨"poll", "Middle", "Base", ⟨10, 3⟩⟩, ⟨"start", "Top", "Base", ⟨3, 3⟩⟩] :=
  ⟨compile_layered, warnings_of_compile compile_layered⟩

end Document

end Interlink
