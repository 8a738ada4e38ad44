import Interlink.Proofs.Guarded.Basic
import Interlink.Proofs.Link.MethodLists

/-!
# Guarded method lists

The method list of a service is made from that of the service it extends. A method in
a list is taken to be a function of a service, and what a service extends to be a
service. Both hold because of what lists are made of: a list that is kept in the table
is that of a service (`Scope.Collects`), and such a list has functions only
(`Scope.HasMethods.exists_function`).
-/

namespace Interlink

open Entity (Function Method)

variable {s : Scope} {id : EntityId} {e : Entity}

namespace Scope

theorem exists_function_own {own : List Function} {parent : Option (Reference EntityId)}
    {stored : List Method} (he : s.entity? id = some e)
    (hbody : e.body = .service own parent stored) :
    ∀ m ∈ (List.range own.length).map fun index => (⟨id, index⟩ : Method),
      ∃ f, s.function? m = some f := by
  intro m hm
  obtain ⟨index, hindex, rfl⟩ := List.mem_map.mp hm
  obtain ⟨name, span, resolved, body⟩ := e
  cases hbody
  unfold function?
  rw [he]
  exact ⟨_, List.getElem?_eq_getElem (List.mem_range.mp hindex)⟩

/-- **The methods of a service are functions.** -/
theorem HasMethods.exists_function {methods : List Method} (h : s.HasMethods id methods) :
    ∀ m ∈ methods, ∃ f, s.function? m = some f := by
  induction h with
  | root he hbody =>
    intro m hm
    exact exists_function_own he hbody m
      ((List.mem_append.mp hm).resolve_left List.not_mem_nil)
  | child he hbody _ _ ih =>
    intro m hm
    rcases List.mem_append.mp hm with hm | hm
    · exact ih m (List.mem_of_mem_filter hm)
    · exact exists_function_own he hbody m hm

/-- A method that is a function is one of an entity of the scope. -/
theorem exists_entity_of_function? {m : Method} {f : Function}
    (h : s.function? m = some f) : ∃ e, s.entity? m.service = some e := by
  unfold function? at h
  split at h
  next he => exact ⟨_, he⟩
  next => cases h

end Scope

namespace Guarded

def function (s : Scope) (m : Method) : Guarded Function := do
  match (← entity s m.service).body with
  | .service functions _ _ =>
    match functions[m.index]? with
    | some f => .ok f
    | none => trip (.noFunction m)
  | _ => trip (.noFunction m)

theorem function_eq {m : Method} {f : Function} (h : s.function? m = some f) :
    function s m = .ok f := by
  unfold Scope.function? at h
  split at h
  next name span resolved functions parent stored he =>
    unfold function
    rw [entity_eq he]
    simp only [bind, Except.bind, h]
  next => cases h

/-- The methods that a service inherits and does not declare itself, and the warnings
about those that it does. -/
def inherit (s : Scope) (service : String) (own : List Function) :
    List Method → Guarded (List Method × List Warning)
  | [] => .ok ([], [])
  | m :: inherited => do
    let f ← function s m
    match own.find? fun g => g.name == f.name with
    | some g => do
      let owner ← entity s m.service
      let (kept, warnings) ← inherit s service own inherited
      return (kept, ⟨g.name, service, owner.name, g.span⟩ :: warnings)
    | none => do
      let (kept, warnings) ← inherit s service own inherited
      return (m :: kept, warnings)

/-- Methods that are functions are inherited without tripping a guard. -/
theorem inherit_eq (service : String) (own : List Function) {inherited : List Method}
    (h : ∀ m ∈ inherited, ∃ f, s.function? m = some f) :
    inherit s service own inherited
      = .ok (inherited.filter (fun m => (s.override? own m).isNone),
          s.overrideWarnings service own inherited) := by
  induction inherited with
  | nil => rfl
  | cons m inherited ih =>
    obtain ⟨⟨f, hf⟩, hinherited⟩ := List.forall_mem_cons.mp h
    have hoverride : s.override? own m = own.find? fun g => g.name == f.name := by
      unfold Scope.override?
      rw [hf, Option.bind_some]
    unfold inherit
    rw [function_eq hf, ih hinherited]
    simp only [bind, Except.bind, List.filter_cons, Scope.overrideWarnings,
      List.filterMap_cons, hoverride]
    cases own.find? fun g => g.name == f.name with
    | none => rfl
    | some g =>
      obtain ⟨e, he⟩ := Scope.exists_entity_of_function? hf
      simp only [entity_eq he, Scope.nameOf_eq he]
      rfl

/-- **Finding the method list of a service.** -/
def findMethods (s : Scope) :
    (left : Nat) → Trail → MethodTable → EntityId → Guarded (List Method × MethodTable)
  | left, t, table, id =>
    match table.known.lookup id with
    | some methods => .ok (methods, table)
    | none => do
      let e ← entity s id
      if t.contains id then circle s t id e
      else
        match e.body with
        | .service own parent _ => do
          let (inherited, table) ←
            match parent with
            | none => .ok ([], table)
            | some r =>
              match r.target with
              | none => trip (.unbound r.name)
              | some parent =>
                match left with
                | 0 => trip .endless
                | left + 1 => findMethods s left (id :: t) table parent
          let (kept, warnings) ← inherit s e.name own inherited
          let methods := kept ++ (List.range own.length).map fun index => ⟨id, index⟩
          return (methods, ⟨(id, methods) :: table.known, table.warnings ++ warnings⟩)
        | _ => trip (.notService id)

/-- **The method list of a service is found without tripping a guard.** -/
theorem findMethods_eq (h : s.IsArena) (hparents : s.ParentsBound) {left : Nat} {t : Trail}
    (ht : Open s left t) {table : MethodTable} (htable : s.Collects table)
    (he : s.entity? id = some e) (hkind : e.kind = .service) :
    findMethods s left t table id = ofResult (s.findMethods left t table id) := by
  induction left generalizing t id e with
  | zero =>
    unfold findMethods Scope.findMethods
    cases table.known.lookup id with
    | some methods => rfl
    | none =>
      -- no step is left, so the service has been entered
      have hmem := (ht e.name).mem_of_no_step he
      simp only [entity_eq he, he, bind, Except.bind, List.contains_iff_mem, hmem, if_true]
      exact circle_eq ht id e
  | succ left ih =>
    unfold findMethods Scope.findMethods
    cases table.known.lookup id with
    | some methods => rfl
    | none =>
      simp only [entity_eq he, he, bind, Except.bind]
      split
      next hmem => exact circle_eq ht id e
      next hnew =>
        cases hbody : e.body with
        | service own parent stored =>
          cases parent with
          | none =>
            simp only [inherit, Option.bind_none, List.append_nil]
            rfl
          | some r =>
            obtain ⟨p, e', hp, he', -, hservice⟩ := hparents id e he r (by rw [hbody]; rfl)
            have hfound := ih (ht.enter he (by simpa using hnew)) he' (beq_iff_eq.mp hservice)
            simp only [Option.bind_some, hp, hfound]
            cases hfind : s.findMethods left (id :: t) table p with
            | error fault => rfl
            | ok found =>
              obtain ⟨inherited, table₁⟩ := found
              obtain ⟨hinherits, -⟩ := h.findMethods_collects hparents htable he'
                (beq_iff_eq.mp hservice) hfind
              simp only [ofResult_ok, inherit_eq e.name own hinherits.exists_function]
              rfl
        | _ => simp [Entity.kind, Entity.Body.kind, hbody] at hkind

end Guarded

end Interlink
