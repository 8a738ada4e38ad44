import Interlink.Link.Methods
import Interlink.Proofs.Link.Names

/-!
# Services that extend services

The method list of a service is found from that of the service it extends. This
comes to an end exactly if services do not extend themselves: where a list was
found, the chain of services ends (`Models.findMethods_sound`), and where chains
end, lists are found (`Models.exists_findMethods`).
-/

namespace Interlink.Scope

variable {s : Scope} {d : Document} {id : EntityId} {e : Entity}

/-- **All services are bound** to the services they extend. -/
def ParentsBound (s : Scope) : Prop :=
  ∀ id e, s.entity? id = some e → ∀ r ∈ e.body.parent?,
    s.BoundTo (fun kind => kind == .service) r

/-- **The services whose lists are known** come to an end. -/
def EndingTable (s : Scope) (d : Document) (table : MethodTable) : Prop :=
  ∀ id methods, table.known.lookup id = some methods →
    ∀ e, s.entity? id = some e → Acc (fun b a => d.Extends a b) e.name

/-- Whether services come to an end depends on the erasure of the scope
only. -/
theorem EndingTable.of_erase_eq {s' : Scope} {table : MethodTable}
    (h : s.EndingTable d table) (heq : s'.erase = s.erase) :
    s'.EndingTable d table := by
  intro id methods hlookup e' he'
  obtain ⟨e, he, herase⟩ := exists_entity?_of_erase_eq heq.symm he'
  rw [← Entity.name_eq_of_erase_eq herase]
  exact h id methods hlookup e he

theorem endingTable_empty : s.EndingTable d .empty := fun _ _ h => (nomatch h)

theorem EndingTable.cons {table : MethodTable} (htable : s.EndingTable d table)
    (he : s.entity? id = some e)
    (hends : Acc (fun b a => d.Extends a b) e.name)
    {methods : List Entity.Method} {warnings : List Warning} :
    s.EndingTable d ⟨(id, methods) :: table.known, warnings⟩ := by
  intro j ms hlookup e' he'
  by_cases hj : j = id
  · subst hj
    rw [he] at he'
    cases he'
    exact hends
  · simp only [List.lookup_cons, beq_false_of_ne hj] at hlookup
    exact htable j ms hlookup e' he'

namespace Models

/-- **What a service extends**, in the scope and in the document. -/
theorem extends_iff (h : s.Models d) (he : s.entity? id = some e)
    {name : String} :
    d.Extends e.name name ↔ ∃ r ∈ e.body.parent?, r.name = name := by
  constructor
  · rintro ⟨functions, m, hdefines, rfl⟩
    have hdeclared := h.declaredAs he hdefines
    generalize e.body = b at hdeclared
    cases hdeclared with | service _ hparent =>
    obtain ⟨r, rfl, hr⟩ := Option.map_eq_some_iff.mp hparent
    exact ⟨r, rfl, (congrArg Reference.name hr :)⟩
  · rintro ⟨r, hr, rfl⟩
    obtain ⟨body, hdefines, hdeclared⟩ := h.exists_defines he
    generalize e.body = b at hdeclared hr
    cases hdeclared with
    | @service functions parent _ _ _ _ hparent =>
      cases hr
      obtain ⟨m, rfl, hm⟩ := Option.map_eq_some_iff.mp hparent.symm
      exact ⟨functions, m, hdefines, (congrArg Reference.name hm :)⟩
    | _ => cases hr

/-- A service comes to an end when the service that it extends does. -/
theorem acc_extends (h : s.Models d) (he : s.entity? id = some e)
    (hparent : ∀ r ∈ e.body.parent?, Acc (fun b a => d.Extends a b) r.name) :
    Acc (fun b a => d.Extends a b) e.name := by
  refine .intro _ fun b hb => ?_
  obtain ⟨r, hr, rfl⟩ := (h.extends_iff he).mp hb
  exact hparent r hr

/-- **Where a method list was found, the chain of services ends.** -/
theorem findMethods_sound (h : s.Models d) (hparents : s.ParentsBound)
    {left : Nat} {t : Trail} {table table' : MethodTable}
    {methods : List Entity.Method} (htable : s.EndingTable d table)
    (he : s.entity? id = some e)
    (hok : s.findMethods left t table id = .ok (methods, table')) :
    Acc (fun b a => d.Extends a b) e.name ∧ s.EndingTable d table' := by
  -- a list that is known already was found along a chain that ends
  induction left generalizing t table table' id e methods with
  | zero =>
    unfold findMethods at hok
    rw [he] at hok
    cases hlookup : table.known.lookup id with
    | some known =>
      simp only [hlookup, Except.ok.injEq, Prod.mk.injEq] at hok
      exact ⟨htable id known hlookup e he, hok.2 ▸ htable⟩
    | none =>
      simp only [hlookup] at hok
      cases hok
  | succ left ih =>
    unfold findMethods at hok
    rw [he] at hok
    cases hlookup : table.known.lookup id with
    | some known =>
      simp only [hlookup, Except.ok.injEq, Prod.mk.injEq] at hok
      exact ⟨htable id known hlookup e he, hok.2 ▸ htable⟩
    | none =>
      simp only [hlookup] at hok
      split at hok
      next => cases hok
      cases hbody : e.body with
      | service own parent stored =>
        simp only [hbody] at hok
        cases parent with
        | none =>
          have hacc := h.acc_extends he fun r hr => by
            rw [hbody] at hr
            cases hr
          cases hok
          exact ⟨hacc, htable.cons he hacc⟩
        | some r =>
          have hr : r ∈ e.body.parent? := by rw [hbody]; rfl
          obtain ⟨j, e', htarget, he', hname, -⟩ := hparents id e he r hr
          simp only [Option.bind_some, htarget] at hok
          split at hok
          next => cases hok
          next inherited table₁ hinherited =>
            obtain ⟨hacc', htable₁⟩ := ih htable he' hinherited
            have hacc := h.acc_extends he fun r' hr' => by
              rw [hbody] at hr'
              cases hr'
              exact hname ▸ hacc'
            cases hok
            exact ⟨hacc, htable₁.cons he hacc⟩
      | _ =>
        simp only [hbody, Except.ok.injEq, Prod.mk.injEq] at hok
        refine ⟨h.acc_extends he fun r hr => ?_, hok.2 ▸ htable⟩
        rw [hbody] at hr
        cases hr

/-- **Where chains of services end, a method list is found.** -/
theorem exists_findMethods (h : s.Models d) (hparents : s.ParentsBound)
    (hends : Acyclic d.Extends) {left : Nat} {t : Trail} (table : MethodTable)
    (he : s.entity? id = some e) (hopen : s.OpenTrail d.Extends left t e.name) :
    ∃ methods table', s.findMethods left t table id = .ok (methods, table') := by
  induction left generalizing t id e with
  | zero =>
    obtain ⟨-, k, hk, -⟩ := hopen.enter (hends e.name) he
    cases hk
  | succ left ih =>
    obtain ⟨hnew, k, hk, henter⟩ := hopen.enter (hends e.name) he
    cases hk
    unfold findMethods
    rw [he]
    cases hlookup : table.known.lookup id with
    | some known => exact ⟨known, table, rfl⟩
    | none =>
      dsimp only
      rw [if_neg (by simpa using hnew)]
      cases hbody : e.body with
      | service own parent stored =>
        dsimp only
        cases parent with
        | none => exact ⟨_, _, rfl⟩
        | some r =>
          have hr : r ∈ e.body.parent? := by rw [hbody]; rfl
          obtain ⟨j, e', htarget, he', hname, -⟩ := hparents id e he r hr
          obtain ⟨inherited, table₁, hinherited⟩ := ih he'
            (henter e'.name ((h.extends_iff he).mpr ⟨r, hr, hname.symm⟩))
          simp only [Option.bind_some, htarget, hinherited]
          exact ⟨_, _, rfl⟩
      | _ => exact ⟨_, _, rfl⟩

end Models

end Interlink.Scope
