import Interlink.Proofs.Link.Pass

/-!
# Declared exceptions have no values

The fields of a struct and the parameters of a function get the values of their
defaults. A declared exception may be written with a default too. Its
references are bound as all others are, but nobody evaluates it, and so no
declared exception ever has a value (`Scope.BareExceptions`): none has one when
it is declared, no step of linking gives it one, and what each step of a sweep
keeps the sweep keeps (`sweep_induct`).
-/

namespace Interlink

open Entity (Function)

/-- No exception that a function declares has a value. -/
def Entity.Function.BareExceptions (f : Function) : Prop :=
  ∀ g ∈ f.exceptions, g.defaultValue = none

/-- No exception that the functions of a service declare has a value. -/
def Entity.Body.BareExceptions : Entity.Body → Prop
  | .service functions _ _ => ∀ f ∈ functions, f.BareExceptions
  | _ => True

/-- **No declared exception has a value.** -/
def Scope.BareExceptions (s : Scope) : Prop :=
  ∀ id e, s.entity? id = some e → e.body.BareExceptions

/-- Where exceptions have no values, they have those of the erasure. -/
theorem Entity.Function.BareExceptions.map_defaultValue {f : Function}
    (h : f.BareExceptions) :
    f.exceptions.map Entity.Field.defaultValue
      = f.erase.exceptions.map Entity.Field.defaultValue := by
  show _ = (f.exceptions.map Entity.Field.erase).map Entity.Field.defaultValue
  rw [List.map_map]
  exact List.map_congr_left h

/-! ## Functions -/

theorem Entity.Field.defaultValue_bind {s : Scope} {owner : String}
    {g g' : Entity.Field} (hok : g.bind s owner = .ok g') :
    g'.defaultValue = g.defaultValue := by
  unfold Entity.Field.bind at hok
  simp only [bind_eq_ok, pure_eq_ok] at hok
  obtain ⟨type, -, default, -, rfl⟩ := hok
  rfl

namespace Entity.Function.BareExceptions

variable {s : Scope} {service : String} {f f' : Function}

/-- Binding a function leaves the values of its exceptions alone. -/
theorem bind (h : f.BareExceptions) (hok : f.bind s service = .ok f') :
    f'.BareExceptions := by
  unfold Function.bind bindFields at hok
  simp only [bind_eq_ok, pure_eq_ok] at hok
  obtain ⟨parameters, -, returns, -, exceptions, hbind, -, -, rfl⟩ := hok
  intro g' hg'
  obtain ⟨g, hg, hbound⟩ := exists_left_of_forall₂ (mapM_eq_ok.mp hbind) hg'
  exact (Field.defaultValue_bind hbound).trans (h g hg)

/-- Checking a function leaves its exceptions alone. -/
theorem check (h : f.BareExceptions) (hok : f.check s service = .ok f') :
    f'.BareExceptions := by
  unfold Function.check at hok
  simp only [bind_eq_ok, pure_eq_ok] at hok
  obtain ⟨-, -, -, -, -, -, parameters, -, rfl⟩ := hok
  exact h

end Entity.Function.BareExceptions

/-! ## Steps -/

namespace Scope.BareExceptions

variable {s s' : Scope} {id : EntityId} {e : Entity}

theorem setBody (h : s.BareExceptions) {b : Entity.Body} (hb : b.BareExceptions) :
    (s.setBody id b).BareExceptions := by
  intro j f hf
  rw [entity?_setBody] at hf
  split at hf
  next hid =>
    obtain ⟨f', -, rfl⟩ := Option.map_eq_some_iff.mp hf
    exact hb
  next => exact h j f hf

theorem resolveAll (h : s.BareExceptions) (ids : List EntityId) :
    (s.resolveAll ids).BareExceptions := by
  intro j f hf
  rw [entity?_resolveAll] at hf
  split at hf
  next =>
    obtain ⟨f', hf', rfl⟩ := Option.map_eq_some_iff.mp hf
    exact h j f' hf'
  next => exact h j f hf

theorem bindStep (h : s.BareExceptions) (hok : s.bindStep id = .ok s') :
    s'.BareExceptions := by
  unfold Scope.bindStep at hok
  cases he : s.entity? id with
  | none =>
    rw [he] at hok
    cases hok
    exact h
  | some e =>
    rw [he] at hok
    have hbare := h id e he
    dsimp only at hok
    generalize e.body = b at hok hbare
    cases b with
    | service functions parent methods =>
      simp only [bind_eq_ok, pure_eq_ok] at hok
      obtain ⟨parent', -, functions', hfunctions, rfl⟩ := hok
      refine h.setBody fun f' hf' => ?_
      obtain ⟨f, hf, hbind⟩ := exists_left_of_forall₂ (mapM_eq_ok.mp hfunctions) hf'
      exact (hbare f hf).bind hbind
    | enum items =>
      cases hok
      exact h
    | const type init value =>
      simp only [bind_eq_ok, pure_eq_ok] at hok
      obtain ⟨type', -, init', -, rfl⟩ := hok
      exact h.setBody (b := .const type' init' value) trivial
    | typedef target =>
      simp only [bind_eq_ok, pure_eq_ok] at hok
      obtain ⟨target', -, rfl⟩ := hok
      exact h.setBody (b := .typedef target') trivial
    | struct kind fields =>
      simp only [bind_eq_ok, pure_eq_ok] at hok
      obtain ⟨fields', -, rfl⟩ := hok
      exact h.setBody (b := .struct kind fields') trivial

theorem constantStep {state state' : Scope × ValueTable}
    (h : state.1.BareExceptions) (hok : constantStep state id = .ok state') :
    state'.1.BareExceptions := by
  unfold Scope.constantStep at hok
  dsimp only at hok
  cases he : state.1.entity? id with
  | none =>
    rw [he] at hok
    cases hok
    exact h
  | some e =>
    rw [he] at hok
    dsimp only at hok
    generalize e.body = b at hok
    cases b with
    | const type init value =>
      simp only [bind_eq_ok, pure_eq_ok] at hok
      obtain ⟨found, -, rfl⟩ := hok
      exact h.setBody (b := .const type init (some found.1)) trivial
    | _ =>
      cases hok
      exact h

theorem typeStep (h : s.BareExceptions) (hok : s.typeStep id = .ok s') :
    s'.BareExceptions := by
  cases he : s.entity? id with
  | none =>
    unfold Scope.typeStep at hok
    rw [he] at hok
    cases hok
    exact h
  | some e =>
    cases hbody : e.body with
    | typedef target =>
      obtain ⟨-, rfl⟩ := (typeStep_typedef_eq_ok he hbody).mp hok
      exact h
    | struct kind fields =>
      obtain ⟨-, -, fields', -, rfl⟩ := (typeStep_struct_eq_ok he hbody).mp hok
      exact h.setBody (b := .struct kind fields') trivial
    | _ =>
      unfold Scope.typeStep at hok
      rw [he] at hok
      simp only [hbody] at hok
      cases hok
      exact h

theorem serviceStep {state state' : Scope × MethodTable}
    (h : state.1.BareExceptions) (hok : serviceStep state id = .ok state') :
    state'.1.BareExceptions := by
  unfold Scope.serviceStep at hok
  dsimp only at hok
  cases he : state.1.entity? id with
  | none =>
    rw [he] at hok
    cases hok
    exact h
  | some e =>
    rw [he] at hok
    have hbare := h id e he
    dsimp only at hok
    generalize e.body = b at hok hbare
    cases b with
    | service functions parent methods =>
      simp only [bind_eq_ok, pure_eq_ok] at hok
      obtain ⟨-, -, functions', hfunctions, found, -, rfl⟩ := hok
      refine h.setBody fun f' hf' => ?_
      obtain ⟨f, hf, hcheck⟩ := exists_left_of_forall₂ (mapM_eq_ok.mp hfunctions) hf'
      exact (hbare f hf).check hcheck
    | _ =>
      cases hok
      exact h

end Scope.BareExceptions

/-! ## Linking -/

/-- **What each step of a sweep keeps the sweep keeps.** -/
theorem sweep_induct {σ : Type} {step : σ → EntityId → Except CompileError σ}
    {P : σ → Prop}
    (hstep : ∀ state id state', P state → step state id = .ok state' → P state')
    {state state' : σ} {ids : List EntityId} (h : P state)
    (hok : sweep step state ids = .ok state') : P state' := by
  induction ids generalizing state with
  | nil =>
    cases hok
    exact h
  | cons id ids ih =>
    obtain ⟨next, hnext, hok⟩ := sweep_cons_eq_ok.mp hok
    exact ih (hstep state id next h hnext) hok

namespace Scope

variable {s s' : Scope} {d : Document} {ids : List EntityId}

theorem BareExceptions.sweep_bindStep (h : s.BareExceptions)
    (hok : sweep Scope.bindStep s ids = .ok s') : s'.BareExceptions :=
  sweep_induct (fun _ _ _ h hstep => h.bindStep hstep) h hok

/-- **Linking gives no declared exception a value.** -/
theorem BareExceptions.link (h : s.BareExceptions) {warnings : List Warning}
    (hok : s.link = .ok (s', warnings)) : s'.BareExceptions := by
  unfold Scope.link at hok
  simp only [bind_eq_ok] at hok
  obtain ⟨s₁, hconstants, s₂, htypes, hservices⟩ := hok
  have h₁ : s₁.BareExceptions := by
    obtain ⟨bound, state, hbind, hsweep, rfl⟩ := (linkConstants_eq_ok rfl).mp hconstants
    exact (sweep_induct (fun _ _ _ h hstep => constantStep h hstep)
      (h.sweep_bindStep hbind) hsweep).resolveAll _
  have h₂ : s₂.BareExceptions := by
    obtain ⟨bound, state, hbind, hsweep, rfl⟩ := (linkTypes_eq_ok rfl).mp htypes
    exact (sweep_induct (fun _ _ _ h hstep => h.typeStep hstep)
      (h₁.sweep_bindStep hbind) hsweep).resolveAll _
  obtain ⟨bound, state, hbind, hsweep, rfl, -⟩ := (linkServices_eq_ok rfl).mp hservices
  exact (sweep_induct (fun _ _ _ h hstep => serviceStep h hstep)
    (h₂.sweep_bindStep hbind) hsweep).resolveAll _

/-- **Nothing that is declared has a value.** -/
theorem bareExceptions_of_defineAll {name : String}
    (hs : (empty name).defineAll d.definitions = .ok s) : s.BareExceptions := by
  obtain ⟨-, new, hentities, -, herased⟩ := entities_defineAll (isArena_empty name) hs
  obtain rfl : s.entities = new := hentities
  intro id e he
  rw [← herased e (List.mem_of_getElem? he), Entity.erase_body]
  generalize e.body = b
  cases b with
  | service functions parent methods =>
    intro f hf g hg
    obtain ⟨f', -, rfl⟩ := List.mem_map.mp hf
    obtain ⟨g', -, rfl⟩ := List.mem_map.mp hg
    rfl
  | _ => exact trivial

end Scope

end Interlink
