import Interlink.Proofs.Link.Step

/-!
# Linking a whole scope

A pass goes over the entities of some kinds twice, first to bind them and then
to settle them, and marks them at the end. What it knows on the way is the same
in all three passes (`Scope.Stage`): the scope still models the document, its
erasure is that of the scope linking began with, and something is known of each
entity. A step touches one entity; what is known of the others stays
(`sweep_sound`). So after a pass its entities are linked (`Entity.Linked`), and
after all three every entity is (`link_sound`).

The other way round, a sweep comes to its end if each of its steps does in the
states that it can get to (`exists_sweep`). Together: a scope can be linked
exactly if every definition can be bound and passes its check
(`exists_link`).
-/

namespace Interlink

open Scope (entity?_setBody exists_entity?_of_erase_eq)

variable {σ : Type} {step : σ → EntityId → Except CompileError σ}
  {base s s' : Scope} {d : Document} {id : EntityId} {e : Entity}

theorem Entity.Body.Bound.of_erase_eq {b : Entity.Body} (h : b.Bound s)
    (heq : s'.erase = s.erase) : b.Bound s' where
  types r hr := Scope.boundTo_of_erase_eq heq (h.types r hr)
  constants r hr := Scope.boundConst_of_erase_eq heq (h.constants r hr)
  parent r hr := Scope.boundTo_of_erase_eq heq (h.parent r hr)

/-! ## What is known of an entity -/

/-- The references of an entity are bound, and its definition can be bound. -/
def Entity.IsBound (base : Scope) (d : Document) (e : Entity) : Prop :=
  e.body.Bound base ∧ ∀ x, d.Defines e.name x → x.Bindable d

/-- The definition of an entity passes, and its values are stored. -/
def Entity.IsSettled (d : Document) (e : Entity) : Prop :=
  ∀ x, d.Defines e.name x → x.Checked d e.name ∧ x.ValuedAs d e.body

/-- **An entity that linking is done with.** -/
structure Entity.Linked (base : Scope) (d : Document) (e : Entity) : Prop where
  /-- Its references are bound. -/
  bound : e.IsBound base d
  /-- Its values are stored. -/
  settled : e.IsSettled d
  /-- It is marked. -/
  resolved : e.resolved = true

/-- **Where linking is**: something is known of each entity of a scope that
still models the document. -/
structure Scope.Stage (base : Scope) (d : Document) (known : Entity → Prop)
    (s : Scope) : Prop where
  /-- The scope models the document. -/
  models : s.Models d
  /-- Its erasure is that of the scope at the start. -/
  same : s.erase = base.erase
  /-- What is known. -/
  each : ∀ id e, s.entity? id = some e → known e

namespace Scope.Stage

variable {known known' : Entity → Prop}

theorem imp (h : base.Stage d known s) (himp : ∀ e, known e → known' e) :
    base.Stage d known' s :=
  ⟨h.models, h.same, fun id e he => himp e (h.each id e he)⟩

/-- **One entity gets another body**, of which the same is known. -/
theorem setBody (h : base.Stage d known s) (he : s.entity? id = some e)
    {b : Entity.Body} (herase : b.erase = e.body.erase) (hbound : b.Bound base)
    (hknown : known { e with body := b }) :
    base.Stage d known (s.setBody id b) where
  models := h.models.setBody he herase fun r hr =>
    h.models.arena.agrees_of_boundTo (boundTo_of_erase_eq h.same (hbound.types r hr))
  same := (erase_setBody he herase).trans h.same
  each j f hf := by
    rw [entity?_setBody] at hf
    split at hf
    next hid =>
      subst hid
      rw [he] at hf
      cases hf
      exact hknown
    next => exact h.each j f hf

/-- The handles of some kinds are those of entities of these kinds in every
scope of a stage. -/
theorem exists_of_mem_idsOf (h : base.Stage d known s)
    {kinds : Entity.Kind → Bool} (hid : id ∈ base.idsOf kinds) :
    ∃ e, s.entity? id = some e ∧ kinds e.kind = true := by
  obtain ⟨e, he, hkind⟩ :=
    (h.models.arena.of_erase_eq h.same.symm).mem_idsOf.mp hid
  obtain ⟨e', he', herase⟩ := exists_entity?_of_erase_eq h.same he
  exact ⟨e', he', Entity.kind_eq_of_erase_eq herase ▸ hkind⟩

end Scope.Stage

/-! ## Sweeps -/

theorem sweep_cons_eq_ok {state state' : σ} {ids : List EntityId} :
    sweep step state (id :: ids) = .ok state' ↔
      ∃ next, step state id = .ok next ∧ sweep step next ids = .ok state' := by
  rw [sweep]
  cases step state id <;> simp

/-- **What the steps of a sweep do.** In a state of which `inv` holds and where
`known` is known, a step for an entity of some kinds gives it a body with the
same erasure and bound references, of which `known` and also `gained` is
known. -/
def Keeps (base : Scope) (d : Document) (kinds : Entity.Kind → Bool)
    (view : σ → Scope) (inv : σ → Prop) (known gained : Entity → Prop)
    (step : σ → EntityId → Except CompileError σ) : Prop :=
  ∀ state id e state', base.Stage d known (view state) → inv state →
    (view state).entity? id = some e → kinds e.kind = true →
    step state id = .ok state' →
    inv state' ∧ ∃ b, view state' = (view state).setBody id b
      ∧ b.erase = e.body.erase ∧ b.Bound base
      ∧ known { e with body := b } ∧ gained { e with body := b }

section Sweep

variable {kinds : Entity.Kind → Bool} {view : σ → Scope} {inv : σ → Prop}
  {known gained : Entity → Prop} {state state' : σ} {ids : List EntityId}

/-- **What a sweep leaves behind.** What is known stays known, and more is known
of the entities that it went over; the others are as they were. -/
theorem sweep_sound (hstep : Keeps base d kinds view inv known gained step)
    (hids : ids ⊆ base.idsOf kinds) (hstage : base.Stage d known (view state))
    (hinv : inv state) (hok : sweep step state ids = .ok state') :
    inv state' ∧ base.Stage d known (view state')
      ∧ (∀ id ∈ ids, ∀ e, (view state').entity? id = some e → gained e)
      ∧ ∀ id ∉ ids, (view state').entity? id = (view state).entity? id := by
  induction ids generalizing state with
  | nil =>
    cases hok
    exact ⟨hinv, hstage, fun id hid => absurd hid List.not_mem_nil,
      fun id _ => rfl⟩
  | cons id ids ih =>
    obtain ⟨hid, hids⟩ := List.cons_subset.mp hids
    obtain ⟨next, hnext, hok⟩ := sweep_cons_eq_ok.mp hok
    obtain ⟨e, he, hkind⟩ := hstage.exists_of_mem_idsOf hid
    obtain ⟨hinv', b, hview, herase, hbound, hknown, hgained⟩ :=
      hstep state id e next hstage hinv he hkind hnext
    have hstage' : base.Stage d known (view next) :=
      hview ▸ hstage.setBody he herase hbound hknown
    obtain ⟨hinv'', hstage'', hdone, hframe⟩ := ih hids hstage' hinv' hok
    refine ⟨hinv'', hstage'', List.forall_mem_cons.mpr ⟨?_, hdone⟩, fun j hj => ?_⟩
    · intro f hf
      -- if the handle stands in the list again, its last step counts
      by_cases hagain : id ∈ ids
      · exact hdone id hagain f hf
      · rw [hframe id hagain, hview, entity?_setBody, if_pos rfl, he] at hf
        cases hf
        exact hgained
    · obtain ⟨hne, hj⟩ := not_or.mp (List.mem_cons.not.mp hj)
      rw [hframe j hj, hview, entity?_setBody, if_neg fun h => hne h.symm]

/-- **A sweep over all entities of some kinds.** -/
theorem sweep_idsOf_sound (hstep : Keeps base d kinds view inv known gained step)
    (hstage : base.Stage d known (view state)) (hinv : inv state)
    (hok : sweep step state (base.idsOf kinds) = .ok state') :
    inv state' ∧ base.Stage d (fun e => known e ∧ (kinds e.kind = true → gained e))
      (view state') := by
  obtain ⟨hinv', hstage', hdone, -⟩ :=
    sweep_sound hstep (List.Subset.refl _) hstage hinv hok
  refine ⟨hinv', hstage'.models, hstage'.same, fun id e he =>
    ⟨hstage'.each id e he, fun hkind => hdone id ?_ e he⟩⟩
  obtain ⟨e', he', herase⟩ := exists_entity?_of_erase_eq hstage'.same.symm he
  exact (hstage'.models.arena.of_erase_eq hstage'.same.symm).mem_idsOf.mpr
    ⟨e', he', Entity.kind_eq_of_erase_eq herase ▸ hkind⟩

/-- **A sweep comes to its end** if each of its steps does, in all states that
it can get to. -/
theorem exists_sweep (hstep : Keeps base d kinds view inv known gained step)
    (hcan : ∀ state id e, base.Stage d known (view state) → inv state →
      (view state).entity? id = some e → kinds e.kind = true →
      ∃ state', step state id = .ok state')
    (hids : ids ⊆ base.idsOf kinds) (hstage : base.Stage d known (view state))
    (hinv : inv state) : ∃ state', sweep step state ids = .ok state' := by
  induction ids generalizing state with
  | nil => exact ⟨state, rfl⟩
  | cons id ids ih =>
    obtain ⟨hid, hids⟩ := List.cons_subset.mp hids
    obtain ⟨e, he, hkind⟩ := hstage.exists_of_mem_idsOf hid
    obtain ⟨next, hnext⟩ := hcan state id e hstage hinv he hkind
    obtain ⟨hinv', b, hview, herase, hbound, hknown, -⟩ :=
      hstep state id e next hstage hinv he hkind hnext
    obtain ⟨state', hok⟩ := ih hids
      (hview ▸ hstage.setBody he herase hbound hknown) hinv'
    exact ⟨state', sweep_cons_eq_ok.mpr ⟨next, hnext, hok⟩⟩

end Sweep

/-! ## The steps of a pass -/

/-- What is known of an entity when a pass begins: it is linked, if it is of a
kind that was gone over before. -/
def Entity.DoneIf (base : Scope) (d : Document) (earlier : Entity.Kind → Bool)
    (e : Entity) : Prop :=
  earlier e.kind = true → e.Linked base d

/-- What is known of an entity in the second sweep of a pass: if it is of a kind
that the pass goes over, it is bound. -/
def Entity.BoundIf (base : Scope) (d : Document)
    (earlier kinds : Entity.Kind → Bool) (e : Entity) : Prop :=
  e.DoneIf base d earlier ∧ (kinds e.kind = true → e.IsBound base d)

section Steps

variable {earlier kinds : Entity.Kind → Bool}

/-- Nothing has to be known of an entity of a new kind. -/
theorem Entity.doneIf_of_new (hnew : ∀ kind, kinds kind = true → earlier kind = false)
    (hkind : kinds e.kind = true) {b : Entity.Body}
    (herase : b.erase = e.body.erase) :
    Entity.DoneIf base d earlier { e with body := b } := by
  intro hdone
  have hsame : b.kind = e.kind := by
    rw [← Entity.Body.kind_erase, herase, Entity.Body.kind_erase]
    rfl
  have hdone : earlier b.kind = true := hdone
  rw [hsame, hnew _ hkind] at hdone
  cases hdone

/-- **The first sweep binds.** -/
theorem bindStep_keeps (hnew : ∀ kind, kinds kind = true → earlier kind = false) :
    Keeps base d kinds (fun s => s) (fun _ => True) (Entity.DoneIf base d earlier)
      (Entity.IsBound base d) Scope.bindStep := by
  intro s id e s' hstage _ he hkind hok
  obtain ⟨b, rfl, herase, hbound, hexceptions⟩ :=
    Scope.bindStep_sound hstage.models he hok
  exact ⟨trivial, b, rfl, herase, hbound.of_erase_eq hstage.same.symm,
    Entity.doneIf_of_new hnew hkind herase, hbound.of_erase_eq hstage.same.symm,
    fun x hx => hstage.models.bindable_of_bound he herase hbound hexceptions hx⟩

/-- **The second sweep settles**, if each of its steps does. -/
theorem keeps_of_settles {view : σ → Scope} {inv : σ → Prop}
    (hnew : ∀ kind, kinds kind = true → earlier kind = false)
    (hsettles : ∀ state id e state',
      base.Stage d (Entity.BoundIf base d earlier kinds) (view state) →
      inv state → (view state).entity? id = some e → kinds e.kind = true →
      e.body.Bound (view state) → step state id = .ok state' →
      inv state' ∧ (view state).Settles d id e (view state')) :
    Keeps base d kinds view inv (Entity.BoundIf base d earlier kinds)
      (Entity.IsSettled d) step := by
  intro state id e state' hstage hinv he hkind hok
  obtain ⟨hbound, hbindable⟩ := (hstage.each id e he).2 hkind
  obtain ⟨hinv', b, hview, herase, hbound', hsettled⟩ := hsettles state id e state'
    hstage hinv he hkind (hbound.of_erase_eq hstage.same) hok
  have hbase := hbound'.of_erase_eq hstage.same.symm
  exact ⟨hinv', b, hview, herase, hbase,
    ⟨Entity.doneIf_of_new hnew hkind herase, fun _ => ⟨hbase, hbindable⟩⟩, hsettled⟩

/-- **The end of a pass**: what was bound and settled is linked. -/
theorem Scope.Stage.resolveAll (h : base.Stage d (fun e =>
      e.BoundIf base d earlier kinds ∧ (kinds e.kind = true → e.IsSettled d)) s) :
    base.Stage d (Entity.DoneIf base d fun kind => earlier kind || kinds kind)
      (s.resolveAll (base.idsOf kinds)) where
  models := h.models.resolveAll _
  same := (Scope.erase_resolveAll s _).trans h.same
  each id e he hdone := by
    rw [Scope.entity?_resolveAll] at he
    split at he
    next hid =>
      obtain ⟨e', he', hkind⟩ := h.exists_of_mem_idsOf hid
      rw [he'] at he
      cases he
      obtain ⟨⟨-, hbound⟩, hsettled⟩ := h.each id e' he'
      exact ⟨hbound hkind, hsettled hkind, rfl⟩
    next hid =>
      obtain ⟨⟨hbefore, -⟩, -⟩ := h.each id e he
      rcases Bool.or_eq_true_iff.mp hdone with hearlier | hkind
      · exact hbefore hearlier
      · refine absurd ?_ hid
        obtain ⟨e', he', herase⟩ := exists_entity?_of_erase_eq h.same.symm he
        exact (h.models.arena.of_erase_eq h.same.symm).mem_idsOf.mpr
          ⟨e', he', Entity.kind_eq_of_erase_eq herase ▸ hkind⟩

/-- **A pass links its entities.** -/
theorem Scope.Stage.pass_sound {view : σ → Scope} {inv : σ → Prop}
    (state : σ) {state' : σ}
    (hnew : ∀ kind, kinds kind = true → earlier kind = false)
    (hsettles : Keeps base d kinds view inv (Entity.BoundIf base d earlier kinds)
      (Entity.IsSettled d) step)
    (h : base.Stage d (Entity.DoneIf base d earlier) s)
    (hbind : sweep Scope.bindStep s (base.idsOf kinds) = .ok (view state))
    (hinv : inv state) (hok : sweep step state (base.idsOf kinds) = .ok state') :
    base.Stage d (Entity.DoneIf base d fun kind => earlier kind || kinds kind)
      ((view state').resolveAll (base.idsOf kinds)) := by
  obtain ⟨-, hbound⟩ := sweep_idsOf_sound (bindStep_keeps hnew) h trivial hbind
  obtain ⟨-, hsettled⟩ := sweep_idsOf_sound hsettles hbound hinv hok
  exact hsettled.resolveAll

/-- **A pass comes to its end**, if its entities can be bound and settled. -/
theorem Scope.Stage.exists_pass {view : σ → Scope} {inv : σ → Prop}
    (hnew : ∀ kind, kinds kind = true → earlier kind = false)
    (hsettles : Keeps base d kinds view inv (Entity.BoundIf base d earlier kinds)
      (Entity.IsSettled d) step)
    (h : base.Stage d (Entity.DoneIf base d earlier) s)
    (hbindable : ∀ name x, d.Defines name x → x.Bindable d)
    (hcan : ∀ state id e,
      base.Stage d (Entity.BoundIf base d earlier kinds) (view state) →
      inv state → (view state).entity? id = some e → kinds e.kind = true →
      e.body.Bound (view state) → ∃ state', step state id = .ok state') :
    ∃ bound, sweep Scope.bindStep s (base.idsOf kinds) = .ok bound
      ∧ ∀ state, view state = bound → inv state →
        ∃ state', sweep step state (base.idsOf kinds) = .ok state' := by
  have hkeeps : Keeps base d kinds (fun s => s) (fun _ => True)
      (Entity.DoneIf base d earlier) (Entity.IsBound base d) Scope.bindStep :=
    bindStep_keeps hnew
  obtain ⟨bound, hbind⟩ := exists_sweep hkeeps (fun s id e hstage _ he _ => by
    obtain ⟨x, hx, -⟩ := hstage.models.exists_defines he
    exact hstage.models.exists_bindStep he hx (hbindable e.name x hx))
    (List.Subset.refl _) h trivial
  obtain ⟨-, hbound⟩ := sweep_idsOf_sound hkeeps h trivial hbind
  refine ⟨bound, hbind, fun state hview hinv => ?_⟩
  subst hview
  refine exists_sweep hsettles (fun state id e hstage hinv he hkind => ?_)
    (List.Subset.refl _) hbound hinv
  obtain ⟨hbody, -⟩ := (hstage.each id e he).2 hkind
  exact hcan state id e hstage hinv he hkind (hbody.of_erase_eq hstage.same)

end Steps

/-! ## The passes -/

namespace Scope

variable {earlier : Entity.Kind → Bool} {known : Entity → Prop}

/-- In the second sweep over constants, all of them are bound. -/
theorem Stage.constantsBound
    (h : base.Stage d (Entity.BoundIf base d earlier (· == .constant)) s) :
    s.ConstantsBound := by
  intro id e type init value he hbody r hr
  have hkind : e.kind = .constant := by
    unfold Entity.kind
    rw [hbody]
    rfl
  obtain ⟨hbound, -⟩ := (h.each id e he).2 (by rw [hkind]; rfl)
  rw [hbody] at hbound
  exact boundConst_of_erase_eq h.same (hbound.constants r hr)

/-- In the second sweep over services, all of them are bound. -/
theorem Stage.parentsBound
    (h : base.Stage d (Entity.BoundIf base d earlier (· == .service)) s) :
    s.ParentsBound := by
  intro id e he r hr
  have hkind : e.kind = .service := by
    unfold Entity.kind
    generalize e.body = b at hr
    cases b with
    | service => rfl
    | _ => cases hr
  obtain ⟨hbound, -⟩ := (h.each id e he).2 (by rw [hkind]; rfl)
  exact boundTo_of_erase_eq h.same (hbound.parent r hr)

/-- After the first pass all constants have their values. -/
theorem Stage.constantsValued (h : base.Stage d (Entity.DoneIf base d earlier) s)
    (hearlier : earlier .constant = true) : s.ConstantsValued d := by
  intro id e he hkind
  have hlinked := h.each id e he (by rw [hkind]; exact hearlier)
  obtain ⟨x, hx, hdeclared⟩ := h.models.exists_defines he
  obtain ⟨-, hvalued⟩ := hlinked.settled x hx
  unfold Entity.kind at hkind
  generalize hbody : e.body = b at hdeclared hvalued hkind
  cases hdeclared with
  | const =>
    obtain ⟨v, rfl, hv⟩ := hvalued
    exact ⟨_, _, v, rfl, _, _, hx, hv⟩
  | _ => cases hkind

/-- The first pass binds and evaluates constants. -/
theorem linkConstants_eq_ok {ids : List EntityId}
    (hids : s.idsOf (· == .constant) = ids) :
    s.linkConstants = .ok s' ↔
      ∃ bound state, sweep bindStep s ids = .ok bound
        ∧ sweep constantStep (bound, []) ids = .ok state
        ∧ s' = state.1.resolveAll ids := by
  unfold linkConstants
  simp only [hids, bind_eq_ok]
  refine exists_congr fun bound => ?_
  rw [exists_and_left]
  refine and_congr_right fun _ => ?_
  cases sweep constantStep (bound, []) ids with
  | error halt => simp
  | ok state => simp [pure_eq_ok, @eq_comm _ s']

/-- The second pass binds and checks types. -/
theorem linkTypes_eq_ok {ids : List EntityId}
    (hids : s.idsOf Entity.Kind.isType = ids) :
    s.linkTypes = .ok s' ↔
      ∃ bound state, sweep bindStep s ids = .ok bound
        ∧ sweep typeStep bound ids = .ok state ∧ s' = state.resolveAll ids := by
  unfold linkTypes
  simp only [hids, bind_eq_ok, pure_eq_ok, exists_and_left, @eq_comm _ s']

/-- The third pass binds and checks services. -/
theorem linkServices_eq_ok {ids : List EntityId} {warnings : List Warning}
    (hids : s.idsOf (· == .service) = ids) :
    s.linkServices = .ok (s', warnings) ↔
      ∃ bound state, sweep bindStep s ids = .ok bound
        ∧ sweep serviceStep (bound, .empty) ids = .ok state
        ∧ s' = state.1.resolveAll ids ∧ warnings = state.2.warnings := by
  unfold linkServices
  simp only [hids, bind_eq_ok]
  refine exists_congr fun bound => ?_
  rw [exists_and_left]
  refine and_congr_right fun _ => ?_
  cases sweep serviceStep (bound, .empty) ids with
  | error halt => simp
  | ok state => simp [pure_eq_ok, @eq_comm _ s', @eq_comm _ warnings]

/-! ## What passes leave behind -/

theorem constantStep_keeps :
    Keeps base d (· == .constant) Prod.fst (fun state => base.SoundTable d state.2)
      (Entity.BoundIf base d (fun _ => false) (· == .constant))
      (Entity.IsSettled d) constantStep := by
  refine keeps_of_settles (fun _ _ => rfl) ?_
  intro state id e state' hstage htable he hkind hbound hok
  obtain ⟨htable', hsettles⟩ := hstage.models.constantStep_sound
    hstage.constantsBound (htable.of_erase_eq hstage.same) he
    (beq_iff_eq.mp hkind) hbound hok
  exact ⟨htable'.of_erase_eq hstage.same.symm, hsettles⟩

theorem typeStep_keeps (hearlier : earlier .constant = true)
    (hnew : ∀ kind, Entity.Kind.isType kind = true → earlier kind = false) :
    Keeps base d Entity.Kind.isType (fun s => s) (fun _ => True)
      (Entity.BoundIf base d earlier Entity.Kind.isType)
      (Entity.IsSettled d) typeStep := by
  refine keeps_of_settles hnew ?_
  intro s id e s' hstage _ he hkind hbound hok
  have hvalued := (hstage.imp fun _ h => h.1).constantsValued hearlier
  exact ⟨trivial, hstage.models.typeStep_sound hvalued he hkind hbound hok⟩

theorem serviceStep_keeps (hearlier : earlier .constant = true)
    (hnew : ∀ kind, (kind == .service) = true → earlier kind = false) :
    Keeps base d (· == .service) Prod.fst (fun state => base.EndingTable d state.2)
      (Entity.BoundIf base d earlier (· == .service))
      (Entity.IsSettled d) serviceStep := by
  refine keeps_of_settles hnew ?_
  intro state id e state' hstage htable he hkind hbound hok
  have hvalued := (hstage.imp fun _ h => h.1).constantsValued hearlier
  obtain ⟨htable', hsettles⟩ := hstage.models.serviceStep_sound hvalued
    hstage.parentsBound (htable.of_erase_eq hstage.same) he
    (beq_iff_eq.mp hkind) hbound hok
  exact ⟨htable'.of_erase_eq hstage.same.symm, hsettles⟩

/-- Constants are linked before types. -/
def beforeTypes (kind : Entity.Kind) : Bool := false || kind == .constant

/-- Constants and types are linked before services. -/
def beforeServices (kind : Entity.Kind) : Bool := beforeTypes kind || kind.isType

theorem beforeTypes_eq_false (kind : Entity.Kind) (hkind : kind.isType = true) :
    beforeTypes kind = false := by
  cases kind with
  | constant => cases hkind
  | _ => rfl

theorem beforeServices_eq_false (kind : Entity.Kind)
    (hkind : (kind == .service) = true) : beforeServices kind = false := by
  rw [beq_iff_eq.mp hkind]
  rfl

namespace Stage

theorem linkConstants_sound
    (h : base.Stage d (Entity.DoneIf base d fun _ => false) s)
    (hok : s.linkConstants = .ok s') :
    base.Stage d (Entity.DoneIf base d beforeTypes) s' := by
  obtain ⟨bound, state, hbind, hsweep, rfl⟩ :=
    (linkConstants_eq_ok (idsOf_eq_of_erase_eq h.same _)).mp hok
  exact h.pass_sound (bound, []) (fun _ _ => rfl) constantStep_keeps hbind
    soundTable_nil hsweep

theorem linkTypes_sound (h : base.Stage d (Entity.DoneIf base d beforeTypes) s)
    (hok : s.linkTypes = .ok s') :
    base.Stage d (Entity.DoneIf base d beforeServices) s' := by
  obtain ⟨bound, state, hbind, hsweep, rfl⟩ :=
    (linkTypes_eq_ok (idsOf_eq_of_erase_eq h.same _)).mp hok
  exact h.pass_sound bound beforeTypes_eq_false
    (typeStep_keeps rfl beforeTypes_eq_false) hbind trivial hsweep

/-- The third pass links services, and then all entities are linked. -/
theorem linkServices_sound
    (h : base.Stage d (Entity.DoneIf base d beforeServices) s)
    {warnings : List Warning} (hok : s.linkServices = .ok (s', warnings)) :
    base.Stage d (Entity.Linked base d) s' := by
  obtain ⟨bound, state, hbind, hsweep, rfl, -⟩ :=
    (linkServices_eq_ok (idsOf_eq_of_erase_eq h.same _)).mp hok
  have hall := h.pass_sound (bound, .empty) beforeServices_eq_false
    (serviceStep_keeps rfl beforeServices_eq_false) hbind endingTable_empty hsweep
  refine hall.imp fun e hdone => hdone ?_
  cases e.kind <;> rfl

end Stage

theorem Models.stage (h : s.Models d) :
    s.Stage d (Entity.DoneIf s d fun _ => false) s :=
  ⟨h, rfl, fun _ _ _ hdone => (nomatch hdone)⟩

/-- **After linking, every entity is linked.** -/
theorem Models.stage_link (h : s.Models d) {warnings : List Warning}
    (hok : s.link = .ok (s', warnings)) : s.Stage d (Entity.Linked s d) s' := by
  unfold link at hok
  simp only [bind_eq_ok] at hok
  obtain ⟨s₁, hconstants, s₂, htypes, hservices⟩ := hok
  exact ((h.stage.linkConstants_sound hconstants).linkTypes_sound
    htypes).linkServices_sound hservices

/-- The scope that was linked has nothing but its own entities to look at. -/
theorem link_sound (h : s.Models d) {warnings : List Warning}
    (hok : s.link = .ok (s', warnings)) : s'.Stage d (Entity.Linked s' d) s' := by
  have hstage := h.stage_link hok
  refine ⟨hstage.models, rfl, fun id e he => ?_⟩
  obtain ⟨⟨hbound, hbindable⟩, hsettled, hresolved⟩ := hstage.each id e he
  exact ⟨⟨hbound.of_erase_eq hstage.same, hbindable⟩, hsettled, hresolved⟩

/-! ## What can be linked is linked -/

namespace Stage

theorem exists_linkConstants
    (h : base.Stage d (Entity.DoneIf base d fun _ => false) s)
    (hbindable : ∀ name x, d.Defines name x → x.Bindable d)
    (hvalues : ∀ name type expr, d.Defines name (.const type expr) →
      ∃ v, d.HasValue type expr v) : ∃ s', s.linkConstants = .ok s' := by
  obtain ⟨bound, hbind, hcan⟩ := h.exists_pass (fun _ _ => rfl)
    constantStep_keeps hbindable fun state id e hstage htable he hkind _ =>
      hstage.models.exists_constantStep hstage.constantsBound hvalues
        (htable.of_erase_eq hstage.same) he (beq_iff_eq.mp hkind)
  obtain ⟨state, hsweep⟩ := hcan (bound, []) rfl soundTable_nil
  exact ⟨_, (linkConstants_eq_ok (idsOf_eq_of_erase_eq h.same _)).mpr
    ⟨bound, state, hbind, hsweep, rfl⟩⟩

theorem exists_linkTypes (h : base.Stage d (Entity.DoneIf base d beforeTypes) s)
    (hbindable : ∀ name x, d.Defines name x → x.Bindable d)
    (hchecked : ∀ name x, d.Defines name x → x.Checked d name) :
    ∃ s', s.linkTypes = .ok s' := by
  have hsettles : Keeps base d Entity.Kind.isType (fun s => s) (fun _ => True)
      (Entity.BoundIf base d beforeTypes Entity.Kind.isType) (Entity.IsSettled d)
      typeStep := typeStep_keeps rfl beforeTypes_eq_false
  obtain ⟨bound, hbind, hcan⟩ := h.exists_pass beforeTypes_eq_false hsettles
    hbindable fun s id e hstage _ he hkind hbound => by
      obtain ⟨x, hx, -⟩ := hstage.models.exists_defines he
      have hvalued := (hstage.imp fun _ h => h.1).constantsValued rfl
      exact hstage.models.exists_typeStep hvalued he hkind hbound hx
        (hchecked e.name x hx)
  obtain ⟨state, hsweep⟩ := hcan bound rfl trivial
  exact ⟨_, (linkTypes_eq_ok (idsOf_eq_of_erase_eq h.same _)).mpr
    ⟨bound, state, hbind, hsweep, rfl⟩⟩

theorem exists_linkServices
    (h : base.Stage d (Entity.DoneIf base d beforeServices) s)
    (hbindable : ∀ name x, d.Defines name x → x.Bindable d)
    (hchecked : ∀ name x, d.Defines name x → x.Checked d name)
    (hends : Acyclic d.Extends) : ∃ s' warnings, s.linkServices = .ok (s', warnings) := by
  obtain ⟨bound, hbind, hcan⟩ := h.exists_pass beforeServices_eq_false
    (serviceStep_keeps rfl beforeServices_eq_false) hbindable
    fun state id e hstage _ he hkind hbound => by
      obtain ⟨x, hx, -⟩ := hstage.models.exists_defines he
      have hvalued := (hstage.imp fun _ h => h.1).constantsValued rfl
      exact hstage.models.exists_serviceStep hvalued hstage.parentsBound hends
        state.2 he (beq_iff_eq.mp hkind) hbound hx (hchecked e.name x hx)
  obtain ⟨state, hsweep⟩ := hcan (bound, .empty) rfl endingTable_empty
  exact ⟨_, _, (linkServices_eq_ok (idsOf_eq_of_erase_eq h.same _)).mpr
    ⟨bound, state, hbind, hsweep, rfl, rfl⟩⟩

end Stage

/-- Services that pass their checks do not extend themselves. -/
theorem acyclic_extends (hchecked : ∀ name x, d.Defines name x → x.Checked d name) :
    Acyclic d.Extends := by
  refine acyclic_of_acc fun a => .intro _ fun b hb => ?_
  obtain ⟨functions, m, hdefines, hm⟩ := hb
  obtain ⟨-, -, hacc⟩ := hchecked a _ hdefines
  exact hacc.inv ⟨functions, m, hdefines, hm⟩

/-- **A scope can be linked** when every definition can be bound and passes its
check. -/
theorem exists_link (h : s.Models d) :
    (∃ s' warnings, s.link = .ok (s', warnings)) ↔
      ∀ name x, d.Defines name x → x.Bindable d ∧ x.Checked d name := by
  constructor
  · rintro ⟨s', warnings, hok⟩ name x hx
    have hstage := link_sound h hok
    obtain ⟨id, e, he, rfl, -⟩ := hstage.models.exists_entity hx
    have hlinked := hstage.each id e he
    exact ⟨hlinked.bound.2 x hx, (hlinked.settled x hx).1⟩
  · intro hall
    have hbindable : ∀ name x, d.Defines name x → x.Bindable d :=
      fun name x hx => (hall name x hx).1
    have hchecked : ∀ name x, d.Defines name x → x.Checked d name :=
      fun name x hx => (hall name x hx).2
    obtain ⟨s₁, hconstants⟩ := h.stage.exists_linkConstants hbindable
      fun name type expr => hchecked name _
    have hstage₁ := h.stage.linkConstants_sound hconstants
    obtain ⟨s₂, htypes⟩ := hstage₁.exists_linkTypes hbindable hchecked
    obtain ⟨s₃, warnings, hservices⟩ :=
      (hstage₁.linkTypes_sound htypes).exists_linkServices hbindable hchecked
        (acyclic_extends hchecked)
    refine ⟨s₃, warnings, ?_⟩
    unfold link
    simp only [bind_eq_ok]
    exact ⟨s₁, hconstants, s₂, htypes, hservices⟩

end Scope

end Interlink
