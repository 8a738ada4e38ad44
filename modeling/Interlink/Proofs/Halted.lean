import Interlink.Proofs.Refusal

/-!
# What linking leaves behind

Linking works on one scope from the first step to the last, and it stops at the
first fault. What is left behind then (`Scope.afterLink`) was declared as before:
whatever linking added, without it the scope is the one that it began with
(`Scope.erase_afterLink`).

Nothing in it is half done either. A step gives its entity a new body with all
references bound, or it fails and changes nothing, so at every moment of a pass
each of its entities is as it was declared or is bound (`Entity.Pending`), and
those of later passes have not been touched. `Scope.leftAt_of_link` says what
follows for a link that stopped: which entities are resolved, which are bound,
and where values and methods may be found (`Scope.LeftAt`).
-/

namespace Interlink

/-! ## Passes -/

/-- **The passes of linking**, in their order. -/
inductive Pass where
  /-- Constants. -/
  | constants
  /-- Typedefs, enums, structs, unions and exceptions. -/
  | types
  /-- Services. -/
  | services
  deriving DecidableEq

/-- The place of a pass in their order. -/
def Pass.place : Pass → Nat
  | .constants => 0
  | .types => 1
  | .services => 2

/-- One pass comes before another. -/
def Pass.Before (p q : Pass) : Prop := p.place < q.place

instance (p q : Pass) : Decidable (p.Before q) :=
  inferInstanceAs (Decidable (p.place < q.place))

/-- The pass that goes over the entities of a kind. -/
def Entity.Kind.pass : Entity.Kind → Pass
  | .constant => .constants
  | .service => .services
  | _ => .types

namespace Pass

/-- The kinds that a pass goes over. -/
def kinds (pass : Pass) (kind : Entity.Kind) : Bool := kind.pass == pass

/-- The kinds that the passes before went over. -/
def earlier (pass : Pass) (kind : Entity.Kind) : Bool := decide (kind.pass.Before pass)

/-- A pass on its own. -/
def run : Pass → Scope → Except (Halt Scope) Scope
  | .constants, s => s.linkConstants
  | .types, s => s.linkTypes
  | .services, s => Prod.fst <$> s.linkServices

theorem kinds_constants : constants.kinds = fun kind => kind == .constant := by
  funext kind
  cases kind <;> rfl

theorem kinds_types : types.kinds = Entity.Kind.isType := by
  funext kind
  cases kind <;> rfl

theorem kinds_services : services.kinds = fun kind => kind == .service := by
  funext kind
  cases kind <;> rfl

theorem earlier_constants : constants.earlier = fun _ => false := by
  funext kind
  cases kind <;> rfl

/-- No pass goes over kinds of the passes before. -/
theorem earlier_of_kinds {pass : Pass} (kind : Entity.Kind) (h : pass.kinds kind = true) :
    pass.earlier kind = false := by
  obtain rfl : kind.pass = pass := beq_iff_eq.mp h
  exact decide_eq_false (Nat.lt_irrefl _)

/-- A kind belongs to a pass before, to the pass itself or to a later one. -/
theorem kind_cases (pass : Pass) (kind : Entity.Kind) :
    pass.earlier kind = true ∨ kind.pass = pass ∨ pass.Before kind.pass := by
  rcases Nat.lt_trichotomy kind.pass.place pass.place with hlt | heq | hgt
  · exact .inl (decide_eq_true hlt)
  · refine .inr (.inl ?_)
    revert heq
    cases kind.pass <;> cases pass <;> simp [place]
  · exact .inr (.inr hgt)

end Pass

/-! ## What linking leaves behind -/

namespace Entity.Body

/-- **No reference of a body is bound.** -/
structure Unbound (b : Body) : Prop where
  /-- References to types are not bound. -/
  types : ∀ r ∈ b.typeReferences, r.target = none
  /-- References to constants and enum items are not bound. -/
  constants : ∀ r ∈ b.constReferences, r.target = none
  /-- The service that is extended is not bound. -/
  parent : ∀ r ∈ b.parent?, r.target = none

/-- **A body holds something that was evaluated or collected**: the value of a
constant, the value of a default, or methods. -/
def HoldsResult : Body → Prop
  | .const _ _ value => value ≠ none
  | .struct _ fields => ∃ f ∈ fields, f.defaultValue ≠ none
  | .service functions _ methods =>
    methods ≠ [] ∨ ∃ f ∈ functions, ∃ g ∈ f.parameters ++ f.exceptions,
      g.defaultValue ≠ none
  | _ => False

theorem constReferences_erase (b : Body) :
    b.erase.constReferences = b.constReferences.map Reference.erase := by
  have hfield : ∀ f : Field, f.erase.defaultReferences
      = f.defaultReferences.map Reference.erase := by
    intro f
    unfold Field.defaultReferences Field.erase
    cases f.default with
    | none => rfl
    | some init => exact init.references_erase
  have hfields : ∀ fields : List Field,
      (fields.map Field.erase).flatMap Field.defaultReferences
        = (fields.flatMap Field.defaultReferences).map Reference.erase := by
    intro fields
    rw [List.flatMap_map, List.map_flatMap]
    simp only [hfield]
  cases b with
  | const type init value => exact init.references_erase
  | typedef target => rfl
  | enum items => rfl
  | struct kind fields => exact hfields fields
  | service functions parent methods =>
    simp only [erase, constReferences, Function.constReferences, Function.erase,
      List.flatMap_map, List.map_flatMap, List.map_append, hfields]

/-- A body as it is declared has no reference bound. -/
theorem unbound_of_erase_eq {b : Body} (h : b.erase = b) : b.Unbound := by
  constructor
  · intro r hr
    rw [← h, typeReferences_erase] at hr
    obtain ⟨r', -, rfl⟩ := List.mem_map.mp hr
    rfl
  · intro r hr
    rw [← h, constReferences_erase] at hr
    obtain ⟨r', -, rfl⟩ := List.mem_map.mp hr
    rfl
  · intro r hr
    rw [← h] at hr
    cases b with
    | service functions parent methods =>
      obtain ⟨r', -, rfl⟩ := Option.map_eq_some_iff.mp hr
      rfl
    | _ => cases hr

/-- A body as it is declared holds no result. -/
theorem not_holdsResult_of_erase_eq {b : Body} (h : b.erase = b) : ¬ b.HoldsResult := by
  rw [← h]
  cases b with
  | const type init value => exact fun hresult => hresult rfl
  | struct kind fields =>
    rintro ⟨f, hf, hresult⟩
    obtain ⟨f', -, rfl⟩ := List.mem_map.mp hf
    exact hresult rfl
  | service functions parent methods =>
    rintro (hmethods | ⟨f, hf, g, hg, hresult⟩)
    · exact hmethods rfl
    · obtain ⟨f', -, rfl⟩ := List.mem_map.mp hf
      have hg' : g ∈ (f'.parameters ++ f'.exceptions).map Field.erase := by
        rw [List.map_append]
        exact hg
      obtain ⟨g', -, rfl⟩ := List.mem_map.mp hg'
      exact hresult rfl
  | _ => exact fun hresult => hresult

end Entity.Body

namespace Scope

/-- **The scope that linking leaves behind**, whether it comes to its end or
not. -/
def afterLink (s : Scope) : Scope :=
  match s.link with
  | .ok (linked, _) => linked
  | .error halt => halt.left

/-- The scope that a pass begins with, if linking gets that far. -/
def atStart (s : Scope) : Pass → Except (Halt Scope) Scope
  | .constants => .ok s
  | .types => s.linkConstants
  | .services => s.linkConstants >>= Scope.linkTypes

/-- **Linking stops in a pass.** -/
def StopsIn (s : Scope) (pass : Pass) (halt : Halt Scope) : Prop :=
  ∃ start, s.atStart pass = .ok start ∧ pass.run start = .error halt

/-- **Linking gets to the second sweep of a pass**: the first one binds all its
entities. -/
def BindsAll (s : Scope) (pass : Pass) : Prop :=
  ∃ start bound, s.atStart pass = .ok start
    ∧ sweep bindStep start (start.idsOf pass.kinds) = .ok bound

/-- **What is left behind when linking stops in a pass.** -/
structure LeftAt (s : Scope) (pass : Pass) (left : Scope) : Prop where
  /-- Without what linking adds, it is the scope that linking began with. -/
  same : left.erase = s
  /-- The entities of the passes before are resolved, and no others. -/
  resolved : ∀ id e, left.entity? id = some e →
    (e.resolved = true ↔ e.kind.pass.Before pass)
  /-- No entity is half bound. -/
  whole : ∀ id e, left.entity? id = some e → e.body.Unbound ∨ e.body.Bound left
  /-- An entity is bound if its pass is done or has got to its second sweep. -/
  bound : ∀ id e, left.entity? id = some e →
    e.kind.pass.Before pass ∨ e.kind.pass = pass ∧ s.BindsAll pass → e.body.Bound left
  /-- The entities of later passes are as they were. -/
  later : ∀ id e, left.entity? id = some e → pass.Before e.kind.pass →
    s.entity? id = some e
  /-- Only what is bound has values or methods. -/
  results : ∀ id e, left.entity? id = some e → e.body.HoldsResult → e.body.Bound left

end Scope

/-! ## Every moment of a pass -/

variable {σ : Type} {step : σ → EntityId → Except CompileError σ}
  {base s s' : Scope} {d : Document} {pass : Pass} {id : EntityId} {e : Entity}

/-- **What has become of an entity while a pass goes on.** Those of the pass are
not resolved, and each is as it was declared or bound; those of later passes are
as they were declared. -/
structure Entity.Pending (base : Scope) (pass : Pass) (e : Entity) : Prop where
  /-- An entity of the pass. -/
  current : e.kind.pass = pass → e.resolved = false ∧ (e.erase = e ∨ e.body.Bound base)
  /-- An entity of a later pass. -/
  later : pass.Before e.kind.pass → e.erase = e

/-- **What is known of an entity when a pass begins**: it is linked, or it is as
it was declared. -/
def Entity.Entering (base : Scope) (d : Document) (pass : Pass) (e : Entity) : Prop :=
  e.DoneIf base d pass.earlier ∧ (pass.earlier e.kind = false → e.erase = e)

theorem Entity.resolved_of_erase_eq (h : e.erase = e) : e.resolved = false := by
  rw [← h]
  rfl

/-- When a pass begins, its entities and later ones are as they were declared. -/
theorem Entity.Entering.pending (h : e.Entering base d pass) : e.Pending base pass where
  current hpass := by
    have herase := h.2 (pass.earlier_of_kinds e.kind (beq_iff_eq.mpr hpass))
    exact ⟨resolved_of_erase_eq herase, .inl herase⟩
  later hpass := h.2 (decide_eq_false (Nat.lt_asymm hpass))

/-- A new body that is bound is no setback. -/
theorem Entity.Pending.setBody (h : e.Pending base pass) (hkind : pass.kinds e.kind = true)
    {b : Entity.Body} (herase : b.erase = e.body.erase) (hbound : b.Bound base) :
    Entity.Pending base pass { e with body := b } := by
  have hsame : Entity.kind { e with body := b } = e.kind :=
    Entity.kind_eq_of_erase_eq (congrArg (Entity.mk e.name e.span false) herase)
  have hpass : e.kind.pass = pass := beq_iff_eq.mp hkind
  constructor
  · exact fun _ => ⟨(h.current hpass).1, .inr hbound⟩
  · intro hlater
    rw [hsame, hpass] at hlater
    exact absurd hlater (Nat.lt_irrefl _)

/-- **No entity is half done**: it is as it was declared, or it is bound. -/
theorem Entity.Pending.erase_eq_or_bound (h : e.Pending base pass)
    (hdone : e.DoneIf base d pass.earlier) : e.erase = e ∨ e.body.Bound base := by
  rcases pass.kind_cases e.kind with hearlier | hpass | hlater
  · exact .inr (hdone hearlier).bound.1
  · exact (h.current hpass).2
  · exact .inl (h.later hlater)

/-- The entities of the passes before are resolved, and no others. -/
theorem Entity.Pending.resolved_iff (h : e.Pending base pass)
    (hdone : e.DoneIf base d pass.earlier) :
    e.resolved = true ↔ e.kind.pass.Before pass := by
  rcases pass.kind_cases e.kind with hearlier | hpass | hlater
  · exact iff_of_true (hdone hearlier).resolved (of_decide_eq_true hearlier)
  · refine iff_of_false (Bool.eq_false_iff.mp (h.current hpass).1) ?_
    rw [hpass]
    exact Nat.lt_irrefl _
  · exact iff_of_false (Bool.eq_false_iff.mp (resolved_of_erase_eq (h.later hlater)))
      (Nat.lt_asymm hlater)

/-- **The steps of a pass keep what is known of a pass that goes on.** -/
theorem Keeps.and_pending {view : σ → Scope} {inv : σ → Prop}
    {known gained : Entity → Prop}
    (h : Keeps base d pass.kinds view inv known gained step) :
    Keeps base d pass.kinds view inv (fun e => known e ∧ e.Pending base pass) gained
      step := by
  intro state id e state' hstage hinv he hkind hok
  obtain ⟨hinv', b, hview, herase, hbound, hknown, hgained⟩ :=
    h state id e state' (hstage.imp fun _ => And.left) hinv he hkind hok
  have hpending := (hstage.each id e he).2.setBody hkind herase hbound
  exact ⟨hinv', b, hview, herase, hbound, ⟨hknown, hpending⟩, hgained⟩

namespace Scope

section Pass

variable {view : σ → Scope} {inv : σ → Prop}

theorem bindStep_keeps_pass :
    Keeps base d pass.kinds (fun s => s) (fun _ => True)
      (fun e => e.DoneIf base d pass.earlier ∧ e.Pending base pass)
      (Entity.IsBound base d) bindStep :=
  (bindStep_keeps pass.earlier_of_kinds).and_pending

theorem Stage.left_of_bind {halt : Halt Scope}
    (h : base.Stage d (Entity.Entering base d pass) s)
    (herr : sweep bindStep s (base.idsOf pass.kinds) = .error halt) :
    base.Stage d (fun e => e.DoneIf base d pass.earlier ∧ e.Pending base pass)
      halt.left :=
  (exists_of_sweep_eq_error bindStep_keeps_pass (List.Subset.refl _)
    (h.imp fun _ he => ⟨he.1, he.pending⟩) trivial herr).1

theorem Stage.bound_of_bind {bound : Scope}
    (h : base.Stage d (Entity.Entering base d pass) s)
    (hbind : sweep bindStep s (base.idsOf pass.kinds) = .ok bound) :
    base.Stage d (fun e => e.BoundIf base d pass.earlier pass.kinds ∧ e.Pending base pass)
      bound := by
  obtain ⟨-, hstage⟩ := sweep_idsOf_sound bindStep_keeps_pass
    (h.imp fun _ he => ⟨he.1, he.pending⟩) trivial hbind
  exact hstage.imp fun _ he => ⟨⟨he.1.1, he.2⟩, he.1.2⟩

theorem Stage.left_of_settle (state : σ) {halt : Halt σ}
    (hsettles : Keeps base d pass.kinds view inv
      (Entity.BoundIf base d pass.earlier pass.kinds) (Entity.IsSettled d) step)
    (h : base.Stage d (Entity.Entering base d pass) s)
    (hbind : sweep bindStep s (base.idsOf pass.kinds) = .ok (view state))
    (hinv : inv state) (herr : sweep step state (base.idsOf pass.kinds) = .error halt) :
    base.Stage d (fun e => e.BoundIf base d pass.earlier pass.kinds ∧ e.Pending base pass)
      (view halt.left) :=
  (exists_of_sweep_eq_error hsettles.and_pending (List.Subset.refl _)
    (h.bound_of_bind hbind) hinv herr).1

/-- **After a pass the next one begins.** -/
theorem Stage.entering_next {next : Pass} (hnext : next.place = pass.place + 1)
    (state : σ) {state' : σ}
    (hsettles : Keeps base d pass.kinds view inv
      (Entity.BoundIf base d pass.earlier pass.kinds) (Entity.IsSettled d) step)
    (h : base.Stage d (Entity.Entering base d pass) s)
    (hbind : sweep bindStep s (base.idsOf pass.kinds) = .ok (view state))
    (hinv : inv state) (hok : sweep step state (base.idsOf pass.kinds) = .ok state') :
    base.Stage d (Entity.Entering base d next)
      ((view state').resolveAll (base.idsOf pass.kinds)) := by
  obtain ⟨-, hstage⟩ :=
    sweep_idsOf_sound hsettles.and_pending (h.bound_of_bind hbind) hinv hok
  have hdone := (hstage.imp fun _ he => ⟨he.1.1, he.2⟩).resolveAll
  have hplace : ∀ kind, next.earlier kind = (pass.earlier kind || pass.kinds kind) := by
    intro kind
    rcases pass.kind_cases kind with hearlier | rfl | hlater
    · have hlt : kind.pass.place < pass.place := of_decide_eq_true hearlier
      rw [hearlier, Bool.true_or]
      exact decide_eq_true (show kind.pass.place < next.place by omega)
    · have hkinds : kind.pass.kinds kind = true := beq_self_eq_true _
      rw [hkinds, Bool.or_true]
      exact decide_eq_true (show kind.pass.place < next.place by omega)
    · have hlt : pass.place < kind.pass.place := hlater
      have hkinds : pass.kinds kind = false := by
        refine beq_eq_false_iff_ne.mpr fun heq => ?_
        rw [heq] at hlt
        exact Nat.lt_irrefl _ hlt
      rw [hkinds, Bool.or_false]
      exact (decide_eq_false (show ¬ kind.pass.place < next.place by omega)).trans
        (decide_eq_false (show ¬ kind.pass.place < pass.place by omega)).symm
  refine ⟨hdone.models, hdone.same, fun id e he => ⟨fun hearlier => ?_, fun hnot => ?_⟩⟩
  · exact hdone.each id e he ((hplace e.kind).symm.trans hearlier)
  · -- an entity of a later pass is not among those that were marked
    rw [hplace, Bool.or_eq_false_iff] at hnot
    rw [entity?_resolveAll] at he
    split at he
    next hid =>
      obtain ⟨f, hf, hkind⟩ := hstage.exists_of_mem_idsOf hid
      rw [hf] at he
      cases he
      exact absurd (hkind.symm.trans hnot.2) Bool.noConfusion
    next =>
      refine (hstage.each id e he).1.2.later ?_
      rcases pass.kind_cases e.kind with hearlier | rfl | hlater
      · exact absurd (hearlier.symm.trans hnot.1) Bool.noConfusion
      · exact absurd (Eq.trans (beq_self_eq_true _).symm hnot.2) Bool.noConfusion
      · exact hlater

end Pass

/-! ## Passes that stop -/

/-- **What is known where a pass stopped.** It is what was known at every moment of
the pass, and if the pass had got to its second sweep, its entities are bound. -/
def Stopped (base : Scope) (d : Document) (pass : Pass) (left : Scope) : Prop :=
  base.Stage d (fun e => e.DoneIf base d pass.earlier ∧ e.Pending base pass) left
    ∧ (base.BindsAll pass → ∀ id e, left.entity? id = some e →
      e.kind.pass = pass → e.body.Bound base)

section Stops

variable {view : σ → Scope} {inv : σ → Prop} {start : Scope}

theorem Stage.stopped_of_bind {halt : Halt Scope}
    (h : base.Stage d (Entity.Entering base d pass) start)
    (hstart : base.atStart pass = .ok start)
    (herr : sweep bindStep start (base.idsOf pass.kinds) = .error halt) :
    base.Stopped d pass halt.left := by
  refine ⟨h.left_of_bind herr, ?_⟩
  rintro ⟨start', bound, hstart', hbind⟩
  obtain rfl : start' = start := Except.ok.inj (hstart'.symm.trans hstart)
  rw [idsOf_eq_of_erase_eq h.same, herr] at hbind
  cases hbind

theorem Stage.stopped_of_settle (state : σ) {halt : Halt σ}
    (hsettles : Keeps base d pass.kinds view inv
      (Entity.BoundIf base d pass.earlier pass.kinds) (Entity.IsSettled d) step)
    (h : base.Stage d (Entity.Entering base d pass) start)
    (hbind : sweep bindStep start (base.idsOf pass.kinds) = .ok (view state))
    (hinv : inv state) (herr : sweep step state (base.idsOf pass.kinds) = .error halt) :
    base.Stopped d pass (view halt.left) := by
  have hstage := h.left_of_settle state hsettles hbind hinv herr
  refine ⟨hstage.imp fun _ he => ⟨he.1.1, he.2⟩, fun _ id e he hpass => ?_⟩
  exact ((hstage.each id e he).1.2 (beq_iff_eq.mpr hpass)).1

end Stops

theorem constantStep_keeps_pass :
    Keeps base d Pass.constants.kinds Prod.fst
      (fun state => base.SoundTable d state.2)
      (Entity.BoundIf base d Pass.constants.earlier Pass.constants.kinds)
      (Entity.IsSettled d) constantStep := by
  rw [Pass.kinds_constants, Pass.earlier_constants]
  exact constantStep_keeps

theorem typeStep_keeps_pass :
    Keeps base d Pass.types.kinds (fun s => s) (fun _ => True)
      (Entity.BoundIf base d Pass.types.earlier Pass.types.kinds)
      (Entity.IsSettled d) typeStep := by
  rw [Pass.kinds_types]
  exact typeStep_keeps rfl (Pass.kinds_types ▸ Pass.earlier_of_kinds)

theorem serviceStep_keeps_pass :
    Keeps base d Pass.services.kinds Prod.fst
      (fun state => base.EndingTable d state.2)
      (Entity.BoundIf base d Pass.services.earlier Pass.services.kinds)
      (Entity.IsSettled d) serviceStep := by
  rw [Pass.kinds_services]
  exact serviceStep_keeps rfl fun kind hkind =>
    Pass.earlier_of_kinds kind (Pass.kinds_services ▸ hkind)

/-- **A pass that stops leaves nothing half done.** -/
theorem Stage.stopped {halt : Halt Scope} {start : Scope}
    (h : base.Stage d (Entity.Entering base d pass) start)
    (hstart : base.atStart pass = .ok start) (herr : pass.run start = .error halt) :
    base.Stopped d pass halt.left := by
  cases pass with
  | constants =>
    have herr : start.linkConstants = .error halt := herr
    unfold linkConstants at herr
    rw [← Pass.kinds_constants, idsOf_eq_of_erase_eq h.same] at herr
    rcases bind_eq_error.mp herr with hbind | ⟨bound, hbind, herr⟩
    · exact h.stopped_of_bind hstart hbind
    split at herr
    next halt' hsweep =>
      cases herr
      exact h.stopped_of_settle (bound, []) constantStep_keeps_pass hbind
        soundTable_nil hsweep
    next => exact absurd herr pure_ne_error
  | types =>
    have herr : start.linkTypes = .error halt := herr
    unfold linkTypes at herr
    rw [← Pass.kinds_types, idsOf_eq_of_erase_eq h.same] at herr
    rcases bind_eq_error.mp herr with hbind | ⟨bound, hbind, herr⟩
    · exact h.stopped_of_bind hstart hbind
    rcases bind_eq_error.mp herr with hsweep | ⟨state, -, herr⟩
    · exact h.stopped_of_settle bound typeStep_keeps_pass hbind trivial hsweep
    · exact absurd herr pure_ne_error
  | services =>
    have herr : start.linkServices = .error halt := map_eq_error.mp herr
    unfold linkServices at herr
    rw [← Pass.kinds_services, idsOf_eq_of_erase_eq h.same] at herr
    rcases bind_eq_error.mp herr with hbind | ⟨bound, hbind, herr⟩
    · exact h.stopped_of_bind hstart hbind
    split at herr
    next halt' hsweep =>
      cases herr
      exact h.stopped_of_settle (bound, .empty) serviceStep_keeps_pass hbind
        endingTable_empty hsweep
    next => exact absurd herr pure_ne_error

theorem Stage.entering_types
    (h : base.Stage d (Entity.Entering base d .constants) s)
    (hok : s.linkConstants = .ok s') :
    base.Stage d (Entity.Entering base d .types) s' := by
  obtain ⟨bound, state, hbind, hsweep, rfl⟩ :=
    (linkConstants_eq_ok (idsOf_eq_of_erase_eq h.same _)).mp hok
  rw [← Pass.kinds_constants] at hbind hsweep ⊢
  exact h.entering_next rfl (bound, []) constantStep_keeps_pass hbind soundTable_nil
    hsweep

theorem Stage.entering_services
    (h : base.Stage d (Entity.Entering base d .types) s)
    (hok : s.linkTypes = .ok s') :
    base.Stage d (Entity.Entering base d .services) s' := by
  obtain ⟨bound, state, hbind, hsweep, rfl⟩ :=
    (linkTypes_eq_ok (idsOf_eq_of_erase_eq h.same _)).mp hok
  rw [← Pass.kinds_types] at hbind hsweep ⊢
  exact h.entering_next rfl bound typeStep_keeps_pass hbind trivial hsweep

theorem Models.entering_constants (h : s.Models d)
    (hplain : ∀ id e, s.entity? id = some e → e.erase = e) :
    s.Stage d (Entity.Entering s d .constants) s := by
  refine ⟨h, rfl, fun id e he => ⟨fun hearlier => ?_, fun _ => hplain id e he⟩⟩
  rw [Pass.earlier_constants] at hearlier
  cases hearlier

/-- **Linking that stops, stops in a pass.** -/
theorem Models.exists_stopsIn (h : s.Models d)
    (hplain : ∀ id e, s.entity? id = some e → e.erase = e)
    {halt : Halt Scope} (herr : s.link = .error halt) :
    ∃ pass, s.StopsIn pass halt ∧ s.Stopped d pass halt.left := by
  have hconstants := h.entering_constants hplain
  rcases bind_eq_error.mp herr with hstop | ⟨s₁, hok₁, herr⟩
  · exact ⟨.constants, ⟨s, rfl, hstop⟩, hconstants.stopped rfl hstop⟩
  have htypes := hconstants.entering_types hok₁
  rcases bind_eq_error.mp herr with hstop | ⟨s₂, hok₂, herr⟩
  · exact ⟨.types, ⟨s₁, hok₁, hstop⟩, htypes.stopped hok₁ hstop⟩
  have hservices := htypes.entering_services hok₂
  have hstart : s.atStart .services = .ok s₂ := bind_eq_ok.mpr ⟨s₁, hok₁, hok₂⟩
  have hstop : Pass.services.run s₂ = .error halt := map_eq_error.mpr herr
  exact ⟨.services, ⟨s₂, hstart, hstop⟩, hservices.stopped hstart hstop⟩

/-! ## Scopes that were filled by declaring -/

variable {name : String} {xs : List Definition}

/-- Nothing is linked in entities that were only declared. -/
theorem erase_entity_of_defineAll (hs : (empty name).defineAll xs = .ok s)
    (he : s.entity? id = some e) : e.erase = e := by
  obtain ⟨-, new, hentities, -, hplain⟩ := entities_defineAll (isArena_empty name) hs
  refine hplain e ?_
  have hmem : e ∈ (empty name).entities ++ new := hentities ▸ List.mem_of_getElem? he
  exact hmem

theorem erase_of_defineAll (hs : (empty name).defineAll xs = .ok s) : s.erase = s := by
  have hentities : s.entities.map Entity.erase = s.entities := by
    refine (List.map_congr_left fun e he => ?_).trans (List.map_id _)
    obtain ⟨id, hid⟩ := List.mem_iff_getElem?.mp he
    exact erase_entity_of_defineAll hs hid
  exact congrArg (fun entities => { s with entities }) hentities

/-- **Definitions of which the third cannot be linked**: the default of its field is
a number, and should be a truth value. -/
def halfway : List Definition :=
  [⟨"LIMIT", ⟨1, 1⟩, .const (.primitive .i32) (.int 3)⟩,
    ⟨"Page", ⟨2, 1⟩, .struct .struct [⟨some 1, "size", .primitive .i32, .unmarked,
      some (.reference ⟨"LIMIT", ⟨2, 26⟩⟩), ⟨2, 15⟩⟩]⟩,
    ⟨"Flags", ⟨3, 1⟩, .struct .struct [⟨some 1, "on", .primitive .bool, .unmarked,
      some (.reference ⟨"LIMIT", ⟨3, 26⟩⟩), ⟨3, 16⟩⟩]⟩,
    ⟨"Store", ⟨4, 1⟩, .service
      [⟨"load", [], some (.named ⟨"Page", ⟨4, 17⟩⟩), [], false, ⟨4, 17⟩⟩] none⟩]

/-- The definitions declared. -/
def halfwayScope : Scope where
  name := "halfway"
  entities :=
    [⟨"LIMIT", ⟨1, 1⟩, false, .const (.primitive .i32) (.int 3) none⟩,
      ⟨"Page", ⟨2, 1⟩, false, .struct .struct [⟨1, "size", .primitive .i32, .unmarked,
        some (.reference ⟨"LIMIT", ⟨2, 26⟩, none⟩), none, ⟨2, 15⟩⟩]⟩,
      ⟨"Flags", ⟨3, 1⟩, false, .struct .struct [⟨1, "on", .primitive .bool, .unmarked,
        some (.reference ⟨"LIMIT", ⟨3, 26⟩, none⟩), none, ⟨3, 16⟩⟩]⟩,
      ⟨"Store", ⟨4, 1⟩, false, .service
        [⟨"load", [], some (.named ⟨"Page", ⟨4, 17⟩, none⟩), [], false, ⟨4, 17⟩⟩] none []⟩]
  symbols := [("LIMIT", 0), ("Page", 1), ("Flags", 2), ("Store", 3)]

/-- What is left behind: the constant is resolved, the first struct has its
default, the second one is bound, and the service is as it was. -/
def halfwayLeft : Scope where
  name := "halfway"
  entities :=
    [⟨"LIMIT", ⟨1, 1⟩, true, .const (.primitive .i32) (.int 3) (some (.i32 3))⟩,
      ⟨"Page", ⟨2, 1⟩, false, .struct .struct [⟨1, "size", .primitive .i32, .unmarked,
        some (.reference ⟨"LIMIT", ⟨2, 26⟩, some (.const 0)⟩), some (.i32 3), ⟨2, 15⟩⟩]⟩,
      ⟨"Flags", ⟨3, 1⟩, false, .struct .struct [⟨1, "on", .primitive .bool, .unmarked,
        some (.reference ⟨"LIMIT", ⟨3, 26⟩, some (.const 0)⟩), none, ⟨3, 16⟩⟩]⟩,
      ⟨"Store", ⟨4, 1⟩, false, .service
        [⟨"load", [], some (.named ⟨"Page", ⟨4, 17⟩, none⟩), [], false, ⟨4, 17⟩⟩] none []⟩]
  symbols := [("LIMIT", 0), ("Page", 1), ("Flags", 2), ("Store", 3)]

section

open Evaluation

theorem defineAll_halfway : (empty "halfway").defineAll halfway = .ok halfwayScope := by
  simp [halfway, halfwayScope]

/-- Linking stops at the third definition. -/
theorem link_halfway : halfwayScope.link = .error ⟨.mismatch "Flags.on" ⟨3, 16⟩
    (.notUsable (.i32 3) (.primitive .bool)), halfwayLeft⟩ := by
  simp [halfwayScope, halfwayLeft]

end

/-- **Linking only adds.** Whether linking comes to its end or stops, without the
targets of references, the values of constants and of defaults, the methods of
services and the marks of what is resolved, what it leaves behind is the scope
that it began with. -/
theorem erase_afterLink (hs : (empty name).defineAll xs = .ok s) :
    s.afterLink.erase = s := by
  have hmodels : s.Models ⟨[], xs⟩ := models_of_defineAll hs
  suffices hsame : s.afterLink.erase = s.erase from
    hsame.trans (erase_of_defineAll hs)
  unfold afterLink
  split
  next linked warnings hok => exact (hmodels.stage_link hok).same
  next halt herr =>
    obtain ⟨pass, -, hstage, -⟩ :=
      hmodels.exists_stopsIn (fun _ _ => erase_entity_of_defineAll hs) herr
    exact hstage.same

/-- Without what linking added before it stopped, the definitions are only
declared. -/
theorem erase_afterLink_halfway : halfwayScope.afterLink = halfwayLeft
    ∧ halfwayScope.afterLink.erase = halfwayScope := by
  refine ⟨?_, erase_afterLink defineAll_halfway⟩
  unfold afterLink
  rw [link_halfway]

/-- **A link that stops leaves nothing half linked.** It stops in one of the passes,
and leaves all that was declared. No entity of that has some of its references
bound and others not. The resolved entities are those of the passes before. All of these
are bound, and so are those of the pass itself if it had got to its second
sweep. Entities of later passes are as they were declared, and values of
constants and defaults and methods of services are found in bound entities
only. -/
theorem leftAt_of_link (hs : (empty name).defineAll xs = .ok s)
    {halt : Halt Scope} (herr : s.link = .error halt) :
    ∃ pass, s.StopsIn pass halt ∧ s.LeftAt pass halt.left := by
  have hmodels : s.Models ⟨[], xs⟩ := models_of_defineAll hs
  obtain ⟨pass, hstop, hstage, hbinds⟩ :=
    hmodels.exists_stopsIn (fun _ _ => erase_entity_of_defineAll hs) herr
  have hwhole : ∀ id e, halt.left.entity? id = some e →
      e.erase = e ∨ e.body.Bound halt.left := by
    intro id e he
    obtain ⟨hdone, hpending⟩ := hstage.each id e he
    exact (hpending.erase_eq_or_bound hdone).imp_right (·.of_erase_eq hstage.same)
  refine ⟨pass, hstop, hstage.same.trans (erase_of_defineAll hs), ?resolved, ?whole,
    ?bound, ?later, ?results⟩
  case resolved =>
    intro id e he
    obtain ⟨hdone, hpending⟩ := hstage.each id e he
    exact hpending.resolved_iff hdone
  case whole =>
    intro id e he
    exact (hwhole id e he).imp_left fun herase =>
      Entity.Body.unbound_of_erase_eq (congrArg Entity.body herase)
  case bound =>
    rintro id e he (hbefore | ⟨hpass, hall⟩)
    · have hlinked := (hstage.each id e he).1 (decide_eq_true hbefore)
      exact hlinked.bound.1.of_erase_eq hstage.same
    · exact (hbinds hall id e he hpass).of_erase_eq hstage.same
  case later =>
    intro id e he hlater
    obtain ⟨e', he', herase⟩ := exists_entity?_of_erase_eq hstage.same.symm he
    rw [erase_entity_of_defineAll hs he',
      (hstage.each id e he).2.later hlater] at herase
    exact herase ▸ he'
  case results =>
    intro id e he hresult
    refine (hwhole id e he).resolve_left fun herase => ?_
    exact Entity.Body.not_holdsResult_of_erase_eq (congrArg Entity.body herase) hresult

/-- What is left behind of the four definitions is nothing half linked. -/
theorem leftAt_halfway : ∃ pass, halfwayScope.StopsIn pass ⟨.mismatch "Flags.on"
      ⟨3, 16⟩ (.notUsable (.i32 3) (.primitive .bool)), halfwayLeft⟩
    ∧ halfwayScope.LeftAt pass halfwayLeft :=
  leftAt_of_link defineAll_halfway link_halfway

end Scope

end Interlink
