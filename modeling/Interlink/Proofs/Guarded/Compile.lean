import Interlink.Proofs.Guarded.Bind
import Interlink.Proofs.Guarded.Evaluate
import Interlink.Proofs.Guarded.Methods

/-!
# Guarded compiling

The guarded functions put together. What a step of a pass relies on is known in every
state that the pass can get to (`Scope.Stage`), so a guarded sweep is the plain one
(`Guarded.sweep_eq`): each entity of a pass is unresolved until the pass marks it, and
it is as it was declared until the first sweep comes to it. So no guard is tripped in a
pass, nor in all three of them; and when they are done every entity is resolved.
-/

namespace Interlink

namespace Guarded

open Entity (Function Method)

variable {σ : Type} {base s s' : Scope} {d : Document} {pass : Pass} {id : EntityId}
  {e : Entity}

/-! ## Steps -/

def constantStep (state : Scope × ValueTable) (id : EntityId) :
    Guarded (Scope × ValueTable) := do
  let (value, table) ← findValue state.1 state.1.steps [] state.2 id
  match (← entity state.1 id).body with
  | .const type init _ => do
    let s ← replace state.1 id (.const type init (some value))
    return (s, table)
  | _ => return (state.1, table)

theorem constantStep_eq {state : Scope × ValueTable} (h : state.1.Models d)
    (hbound : state.1.ConstantsBound) (htable : state.1.SoundTable d state.2)
    (he : state.1.entity? id = some e) (hkind : e.kind = .constant)
    (hopen : e.resolved = false) :
    constantStep state id = ofResult (Scope.constantStep state id) := by
  have hfind := findValue_eq h hbound (open_nil _) htable he hkind
  unfold constantStep Scope.constantStep
  cases hbody : e.body with
  | const type init stored =>
    have hkind : Entity.Body.kind _ = e.kind := (congrArg Entity.Body.kind hbody).symm
    simp only [hfind, he, hbody]
    refine bind_eq rfl fun found _ => ?_
    have hset : replace state.1 id (.const type init (some found.1)) = .ok _ :=
      replace_eq he hopen hkind
    simp only [entity_eq he, bind, Except.bind, hbody, hset]
    rfl
  | _ => simp [Entity.kind, Entity.Body.kind, hbody] at hkind

/-- The typedefs in front of an entity. -/
def dealiasEntity (s : Scope) (id : EntityId) : Guarded Peeled := do
  let e ← entity s id
  match e.body with
  | .typedef target => follow s e.name s.steps [id] target
  | _ => .ok (.entity id e.kind)

theorem dealiasEntity_eq (h : s.IsArena) (he : s.entity? id = some e) :
    dealiasEntity s id = ofResult (peel <$> s.dealiasEntity id e) := by
  unfold dealiasEntity Scope.dealiasEntity
  rw [entity_eq he]
  simp only [bind, Except.bind]
  cases e.body with
  | typedef target =>
    exact follow_eq h e.name (fun _ => Scope.chainedTrail_singleton he trivial) target
  | _ => rfl

def typeStep (s : Scope) (id : EntityId) : Guarded Scope := do
  let e ← entity s id
  match e.body with
  | .typedef _ => do
    discard (dealiasEntity s id)
    return s
  | .struct kind fields => do
    ofResult (Entity.checkDistinct e.name ∅ ∅ fields)
    if kind = .union then ofResult (Entity.checkUnion e.name fields)
    let fields ← evaluateDefaults s e.name fields
    replace s id (.struct kind fields)
  | _ => .ok s

theorem typeStep_eq (h : s.IsArena) (hvalued : s.ConstantsValued d)
    (he : s.entity? id = some e) (hbound : e.body.Bound s) (hopen : e.resolved = false) :
    typeStep s id = ofResult (s.typeStep id) := by
  have hdealias := dealiasEntity_eq h he
  unfold typeStep Scope.typeStep
  rw [entity_eq he, he]
  simp only [bind, Except.bind]
  cases hbody : e.body with
  | typedef target =>
    rw [hdealias]
    cases s.dealiasEntity id e <;> rfl
  | struct kind fields =>
    have hkind : Entity.Body.kind _ = e.kind := (congrArg Entity.Body.kind hbody).symm
    rw [hbody] at hbound
    have hdefaults := evaluateDefaults_eq h hvalued e.name hbound.constants
    refine bind_eq rfl fun _ _ => ?_
    split
    · exact bind_eq rfl fun _ _ => bind_eq hdefaults fun _ _ => replace_eq he hopen hkind
    · exact bind_eq hdefaults fun _ _ => replace_eq he hopen hkind
  | _ => rfl

def serviceStep (state : Scope × MethodTable) (id : EntityId) :
    Guarded (Scope × MethodTable) := do
  let e ← entity state.1 id
  match e.body with
  | .service functions parent _ => do
    ofResult (Entity.checkFunctionNames e.name ∅ functions)
    let functions ← functions.mapM (checkFunction state.1 e.name)
    let (methods, table) ← findMethods state.1 state.1.steps [] state.2 id
    let s ← replace state.1 id (.service functions parent methods)
    return (s, table)
  | _ => .ok state

theorem serviceStep_eq {state : Scope × MethodTable} (h : state.1.IsArena)
    (hvalued : state.1.ConstantsValued d) (hparents : state.1.ParentsBound)
    (htable : state.1.Collects state.2) (he : state.1.entity? id = some e)
    (hbound : e.body.Bound state.1) (hopen : e.resolved = false) :
    serviceStep state id = ofResult (Scope.serviceStep state id) := by
  have hfind := findMethods_eq h hparents (open_nil _) htable he
  unfold serviceStep Scope.serviceStep
  rw [entity_eq he]
  simp only [he, bind, Except.bind]
  cases hbody : e.body with
  | service functions parent stored =>
    have hkind : Entity.Body.kind _ = e.kind := (congrArg Entity.Body.kind hbody).symm
    rw [hbody] at hbound
    refine bind_eq rfl fun _ _ => bind_eq (mapM_eq fun f hf => ?_) fun functions' _ =>
      bind_eq (hfind hkind.symm) fun found _ => ?_
    · exact checkFunction_eq h hvalued e.name fun r hr =>
        hbound.constants r (List.mem_flatMap.mpr ⟨f, hf, hr⟩)
    · have hset : replace state.1 id (.service functions' parent found.1) = .ok _ :=
        replace_eq he hopen hkind
      simp only [hset]
      rfl
  | _ => rfl

/-! ## Sweeps -/

section Sweep

variable {kinds : Entity.Kind → Bool} {view : σ → Scope} {inv : σ → Prop}
  {known gained : Entity → Prop} {step : σ → EntityId → Except CompileError σ}
  {step' : σ → EntityId → Guarded σ} {state : σ} {ids : List EntityId}

/-- **A guarded sweep is the plain one**, if each of its steps is, in all states that
it can get to. A step comes to an entity only once, so what was known of it at the start
(`fresh`) is still known. -/
theorem sweep_eq (fresh : Entity → Prop)
    (hstep : Keeps base d kinds view inv known gained step)
    (heach : ∀ state id e, base.Stage d known (view state) → inv state →
      (view state).entity? id = some e → kinds e.kind = true → fresh e →
      step' state id = ofResult (step state id))
    (hids : ids ⊆ base.idsOf kinds) (honce : ids.Nodup)
    (hstage : base.Stage d known (view state)) (hinv : inv state)
    (hfresh : ∀ id ∈ ids, ∀ e, (view state).entity? id = some e → fresh e) :
    ids.foldlM step' state = ofHalt (sweep step state ids) := by
  induction ids generalizing state with
  | nil => rfl
  | cons id ids ih =>
    obtain ⟨hid, hids⟩ := List.cons_subset.mp hids
    obtain ⟨hnew, honce⟩ := List.nodup_cons.mp honce
    obtain ⟨hfirst, hfresh⟩ := List.forall_mem_cons.mp hfresh
    obtain ⟨e, he, hkind⟩ := hstage.exists_of_mem_idsOf hid
    rw [List.foldlM_cons, sweep, heach state id e hstage hinv he hkind (hfirst e he)]
    cases hok : step state id with
    | error fault => rfl
    | ok next =>
      obtain ⟨hinv', b, hview, herase, hbound, hknown, -⟩ :=
        hstep state id e next hstage hinv he hkind hok
      refine ih hids honce (hview ▸ hstage.setBody he herase hbound hknown) hinv' ?_
      intro j hj f hf
      have hne : id ≠ j := fun heq => hnew (heq ▸ hj)
      rw [hview, Scope.entity?_setBody, if_neg hne] at hf
      exact hfresh j hj f hf

/-- Entities that are not resolved are marked without tripping a guard. -/
theorem markAll_eq (honce : ids.Nodup)
    (hopen : ∀ id ∈ ids, ∃ e, s.entity? id = some e ∧ e.resolved = false) :
    ids.foldlM mark s = .ok (s.resolveAll ids) := by
  induction ids generalizing s with
  | nil => rfl
  | cons id ids ih =>
    obtain ⟨hnew, honce⟩ := List.nodup_cons.mp honce
    obtain ⟨⟨e, he, hresolved⟩, hopen⟩ := List.forall_mem_cons.mp hopen
    rw [List.foldlM_cons, mark_eq he hresolved]
    refine ih honce fun j hj => ?_
    have hne : id ≠ j := fun heq => hnew (heq ▸ hj)
    rw [Scope.entity?_resolve, if_neg hne]
    exact hopen j hj

end Sweep

/-! ## Passes -/

def declared (s : Scope) : Guarded (List (EntityId × Entity)) :=
  s.symbols.mapM fun x => do return (x.2, ← entity s x.2)

theorem declared_eq (h : s.IsArena) : declared s = .ok s.declared := by
  have hsymbols : ∀ symbols : List (String × EntityId),
      (∀ x ∈ symbols, ∃ e, s.entity? x.2 = some e) →
      (symbols.mapM fun x => do return (x.2, ← entity s x.2) : Guarded _)
        = .ok (symbols.filterMap fun x => (s.entity? x.2).map fun e => (x.2, e)) := by
    intro symbols hheld
    induction symbols with
    | nil => rfl
    | cons x symbols ih =>
      obtain ⟨⟨e, he⟩, hheld⟩ := List.forall_mem_cons.mp hheld
      rw [List.mapM_cons, ih hheld, entity_eq he, List.filterMap_cons, he]
      rfl
  refine hsymbols s.symbols fun x hx => ?_
  rw [h.symbols] at hx
  obtain ⟨i, hi, rfl⟩ := List.mem_mapIdx.mp hx
  exact ⟨_, List.getElem?_eq_getElem hi⟩

def idsOf (s : Scope) (kinds : Entity.Kind → Bool) : Guarded (List EntityId) := do
  return ((← declared s).filter fun x => kinds x.2.kind).map Prod.fst

theorem idsOf_eq (h : s.IsArena) (kinds : Entity.Kind → Bool) :
    idsOf s kinds = .ok (s.idsOf kinds) := by
  unfold idsOf
  rw [declared_eq h]
  rfl

/-- **One pass**: its entities are bound, gone over again, and marked. -/
def run (kinds : Entity.Kind → Bool) (first : Scope → σ) (view : σ → Scope)
    (step : σ → EntityId → Guarded σ) (s : Scope) : Guarded (Scope × σ) := do
  let ids ← idsOf s kinds
  let bound ← ids.foldlM bindStep s
  let state ← ids.foldlM step (first bound)
  let s ← ids.foldlM mark (view state)
  return (s, state)

/-- In the first sweep of a pass an entity is as it was declared. -/
theorem bindAll_eq (h : base.Stage d (Entity.Entering base d pass) s) :
    (base.idsOf pass.kinds).foldlM bindStep s
      = ofHalt (sweep Scope.bindStep s (base.idsOf pass.kinds)) := by
  have harena := h.models.arena.of_erase_eq h.same.symm
  refine sweep_eq (fun e => e.erase = e) Scope.bindStep_keeps_pass ?_
    (List.Subset.refl _) (harena.nodup_idsOf _) (h.imp fun _ he => ⟨he.1, he.pending⟩)
    trivial ?_
  · intro s id e hstage _ he _ herase
    exact bindStep_eq hstage.models.arena he (Entity.resolved_of_erase_eq herase)
      (Entity.Body.unbound_of_erase_eq (congrArg Entity.body herase))
  · intro id hid e he
    obtain ⟨e', he', hkind⟩ := h.exists_of_mem_idsOf hid
    obtain rfl : e = e' := Option.some.inj (he.symm.trans he')
    exact (h.each id e he).2 (pass.earlier_of_kinds _ hkind)

section Run

variable {first : Scope → σ} {view : σ → Scope} {inv : σ → Prop} {gained : Entity → Prop}
  {step : σ → EntityId → Except CompileError σ} {step' : σ → EntityId → Guarded σ}
  {state : σ}

/-- **The steps of a second sweep trip no guard**, where the entities of the pass are
bound and not resolved. -/
def Safe (base : Scope) (d : Document) (pass : Pass) (view : σ → Scope) (inv : σ → Prop)
    (step : σ → EntityId → Except CompileError σ) (step' : σ → EntityId → Guarded σ) : Prop :=
  ∀ state id e, base.Stage d (Entity.BoundIf base d pass.earlier pass.kinds) (view state) →
    inv state → (view state).entity? id = some e → pass.kinds e.kind = true →
    e.body.Bound (view state) → e.resolved = false →
    step' state id = ofResult (step state id)

/-- In the second sweep of a pass an entity is bound, and still not resolved. -/
theorem settleAll_eq
    (hsettles : Keeps base d pass.kinds view inv
      (Entity.BoundIf base d pass.earlier pass.kinds) gained step)
    (hsafe : Safe base d pass view inv step step')
    (h : base.Stage d (fun e => e.BoundIf base d pass.earlier pass.kinds
      ∧ e.Pending base pass) (view state))
    (hinv : inv state) :
    (base.idsOf pass.kinds).foldlM step' state
      = ofHalt (sweep step state (base.idsOf pass.kinds)) := by
  have harena := h.models.arena.of_erase_eq h.same.symm
  refine sweep_eq (fun _ => True) hsettles.and_pending ?_ (List.Subset.refl _)
    (harena.nodup_idsOf _) h hinv fun _ _ _ _ => trivial
  intro state id e hstage hinv he hkind _
  obtain ⟨⟨-, hbody⟩, hpending⟩ := hstage.each id e he
  exact hsafe state id e (hstage.imp fun _ => And.left) hinv he hkind
    ((hbody hkind).1.of_erase_eq hstage.same) (hpending.current (beq_iff_eq.mp hkind)).1

/-- **No guard is tripped in a pass**, if none is in the steps of its second sweep. -/
theorem run_eq
    (hsettles : Keeps base d pass.kinds view inv
      (Entity.BoundIf base d pass.earlier pass.kinds) gained step)
    (hsafe : Safe base d pass view inv step step')
    (hview : ∀ s, view (first s) = s) (hinv : ∀ s, inv (first s))
    (h : base.Stage d (Entity.Entering base d pass) s) :
    run pass.kinds first view step' s = (do
      let bound ← ofHalt (sweep Scope.bindStep s (s.idsOf pass.kinds))
      let state ← ofHalt (sweep step (first bound) (s.idsOf pass.kinds))
      return ((view state).resolveAll (s.idsOf pass.kinds), state)) := by
  unfold run
  rw [idsOf_eq h.models.arena, Scope.idsOf_eq_of_erase_eq h.same]
  simp only [bind, Except.bind, bindAll_eq h]
  cases hbound : sweep Scope.bindStep s (base.idsOf pass.kinds) with
  | error halt => rfl
  | ok bound =>
    have hstage : base.Stage d (fun e => e.BoundIf base d pass.earlier pass.kinds
        ∧ e.Pending base pass) (view (first bound)) :=
      (hview bound).symm ▸ h.bound_of_bind hbound
    simp only [ofHalt, Except.mapError, settleAll_eq hsettles hsafe hstage (hinv bound)]
    cases hok : sweep step (first bound) (base.idsOf pass.kinds) with
    | error halt => rfl
    | ok state =>
      obtain ⟨-, hdone⟩ := sweep_idsOf_sound hsettles.and_pending hstage (hinv bound) hok
      have hopen : ∀ id ∈ base.idsOf pass.kinds, ∃ e, (view state).entity? id = some e
          ∧ e.resolved = false := by
        intro id hid
        obtain ⟨e, he, hkind⟩ := hdone.exists_of_mem_idsOf hid
        exact ⟨e, he, ((hdone.each id e he).1.2.current (beq_iff_eq.mp hkind)).1⟩
      have harena := h.models.arena.of_erase_eq h.same.symm
      simp only [markAll_eq (harena.nodup_idsOf _) hopen]

end Run

def linkConstants (s : Scope) : Guarded Scope :=
  Prod.fst <$> run (· == .constant) (fun s => (s, [])) Prod.fst constantStep s

theorem linkConstants_eq (h : base.Stage d (Entity.Entering base d .constants) s) :
    linkConstants s = ofHalt s.linkConstants := by
  have hsafe : Safe base d .constants Prod.fst (fun state => base.SoundTable d state.2)
      Scope.constantStep constantStep := by
    intro state id e hstage htable he hkind hbound hopen
    rw [Pass.kinds_constants] at hstage hkind
    exact constantStep_eq hstage.models hstage.constantsBound
      (htable.of_erase_eq hstage.same) he (beq_iff_eq.mp hkind) hopen
  unfold linkConstants Scope.linkConstants
  rw [← Pass.kinds_constants, run_eq Scope.constantStep_keeps_pass hsafe (fun _ => rfl)
    (fun _ => Scope.soundTable_nil) h]
  dsimp only
  cases sweep Scope.bindStep s (s.idsOf Pass.constants.kinds) with
  | error halt => rfl
  | ok bound =>
    simp only [bind, Except.bind, ofHalt, Except.mapError]
    cases sweep Scope.constantStep (bound, []) (s.idsOf Pass.constants.kinds) <;> rfl

def linkTypes (s : Scope) : Guarded Scope :=
  Prod.fst <$> run Entity.Kind.isType (fun s => s) (fun s => s) typeStep s

theorem linkTypes_eq (h : base.Stage d (Entity.Entering base d .types) s) :
    linkTypes s = ofHalt s.linkTypes := by
  have hsafe : Safe base d .types (fun s => s) (fun _ => True) Scope.typeStep typeStep := by
    intro s id e hstage _ he _ hbound hopen
    have hvalued := (hstage.imp fun _ h => h.1).constantsValued rfl
    exact typeStep_eq hstage.models.arena hvalued he hbound hopen
  unfold linkTypes Scope.linkTypes
  rw [← Pass.kinds_types, run_eq Scope.typeStep_keeps_pass hsafe (fun _ => rfl)
    (fun _ => trivial) h]
  dsimp only
  cases sweep Scope.bindStep s (s.idsOf Pass.types.kinds) with
  | error halt => rfl
  | ok bound =>
    simp only [bind, Except.bind, ofHalt, Except.mapError]
    cases sweep Scope.typeStep bound (s.idsOf Pass.types.kinds) <;> rfl

def linkServices (s : Scope) : Guarded (Scope × List Warning) := do
  let (s, state) ← run (· == .service) (fun s => (s, .empty)) Prod.fst serviceStep s
  return (s, state.2.warnings)

theorem linkServices_eq (h : base.Stage d (Entity.Entering base d .services) s) :
    linkServices s = ofHalt s.linkServices := by
  have hsettles : Keeps base d Pass.services.kinds Prod.fst
      (fun state => base.EndingTable d state.2 ∧ base.Collects state.2)
      (Entity.BoundIf base d Pass.services.earlier Pass.services.kinds)
      base.StoresMethods Scope.serviceStep := by
    rw [Pass.kinds_services]
    exact Scope.serviceStep_keeps_methods rfl fun kind hkind =>
      Pass.earlier_of_kinds kind (Pass.kinds_services ▸ hkind)
  have hsafe : Safe base d .services Prod.fst
      (fun state => base.EndingTable d state.2 ∧ base.Collects state.2)
      Scope.serviceStep serviceStep := by
    intro state id e hstage hinv he _ hbound hopen
    have hvalued := (hstage.imp fun _ h => h.1).constantsValued rfl
    rw [Pass.kinds_services] at hstage
    exact serviceStep_eq hstage.models.arena hvalued hstage.parentsBound
      (hinv.2.of_erase_eq hstage.same) he hbound hopen
  unfold linkServices Scope.linkServices
  rw [← Pass.kinds_services, run_eq hsettles hsafe (fun _ => rfl)
    (fun _ => ⟨Scope.endingTable_empty, Scope.collects_empty⟩) h]
  dsimp only
  cases sweep Scope.bindStep s (s.idsOf Pass.services.kinds) with
  | error halt => rfl
  | ok bound =>
    simp only [bind, Except.bind, ofHalt, Except.mapError]
    cases sweep Scope.serviceStep (bound, .empty) (s.idsOf Pass.services.kinds) <;> rfl

/-- **Linking a scope.** At the end every entity must be resolved. -/
def link (s : Scope) : Guarded (Scope × List Warning) := do
  let s ← linkConstants s
  let s ← linkTypes s
  let (s, warnings) ← linkServices s
  (← declared s).forM fun x =>
    if x.2.resolved then .ok () else trip (.unresolved x.1)
  return (s, warnings)

/-- **Linking trips no guard**, if nothing is linked at the start. -/
theorem link_eq (h : s.Models d) (hplain : ∀ id e, s.entity? id = some e → e.erase = e) :
    link s = ofHalt s.link := by
  have hconstants := h.entering_constants hplain
  have hlinked : ∀ s' warnings, s.link = .ok (s', warnings) →
      s.Stage d (Entity.Linked s d) s' := fun _ _ hok => h.stage_link hok
  unfold Scope.link at hlinked
  unfold link Scope.link
  rw [linkConstants_eq hconstants]
  cases hok₁ : s.linkConstants with
  | error halt => rfl
  | ok s₁ =>
    have htypes := hconstants.entering_types hok₁
    rw [hok₁] at hlinked
    simp only [bind, Except.bind, ofHalt, Except.mapError, linkTypes_eq htypes] at hlinked ⊢
    cases hok₂ : s₁.linkTypes with
    | error halt => rfl
    | ok s₂ =>
      have hservices := htypes.entering_services hok₂
      rw [hok₂] at hlinked
      simp only [ofHalt, Except.mapError, linkServices_eq hservices] at hlinked ⊢
      cases hok₃ : s₂.linkServices with
      | error halt => rfl
      | ok found =>
        obtain ⟨s', warnings⟩ := found
        have hstage := hlinked s' warnings hok₃
        have hresolved : (s'.declared.forM fun x =>
            if x.2.resolved then .ok () else trip (.unresolved x.1) : Guarded Unit)
              = .ok () := by
          refine forM_eq_ok.mpr fun x hx => ?_
          obtain ⟨symbol, -, hsymbol⟩ := List.mem_filterMap.mp hx
          obtain ⟨e, he, rfl⟩ := Option.map_eq_some_iff.mp hsymbol
          exact if_pos (hstage.each _ e he).resolved
        simp only [declared_eq hstage.models.arena, hresolved]
        rfl

/-! ## Documents -/

def declare (s : Scope) (name : String) (span : Span) (body : Entity.Body) :
    Guarded Scope := do
  match ← named s name with
  | some (_, first) => .error (.fault (.duplicate name span first.span))
  | none => ofResult (s.declare name span body)

theorem declare_eq (h : s.IsArena) (name : String) (span : Span) (body : Entity.Body) :
    declare s name span body = ofResult (s.declare name span body) := by
  unfold declare
  rw [named_eq h.symbolsHeld]
  cases hnamed : s.named? name with
  | none => rfl
  | some found =>
    unfold Scope.declare Scope.declareOrHalt
    rw [hnamed]
    rfl

def define (s : Scope) (x : Definition) : Guarded Scope :=
  match nameFault? x.name with
  | some malformation => .error (.fault (.invalid x.name x.span malformation))
  | none => do
    let body ← ofResult x.toBody
    declare s x.name x.span body

theorem define_eq (h : s.IsArena) (x : Definition) :
    define s x = ofResult (s.define x) := by
  unfold define Scope.define Scope.defineOrHalt
  cases nameFault? x.name with
  | some malformation => rfl
  | none =>
    dsimp only
    cases x.toBody with
    | error fault => rfl
    | ok body => exact declare_eq h x.name x.span body

/-- **Declaring trips no guard.** -/
theorem defineAll_eq (h : s.IsArena) (xs : List Definition) :
    xs.foldlM define s = ofResult (s.defineAll xs) := by
  induction xs generalizing s with
  | nil => rfl
  | cons x xs ih =>
    rw [List.foldlM_cons, Scope.defineAll, define_eq h]
    cases hok : s.define x with
    | error fault => rfl
    | ok next =>
      obtain ⟨-, body, -, hfree, -, rfl⟩ := (Scope.define_eq_ok h).mp hok
      exact ih (h.push hfree)

/-- **Compiling a document**, with every guard in its place. -/
def compile (d : Document) (name : String) : Guarded Compiled := do
  ofResult (d.headers.forM Header.check)
  let s ← d.definitions.foldlM define (Scope.empty name)
  let (s, warnings) ← link s
  return ⟨s, warnings⟩

theorem compile_eq (d : Document) (name : String) :
    compile d name = ofResult (d.compile name) := by
  refine bind_eq rfl fun _ _ => bind_eq (defineAll_eq (Scope.isArena_empty name) _) ?_
  intro s hs
  rw [link_eq (Scope.models_of_defineAll hs)
    fun _ _ => Scope.erase_entity_of_defineAll hs]
  cases s.link <;> rfl

theorem ofResult_ne_defect {α : Type} (x : Except CompileError α) (y : Defect) :
    ofResult x ≠ .error (.defect y) := by
  cases x <;> rintro ⟨⟩

end Guarded

/-- **Compiling has no defects**, whatever the document. With a guard at each place where
it relies on what it does not check, compiling gives the same result or the same fault, and
never an alarm; and all entities of a scope that it returns are resolved. -/
theorem Document.compile_without_defect (d : Document) (name : String) :
    Guarded.compile d name = Guarded.ofResult (d.compile name)
      ∧ (∀ x, Guarded.compile d name ≠ .error (.defect x))
      ∧ ∀ c, d.compile name = .ok c →
        ∀ id e, c.scope.entity? id = some e → e.resolved = true := by
  refine ⟨Guarded.compile_eq d name, fun x => ?_, fun c hc id e he => ?_⟩
  · rw [Guarded.compile_eq]
    exact Guarded.ofResult_ne_defect _ x
  · obtain ⟨-, s, hs, hlink⟩ := Document.compile_eq_ok.mp hc
    exact ((Scope.models_of_defineAll hs).stage_link hlink |>.each id e he).resolved

/-- A document with definitions of all kinds is compiled with all guards in place. -/
theorem Document.compile_without_defect_sample :
    Guarded.compile sample "sample" = .ok ⟨sampleScope, []⟩
      ∧ ∀ id e, sampleScope.entity? id = some e → e.resolved = true := by
  obtain ⟨hsame, -, hresolved⟩ := compile_without_defect sample "sample"
  refine ⟨?_, hresolved _ compile_sample⟩
  rw [hsame, compile_sample]
  rfl

-- A guard goes off where a scope is not as declaring leaves it: what is linked already
-- cannot be linked again.
example : Guarded.link ⟨"linked", [⟨"Color", ⟨1, 1⟩, true, .enum []⟩], [("Color", 0)]⟩
    = .error (.defect (.resolvedTwice 0)) := rfl

end Interlink
