import Interlink.Proofs.Evaluation
import Interlink.Proofs.Link.Step
import Interlink.Proofs.Scope.Models

/-!
# The history of a scope

A scope is empty at first, and then it is asked for one thing after another: to
declare an entity, to look at a header, to declare a definition, to link
(`Scope.Act`). Each of these may fail, and the scope goes on with what is left
of it then.

What a handle stands for is settled when it is issued: a name, a place and a
kind, its **label** (`Entity.Label`). Whatever is done later, the handles that
were issued keep their labels, and only an act that declares something and
succeeds adds one. Linking does not change labels at all: a step of it leaves
the scope alone, or gives one entity a body of the kind that it had
(`Scope.Rewrites`), and a sweep that is broken off has done steps only
(`Leaves`). Declaring stops before it changes anything, if it stops at all. So
after any history the labels are those that were asked for, in order, and names and
handles agree (`Scope.arena_throughout`).
-/

namespace Interlink

/-! ## Labels -/

/-- **What a handle stands for**, as it was declared. -/
structure Entity.Label where
  /-- The name. -/
  name : String
  /-- Where the definition stands. -/
  span : Span
  /-- The kind of the body that was declared. -/
  kind : Entity.Kind
  deriving DecidableEq

/-- The label of an entity, the kind being that of the body that it has now. -/
def Entity.label (e : Entity) : Entity.Label := ⟨e.name, e.span, e.body.kind⟩

/-- What a definition defines, as a kind of entity. -/
def Definition.Body.kind : Definition.Body → Entity.Kind
  | .const .. => .constant
  | .typedef _ => .typedef
  | .enum _ => .enum
  | .struct kind _ => .struct kind
  | .service .. => .service

theorem Definition.kind_toBody {x : Definition} {b : Entity.Body}
    (hok : x.toBody = .ok b) : b.kind = x.body.kind := by
  unfold toBody at hok
  cases hbody : x.body with
  | const type value =>
    simp only [hbody, Except.ok.injEq] at hok
    rw [← hok]
    rfl
  | typedef target =>
    simp only [hbody, Except.ok.injEq] at hok
    rw [← hok]
    rfl
  | enum items =>
    simp only [hbody, map_eq_ok] at hok
    obtain ⟨numbered, -, rfl⟩ := hok
    rfl
  | struct kind fields =>
    simp only [hbody, map_eq_ok] at hok
    obtain ⟨numbered, -, rfl⟩ := hok
    rfl
  | service functions parent =>
    simp only [hbody, bind_eq_ok, pure_eq_ok] at hok
    obtain ⟨numbered, -, rfl⟩ := hok
    rfl

namespace Scope

/-- The labels of all handles, in their order. -/
def labels (s : Scope) : List Entity.Label := s.entities.map Entity.label

/-! ## Histories -/

/-- **What a scope may be asked for.** -/
inductive Act where
  /-- Declare an entity, whatever its body. -/
  | declare (name : String) (span : Span) (body : Entity.Body)
  /-- Check a header. -/
  | header (h : Header)
  /-- Declare a definition. -/
  | define (x : Definition)
  /-- Link. -/
  | link

/-- How work on a scope ends: with the fault that it stopped at, if it did, and with
the scope that it left behind. -/
def ending : Except (Halt Scope) Scope → Option CompileError × Scope
  | .ok s => (none, s)
  | .error halt => (some halt.error, halt.left)

/-- **What comes of an act**: the fault that it ends with, if it fails, and the
scope that it leaves behind. -/
def perform (s : Scope) : Act → Option CompileError × Scope
  | .declare name span body => ending (s.declareOrHalt name span body)
  | .header h =>
    match h.check with
    | .ok () => (none, s)
    | .error fault => (some fault, s)
  | .define x => ending (s.defineOrHalt x)
  | .link => ending (Prod.fst <$> s.link)

/-- **The scope after a history**, whichever of its acts failed. -/
def run (s : Scope) (acts : List Act) : Scope :=
  acts.foldl (fun s act => (s.perform act).2) s

/-- The label of what an act is to declare. -/
def Act.label? : Act → Option Entity.Label
  | .declare name span body => some ⟨name, span, body.kind⟩
  | .define x => some ⟨x.name, x.span, x.body.kind⟩
  | _ => none

/-- **The labels that a history issues**: those of the acts that declare
something and succeed. -/
def issued (s : Scope) : List Act → List Entity.Label
  | [] => []
  | act :: acts =>
    (if (s.perform act).1.isNone then act.label?.toList else [])
      ++ issued (s.perform act).2 acts

variable {s s' : Scope} {id : EntityId} {e : Entity}

/-! ## Steps of linking -/

/-- **The names and the labels of a scope**, all that there is to its handles. -/
def outline (s : Scope) : List (String × EntityId) × List Entity.Label :=
  (s.symbols, s.labels)

/-- **What a step of linking does to a scope**: nothing, or it gives one entity
another body of the same kind. -/
def Rewrites (s : Scope) (id : EntityId) (s' : Scope) : Prop :=
  s' = s ∨ ∃ e b, s.entity? id = some e ∧ b.kind = e.body.kind
    ∧ s' = s.setBody id b

/-- A body of the same kind leaves the labels as they are. -/
theorem outline_setBody (he : s.entity? id = some e) {b : Entity.Body}
    (hkind : b.kind = e.body.kind) : (s.setBody id b).outline = s.outline := by
  have hlabels : (s.setBody id b).labels = s.labels := by
    refine List.ext_getElem? fun j => ?_
    have hj := entity?_setBody s id b j
    unfold entity? at hj he
    unfold labels
    rw [List.getElem?_map, List.getElem?_map, hj]
    by_cases hij : id = j
    · subst hij
      rw [if_pos rfl, he]
      exact congrArg (fun kind => some (Entity.Label.mk e.name e.span kind)) hkind
    · rw [if_neg hij]
  exact congrArg (Prod.mk s.symbols) hlabels

theorem outline_resolveAll (s : Scope) (ids : List EntityId) :
    (s.resolveAll ids).outline = s.outline := by
  have hresolve : ∀ (s : Scope) id, (s.resolve id).outline = s.outline := by
    intro s id
    refine congrArg (Prod.mk s.symbols) (List.ext_getElem? fun j => ?_)
    have hj := entity?_resolve s id j
    unfold entity? at hj
    unfold labels
    rw [List.getElem?_map, List.getElem?_map, hj]
    split
    · cases s.entities[j]? <;> rfl
    · rfl
  induction ids generalizing s with
  | nil => rfl
  | cons id ids ih => exact (ih (s.resolve id)).trans (hresolve s id)

theorem Rewrites.outline_eq (h : s.Rewrites id s') : s'.outline = s.outline := by
  rcases h with rfl | ⟨e, b, he, hkind, rfl⟩
  · rfl
  · exact outline_setBody he hkind

theorem rewrites_bindStep (hok : s.bindStep id = .ok s') : s.Rewrites id s' := by
  unfold bindStep at hok
  cases he : s.entity? id with
  | none =>
    rw [he] at hok
    exact .inl (Except.ok.inj hok).symm
  | some e =>
    simp only [he] at hok
    cases hbody : e.body with
    | const type init value =>
      simp only [hbody, bind_eq_ok, pure_eq_ok] at hok
      obtain ⟨type', -, init', -, rfl⟩ := hok
      exact .inr ⟨e, _, he, by rw [hbody]; rfl, rfl⟩
    | typedef target =>
      simp only [hbody, bind_eq_ok, pure_eq_ok] at hok
      obtain ⟨target', -, rfl⟩ := hok
      exact .inr ⟨e, _, he, by rw [hbody]; rfl, rfl⟩
    | enum items =>
      simp only [hbody] at hok
      exact .inl (Except.ok.inj hok).symm
    | struct kind fields =>
      simp only [hbody, bind_eq_ok, pure_eq_ok] at hok
      obtain ⟨fields', -, rfl⟩ := hok
      exact .inr ⟨e, _, he, by rw [hbody]; rfl, rfl⟩
    | service functions parent methods =>
      simp only [hbody, bind_eq_ok, pure_eq_ok] at hok
      obtain ⟨parent', -, functions', -, rfl⟩ := hok
      exact .inr ⟨e, _, he, by rw [hbody]; rfl, rfl⟩

theorem rewrites_constantStep {state state' : Scope × ValueTable}
    (hok : constantStep state id = .ok state') : state.1.Rewrites id state'.1 := by
  cases he : state.1.entity? id with
  | none =>
    simp only [constantStep, he] at hok
    exact .inl (congrArg Prod.fst (Except.ok.inj hok)).symm
  | some e =>
    cases hbody : e.body with
    | const type init stored =>
      obtain ⟨v, -, heq⟩ := (constantStep_eq_ok he hbody).mp hok
      exact .inr ⟨e, _, he, by rw [hbody]; rfl, heq⟩
    | _ =>
      simp only [constantStep, he, hbody] at hok
      exact .inl (congrArg Prod.fst (Except.ok.inj hok)).symm

theorem rewrites_typeStep (hok : s.typeStep id = .ok s') : s.Rewrites id s' := by
  cases he : s.entity? id with
  | none =>
    simp only [typeStep, he] at hok
    exact .inl (Except.ok.inj hok).symm
  | some e =>
    cases hbody : e.body with
    | typedef target => exact .inl ((typeStep_typedef_eq_ok he hbody).mp hok).2
    | struct kind fields =>
      obtain ⟨-, -, valued, -, rfl⟩ := (typeStep_struct_eq_ok he hbody).mp hok
      exact .inr ⟨e, _, he, by rw [hbody]; rfl, rfl⟩
    | _ =>
      simp only [typeStep, he, hbody] at hok
      exact .inl (Except.ok.inj hok).symm

theorem rewrites_serviceStep {state state' : Scope × MethodTable}
    (hok : serviceStep state id = .ok state') : state.1.Rewrites id state'.1 := by
  cases he : state.1.entity? id with
  | none =>
    simp only [serviceStep, he] at hok
    exact .inl (congrArg Prod.fst (Except.ok.inj hok)).symm
  | some e =>
    cases hbody : e.body with
    | service functions parent stored =>
      obtain ⟨-, valued, methods, -, -, heq⟩ := (serviceStep_eq_ok he hbody).mp hok
      exact .inr ⟨e, _, he, by rw [hbody]; rfl, heq⟩
    | _ =>
      simp only [serviceStep, he, hbody] at hok
      exact .inl (congrArg Prod.fst (Except.ok.inj hok)).symm

/-! ## Linking, to its end or not -/

/-- **What is left behind has a property**, whether a computation came to its
end or stopped. -/
def Leaves {σ α : Type} (P : σ → Prop) (view : α → σ) : Except (Halt σ) α → Prop
  | .ok a => P (view a)
  | .error halt => P halt.left

theorem Leaves.bind {σ α β : Type} {P : σ → Prop} {view : α → σ} {view' : β → σ}
    {x : Except (Halt σ) α} {f : α → Except (Halt σ) β} (hx : Leaves P view x)
    (hf : ∀ a, P (view a) → Leaves P view' (f a)) : Leaves P view' (x >>= f) := by
  cases x with
  | ok a => exact hf a hx
  | error halt => exact hx

/-- What each step of a sweep keeps, the sweep leaves behind. -/
theorem leaves_sweep {σ : Type} {step : σ → EntityId → Except CompileError σ}
    {P : σ → Prop}
    (hstep : ∀ state id state', P state → step state id = .ok state' → P state')
    {state : σ} (h : P state) (ids : List EntityId) :
    Leaves P (fun s => s) (sweep step state ids) := by
  induction ids generalizing state with
  | nil => exact h
  | cons id ids ih =>
    rw [sweep]
    cases hok : step state id with
    | ok next => exact ih (hstep state id next h hok)
    | error fault => exact h

/-- The first sweep of a pass leaves the labels as they are. -/
theorem leaves_sweep_bindStep (s : Scope) (ids : List EntityId) :
    Leaves (fun s' => s'.outline = s.outline) (fun s' => s')
      (sweep bindStep s ids) :=
  leaves_sweep (fun _ _ _ h hok => (rewrites_bindStep hok).outline_eq.trans h) rfl ids

theorem leaves_linkConstants (s : Scope) :
    Leaves (fun s' => s'.outline = s.outline) (fun s' => s') s.linkConstants := by
  refine (leaves_sweep_bindStep s _).bind fun bound hbound => ?_
  have hsweep : Leaves (fun state => state.1.outline = s.outline) (fun state => state)
      (sweep constantStep (bound, []) _) :=
    leaves_sweep (fun _ _ _ h hok => (rewrites_constantStep hok).outline_eq.trans h)
      hbound (s.idsOf fun kind => kind == .constant)
  split
  next halt herr =>
    rw [herr] at hsweep
    exact hsweep
  next s' table hok =>
    rw [hok] at hsweep
    exact (outline_resolveAll s' _).trans hsweep

theorem leaves_linkTypes (s : Scope) :
    Leaves (fun s' => s'.outline = s.outline) (fun s' => s') s.linkTypes := by
  refine (leaves_sweep_bindStep s _).bind fun bound hbound => ?_
  refine (leaves_sweep (fun _ _ _ h hok => (rewrites_typeStep hok).outline_eq.trans h)
    hbound _).bind fun settled hsettled => ?_
  exact (outline_resolveAll settled _).trans hsettled

theorem leaves_linkServices (s : Scope) :
    Leaves (fun s' => s'.outline = s.outline) Prod.fst s.linkServices := by
  refine (leaves_sweep_bindStep s _).bind fun bound hbound => ?_
  have hsweep : Leaves (fun state => state.1.outline = s.outline) (fun state => state)
      (sweep serviceStep (bound, .empty) _) :=
    leaves_sweep (fun _ _ _ h hok => (rewrites_serviceStep hok).outline_eq.trans h)
      hbound (s.idsOf fun kind => kind == .service)
  split
  next halt herr =>
    rw [herr] at hsweep
    exact hsweep
  next s' table hok =>
    rw [hok] at hsweep
    exact (outline_resolveAll s' _).trans hsweep

/-- **Linking leaves the labels as they are**, whether it comes to its end or
not, and whatever the bodies were. -/
theorem leaves_link (s : Scope) :
    Leaves (fun s' => s'.outline = s.outline) Prod.fst s.link := by
  refine s.leaves_linkConstants.bind fun s₁ h₁ => ?_
  rw [← h₁]
  refine s₁.leaves_linkTypes.bind fun s₂ h₂ => ?_
  rw [← h₂]
  exact s₂.leaves_linkServices

/-! ## Acts -/

/-- Whether names and handles agree is a matter of names and labels. -/
theorem IsArena.of_outline_eq (h : s.IsArena) (heq : s'.outline = s.outline) :
    s'.IsArena := by
  obtain ⟨hsymbols, hlabels⟩ := Prod.mk.inj heq
  have hnames : s'.entities.map Entity.name = s.entities.map Entity.name := by
    have hmap := congrArg (List.map Entity.Label.name) hlabels
    rw [labels, labels, List.map_map, List.map_map] at hmap
    exact hmap
  have htable : ∀ s : Scope, (s.entities.mapIdx fun i e => (e.name, i))
      = (s.entities.map Entity.name).mapIdx fun i name => (name, i) := by
    intro s
    refine List.ext_getElem? fun i => ?_
    simp only [List.getElem?_mapIdx, List.getElem?_map, Option.map_map]
    rfl
  refine ⟨?_, hnames ▸ h.distinct⟩
  rw [hsymbols, h.symbols, htable s, htable s', hnames]

/-- **What an act may do to a scope.** It declares something, and one entity is
added with the label that was asked for; or nothing is changed, because it failed
or because it was not to declare anything; or it links, and changes no label. -/
inductive Effect (s : Scope) : Act → Option CompileError × Scope → Prop
  | added {act : Act} {e : Entity} (label : act.label? = some e.label)
      (fresh : e.resolved = false) (free : e.name ∉ s.entities.map Entity.name) :
      Effect s act (none, s.push e)
  | kept {act : Act} {fault : Option CompileError}
      (idle : fault = none → act.label? = none) : Effect s act (fault, s)
  | linked {fault : Option CompileError} {s' : Scope}
      (same : s'.outline = s.outline) : Effect s .link (fault, s')

/-- **Declaring stops before it changes anything.** -/
theorem left_of_declareOrHalt {name : String} {span : Span} {body : Entity.Body}
    {halt : Halt Scope} (herr : s.declareOrHalt name span body = .error halt) :
    halt.left = s := by
  unfold declareOrHalt at herr
  split at herr
  next =>
    cases herr
    rfl
  next =>
    split at herr
    next => cases herr
    next =>
      cases herr
      rfl

theorem left_of_defineOrHalt {x : Definition} {halt : Halt Scope}
    (herr : s.defineOrHalt x = .error halt) : halt.left = s := by
  unfold defineOrHalt at herr
  split at herr
  next =>
    cases herr
    rfl
  next =>
    split at herr
    next =>
      cases herr
      rfl
    next => exact left_of_declareOrHalt herr

/-- **Every act has one of these effects.** -/
theorem IsArena.effect (h : s.IsArena) (act : Act) : s.Effect act (s.perform act) := by
  cases act with
  | declare name span body =>
    rw [perform]
    cases hok : s.declareOrHalt name span body with
    | ok s' =>
      obtain ⟨hfree, -, rfl⟩ := (declareOrHalt_eq_ok h).mp hok
      exact .added rfl rfl hfree
    | error halt =>
      rw [ending, left_of_declareOrHalt hok]
      exact .kept (by simp)
  | header header =>
    rw [perform]
    cases header.check <;> exact .kept fun _ => rfl
  | define x =>
    rw [perform]
    cases hok : s.defineOrHalt x with
    | ok s' =>
      obtain ⟨-, body, hbody, hfree, -, rfl⟩ := (defineOrHalt_eq_ok h).mp hok
      have hlabel := congrArg (Entity.Label.mk x.name x.span) (Definition.kind_toBody hbody)
      exact .added (congrArg some hlabel.symm) rfl hfree
    | error halt =>
      rw [ending, left_of_defineOrHalt hok]
      exact .kept (by simp)
  | link =>
    have hleaves := s.leaves_link
    rw [perform]
    generalize s.link = outcome at hleaves
    cases outcome <;> exact .linked hleaves

/-- **An act keeps names and handles in agreement**, and adds the label that it
issues. -/
theorem IsArena.perform (h : s.IsArena) (act : Act) :
    (s.perform act).2.IsArena
      ∧ (s.perform act).2.labels = s.labels
        ++ if (s.perform act).1.isNone then act.label?.toList else [] := by
  have heffect := h.effect act
  generalize s.perform act = outcome at heffect
  cases heffect with
  | added hlabel _ hfree =>
    rw [hlabel]
    exact ⟨h.push hfree, List.map_append⟩
  | @kept _ fault hidle =>
    refine ⟨h, ?_⟩
    cases fault with
    | none => rw [hidle rfl]; simp
    | some fault => simp
  | linked hsame =>
    refine ⟨h.of_outline_eq hsame, (Prod.mk.inj hsame).2.trans ?_⟩
    simp [Act.label?]

/-- **After any history** names and handles agree, and the labels are those
from before and those that the history issued. -/
theorem IsArena.run (h : s.IsArena) (acts : List Act) :
    (s.run acts).IsArena ∧ (s.run acts).labels = s.labels ++ s.issued acts := by
  induction acts generalizing s with
  | nil => exact ⟨h, (List.append_nil _).symm⟩
  | cons act acts ih =>
    obtain ⟨harena, hlabels⟩ := h.perform act
    obtain ⟨harena', hlabels'⟩ := ih harena
    refine ⟨harena', hlabels'.trans ?_⟩
    rw [hlabels, List.append_assoc, issued]

/-- A handle that was issued keeps its label. -/
theorem IsArena.exists_entity?_run (h : s.IsArena) (acts : List Act)
    (he : s.entity? id = some e) :
    ∃ e', (s.run acts).entity? id = some e' ∧ e'.label = e.label := by
  have hlabel : (s.run acts).labels[id]? = some e.label := by
    have hlabels : s.labels[id]? = some e.label := by
      rw [labels, List.getElem?_map, show s.entities[id]? = some e from he, Option.map_some]
    rw [(h.run acts).2]
    exact List.getElem?_append_left (List.getElem?_eq_some_iff.mp hlabels).1 ▸ hlabels
  rw [labels, List.getElem?_map] at hlabel
  exact Option.map_eq_some_iff.mp hlabel

/-! ## At all times -/

/-- **A scope is in order at all times.** After any history, whichever of its acts
failed, there are as many symbols as entities, the symbol of a handle is the name
of its entity, and no name is there twice. The labels, with the kinds of the bodies
as they are now, are those that were asked for when the handles were issued, and
every handle keeps its label whatever is done next. Apart from linking, an act that
fails or is not to declare anything changes nothing; one that declares something and
succeeds adds one entity and one symbol, at the end. -/
theorem arena_throughout (name : String) (acts : List Act) :
    let s := (empty name).run acts
    (s.symbols.length = s.entities.length
        ∧ (∀ id e, s.entity? id = some e → s.symbols[id]? = some (e.name, id))
        ∧ (s.entities.map Entity.name).Nodup)
      ∧ s.labels = (empty name).issued acts
      ∧ (∀ more id e, s.entity? id = some e →
        ∃ e', (s.run more).entity? id = some e' ∧ e'.label = e.label)
      ∧ ∀ act, act ≠ .link →
        ((s.perform act).1 ≠ none ∨ act.label? = none → (s.perform act).2 = s)
          ∧ ∀ label, act.label? = some label → (s.perform act).1 = none →
            ∃ e, e.label = label ∧ e.resolved = false
              ∧ (s.perform act).2.entities = s.entities ++ [e]
              ∧ (s.perform act).2.symbols
                = s.symbols ++ [(label.name, s.entities.length)] := by
  intro s
  obtain ⟨harena, hlabels⟩ := (isArena_empty name).run acts
  refine ⟨⟨?_, fun id e he => ?_, harena.distinct⟩, hlabels, fun more id e he => ?_,
    fun act hact => ?_⟩
  · rw [harena.symbols, List.length_mapIdx]
  · rw [harena.symbols, List.getElem?_mapIdx, show s.entities[id]? = some e from he,
      Option.map_some]
  · exact harena.exists_entity?_run more he
  · have heffect := harena.effect act
    generalize s.perform act = outcome at heffect
    cases heffect with
    | @added _ e hlabel hfresh _ =>
      refine ⟨fun hidle => ?_, fun label hlabel' _ => ?_⟩
      · rcases hidle with hfault | hnone
        · exact absurd rfl hfault
        · cases hlabel.symm.trans hnone
      · obtain rfl : e.label = label := Option.some.inj (hlabel.symm.trans hlabel')
        exact ⟨e, rfl, hfresh, rfl, rfl⟩
    | kept hidle =>
      refine ⟨fun _ => rfl, fun label hlabel hok => ?_⟩
      rw [hidle hok] at hlabel
      cases hlabel
    | linked => exact absurd rfl hact

/-- A history with a name that is taken, another document that is asked for, and a
typedef of itself that cannot be linked. -/
def tripped : List Act :=
  [.declare "Loop" ⟨1, 1⟩ (.typedef (.named ⟨"Loop", ⟨1, 9⟩, none⟩)),
    .declare "Loop" ⟨2, 1⟩ (.enum []), .header (.inclusion "other" ⟨3, 1⟩), .link,
    .define ⟨"Color", ⟨4, 1⟩, .enum []⟩]

/-- What is there after it. -/
def trippedScope : Scope where
  name := "tripped"
  entities :=
    [⟨"Loop", ⟨1, 1⟩, false, .typedef (.named ⟨"Loop", ⟨1, 9⟩, some 0⟩)⟩,
      ⟨"Color", ⟨4, 1⟩, false, .enum []⟩]
  symbols := [("Loop", 0), ("Color", 1)]

section

open Evaluation

theorem run_tripped : (empty "tripped").run tripped = trippedScope := by
  simp [tripped, trippedScope, run, perform, ending]

end

/-- Two of the five acts issued a handle, and the first one is still that of a
typedef, though it has another body. -/
theorem arena_tripped : (empty "tripped").run tripped = trippedScope
    ∧ (empty "tripped").issued tripped
      = [⟨"Loop", ⟨1, 1⟩, .typedef⟩, ⟨"Color", ⟨4, 1⟩, .enum⟩] := by
  refine ⟨run_tripped, ?_⟩
  rw [← (arena_throughout "tripped" tripped).2.1, run_tripped]
  rfl

end Scope

end Interlink
