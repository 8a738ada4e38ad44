import Interlink.Proofs.Acceptance
import Interlink.Proofs.Link.Unsettled

/-!
# Documents that are refused

A compilation that fails says something true of the document. The headers are
looked at first, and one that is refused is the first inclusion. Declaring stops
at the first definition that cannot be declared. Linking is a sequence of
sweeps, and a sweep that stops has got to a state where the scope still models
the document (`exists_of_sweep_eq_error`); there one step fails, and each step
that fails does so for a reason (`Scope.Stage.explains_bind`,
`Scope.Stage.explains_settle`).

Two results follow. A circle that is reported is a circle of the document
(`Document.circle_of_compile`). What is reported as unknown, repeated or
unsupported is so, and every fault has the place of something in the document
(`Document.faithful_of_compile`).
-/

namespace Interlink

variable {σ : Type} {step : σ → EntityId → Except CompileError σ}
  {base s : Scope} {d : Document} {fault : CompileError}

/-! ## Sweeps that stop -/

/-- **A sweep that stops**: all that is kept on the way holds where it stopped, and
there a step fails. -/
theorem exists_of_sweep_eq_error {kinds : Entity.Kind → Bool} {view : σ → Scope}
    {inv : σ → Prop} {known gained : Entity → Prop} {state : σ} {halt : Halt σ}
    {ids : List EntityId} (hstep : Keeps base d kinds view inv known gained step)
    (hids : ids ⊆ base.idsOf kinds) (hstage : base.Stage d known (view state))
    (hinv : inv state) (herr : sweep step state ids = .error halt) :
    base.Stage d known (view halt.left) ∧ inv halt.left
      ∧ ∃ id e, (view halt.left).entity? id = some e ∧ kinds e.kind = true
        ∧ step halt.left id = .error halt.error := by
  induction ids generalizing state with
  | nil => cases herr
  | cons id ids ih =>
    obtain ⟨hid, hids⟩ := List.cons_subset.mp hids
    obtain ⟨e, he, hkind⟩ := hstage.exists_of_mem_idsOf hid
    rw [sweep] at herr
    cases hnext : step state id with
    | error fault =>
      simp only [hnext] at herr
      cases herr
      exact ⟨hstage, hinv, id, e, he, hkind, hnext⟩
    | ok next =>
      simp only [hnext] at herr
      obtain ⟨hinv', b, hview, herase, hbound, hknown, -⟩ :=
        hstep state id e next hstage hinv he hkind hnext
      exact ih hids (hview ▸ hstage.setBody he herase hbound hknown) hinv' herr

namespace Scope

section Pass

variable {earlier kinds : Entity.Kind → Bool}

/-- **The first sweep of a pass stops** for a reason. -/
theorem Stage.explains_bind {halt : Halt Scope}
    (hnew : ∀ kind, kinds kind = true → earlier kind = false)
    (h : base.Stage d (Entity.DoneIf base d earlier) s)
    (herr : sweep bindStep s (base.idsOf kinds) = .error halt) :
    d.Explains halt.error := by
  obtain ⟨hstage, -, id, e, he, -, hfault⟩ := exists_of_sweep_eq_error
    (bindStep_keeps hnew) (List.Subset.refl _) h trivial herr
  exact hstage.models.explains_bindStep he hfault

/-- **The second sweep of a pass stops** for a reason, if each of its steps that
fails does. -/
theorem Stage.explains_settle {view : σ → Scope} {inv : σ → Prop} (state : σ)
    {halt : Halt σ} (hnew : ∀ kind, kinds kind = true → earlier kind = false)
    (hsettles : Keeps base d kinds view inv (Entity.BoundIf base d earlier kinds)
      (Entity.IsSettled d) step)
    (h : base.Stage d (Entity.DoneIf base d earlier) s)
    (hbind : sweep bindStep s (base.idsOf kinds) = .ok (view state))
    (hinv : inv state)
    (hfails : ∀ state id e fault,
      base.Stage d (Entity.BoundIf base d earlier kinds) (view state) →
      (view state).entity? id = some e → e.body.Bound (view state) →
      step state id = .error fault → d.Explains fault)
    (herr : sweep step state (base.idsOf kinds) = .error halt) :
    d.Explains halt.error := by
  obtain ⟨-, hbound⟩ := sweep_idsOf_sound (bindStep_keeps hnew) h trivial hbind
  obtain ⟨hstage, -, id, e, he, hkind, hfault⟩ := exists_of_sweep_eq_error hsettles
    (List.Subset.refl _) hbound hinv herr
  obtain ⟨hbody, -⟩ := (hstage.each id e he).2 hkind
  exact hfails halt.left id e halt.error hstage he (hbody.of_erase_eq hstage.same) hfault

end Pass

/-! ## Passes that stop -/

namespace Stage

variable {halt : Halt Scope}

theorem explains_linkConstants
    (h : base.Stage d (Entity.DoneIf base d fun _ => false) s)
    (herr : s.linkConstants = .error halt) : d.Explains halt.error := by
  unfold linkConstants at herr
  rw [idsOf_eq_of_erase_eq h.same] at herr
  rcases bind_eq_error.mp herr with hbind | ⟨bound, hbind, herr⟩
  · exact h.explains_bind (fun _ _ => rfl) hbind
  split at herr
  next halt' hsweep =>
    cases herr
    exact h.explains_settle (bound, []) (fun _ _ => rfl) constantStep_keeps hbind
      soundTable_nil (fun state id e fault hstage he _ hfault =>
        hstage.models.explains_constantStep hstage.constantsBound he hfault) hsweep
  next => exact absurd herr pure_ne_error

theorem explains_linkTypes (h : base.Stage d (Entity.DoneIf base d beforeTypes) s)
    (herr : s.linkTypes = .error halt) : d.Explains halt.error := by
  unfold linkTypes at herr
  rw [idsOf_eq_of_erase_eq h.same] at herr
  rcases bind_eq_error.mp herr with hbind | ⟨bound, hbind, herr⟩
  · exact h.explains_bind beforeTypes_eq_false hbind
  rcases bind_eq_error.mp herr with hsweep | ⟨state, -, herr⟩
  · exact h.explains_settle bound beforeTypes_eq_false
      (typeStep_keeps rfl beforeTypes_eq_false) hbind trivial
      (fun s id e fault hstage he hbound hfault =>
        hstage.models.explains_typeStep he hbound hfault) hsweep
  · exact absurd herr pure_ne_error

theorem explains_linkServices
    (h : base.Stage d (Entity.DoneIf base d beforeServices) s)
    (herr : s.linkServices = .error halt) : d.Explains halt.error := by
  unfold linkServices at herr
  rw [idsOf_eq_of_erase_eq h.same] at herr
  rcases bind_eq_error.mp herr with hbind | ⟨bound, hbind, herr⟩
  · exact h.explains_bind beforeServices_eq_false hbind
  split at herr
  next halt' hsweep =>
    cases herr
    exact h.explains_settle (bound, .empty) beforeServices_eq_false
      (serviceStep_keeps rfl beforeServices_eq_false) hbind endingTable_empty
      (fun state id e fault hstage he hbound hfault =>
        hstage.models.explains_serviceStep hstage.parentsBound he hbound hfault) hsweep
  next => exact absurd herr pure_ne_error

end Stage

/-- **Linking stops for a reason.** -/
theorem Models.explains_link (h : s.Models d) {halt : Halt Scope}
    (herr : s.link = .error halt) : d.Explains halt.error := by
  rcases bind_eq_error.mp herr with hconstants | ⟨s₁, hconstants, herr⟩
  · exact h.stage.explains_linkConstants hconstants
  have hstage₁ := h.stage.linkConstants_sound hconstants
  rcases bind_eq_error.mp herr with htypes | ⟨s₂, htypes, hservices⟩
  · exact hstage₁.explains_linkTypes htypes
  · exact (hstage₁.linkTypes_sound htypes).explains_linkServices hservices

end Scope

namespace Document

/-! ## Compilations that fail -/

variable {name : String}

/-- **A header that is refused** is the first inclusion. -/
theorem exists_firstInclusion (herr : d.headers.forM Header.check = .error fault) :
    ∃ path span, fault = .inclusion path span ∧ d.FirstInclusion path span := by
  obtain ⟨before, header, after, hheaders, hbefore, hfault⟩ :=
    exists_of_forM_eq_error herr
  cases header with
  | inclusion path span =>
    cases hfault
    exact ⟨path, span, rfl, before, after, hheaders,
      forM_check_eq_ok.mp (forM_eq_ok.mpr hbefore)⟩
  | naming => cases hfault

/-- **What makes compiling fail**: a header, a definition that cannot be
declared, or the scope that cannot be linked. -/
theorem compile_eq_error :
    d.compile name = .error fault ↔
      d.headers.forM Header.check = .error fault
        ∨ d.headers.forM Header.check = .ok ()
          ∧ ((Scope.empty name).defineAll d.definitions = .error fault
            ∨ ∃ s halt, (Scope.empty name).defineAll d.definitions = .ok s
              ∧ s.link = .error halt ∧ halt.error = fault) := by
  unfold compile
  rw [bind_eq_error]
  refine or_congr_right ?_
  constructor
  · rintro ⟨⟨⟩, hheaders, herr⟩
    refine ⟨hheaders, (bind_eq_error.mp herr).imp_right ?_⟩
    rintro ⟨s, hs, herr⟩
    split at herr
    next halt hlink => exact ⟨s, halt, hs, hlink, Except.error.inj herr⟩
    next => exact absurd herr pure_ne_error
  · rintro ⟨hheaders, herr⟩
    refine ⟨⟨⟩, hheaders, bind_eq_error.mpr (herr.imp_right ?_)⟩
    rintro ⟨s, halt, hs, hlink, rfl⟩
    exact ⟨s, hs, by rw [hlink]⟩

/-- **Every fault says something true of the document.** -/
theorem explains_of_compile (herr : d.compile name = .error fault) :
    d.Explains fault := by
  rcases compile_eq_error.mp herr with hheaders | ⟨-, hdefine | ⟨s, halt, hs, hlink, rfl⟩⟩
  · obtain ⟨path, span, rfl, hfirst⟩ := exists_firstInclusion hheaders
    exact hfirst
  · exact Scope.explains_defineAll (Scope.isArena_empty name) .nil rfl hdefine
  · exact (Scope.models_of_defineAll hs).explains_link hlink

/-- Once the headers have passed, no fault is an inclusion. -/
theorem check_eq_error_of_inclusion {path : String} {span : Span}
    (herr : d.compile name = .error (.inclusion path span)) :
    d.headers.forM Header.check = .error (.inclusion path span) := by
  rcases compile_eq_error.mp herr with hheaders | ⟨hheaders, -⟩
  · exact hheaders
  · -- the inclusion that a fault speaks of is among the headers
    obtain ⟨before, after, hfirst, -⟩ := explains_of_compile herr
    refine absurd ?_ (forM_check_eq_ok.mp hheaders path span)
    rw [hfirst]
    exact List.mem_append_right _ List.mem_cons_self

/-- **A circle that is reported is one.** The chain begins and ends with the
definition that is named, whose place is reported, and meets no name twice on
the way. Its names are constants, each of which mentions the next one in its
expression, or typedefs, each of which is directly another name for the next
one, or services, each of which extends the next one. -/
theorem circle_of_compile {symbol : String} {chain : List String} {span : Span}
    (herr : d.compile name = .error (.circular symbol chain span)) :
    (∃ x ∈ d.definitions, x.name = symbol)
      ∧ (∀ x ∈ d.definitions, x.name = symbol → x.span = span)
      ∧ (IsCircle d.ConstantMentions symbol chain
        ∨ IsCircle d.TypedefMentions symbol chain
        ∨ IsCircle d.Extends symbol chain) :=
  explains_of_compile herr

/-- **Two constants that mention each other**, the one in a list, and a third one
that comes first and leads to them. -/
def tangled : Document where
  headers := []
  definitions :=
    [⟨"START", ⟨1, 1⟩, .const (.primitive .i32) (.reference ⟨"LEFT", ⟨1, 19⟩⟩)⟩,
      ⟨"LEFT", ⟨2, 1⟩, .const (.list (.primitive .i32))
        (.list [.int 1, .reference ⟨"RIGHT", ⟨2, 28⟩⟩])⟩,
      ⟨"RIGHT", ⟨3, 1⟩, .const (.primitive .i32) (.reference ⟨"LEFT", ⟨3, 19⟩⟩)⟩]

section

open Evaluation

/-- The circle is found on the way from the third constant. -/
theorem compile_tangled : tangled.compile "tangled"
    = .error (.circular "LEFT" ["LEFT", "RIGHT", "LEFT"] ⟨2, 1⟩) := by
  simp [tangled]

end

/-- The circle does not go through the constant that leads to it. -/
theorem circle_tangled :
    (∃ x ∈ tangled.definitions, x.name = "LEFT")
      ∧ (∀ x ∈ tangled.definitions, x.name = "LEFT" → x.span = ⟨2, 1⟩)
      ∧ (IsCircle tangled.ConstantMentions "LEFT" ["LEFT", "RIGHT", "LEFT"]
        ∨ IsCircle tangled.TypedefMentions "LEFT" ["LEFT", "RIGHT", "LEFT"]
        ∨ IsCircle tangled.Extends "LEFT" ["LEFT", "RIGHT", "LEFT"]) :=
  circle_of_compile compile_tangled

/-- **What is reported is so.** A name that is reported as unknown is mentioned at
that place, and nothing is defined under it. What is reported as repeated is
there twice, at the places that are reported. An inclusion that is refused is
the first one, whatever the definitions are. And every fault is reported at a
place that something in the document stands at. -/
theorem faithful_of_compile (herr : d.compile name = .error fault) :
    (∀ symbol referrer span, fault = .unknown symbol referrer span →
      d.IsUnknown ⟨symbol, span⟩)
      ∧ (∀ symbol span first, fault = .duplicate symbol span first →
        d.Repeats symbol span first)
      ∧ (∀ path span, fault = .inclusion path span → d.FirstInclusion path span
        ∧ ∀ definitions, (Document.mk d.headers definitions).compile name = .error fault)
      ∧ d.HasSpan fault.span := by
  have hexplains := explains_of_compile herr
  refine ⟨?_, ?_, ?_, hexplains.hasSpan⟩
  · rintro symbol referrer span rfl
    exact hexplains
  · rintro symbol span first rfl
    exact hexplains
  · rintro path span rfl
    have hheaders := check_eq_error_of_inclusion herr
    exact ⟨hexplains, fun definitions => compile_eq_error.mpr (.inl hheaders)⟩

/-- **A misspelt item** of an enum, in a default of a parameter. -/
def misspelt : Document where
  headers := []
  definitions :=
    [⟨"Color", ⟨1, 1⟩, .enum [⟨"RED", none, ⟨1, 14⟩⟩]⟩,
      ⟨"Canvas", ⟨2, 1⟩, .service
        [⟨"fill", [⟨none, "color", .named ⟨"Color", ⟨3, 13⟩⟩, .unmarked,
            some (.reference ⟨"Color.REED", ⟨3, 27⟩⟩), ⟨3, 13⟩⟩],
          none, [], false, ⟨3, 3⟩⟩] none⟩]

section

open Evaluation

/-- The misspelt item is what is reported. -/
theorem compile_misspelt : misspelt.compile "misspelt"
    = .error (.unknown "Color.REED" "Canvas.fill.color" ⟨3, 27⟩) := by
  simp [misspelt]

end

/-- There is no such item, and it is mentioned where the fault says. -/
theorem faithful_misspelt :
    misspelt.IsUnknown ⟨"Color.REED", ⟨3, 27⟩⟩ ∧ misspelt.HasSpan ⟨3, 27⟩ := by
  obtain ⟨hunknown, -, -, hspan⟩ := faithful_of_compile compile_misspelt
  exact ⟨hunknown _ _ _ rfl, hspan⟩

end Document

end Interlink
