import Interlink.Proofs.Link.Bind
import Interlink.Proofs.Scope.Circle

/-!
# References that cannot be bound

Binding an entity fails at one of its references: the name is not defined, or
stands for something else. Or it fails at a declared exception, whose type is
followed and turns out to be none. All of it is reported truly
(`Scope.Models.explains_bindStep`).

The fields of an entity are those of a definition, list by list
(`Entity.OwnsFields`). So they stand at places of the document, and their types
and defaults mention what the document mentions (`Entity.Field.IsFrom`).
-/

namespace Interlink

/-! ## References and mentions -/

theorem Reference.map_mention_erase {τ : Type} (refs : List (Reference τ)) :
    (refs.map Reference.erase).map Reference.mention
      = refs.map Reference.mention := by
  rw [List.map_map]
  rfl

theorem Ty.map_mention_of_erase_eq {ty ty' : Ty} (h : ty'.erase = ty.erase) :
    ty'.references.map Reference.mention = ty.references.map Reference.mention := by
  rw [← Reference.map_mention_erase, ← Ty.references_erase, h, Ty.references_erase,
    Reference.map_mention_erase]

/-! ## The fields of an entity -/

/-- **The lists of fields in an entity**, with the name that a fault has for
their owner. -/
inductive Entity.OwnsFields (e : Entity) : String → List Entity.Field → Prop
  | struct {kind : StructKind} {fields : List Entity.Field}
      (body : e.body = .struct kind fields) : OwnsFields e e.name fields
  | parameters {functions : List Entity.Function}
      {parent : Option (Reference EntityId)} {methods : List Entity.Method}
      {f : Entity.Function} (body : e.body = .service functions parent methods)
      (function : f ∈ functions) :
      OwnsFields e (qualified e.name f.name) f.parameters
  | exceptions {functions : List Entity.Function}
      {parent : Option (Reference EntityId)} {methods : List Entity.Method}
      {f : Entity.Function} (body : e.body = .service functions parent methods)
      (function : f ∈ functions) :
      OwnsFields e (qualified e.name f.name) f.exceptions

/-- **A field comes from a document**: it stands somewhere in it, its type comes
from it, and so do the constants in its default. -/
structure Entity.Field.IsFrom (s : Scope) (d : Document) (g : Entity.Field) :
    Prop where
  /-- The place. -/
  place : d.HasSpan g.span
  /-- The type. -/
  type : s.Cites d g.type
  /-- The constants in the default. -/
  default : ∀ r ∈ g.defaultReferences, d.MentionsConstant r.mention

/-- The functions of a service are those of its definition. -/
theorem Definition.DeclaredAs.exists_functions {x : Definition} {e : Entity}
    (h : x.DeclaredAs e) {functions : List Entity.Function}
    {parent : Option (Reference EntityId)} {methods : List Entity.Method}
    (hbody : e.body = .service functions parent methods) :
    ∃ declared extended, x.body = .service declared extended
      ∧ List.Forall₂ FunctionDecl.DeclaredAs declared functions := by
  have hdeclared := h.body
  rw [hbody] at hdeclared
  generalize x.body = body at hdeclared
  cases hdeclared with | service hfunctions _ =>
  exact ⟨_, _, rfl, hfunctions⟩

namespace Entity.OwnsFields

variable {e : Entity} {owner : String} {fields : List Entity.Field}

/-- **The fields of an entity are those of its definition.** -/
theorem exists_declared (h : e.OwnsFields owner fields) {x : Definition}
    (hx : x.DeclaredAs e) :
    ∃ declared, x.OwnsFields owner declared
      ∧ Field.AllDeclaredAs declared fields := by
  cases h with
  | struct hbody =>
    have hdeclared := hx.body
    rw [hbody] at hdeclared
    rw [hx.name]
    generalize hxbody : x.body = body at hdeclared
    cases hdeclared with | struct hfields =>
    exact ⟨_, .struct hxbody, hfields⟩
  | parameters hbody hf =>
    obtain ⟨functions, parent, hxbody, hfunctions⟩ := hx.exists_functions hbody
    obtain ⟨f', hf', hdeclared⟩ := exists_left_of_forall₂ hfunctions hf
    rw [hx.name, hdeclared.name]
    exact ⟨_, .parameters hxbody hf', hdeclared.parameters⟩
  | exceptions hbody hf =>
    obtain ⟨functions, parent, hxbody, hfunctions⟩ := hx.exists_functions hbody
    obtain ⟨f', hf', hdeclared⟩ := exists_left_of_forall₂ hfunctions hf
    rw [hx.name, hdeclared.name]
    exact ⟨_, .exceptions hxbody hf', hdeclared.exceptions⟩

theorem type_subset (h : e.OwnsFields owner fields) {g : Entity.Field}
    (hg : g ∈ fields) : g.type.references ⊆ e.body.typeReferences := by
  intro r hr
  have hfields : r ∈ fields.flatMap fun g => g.type.references :=
    List.mem_flatMap.mpr ⟨g, hg, hr⟩
  cases h with
  | struct hbody =>
    rw [hbody]
    exact hfields
  | parameters hbody hf =>
    rw [hbody]
    exact List.mem_flatMap.mpr ⟨_, hf, List.mem_append_left _
      (List.mem_append_left _ hfields)⟩
  | exceptions hbody hf =>
    rw [hbody]
    exact List.mem_flatMap.mpr ⟨_, hf, List.mem_append_right _ hfields⟩

theorem default_subset (h : e.OwnsFields owner fields) {g : Entity.Field}
    (hg : g ∈ fields) : g.defaultReferences ⊆ e.body.constReferences := by
  intro r hr
  have hfields : r ∈ fields.flatMap Entity.Field.defaultReferences :=
    List.mem_flatMap.mpr ⟨g, hg, hr⟩
  cases h with
  | struct hbody =>
    rw [hbody]
    exact hfields
  | parameters hbody hf =>
    rw [hbody]
    exact List.mem_flatMap.mpr ⟨_, hf, List.mem_append_left _ hfields⟩
  | exceptions hbody hf =>
    rw [hbody]
    exact List.mem_flatMap.mpr ⟨_, hf, List.mem_append_right _ hfields⟩

end Entity.OwnsFields

/-- **The fields of an entity come from the document.** -/
theorem Scope.Models.field_isFrom {s : Scope} {d : Document} {id : EntityId}
    {e : Entity} (h : s.Models d) (he : s.entity? id = some e) {owner : String}
    {fields : List Entity.Field} (howns : e.OwnsFields owner fields)
    {g : Entity.Field} (hg : g ∈ fields) : g.IsFrom s d where
  place := by
    obtain ⟨x, hx, hdeclared⟩ := h.exists_definition he
    obtain ⟨declared, howns', hfields⟩ := howns.exists_declared hdeclared
    obtain ⟨f, hf, hfg⟩ := exists_left_of_forall₂ hfields.each hg
    exact hfg.span ▸ .field hx howns' hf
  type := h.cites he (howns.type_subset hg)
  default r hr := h.mentionsConstant he (howns.default_subset hg hr)

/-! ## Where binding fails -/

section Errors

variable {s : Scope} {referrer owner service : String} {fault : CompileError}

/-- Binding a type fails at one of its references. -/
theorem Ty.exists_of_bind_eq_error {ty : Ty} (herr : ty.bind s referrer = .error fault) :
    ∃ r ∈ ty.references, bind s referrer (.named r) = .error fault := by
  induction ty with
  | primitive p => cases herr
  | list element ih => exact ih (map_eq_error.mp herr)
  | set element ih => exact ih (map_eq_error.mp herr)
  | map key value ihk ihv =>
    rcases bind_eq_error.mp herr with hkey | ⟨key', -, herr⟩
    · obtain ⟨r, hr, hfault⟩ := ihk hkey
      exact ⟨r, List.mem_append_left _ hr, hfault⟩
    · rcases bind_eq_error.mp herr with hvalue | ⟨value', -, herr⟩
      · obtain ⟨r, hr, hfault⟩ := ihv hvalue
        exact ⟨r, List.mem_append_right _ hr, hfault⟩
      · exact absurd herr pure_ne_error
  | named r => exact ⟨r, List.mem_singleton_self r, herr⟩

namespace Init

mutual

/-- Binding an expression fails at one of its references. -/
theorem exists_of_bind_eq_error {init : Init} (herr : init.bind s referrer = .error fault) :
    ∃ r ∈ init.references, s.constTarget referrer r = .error fault := by
  cases init with
  | list items => exact exists_of_bindItems_eq_error (map_eq_error.mp herr)
  | map entries => exact exists_of_bindEntries_eq_error (map_eq_error.mp herr)
  | reference r =>
    refine ⟨r, List.mem_singleton_self r, ?_⟩
    unfold bind at herr
    split at herr
    next fault' hfault =>
      cases herr
      exact hfault
    next => cases herr
  | _ => cases herr

theorem exists_of_bindItems_eq_error {items : List Init}
    (herr : bindItems s referrer items = .error fault) :
    ∃ r ∈ itemReferences items, s.constTarget referrer r = .error fault := by
  cases items with
  | nil => cases herr
  | cons item items =>
    rcases bind_eq_error.mp herr with hitem | ⟨item', -, herr⟩
    · obtain ⟨r, hr, hfault⟩ := exists_of_bind_eq_error hitem
      exact ⟨r, List.mem_append_left _ hr, hfault⟩
    · rcases bind_eq_error.mp herr with hitems | ⟨items', -, herr⟩
      · obtain ⟨r, hr, hfault⟩ := exists_of_bindItems_eq_error hitems
        exact ⟨r, List.mem_append_right _ hr, hfault⟩
      · exact absurd herr pure_ne_error

theorem exists_of_bindEntries_eq_error {entries : List (Init × Init)}
    (herr : bindEntries s referrer entries = .error fault) :
    ∃ r ∈ entryReferences entries, s.constTarget referrer r = .error fault := by
  cases entries with
  | nil => cases herr
  | cons entry entries =>
    obtain ⟨key, value⟩ := entry
    rcases bind_eq_error.mp herr with hkey | ⟨key', -, herr⟩
    · obtain ⟨r, hr, hfault⟩ := exists_of_bind_eq_error hkey
      exact ⟨r, List.mem_append_left _ (List.mem_append_left _ hr), hfault⟩
    · rcases bind_eq_error.mp herr with hvalue | ⟨value', -, herr⟩
      · obtain ⟨r, hr, hfault⟩ := exists_of_bind_eq_error hvalue
        exact ⟨r, List.mem_append_left _ (List.mem_append_right _ hr), hfault⟩
      · rcases bind_eq_error.mp herr with hentries | ⟨entries', -, herr⟩
        · obtain ⟨r, hr, hfault⟩ := exists_of_bindEntries_eq_error hentries
          exact ⟨r, List.mem_append_right _ hr, hfault⟩
        · exact absurd herr pure_ne_error

end

end Init

end Errors

/-! ## Why binding fails -/

namespace Scope.Models

variable {s : Scope} {d : Document} {id : EntityId} {e : Entity}
  {referrer owner service : String} {fault : CompileError}

/-- **A type is not bound**: its name is not defined, or stands for no type. -/
theorem explains_named (h : s.Models d) {r : Reference EntityId}
    (hm : d.MentionsType r.mention)
    (herr : Ty.bind s referrer (.named r) = .error fault) : d.Explains fault := by
  unfold Ty.bind lookup at herr
  cases hnamed : s.named? r.name with
  | none =>
    rw [hnamed] at herr
    cases herr
    exact ⟨h.undefined hnamed, .inl hm⟩
  | some found =>
    rw [hnamed] at herr
    dsimp only at herr
    split at herr
    next => cases herr
    next =>
      cases herr
      exact Document.HasSpan.type hm

theorem explains_bindType (h : s.Models d) {ty : Ty}
    (hty : ∀ r ∈ ty.references, d.MentionsType r.mention)
    (herr : ty.bind s referrer = .error fault) : d.Explains fault := by
  obtain ⟨r, hr, hfault⟩ := Ty.exists_of_bind_eq_error herr
  exact h.explains_named (hty r hr) hfault

/-- A name that means no constant spells no item of an enum. -/
theorem noItem (h : s.Models d) {name : String}
    (hnone : ∀ target, ¬ s.Means name target) : d.NoItem name := by
  rintro x hx items hbody item hitem rfl
  have hmember : item.name ∈ (EnumItem.numbered 0 items).map Prod.fst := by
    rw [EnumItem.map_fst_numbered]
    exact List.mem_map_of_mem hitem
  obtain ⟨⟨_, n⟩, hn, rfl⟩ := List.mem_map.mp hmember
  obtain ⟨target, hmeans⟩ := h.exists_means.mpr
    (.inr ⟨x.name, n, items, _, rfl, ⟨x, hx, rfl, hbody⟩, hn⟩)
  exact hnone target hmeans

/-- **A constant is not bound**: nothing has its name, no definition and no item
of an enum, or something else than a constant has it. -/
theorem explains_constTarget (h : s.Models d) {r : Reference ConstTarget}
    (hm : d.MentionsConstant r.mention)
    (herr : s.constTarget referrer r = .error fault) : d.Explains fault := by
  have hnone : ∀ target, ¬ s.Means r.name target := by
    intro target hmeans
    cases ((h.constTarget_eq_ok referrer).mpr hmeans).symm.trans herr
  unfold constTarget at herr
  cases hnamed : s.named? r.name with
  | none =>
    rw [hnamed] at herr
    dsimp only at herr
    split at herr
    next => cases herr
    next =>
      cases herr
      exact ⟨h.undefined hnamed, .inr (.inr ⟨hm, h.noItem hnone⟩)⟩
  | some found =>
    rw [hnamed] at herr
    dsimp only at herr
    split at herr
    next => cases herr
    next =>
      cases herr
      exact Document.HasSpan.constant hm

theorem explains_bindInit (h : s.Models d) {init : Init}
    (hinit : ∀ r ∈ init.references, d.MentionsConstant r.mention)
    (herr : init.bind s referrer = .error fault) : d.Explains fault := by
  obtain ⟨r, hr, hfault⟩ := Init.exists_of_bind_eq_error herr
  exact h.explains_constTarget (hinit r hr) hfault

/-- **The fields of a list are not bound**: there is something wrong with a type
or a default. -/
theorem explains_bindFields (h : s.Models d) {fields : List Entity.Field}
    (hfields : ∀ g ∈ fields, g.IsFrom s d)
    (herr : Entity.bindFields s owner fields = .error fault) :
    d.Explains fault := by
  obtain ⟨g, hg, hfault⟩ := exists_of_mapM_eq_error herr
  have hfrom := hfields g hg
  rcases bind_eq_error.mp hfault with htype | ⟨type, -, hfault⟩
  · exact h.explains_bindType (fun r hr => (hfrom.type r hr).2) htype
  · rcases bind_eq_error.mp hfault with hdefault | ⟨default, -, hfault⟩
    · obtain ⟨init, hinit, hfault⟩ := exists_of_optionMapM_eq_error hdefault
      refine h.explains_bindInit (fun r hr => hfrom.default r ?_) hfault
      unfold Entity.Field.defaultReferences
      rw [Option.mem_def.mp hinit]
      exact hr
    · exact absurd hfault pure_ne_error

/-- **A declared exception does not pass**: its type is not found, or is no
exception. -/
theorem explains_checkException (h : s.Models d) {g : Entity.Field}
    (hplace : d.HasSpan g.span) (htype : s.Cites d g.type)
    (herr : g.checkException s owner = .error fault) : d.Explains fault := by
  unfold Entity.Field.checkException at herr
  split at herr
  next fault' hdealias =>
    cases herr
    exact h.explains_dealias htype hdealias
  next =>
    split at herr
    next => cases herr
    next =>
      cases herr
      exact hplace
  next =>
    cases herr
    exact hplace

/-- A field that was bound has its place and its type from the document. -/
theorem cites_bind (h : s.Models d) {g g' : Entity.Field} (hfrom : g.IsFrom s d)
    (hok : g.bind s owner = .ok g') : d.HasSpan g'.span ∧ s.Cites d g'.type := by
  obtain ⟨herase, htypes, -⟩ := Entity.Field.bind_sound h hok
  have hspan : g'.span = g.span := (congrArg Entity.Field.span herase :)
  have htype : g'.type.erase = g.type.erase := (congrArg Entity.Field.type herase :)
  refine ⟨hspan ▸ hfrom.place, fun r hr => ⟨?_, ?_⟩⟩
  · exact h.arena.agrees_of_boundTo (htypes r hr)
  · have hmention := List.mem_map_of_mem (f := Reference.mention) hr
    rw [Ty.map_mention_of_erase_eq htype] at hmention
    obtain ⟨r', hr', hsame⟩ := List.mem_map.mp hmention
    exact hsame ▸ (hfrom.type r' hr').2

/-- **A function is not bound**: there is something wrong with its parameters,
its result or its declared exceptions. -/
theorem explains_bindFunction (h : s.Models d) {f : Entity.Function}
    (hparameters : ∀ g ∈ f.parameters, g.IsFrom s d)
    (hreturns : ∀ ty ∈ f.returns, ∀ r ∈ ty.references, d.MentionsType r.mention)
    (hexceptions : ∀ g ∈ f.exceptions, g.IsFrom s d)
    (herr : f.bind s service = .error fault) : d.Explains fault := by
  rcases bind_eq_error.mp herr with hfault | ⟨parameters, -, herr⟩
  · exact h.explains_bindFields hparameters hfault
  rcases bind_eq_error.mp herr with hfault | ⟨returns, -, herr⟩
  · obtain ⟨ty, hty, hfault⟩ := exists_of_optionMapM_eq_error hfault
    exact h.explains_bindType (hreturns ty hty) hfault
  rcases bind_eq_error.mp herr with hfault | ⟨exceptions, hbound, herr⟩
  · exact h.explains_bindFields hexceptions hfault
  rcases bind_eq_error.mp herr with hfault | ⟨-, -, herr⟩
  · obtain ⟨before, x, after, rfl, -, hfault⟩ := exists_of_forM_eq_error hfault
    obtain ⟨g, hg, hx⟩ := exists_left_of_forall₂ (mapM_eq_ok.mp hbound)
      (List.mem_append_right before List.mem_cons_self)
    obtain ⟨hplace, htype⟩ := h.cites_bind (hexceptions g hg) hx
    exact h.explains_checkException hplace htype hfault
  · exact absurd herr pure_ne_error

/-- The service that an entity extends is mentioned in the document. -/
theorem mentionsService (h : s.Models d) (he : s.entity? id = some e)
    {r : Reference EntityId} (hr : r ∈ e.body.parent?) :
    d.MentionsService r.mention := by
  obtain ⟨x, hx, hdeclared⟩ := h.exists_definition he
  have hbody := hdeclared.body
  generalize e.body = b at hbody hr
  generalize hxbody : x.body = body at hbody
  cases hbody with
  | @service _ _ _ bound _ _ hparent =>
    have hbound : bound = some r := hr
    rw [hbound, Option.map_some] at hparent
    obtain ⟨m, rfl, hm⟩ := Option.map_eq_some_iff.mp hparent.symm
    have hmention : m = r.mention := (congrArg Reference.mention hm :)
    exact hmention ▸ ⟨x, hx, _, hxbody⟩
  | _ => cases hr

/-- A service is not bound to what it extends: nothing has the name, or something
else than a service has it. -/
theorem explains_bindParent (h : s.Models d) {r : Reference EntityId}
    (hm : d.MentionsService r.mention)
    (herr : Entity.bindParent s service r = .error fault) : d.Explains fault := by
  unfold Entity.bindParent lookup at herr
  cases hnamed : s.named? r.name with
  | none =>
    rw [hnamed] at herr
    cases herr
    exact ⟨h.undefined hnamed, .inr (.inl hm)⟩
  | some found =>
    rw [hnamed] at herr
    dsimp only at herr
    split at herr
    next => cases herr
    next =>
      cases herr
      exact Document.HasSpan.parent hm

/-- **An entity is not bound** for a reason that is true of the document. -/
theorem explains_bindStep (h : s.Models d) (he : s.entity? id = some e)
    (herr : s.bindStep id = .error fault) : d.Explains fault := by
  have htypes : ∀ r ∈ e.body.typeReferences, d.MentionsType r.mention :=
    fun r hr => h.mentionsType he hr
  have hconstants : ∀ r ∈ e.body.constReferences, d.MentionsConstant r.mention :=
    fun r hr => h.mentionsConstant he hr
  unfold bindStep at herr
  rw [he] at herr
  dsimp only at herr
  cases hbody : e.body with
  | const type init value =>
    simp only [hbody] at herr htypes hconstants
    rcases bind_eq_error.mp herr with hfault | ⟨type', -, herr⟩
    · exact h.explains_bindType htypes hfault
    rcases bind_eq_error.mp herr with hfault | ⟨init', -, herr⟩
    · exact h.explains_bindInit hconstants hfault
    · exact absurd herr pure_ne_error
  | typedef target =>
    simp only [hbody] at herr htypes
    rcases bind_eq_error.mp herr with hfault | ⟨target', -, herr⟩
    · exact h.explains_bindType htypes hfault
    · exact absurd herr pure_ne_error
  | enum items =>
    simp only [hbody] at herr
    cases herr
  | struct kind fields =>
    simp only [hbody] at herr
    rcases bind_eq_error.mp herr with hfault | ⟨fields', -, herr⟩
    · exact h.explains_bindFields (fun g hg => h.field_isFrom he (.struct hbody) hg)
        hfault
    · exact absurd herr pure_ne_error
  | service functions parent methods =>
    simp only [hbody] at herr htypes
    rcases bind_eq_error.mp herr with hfault | ⟨parent', -, herr⟩
    · obtain ⟨r, hr, hfault⟩ := exists_of_optionMapM_eq_error hfault
      exact h.explains_bindParent (h.mentionsService he (by rw [hbody]; exact hr)) hfault
    rcases bind_eq_error.mp herr with hfault | ⟨functions', -, herr⟩
    · obtain ⟨f, hf, hfault⟩ := exists_of_mapM_eq_error hfault
      refine h.explains_bindFunction
        (fun g hg => h.field_isFrom he (.parameters hbody hf) hg)
        (fun ty hty r hr => htypes r (List.mem_flatMap.mpr ⟨f, hf, ?_⟩))
        (fun g hg => h.field_isFrom he (.exceptions hbody hf) hg) hfault
      unfold Entity.Function.typeReferences
      rw [Option.mem_def.mp hty]
      exact List.mem_append_left _ (List.mem_append_right _ hr)
    · exact absurd herr pure_ne_error

end Scope.Models

end Interlink
