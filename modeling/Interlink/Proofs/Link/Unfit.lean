import Interlink.Proofs.Link.Evaluate
import Interlink.Proofs.Link.Unbound

/-!
# Values that cannot be had

Evaluating an expression fails in one of three ways. A constant that it refers
to has no value; some part of it does not fit the type that is asked for; or a
type on the way cannot be followed. A misfit is reported where the definition or
the field stands that the value is for, however deep in the value it is found.

The values of constants are found along a trail, so a constant that is made of
itself is reported as the circle that it is (`Scope.Models.explains_findValue`).
Nothing has to be known of the table of values that were found before: where it
lacks one, the constant that is missing is named, and stands in the document.
-/

namespace Interlink

/-! ## Where coercion fails -/

/-- **The types that a shape has for the parts of a value**: those of elements, of
keys and values, or of the fields of a struct. -/
def Shape.HasPart : Shape → Ty → Prop
  | .primitive _, _ => False
  | .list element, ty => ty = element
  | .set element, ty => ty = element
  | .map key value, ty => ty = key ∨ ty = value
  | .entity _ e, ty => ∃ kind declared, e.body = .struct kind declared
    ∧ ∃ f ∈ declared, ty = f.type

/-- **A fault is a misfit at a site.** -/
def Site.Blames (site : Site) (fault : CompileError) : Prop :=
  ∃ misfit, fault = .mismatch site.owner site.span misfit

theorem Site.blames_of_misfit {α : Type} {site : Site} {misfit : Misfit}
    {fault : CompileError} (herr : (site.misfit misfit : Except _ α) = .error fault) :
    site.Blames fault :=
  ⟨misfit, (Except.error.inj herr).symm⟩

namespace Value

variable {s : Scope} {site : Site} {fault : CompileError}

/-- A value does not fit a primitive type. -/
theorem blames_of_coercePrimitive {ty : Ty} {p : Primitive} {v : Value}
    (herr : coercePrimitive site ty p v = .error fault) : site.Blames fault := by
  unfold coercePrimitive at herr
  split at herr
  next =>
    split at herr
    next => exact Site.blames_of_misfit herr
    next =>
      split at herr
      next => cases herr
      next => exact Site.blames_of_misfit herr
  next =>
    split at herr
    next => cases herr
    next => exact Site.blames_of_misfit herr

/-- A value does not fit an enum. -/
theorem blames_of_coerceEnum {typeName : String} {items : List Entity.Item}
    {v : Value} (herr : coerceEnum site typeName items v = .error fault) :
    site.Blames fault := by
  unfold coerceEnum at herr
  split at herr
  next =>
    split at herr
    next => cases herr
    next => exact Site.blames_of_misfit herr
  next =>
    split at herr
    next => cases herr
    next => exact Site.blames_of_misfit herr

/-- The fields that are set are not enough. -/
theorem blames_of_checkFieldsSet {typeName : String} {kind : StructKind}
    {declared : List Entity.Field} {fields : List (String × Value)}
    (herr : checkFieldsSet site typeName kind declared fields = .error fault) :
    site.Blames fault := by
  unfold checkFieldsSet at herr
  split at herr
  next =>
    split at herr
    next => cases herr
    next => exact Site.blames_of_misfit herr
  next =>
    split at herr
    next => exact Site.blames_of_misfit herr
    next => cases herr

/-- The coercion of a sequence fails at one of its items. -/
theorem exists_of_coerceItems_eq_error {element : Ty} {items : List Value}
    (herr : coerceItems s site element items = .error fault) :
    ∃ item ∈ items, coerce s site item element = .error fault := by
  induction items with
  | nil =>
    unfold coerceItems at herr
    cases herr
  | cons item items ih =>
    unfold coerceItems at herr
    rcases bind_eq_error.mp herr with hitem | ⟨typed, -, herr⟩
    · exact ⟨item, List.mem_cons_self, hitem⟩
    rcases bind_eq_error.mp herr with hitems | ⟨rest, -, herr⟩
    · obtain ⟨i, hi, hfault⟩ := ih hitems
      exact ⟨i, List.mem_cons_of_mem _ hi, hfault⟩
    · exact absurd herr pure_ne_error

/-- The coercion of a map fails at a key or at a value. -/
theorem exists_of_coerceEntries_eq_error {key value : Ty}
    {entries : List (Value × Value)}
    (herr : coerceEntries s site key value entries = .error fault) :
    ∃ x ∈ entries, coerce s site x.1 key = .error fault
      ∨ coerce s site x.2 value = .error fault := by
  induction entries with
  | nil =>
    unfold coerceEntries at herr
    cases herr
  | cons x entries ih =>
    unfold coerceEntries at herr
    rcases bind_eq_error.mp herr with hkey | ⟨k, -, herr⟩
    · exact ⟨x, List.mem_cons_self, .inl hkey⟩
    rcases bind_eq_error.mp herr with hvalue | ⟨v, -, herr⟩
    · exact ⟨x, List.mem_cons_self, .inr hvalue⟩
    rcases bind_eq_error.mp herr with hentries | ⟨rest, -, herr⟩
    · obtain ⟨y, hy, hfault⟩ := ih hentries
      exact ⟨y, List.mem_cons_of_mem _ hy, hfault⟩
    · exact absurd herr pure_ne_error

/-- The coercion of a map that is meant as a struct fails at a key that is no
field, or at the value of a field. -/
theorem exists_of_coerceFields_eq_error {typeName : String} {kind : StructKind}
    {declared : List Entity.Field} {done : List (String × Value)}
    {entries : List (Value × Value)}
    (herr : coerceFields s site typeName kind declared done entries = .error fault) :
    site.Blames fault ∨ ∃ x ∈ entries, ∃ f ∈ declared,
      coerce s site x.2 f.type = .error fault := by
  induction entries generalizing done with
  | nil =>
    unfold coerceFields at herr
    cases herr
  | cons x entries ih =>
    obtain ⟨key, v⟩ := x
    unfold coerceFields at herr
    split at herr
    next name =>
      split at herr
      next => exact .inl (Site.blames_of_misfit herr)
      next f hfind =>
        split at herr
        next => exact .inl (Site.blames_of_misfit herr)
        next =>
          split at herr
          next fault' hfault =>
            cases herr
            exact .inr ⟨_, List.mem_cons_self, f, List.mem_of_find?_eq_some hfind, hfault⟩
          next typed _ =>
            rcases ih herr with hblames | ⟨y, hy, hfault⟩
            · exact .inl hblames
            · exact .inr ⟨y, List.mem_cons_of_mem _ hy, hfault⟩
    next => exact .inl (Site.blames_of_misfit herr)

/-- **How coercion to a shape fails**: the value does not fit the shape, or a part
of it does not fit the type that the shape has for it. -/
theorem exists_of_coerce_eq_error {v : Value} {ty : Ty} {shape : Shape}
    (hshape : s.dealias ty site.owner = .ok shape)
    (herr : v.coerce s site ty = .error fault) :
    site.Blames fault ∨ ∃ part ∈ v.children, ∃ partType, shape.HasPart partType
      ∧ part.coerce s site partType = .error fault := by
  have hitems : ∀ {element : Ty} {items : List Value}, v.IsSequence items →
      coerceItems s site element items = .error fault →
      ∃ part ∈ v.children, part.coerce s site element = .error fault := by
    intro element items hsequence herr
    obtain ⟨item, hitem, hfault⟩ := exists_of_coerceItems_eq_error herr
    exact ⟨item, hsequence.mem_children hitem, hfault⟩
  unfold coerce at herr
  simp only [hshape] at herr
  cases shape with
  | primitive p => exact .inl (blames_of_coercePrimitive herr)
  | list element =>
    dsimp only at herr
    split at herr
    next items =>
      obtain ⟨part, hmem, hfault⟩ := hitems (.inl rfl) (map_eq_error.mp herr)
      exact .inr ⟨part, hmem, element, rfl, hfault⟩
    next items =>
      obtain ⟨part, hmem, hfault⟩ := hitems (.inr rfl) (map_eq_error.mp herr)
      exact .inr ⟨part, hmem, element, rfl, hfault⟩
    next => exact .inl (Site.blames_of_misfit herr)
  | set element =>
    dsimp only at herr
    split at herr
    next items =>
      obtain ⟨part, hmem, hfault⟩ := hitems (.inl rfl) (map_eq_error.mp herr)
      exact .inr ⟨part, hmem, element, rfl, hfault⟩
    next items =>
      obtain ⟨part, hmem, hfault⟩ := hitems (.inr rfl) (map_eq_error.mp herr)
      exact .inr ⟨part, hmem, element, rfl, hfault⟩
    next => exact .inl (Site.blames_of_misfit herr)
  | map key value =>
    dsimp only at herr
    split at herr
    next entries =>
      obtain ⟨x, hx, hkey | hvalue⟩ :=
        exists_of_coerceEntries_eq_error (map_eq_error.mp herr)
      · exact .inr ⟨x.1, key_mem_children hx, key, .inl rfl, hkey⟩
      · exact .inr ⟨x.2, value_mem_children hx, value, .inr rfl, hvalue⟩
    next => exact .inl (Site.blames_of_misfit herr)
  | entity id e =>
    dsimp only at herr
    split at herr
    next items _ => exact .inl (blames_of_coerceEnum herr)
    next kind declared hbody =>
      split at herr
      next =>
        split at herr
        next => cases herr
        next => exact .inl (Site.blames_of_misfit herr)
      next entries =>
        split at herr
        next fault' hfields =>
          cases herr
          rcases exists_of_coerceFields_eq_error hfields with
            hblames | ⟨x, hx, f, hf, hfault⟩
          · exact .inl hblames
          · exact .inr ⟨x.2, value_mem_children hx, f.type,
              ⟨kind, declared, hbody, f, hf, rfl⟩, hfault⟩
        next => exact .inl (blames_of_checkFieldsSet herr)
      next => exact .inl (Site.blames_of_misfit herr)
    next => exact .inl (Site.blames_of_misfit herr)

end Value

/-! ## Where evaluation fails -/

namespace Init

variable {s : Scope} {owner : String} {fault : CompileError}
  {constant : EntityId → Entity → Except CompileError Value}

mutual

/-- The loose value of an expression fails at one of its references. -/
theorem exists_of_loose_eq_error {init : Init}
    (herr : init.loose s owner constant = .error fault) :
    ∃ r ∈ init.references, loose s owner constant (.reference r) = .error fault := by
  cases init with
  | list items =>
    unfold loose at herr
    exact exists_of_looseItems_eq_error (map_eq_error.mp herr)
  | map entries =>
    unfold loose at herr
    exact exists_of_looseEntries_eq_error (map_eq_error.mp herr)
  | reference r => exact ⟨r, List.mem_singleton_self r, herr⟩
  | _ =>
    unfold loose at herr
    cases herr

theorem exists_of_looseItems_eq_error {items : List Init}
    (herr : looseItems s owner constant items = .error fault) :
    ∃ r ∈ itemReferences items,
      loose s owner constant (.reference r) = .error fault := by
  cases items with
  | nil =>
    unfold looseItems at herr
    cases herr
  | cons item items =>
    unfold looseItems at herr
    rcases bind_eq_error.mp herr with hitem | ⟨v, -, herr⟩
    · obtain ⟨r, hr, hfault⟩ := exists_of_loose_eq_error hitem
      exact ⟨r, List.mem_append_left _ hr, hfault⟩
    rcases bind_eq_error.mp herr with hitems | ⟨vs, -, herr⟩
    · obtain ⟨r, hr, hfault⟩ := exists_of_looseItems_eq_error hitems
      exact ⟨r, List.mem_append_right _ hr, hfault⟩
    · exact absurd herr pure_ne_error

theorem exists_of_looseEntries_eq_error {entries : List (Init × Init)}
    (herr : looseEntries s owner constant entries = .error fault) :
    ∃ r ∈ entryReferences entries,
      loose s owner constant (.reference r) = .error fault := by
  cases entries with
  | nil =>
    unfold looseEntries at herr
    cases herr
  | cons entry entries =>
    obtain ⟨key, value⟩ := entry
    unfold looseEntries at herr
    rcases bind_eq_error.mp herr with hkey | ⟨k, -, herr⟩
    · obtain ⟨r, hr, hfault⟩ := exists_of_loose_eq_error hkey
      exact ⟨r, List.mem_append_left _ (List.mem_append_left _ hr), hfault⟩
    rcases bind_eq_error.mp herr with hvalue | ⟨v, -, herr⟩
    · obtain ⟨r, hr, hfault⟩ := exists_of_loose_eq_error hvalue
      exact ⟨r, List.mem_append_left _ (List.mem_append_right _ hr), hfault⟩
    rcases bind_eq_error.mp herr with hentries | ⟨vs, -, herr⟩
    · obtain ⟨r, hr, hfault⟩ := exists_of_looseEntries_eq_error hentries
      exact ⟨r, List.mem_append_right _ hr, hfault⟩
    · exact absurd herr pure_ne_error

end

/-- **A bound reference has no value** if the source has none for its constant;
the items of enums always have one. -/
theorem exists_of_reference_eq_error {r : Reference ConstTarget}
    (hbound : s.BoundConst r)
    (herr : loose s owner constant (.reference r) = .error fault) :
    ∃ id e, s.entity? id = some e ∧ constant id e = .error fault := by
  obtain ⟨target, htarget, hmeans⟩ := hbound
  unfold loose at herr
  cases target with
  | const id =>
    obtain ⟨e, he, -, -⟩ := hmeans
    simp only [htarget, he] at herr
    exact ⟨id, e, he, herr⟩
  | item id n =>
    obtain ⟨e, items, item, he, -⟩ := hmeans
    simp only [htarget, he] at herr
    cases herr

end Init

/-! ## Why evaluation fails -/

namespace Scope

variable {s : Scope} {d : Document} {id : EntityId} {e : Entity} {site : Site}
  {fault : CompileError} {table : ValueTable}

/-- The values of the constants that references are bound to are not found, if
one of them is not. -/
theorem exists_of_findReferred_eq_error {owner : String}
    {find : ValueTable → EntityId → Entity →
      Except CompileError (Value × ValueTable)}
    {refs : List (Reference ConstTarget)} (hbound : ∀ r ∈ refs, s.BoundConst r)
    (herr : s.findReferred owner find table refs = .error fault) :
    ∃ r ∈ refs, ∃ table id e, s.entity? id = some e ∧ e.name = r.name
      ∧ find table id e = .error fault := by
  induction refs generalizing table with
  | nil => cases herr
  | cons r refs ih =>
    obtain ⟨hr, hrefs⟩ := List.forall_mem_cons.mp hbound
    have hrest : ∀ table, s.findReferred owner find table refs = .error fault →
        ∃ r' ∈ r :: refs, ∃ table id e, s.entity? id = some e ∧ e.name = r'.name
          ∧ find table id e = .error fault := by
      intro table herr
      obtain ⟨r', hr', hfault⟩ := ih hrefs herr
      exact ⟨r', List.mem_cons_of_mem _ hr', hfault⟩
    obtain ⟨target, htarget, hmeans⟩ := hr
    unfold findReferred at herr
    cases target with
    | const id =>
      obtain ⟨e, he, hname, -⟩ := hmeans
      simp only [htarget, he] at herr
      split at herr
      next fault' hfault =>
        cases herr
        exact ⟨r, List.mem_cons_self, table, id, e, he, hname, hfault⟩
      next => exact hrest _ herr
    | item id n =>
      simp only [htarget] at herr
      exact hrest _ herr

/-- **How finding a value fails**: the constant has been entered already, or it is
no constant; a constant that it mentions has no value, or its expression has
none. -/
theorem findValue_eq_error {left : Nat} {t : Trail}
    (herr : s.findValue left t table id e = .error fault) :
    (fault = s.circle t id e ∧ (left = 0 ∨ id ∈ t))
      ∨ (Site.mk e.name e.span).Blames fault
      ∨ ∃ k ty init value, left = k + 1 ∧ id ∉ t ∧ e.body = .const ty init value
        ∧ (s.findReferred e.name (s.findValue k (id :: t)) table init.references
            = .error fault
          ∨ ∃ table' : ValueTable,
            init.evaluate s ⟨e.name, e.span⟩ table'.value ty = .error fault) := by
  unfold findValue at herr
  split at herr
  next => cases herr
  next =>
    cases left with
    | zero => exact .inl ⟨(Except.error.inj herr).symm, .inl rfl⟩
    | succ k =>
      dsimp only at herr
      split at herr
      next hmem =>
        exact .inl ⟨(Except.error.inj herr).symm, .inr (List.contains_iff_mem.mp hmem)⟩
      next hnew =>
        have hnew : id ∉ t := by simpa using hnew
        split at herr
        next ty init value hbody =>
          refine .inr (.inr ⟨k, ty, init, value, rfl, hnew, hbody, ?_⟩)
          split at herr
          next fault' hreferred =>
            cases herr
            exact .inl hreferred
          next table' _ =>
            split at herr
            next fault' hevaluate =>
              cases herr
              exact .inr ⟨table', hevaluate⟩
            next => cases herr
        next => exact .inr (.inl ⟨_, (Except.error.inj herr).symm⟩)

namespace Models

theorem explains_blames (hsite : d.HasSpan site.span) (h : site.Blames fault) :
    d.Explains fault := by
  obtain ⟨misfit, rfl⟩ := h
  exact hsite

/-- The types for the parts of a shape come from the document, if the shape
does. -/
theorem cites_of_hasPart (h : s.Models d) {shape : Shape}
    (hshape : s.CitesShape d shape) {ty : Ty} (hpart : shape.HasPart ty) :
    s.Cites d ty := by
  cases shape with
  | primitive => cases hpart
  | list =>
    cases hpart
    exact hshape
  | set =>
    cases hpart
    exact hshape
  | map =>
    rcases hpart with rfl | rfl
    · exact hshape.1
    · exact hshape.2
  | entity =>
    obtain ⟨kind, declared, hbody, f, hf, rfl⟩ := hpart
    exact (h.field_isFrom hshape (.struct hbody) hf).type

/-- **A value does not fit a type**: some part of it does not fit, or a type on
the way is not found. -/
theorem explains_coerce (h : s.Models d) (hsite : d.HasSpan site.span) {ty : Ty}
    {v : Value} (hty : s.Cites d ty)
    (herr : v.coerce s site ty = .error fault) : d.Explains fault := by
  -- values get smaller on the way, types do not
  induction v using Value.childInduction generalizing ty with
  | step v ih =>
    cases hshape : s.dealias ty site.owner with
    | error fault' =>
      unfold Value.coerce at herr
      simp only [hshape] at herr
      cases herr
      exact h.explains_dealias hty hshape
    | ok shape =>
      rcases Value.exists_of_coerce_eq_error hshape herr with
        hblames | ⟨part, hmem, partType, hpart, hfault⟩
      · exact explains_blames hsite hblames
      · exact ih part hmem
          (h.cites_of_hasPart (h.citesShape_of_follow hty hshape) hpart) hfault

/-- **An expression has no value at a type**, if the faults of its source are
true. -/
theorem explains_evaluate (h : s.Models d) (hsite : d.HasSpan site.span) {ty : Ty}
    {init : Init} {constant : EntityId → Entity → Except CompileError Value}
    (hty : s.Cites d ty) (hbound : ∀ r ∈ init.references, s.BoundConst r)
    (hsource : ∀ id e, s.entity? id = some e → constant id e = .error fault →
      d.Explains fault)
    (herr : init.evaluate s site constant ty = .error fault) :
    d.Explains fault := by
  unfold Init.evaluate at herr
  split at herr
  next fault' hloose =>
    cases herr
    obtain ⟨r, hr, hfault⟩ := Init.exists_of_loose_eq_error hloose
    obtain ⟨id, e, he, hfault⟩ := Init.exists_of_reference_eq_error (hbound r hr) hfault
    exact hsource id e he hfault
  next => exact h.explains_coerce hsite hty herr

theorem explains_value (h : s.Models d) (he : s.entity? id = some e)
    (herr : table.value id e = .error fault) : d.Explains fault := by
  unfold ValueTable.value at herr
  split at herr
  next => cases herr
  next =>
    cases herr
    exact h.hasSpan he

theorem explains_storedValue (h : s.Models d) (he : s.entity? id = some e)
    (herr : storedValue id e = .error fault) : d.Explains fault := by
  unfold storedValue at herr
  split at herr
  next => cases herr
  next =>
    cases herr
    exact h.hasSpan he

/-- A constant leads to the constants in its expression. -/
theorem constantMentions (h : s.Models d) (he : s.entity? id = some e) {ty : Ty}
    {init : Init} {value : Option Value} (hbody : e.body = .const ty init value)
    {r : Reference ConstTarget} (hr : r ∈ init.references) :
    d.ConstantMentions e.name r.name := by
  obtain ⟨type, c, hdefines, -, hinit⟩ := h.renders_const he hbody
  refine ⟨type, c, hdefines, ?_⟩
  rw [← Init.map_name_references hinit]
  exact List.mem_map_of_mem hr

/-- **The value of a constant is not found**: it is made of itself, or there is
something wrong with a constant on the way. -/
theorem explains_findValue (h : s.Models d) (hbound : s.ConstantsBound) {left : Nat}
    {t : Trail} (he : s.entity? id = some e)
    (htrail : s.ChainedTrail d.ConstantMentions left t e.name)
    (herr : s.findValue left t table id e = .error fault) : d.Explains fault := by
  induction left using Nat.strong_induction_on generalizing t table id e with
  | _ left ih =>
    have hplace : d.HasSpan (Site.mk e.name e.span).span := h.hasSpan he
    rcases findValue_eq_error herr with
      ⟨rfl, hstuck⟩ | hblames | ⟨k, ty, init, value, rfl, hnew, hbody, hfault⟩
    · exact h.explains_circle (.inl rfl) htrail he hstuck
    · exact explains_blames hplace hblames
    have hrefs := hbound id e ty init value he hbody
    rcases hfault with hreferred | ⟨table', hevaluate⟩
    · obtain ⟨r, hr, table', j, f, hf, hname, hfault⟩ :=
        exists_of_findReferred_eq_error hrefs hreferred
      refine ih k (Nat.lt_succ_self k) hf (htrail.enter he hnew ?_) hfault
      rw [hname]
      exact h.constantMentions he hbody hr
    · have hty : s.Cites d ty := h.cites he (by rw [hbody]; exact List.Subset.refl _)
      exact h.explains_evaluate hplace hty hrefs (fun _ _ hj => h.explains_value hj)
        hevaluate

end Models

end Scope

end Interlink
