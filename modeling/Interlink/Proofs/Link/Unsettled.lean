import Interlink.Proofs.Link.Check
import Interlink.Proofs.Link.Methods
import Interlink.Proofs.Link.Unfit
import Interlink.Proofs.Scope.Refused

/-!
# Entities that do not pass

After its references are bound, an entity is checked. What can go wrong is a
name or an id that two members share, a marker that does not belong where it
is, a default that has no value, a typedef or a service that goes round in a
circle. Each step of linking that fails says something true of the document
(`explains_constantStep`, `explains_typeStep`, `explains_serviceStep`).
-/

namespace Interlink

/-! ## Members with one name or one id -/

namespace Entity

variable {owner service : String} {fault : CompileError}

/-- **The fields of a list are not told apart**: two of them have one name, or one
id. -/
theorem checkDistinct_eq_error {names : Std.HashMap String Span}
    {ids : Std.HashMap Int Span} {before fields : List Field}
    (hnames : Remembers Field.name Field.span before names)
    (hids : Remembers (fun f => f.id.toInt) Field.span before ids)
    (herr : checkDistinct owner names ids fields = .error fault) :
    ∃ x y, [x, y].Sublist (before ++ fields)
      ∧ (x.name = y.name ∧ fault = .duplicate (qualified owner y.name) y.span x.span
        ∨ x.id.toInt = y.id.toInt ∧ fault = .duplicate
          (qualified owner y.name
            ++ (" (field id " ++ toString y.id.toInt ++ ")")) y.span x.span) := by
  induction fields generalizing names ids before with
  | nil => cases herr
  | cons f fields ih =>
    rw [checkDistinct] at herr
    split at herr
    next first hfirst =>
      cases herr
      obtain ⟨x, hboth, hname, rfl⟩ := hnames.exists_earlier hfirst
      exact ⟨x, f, hboth, .inl ⟨hname, rfl⟩⟩
    next =>
      split at herr
      next first hfirst =>
        cases herr
        obtain ⟨x, hboth, hid, rfl⟩ := hids.exists_earlier hfirst
        exact ⟨x, f, hboth, .inr ⟨hid, rfl⟩⟩
      next =>
        obtain ⟨x, y, hboth, hxy⟩ := ih (hnames.insert f) (hids.insert f) herr
        rw [List.append_assoc] at hboth
        exact ⟨x, y, hboth, hxy⟩

/-- **The functions of a service are not told apart**: two of them have one
name. -/
theorem checkFunctionNames_eq_error {names : Std.HashMap String Span}
    {before functions : List Function}
    (hnames : Remembers Function.name Function.span before names)
    (herr : checkFunctionNames service names functions = .error fault) :
    ∃ x y, [x, y].Sublist (before ++ functions) ∧ x.name = y.name
      ∧ fault = .duplicate (qualified service y.name) y.span x.span := by
  induction functions generalizing names before with
  | nil => cases herr
  | cons f functions ih =>
    rw [checkFunctionNames] at herr
    split at herr
    next first hfirst =>
      cases herr
      obtain ⟨x, hboth, hname, rfl⟩ := hnames.exists_earlier hfirst
      exact ⟨x, f, hboth, hname, rfl⟩
    next =>
      obtain ⟨x, y, hboth, hxy⟩ := ih (hnames.insert f) herr
      rw [List.append_assoc] at hboth
      exact ⟨x, y, hboth, hxy⟩

/-- A field of a union is required, or has a default. -/
theorem checkUnion_eq_error {fields : List Field}
    (herr : checkUnion owner fields = .error fault) :
    ∃ f ∈ fields, ∃ name malformation, fault = .invalid name f.span malformation := by
  induction fields with
  | nil => cases herr
  | cons f fields ih =>
    rw [checkUnion] at herr
    split at herr
    next =>
      cases herr
      exact ⟨f, List.mem_cons_self, _, _, rfl⟩
    next =>
      split at herr
      next =>
        cases herr
        exact ⟨f, List.mem_cons_self, _, _, rfl⟩
      next =>
        obtain ⟨g, hg, hfault⟩ := ih herr
        exact ⟨g, List.mem_cons_of_mem _ hg, hfault⟩

/-- A function that nobody waits for has something to answer. -/
theorem Function.checkOneway_eq_error {f : Function}
    (herr : f.checkOneway owner = .error fault) :
    ∃ malformation, fault = .invalid owner f.span malformation := by
  unfold Function.checkOneway at herr
  split at herr
  next =>
    split at herr
    next =>
      cases herr
      exact ⟨_, rfl⟩
    next =>
      split at herr
      next => cases herr
      next =>
        cases herr
        exact ⟨_, rfl⟩
  next => cases herr

end Entity

/-- The names, places and ids of fields are those of the document. -/
theorem Field.AllDeclaredAs.map_zip {fields : List Field}
    {numbered : List Entity.Field} (h : Field.AllDeclaredAs fields numbered) :
    numbered.map (fun g => (g.name, g.span, g.id.toInt))
      = (fields.zip (Field.ids 0 fields)).map fun x => (x.1.name, x.1.span, x.2) := by
  rw [← h.ids]
  have heach := h.each
  clear h
  induction heach with
  | nil => rfl
  | cons hg _ ih =>
    simp only [List.map_cons, List.zip_cons_cons, ih, hg.name, hg.span]

theorem Field.AllDeclaredAs.map_fst_zip {fields : List Field}
    {numbered : List Entity.Field} (h : Field.AllDeclaredAs fields numbered) :
    (fields.zip (Field.ids 0 fields)).map Prod.fst = fields := by
  refine List.map_fst_zip ?_
  rw [← h.ids, List.length_map, h.each.length_eq]

namespace Scope

variable {s : Scope} {d : Document} {id : EntityId} {e : Entity}
  {owner : String} {fault : CompileError}

/-- **How finding methods fails**: the service has been entered already, or the
methods of the one that it extends are not found. -/
theorem ParentsBound.findMethods_eq_error (hparents : s.ParentsBound) {left : Nat}
    {t : Trail} {table : MethodTable} (he : s.entity? id = some e)
    (herr : s.findMethods left t table id = .error fault) :
    (fault = s.circle t id e ∧ (left = 0 ∨ id ∈ t))
      ∨ ∃ k r j f, left = k + 1 ∧ id ∉ t ∧ r ∈ e.body.parent?
        ∧ s.entity? j = some f ∧ f.name = r.name
        ∧ s.findMethods k (id :: t) table j = .error fault := by
  unfold findMethods at herr
  rw [he] at herr
  cases hlookup : table.known.lookup id with
  | some methods =>
    simp only [hlookup] at herr
    cases herr
  | none =>
    simp only [hlookup] at herr
    cases left with
    | zero => exact .inl ⟨(Except.error.inj herr).symm, .inl rfl⟩
    | succ k =>
      dsimp only at herr
      split at herr
      next hmem =>
        exact .inl ⟨(Except.error.inj herr).symm, .inr (List.contains_iff_mem.mp hmem)⟩
      next hnew =>
        have hnew : id ∉ t := by simpa using hnew
        split at herr
        next own parent methods hbody =>
          cases parent with
          | none => cases herr
          | some r =>
            have hr : r ∈ e.body.parent? := by
              rw [hbody]
              rfl
            obtain ⟨j, f, htarget, hf, hname, -⟩ := hparents id e he r hr
            simp only [Option.bind_some, htarget] at herr
            split at herr
            next fault' hfault =>
              exact .inr ⟨k, r, j, f, rfl, hnew, hr, hf, hname, hfault.trans herr⟩
            next => cases herr
        next => cases herr

namespace Models

/-- **Two fields of an entity have one name or one id**, and so have two fields
of the document. -/
theorem explains_checkDistinct (h : s.Models d) (he : s.entity? id = some e)
    {fields : List Entity.Field} (howns : e.OwnsFields owner fields)
    (herr : Entity.checkDistinct owner ∅ ∅ fields = .error fault) :
    d.Explains fault := by
  obtain ⟨z, hz, hdeclared⟩ := h.exists_definition he
  obtain ⟨declared, howns', hfields⟩ := howns.exists_declared hdeclared
  obtain ⟨x, y, hboth, hsame⟩ :=
    Entity.checkDistinct_eq_error remembers_empty remembers_empty herr
  obtain ⟨⟨f, n⟩, ⟨g, m⟩, hzip, hx, hy⟩ := exists_pair_of_map_eq hfields.map_zip hboth
  simp only [Prod.mk.injEq] at hx hy
  obtain ⟨hxname, hxspan, hxid⟩ := hx
  obtain ⟨hyname, hyspan, hyid⟩ := hy
  rcases hsame with ⟨hname, rfl⟩ | ⟨hid, rfl⟩
  · have hpair := hzip.map Prod.fst
    rw [hfields.map_fst_zip] at hpair
    rw [← hyname, ← hyspan, ← hxspan]
    exact Document.Repeats.fieldNames hz howns' hpair
      (hxname.trans (hname.trans hyname.symm))
  · rw [hxid, hid, ← hyid] at hzip
    rw [← hyname, ← hyspan, ← hxspan, ← hyid]
    exact Document.Repeats.fieldIds hz howns' hzip

/-- **Two functions of a service have one name**, and so have two of the
document. -/
theorem explains_checkFunctionNames (h : s.Models d) (he : s.entity? id = some e)
    {functions : List Entity.Function} {parent : Option (Reference EntityId)}
    {methods : List Entity.Method}
    (hbody : e.body = .service functions parent methods)
    (herr : Entity.checkFunctionNames e.name ∅ functions = .error fault) :
    d.Explains fault := by
  obtain ⟨z, hz, hdeclared⟩ := h.exists_definition he
  obtain ⟨declared, extended, hzbody, hfunctions⟩ :=
    hdeclared.exists_functions hbody
  obtain ⟨x, y, hboth, hname, rfl⟩ :=
    Entity.checkFunctionNames_eq_error remembers_empty herr
  have hmap : functions.map (fun f => (f.name, f.span))
      = declared.map fun f => (f.name, f.span) :=
    (map_eq_map_iff_forall₂.mpr (hfunctions.imp fun f g hg =>
      Prod.ext hg.name.symm hg.span.symm)).symm
  obtain ⟨f, g, hpair, hf, hg⟩ := exists_pair_of_map_eq hmap hboth
  obtain ⟨hfname, hfspan⟩ := Prod.mk.inj hf
  obtain ⟨hgname, hgspan⟩ := Prod.mk.inj hg
  rw [hdeclared.name, ← hgname, ← hgspan, ← hfspan]
  exact Document.Repeats.functions hz hzbody hpair
    (hfname.trans (hname.trans hgname.symm))

theorem hasSpan_function (h : s.Models d) (he : s.entity? id = some e)
    {functions : List Entity.Function} {parent : Option (Reference EntityId)}
    {methods : List Entity.Method}
    (hbody : e.body = .service functions parent methods) {f : Entity.Function}
    (hf : f ∈ functions) : d.HasSpan f.span := by
  obtain ⟨z, hz, hdeclared⟩ := h.exists_definition he
  obtain ⟨declared, extended, hzbody, hfunctions⟩ :=
    hdeclared.exists_functions hbody
  obtain ⟨f', hf', hff'⟩ := exists_left_of_forall₂ hfunctions hf
  exact hff'.span ▸ .function hz hzbody hf'

/-! ## Defaults -/

/-- **A default has no value.** -/
theorem explains_evaluateDefaults (h : s.Models d) (he : s.entity? id = some e)
    (hbound : e.body.Bound s) {fields : List Entity.Field}
    (howns : e.OwnsFields owner fields)
    (herr : Entity.evaluateDefaults s owner fields = .error fault) :
    d.Explains fault := by
  obtain ⟨g, hg, hfault⟩ := exists_of_mapM_eq_error herr
  have hfrom := h.field_isFrom he howns hg
  unfold Entity.Field.evaluateDefault at hfault
  split at hfault
  next => cases hfault
  next init hdefault =>
    have hrefs : ∀ r ∈ init.references, s.BoundConst r := by
      intro r hr
      refine hbound.constants r (howns.default_subset hg ?_)
      unfold Entity.Field.defaultReferences
      rw [hdefault]
      exact hr
    split at hfault
    next fault' hevaluate =>
      cases hfault
      have hplace : d.HasSpan (Site.mk (qualified owner g.name) g.span).span :=
        hfrom.place
      exact h.explains_evaluate hplace hfrom.type hrefs
        (fun _ _ hj => h.explains_storedValue hj) hevaluate
    next => cases hfault

/-! ## Functions and methods -/

/-- **A function does not pass**: its parameters or declared exceptions are not
told apart, it has something to answer that nobody waits for, or a default has
no value. -/
theorem explains_checkFunction (h : s.Models d) (he : s.entity? id = some e)
    (hbound : e.body.Bound s) {functions : List Entity.Function}
    {parent : Option (Reference EntityId)} {methods : List Entity.Method}
    (hbody : e.body = .service functions parent methods) {f : Entity.Function}
    (hf : f ∈ functions) (herr : f.check s e.name = .error fault) :
    d.Explains fault := by
  rcases bind_eq_error.mp herr with hfault | ⟨-, -, herr⟩
  · exact h.explains_checkDistinct he (.parameters hbody hf) hfault
  rcases bind_eq_error.mp herr with hfault | ⟨-, -, herr⟩
  · exact h.explains_checkDistinct he (.exceptions hbody hf) hfault
  rcases bind_eq_error.mp herr with hfault | ⟨-, -, herr⟩
  · obtain ⟨malformation, rfl⟩ := Entity.Function.checkOneway_eq_error hfault
    exact h.hasSpan_function he hbody hf
  rcases bind_eq_error.mp herr with hfault | ⟨parameters, -, herr⟩
  · exact h.explains_evaluateDefaults he hbound (.parameters hbody hf) hfault
  · exact absurd herr pure_ne_error

/-- **The methods of a service are not found**: it extends itself. -/
theorem explains_findMethods (h : s.Models d) (hparents : s.ParentsBound)
    {left : Nat} {t : Trail} {table : MethodTable} (he : s.entity? id = some e)
    (htrail : s.ChainedTrail d.Extends left t e.name)
    (herr : s.findMethods left t table id = .error fault) : d.Explains fault := by
  induction left using Nat.strong_induction_on generalizing t id e with
  | _ left ih =>
    rcases hparents.findMethods_eq_error he herr with
      ⟨rfl, hstuck⟩ | ⟨k, r, j, f, rfl, hnew, hr, hf, hname, hfault⟩
    · exact h.explains_circle (.inr (.inr rfl)) htrail he hstuck
    · refine ih k (Nat.lt_succ_self k) hf (htrail.enter he hnew ?_) hfault
      exact (h.extends_iff he).mpr ⟨r, hr, hname.symm⟩

/-! ## Steps -/

/-- **A constant is not evaluated** for a reason that is true of the document. -/
theorem explains_constantStep (h : s.Models d) (hbound : s.ConstantsBound)
    {table : ValueTable} (he : s.entity? id = some e)
    (herr : constantStep (s, table) id = .error fault) : d.Explains fault := by
  unfold constantStep at herr
  dsimp only at herr
  rw [he] at herr
  dsimp only at herr
  split at herr
  next =>
    rcases bind_eq_error.mp herr with hfault | ⟨found, -, herr⟩
    · exact h.explains_findValue hbound he chainedTrail_nil hfault
    · exact absurd herr pure_ne_error
  next => cases herr

/-- **A type does not pass** for a reason that is true of the document. -/
theorem explains_typeStep (h : s.Models d) (he : s.entity? id = some e)
    (hbound : e.body.Bound s) (herr : s.typeStep id = .error fault) :
    d.Explains fault := by
  unfold typeStep at herr
  rw [he] at herr
  dsimp only at herr
  split at herr
  next target hbody =>
    rcases bind_eq_error.mp herr with hfault | ⟨-, -, herr⟩
    · exact h.explains_dealiasEntity he (discard_eq_error.mp hfault)
    · exact absurd herr pure_ne_error
  next kind fields hbody =>
    rcases bind_eq_error.mp herr with hfault | ⟨-, -, herr⟩
    · exact h.explains_checkDistinct he (.struct hbody) hfault
    have hdefaults : ∀ {rest : List Entity.Field → Except CompileError Scope},
        (Entity.evaluateDefaults s e.name fields >>= rest) = .error fault →
        (∀ valued, rest valued ≠ .error fault) → d.Explains fault := by
      intro rest herr hrest
      rcases bind_eq_error.mp herr with hfault | ⟨valued, -, herr⟩
      · exact h.explains_evaluateDefaults he hbound (.struct hbody) hfault
      · exact absurd herr (hrest valued)
    split at herr
    next =>
      rcases bind_eq_error.mp herr with hfault | ⟨-, -, herr⟩
      · obtain ⟨g, hg, name, malformation, rfl⟩ := Entity.checkUnion_eq_error hfault
        exact (h.field_isFrom he (.struct hbody) hg).place
      · exact hdefaults herr fun _ => pure_ne_error
    next => exact hdefaults herr fun _ => pure_ne_error
  next => cases herr

/-- **A service does not pass** for a reason that is true of the document. -/
theorem explains_serviceStep (h : s.Models d) (hparents : s.ParentsBound)
    {table : MethodTable} (he : s.entity? id = some e) (hbound : e.body.Bound s)
    (herr : serviceStep (s, table) id = .error fault) : d.Explains fault := by
  unfold serviceStep at herr
  dsimp only at herr
  rw [he] at herr
  dsimp only at herr
  split at herr
  next functions parent methods hbody =>
    rcases bind_eq_error.mp herr with hfault | ⟨-, -, herr⟩
    · exact h.explains_checkFunctionNames he hbody hfault
    rcases bind_eq_error.mp herr with hfault | ⟨valued, -, herr⟩
    · obtain ⟨f, hf, hfault⟩ := exists_of_mapM_eq_error hfault
      exact h.explains_checkFunction he hbound hbody hf hfault
    rcases bind_eq_error.mp herr with hfault | ⟨found, -, herr⟩
    · exact h.explains_findMethods hparents he chainedTrail_nil hfault
    · exact absurd herr pure_ne_error
  next => cases herr

end Models

end Scope

end Interlink
