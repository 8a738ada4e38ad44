import Interlink.Proofs.Exchange.Construct

/-!
# Ids of fields

A document gives a field an id, or leaves it to be numbered. Numbering counts downwards
from zero and takes no notice of the ids that are given, so the id of a field is a matter
of its place: it is the one given, or the number of fields without an id up to there, as a
negative number (`Field.IdsByPlace`). There are 32768 negative ids, and a list with more
fields to number than that is refused at the first one too many (`Field.StopsAt`).

An id that is given may be one that numbering takes as well. Nothing is said about it when
fields are numbered; that the ids of a list are different is checked when types are linked,
for given ids and counted ones alike. So **in a compiled scope a field is found** by its
name and by its id (`StructType.FindsFields`), whichever way it came by the id.
-/

namespace Interlink

/-! ## Ids by place -/

namespace Field

variable {f : Field} {fields before after done : List Field}
  {numbered : List Entity.Field} {owner : String} {m m' : Malformation}
  {fault : CompileError}

/-- How many fields of a list have no id. -/
def idless (fields : List Field) : Nat := (fields.filter fun f => f.id.isNone).length

theorem idless_nil : idless [] = 0 := rfl

theorem idless_append (fields fields' : List Field) :
    idless (fields ++ fields') = idless fields + idless fields' := by
  rw [idless, List.filter_append, List.length_append]
  rfl

theorem idless_cons_of_some {id : Int16} (hid : f.id = some id) :
    idless (f :: fields) = idless fields := by
  rw [idless, List.filter_cons_of_neg (by simp [hid])]
  rfl

theorem idless_cons_of_none (hid : f.id = none) :
    idless (f :: fields) = idless fields + 1 := by
  rw [idless, List.filter_cons_of_pos (by simp [hid])]
  rfl

/-- **Ids by place.** A field keeps the id that it has, and the `n`-th field without one
has the id `-n`. -/
structure IdsByPlace (fields : List Field) (numbered : List Entity.Field) : Prop where
  /-- There is nothing left out and nothing added. -/
  length : numbered.length = fields.length
  /-- An id that is given is kept. -/
  given : ∀ (k : Nat) (f : Field) (g : Entity.Field) (id : Int16),
    fields[k]? = some f → numbered[k]? = some g → f.id = some id → g.id = id
  /-- The others are counted. -/
  counted : ∀ (k : Nat) (f : Field) (g : Entity.Field),
    fields[k]? = some f → numbered[k]? = some g → f.id = none →
      g.id.toInt = -(idless (fields.take (k + 1)) : Int)

theorem length_ids (used : Nat) (fields : List Field) :
    (ids used fields).length = fields.length := by
  induction fields generalizing used with
  | nil => rfl
  | cons f fields ih =>
    rw [ids]
    cases f.id with
    | some id => exact congrArg (· + 1) (ih used)
    | none => exact congrArg (· + 1) (ih (used + 1))

/-- **The id at a place** of a list, when `used` ids are gone. -/
theorem getElem?_ids (used : Nat) (fields : List Field) (k : Nat) :
    (ids used fields)[k]? = fields[k]?.map fun f =>
      (f.id.map Int16.toInt).getD (-(used + idless (fields.take (k + 1)) : Nat)) := by
  -- the first field is among those counted at every place: what it adds goes to `used`
  induction fields generalizing used k with
  | nil => rfl
  | cons f fields ih =>
    rw [ids, List.take_succ_cons]
    cases hid : f.id with
    | some id =>
      rw [idless_cons_of_some hid]
      cases k with
      | zero => simp [hid]
      | succ k => exact ih used k
    | none =>
      rw [idless_cons_of_none hid, Nat.add_comm (idless _), ← Nat.add_assoc]
      cases k with
      | zero => simp [hid, idless_nil]
      | succ k => exact ih (used + 1) k

/-- Counting gives the id at a place. -/
theorem id_of_map_eq_ids (h : numbered.map (fun g => g.id.toInt) = ids 0 fields) {k : Nat}
    {g : Entity.Field} (hf : fields[k]? = some f) (hg : numbered[k]? = some g) :
    g.id.toInt = (f.id.map Int16.toInt).getD (-(idless (fields.take (k + 1)) : Nat)) := by
  have hplace := getElem?_ids 0 fields k
  rw [← h, List.getElem?_map, hf, hg, Nat.zero_add] at hplace
  exact Option.some.inj hplace

/-- Ids by place are those that counting gives. -/
theorem IdsByPlace.map_id (h : IdsByPlace fields numbered) :
    numbered.map (fun g => g.id.toInt) = ids 0 fields := by
  refine List.ext_getElem? fun k => ?_
  rw [List.getElem?_map, getElem?_ids, Nat.zero_add]
  cases hf : fields[k]? with
  | none =>
    rw [List.getElem?_eq_none_iff, ← h.length, ← List.getElem?_eq_none_iff] at hf
    rw [hf]
    rfl
  | some f =>
    have hk : k < numbered.length := by
      rw [h.length]
      exact (List.getElem?_eq_some_iff.mp hf).1
    have hg : numbered[k]? = some numbered[k] := List.getElem?_eq_getElem hk
    rw [hg, Option.map_some, Option.map_some]
    cases hid : f.id with
    | some id =>
      rw [h.given k f _ id hf hg hid]
      rfl
    | none =>
      rw [h.counted k f _ hf hg hid]
      rfl

/-- **Counting gives ids by place**, and nothing else does. -/
theorem idsByPlace_iff :
    IdsByPlace fields numbered ↔ numbered.map (fun g => g.id.toInt) = ids 0 fields := by
  refine ⟨IdsByPlace.map_id, fun h => ⟨?_, ?_, ?_⟩⟩
  · rw [← length_ids 0 fields, ← h, List.length_map]
  · intro k f g id hf hg hid
    have hplace := id_of_map_eq_ids h hf hg
    rw [hid] at hplace
    exact Int16.toInt_inj.mp hplace
  · intro k f g hf hg hid
    have hplace := id_of_map_eq_ids h hf hg
    rw [hid] at hplace
    exact hplace

/-! ## Where numbering stops -/

/-- **A field stops the numbering**, when others came before it: it has no name, or it is
one too many without an id. -/
inductive Stops (before : List Field) (f : Field) : Malformation → Prop
  | nameless (unnamed : f.name = "") : Stops before f .emptyFieldName
  | surplus (named : f.name ≠ "") (without : f.id = none)
      (gone : idless before = 32768) : Stops before f .tooManyFields

/-- **Numbering stops at a field of a list**: it is reached, and it stops it. -/
def StopsAt (fields : List Field) (f : Field) (m : Malformation) : Prop :=
  ∃ before after, fields = before ++ f :: after ∧ Numberable before ∧ Stops before f m

theorem Stops.unique (h : Stops before f m) (h' : Stops before f m') : m = m' := by
  cases h with
  | nameless unnamed =>
    cases h' with
    | nameless => rfl
    | surplus named => exact absurd unnamed named
  | surplus named =>
    cases h' with
    | nameless unnamed => exact absurd unnamed named
    | surplus => rfl

theorem Stops.not_numberable (h : Stops before f m) :
    ¬ Numberable (before ++ f :: after) := by
  intro hall
  cases h with
  | nameless unnamed =>
    exact hall.named f (List.mem_append_right _ List.mem_cons_self) unnamed
  | surplus _ without gone =>
    have hfew : idless (before ++ f :: after) ≤ 32768 := hall.few
    rw [idless_append, idless_cons_of_none without] at hfew
    omega

/-- What can be numbered can be numbered up to a place. -/
theorem Numberable.left (h : Numberable (before ++ after)) : Numberable before := by
  refine ⟨fun f hf => h.named f (List.mem_append_left _ hf), ?_⟩
  have hfew : idless (before ++ after) ≤ 32768 := h.few
  rw [idless_append] at hfew
  exact (Nat.le_add_right _ _).trans hfew

/-- **What one field can do** after others that were numbered: it stops the numbering, or
it gets an id and the numbering goes on. -/
theorem numberFields_step (owner : String) (hdone : Numberable done) (f : Field)
    (fields : List Field) :
    (∃ m, Stops done f m
        ∧ numberFields owner (idless done) (f :: fields)
          = .error (.invalid owner f.span m))
      ∨ Numberable (done ++ [f])
        ∧ ∃ id, numberFields owner (idless done) (f :: fields)
          = (f.withId id :: ·) <$> numberFields owner (idless (done ++ [f])) fields := by
  have hfew : idless done ≤ 32768 := hdone.few
  have hcount := idless_append done [f]
  by_cases hname : f.name = ""
  · exact .inl ⟨_, .nameless hname, by simp [numberFields, hname]⟩
  have hnamed : ∀ g ∈ done ++ [f], g.name ≠ "" :=
    List.forall_mem_append.mpr ⟨hdone.named, List.forall_mem_singleton.mpr hname⟩
  cases hid : f.id with
  | some id =>
    rw [idless_cons_of_some hid, idless_nil] at hcount
    refine .inr ⟨⟨hnamed, hcount.le.trans hfew⟩, id, ?_⟩
    rw [numberFields_cons_some hname hid, hcount, Nat.add_zero]
  | none =>
    rw [idless_cons_of_none hid, idless_nil] at hcount
    by_cases hleft : idless done < 0x8000
    · refine .inr ⟨⟨hnamed, hcount.le.trans hleft⟩,
        .ofInt (-(idless done + 1 : Nat)), ?_⟩
      rw [numberFields_cons_none hname hid hleft, hcount]
    · exact .inl ⟨_, .surplus hname hid (by omega),
        by simp [numberFields, hname, hid, hleft]⟩

theorem exists_stops (hdone : Numberable done)
    (herr : numberFields owner (idless done) fields = .error fault) :
    ∃ f m, StopsAt (done ++ fields) f m ∧ fault = .invalid owner f.span m := by
  -- `done` is what has been numbered so far, and grows by a field with each step
  induction fields generalizing done with
  | nil => cases herr
  | cons f fields ih =>
    rcases numberFields_step owner hdone f fields with
      ⟨m, hstops, hfault⟩ | ⟨hdone', id, hrest⟩
    · rw [hfault] at herr
      cases herr
      exact ⟨f, m, ⟨done, fields, rfl, hdone, hstops⟩, rfl⟩
    · rw [hrest] at herr
      rw [List.append_cons]
      exact ih hdone' (map_eq_error.mp herr)

theorem numberFields_of_stops (owner : String) (after : List Field)
    (hbefore : Numberable (done ++ before)) (hstops : Stops (done ++ before) f m) :
    numberFields owner (idless done) (before ++ f :: after)
      = .error (.invalid owner f.span m) := by
  induction before generalizing done with
  | nil =>
    rw [List.append_nil] at hbefore hstops
    rcases numberFields_step owner hbefore f after with
      ⟨m', hstops', hfault⟩ | ⟨hnot, -⟩
    · rw [hstops.unique hstops']
      exact hfault
    · exact absurd hnot hstops.not_numberable
  | cons g before ih =>
    rcases numberFields_step owner hbefore.left g (before ++ f :: after) with
      ⟨m', hstops', -⟩ | ⟨-, id, hrest⟩
    · exact absurd hbefore hstops'.not_numberable
    · rw [List.append_cons] at hbefore hstops
      rw [List.cons_append, hrest, ih hbefore hstops]
      rfl

/-- **Numbering the fields of a list fails** exactly if it comes to a field that stops it,
and reports that one. -/
theorem numberFields_eq_error_iff :
    numberFields owner 0 fields = .error fault ↔
      ∃ f m, StopsAt fields f m ∧ fault = .invalid owner f.span m := by
  have hnothing : Numberable [] :=
    ⟨fun f hf => absurd hf List.not_mem_nil, Nat.zero_le _⟩
  constructor
  · intro herr
    exact exists_stops hnothing herr
  · rintro ⟨f, m, ⟨before, after, rfl, hbefore, hstops⟩, rfl⟩
    have hreached : Numberable ([] ++ before) := hbefore
    exact numberFields_of_stops owner after hreached hstops

/-- **Numbering the fields of a list succeeds** with the fields in their order, and ids by
place. -/
theorem numberFields_eq_ok_iff_byPlace :
    numberFields owner 0 fields = .ok numbered ↔
      (∀ f ∈ fields, f.name ≠ "")
        ∧ List.Forall₂ (fun f g => g = f.withId g.id) fields numbered
        ∧ IdsByPlace fields numbered := by
  rw [numberFields_eq_ok, idsByPlace_iff]
  exact and_congr_right fun _ => ⟨fun h => ⟨h.each, h.ids⟩, fun h => ⟨h.1, h.2⟩⟩

end Field

/-! ## Fields that are found -/

/-- **The fields of a struct are found**, and nothing else is. -/
structure StructType.FindsFields (t : StructType) : Prop where
  /-- The names are different. -/
  names : (t.fields.map Entity.Field.name).Nodup
  /-- The ids are different. -/
  ids : (t.fields.map Entity.Field.id).Nodup
  /-- What is found by a name is the field that has it. -/
  byName : ∀ (name : String) (f : Entity.Field),
    t.field? name = some f ↔ f ∈ t.fields ∧ f.name = name
  /-- What is found by an id is the field that has it. -/
  byId : ∀ (id : Int16) (f : Entity.Field),
    t.fieldById? id = some f ↔ f ∈ t.fields ∧ f.id = id

/-- Fields that are told apart are found. -/
theorem Entity.Field.ToldApart.findsFields {t : StructType} {kind : StructKind}
    (h : Entity.Field.ToldApart kind t.fields) : t.FindsFields where
  names := h.names
  ids := h.ids
  byName := find?_eq_some_iff_of_nodup h.names
  byId := find?_eq_some_iff_of_nodup h.ids

namespace Document

/-- The fields of a struct of a compiled scope are those of its definition, with ids by
place. -/
theorem exists_fields_of_compile {d : Document} {name : String} {c : Compiled}
    {t : StructType} {e : Entity} (hok : d.compile name = .ok c)
    (ht : t.Stands c.scope e) :
    ∃ fields, d.Defines t.name (.struct t.kind fields)
      ∧ List.Forall₂ Field.DeclaredAs fields t.fields
      ∧ Field.IdsByPlace fields t.fields := by
  obtain ⟨x, hx, hdeclared⟩ := (stage_of_compile hok).models.exists_defines ht.entity
  rw [ht.body] at hdeclared
  rw [ht.name] at hx
  cases hdeclared with | @struct _ fields _ hfields =>
  exact ⟨fields, hx, hfields.each, Field.idsByPlace_iff.mpr hfields.ids⟩

/-- **Fields are numbered by their place, and found by their ids.** Numbering the fields of
a list gives the `n`-th one without an id the id `-n` and leaves the rest as it is; it fails
at a field without a name, or for want of an id at the 32769th field without one, whichever
is reached first. In every struct, union and exception of a compiled document names and ids
are different, and each field is found by its own. -/
theorem fields_numbered_and_found :
    (∀ (owner : String) (fields : List Field),
      (∀ numbered, numberFields owner 0 fields = .ok numbered ↔
        (∀ f ∈ fields, f.name ≠ "")
          ∧ List.Forall₂ (fun f g => g = f.withId g.id) fields numbered
          ∧ Field.IdsByPlace fields numbered)
      ∧ ∀ fault, numberFields owner 0 fields = .error fault ↔
        ∃ f m, Field.StopsAt fields f m ∧ fault = .invalid owner f.span m)
    ∧ ∀ (d : Document) (name : String) (c : Compiled), d.compile name = .ok c →
      ∀ (id : EntityId) (e : Entity) (t : StructType), c.scope.entity? id = some e →
        e.structType? id = some t →
        t.FindsFields
        ∧ ∃ fields, d.Defines t.name (.struct t.kind fields)
          ∧ List.Forall₂ Field.DeclaredAs fields t.fields
          ∧ Field.IdsByPlace fields t.fields := by
  refine ⟨fun owner fields => ⟨fun numbered => Field.numberFields_eq_ok_iff_byPlace,
    fun fault => Field.numberFields_eq_error_iff⟩, ?_⟩
  intro d name c hok id e t he ht
  have hstands := StructType.stands_of_entity he ht
  have happart := tellsApart_of_compile hok _ _ _ _ hstands.entity hstands.body
  exact ⟨happart.findsFields, exists_fields_of_compile hok hstands⟩

/-- A document with a struct in which given ids, one of them negative, stand between others
that are left to be counted. -/
def mixed : Document where
  headers := []
  definitions :=
    [⟨"Mixed", ⟨1, 1⟩, .struct .struct
        [⟨some (-5), "a", .primitive .i32, .unmarked, none, ⟨2, 3⟩⟩,
          ⟨none, "b", .primitive .i32, .unmarked, none, ⟨3, 3⟩⟩,
          ⟨some 3, "c", .primitive .i32, .unmarked, none, ⟨4, 3⟩⟩,
          ⟨none, "d", .primitive .i32, .unmarked, none, ⟨5, 3⟩⟩]⟩]

/-- The last field of the struct. -/
def mixedLast : Entity.Field :=
  ⟨-2, "d", .primitive .i32, .unmarked, none, none, ⟨5, 3⟩⟩

/-- The struct. -/
def mixedStruct : StructType where
  id := 0
  name := "Mixed"
  span := ⟨1, 1⟩
  kind := .struct
  fields :=
    [⟨-5, "a", .primitive .i32, .unmarked, none, none, ⟨2, 3⟩⟩,
      ⟨-1, "b", .primitive .i32, .unmarked, none, none, ⟨3, 3⟩⟩,
      ⟨3, "c", .primitive .i32, .unmarked, none, none, ⟨4, 3⟩⟩, mixedLast]

def mixedScope : Scope where
  name := "mixed"
  entities := [⟨"Mixed", ⟨1, 1⟩, true, .struct .struct mixedStruct.fields⟩]
  symbols := [("Mixed", 0)]

section

open Evaluation

theorem compile_mixed : mixed.compile "mixed" = .ok ⟨mixedScope, []⟩ := by
  simp [mixed, mixedScope, mixedStruct, mixedLast]

end

/-- A field that is left to be counted. -/
def plainField : Field := ⟨none, "x", .primitive .bool, .unmarked, none, ⟨1, 1⟩⟩

/-- The last field of the struct is the second one that is counted, and is found by the id
`-2`. One field more than there are negative ids cannot be numbered. -/
theorem fields_numbered_and_found_mixed :
    (∃ e, mixed.compile "mixed" = .ok ⟨mixedScope, []⟩ ∧ mixedScope.entity? 0 = some e
      ∧ e.structType? 0 = some mixedStruct ∧ mixedStruct.FindsFields
      ∧ mixedStruct.fieldById? (-2) = some mixedLast)
    ∧ numberFields "Wide" 0 (List.replicate 32769 plainField)
      = .error (.invalid "Wide" ⟨1, 1⟩ .tooManyFields) := by
  obtain ⟨hnumbered, hfound⟩ := fields_numbered_and_found
  have hfinds := (hfound mixed "mixed" _ compile_mixed 0 _ mixedStruct rfl rfl).1
  have hlast : mixedStruct.fieldById? (-2) = some mixedLast :=
    (hfinds.byId (-2) mixedLast).mpr ⟨by simp [mixedStruct], rfl⟩
  refine ⟨⟨_, compile_mixed, rfl, rfl, hfinds, hlast⟩, ?_⟩
  refine ((hnumbered "Wide" _).2 _).mpr ⟨plainField, _, ?_, rfl⟩
  have hcount : Field.idless (List.replicate 32768 plainField) = 32768 := by
    rw [Field.idless, List.filter_replicate, if_pos (by decide), List.length_replicate]
  refine ⟨List.replicate 32768 plainField, [], List.replicate_succ', ⟨?_, hcount.le⟩,
    .surplus (by decide) rfl hcount⟩
  intro f hf
  rw [List.eq_of_mem_replicate hf]
  decide

end Document

end Interlink
