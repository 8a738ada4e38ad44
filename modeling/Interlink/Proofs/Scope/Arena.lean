import Interlink.Link.Pass
import Interlink.Proofs.Scope.Erase

/-!
# Names and handles

In a scope that was filled by declaring, the table of symbols lists the names
of the entities in their order, and no name is there twice
(`Scope.IsArena`). A name and a handle then say the same thing, and all
look-ups are statements about `Scope.entity?`
(`IsArena.named?_eq_some`, `IsArena.targetOf_eq_ok`).

Linking changes a scope by giving one entity another body, or by marking one
as resolved. Neither changes the erasure, if the erasure of the body is kept,
and all that is said here of names and handles depends on the erasure only.
-/

namespace Interlink.Scope

variable {s s' : Scope} {id : EntityId} {e : Entity}

/-! ## Entities -/

@[simp] theorem entity?_erase (s : Scope) (id : EntityId) :
    s.erase.entity? id = (s.entity? id).map Entity.erase :=
  List.getElem?_map

/-- Scopes with the same erasure have entities with the same erasure. -/
theorem exists_entity?_of_erase_eq (h : s'.erase = s.erase)
    (he : s.entity? id = some e) :
    ∃ e', s'.entity? id = some e' ∧ e'.erase = e.erase := by
  have hmap : (s'.entity? id).map Entity.erase = some e.erase := by
    rw [← entity?_erase, h, entity?_erase, he, Option.map_some]
  exact Option.map_eq_some_iff.mp hmap

/-- Only the entity that gets another body is another one. -/
theorem entity?_setBody (s : Scope) (id : EntityId) (b : Entity.Body)
    (j : EntityId) :
    (s.setBody id b).entity? j
      = if id = j then (s.entity? j).map fun e => { e with body := b }
        else s.entity? j := by
  unfold setBody entity?
  rw [List.getElem?_modify]
  split
  · rfl
  · exact Option.map_id_apply

/-- Only the entity that is marked is another one. -/
theorem entity?_resolve (s : Scope) (id j : EntityId) :
    (s.resolve id).entity? j
      = if id = j then (s.entity? j).map fun e => { e with resolved := true }
        else s.entity? j := by
  unfold resolve entity?
  rw [List.getElem?_modify]
  split
  · rfl
  · exact Option.map_id_apply

/-- A body with the same erasure leaves the scope with the same erasure. -/
theorem erase_setBody {b : Entity.Body} (he : s.entity? id = some e)
    (hb : b.erase = e.body.erase) : (s.setBody id b).erase = s.erase := by
  have hentities : (s.setBody id b).entities.map Entity.erase
      = s.entities.map Entity.erase := by
    refine List.ext_getElem? fun j => ?_
    have hj := entity?_setBody s id b j
    unfold entity? at hj he
    rw [List.getElem?_map, List.getElem?_map, hj]
    by_cases hij : id = j
    · subst hij
      rw [if_pos rfl, he]
      exact congrArg (fun x => some (Entity.mk e.name e.span false x)) hb
    · rw [if_neg hij]
  unfold erase
  rw [hentities]
  rfl

theorem erase_resolve (s : Scope) (id : EntityId) :
    (s.resolve id).erase = s.erase := by
  have hentities : (s.resolve id).entities.map Entity.erase
      = s.entities.map Entity.erase := by
    refine List.ext_getElem? fun j => ?_
    have hj := entity?_resolve s id j
    unfold entity? at hj
    rw [List.getElem?_map, List.getElem?_map, hj]
    split
    · cases s.entities[j]? <;> rfl
    · rfl
  unfold erase
  rw [hentities]
  rfl

theorem erase_resolveAll (s : Scope) (ids : List EntityId) :
    (s.resolveAll ids).erase = s.erase := by
  induction ids generalizing s with
  | nil => rfl
  | cons id ids ih => exact (ih (s.resolve id)).trans (erase_resolve s id)

/-- **Marking several entities** marks those, and changes nothing else. -/
theorem entity?_resolveAll (s : Scope) (ids : List EntityId) (j : EntityId) :
    (s.resolveAll ids).entity? j
      = if j ∈ ids then (s.entity? j).map fun e => { e with resolved := true }
        else s.entity? j := by
  induction ids generalizing s with
  | nil => rfl
  | cons id ids ih =>
    show ((s.resolve id).resolveAll ids).entity? j = _
    rw [ih, entity?_resolve]
    by_cases hid : id = j
    · subst hid
      cases s.entity? id <;> simp
    · have hne : j ≠ id := fun h => hid h.symm
      simp [hid, hne]

/-- The handles of some kinds are a matter of the erasure. -/
theorem idsOf_erase (s : Scope) (kinds : Entity.Kind → Bool) :
    s.erase.idsOf kinds = s.idsOf kinds := by
  unfold idsOf declared
  have hsymbols : s.erase.symbols = s.symbols := rfl
  simp only [hsymbols, entity?_erase]
  generalize s.symbols = symbols
  induction symbols with
  | nil => rfl
  | cons symbol symbols ih =>
    simp only [List.filterMap_cons]
    cases s.entity? symbol.2 with
    | none => exact ih
    | some e =>
      simp only [Option.map_some, List.filter_cons, Entity.erase_kind]
      split
      · exact congrArg (symbol.2 :: ·) ih
      · exact ih

theorem idsOf_eq_of_erase_eq (h : s'.erase = s.erase)
    (kinds : Entity.Kind → Bool) : s'.idsOf kinds = s.idsOf kinds := by
  rw [← idsOf_erase, h, idsOf_erase]

/-! ## Arenas -/

/-- **Every symbol has the handle of an entity**, whatever the name of the
entity is. -/
def SymbolsHeld (s : Scope) : Prop := ∀ x ∈ s.symbols, ∃ e, s.entity? x.2 = some e

/-- The handle of a name is that of an entity. -/
theorem SymbolsHeld.exists_entity (h : s.SymbolsHeld) {name : String}
    (hid : s.id? name = some id) : ∃ e, s.entity? id = some e :=
  h (name, id) (mem_of_lookup_eq_some hid)

/-- **Names and handles agree**: the symbols are the names of the entities with
their places, and the names are different. -/
structure IsArena (s : Scope) : Prop where
  /-- The symbols are the names with their places. -/
  symbols : s.symbols = s.entities.mapIdx fun i e => (e.name, i)
  /-- The names are different. -/
  distinct : (s.entities.map Entity.name).Nodup

/-- Whether names and handles agree is a matter of the erasure. -/
theorem isArena_erase : s.erase.IsArena ↔ s.IsArena := by
  have hnames : (s.entities.map Entity.erase).map Entity.name
      = s.entities.map Entity.name := by
    rw [List.map_map]
    rfl
  have hsymbols : ((s.entities.map Entity.erase).mapIdx fun i e => (e.name, i))
      = s.entities.mapIdx fun i e => (e.name, i) := by
    refine List.ext_getElem? fun i => ?_
    simp only [List.getElem?_mapIdx, List.getElem?_map, Option.map_map]
    rfl
  constructor
  · intro h
    exact ⟨h.symbols.trans hsymbols, hnames ▸ h.distinct⟩
  · intro h
    exact ⟨h.symbols.trans hsymbols.symm, hnames.symm ▸ h.distinct⟩

namespace IsArena

theorem of_erase_eq (h : s.IsArena) (heq : s'.erase = s.erase) : s'.IsArena :=
  isArena_erase.mp (heq ▸ isArena_erase.mpr h)

theorem map_symbols (h : s.IsArena) :
    s.symbols.map Prod.fst = s.entities.map Entity.name := by
  rw [h.symbols]
  refine List.ext_getElem? fun i => ?_
  simp only [List.getElem?_mapIdx, List.getElem?_map, Option.map_map]
  rfl

/-- **The handle of a name** is the place of the entity with that name. -/
theorem id?_eq_some (h : s.IsArena) {name : String} :
    s.id? name = some id ↔ ∃ e, s.entity? id = some e ∧ e.name = name := by
  unfold id?
  rw [lookup_eq_some_iff_mem (h.map_symbols ▸ h.distinct), h.symbols,
    List.mem_mapIdx]
  unfold entity?
  constructor
  · rintro ⟨i, hi, heq⟩
    obtain ⟨rfl, rfl⟩ := Prod.mk.inj heq
    exact ⟨s.entities[i], List.getElem?_eq_getElem hi, rfl⟩
  · rintro ⟨e, he, rfl⟩
    obtain ⟨hi, rfl⟩ := List.getElem?_eq_some_iff.mp he
    exact ⟨id, hi, rfl⟩

theorem symbolsHeld (h : s.IsArena) : s.SymbolsHeld := by
  intro x hx
  rw [h.symbols, List.mem_mapIdx] at hx
  obtain ⟨i, hi, rfl⟩ := hx
  exact ⟨s.entities[i], List.getElem?_eq_getElem hi⟩

/-- **The entity of a name** is the one that has it. -/
theorem named?_eq_some (h : s.IsArena) {name : String} :
    s.named? name = some (id, e) ↔ s.entity? id = some e ∧ e.name = name := by
  unfold named?
  simp only [Option.bind_eq_some_iff, Option.map_eq_some_iff, Prod.mk.injEq,
    h.id?_eq_some]
  constructor
  · rintro ⟨i, ⟨e', he', hname⟩, e'', he'', rfl, rfl⟩
    rw [he'] at he''
    cases he''
    exact ⟨he', hname⟩
  · rintro ⟨he, hname⟩
    exact ⟨id, ⟨e, he, hname⟩, e, he, rfl, rfl⟩

theorem entity?_inj (h : s.IsArena) {j : EntityId} {f : Entity}
    (he : s.entity? id = some e) (hf : s.entity? j = some f)
    (hname : e.name = f.name) : id = j ∧ e = f := by
  have hid := h.named?_eq_some.mpr ⟨he, hname⟩
  have hj := h.named?_eq_some.mpr ⟨hf, rfl⟩
  rw [hid] at hj
  exact Prod.mk.inj (Option.some.inj hj)

/-- **What a type reference means**: the entity with its name. If the reference
is bound, it must be bound to that entity. -/
theorem targetOf_eq_ok (h : s.IsArena) {r : Reference EntityId}
    {referrer : String} :
    s.targetOf r referrer = .ok (id, e) ↔
      s.entity? id = some e ∧ e.name = r.name
        ∧ (r.target = none ∨ r.target = some id) := by
  unfold targetOf lookup
  cases htarget : r.target with
  | none =>
    rw [← and_assoc, ← h.named?_eq_some]
    cases s.named? r.name <;> simp
  | some j =>
    dsimp only
    cases hj : s.entity? j with
    | none =>
      simp only [reduceCtorEq, false_or, Option.some.injEq, false_iff]
      rintro ⟨he, -, rfl⟩
      rw [hj] at he
      cases he
    | some f =>
      simp only [reduceCtorEq, false_or, Option.some.injEq]
      by_cases hname : f.name = r.name
      · rw [if_pos hname, Except.ok.injEq, Prod.mk.injEq]
        constructor
        · rintro ⟨rfl, rfl⟩
          exact ⟨hj, hname, rfl⟩
        · rintro ⟨he, -, rfl⟩
          rw [hj] at he
          exact ⟨rfl, Option.some.inj he⟩
      · rw [if_neg hname]
        simp only [reduceCtorEq, false_iff]
        rintro ⟨he, hename, rfl⟩
        rw [hj] at he
        cases he
        exact hname hename

/-- **The handles of some kinds** are those of the entities of these kinds. -/
theorem mem_idsOf (h : s.IsArena) {kinds : Entity.Kind → Bool} :
    id ∈ s.idsOf kinds ↔ ∃ e, s.entity? id = some e ∧ kinds e.kind = true := by
  unfold idsOf declared
  simp only [List.mem_map, List.mem_filter, List.mem_filterMap,
    Option.map_eq_some_iff, h.symbols, List.mem_mapIdx]
  constructor
  · rintro ⟨⟨i, e⟩, ⟨⟨⟨name, j⟩, -, e', he', heq⟩, hkind⟩, rfl⟩
    obtain ⟨rfl, rfl⟩ := Prod.mk.inj heq
    exact ⟨e', he', hkind⟩
  · rintro ⟨e, he, hkind⟩
    obtain ⟨hi, rfl⟩ := List.getElem?_eq_some_iff.mp he
    exact ⟨(id, s.entities[id]), ⟨⟨(s.entities[id].name, id), ⟨id, hi, rfl⟩,
      s.entities[id], he, rfl⟩, hkind⟩, rfl⟩

/-- The symbols list all entities, in their order. -/
theorem declared_eq (h : s.IsArena) :
    s.declared = s.entities.mapIdx fun i e => (i, e) := by
  unfold declared
  rw [h.symbols, List.mapIdx_eq_zipIdx_map, List.mapIdx_eq_zipIdx_map,
    List.filterMap_map, ← List.filterMap_eq_map]
  refine List.filterMap_congr fun x hx => ?_
  have hheld : s.entity? x.2 = some x.1 := List.mem_zipIdx_iff_getElem?.mp hx
  simp [hheld]

theorem nodup_idsOf (h : s.IsArena) (kinds : Entity.Kind → Bool) :
    (s.idsOf kinds).Nodup := by
  have hids : s.declared.map Prod.fst = List.range s.entities.length := by
    rw [h.declared_eq]
    refine List.ext_getElem (by simp) fun i hi hi' => ?_
    simp
  refine List.Nodup.sublist (List.filter_sublist.map Prod.fst) ?_
  exact hids ▸ List.nodup_range

end IsArena

/-- Looking up a name succeeds when it is the name of an entity. -/
theorem lookup_eq_ok {name referrer : String} {span : Span} :
    s.lookup name span referrer = .ok (id, e) ↔ s.named? name = some (id, e) := by
  unfold lookup
  cases s.named? name <;> simp

theorem isArena_empty (name : String) : (empty name).IsArena :=
  ⟨rfl, List.nodup_nil⟩

end Interlink.Scope
