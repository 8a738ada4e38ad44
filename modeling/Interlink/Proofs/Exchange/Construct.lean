import Interlink.Proofs.Exchange.Inferred
import Interlink.Proofs.Exchange.Stable

/-!
# Structs that are built

A struct can be built from values for its fields, and it can be received from what
was sent for them. Building goes by the names that are given and then over the
declared fields, to give those that are not set their defaults. Receiving goes over
the declared fields once and takes each from what was sent, by its id.

A struct that is built can be sent as what it is, and tells that type of itself
(`StructType.Stands.exists_toWire`, `StructType.Stands.inferType`). And building from
values comes to the same as receiving what is sent for them (`StructType.Matches`).
The reason is that a field which is not set has one thing to become, wherever it is
found missing (`Entity.Field.unset`): field by field the two fail alike, and so they
fail at the same field.
-/

namespace Interlink

/-! ## Tables -/

/-- Looking up in a table in which what stands under a name was replaced. -/
theorem lookup_replace {α : Type} (table : List (String × α)) (name : String) (a : α)
    (n : String) :
    (table.map fun entry => if entry.1 == name then (name, a) else entry).lookup n
      = if n = name then (table.lookup n).map fun _ => a else table.lookup n := by
  induction table with
  | nil => cases decEq n name <;> simp
  | cons entry table ih =>
    obtain ⟨key, b⟩ := entry
    rw [List.map_cons, List.lookup_cons, List.lookup_cons, ih]
    by_cases hkey : key = name
    · subst hkey
      by_cases hn : n = key
      · simp [hn]
      · simp [hn, beq_false_of_ne hn]
    · by_cases hn : n = name
      · subst hn
        simp [hkey, beq_false_of_ne (Ne.symm hkey)]
      · simp [hkey, hn]

/-- **What is set is found under its name**, and the rest as it was. -/
theorem lookup_put {α : Type} (table : List (String × α)) (name : String) (a : α)
    (n : String) :
    (put table name a).lookup n = if n = name then some a else table.lookup n := by
  by_cases hmem : name ∈ table.map Prod.fst
  · have hany : (table.any fun entry => entry.1 == name) = true := by
      obtain ⟨entry, hentry, heq⟩ := List.mem_map.mp hmem
      exact List.any_eq_true.mpr ⟨entry, hentry, beq_iff_eq.mpr heq⟩
    obtain ⟨b, hb⟩ := Option.isSome_iff_exists.mp (lookup_isSome_iff_mem.mpr hmem)
    unfold put
    rw [if_pos hany, lookup_replace]
    by_cases hn : n = name
    · rw [if_pos hn, if_pos hn, hn, hb]
      rfl
    · rw [if_neg hn, if_neg hn]
  · rw [put_of_notMem hmem, List.lookup_append, List.lookup_cons]
    by_cases hn : n = name
    · have hnone : table.lookup name = none := by
        rw [← Option.not_isSome_iff_eq_none, lookup_isSome_iff_mem]
        exact hmem
      rw [if_pos hn, hn, hnone, beq_self_eq_true]
      rfl
    · rw [if_neg hn, beq_eq_false_iff_ne.mpr hn]
      cases table.lookup n <;> rfl

/-- Entries that are offered have the keys of those that offer them, in their order. -/
theorem sublist_reduceOption {κ α β : Type} {key : α → κ} {xs : List α}
    {offers : List (Option (κ × β))}
    (hkey : List.Forall₂ (fun x o => ∀ entry ∈ o, entry.1 = key x) xs offers) :
    (offers.reduceOption.map Prod.fst).Sublist (xs.map key) := by
  induction hkey with
  | nil => exact .slnil
  | @cons x o xs offers hx _ ih =>
    cases o with
    | none =>
      rw [List.reduceOption_cons_of_none]
      exact .cons _ ih
    | some entry =>
      rw [List.reduceOption_cons_of_some, List.map_cons, List.map_cons, hx entry rfl]
      exact .cons_cons _ ih

/-- Entries that are offered under different keys have different keys. -/
theorem nodup_reduceOption {κ α β : Type} {key : α → κ} {xs : List α}
    (distinct : (xs.map key).Nodup) {offers : List (Option (κ × β))}
    (hkey : List.Forall₂ (fun x o => ∀ entry ∈ o, entry.1 = key x) xs offers) :
    (offers.reduceOption.map Prod.fst).Nodup :=
  (sublist_reduceOption hkey).nodup distinct

/-- **Two tables have the same names** if they have the same ones of those that they
may have. -/
theorem mem_names_iff {α β : Type} {names : List String} {xs : List (String × α)}
    {ys : List (String × β)} (hxs : ∀ x ∈ xs, x.1 ∈ names) (hys : ∀ y ∈ ys, y.1 ∈ names)
    (h : ∀ name ∈ names, (xs.lookup name).isSome = (ys.lookup name).isSome) (name : String) :
    name ∈ xs.map Prod.fst ↔ name ∈ ys.map Prod.fst := by
  rw [← lookup_isSome_iff_mem, ← lookup_isSome_iff_mem]
  by_cases hname : name ∈ names
  · rw [h name hname]
  · have hnot : ∀ {γ : Type} {table : List (String × γ)}, (∀ x ∈ table, x.1 ∈ names) →
        ¬ (table.lookup name).isSome = true := by
      intro γ table htable hsome
      obtain ⟨x, hx, rfl⟩ := List.mem_map.mp (lookup_isSome_iff_mem.mp hsome)
      exact hname (htable x hx)
    exact iff_of_false (hnot hxs) (hnot hys)

/-- Tables of the same names, each once, have the same length. -/
theorem length_eq_of_names {α β : Type} {xs : List (String × α)} {ys : List (String × β)}
    (hxs : (xs.map Prod.fst).Nodup) (hys : (ys.map Prod.fst).Nodup)
    (h : ∀ name, name ∈ xs.map Prod.fst ↔ name ∈ ys.map Prod.fst) :
    xs.length = ys.length := by
  have hperm := ((List.perm_ext_iff_of_nodup hxs hys).mpr h).length_eq
  simpa using hperm

/-! ## Fields that are not set -/

namespace Entity.Field

variable {f : Field} {typeName : String}

/-- **What a field that is not set becomes**: its default, or nothing, unless it is
required. -/
def unset (typeName : String) (f : Field) : Except ValueError (Option (String × Value)) :=
  match f.defaultValue with
  | some v => .ok (some (f.name, v))
  | none => if f.isRequired then .error (.missingField typeName f.name) else .ok none

/-- A field that is not set may be so if it has a default or is not required. -/
theorem unset_eq_ok {o : Option (String × Value)} :
    f.unset typeName = .ok o ↔
      o = f.defaultValue.map (fun v => (f.name, v))
        ∧ (f.defaultValue = none → f.isRequired = false) := by
  unfold unset
  cases f.defaultValue with
  | some v => simp [@eq_comm _ o]
  | none => cases f.isRequired <;> simp [@eq_comm _ o]

/-- A required field without a default has to be set. -/
theorem unset_eq_error {fault : ValueError} :
    f.unset typeName = .error fault ↔
      f.defaultValue = none ∧ f.isRequired = true
        ∧ fault = .missingField typeName f.name := by
  unfold unset
  cases f.defaultValue with
  | some v => simp
  | none => cases f.isRequired <;> simp [@eq_comm _ fault]

/-- **What is filled in for a declared field**: nothing if it is done. -/
def fill (typeName : String) (done : List (String × Value)) (f : Field) :
    Except ValueError (Option (String × Value)) :=
  match done.lookup f.name with
  | some _ => .ok none
  | none => f.unset typeName

/-- What is filled in for a field is its default, under its name, if it was not
done. -/
theorem of_mem_fill {done : List (String × Value)} {o : Option (String × Value)}
    (h : f.fill typeName done = .ok o) :
    ∀ entry ∈ o, entry.1 = f.name ∧ f.defaultValue = some entry.2
      ∧ done.lookup f.name = none := by
  unfold fill at h
  intro entry hentry
  split at h
  next =>
    cases h
    cases hentry
  next hnone =>
    obtain ⟨rfl, -⟩ := unset_eq_ok.mp h
    obtain ⟨v, hv, rfl⟩ := Option.map_eq_some_iff.mp hentry
    exact ⟨rfl, hv, hnone⟩

theorem receive_of_lookup_eq_none
    {received : List (Int16 × (Ty → Except ValueError Value))}
    (h : received.lookup f.id = none) : f.receive typeName received = f.unset typeName := by
  unfold receive
  rw [h]
  rfl

end Entity.Field

/-! ## Building -/

namespace StructType

variable {s : Scope} {t : StructType} {typeName : String} {declared : List Entity.Field}
  {done given : List (String × Value)}

/-- **Fields are filled in one by one.** What is filled in for one of them does not
count for the others, since they have other names. -/
theorem fillIn_eq_map (base : List (String × Value))
    (distinct : (declared.map Entity.Field.name).Nodup)
    (hbase : ∀ f ∈ declared, done.lookup f.name = base.lookup f.name) :
    fillIn typeName done declared =
      (fun filled => done ++ filled.reduceOption)
        <$> declared.mapM (Entity.Field.fill typeName base) := by
  induction declared generalizing done with
  | nil =>
    show Except.ok done = .ok (done ++ [])
    rw [List.append_nil]
  | cons f declared ih =>
    obtain ⟨hbasef, hbase⟩ := List.forall_mem_cons.mp hbase
    rw [List.map_cons, List.nodup_cons] at distinct
    have hrest := ih distinct.2 hbase
    -- a default goes behind what is done, under a name of its own
    have hput : base.lookup f.name = none → ∀ v,
        fillIn typeName (put done f.name v) declared
          = (fun filled => done ++ (f.name, v) :: filled.reduceOption)
            <$> declared.mapM (Entity.Field.fill typeName base) := by
      intro hnone v
      have hnew : f.name ∉ done.map Prod.fst := by
        rw [← lookup_isSome_iff_mem, hbasef, hnone]
        exact Bool.false_ne_true
      rw [ih distinct.2, put_of_notMem hnew]
      · simp only [List.append_assoc, List.cons_append, List.nil_append]
      · intro g hg
        have hne : g.name ≠ f.name := fun heq =>
          distinct.1 (heq ▸ List.mem_map_of_mem hg)
        rw [lookup_put, if_neg hne, hbase g hg]
    rw [fillIn, List.mapM_cons, hbasef]
    generalize declared.mapM (Entity.Field.fill typeName base) = others at hrest hput ⊢
    unfold Entity.Field.fill Entity.Field.unset
    cases hlookup : base.lookup f.name with
    | some v =>
      dsimp only
      rw [hrest]
      cases others <;> rfl
    | none =>
      dsimp only
      cases f.defaultValue with
      | some v =>
        dsimp only
        rw [hput hlookup]
        cases others <;> rfl
      | none =>
        cases f.isRequired with
        | true => rfl
        | false =>
          dsimp only
          rw [if_neg Bool.false_ne_true, hrest]
          cases others <;> rfl

/-- **Under the name of a declared field is what was done**, or else its default. -/
theorem lookup_filled {filled : List (Option (String × Value))}
    (distinct : (declared.map Entity.Field.name).Nodup)
    (each : List.Forall₂ (fun f o => f.fill typeName done = .ok o) declared filled)
    {f : Entity.Field} (hf : f ∈ declared) :
    (done ++ filled.reduceOption).lookup f.name = (done.lookup f.name).or f.defaultValue
      ∧ ((done ++ filled.reduceOption).lookup f.name = none → f.isRequired = false) := by
  have hfound := forall₂_lookup_reduceOption distinct
    (each.imp fun f o hfill entry hentry => (Entity.Field.of_mem_fill hfill entry hentry).1)
  obtain ⟨o, -, ho, hlookup⟩ := exists_left_of_forall₂_and each.flip hfound.flip hf
  rw [List.lookup_append, hlookup]
  unfold Entity.Field.fill at ho
  cases hdone : done.lookup f.name with
  | some v => exact ⟨rfl, fun h => absurd h (Option.some_ne_none v)⟩
  | none =>
    rw [hdone] at ho
    obtain ⟨rfl, hrequired⟩ := Entity.Field.unset_eq_ok.mp ho
    cases hdefault : f.defaultValue with
    | some v => exact ⟨rfl, fun h => absurd h (Option.some_ne_none v)⟩
    | none => exact ⟨rfl, fun _ => hrequired hdefault⟩

/-- **What is filled in is a default** of a declared field, under its name, that was
not done. -/
theorem exists_of_mem_filled {filled : List (Option (String × Value))}
    (each : List.Forall₂ (fun f o => f.fill typeName done = .ok o) declared filled)
    {x : String × Value} (hx : x ∈ filled.reduceOption) :
    ∃ f ∈ declared, x.1 = f.name ∧ f.defaultValue = some x.2
      ∧ done.lookup f.name = none := by
  obtain ⟨f, hf, hfill⟩ := exists_left_of_forall₂ each (List.reduceOption_mem_iff.mp hx)
  exact ⟨f, hf, Entity.Field.of_mem_fill hfill x rfl⟩

/-- If what was done has the names of declared fields, so has all there is after
filling in. -/
theorem name_mem_of_filled {filled : List (Option (String × Value))}
    (each : List.Forall₂ (fun f o => f.fill typeName done = .ok o) declared filled)
    (hdone : ∀ x ∈ done, x.1 ∈ declared.map Entity.Field.name) :
    ∀ x ∈ done ++ filled.reduceOption, x.1 ∈ declared.map Entity.Field.name := by
  intro x hx
  rcases List.mem_append.mp hx with hx | hx
  · exact hdone x hx
  · obtain ⟨f, hf, hname, -⟩ := exists_of_mem_filled each hx
    exact hname ▸ List.mem_map_of_mem hf

/-- A field takes a value that can be sent at its type. -/
def Takes (s : Scope) (t : StructType) (name : String) (v : Value) : Prop :=
  ∃ f, t.field? name = some f ∧ ∃ w, v.toWire s f.type = .ok w

/-- A name under which a value is taken is that of a field. -/
theorem Takes.name_mem {name : String} {v : Value} (h : t.Takes s name v) :
    name ∈ t.fields.map Entity.Field.name := by
  obtain ⟨f, hfield, -⟩ := h
  have hname : f.name = name := by simpa using List.find?_some hfield
  exact hname ▸ List.mem_map_of_mem (List.mem_of_find?_eq_some hfield)

/-- **What is set was taken by its field.** -/
theorem takes_of_setAll {fields : List (String × Value)}
    (h : t.setAll s done given = .ok fields)
    (hdone : ∀ name v, done.lookup name = some v → t.Takes s name v) :
    ∀ name v, fields.lookup name = some v → t.Takes s name v := by
  induction given generalizing done with
  | nil =>
    cases h
    exact hdone
  | cons x given ih =>
    obtain ⟨name, v⟩ := x
    rw [setAll] at h
    split at h
    next => cases h
    next f hfield =>
      split at h
      next => cases h
      next w hw =>
        -- setting a field keeps it so for the others
        refine ih h fun n u hu => ?_
        rw [lookup_put] at hu
        split at hu
        next hn =>
          cases hu
          exact ⟨f, hn ▸ hfield, w, hw⟩
        next => exact hdone n u hu

/-- **Values that are taken are set as they are given**, if their names are
different. -/
theorem setAll_of_takes (distinct : (done.map Prod.fst ++ given.map Prod.fst).Nodup)
    (h : ∀ x ∈ given, t.Takes s x.1 x.2) :
    t.setAll s done given = .ok (done ++ given) := by
  induction given generalizing done with
  | nil => rw [setAll, List.append_nil]
  | cons x given ih =>
    obtain ⟨⟨f, hfield, w, hw⟩, hgiven⟩ := List.forall_mem_cons.mp h
    have hnew : x.1 ∉ done.map Prod.fst := by
      rw [List.map_cons, List.nodup_middle, List.nodup_cons] at distinct
      exact fun hmem => distinct.1 (List.mem_append_left _ hmem)
    rw [setAll, hfield]
    dsimp only
    rw [hw]
    dsimp only
    rw [put_of_notMem hnew, ih _ hgiven, List.append_assoc]
    · rfl
    · rw [List.map_append, List.append_assoc]
      exact distinct

/-- A struct of fields, of which a union has one. -/
def assemble (typeName : String) (kind : StructKind) (fields : List (String × Value)) :
    Except ValueError Value :=
  if kind = .union ∧ fields.length ≠ 1 then .error (.unionArity typeName fields.length)
  else .ok (.struct typeName fields)

theorem assemble_eq_ok {kind : StructKind} {fields : List (String × Value)} {v : Value} :
    assemble typeName kind fields = .ok v ↔
      (kind = .union → fields.length = 1) ∧ v = .struct typeName fields := by
  unfold assemble
  split
  next hcount => simp [hcount.1, hcount.2]
  next hcount =>
    rw [Except.ok.injEq, eq_comm]
    refine ⟨fun hv => ⟨fun hkind => ?_, hv⟩, And.right⟩
    by_contra hlength
    exact hcount ⟨hkind, hlength⟩

/-- **Building sets fields, fills in the others and assembles them.** -/
theorem construct_eq (s : Scope) (t : StructType) (given : List (String × Value)) :
    t.construct s given =
      (t.setAll s [] given >>= fun done =>
        fillIn t.name done t.fields >>= assemble t.name t.kind) := rfl

/-- **A struct that is built** has what was set and what was filled in. -/
theorem construct_eq_ok (distinct : (t.fields.map Entity.Field.name).Nodup) {v : Value} :
    t.construct s given = .ok v ↔ ∃ done filled, t.setAll s [] given = .ok done
      ∧ List.Forall₂ (fun f o => f.fill t.name done = .ok o) t.fields filled
      ∧ (t.kind = .union → (done ++ filled.reduceOption).length = 1)
      ∧ v = .struct t.name (done ++ filled.reduceOption) := by
  simp only [construct_eq, bind_eq_ok, assemble_eq_ok]
  refine exists_congr fun done => ?_
  rw [fillIn_eq_map done distinct fun _ _ => rfl]
  simp only [map_eq_ok, mapM_eq_ok]
  constructor
  · rintro ⟨hdone, _, ⟨filled, hfilled, rfl⟩, hsingle, rfl⟩
    exact ⟨filled, hdone, hfilled, hsingle, rfl⟩
  · rintro ⟨filled, hdone, hfilled, hsingle, rfl⟩
    exact ⟨hdone, _, ⟨filled, hfilled, rfl⟩, hsingle, rfl⟩

/-- Receiving assembles its fields too. -/
theorem structToValue_eq (kind : StructKind)
    (received : List (Int16 × (Ty → Except ValueError Value))) :
    Wire.structToValue typeName kind declared received =
      (Wire.fieldsToValue typeName received [] declared >>= assemble typeName kind) := rfl

/-! ## A struct in its scope -/

/-- **A struct stands in a scope** as one of its entities. -/
structure Stands (s : Scope) (t : StructType) (e : Entity) : Prop where
  /-- It is the entity with its handle. -/
  entity : s.entity? t.id = some e
  /-- It has the name of the entity. -/
  name : e.name = t.name
  /-- It has its kind and its fields. -/
  body : e.body = .struct t.kind t.fields

theorem stands_of_entity {id : EntityId} {e : Entity} (he : s.entity? id = some e)
    (ht : e.structType? id = some t) : t.Stands s e := by
  unfold Entity.structType? at ht
  split at ht
  next kind fields hbody =>
    cases ht
    exact ⟨he, rfl, hbody⟩
  next => cases ht

/-- **The struct with a name** stands in its scope. -/
theorem exists_stands (h : s.IsArena) {name : String} (ht : s.structType? name = some t) :
    ∃ e, t.Stands s e := by
  obtain ⟨⟨id, e⟩, hnamed, hstruct⟩ := Option.bind_eq_some_iff.mp ht
  obtain ⟨he, -⟩ := h.named?_eq_some.mp hnamed
  exact ⟨e, stands_of_entity he hstruct⟩

namespace Stands

variable {e : Entity}

/-- A reference that is bound to a struct has it as its shape. -/
theorem shape (h : t.Stands s e) (span : Span) :
    s.shape (.named ⟨t.name, span, some t.id⟩) = .ok (.entity t.id e) := by
  rw [← h.name]
  exact s.shape_bound h.entity (by simp [h.body]) span

/-- **A struct tells its own type.** -/
theorem inferType (h : t.Stands s e) (harena : s.IsArena) (fields : List (String × Value)) :
    (Value.struct t.name fields).inferType s
      = .ok (.named ⟨t.name, .unknown, some t.id⟩) := by
  rw [Value.inferType]
  unfold Scope.typeNamed
  rw [harena.named?_eq_some.mpr ⟨h.entity, h.name⟩]
  dsimp only
  unfold Entity.kind
  rw [h.body]
  rfl

/-- **A struct that is built can be sent**, if the stored defaults can. -/
theorem exists_toWire (h : t.Stands s e) (htold : s.TellsApart)
    (hdefaults : s.DefaultsSent) {v : Value} (hv : t.construct s given = .ok v) :
    ∃ fields w, v = .struct t.name fields ∧ v.toWire s t.type = .ok w := by
  have hnames := (htold _ _ _ _ h.entity h.body).names
  obtain ⟨done, filled, hdone, hfilled, hsingle, rfl⟩ := (construct_eq_ok hnames).mp hv
  have htakes := takes_of_setAll hdone fun _ _ h => absurd h (Option.some_ne_none _).symm
  have hlookup := fun f (hf : f ∈ t.fields) => lookup_filled hnames hfilled hf
  have hknown := name_mem_of_filled hfilled fun x hx => by
    obtain ⟨v, hv⟩ := Option.isSome_iff_exists.mp
      (lookup_isSome_iff_mem.mpr (List.mem_map_of_mem hx))
    exact (htakes x.1 v hv).name_mem
  -- what is set was given, and can be sent, or is a default, and can be sent too
  have hsendable : ∀ f ∈ t.fields, ∀ v,
      (done ++ filled.reduceOption).lookup f.name = some v → ∃ w, v.toWire s f.type = .ok w := by
    intro f hf v hv
    rw [(hlookup f hf).1] at hv
    rcases Option.or_eq_some_iff.mp hv with hv | ⟨-, hv⟩
    · obtain ⟨g, hg, hsent⟩ := htakes f.name v hv
      have hfound : t.field? f.name = some f := find?_eq_some_of_mem hnames hf
      rw [hfound] at hg
      cases hg
      exact hsent
    · exact hdefaults _ _ _ _ h.entity h.body f hf v hv
  have hrequired : ∀ f ∈ t.fields, f.isRequired = true →
      f.name ∈ (done ++ filled.reduceOption).map Prod.fst := by
    intro f hf hrequired
    rw [← lookup_isSome_iff_mem]
    by_contra hunset
    rw [(hlookup f hf).2 (Option.not_isSome_iff_eq_none.mp hunset)] at hrequired
    cases hrequired
  obtain ⟨w, hw⟩ := Scope.exists_toWire_struct (h.shape t.span) h.body hknown hsendable
    hrequired hsingle
  rw [h.name] at hw
  exact ⟨_, w, rfl, hw⟩

end Stands

/-! ## Building and receiving -/

/-- What is sent for a value that is given by name: its field is known, and the value
is sent under its id. -/
def Sends (s : Scope) (t : StructType) (x : String × Value) (y : Int16 × Wire) : Prop :=
  ∃ f, t.field? x.1 = some f ∧ y.1 = f.id ∧ x.2.toWire s f.type = .ok y.2

theorem Sends.takes {x : String × Value} {y : Int16 × Wire} (h : t.Sends s x y) :
    t.Takes s x.1 x.2 := by
  obtain ⟨f, hfield, -, hw⟩ := h
  exact ⟨f, hfield, _, hw⟩

/-- **What is given under the name of a field is sent under its id.** -/
theorem lookup_sends (htold : Entity.Field.ToldApart t.kind t.fields)
    {sent : List (Int16 × Wire)} (h : List.Forall₂ (t.Sends s) given sent)
    {f : Entity.Field} (hf : f ∈ t.fields) :
    Option.Rel (fun v w => v.toWire s f.type = .ok w) (given.lookup f.name)
      (sent.lookup f.id) := by
  induction h with
  | nil => exact .none
  | @cons x y given sent hxy _ ih =>
    obtain ⟨g, hfield, hid, hw⟩ := hxy
    have hg := List.mem_of_find?_eq_some hfield
    have hname : g.name = x.1 := by simpa using List.find?_some hfield
    rw [List.lookup_cons, List.lookup_cons, ← hname, hid]
    by_cases hfg : f = g
    · subst hfg
      rw [beq_self_eq_true, beq_self_eq_true]
      exact .some hw
    · have hnames : (f.name == g.name) = false := beq_eq_false_iff_ne.mpr fun heq =>
        hfg (List.inj_on_of_nodup_map htold.names hf hg heq)
      have hids : (f.id == g.id) = false := beq_eq_false_iff_ne.mpr fun heq =>
        hfg (List.inj_on_of_nodup_map htold.ids hf hg heq)
      rw [hnames, hids]
      exact ih

/-- **How building from values and receiving what was sent for them go together.**
Both find the same field missing or count the same number of fields of a union, or
both succeed. Then the two structs have the same fields: those that were given as
they were given and as they are received, and the others with their defaults. -/
inductive Matches (s : Scope) (t : StructType) (given : List (String × Value))
    (sent : List (Int16 × Wire)) : Except ValueError Value → Except ValueError Value → Prop
  | missing {f : Entity.Field} (field : f ∈ t.fields) (required : f.isRequired = true)
      (plain : f.defaultValue = none) (unset : given.lookup f.name = none) :
      Matches s t given sent (.error (.missingField t.name f.name))
        (.error (.missingField t.name f.name))
  | arity (union : t.kind = .union) (count : given.length ≠ 1) :
      Matches s t given sent (.error (.unionArity t.name given.length))
        (.error (.unionArity t.name given.length))
  | built {built received : List (String × Value)}
      (names : ∀ name, name ∈ built.map Prod.fst ↔ name ∈ received.map Prod.fst)
      (set : ∀ f ∈ t.fields, ∀ v, given.lookup f.name = some v →
        built.lookup f.name = some v
          ∧ ∃ w u, sent.lookup f.id = some w ∧ w.toValue s f.type = .ok u
            ∧ received.lookup f.name = some u)
      (unset : ∀ f ∈ t.fields, given.lookup f.name = none →
        built.lookup f.name = f.defaultValue ∧ received.lookup f.name = f.defaultValue) :
      Matches s t given sent (.ok (.struct t.name built)) (.ok (.struct t.name received))

/-- For a field that is given, what was sent for it arrives, and one that is not
given is not set. -/
theorem receive_sends (typeName : String) (htold : s.TellsApart) {f : Entity.Field}
    {sent : List (Int16 × Wire)}
    (h : Option.Rel (fun v w => v.toWire s f.type = .ok w) (given.lookup f.name)
      (sent.lookup f.id)) :
    (∃ v w u, given.lookup f.name = some v ∧ sent.lookup f.id = some w
        ∧ w.toValue s f.type = .ok u
        ∧ f.receive typeName (sent.map fun y => (y.1, y.2.toValue s)) = .ok (some (f.name, u)))
      ∨ given.lookup f.name = none
        ∧ f.receive typeName (sent.map fun y => (y.1, y.2.toValue s)) = f.unset typeName := by
  have hreceived := lookup_map_snd (fun w : Wire => w.toValue s) f.id sent
  generalize given.lookup f.name = o at h ⊢
  generalize hsent : sent.lookup f.id = o' at h hreceived ⊢
  cases h with
  | @some v w hw =>
    have hu := Wire.toValue_of_toWire htold hw
    refine .inl ⟨v, w, _, rfl, rfl, hu, ?_⟩
    unfold Entity.Field.receive
    rw [hreceived]
    show (fun v => some (f.name, v)) <$> w.toValue s f.type = _
    rw [hu]
    rfl
  | none => exact .inr ⟨rfl, Entity.Field.receive_of_lookup_eq_none hreceived⟩

/-- What is missing from the values that are given: a required field without a
default. -/
def Lacks (t : StructType) (given : List (String × Value)) (fault : ValueError) : Prop :=
  ∃ f ∈ t.fields, f.isRequired = true ∧ f.defaultValue = none
    ∧ given.lookup f.name = none ∧ fault = .missingField t.name f.name

/-- **For each field building and receiving fail alike**, if something is missing. -/
theorem fill_fails_alike (htold : s.TellsApart) {f : Entity.Field} (hf : f ∈ t.fields)
    {sent : List (Int16 × Wire)}
    (h : Option.Rel (fun v w => v.toWire s f.type = .ok w) (given.lookup f.name)
      (sent.lookup f.id)) :
    (∃ fault, t.Lacks given fault ∧ f.fill t.name given = .error fault
        ∧ f.receive t.name (sent.map fun y => (y.1, y.2.toValue s)) = .error fault)
      ∨ ∃ o o', f.fill t.name given = .ok o
        ∧ f.receive t.name (sent.map fun y => (y.1, y.2.toValue s)) = .ok o' := by
  unfold Entity.Field.fill
  rcases receive_sends t.name htold h with
    ⟨v, w, u, hgiven, -, -, hreceive⟩ | ⟨hgiven, hreceive⟩
  · rw [hgiven, hreceive]
    exact .inr ⟨_, _, rfl, rfl⟩
  · rw [hgiven, hreceive]
    cases hunset : f.unset t.name with
    | ok o => exact .inr ⟨o, o, rfl, rfl⟩
    | error fault =>
      obtain ⟨hdefault, hrequired, hfault⟩ := Entity.Field.unset_eq_error.mp hunset
      exact .inl ⟨fault, ⟨f, hf, hrequired, hdefault, hgiven, hfault⟩, rfl, rfl⟩

section Filled

variable {sent : List (Int16 × Wire)} {filled arrived : List (Option (String × Value))}

/-- What was filled in has names that were not given. -/
theorem nodup_filled (distinct : (declared.map Entity.Field.name).Nodup)
    (hgiven : (given.map Prod.fst).Nodup)
    (each : List.Forall₂ (fun f o => f.fill typeName given = .ok o) declared filled) :
    ((given ++ filled.reduceOption).map Prod.fst).Nodup := by
  rw [List.map_append]
  refine hgiven.append (nodup_reduceOption distinct (each.imp fun f o hfill entry hentry =>
    (Entity.Field.of_mem_fill hfill entry hentry).1)) fun name hmem hfilled => ?_
  obtain ⟨x, hx, rfl⟩ := List.mem_map.mp hfilled
  obtain ⟨f, -, hname, -, hnone⟩ := exists_of_mem_filled each hx
  rw [← lookup_isSome_iff_mem, hname, hnone] at hmem
  cases hmem

theorem reduceOption_filled_eq_nil (hplain : ∀ f ∈ declared, f.defaultValue = none)
    (each : List.Forall₂ (fun f o => f.fill typeName given = .ok o) declared filled) :
    filled.reduceOption = [] := by
  refine List.eq_nil_iff_forall_not_mem.mpr fun x hx => ?_
  obtain ⟨f, hf, -, hdefault, -⟩ := exists_of_mem_filled each hx
  rw [hplain f hf] at hdefault
  cases hdefault

/-- **Under the name of a declared field is what was received for it**, or else its
default. -/
theorem lookup_received (htold : s.TellsApart)
    (distinct : (declared.map Entity.Field.name).Nodup)
    (each : List.Forall₂ (fun f o =>
      f.receive typeName (sent.map fun y => (y.1, y.2.toValue s)) = .ok o) declared arrived)
    {f : Entity.Field} (hf : f ∈ declared)
    (hsent : Option.Rel (fun v w => v.toWire s f.type = .ok w) (given.lookup f.name)
      (sent.lookup f.id)) :
    (∃ v w u, given.lookup f.name = some v ∧ sent.lookup f.id = some w
        ∧ w.toValue s f.type = .ok u ∧ arrived.reduceOption.lookup f.name = some u)
      ∨ given.lookup f.name = none
        ∧ arrived.reduceOption.lookup f.name = f.defaultValue := by
  obtain ⟨o, ho, hlookup⟩ := Wire.lookup_arrived distinct each hf
  rcases receive_sends typeName htold hsent with
    ⟨v, w, u, hgiven, hw, hu, hreceive⟩ | ⟨hgiven, hreceive⟩
  · rw [hreceive] at ho
    cases ho
    exact .inl ⟨v, w, u, hgiven, hw, hu, hlookup⟩
  · rw [hreceive] at ho
    obtain ⟨rfl, -⟩ := Entity.Field.unset_eq_ok.mp ho
    refine .inr ⟨hgiven, ?_⟩
    rw [hlookup, Option.map_map]
    exact Option.map_id'

/-- **A struct that was built and one that was received match**, if all fields were
filled in and all arrived. -/
theorem matches_assemble (htold : s.TellsApart)
    (hfields : Entity.Field.ToldApart t.kind t.fields)
    (distinct : (given.map Prod.fst).Nodup) (hsends : List.Forall₂ (t.Sends s) given sent)
    (hfilled : List.Forall₂ (fun f o => f.fill t.name given = .ok o) t.fields filled)
    (harrived : List.Forall₂ (fun f o =>
      f.receive t.name (sent.map fun y => (y.1, y.2.toValue s)) = .ok o) t.fields arrived) :
    t.Matches s given sent (assemble t.name t.kind (given ++ filled.reduceOption))
      (assemble t.name t.kind arrived.reduceOption) := by
  have hbuilt := fun f (hf : f ∈ t.fields) => (lookup_filled hfields.names hfilled hf).1
  have hreceived := fun f (hf : f ∈ t.fields) =>
    lookup_received htold hfields.names harrived hf (lookup_sends hfields hsends hf)
  have hnames := mem_names_iff
    (name_mem_of_filled hfilled fun x hx => by
      obtain ⟨y, -, hxy⟩ := exists_right_of_forall₂ hsends hx
      exact hxy.takes.name_mem)
    (fun x hx => by
      obtain ⟨f, hf, hname, -⟩ := Wire.exists_of_mem_arrived harrived hx
      exact hname ▸ List.mem_map_of_mem hf)
    (List.forall_mem_map.mpr fun f hf => by
      rw [hbuilt f hf]
      rcases hreceived f hf with ⟨v, w, u, hgiven, -, -, hlookup⟩ | ⟨hgiven, hlookup⟩
      · rw [hgiven, hlookup]
        rfl
      · rw [hgiven, hlookup]
        rfl)
  have hlength := length_eq_of_names (nodup_filled hfields.names distinct hfilled)
    (nodup_reduceOption hfields.names
      (harrived.imp fun f o hreceive => Entity.Field.name_of_receive hreceive)) hnames
  -- a union has no defaults, so the fields that it has are those that were given
  have hgiven : t.kind = .union → (given ++ filled.reduceOption).length = given.length := by
    intro hkind
    rw [reduceOption_filled_eq_nil (hfields.plain hkind) hfilled, List.append_nil]
  unfold assemble
  rw [← hlength]
  by_cases hcount : t.kind = .union ∧ (given ++ filled.reduceOption).length ≠ 1
  · rw [if_pos hcount, if_pos hcount, hgiven hcount.1]
    exact .arity hcount.1 (hgiven hcount.1 ▸ hcount.2)
  · rw [if_neg hcount, if_neg hcount]
    refine .built hnames (fun f hf v hv => ?_) fun f hf hnone => ?_
    · rcases hreceived f hf with ⟨v', w, u, -, hw, hu, hlookup⟩ | ⟨hnone, -⟩
      · exact ⟨by rw [hbuilt f hf, hv]; rfl, w, u, hw, hu, hlookup⟩
      · rw [hv] at hnone
        cases hnone
    · rcases hreceived f hf with ⟨v, w, u, hgiven, -⟩ | ⟨-, hlookup⟩
      · rw [hnone] at hgiven
        cases hgiven
      · exact ⟨by rw [hbuilt f hf, hnone]; rfl, hlookup⟩

end Filled

/-- **Building from values matches receiving what is sent for them.** -/
theorem Stands.matches_construct {e : Entity} (h : t.Stands s e) (htold : s.TellsApart)
    {sent : List (Int16 × Wire)} (distinct : (given.map Prod.fst).Nodup)
    (hsends : List.Forall₂ (t.Sends s) given sent) :
    t.Matches s given sent (t.construct s given) ((Wire.struct sent).toValue s t.type) := by
  have hfields := htold _ _ _ _ h.entity h.body
  have hset : t.setAll s [] given = .ok given := by
    refine setAll_of_takes distinct fun x hx => ?_
    obtain ⟨y, -, hxy⟩ := exists_right_of_forall₂ hsends hx
    exact hxy.takes
  have hbuilt : t.construct s given
      = (fun filled => given ++ filled.reduceOption)
          <$> t.fields.mapM (Entity.Field.fill t.name given) >>= assemble t.name t.kind := by
    rw [construct_eq, hset, ← fillIn_eq_map given hfields.names fun _ _ => rfl]
    rfl
  have hreceived : (Wire.struct sent).toValue s t.type
      = List.reduceOption <$> t.fields.mapM (Entity.Field.receive t.name
          (sent.map fun y => (y.1, y.2.toValue s))) >>= assemble t.name t.kind := by
    rw [Wire.toValue, type, h.shape]
    dsimp only
    rw [h.body]
    dsimp only
    rw [Wire.raisings_eq_map, h.name, structToValue_eq,
      Wire.fieldsToValue_eq_map _ [] _ hfields.names]
    rfl
  rw [hbuilt, hreceived]
  -- the two go over the fields in the same order, and so they fail at the same one
  rcases mapM_fails_alike fun f hf =>
      fill_fails_alike htold hf (lookup_sends hfields hsends hf) with
    ⟨_, ⟨f, hf, hrequired, hdefault, hnone, rfl⟩, hfill, hreceive⟩
      | ⟨filled, arrived, hfill, hreceive⟩
  · rw [hfill, hreceive]
    exact .missing hf hrequired hdefault hnone
  · rw [hfill, hreceive]
    exact matches_assemble htold hfields distinct hsends (mapM_eq_ok.mp hfill)
      (mapM_eq_ok.mp hreceive)

end StructType

/-! ## Compiled documents -/

namespace Document

variable {d : Document} {name : String} {c : Compiled}

/-- **Building a struct and receiving it come to the same**, in the scope of a compiled
document. What is built can be sent as what it is and tells that type of itself, so that
a unit has a payload for it. And building from values under different names, each of
which is sent for its field, matches receiving what is sent. -/
theorem construct_of_compile (hok : d.compile name = .ok c) {typeName : String}
    {t : StructType} (ht : c.scope.structType? typeName = some t)
    (given : List (String × Value)) :
    (∀ v, t.construct c.scope given = .ok v →
      v.inferType c.scope = .ok (.named ⟨t.name, .unknown, some t.id⟩)
        ∧ ∃ w, v.toWire c.scope t.type = .ok w
          ∧ ∀ u : CompiledUnit, u.toCompiled = c → u.encode v = .ok (u.protocol.encode w))
      ∧ ∀ sent, (given.map Prod.fst).Nodup → List.Forall₂ (t.Sends c.scope) given sent →
        t.Matches c.scope given sent (t.construct c.scope given)
          ((Wire.struct sent).toValue c.scope t.type) := by
  have hstage := stage_of_compile hok
  have harena := hstage.models.arena
  have htold := tellsApart_of_compile hok
  obtain ⟨e, h⟩ := StructType.exists_stands harena ht
  refine ⟨fun v hv => ?_, fun sent => h.matches_construct htold⟩
  obtain ⟨fields, w, rfl, hw⟩ :=
    h.exists_toWire htold (hstage.defaultsSent (wellFormed_of_compile hok)) hv
  have hinfer := h.inferType harena fields
  refine ⟨hinfer, w, hw, ?_⟩
  rintro u rfl
  exact u.encode_of_toWire hinfer
    ((Scope.Equates.same (h.shape .unknown) (h.shape t.span)).toWire hw)

/-- The struct of outer structs, whose default sets the inner field. -/
def outerStruct : StructType :=
  ⟨1, "Outer", ⟨3, 1⟩, .struct,
    [⟨1, "inner", .named ⟨"Inner", ⟨4, 3⟩, some 0⟩, .unmarked,
      some (.map [(.string "x", .int 7)]), some (.struct "Inner" [("x", .i32 7)]), ⟨4, 3⟩⟩]⟩

/-- An outer struct is built with the inner one that is given, which lacks its field,
and received with one that has it. -/
theorem construct_outer :
    (nested true).compile "nested" = .ok ⟨nestedScope true, []⟩
      ∧ (nestedScope true).structType? "Outer" = some outerStruct
      ∧ outerStruct.construct (nestedScope true) [("inner", .struct "Inner" [])] = .ok (outer [])
      ∧ (∃ w, (outer []).toWire (nestedScope true) outerStruct.type = .ok w
        ∧ ∀ u : CompiledUnit, u.toCompiled = ⟨nestedScope true, []⟩ →
          u.encode (outer []) = .ok (u.protocol.encode w))
      ∧ List.Forall₂ (outerStruct.Sends (nestedScope true)) [("inner", .struct "Inner" [])]
        [(1, .struct [])]
      ∧ outerStruct.Matches (nestedScope true) [("inner", .struct "Inner" [])] [(1, .struct [])]
        (.ok (outer [])) (.ok (outer [("x", .i32 5)])) := by
  have hfound : (nestedScope true).structType? "Outer" = some outerStruct := rfl
  have hsends : List.Forall₂ (outerStruct.Sends (nestedScope true))
      [("inner", .struct "Inner" [])] [(1, .struct [])] :=
    .cons ⟨_, rfl, rfl, rfl⟩ .nil
  obtain ⟨hsent, hmatches⟩ := construct_of_compile (compile_nested true) hfound
    [("inner", .struct "Inner" [])]
  exact ⟨compile_nested true, hfound, rfl, (hsent _ rfl).2, hsends,
    hmatches _ (List.nodup_singleton _) hsends⟩

end Document

end Interlink
