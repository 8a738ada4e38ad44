import Interlink.Proofs.Number.Width
import Interlink.Proofs.Scope.Shape

/-!
# Coercion follows the rules

`Value.coerce` computes what a value becomes at a type, and
`Document.Coerces` says it by rules. Both look at the shape of the type first;
what happens at a shape is said once (`Value.CoercesAs`), in terms of the
coercion of the parts of the value, and `coerce_eq_ok` is all that is ever used
of the definition of `coerce`. That coercion is sound and complete for the
rules (`Models.coerce_sound`, `Models.coerce_complete`) is then read off, rule
by rule.
-/

namespace Interlink

namespace Value

variable {s : Scope} {site : Site} {v u : Value}

/-! ## Primitive types -/

/-- A number as a value of an integer type is that number in its width. -/
theorem ofInt?_eq_some {p : Primitive} {n : Int} :
    ofInt? p n = some u ↔ u.width? = some p ∧ u.wholeNumber? = some n := by
  cases p <;> cases u <;>
    simp [ofInt?, width?, wholeNumber?, Option.map_eq_some_iff,
      Width.int8?_eq_some, Width.int16?_eq_some, Width.int32?_eq_some,
      Width.int64?_eq_some]

/-- A value converts to one of an integer type as a number. -/
theorem converts_integer {p : Primitive} (hp : p.isInteger = true) :
    p.Converts v u ↔ ∃ n, v.int? = some n ∧ ofInt? p n = some u := by
  constructor
  · intro h
    cases h with
    | integer hnumber hwidth hsame =>
      exact ⟨_, hnumber, ofInt?_eq_some.mpr ⟨hwidth, hsame⟩⟩
    | _ => cases hp
  · rintro ⟨n, hnumber, hu⟩
    obtain ⟨hwidth, hsame⟩ := ofInt?_eq_some.mp hu
    exact .integer hnumber hwidth hsame

/-- A value converts to one of another primitive type as `asPrimitive?`
says. -/
theorem converts_other {p : Primitive} (hp : p.isInteger = false) :
    p.Converts v u ↔ asPrimitive? p v = some u := by
  constructor
  · intro h
    cases h with
    | integer hnumber hwidth hsame => cases u <;> cases hwidth <;> cases hp
    | zero hnumber => cases v <;> simp_all [asPrimitive?, wholeNumber?]
    | one hnumber => cases v <;> simp_all [asPrimitive?, wholeNumber?]
    | whole hnumber => cases v <;> simp_all [asPrimitive?, wholeNumber?]
    | _ => rfl
  · fun_cases asPrimitive? p v with
    | case1 b => rintro ⟨⟩; exact .bool b
    | case2 _ _ hnumber => rintro ⟨⟩; exact .zero hnumber
    | case3 _ _ hnumber => rintro ⟨⟩; exact .one hnumber
    | case4 => rintro ⟨⟩
    | case5 x => rintro ⟨⟩; exact .double x
    | case6 =>
      intro h
      obtain ⟨n, hnumber, rfl⟩ := Option.map_eq_some_iff.mp h
      exact .whole hnumber
    | case7 t => rintro ⟨⟩; exact .string t
    | case8 t => rintro ⟨⟩; exact .text t
    | case9 bytes => rintro ⟨⟩; exact .binary bytes
    | case10 => rintro ⟨⟩

/-- **Coercion to a primitive type** follows the rules. -/
theorem coercePrimitive_eq_ok {ty : Ty} {p : Primitive} :
    coercePrimitive site ty p v = .ok u ↔ p.Converts v u := by
  unfold coercePrimitive
  cases hp : p.isInteger with
  | true =>
    rw [if_pos rfl, converts_integer hp]
    cases v.int? with
    | none => simp [Site.misfit]
    | some n =>
      simp only [Option.some.injEq, exists_eq_left']
      cases ofInt? p n <;> simp [Site.misfit]
  | false =>
    rw [if_neg Bool.false_ne_true, converts_other hp]
    cases asPrimitive? p v <;> simp [Site.misfit]

/-! ## Enums -/

/-- **Coercion to an enum**: a value of the enum itself, or the number of an
item. -/
theorem coerceEnum_eq_ok {name : String} {items : List Entity.Item} :
    coerceEnum site name items v = .ok u ↔
      (∃ n, v = .enum name n ∧ u = .enum name n)
        ∨ ∃ n : Int32, v.wholeNumber? = some n.toInt
          ∧ n.toInt ∈ items.map (fun item => item.value.toInt)
          ∧ u = .enum name n := by
  unfold coerceEnum
  split
  next found n =>
    by_cases hfound : found = name
    · simp [hfound, wholeNumber?, eq_comm]
    · simp [hfound, wholeNumber?, Site.misfit]
  next hother =>
    have hnot : ¬ ∃ n, v = .enum name n ∧ u = .enum name n := by
      rintro ⟨n, rfl, -⟩
      exact hother name n rfl
    rw [or_iff_right hnot]
    cases v.wholeNumber? with
    | none => simp [Site.misfit]
    | some n =>
      simp only [Option.bind_some, Option.some.injEq]
      cases hfind : items.find? fun item => item.value.toInt == n with
      | none =>
        have hnone : ∀ item ∈ items, item.value.toInt ≠ n := by
          simpa using hfind
        simp only [Site.misfit, reduceCtorEq, false_iff]
        rintro ⟨k, rfl, hmem, -⟩
        obtain ⟨item, hitem, hvalue⟩ := List.mem_map.mp hmem
        exact hnone item hitem hvalue
      | some item =>
        have hvalue : item.value.toInt = n := by
          simpa using List.find?_some hfind
        have hmem := List.mem_of_find?_eq_some hfind
        rw [Except.ok.injEq]
        constructor
        · rintro rfl
          exact ⟨item.value, hvalue.symm,
            List.mem_map.mpr ⟨item, hmem, rfl⟩, rfl⟩
        · rintro ⟨k, hk, -, rfl⟩
          rw [Int32.toInt_inj.mp (hvalue.trans hk)]

/-! ## Containers -/

theorem coerceItems_eq_ok {element : Ty} {items typed : List Value} :
    coerceItems s site element items = .ok typed ↔
      List.Forall₂ (fun x y => coerce s site x element = .ok y) items typed := by
  have hmap : coerceItems s site element items
      = items.mapM fun x => coerce s site x element := by
    induction items with
    | nil => rfl
    | cons item items ih => rw [coerceItems, List.mapM_cons, ih]
  rw [hmap, mapM_eq_ok]

theorem coerceEntries_eq_ok {key value : Ty}
    {entries typed : List (Value × Value)} :
    coerceEntries s site key value entries = .ok typed ↔
      List.Forall₂ (fun x y => coerce s site x.1 key = .ok y.1
        ∧ coerce s site x.2 value = .ok y.2) entries typed := by
  induction entries generalizing typed with
  | nil => simp [coerceEntries, eq_comm]
  | cons entry entries ih =>
    obtain ⟨k, v⟩ := entry
    simp only [coerceEntries, bind_eq_ok, pure_eq_ok, ih,
      List.forall₂_cons_left_iff, Prod.exists]
    constructor
    · rintro ⟨k', hk, v', hv, rest, hrest, rfl⟩
      exact ⟨k', v', rest, ⟨hk, hv⟩, hrest, rfl⟩
    · rintro ⟨k', v', rest, ⟨hk, hv⟩, hrest, rfl⟩
      exact ⟨k', hk, v', hv, rest, hrest, rfl⟩

/-! ## Structs -/

/-- **One entry of a map that is meant as a struct**: its key is the name of a
field, and its value has the type of the field. -/
def SetsField (s : Scope) (site : Site) (declared : List Entity.Field)
    (entry : Value × Value) (set : String × Value) : Prop :=
  entry.1 = .string set.1 ∧ ∃ f, declared.find? (fun f => f.name == set.1) = some f
    ∧ coerce s site entry.2 f.type = .ok set.2

/-- The first entry sets a field that is not set yet, and the others go on from
there. -/
theorem coerceFields_cons {typeName : String} {kind : StructKind}
    {declared : List Entity.Field} {done fields : List (String × Value)}
    {entry : Value × Value} {entries : List (Value × Value)} :
    coerceFields s site typeName kind declared done (entry :: entries)
        = .ok fields ↔
      ∃ set, SetsField s site declared entry set ∧ set.1 ∉ done.map Prod.fst
        ∧ coerceFields s site typeName kind declared (done ++ [set]) entries
          = .ok fields := by
  obtain ⟨key, v⟩ := entry
  unfold SetsField
  by_cases hkey : ∃ name, key = .string name
  · obtain ⟨name, rfl⟩ := hkey
    rw [coerceFields]
    simp only [string.injEq, Prod.exists]
    cases hfind : declared.find? fun f => f.name == name with
    | none =>
      simp only [Site.misfit, reduceCtorEq, false_iff]
      rintro ⟨_, _, ⟨rfl, f, hf, -⟩, -⟩
      rw [hfind] at hf
      cases hf
    | some f =>
      by_cases hdone : name ∈ done.map Prod.fst
      · simp only [lookup_isSome_iff_mem.mpr hdone, Site.misfit, if_true,
          reduceCtorEq, false_iff]
        rintro ⟨_, _, ⟨rfl, -⟩, hnot, -⟩
        exact hnot hdone
      · simp only [mt lookup_isSome_iff_mem.mp hdone, Bool.false_eq_true, if_false]
        cases hv : coerce s site v f.type with
        | error fault =>
          simp only [reduceCtorEq, false_iff]
          rintro ⟨_, _, ⟨rfl, g, hg, hok⟩, -⟩
          rw [hfind, Option.some.injEq] at hg
          rw [← hg, hv] at hok
          cases hok
        | ok typed =>
          constructor
          · intro hok
            exact ⟨name, typed, ⟨rfl, f, hfind, hv⟩, hdone, hok⟩
          · rintro ⟨_, _, ⟨rfl, g, hg, hok⟩, -, hrest⟩
            rw [hfind, Option.some.injEq] at hg
            rw [← hg, hv, Except.ok.injEq] at hok
            rwa [← hok] at hrest
  · rw [coerceFields]
    · simp only [Site.misfit, reduceCtorEq, false_iff]
      rintro ⟨set, ⟨rfl, -⟩, -⟩
      exact hkey ⟨_, rfl⟩
    · exact fun name h => hkey ⟨name, h⟩

/-- **The entries of a map that is meant as a struct** are coerced one by one,
and no field is set twice. -/
theorem coerceFields_eq_ok {typeName : String} {kind : StructKind}
    {declared : List Entity.Field} {done fields : List (String × Value)}
    {entries : List (Value × Value)} :
    coerceFields s site typeName kind declared done entries = .ok fields ↔
      ∃ new, fields = done ++ new
        ∧ List.Forall₂ (SetsField s site declared) entries new
        ∧ (new.map Prod.fst).Nodup
        ∧ ∀ x ∈ new, x.1 ∉ done.map Prod.fst := by
  induction entries generalizing done with
  | nil =>
    simp only [coerceFields, Except.ok.injEq, List.forall₂_nil_left_iff]
    constructor
    · rintro rfl
      exact ⟨[], (List.append_nil _).symm, rfl, List.nodup_nil,
        fun x hx => absurd hx List.not_mem_nil⟩
    · rintro ⟨_, rfl, rfl, -⟩
      exact (List.append_nil _).symm
  | cons entry entries ih =>
    simp only [coerceFields_cons, ih, List.forall₂_cons_left_iff]
    constructor
    · rintro ⟨set, hset, hnew, rest, rfl, hrest, hnodup, hfresh⟩
      refine ⟨set :: rest, by simp, ⟨set, rest, hset, hrest, rfl⟩, ?_, ?_⟩
      · rw [List.map_cons, List.nodup_cons]
        refine ⟨fun hmem => ?_, hnodup⟩
        obtain ⟨x, hx, hname⟩ := List.mem_map.mp hmem
        exact hfresh x hx (by simp [hname])
      · refine List.forall_mem_cons.mpr ⟨hnew, fun x hx hmem => hfresh x hx ?_⟩
        rw [List.map_append]
        exact List.mem_append_left _ hmem
    · rintro ⟨_, rfl, ⟨set, rest, hset, hrest, rfl⟩, hnodup, hfresh⟩
      rw [List.map_cons, List.nodup_cons] at hnodup
      obtain ⟨hnew, hothers⟩ := List.forall_mem_cons.mp hfresh
      refine ⟨set, hset, hnew, rest, by simp, hrest, hnodup.2, fun x hx => ?_⟩
      rw [List.map_append, List.mem_append, List.map_singleton,
        List.mem_singleton]
      rintro (hmem | hname)
      · exact hothers x hx hmem
      · exact hnodup.1 (List.mem_map.mpr ⟨x, hx, hname⟩)

/-- **Enough fields are set**: one of a union, and every required one
otherwise. -/
def FieldsSet (kind : StructKind) (declared : List Entity.Field)
    (fields : List (String × Value)) : Prop :=
  (kind = .union → fields.length = 1)
    ∧ (kind ≠ .union → ∀ f ∈ declared, f.requiredness = .required →
      f.name ∈ fields.map Prod.fst)

theorem checkFieldsSet_eq_ok {typeName : String} {kind : StructKind}
    {declared : List Entity.Field} {fields : List (String × Value)} :
    checkFieldsSet site typeName kind declared fields = .ok u ↔
      FieldsSet kind declared fields ∧ u = .struct typeName fields := by
  unfold checkFieldsSet FieldsSet
  by_cases hkind : kind = .union
  · by_cases hlength : fields.length = 1 <;>
      simp [hkind, hlength, Site.misfit, eq_comm]
  · have hset : ∀ name, (fields.lookup name).isNone = true ↔
        name ∉ fields.map Prod.fst := fun name => by
      rw [← lookup_isSome_iff_mem, Option.isNone_iff_eq_none,
        Option.not_isSome_iff_eq_none]
    simp only [hkind, if_false, false_implies, ne_eq, not_false_eq_true,
      true_implies, true_and]
    cases hfind : declared.find? fun f =>
        f.isRequired && (fields.lookup f.name).isNone with
    | none =>
      simp only [List.find?_eq_none, Entity.Field.isRequired, Bool.and_eq_true,
        beq_iff_eq, hset, not_and, not_not] at hfind
      simp only [Except.ok.injEq]
      exact ⟨fun h => ⟨hfind, h.symm⟩, fun h => h.2.symm⟩
    | some f =>
      have hmem := List.mem_of_find?_eq_some hfind
      have hf := List.find?_some hfind
      simp only [Entity.Field.isRequired, Bool.and_eq_true, beq_iff_eq,
        hset] at hf
      simp only [Site.misfit, reduceCtorEq, false_iff]
      rintro ⟨hall, -⟩
      exact hf.2 (hall f hmem hf.1)

/-! ## All types -/

/-- **What a value becomes at a shape**, given what its parts become. -/
inductive CoercesAs (s : Scope) (site : Site) : Shape → Value → Value → Prop
  | primitive {p : Primitive} {v u : Value} (converts : p.Converts v u) :
      CoercesAs s site (.primitive p) v u
  | list {element : Ty} {v : Value} {items typed : List Value}
      (sequence : v.IsSequence items)
      (coerces : List.Forall₂ (fun x y => coerce s site x element = .ok y)
        items typed) :
      CoercesAs s site (.list element) v (.list typed)
  | set {element : Ty} {v : Value} {items typed : List Value}
      (sequence : v.IsSequence items)
      (coerces : List.Forall₂ (fun x y => coerce s site x element = .ok y)
        items typed) :
      CoercesAs s site (.set element) v (.set (distinct typed))
  | map {key value : Ty} {entries typed : List (Value × Value)}
      (coerces : List.Forall₂ (fun x y => coerce s site x.1 key = .ok y.1
        ∧ coerce s site x.2 value = .ok y.2) entries typed) :
      CoercesAs s site (.map key value) (.map entries) (.map typed)
  | item {id : EntityId} {e : Entity} {items : List Entity.Item} (n : Int32)
      (body : e.body = .enum items) :
      CoercesAs s site (.entity id e) (.enum e.name n) (.enum e.name n)
  | number {id : EntityId} {e : Entity} {items : List Entity.Item} {v : Value}
      {n : Int32} (body : e.body = .enum items)
      (number : v.wholeNumber? = some n.toInt)
      (member : n.toInt ∈ items.map fun item => item.value.toInt) :
      CoercesAs s site (.entity id e) v (.enum e.name n)
  | same {id : EntityId} {e : Entity} {kind : StructKind}
      {declared : List Entity.Field} (fields : List (String × Value))
      (body : e.body = .struct kind declared) :
      CoercesAs s site (.entity id e) (.struct e.name fields)
        (.struct e.name fields)
  | struct {id : EntityId} {e : Entity} {kind : StructKind}
      {declared : List Entity.Field} {entries : List (Value × Value)}
      {fields : List (String × Value)} (body : e.body = .struct kind declared)
      (sets : List.Forall₂ (SetsField s site declared) entries fields)
      (distinct : (fields.map Prod.fst).Nodup)
      (enough : FieldsSet kind declared fields) :
      CoercesAs s site (.entity id e) (.map entries) (.struct e.name fields)

/-- A sequence is coerced item by item, whether it is written as a list or as a
set. -/
theorem sequence_eq_ok {ty element : Ty} (f : List Value → Value) :
    (match v with
      | .list items => f <$> coerceItems s site element items
      | .set items => f <$> coerceItems s site element items
      | v => site.misfit (.notUsable v ty)) = .ok u ↔
      ∃ items typed, v.IsSequence items
        ∧ List.Forall₂ (fun x y => coerce s site x element = .ok y) items typed
        ∧ f typed = u := by
  simp only [← coerceItems_eq_ok]
  constructor
  · intro h
    split at h
    next items =>
      obtain ⟨typed, htyped, hu⟩ := map_eq_ok.mp h
      exact ⟨items, typed, .inl rfl, htyped, hu⟩
    next items =>
      obtain ⟨typed, htyped, hu⟩ := map_eq_ok.mp h
      exact ⟨items, typed, .inr rfl, htyped, hu⟩
    next => cases h
  · rintro ⟨items, typed, hsequence, htyped, hu⟩
    rcases hsequence with rfl | rfl <;> exact map_eq_ok.mpr ⟨typed, htyped, hu⟩

section

variable {ty : Ty} {id : EntityId} {e : Entity}

/-- **Coercion to a struct, union or exception**: a value of the type itself,
or a map that has enough of its fields. -/
theorem coerce_struct {kind : StructKind} {declared : List Entity.Field}
    (hshape : s.dealias ty site.owner = .ok (.entity id e))
    (hbody : e.body = .struct kind declared) :
    coerce s site v ty = .ok u ↔
      (∃ fields, v = .struct e.name fields ∧ u = .struct e.name fields)
        ∨ ∃ entries fields, v = .map entries
          ∧ List.Forall₂ (SetsField s site declared) entries fields
          ∧ (fields.map Prod.fst).Nodup ∧ FieldsSet kind declared fields
          ∧ u = .struct e.name fields := by
  rw [coerce, hshape]
  dsimp only
  rw [hbody]
  dsimp only
  constructor
  · intro h
    split at h
    next typeName fields =>
      split at h
      next hname =>
        cases h
        subst hname
        exact .inl ⟨fields, rfl, rfl⟩
      next => cases h
    next entries =>
      split at h
      next => cases h
      next fields hfields =>
        obtain ⟨new, rfl, hsets, hdistinct, -⟩ := coerceFields_eq_ok.mp hfields
        obtain ⟨henough, rfl⟩ := checkFieldsSet_eq_ok.mp h
        exact .inr ⟨entries, fields, rfl, hsets, hdistinct, henough, rfl⟩
    next => cases h
  · rintro (⟨fields, rfl, rfl⟩ | ⟨entries, fields, rfl, hsets, hdistinct,
      henough, rfl⟩)
    · simp
    · have hfields : coerceFields s site e.name kind declared [] entries
          = .ok fields := coerceFields_eq_ok.mpr
        ⟨fields, rfl, hsets, hdistinct, fun x _ => List.not_mem_nil⟩
      simp only [hfields]
      exact checkFieldsSet_eq_ok.mpr ⟨henough, rfl⟩

/-- **Coercion to an entity** asks for an enum, or a struct, union or
exception. -/
theorem coerce_entity (hshape : s.dealias ty site.owner = .ok (.entity id e)) :
    coerce s site v ty = .ok u ↔ CoercesAs s site (.entity id e) v u := by
  constructor
  · intro h
    cases hbody : e.body with
    | enum items =>
      rw [coerce, hshape] at h
      simp only [hbody] at h
      rcases coerceEnum_eq_ok.mp h with
        ⟨n, rfl, rfl⟩ | ⟨n, hnumber, hmember, rfl⟩
      · exact .item n hbody
      · exact .number hbody hnumber hmember
    | struct kind declared =>
      rcases (coerce_struct hshape hbody).mp h with
        ⟨fields, rfl, rfl⟩ | ⟨entries, fields, rfl, hsets, hdistinct, henough, rfl⟩
      · exact .same fields hbody
      · exact .struct hbody hsets hdistinct henough
    | _ =>
      rw [coerce, hshape] at h
      simp only [hbody] at h
      cases h
  · intro h
    cases h with
    | item n hbody =>
      rw [coerce, hshape]
      simp only [hbody]
      exact coerceEnum_eq_ok.mpr (.inl ⟨n, rfl, rfl⟩)
    | number hbody hnumber hmember =>
      rw [coerce, hshape]
      simp only [hbody]
      exact coerceEnum_eq_ok.mpr (.inr ⟨_, hnumber, hmember, rfl⟩)
    | same fields hbody =>
      exact (coerce_struct hshape hbody).mpr (.inl ⟨fields, rfl, rfl⟩)
    | struct hbody hsets hdistinct henough =>
      exact (coerce_struct hshape hbody).mpr
        (.inr ⟨_, _, rfl, hsets, hdistinct, henough, rfl⟩)

/-- **Coercion looks at the shape of the type**, and then goes by the rules for
that shape. -/
theorem coerce_eq_ok :
    coerce s site v ty = .ok u ↔
      ∃ shape, s.dealias ty site.owner = .ok shape
        ∧ CoercesAs s site shape v u := by
  cases hshape : s.dealias ty site.owner with
  | error fault => simp [coerce, hshape]
  | ok shape =>
    simp only [Except.ok.injEq, exists_eq_left']
    cases shape with
    | primitive p =>
      rw [coerce, hshape]
      dsimp only
      rw [coercePrimitive_eq_ok]
      constructor
      · exact .primitive
      · rintro ⟨hconverts⟩
        exact hconverts
    | list element =>
      rw [coerce, hshape]
      refine (sequence_eq_ok .list).trans ⟨?_, ?_⟩
      · rintro ⟨items, typed, hsequence, hcoerces, rfl⟩
        exact .list hsequence hcoerces
      · rintro (_ | ⟨hsequence, hcoerces⟩)
        exact ⟨_, _, hsequence, hcoerces, rfl⟩
    | set element =>
      rw [coerce, hshape]
      refine (sequence_eq_ok fun typed => .set (distinct typed)).trans ⟨?_, ?_⟩
      · rintro ⟨items, typed, hsequence, hcoerces, rfl⟩
        exact .set hsequence hcoerces
      · rintro (_ | _ | ⟨hsequence, hcoerces⟩)
        exact ⟨_, _, hsequence, hcoerces, rfl⟩
    | map key value =>
      rw [coerce, hshape]
      dsimp only
      constructor
      · intro h
        split at h
        next =>
          obtain ⟨typed, htyped, rfl⟩ := map_eq_ok.mp h
          exact .map (coerceEntries_eq_ok.mp htyped)
        next => cases h
      · intro h
        cases h with | map hcoerces =>
        exact map_eq_ok.mpr ⟨_, coerceEntries_eq_ok.mpr hcoerces, rfl⟩
    | entity id e => exact coerce_entity hshape

end

end Value

/-! ## The rules of a document -/

namespace Value

/-- The values that a value is made of. -/
def children : Value → List Value
  | .list items => items
  | .set items => items
  | .map entries => entries.map Prod.fst ++ entries.map Prod.snd
  | .struct _ fields => fields.map Prod.snd
  | _ => []

theorem key_mem_children {entries : List (Value × Value)} {x : Value × Value}
    (hx : x ∈ entries) : x.1 ∈ (map entries).children :=
  List.mem_append_left _ (List.mem_map.mpr ⟨x, hx, rfl⟩)

theorem value_mem_children {entries : List (Value × Value)} {x : Value × Value}
    (hx : x ∈ entries) : x.2 ∈ (map entries).children :=
  List.mem_append_right _ (List.mem_map.mpr ⟨x, hx, rfl⟩)

theorem IsSequence.mem_children {v u : Value} {items : List Value}
    (h : v.IsSequence items) (hu : u ∈ items) : u ∈ v.children := by
  rcases h with rfl | rfl <;> exact hu

theorem sizeOf_lt_of_mem_children {v u : Value} (h : u ∈ v.children) :
    sizeOf u < sizeOf v := by
  cases v with
  | list items =>
    have hlt : sizeOf u < sizeOf items := List.sizeOf_lt_of_mem h
    simp only [list.sizeOf_spec]
    omega
  | set items =>
    have hlt : sizeOf u < sizeOf items := List.sizeOf_lt_of_mem h
    simp only [set.sizeOf_spec]
    omega
  | map entries =>
    simp only [map.sizeOf_spec]
    rcases List.mem_append.mp h with h | h
    · obtain ⟨⟨k, x⟩, hx, rfl⟩ := List.mem_map.mp h
      have hlt := List.sizeOf_lt_of_mem hx
      simp only [Prod.mk.sizeOf_spec] at hlt ⊢
      omega
    · obtain ⟨⟨k, x⟩, hx, rfl⟩ := List.mem_map.mp h
      have hlt := List.sizeOf_lt_of_mem hx
      simp only [Prod.mk.sizeOf_spec] at hlt ⊢
      omega
  | struct name fields =>
    obtain ⟨⟨k, x⟩, hx, rfl⟩ := List.mem_map.mp h
    have hlt := List.sizeOf_lt_of_mem hx
    simp only [Prod.mk.sizeOf_spec, struct.sizeOf_spec] at hlt ⊢
    omega
  | _ => exact absurd h List.not_mem_nil

/-- **Induction on values**: what holds of a value whenever it holds of all
that the value is made of holds of every value. -/
theorem childInduction {motive : Value → Prop}
    (step : ∀ v, (∀ u ∈ v.children, motive u) → motive v) (v : Value) :
    motive v :=
  step v fun u _ => childInduction step u
termination_by sizeOf v
decreasing_by exact sizeOf_lt_of_mem_children ‹_›

end Value

/-- The fields of an entity and of a definition are found under the same
names. -/
theorem Field.AllDeclaredAs.find? {fields : List Field}
    {numbered : List Entity.Field} (h : Field.AllDeclaredAs fields numbered)
    (name : String) :
    Option.Rel Field.DeclaredAs (Field.named? fields name)
      (numbered.find? fun g => g.name == name) := by
  have heach := h.each
  clear h
  unfold Field.named?
  induction heach with
  | nil => exact .none
  | @cons f g _ _ hg _ ih =>
    rw [List.find?_cons, List.find?_cons, hg.name]
    cases f.name == name with
    | true => exact .some hg
    | false => exact ih

namespace Scope.Models

variable {s : Scope} {d : Document} {id : EntityId} {e : Entity}

/-- The type of a field in a scope stands for the one in the document. -/
theorem renders_field (h : s.Models d) (he : s.entity? id = some e)
    {kind : StructKind} {declared : List Entity.Field}
    (hbody : e.body = .struct kind declared) {f : Field} {g : Entity.Field}
    (hg : g ∈ declared) (hf : f.DeclaredAs g) : s.Renders f.type g.type := by
  refine renders_of_erase hf.type fun r hr => ?_
  refine h.agrees e (List.mem_of_getElem? he) r ?_
  rw [hbody]
  exact List.mem_flatMap.mpr ⟨g, hg, hr⟩

/-- **Coercion is sound**: what a value becomes is what the rules say. -/
theorem coerce_sound (h : s.Models d) {site : Site} {t : TypeExpr} {ty : Ty}
    {v u : Value} (hty : s.Renders t ty) (hok : v.coerce s site ty = .ok u) :
    d.Coerces t v u := by
  -- types do not get smaller on the way, since typedefs are followed; values do
  induction v using Value.childInduction generalizing t ty u with
  | step v ih =>
    obtain ⟨shape, hshape, hcoerces⟩ := Value.coerce_eq_ok.mp hok
    cases hcoerces with
    | primitive hconverts =>
      obtain ⟨t', hreaches, hrenders⟩ := h.dealias_sound hty hshape
      cases hrenders
      exact .primitive hreaches hconverts
    | list hsequence hitems =>
      obtain ⟨t', hreaches, hrenders⟩ := h.dealias_sound hty hshape
      cases hrenders with | list helement =>
      obtain ⟨hlength, hall⟩ := List.forall₂_iff_zip.mp hitems
      exact .list hreaches hsequence hlength fun x hx =>
        ih x.1 (hsequence.mem_children (List.of_mem_zip hx).1) helement (hall hx)
    | set hsequence hitems =>
      obtain ⟨t', hreaches, hrenders⟩ := h.dealias_sound hty hshape
      cases hrenders with | set helement =>
      obtain ⟨hlength, hall⟩ := List.forall₂_iff_zip.mp hitems
      exact .set hreaches hsequence hlength fun x hx =>
        ih x.1 (hsequence.mem_children (List.of_mem_zip hx).1) helement (hall hx)
    | map hentries =>
      obtain ⟨t', hreaches, hrenders⟩ := h.dealias_sound hty hshape
      cases hrenders with | map hkeys hvalues =>
      obtain ⟨hlength, hall⟩ := List.forall₂_iff_zip.mp hentries
      refine .map hreaches hlength (fun x hx => ?_) fun x hx => ?_
      · exact ih x.1.1 (Value.key_mem_children (List.of_mem_zip hx).1) hkeys
          (hall hx).1
      · exact ih x.1.2 (Value.value_mem_children (List.of_mem_zip hx).1) hvalues
          (hall hx).2
    | item n hbody =>
      obtain ⟨he, body, hreaches, hdeclared⟩ := h.reachesBody_sound hty hshape
      rw [hbody] at hdeclared
      cases hdeclared with | enum _ _ =>
      exact .item n hreaches
    | number hbody hnumber hmember =>
      obtain ⟨he, body, hreaches, hdeclared⟩ := h.reachesBody_sound hty hshape
      rw [hbody] at hdeclared
      cases hdeclared with | enum _ hnumbers =>
      exact .number hreaches hnumber (hnumbers.map_value ▸ hmember)
    | same fields hbody =>
      obtain ⟨he, body, hreaches, hdeclared⟩ := h.reachesBody_sound hty hshape
      rw [hbody] at hdeclared
      cases hdeclared with | struct _ =>
      exact .same fields hreaches
    | @struct id e kind declared entries fields hbody hsets hdistinct henough =>
      obtain ⟨he, body, hreaches, hdeclared⟩ := h.reachesBody_sound hty hshape
      rw [hbody] at hdeclared
      cases hdeclared with | struct hfields =>
      obtain ⟨hlength, hall⟩ := List.forall₂_iff_zip.mp hsets
      refine .struct hreaches
        (map_eq_map_iff_forall₂.mpr (hsets.imp fun _ _ hset => hset.1))
        (fun x hx => ?_) (fun x hx f hf => ?_) hdistinct henough.1
        (fun hkind f hf hrequired => ?_)
      · obtain ⟨_, -, -, g, hg, -⟩ := exists_left_of_forall₂ hsets hx
        have hrel := hfields.find? x.1
        rw [hg] at hrel
        generalize hf : Field.named? _ x.1 = o at hrel
        cases hrel
        rfl
      · obtain ⟨hkey, g, hg, hok⟩ := hall hx
        have hrel := hfields.find? x.2.1
        rw [hg, hf] at hrel
        cases hrel with | some hfg =>
        exact ih x.1.2 (Value.value_mem_children (List.of_mem_zip hx).1)
          (h.renders_field he hbody (List.mem_of_find?_eq_some hg) hfg) hok
      · obtain ⟨g, hg, hfg⟩ := exists_right_of_forall₂ hfields.each hf
        rw [← hfg.name]
        exact henough.2 hkind g hg (hfg.requiredness.trans hrequired)

/-- **Coercion is complete**: what the rules say is what a value becomes. -/
theorem coerce_complete (h : s.Models d) {t : TypeExpr} {v u : Value}
    (hcoerces : d.Coerces t v u) (site : Site) {ty : Ty} (hty : s.Renders t ty) :
    v.coerce s site ty = .ok u := by
  rw [Value.coerce_eq_ok]
  induction hcoerces generalizing ty with
  | primitive hreaches hconverts =>
    obtain ⟨shape, hok, hshape⟩ :=
      h.dealias_complete site.owner hreaches hty
    cases hshape
    exact ⟨_, hok, .primitive hconverts⟩
  | list hreaches hsequence hlength _ ih =>
    obtain ⟨shape, hok, hshape⟩ :=
      h.dealias_complete site.owner hreaches hty
    cases hshape with | list helement =>
    refine ⟨_, hok, .list hsequence (List.forall₂_iff_zip.mpr ⟨hlength, ?_⟩)⟩
    exact fun hx => Value.coerce_eq_ok.mpr (ih _ hx helement)
  | set hreaches hsequence hlength _ ih =>
    obtain ⟨shape, hok, hshape⟩ :=
      h.dealias_complete site.owner hreaches hty
    cases hshape with | set helement =>
    refine ⟨_, hok, .set hsequence (List.forall₂_iff_zip.mpr ⟨hlength, ?_⟩)⟩
    exact fun hx => Value.coerce_eq_ok.mpr (ih _ hx helement)
  | map hreaches hlength _ _ ihk ihv =>
    obtain ⟨shape, hok, hshape⟩ :=
      h.dealias_complete site.owner hreaches hty
    cases hshape with | map hkeys hvalues =>
    refine ⟨_, hok, .map (List.forall₂_iff_zip.mpr ⟨hlength, ?_⟩)⟩
    exact fun hx => ⟨Value.coerce_eq_ok.mpr (ihk _ hx hkeys),
      Value.coerce_eq_ok.mpr (ihv _ hx hvalues)⟩
  | item n hreaches =>
    obtain ⟨id, e, hok, -, rfl, hdeclared⟩ :=
      h.reachesBody_complete site.owner hreaches hty
    generalize hbody : e.body = b at hdeclared
    cases hdeclared
    exact ⟨_, hok, .item n hbody⟩
  | number hreaches hnumber hmember =>
    obtain ⟨id, e, hok, -, rfl, hdeclared⟩ :=
      h.reachesBody_complete site.owner hreaches hty
    generalize hbody : e.body = b at hdeclared
    cases hdeclared with | enum _ hnumbers =>
    exact ⟨_, hok, .number hbody hnumber (hnumbers.map_value ▸ hmember)⟩
  | same fields hreaches =>
    obtain ⟨id, e, hok, -, rfl, hdeclared⟩ :=
      h.reachesBody_complete site.owner hreaches hty
    generalize hbody : e.body = b at hdeclared
    cases hdeclared
    exact ⟨_, hok, .same fields hbody⟩
  | struct hreaches hkeys hknown _ hdistinct hsingle hrequired ih =>
    obtain ⟨id, e, hok, he, rfl, hdeclared⟩ :=
      h.reachesBody_complete site.owner hreaches hty
    generalize hbody : e.body = b at hdeclared
    cases hdeclared with | struct hfields =>
    have hpairs := map_eq_map_iff_forall₂.mp hkeys
    refine ⟨_, hok, .struct hbody (List.forall₂_iff_zip.mpr
      ⟨hpairs.length_eq, fun {a b} hx => ⟨?_, ?_⟩⟩) hdistinct
      ⟨hsingle, fun hkind g hg hreq => ?_⟩⟩
    · exact List.forall₂_zip hpairs hx
    · obtain ⟨f, hf⟩ := Option.isSome_iff_exists.mp
        (hknown b (List.of_mem_zip hx).2)
      have hrel := hfields.find? b.1
      rw [hf] at hrel
      generalize hg : List.find? _ _ = o at hrel
      cases hrel with | @some _ g hfg =>
      exact ⟨g, rfl, Value.coerce_eq_ok.mpr (ih _ hx f hf
        (h.renders_field he hbody (List.mem_of_find?_eq_some hg) hfg))⟩
    · obtain ⟨f, hf, hfg⟩ := exists_left_of_forall₂ hfields.each hg
      rw [hfg.name]
      exact hrequired hkind f hf (hfg.requiredness.symm.trans hreq)

/-- **Coercion goes by the rules.** -/
theorem coerce_eq_ok (h : s.Models d) {site : Site} {t : TypeExpr} {ty : Ty}
    {v u : Value} (hty : s.Renders t ty) :
    v.coerce s site ty = .ok u ↔ d.Coerces t v u :=
  ⟨h.coerce_sound hty, fun hcoerces => h.coerce_complete hcoerces site hty⟩

/-- **The rules say at most one thing** of a value and a type. -/
theorem coerces_unique (h : s.Models d) {t : TypeExpr} {v u u' : Value}
    (hu : d.Coerces t v u) (hu' : d.Coerces t v u') : u = u' := by
  have hok := h.coerce_complete hu ⟨"", .unknown⟩ (renders_toTy s t)
  rw [h.coerce_complete hu' ⟨"", .unknown⟩ (renders_toTy s t)] at hok
  exact (Except.ok.inj hok).symm

end Scope.Models

end Interlink
