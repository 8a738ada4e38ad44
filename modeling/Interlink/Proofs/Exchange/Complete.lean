import Interlink.Proofs.Document.Typed
import Interlink.Proofs.Exchange.Rules
import Interlink.Proofs.Linked

/-!
# Receiving what was sent

A value that is sent and received again is the same but for its structs. The
fields of a struct arrive in the order of their declaration, and a field that
was not set arrives with its default, if it has one. That is the
**completion** of the value (`Value.complete`), and it is exactly what is
received (`Wire.toValue_of_toWire`).

Nothing is added to a value none of whose structs lacks a field with a default
(`Value.IsComplete`): such a value comes back as it was, up to the order of its
fields (`Value.Alike`, `Value.alike_complete`).
-/

namespace Interlink

/-! ## Completion -/

/-- What a struct has in the place of a declared field once it is completed:
what was given, or the default. `given` completes what was given, by name, at
the type of its field. -/
def Entity.Field.completed (given : List (String × (Ty → Value))) (f : Field) :
    Option (String × Value) :=
  match given.lookup f.name with
  | some complete => some (f.name, complete f.type)
  | none => f.defaultValue.map fun v => (f.name, v)

namespace Value

mutual

/-- **A value with the fields that its structs lack.** The fields of a struct
stand in the order of their declaration. Those that were set are themselves
completed, and those that were not have their defaults, as they are stored. -/
def complete (s : Scope) (v : Value) (ty : Ty) : Value :=
  match s.shape ty with
  | .ok (.list element) =>
    match v with
    | .list items => .list (completeItems s element items)
    | v => v
  | .ok (.set element) =>
    match v with
    | .set items => .set (completeItems s element items)
    | v => v
  | .ok (.map key value) =>
    match v with
    | .map entries => .map (completeEntries s key value entries)
    | v => v
  | .ok (.entity _ e) =>
    match e.body with
    | .struct _ declared =>
      match v with
      | .struct typeName fields =>
        .struct typeName
          (declared.filterMap (Entity.Field.completed (completions s fields)))
      | v => v
    | _ => v
  | _ => v

def completeItems (s : Scope) (element : Ty) : List Value → List Value
  | [] => []
  | item :: items => complete s item element :: completeItems s element items

def completeEntries (s : Scope) (key value : Ty) :
    List (Value × Value) → List (Value × Value)
  | [] => []
  | (k, v) :: entries =>
    (complete s k key, complete s v value) :: completeEntries s key value entries

/-- What was set, by name, ready to be completed at the type of its field. -/
def completions (s : Scope) : List (String × Value) → List (String × (Ty → Value))
  | [] => []
  | (name, v) :: fields => (name, complete s v) :: completions s fields

end

variable {s : Scope} {ty : Ty}

theorem completeItems_eq_map (element : Ty) (items : List Value) :
    completeItems s element items = items.map fun v => v.complete s element := by
  induction items with
  | nil => rfl
  | cons v items ih => rw [completeItems, ih, List.map_cons]

theorem completeEntries_eq_map (key value : Ty) (entries : List (Value × Value)) :
    completeEntries s key value entries =
      entries.map fun x => (x.1.complete s key, x.2.complete s value) := by
  induction entries with
  | nil => rfl
  | cons x entries ih => rw [completeEntries, ih, List.map_cons]

theorem completions_eq_map (fields : List (String × Value)) :
    completions s fields = fields.map fun x => (x.1, x.2.complete s) := by
  induction fields with
  | nil => rfl
  | cons x fields ih => rw [completions, ih, List.map_cons]

end Value

/-! ## What is received is the completion -/

theorem Wire.primitiveToValue_of_primitiveToWire {p : Primitive} {v : Value}
    {w : Wire} (h : v.primitiveToWire p = .ok w) :
    w.primitiveToValue p = .ok v := by
  cases p <;> cases v <;> cases h <;> rfl

namespace Value

variable {s : Scope}

/-- **Of a union one field is left**, if one was set and none has a default. -/
theorem length_filterMap_completed {declared : List Entity.Field}
    (h : Entity.Field.ToldApart .union declared) {fields : List (String × Value)}
    (known : ∀ x ∈ fields, x.1 ∈ declared.map Entity.Field.name)
    (single : fields.length = 1) :
    (declared.filterMap
      (Entity.Field.completed (completions s fields))).length = 1 := by
  obtain ⟨⟨name, v⟩, rfl⟩ := List.length_eq_one_iff.mp single
  have hcompleted : ∀ f ∈ declared,
      (f.completed (completions s [(name, v)])).isSome = true ↔
        (f.name == name) = true := by
    intro f hf
    unfold Entity.Field.completed
    rw [h.plain rfl f hf, completions, List.lookup_cons]
    cases f.name == name <;> simp [completions]
  calc (declared.filterMap (Entity.Field.completed (completions s [(name, v)]))).length
      = declared.countP fun f => f.name == name := by
        rw [List.length_filterMap_eq_countP]
        exact List.countP_congr hcompleted
    _ = (declared.map Entity.Field.name).count name := by
        rw [List.count, List.countP_map]
        rfl
    _ = 1 := List.count_eq_one_of_mem h.names (known _ List.mem_cons_self)

end Value

namespace Wire

variable {s : Scope} {ty : Ty} {v : Value} {w : Wire}

/-- **What arrives for a field is what its completion has**, if what was set
arrives completed. -/
theorem receive_of_send {typeName : String} {declared : List Entity.Field}
    (distinct : (declared.map Entity.Field.id).Nodup)
    {fields : List (String × Value)} {sent : List (Option (Int16 × Wire))}
    (hsent : List.Forall₂ (fun f o =>
      f.send typeName (fields.map fun x => (x.1, x.2.toWire s)) = .ok o)
      declared sent)
    (harrives : ∀ x ∈ fields, ∀ ty w, x.2.toWire s ty = .ok w →
      w.toValue s ty = .ok (x.2.complete s ty)) :
    ∀ f ∈ declared,
      f.receive typeName (sent.reduceOption.map fun x => (x.1, x.2.toValue s))
        = .ok (f.completed (Value.completions s fields)) := by
  have hfound := forall₂_lookup_reduceOption distinct
    (hsent.imp fun f o ho entry hentry => by
      rcases Entity.Field.send_eq_ok.mp ho with ⟨_, w, -, -, rfl⟩ | ⟨-, -, rfl⟩
      · cases hentry
        rfl
      · cases hentry)
  intro f hf
  obtain ⟨o, -, ho, hlookup⟩ := exists_left_of_forall₂_and hsent.flip hfound.flip hf
  unfold Entity.Field.receive Entity.Field.completed
  rw [lookup_map_snd, hlookup, Value.completions_eq_map, lookup_map_snd]
  rw [Entity.Field.send_eq_ok, lookup_map_snd] at ho
  rcases ho with ⟨lower, w, hlower, hw, rfl⟩ | ⟨hnone, hrequired, rfl⟩
  · -- it was set, and is found under its id
    obtain ⟨v, hv, rfl⟩ := Option.map_eq_some_iff.mp hlower
    have hmem : (f.name, v) ∈ fields := mem_of_lookup_eq_some hv
    rw [hv]
    show (fun v => some (f.name, v)) <$> w.toValue s f.type = _
    rw [harrives _ hmem _ _ hw]
    rfl
  · -- it was not set, so nothing is found, and its default counts
    rw [Option.map_eq_none_iff.mp hnone]
    dsimp only [Option.map_none]
    rw [hrequired]
    cases f.defaultValue <;> rfl

/-- **What was sent is received completed**, in a scope that tells the fields of
its structs apart. -/
theorem toValue_of_toWire (h : s.TellsApart) (hw : v.toWire s ty = .ok w) :
    w.toValue s ty = .ok (v.complete s ty) := by
  -- types do not get smaller on the way, since typedefs are followed; values do
  induction v using Value.childInduction generalizing ty w with
  | step v ih =>
    obtain ⟨shape, hshape, hlowers⟩ := Value.toWire_eq_ok.mp hw
    refine (toValue_eq_ok h).mpr ⟨shape, hshape, ?_⟩
    rw [Value.complete, hshape]
    cases hlowers with
    | primitive sent => exact .primitive (primitiveToValue_of_primitiveToWire sent)
    | list announced each =>
      dsimp only
      rw [Value.completeItems_eq_map]
      refine .list (List.forall₂_map_right_iff.mpr ?_)
      exact (forall₂_imp_of_mem each fun v hv w hw => ih v hv hw).flip
    | set announced each =>
      dsimp only
      rw [Value.completeItems_eq_map]
      refine .set (List.forall₂_map_right_iff.mpr ?_)
      exact (forall₂_imp_of_mem each fun v hv w hw => ih v hv hw).flip
    | map keys values each =>
      dsimp only
      rw [Value.completeEntries_eq_map]
      refine .map (List.forall₂_map_right_iff.mpr ?_)
      refine (forall₂_imp_of_mem each fun x hx w hw => ?_).flip
      exact ⟨ih x.1 (Value.key_mem_children hx) hw.1,
        ih x.2 (Value.value_mem_children hx) hw.2⟩
    | @item id e items n body member =>
      dsimp only
      rw [body]
      exact .item body member
    | @struct id e kind declared fields sent body known single each =>
      have htold := h id e kind declared (s.entity?_of_shape hshape) body
      have hreceive := receive_of_send htold.ids each fun x hx ty w hw =>
        ih x.2 (List.mem_map_of_mem hx) hw
      dsimp only
      rw [body]
      dsimp only
      rw [← reduceOption_map_eq_filterMap]
      refine .struct body ?_ ?_
      · exact List.forall₂_map_right_iff.mpr (List.forall₂_same.mpr hreceive)
      · rintro rfl
        rw [reduceOption_map_eq_filterMap]
        exact Value.length_filterMap_completed htold known (single rfl)

end Wire

/-! ## Values that are complete -/

namespace Value

/-- **Equality up to the order of fields.** Structs are equal when the same
names are set in them, to values that are equal. -/
inductive Alike : Value → Value → Prop
  | primitive {v : Value} {p : Primitive} (plain : v.primitive? = some p) : Alike v v
  | item (name : String) (n : Int32) : Alike (.enum name n) (.enum name n)
  | list {xs ys : List Value} (each : List.Forall₂ Alike xs ys) :
      Alike (.list xs) (.list ys)
  | set {xs ys : List Value} (each : List.Forall₂ Alike xs ys) :
      Alike (.set xs) (.set ys)
  | map {xs ys : List (Value × Value)}
      (keys : List.Forall₂ Alike (xs.map Prod.fst) (ys.map Prod.fst))
      (values : List.Forall₂ Alike (xs.map Prod.snd) (ys.map Prod.snd)) :
      Alike (.map xs) (.map ys)
  | struct {typeName : String} {xs ys : List (String × Value)}
      (names : ∀ name, name ∈ xs.map Prod.fst ↔ name ∈ ys.map Prod.fst)
      (each : ∀ name v u, xs.lookup name = some v → ys.lookup name = some u →
        Alike v u) :
      Alike (.struct typeName xs) (.struct typeName ys)

/-- A value is part of a value: it is that value, or part of one of those that
the value is made of. -/
def HasPart : Value → Value → Prop :=
  Relation.ReflTransGen fun v u => u ∈ v.children

/-- **A struct lacks nothing** if all its fields that have a default are set. -/
def LacksNothing (s : Scope) (typeName : String) (fields : List (String × Value)) :
    Prop :=
  ∀ id e kind declared, s.named? typeName = some (id, e) →
    e.body = .struct kind declared →
    ∀ f ∈ declared, f.defaultValue.isSome = true → f.name ∈ fields.map Prod.fst

/-- **A value is complete** if no struct in it lacks a field that has a
default. -/
def IsComplete (s : Scope) (v : Value) : Prop :=
  ∀ typeName fields, v.HasPart (.struct typeName fields) →
    LacksNothing s typeName fields

variable {s : Scope} {ty : Ty} {v u : Value} {w : Wire}

/-- What a complete value is made of is complete. -/
theorem IsComplete.of_mem_children (h : v.IsComplete s) (hu : u ∈ v.children) :
    u.IsComplete s :=
  fun typeName fields hpart => h typeName fields (.head hu hpart)

/-- A value is complete if it lacks nothing itself, and what it is made of is
complete. -/
theorem isComplete_of_children
    (hself : ∀ typeName fields, v = .struct typeName fields →
      LacksNothing s typeName fields)
    (hchildren : ∀ u ∈ v.children, u.IsComplete s) : v.IsComplete s := by
  intro typeName fields hpart
  rcases Relation.ReflTransGen.cases_head hpart with heq | ⟨u, hu, hpart⟩
  · exact hself typeName fields heq
  · exact hchildren u hu typeName fields hpart

theorem primitive?_of_primitiveToWire {p : Primitive}
    (h : v.primitiveToWire p = .ok w) : v.primitive? = some p := by
  cases p <;> cases v <;> cases h <;> rfl

/-- What the completion of a struct has for a declared field. -/
theorem completed_completions (fields : List (String × Value)) (f : Entity.Field) :
    f.completed (completions s fields) =
      ((fields.lookup f.name).map fun v => (f.name, v.complete s f.type)).or
        (f.defaultValue.map fun v => (f.name, v)) := by
  unfold Entity.Field.completed
  rw [completions_eq_map, lookup_map_snd]
  cases fields.lookup f.name <;> rfl

/-- **The fields of a complete struct are those of its completion.** Under each
name the completion has what was given, completed. -/
theorem alike_completed {kind : StructKind} {declared : List Entity.Field}
    (h : Entity.Field.ToldApart kind declared) {typeName : String}
    {fields : List (String × Value)}
    (known : ∀ x ∈ fields, x.1 ∈ declared.map Entity.Field.name)
    (full : ∀ f ∈ declared, f.defaultValue.isSome = true →
      f.name ∈ fields.map Prod.fst)
    (each : ∀ f ∈ declared, ∀ v, fields.lookup f.name = some v →
      v.Alike (v.complete s f.type)) :
    Alike (.struct typeName fields)
      (.struct typeName
        (declared.filterMap (Entity.Field.completed (completions s fields)))) := by
  set completed := declared.filterMap (Entity.Field.completed (completions s fields))
    with hcompleted
  have hname : ∀ f ∈ declared, ∀ entry ∈ f.completed (completions s fields),
      entry.1 = f.name := by
    intro f _ entry hentry
    rw [completed_completions, Option.mem_def, Option.or_eq_some_iff,
      Option.map_eq_some_iff, Option.map_eq_some_iff] at hentry
    rcases hentry with ⟨v, -, rfl⟩ | ⟨-, v, -, rfl⟩ <;> rfl
  -- no default is taken, for a field that has one was given
  have hlookup : ∀ f ∈ declared, completed.lookup f.name =
      (fields.lookup f.name).map fun v => v.complete s f.type := by
    intro f hf
    rw [hcompleted, lookup_filterMap h.names hname hf, completed_completions]
    cases hgiven : fields.lookup f.name with
    | some v => rfl
    | none =>
      have hdefault : f.defaultValue = none := by
        refine Option.not_isSome_iff_eq_none.mp fun hsome => ?_
        have hset := lookup_isSome_iff_mem.mpr (full f hf hsome)
        rw [hgiven] at hset
        cases hset
      rw [hdefault]
      rfl
  have hdeclared : ∀ x ∈ completed, x.1 ∈ declared.map Entity.Field.name := by
    intro x hx
    obtain ⟨f, hf, hoffer⟩ := List.mem_filterMap.mp hx
    rw [hname f hf x hoffer]
    exact List.mem_map_of_mem hf
  -- a name that is not declared is neither given nor added
  have hforeign : ∀ name (xs : List (String × Value)),
      (∀ x ∈ xs, x.1 ∈ declared.map Entity.Field.name) →
      name ∈ xs.map Prod.fst → ∃ f ∈ declared, f.name = name := by
    intro name xs hxs hmem
    obtain ⟨x, hx, rfl⟩ := List.mem_map.mp hmem
    exact List.mem_map.mp (hxs x hx)
  refine .struct (fun name => ?_) fun name v u hv hu => ?_
  · have hsame : ∀ f ∈ declared,
        (f.name ∈ fields.map Prod.fst ↔ f.name ∈ completed.map Prod.fst) := by
      intro f hf
      rw [← lookup_isSome_iff_mem, ← lookup_isSome_iff_mem, hlookup f hf,
        Option.isSome_map]
    constructor
    · intro hmem
      obtain ⟨f, hf, rfl⟩ := hforeign name fields known hmem
      exact (hsame f hf).mp hmem
    · intro hmem
      obtain ⟨f, hf, rfl⟩ := hforeign name completed hdeclared hmem
      exact (hsame f hf).mpr hmem
  · have hmem := lookup_isSome_iff_mem.mp (Option.isSome_of_eq_some hv)
    obtain ⟨f, hf, rfl⟩ := hforeign name fields known hmem
    rw [hlookup f hf, hv] at hu
    cases hu
    exact each f hf v hv

/-- **A complete value that is sent comes back as it was**, up to the order of
its fields. -/
theorem alike_complete (h : s.TellsApart) (harena : s.IsArena)
    (hw : v.toWire s ty = .ok w) (hv : v.IsComplete s) :
    v.Alike (v.complete s ty) := by
  induction v using Value.childInduction generalizing ty w with
  | step v ih =>
    obtain ⟨shape, hshape, hlowers⟩ := toWire_eq_ok.mp hw
    rw [complete, hshape]
    cases hlowers with
    | primitive sent => exact .primitive (primitive?_of_primitiveToWire sent)
    | list announced each =>
      dsimp only
      rw [completeItems_eq_map]
      refine .list (List.forall₂_map_right_iff.mpr (List.forall₂_same.mpr ?_))
      intro v hmem
      obtain ⟨w, -, hw⟩ := exists_right_of_forall₂ each hmem
      exact ih v hmem hw (hv.of_mem_children hmem)
    | set announced each =>
      dsimp only
      rw [completeItems_eq_map]
      refine .set (List.forall₂_map_right_iff.mpr (List.forall₂_same.mpr ?_))
      intro v hmem
      obtain ⟨w, -, hw⟩ := exists_right_of_forall₂ each hmem
      exact ih v hmem hw (hv.of_mem_children hmem)
    | @map key value keyTag valueTag entries ws keys values each =>
      have hentry : ∀ x ∈ entries, x.1.Alike (x.1.complete s key)
          ∧ x.2.Alike (x.2.complete s value) := by
        intro x hx
        obtain ⟨w, -, hk, hw⟩ := exists_right_of_forall₂ each hx
        exact ⟨ih x.1 (key_mem_children hx) hk (hv.of_mem_children (key_mem_children hx)),
          ih x.2 (value_mem_children hx) hw (hv.of_mem_children (value_mem_children hx))⟩
      dsimp only
      rw [completeEntries_eq_map]
      refine .map ?_ ?_
      · rw [List.map_map, List.forall₂_map_left_iff, List.forall₂_map_right_iff,
          List.forall₂_same]
        exact fun x hx => (hentry x hx).1
      · rw [List.map_map, List.forall₂_map_left_iff, List.forall₂_map_right_iff,
          List.forall₂_same]
        exact fun x hx => (hentry x hx).2
    | @item id e items n body member =>
      dsimp only
      rw [body]
      exact .item e.name n
    | @struct id e kind declared fields sent body known single each =>
      dsimp only
      rw [body]
      have he := s.entity?_of_shape hshape
      refine alike_completed (h id e kind declared he body) known ?_ ?_
      · exact hv e.name fields .refl id e kind declared
          (harena.named?_eq_some.mpr ⟨he, rfl⟩) body
      · intro f hf v hgiven
        obtain ⟨o, -, ho⟩ := exists_right_of_forall₂ each hf
        rw [Entity.Field.send_eq_ok, lookup_map_snd, hgiven] at ho
        have hmem : v ∈ children (.struct e.name fields) :=
          List.mem_map_of_mem (mem_of_lookup_eq_some hgiven)
        rcases ho with ⟨lower, w, hlower, hw, -⟩ | ⟨hnone, -⟩
        · cases hlower
          exact ih v hmem hw (hv.of_mem_children hmem)
        · cases hnone

end Value

/-! ## Compiled documents -/

namespace Document

variable {d : Document} {name : String} {c : Compiled}

/-- **The scope of a compiled document tells the fields of its structs
apart.** -/
theorem tellsApart_of_compile (hok : d.compile name = .ok c) :
    c.scope.TellsApart := by
  have hd := wellFormed_of_compile hok
  have hstage := stage_of_compile hok
  intro id e kind declared he hbody
  obtain ⟨x, hx, hdeclared⟩ := hstage.models.exists_defines he
  obtain ⟨-, hvalued⟩ := (hstage.each id e he).settled x hx
  rw [hbody] at hdeclared hvalued
  cases hdeclared with | @struct _ fields _ hfields =>
  have hdistinct : Field.Distinct fields := by
    obtain ⟨y, hy, -, hbody⟩ := hx
    exact hd.fields y hy fields (by rw [hbody]; exact List.mem_singleton_self _)
  refine ⟨?_, ?_, ?_⟩
  · rw [hfields.map_name]
    exact hdistinct.names
  · have hids : ((declared.map Entity.Field.id).map Int16.toInt).Nodup := by
      rw [List.map_map]
      exact hfields.ids ▸ hdistinct.ids
    exact hids.of_map
  · rintro rfl g hg
    obtain ⟨f, hf, hfg⟩ := exists_left_of_forall₂ hvalued hg
    unfold Field.ValuedAs at hfg
    rw [(hd.unions e.name fields hx f hf).2] at hfg
    generalize g.defaultValue = stored at hfg
    cases hfg
    rfl

/-- **What was sent is received completed.** In the scope of a compiled
document a value that can be sent is received again with what its structs
lacked, and as it was, up to the order of fields, if they lacked nothing. -/
theorem toValue_toWire_of_compile (hok : d.compile name = .ok c) {ty : Ty}
    {v : Value} {w : Wire} (hw : v.toWire c.scope ty = .ok w) :
    w.toValue c.scope ty = .ok (v.complete c.scope ty)
      ∧ (v.IsComplete c.scope → v.Alike (v.complete c.scope ty)) := by
  have h := tellsApart_of_compile hok
  have harena := (stage_of_compile hok).models.arena
  exact ⟨Wire.toValue_of_toWire h hw, Value.alike_complete h harena hw⟩

/-- A document with a default that is a struct with a default, which the outer
default sets or leaves as it is. -/
def nested (sets : Bool) : Document where
  headers := []
  definitions :=
    [⟨"Inner", ⟨1, 1⟩, .struct .struct
        [⟨some 1, "x", .primitive .i32, .unmarked, some (.int 5), ⟨2, 3⟩⟩]⟩,
      ⟨"Outer", ⟨3, 1⟩, .struct .struct
        [⟨some 1, "inner", .named ⟨"Inner", ⟨4, 3⟩⟩, .unmarked,
          some (.map (if sets then [(.string "x", .int 7)] else [])), ⟨4, 3⟩⟩]⟩]

/-- Its scope. The default of `inner` is stored with what it sets. -/
def nestedScope (sets : Bool) : Scope where
  name := "nested"
  entities :=
    [⟨"Inner", ⟨1, 1⟩, true, .struct .struct
        [⟨1, "x", .primitive .i32, .unmarked, some (.int 5), some (.i32 5),
          ⟨2, 3⟩⟩]⟩,
      ⟨"Outer", ⟨3, 1⟩, true, .struct .struct
        [⟨1, "inner", .named ⟨"Inner", ⟨4, 3⟩, some 0⟩, .unmarked,
          some (.map (if sets then [(.string "x", .int 7)] else [])),
          some (.struct "Inner" (if sets then [("x", .i32 7)] else [])), ⟨4, 3⟩⟩]⟩]
  symbols := [("Inner", 0), ("Outer", 1)]

section

open Evaluation

theorem compile_nested (sets : Bool) :
    (nested sets).compile "nested" = .ok ⟨nestedScope sets, []⟩ := by
  cases sets <;> simp [nested, nestedScope]

end

/-- An outer struct, with what the inner one has. -/
def outer (fields : List (String × Value)) : Value :=
  .struct "Outer" [("inner", .struct "Inner" fields)]

/-- The type of outer structs. -/
def outerType : Ty := .named ⟨"Outer", ⟨1, 1⟩, none⟩

/-- An outer struct whose inner one has its field is complete. -/
theorem isComplete_outer (sets : Bool) (n : Int32) :
    (outer [("x", .i32 n)]).IsComplete (nestedScope sets) := by
  have hnumber : Value.IsComplete (nestedScope sets) (.i32 n) := by
    refine Value.isComplete_of_children (fun _ _ h => by cases h) fun u hu => ?_
    cases hu
  have hinner : Value.IsComplete (nestedScope sets) (.struct "Inner" [("x", .i32 n)]) := by
    refine Value.isComplete_of_children ?_ ?_
    · rintro _ _ ⟨⟩ id e kind declared hnamed hbody
      cases hnamed
      cases hbody
      simp
    · simpa [Value.children] using hnumber
  refine Value.isComplete_of_children ?_ ?_
  · rintro _ _ ⟨⟩ id e kind declared hnamed hbody
    cases hnamed
    cases hbody
    simp
  · simpa [outer, Value.children] using hinner

/-- An inner struct that lacks its field comes back with it, and one that has it
as it was. -/
theorem toValue_toWire_nested :
    (nested false).compile "nested" = .ok ⟨nestedScope false, []⟩
      ∧ (∃ w, (outer []).toWire (nestedScope false) outerType = .ok w
        ∧ w.toValue (nestedScope false) outerType = .ok (outer [("x", .i32 5)]))
      ∧ ∃ w, (outer [("x", .i32 7)]).toWire (nestedScope false) outerType = .ok w
        ∧ w.toValue (nestedScope false) outerType
          = .ok ((outer [("x", .i32 7)]).complete (nestedScope false) outerType)
        ∧ (outer [("x", .i32 7)]).Alike
          ((outer [("x", .i32 7)]).complete (nestedScope false) outerType) := by
  have hlacking : (outer []).toWire (nestedScope false) outerType
      = .ok (.struct [(1, .struct [])]) := rfl
  have hfull : (outer [("x", .i32 7)]).toWire (nestedScope false) outerType
      = .ok (.struct [(1, .struct [(1, .i32 7)])]) := rfl
  have hreceived := toValue_toWire_of_compile (compile_nested false) hfull
  exact ⟨compile_nested false,
    ⟨_, hlacking, (toValue_toWire_of_compile (compile_nested false) hlacking).1⟩,
    _, hfull, hreceived.1, hreceived.2 (isComplete_outer false 7)⟩

end Document

end Interlink
