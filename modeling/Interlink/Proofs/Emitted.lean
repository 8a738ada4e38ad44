import Interlink.Proofs.Document.Typed
import Interlink.Proofs.Reordered
import Interlink.Proofs.Scope.Json

/-!
# What is emitted is read back

The scope of a compiled document is storable, and so is read back as it is from
the text that is emitted (`Document.parse?_scope_of_compile`). Most of that is
known of compiled scopes: references are bound to entities, and there are not
more of these than handles; symbols are the different names of entities; methods
are functions of services. What is left are the values. A struct is made from a
map without repeated names, or is the value of a constant that was made so, and
so values are tidy (`Document.tidy_of_hasValue`).
-/

namespace Interlink

/-! ## Values of expressions are tidy -/

namespace Value

theorem tidy_of_primitive? {v : Value} {p : Primitive} (h : v.primitive? = some p) :
    v.Tidy := by
  refine .mk ?_ fun u hu => ?_
  · cases v with
    | struct => cases h
    | _ => exact List.nodup_nil
  · cases v with
    | list => cases h
    | set => cases h
    | map => cases h
    | struct => cases h
    | _ => exact absurd hu List.not_mem_nil

theorem tidy_enum (name : String) (n : Int32) : (enum name n).Tidy :=
  .mk List.nodup_nil fun _ hu => absurd hu List.not_mem_nil

theorem tidy_list {items : List Value} (h : ∀ v ∈ items, v.Tidy) : (list items).Tidy :=
  .mk List.nodup_nil h

theorem tidy_set {items : List Value} (h : ∀ v ∈ items, v.Tidy) : (set items).Tidy :=
  .mk List.nodup_nil h

theorem tidy_map {entries : List (Value × Value)} (hkeys : ∀ x ∈ entries, x.1.Tidy)
    (hvalues : ∀ x ∈ entries, x.2.Tidy) : (map entries).Tidy := by
  refine .mk List.nodup_nil (List.forall_mem_append.mpr ⟨?_, ?_⟩)
  · exact List.forall_mem_map.mpr hkeys
  · exact List.forall_mem_map.mpr hvalues

theorem tidy_struct {name : String} {fields : List (String × Value)}
    (hnames : (fields.map Prod.fst).Nodup) (hvalues : ∀ x ∈ fields, x.2.Tidy) :
    (struct name fields).Tidy :=
  .mk hnames (List.forall_mem_map.mpr hvalues)

end Value

namespace Document

variable {d : Document}

/-- **A tidy value is tidy at every type.** -/
theorem tidy_of_coerces {t : TypeExpr} {v u : Value} (h : d.Coerces t v u) (hv : v.Tidy) :
    u.Tidy := by
  induction h with
  | primitive _ converts => exact Value.tidy_of_primitive? converts.primitive?
  | @list t element v items typed type sequence length _ ih =>
    refine Value.tidy_list fun u hu => ?_
    obtain ⟨w, hwu⟩ := exists_mem_zip_right length hu
    exact ih _ hwu (hv.parts w (sequence.mem_children (List.of_mem_zip hwu).1))
  | @set t element v items typed type sequence length _ ih =>
    refine Value.tidy_set fun u hu => ?_
    obtain ⟨w, hwu⟩ := exists_mem_zip_right length (Value.distinct_subset _ hu)
    exact ih _ hwu (hv.parts w (sequence.mem_children (List.of_mem_zip hwu).1))
  | @map t key value entries typed type length _ _ ihk ihv =>
    refine Value.tidy_map (fun y hy => ?_) fun y hy => ?_
    · obtain ⟨x, hxy⟩ := exists_mem_zip_right length hy
      exact ihk _ hxy (hv.parts x.1 (Value.key_mem_children (List.of_mem_zip hxy).1))
    · obtain ⟨x, hxy⟩ := exists_mem_zip_right length hy
      exact ihv _ hxy (hv.parts x.2 (Value.value_mem_children (List.of_mem_zip hxy).1))
  | item n => exact Value.tidy_enum _ n
  | number => exact Value.tidy_enum _ _
  | same => exact hv
  | @struct t name kind declared entries fields type keys known _ distinct _ _ ih =>
    have hlength : entries.length = fields.length := by
      simpa using congrArg List.length keys
    refine Value.tidy_struct distinct fun y hy => ?_
    obtain ⟨x, hxy⟩ := exists_mem_zip_right hlength hy
    obtain ⟨f, hf⟩ := Option.isSome_iff_exists.mp (known y hy)
    exact ih _ hxy f hf
      (hv.parts x.2 (Value.value_mem_children (List.of_mem_zip hxy).1))

/-- **What an expression stands for is tidy.** -/
theorem tidy_of_looseValue {expr : ConstExpr} {v : Value} (h : d.LooseValue expr v) :
    v.Tidy := by
  induction h with
  | list length _ ih =>
    refine Value.tidy_list fun v hv => ?_
    obtain ⟨c, hcv⟩ := exists_mem_zip_right length hv
    exact ih _ hcv
  | map length _ _ ihk ihv =>
    refine Value.tidy_map (fun x hx => ?_) fun x hx => ?_
    · obtain ⟨c, hcx⟩ := exists_mem_zip_right length hx
      exact ihk _ hcx
    · obtain ⟨c, hcx⟩ := exists_mem_zip_right length hx
      exact ihv _ hcx
  | constant _ _ coerces ih => exact tidy_of_coerces coerces ih
  | item => exact Value.tidy_enum _ _
  | _ => exact Value.tidy_of_primitive? rfl

/-- **What an expression is at a type is tidy.** -/
theorem tidy_of_hasValue {t : TypeExpr} {expr : ConstExpr} {v : Value}
    (h : d.HasValue t expr v) : v.Tidy := by
  obtain ⟨loose, hstands, hcoerces⟩ := h
  exact tidy_of_coerces hcoerces (tidy_of_looseValue hstands)

/-! ## Compiled scopes are storable -/

variable {name : String} {c : Compiled}

/-- The handles of a compiled document have thirty-two bits. -/
theorem handle_lt_of_compile (hok : d.compile name = .ok c) {id : EntityId} {e : Entity}
    (he : c.scope.entity? id = some e) : id < 2 ^ 32 := by
  have hlength : c.scope.entities.length = d.definitions.length := by
    have hnames := congrArg List.length (stage_of_compile hok).models.names
    rwa [List.length_map, List.length_map] at hnames
  have hlt : id < c.scope.entities.length := (List.getElem?_eq_some_iff.mp he).1
  exact hlt.trans_le (hlength.trans_le (wellFormed_of_compile hok).few)

theorem tidy_of_compile (hok : d.compile name = .ok c) {id : EntityId} {e : Entity}
    (he : c.scope.entity? id = some e) : ∀ v ∈ e.body.values, v.Tidy := by
  have hstage := stage_of_compile hok
  have hdefault : ∀ g ∈ e.body.valuedFields, ∀ v ∈ g.defaultValue, v.Tidy := by
    intro g hg v hv
    obtain ⟨_, f, -, -, -, hvalues⟩ := hstage.stored_default he hg
    rw [Option.mem_def.mp hv] at hvalues
    generalize g.default = o at hvalues
    cases hvalues with
    | some hsome =>
      obtain ⟨expr, -, hvalue⟩ := hsome
      exact tidy_of_hasValue hvalue
  cases hbody : e.body with
  | const ty init stored =>
    obtain ⟨t, expr, v, -, -, -, rfl, hv⟩ := hstage.stored_const he hbody
    intro u hu
    cases List.mem_singleton.mp hu
    exact tidy_of_hasValue hv
  | struct kind fields =>
    rw [hbody] at hdefault
    refine List.forall_mem_flatMap.mpr fun g hg v hv => ?_
    exact hdefault g hg v (Option.mem_toList.mp hv)
  | service functions parent methods =>
    have hbare := bareExceptions_of_compile hok id e he
    rw [hbody] at hdefault hbare
    refine List.forall_mem_flatMap.mpr fun f hf => ?_
    refine List.forall_mem_flatMap.mpr fun g hg v hv => ?_
    have hv := Option.mem_toList.mp hv
    rcases List.mem_append.mp hg with hg | hg
    · exact hdefault g (List.mem_flatMap.mpr ⟨f, hf, hg⟩) v hv
    · -- the defaults of declared exceptions are not evaluated
      rw [hbare f hf g hg] at hv
      cases hv
  | _ => exact fun v hv => absurd hv List.not_mem_nil

/-- A bound on how many functions services declare holds in the compiled scope. -/
theorem length_functionsOf_le (hok : d.compile name = .ok c) {n : Nat}
    (hfew : ∀ x ∈ d.definitions, ∀ functions parent,
      x.body = .service functions parent → functions.length ≤ n) (id : EntityId) :
    (c.scope.functionsOf id).length ≤ n := by
  unfold Scope.functionsOf
  split
  next entityName span resolved own parent methods he =>
    obtain ⟨x, ⟨y, hy, -, hbody⟩, hdeclared⟩ :=
      (stage_of_compile hok).models.exists_defines he
    cases hdeclared with | @service functions _ _ _ _ hfunctions _ =>
    rw [← hfunctions.length_eq]
    exact hfew y hy functions _ hbody
  next => exact Nat.zero_le n

theorem storable_of_boundTo (hok : d.compile name = .ok c) {kinds : Entity.Kind → Bool}
    {r : Reference EntityId} (h : c.scope.BoundTo kinds r) : r.Storable := by
  obtain ⟨id, e, htarget, he, -⟩ := h
  intro id' hid'
  cases (Option.mem_def.mp hid').symm.trans htarget
  exact handle_lt_of_compile hok he

/-- The handle of what a constant reference means, a constant or an enum, has
thirty-two bits. -/
theorem handle_lt_of_boundConst (hok : d.compile name = .ok c) {r : Reference ConstTarget}
    (h : c.scope.BoundConst r) : ∀ t ∈ r.target, t.handle < 2 ^ 32 := by
  obtain ⟨target, htarget, hmeans⟩ := h
  intro t ht
  cases (Option.mem_def.mp ht).symm.trans htarget
  cases target with
  | const id =>
    obtain ⟨e, he, -⟩ := hmeans
    exact handle_lt_of_compile hok he
  | item id n =>
    obtain ⟨e, -, -, he, -⟩ := hmeans
    exact handle_lt_of_compile hok he

/-- The methods of a compiled document are storable if no service declares more
functions than there are places. -/
theorem storable_methods (hok : d.compile name = .ok c)
    (hfew : ∀ x ∈ d.definitions, ∀ functions parent,
      x.body = .service functions parent → functions.length ≤ 2 ^ 64)
    {id : EntityId} {e : Entity} (he : c.scope.entity? id = some e) :
    ∀ m ∈ e.body.methods, m.Storable := by
  cases hbody : e.body with
  | service own parent methods =>
    have hmethods := (methodsCollected_of_compile hok).methods id e own parent methods
      he hbody
    obtain ⟨chain, -, hoffers⟩ := hmethods.exists_lineage
      (stage_of_compile hok).models.arena (parentsBound_of_compile hok)
      (nodup_functionsOf hok)
    intro m hm
    obtain ⟨e', he'⟩ := hmethods.exists_entity m hm
    -- a method is a function of its service, so its place is below their number
    obtain ⟨f, hf, -⟩ := hoffers.nearest m hm
    rw [Scope.function?_eq] at hf
    have hlt := (List.getElem?_eq_some_iff.mp hf).1
    exact ⟨handle_lt_of_compile hok he',
      hlt.trans_le (length_functionsOf_le hok hfew m.service)⟩
  | _ => exact fun m hm => absurd hm List.not_mem_nil

/-- **The scope of a compiled document is storable** if the places of its methods
have sixty-four bits and its doubles are kept. -/
theorem storable_of_compile (hok : d.compile name = .ok c)
    (hfew : ∀ x ∈ d.definitions, ∀ functions parent,
      x.body = .service functions parent → functions.length ≤ 2 ^ 64)
    (hdoubles : ∀ x ∈ c.scope.doubles, Json.KeepsDouble x) : c.scope.Storable := by
  have hstage := stage_of_compile hok
  have harena := hstage.models.arena
  refine ⟨fun e hmem => ?_, ?_, ?_⟩
  · obtain ⟨id, he⟩ := List.mem_iff_getElem?.mp hmem
    have hbound := (hstage.each id e he).bound.1
    exact Entity.Body.storable_of_parts
      (fun r hr => storable_of_boundTo hok (hbound.types r hr))
      (fun r hr => handle_lt_of_boundConst hok (hbound.constants r hr))
      (fun r hr => storable_of_boundTo hok (hbound.parent r hr))
      (tidy_of_compile hok he) (storable_methods hok hfew he)
      fun x hx => hdoubles x (List.mem_flatMap.mpr ⟨e, hmem, hx⟩)
  · exact harena.map_symbols ▸ harena.distinct
  · intro x hx
    rw [harena.symbols] at hx
    obtain ⟨id, hid, rfl⟩ := List.mem_mapIdx.mp hx
    exact handle_lt_of_compile hok (List.getElem?_eq_getElem hid)

/-- **What is emitted is read back.** The scope of a compiled document is read,
as it is, from its compact text and from its spread text, if they nest within the
limit; if they nest deeper they are refused. The doubles of the scope are finite,
and their numbers are read as they were written; and no service declares more
functions than there are places of sixty-four bits. -/
theorem parse?_scope_of_compile (hok : d.compile name = .ok c)
    (hfew : ∀ x ∈ d.definitions, ∀ functions parent,
      x.body = .service functions parent → functions.length ≤ 2 ^ 64)
    (hfinite : ∀ x ∈ c.scope.doubles, x.isFinite = true)
    (hread : ∀ x ∈ c.scope.doubles, (Json.Number.ofDouble x).double? = some x) :
    (c.scope.toJson.depth ≤ maxDepth →
        Scope.parse? c.scope.toJson.compact = some c.scope
          ∧ Scope.parse? c.scope.toJson.pretty = some c.scope)
      ∧ (maxDepth < c.scope.toJson.depth →
        Scope.parse? c.scope.toJson.compact = none
          ∧ Scope.parse? c.scope.toJson.pretty = none) := by
  have hstorable := storable_of_compile hok hfew fun x hx => ⟨hfinite x hx, hread x hx⟩
  rw [hstorable.parse?_text (.inl rfl), hstorable.parse?_text (.inr rfl)]
  refine ⟨fun hdepth => ?_, fun hdepth => ?_⟩
  · rw [if_pos hdepth]
    exact ⟨rfl, rfl⟩
  · rw [if_neg (Nat.not_le.mpr hdepth)]
    exact ⟨rfl, rfl⟩

/-- **A document whose scope has something of everything**: a constant that is a
struct with a map in it, keyed by an item of an enum that is defined later; a
double as a default; a constant as the default of a parameter; and an inherited
method. -/
def gauge : Document where
  headers := []
  definitions :=
    [⟨"LIMITS", ⟨1, 1⟩, .const (.named ⟨"Limits", ⟨1, 7⟩⟩)
        (.map [(.string "levels", .map [(.reference ⟨"Level.high", ⟨1, 30⟩⟩, .int 3)])])⟩,
      ⟨"Level", ⟨2, 1⟩, .enum [⟨"low", none, ⟨2, 14⟩⟩, ⟨"high", some 7, ⟨2, 19⟩⟩]⟩,
      ⟨"Limits", ⟨4, 1⟩, .struct .struct
        [⟨none, "ratio", .primitive .double, .optional,
            some (.double ⟨0x3fb999999999999a⟩), ⟨5, 3⟩⟩,
          ⟨some 7, "levels", .map (.named ⟨"Level", ⟨6, 7⟩⟩) (.primitive .i64), .unmarked,
            none, ⟨6, 3⟩⟩]⟩,
      ⟨"Gauge", ⟨8, 1⟩, .service
        [⟨"reset", [⟨some 1, "to", .named ⟨"Limits", ⟨9, 15⟩⟩, .unmarked,
            some (.reference ⟨"LIMITS", ⟨9, 29⟩⟩), ⟨9, 14⟩⟩],
          none, [], true, ⟨9, 3⟩⟩] (some ⟨"Base", ⟨8, 23⟩⟩)⟩,
      ⟨"Base", ⟨11, 1⟩, .service
        [⟨"ping", [], some (.primitive .bool), [], false, ⟨12, 3⟩⟩] none⟩]

/-- The constant of the document. -/
def gaugeLimits : Value :=
  .struct "Limits" [("levels", .map [(.enum "Level" 7, .i64 3)])]

def gaugeScope : Scope where
  name := "gauge"
  entities :=
    [⟨"LIMITS", ⟨1, 1⟩, true, .const (.named ⟨"Limits", ⟨1, 7⟩, some 2⟩)
        (.map [(.string "levels",
          .map [(.reference ⟨"Level.high", ⟨1, 30⟩, some (.item 1 7)⟩, .int 3)])])
        (some gaugeLimits)⟩,
      ⟨"Level", ⟨2, 1⟩, true, .enum [⟨"low", 0, ⟨2, 14⟩⟩, ⟨"high", 7, ⟨2, 19⟩⟩]⟩,
      ⟨"Limits", ⟨4, 1⟩, true, .struct .struct
        [⟨-1, "ratio", .primitive .double, .optional,
            some (.double ⟨0x3fb999999999999a⟩), some (.double ⟨0x3fb999999999999a⟩), ⟨5, 3⟩⟩,
          ⟨7, "levels", .map (.named ⟨"Level", ⟨6, 7⟩, some 1⟩) (.primitive .i64), .unmarked,
            none, none, ⟨6, 3⟩⟩]⟩,
      ⟨"Gauge", ⟨8, 1⟩, true, .service
        [⟨"reset", [⟨1, "to", .named ⟨"Limits", ⟨9, 15⟩, some 2⟩, .unmarked,
            some (.reference ⟨"LIMITS", ⟨9, 29⟩, some (.const 0)⟩), some gaugeLimits, ⟨9, 14⟩⟩],
          none, [], true, ⟨9, 3⟩⟩]
        (some ⟨"Base", ⟨8, 23⟩, some 4⟩) [⟨4, 0⟩, ⟨3, 0⟩]⟩,
      ⟨"Base", ⟨11, 1⟩, true, .service
        [⟨"ping", [], some (.primitive .bool), [], false, ⟨12, 3⟩⟩] none [⟨4, 0⟩]⟩]
  symbols := [("LIMITS", 0), ("Level", 1), ("Limits", 2), ("Gauge", 3), ("Base", 4)]

section

open Evaluation

theorem compile_gauge : gauge.compile "gauge" = .ok ⟨gaugeScope, []⟩ := by
  simp [gauge, gaugeScope, gaugeLimits]

end

/-- The scope of the document is read back from both texts; the double in it is a
tenth. -/
theorem parse?_scope_gauge :
    gauge.compile "gauge" = .ok ⟨gaugeScope, []⟩
      ∧ gaugeScope.doubles = [⟨0x3fb999999999999a⟩, ⟨0x3fb999999999999a⟩]
      ∧ gaugeScope.toJson.depth ≤ maxDepth
      ∧ Scope.parse? gaugeScope.toJson.compact = some gaugeScope
      ∧ Scope.parse? gaugeScope.toJson.pretty = some gaugeScope := by
  have hdoubles : gaugeScope.doubles = [⟨0x3fb999999999999a⟩, ⟨0x3fb999999999999a⟩] := by
    decide
  have hdepth : gaugeScope.toJson.depth ≤ maxDepth := by decide
  have hfew : ∀ x ∈ gauge.definitions, ∀ functions parent,
      x.body = .service functions parent → functions.length ≤ 2 ^ 64 := by
    simp [gauge]
  have hemitted := parse?_scope_of_compile compile_gauge hfew
    (by rw [hdoubles]; decide) (by rw [hdoubles]; decide)
  exact ⟨compile_gauge, hdoubles, hdepth, hemitted.1 hdepth⟩

end Document

end Interlink
