import Interlink.Proofs.Exchange.Admitted

/-!
# Sending what was received

A value that was received can be sent again, and is then received completed
(`Document.exists_toWire_toValue_of_compile`). It need not be complete when it
is received the first time: a default that is a struct is stored with the
fields that its expression sets, and it is such a default, as it is stored,
that a struct receives in the place of a field that was not sent. Only the next
round fills it (`Document.exists_not_alike_nested`). So it is on the stored
defaults that it depends whether a received value is stable: if they are
settled (`Scope.DefaultsSettled`), it is.
-/

namespace Interlink

/-! ## Received values are settled if defaults are -/

/-- **The stored defaults are settled**: they lack nothing, and so completing
them changes nothing. -/
def Scope.DefaultsSettled (s : Scope) : Prop :=
  ∀ id e kind declared, s.entity? id = some e → e.body = .struct kind declared →
    ∀ f ∈ declared, ∀ v ∈ f.defaultValue, v.complete s f.type = v

/-- A field of a received struct is completed as it arrived, if what was received
is. -/
theorem Wire.completed_arrived {s : Scope} {typeName : String}
    {declared : List Entity.Field} (distinct : (declared.map Entity.Field.name).Nodup)
    {fields : List (Int16 × Wire)} {arrived : List (Option (String × Value))}
    (each : List.Forall₂ (fun f o =>
      f.receive typeName (fields.map fun x => (x.1, x.2.toValue s)) = .ok o)
      declared arrived)
    (hreceived : ∀ x ∈ fields, ∀ ty v, x.2.toValue s ty = .ok v → v.complete s ty = v)
    (hdefaults : ∀ f ∈ declared, ∀ v ∈ f.defaultValue, v.complete s f.type = v) :
    List.Forall₂ (fun f o => f.completed (Value.completions s arrived.reduceOption) = o)
      declared arrived := by
  refine forall₂_imp_of_mem each fun f hf o ho => ?_
  obtain ⟨o', ho', hlookup⟩ := Wire.lookup_arrived distinct each hf
  rw [ho] at ho'
  cases ho'
  rw [Value.completed_completions, hlookup]
  rcases Entity.Field.receive_eq_ok ho with
    ⟨raise, v, hraise, hv, rfl⟩ | ⟨v, hdefault, rfl⟩ | ⟨hnone, -, rfl⟩
  · rw [lookup_map_snd, Option.map_eq_some_iff] at hraise
    obtain ⟨w, hw, rfl⟩ := hraise
    show some (f.name, v.complete s f.type) = _
    rw [hreceived _ (mem_of_lookup_eq_some hw) _ _ hv]
  · show some (f.name, v.complete s f.type) = _
    rw [hdefaults f hf v hdefault]
  · rw [hnone]
    rfl

/-- **Completing a received value changes nothing**, where the stored defaults
are settled. -/
theorem Wire.complete_of_toValue {s : Scope} (h : s.TellsApart)
    (hdefaults : s.DefaultsSettled) {ty : Ty} {w : Wire} {v : Value}
    (hv : w.toValue s ty = .ok v) : v.complete s ty = v := by
  induction w using Wire.childInduction generalizing ty v with
  | step w ih =>
    obtain ⟨shape, hshape, hraises⟩ := (Wire.toValue_eq_ok h).mp hv
    rw [Value.complete, hshape]
    cases hraises with
    | primitive received => rfl
    | list each =>
      dsimp only
      rw [Value.completeItems_eq_map]
      refine congrArg Value.list (map_eq_self fun u hu => ?_)
      obtain ⟨w, hw, hu⟩ := exists_left_of_forall₂ each hu
      exact ih w hw hu
    | set each =>
      dsimp only
      rw [Value.completeItems_eq_map]
      refine congrArg Value.set (map_eq_self fun u hu => ?_)
      obtain ⟨w, hw, hu⟩ := exists_left_of_forall₂ each hu
      exact ih w hw hu
    | map each =>
      dsimp only
      rw [Value.completeEntries_eq_map]
      refine congrArg Value.map (map_eq_self fun x hx => ?_)
      obtain ⟨w, hw, hk, hx⟩ := exists_left_of_forall₂ each hx
      rw [ih w.1 (Wire.key_mem_children hw) hk, ih w.2 (Wire.value_mem_children hw) hx]
    | item body member =>
      dsimp only
      rw [body]
    | @struct id e kind declared fields arrived body each single =>
      have he := s.entity?_of_shape hshape
      have hcompleted := Wire.completed_arrived (h id e kind declared he body).names each
        (fun x hx ty v hv => ih x.2 (Wire.field_mem_children hx) hv)
        (hdefaults id e kind declared he body)
      rw [← List.forall₂_map_left_iff, List.forall₂_eq_eq_eq] at hcompleted
      dsimp only
      rw [body]
      dsimp only
      rw [← reduceOption_map_eq_filterMap, hcompleted]

/-- **A received value can be sent again**, at a type whose names stand for
types. -/
theorem Scope.Models.exists_toWire_of_toValue {s : Scope} {d : Document} {ty : Ty}
    (h : s.Models d) (hd : d.WellFormed) (htold : s.TellsApart)
    (hdefaults : s.DefaultsSent) {t : TypeExpr} (hty : s.Renders t ty)
    (ht : ∀ m ∈ t.mentions, d.NamesType m.name) {w : Wire} {v : Value}
    (hv : w.toValue s ty = .ok v) : ∃ w', v.toWire s ty = .ok w' :=
  h.exists_toWire_of_admits hd (Wire.admits_of_toValue htold hdefaults hv)
    (h.not_hollow hd hty ht v)

/-! ## Compiled documents -/

namespace Document

variable {d : Document} {name : String} {c : Compiled}

/-- **What was received can be sent, and is received completed.** That holds in
the scope of a compiled document, at a type whose names are those of types. If
the stored defaults are settled, it is received as it was. -/
theorem exists_toWire_toValue_of_compile (hok : d.compile name = .ok c) {ty : Ty}
    (hty : c.scope.Knows ty) {w : Wire} {v : Value}
    (hv : w.toValue c.scope ty = .ok v) :
    ∃ w', v.toWire c.scope ty = .ok w'
      ∧ w'.toValue c.scope ty = .ok (v.complete c.scope ty)
      ∧ (c.scope.DefaultsSettled → w'.toValue c.scope ty = .ok v) := by
  have hd := wellFormed_of_compile hok
  have hstage := stage_of_compile hok
  have htold := tellsApart_of_compile hok
  obtain ⟨t, hrenders, hnames⟩ := hstage.models.exists_renders hty
  obtain ⟨w', hw'⟩ := hstage.models.exists_toWire_of_toValue hd htold
    (hstage.defaultsSent hd) hrenders hnames hv
  have hagain := Wire.toValue_of_toWire htold hw'
  refine ⟨w', hw', hagain, fun hdefaults => ?_⟩
  rw [hagain, Wire.complete_of_toValue htold hdefaults hv]

/-- A default that sets the inner field is settled. -/
theorem defaultsSettled_nested : (nestedScope true).DefaultsSettled := by
  intro id e kind declared he hbody f hf v hv
  rcases List.mem_pair.mp (List.mem_of_getElem? he) with rfl | rfl
  all_goals
    cases hbody
    obtain rfl := List.mem_singleton.mp hf
    cases hv
    rfl

/-- A struct that is received without its field has the default in it. If that
lacks something, another round adds it, and otherwise the struct comes back as it
was. -/
theorem exists_toWire_toValue_nested :
    ((nested false).compile "nested" = .ok ⟨nestedScope false, []⟩
      ∧ (nestedScope false).Knows outerType
      ∧ (Wire.struct []).toValue (nestedScope false) outerType = .ok (outer [])
      ∧ ∃ w, (outer []).toWire (nestedScope false) outerType = .ok w
        ∧ w.toValue (nestedScope false) outerType = .ok (outer [("x", .i32 5)]))
    ∧ (nested true).compile "nested" = .ok ⟨nestedScope true, []⟩
      ∧ (nestedScope true).Knows outerType
      ∧ (nestedScope true).DefaultsSettled
      ∧ (Wire.struct []).toValue (nestedScope true) outerType = .ok (outer [("x", .i32 7)])
      ∧ ∃ w, (outer [("x", .i32 7)]).toWire (nestedScope true) outerType = .ok w
        ∧ w.toValue (nestedScope true) outerType = .ok (outer [("x", .i32 7)]) := by
  have hlacking : (Wire.struct []).toValue (nestedScope false) outerType
      = .ok (outer []) := rfl
  have hfull : (Wire.struct []).toValue (nestedScope true) outerType
      = .ok (outer [("x", .i32 7)]) := rfl
  obtain ⟨w, hw, hagain, -⟩ :=
    exists_toWire_toValue_of_compile (compile_nested false) (knows_outerType false) hlacking
  obtain ⟨u, hu, -, hstable⟩ :=
    exists_toWire_toValue_of_compile (compile_nested true) (knows_outerType true) hfull
  exact ⟨⟨compile_nested false, knows_outerType false, hlacking, w, hw, hagain⟩,
    compile_nested true, knows_outerType true, defaultsSettled_nested, hfull, u, hu,
    hstable defaultsSettled_nested⟩

/-- **A received value need not come back as it was**, not even up to the order
of fields. -/
theorem exists_not_alike_nested :
    ∃ (c : Compiled) (w w' : Wire) (v u : Value), (nested false).compile "nested" = .ok c
      ∧ w.toValue c.scope outerType = .ok v ∧ v.toWire c.scope outerType = .ok w'
      ∧ w'.toValue c.scope outerType = .ok u ∧ ¬ v.Alike u := by
  refine ⟨⟨nestedScope false, []⟩, .struct [], .struct [(1, .struct [])], outer [],
    outer [("x", .i32 5)], compile_nested false, rfl, rfl, rfl, fun halike => ?_⟩
  -- the inner structs are not alike: only one has the field
  cases halike with | struct names each =>
  have hinner := each "inner" _ _ rfl rfl
  cases hinner with | struct names each =>
  exact absurd ((names "x").mpr List.mem_cons_self) List.not_mem_nil

end Document

end Interlink
