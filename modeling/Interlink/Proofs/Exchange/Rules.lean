import Mathlib.Data.List.ReduceOption
import Interlink.Exchange.Receive
import Interlink.Exchange.Send
import Interlink.Proofs.Scope.Shape

/-!
# What is sent and what is received

Sending and receiving go by the shape of a type, and then by the parts of a
value. Here it is said once what each of them does at a shape: which values
are lowered to which wire values (`Value.LowersAs`), and which wire values are
raised to which values (`Wire.RaisesAs`).

The fields of a struct are the point. Both directions walk over the declared
fields and skip some, and one of them carries along what is done. Field by
field it is simpler: a declared field has something to send or nothing
(`Entity.Field.send`), and something arrives for it or nothing
(`Entity.Field.receive`). The walks collect that (`fieldsToWire_eq_map`,
`fieldsToValue_eq_map`), and where the keys are different, what was collected
under a key is found under it again (`forall₂_lookup_reduceOption`).
-/

namespace Interlink

/-! ## Tables -/

/-- Looking up in a table whose values were replaced. -/
theorem lookup_map_snd {κ α β : Type} [BEq κ] (f : α → β) (k : κ)
    (table : List (κ × α)) :
    (table.map fun x => (x.1, f x.2)).lookup k = (table.lookup k).map f := by
  induction table with
  | nil => rfl
  | cons x table ih =>
    rw [List.map_cons, List.lookup_cons, List.lookup_cons, ih]
    cases k == x.1 <;> rfl

/-- **What was collected under different keys is found again.** Each element of
a list offers an entry under its own key, or none. -/
theorem forall₂_lookup_reduceOption {κ α β : Type} [BEq κ] [LawfulBEq κ]
    {key : α → κ} {xs : List α} (distinct : (xs.map key).Nodup)
    {offers : List (Option (κ × β))}
    (hkey : List.Forall₂ (fun x o => ∀ entry ∈ o, entry.1 = key x) xs offers) :
    List.Forall₂ (fun x o => offers.reduceOption.lookup (key x) = o.map Prod.snd)
      xs offers := by
  induction hkey with
  | nil => exact .nil
  | @cons x o xs offers hx hxs ih =>
    rw [List.map_cons, List.nodup_cons] at distinct
    -- what the others offer is not under the key of the first
    have hothers : ∀ entry ∈ offers.reduceOption, entry.1 ∈ xs.map key := by
      intro entry hentry
      obtain ⟨y, hy, hykey⟩ :=
        exists_left_of_forall₂ hxs (List.reduceOption_mem_iff.mp hentry)
      exact List.mem_map.mpr ⟨y, hy, (hykey entry rfl).symm⟩
    cases o with
    | none =>
      rw [List.reduceOption_cons_of_none]
      refine .cons (List.lookup_eq_none_iff.mpr fun entry hentry => ?_) (ih distinct.2)
      refine bne_iff_ne.mpr fun heq => distinct.1 ?_
      rw [heq]
      exact hothers entry hentry
    | some entry =>
      rw [List.reduceOption_cons_of_some]
      refine .cons ?_ ?_
      · rw [List.lookup_cons, hx entry rfl, beq_self_eq_true]
        rfl
      · rw [List.forall₂_iff_zip] at *
        obtain ⟨hlength, hfound⟩ := ih distinct.2
        refine ⟨hlength, fun {y o} hy => ?_⟩
        have hne : key y ≠ entry.1 := by
          intro heq
          rw [hx entry rfl] at heq
          exact distinct.1 (heq ▸ List.mem_map_of_mem (List.of_mem_zip hy).1)
        rw [List.lookup_cons, beq_false_of_ne hne]
        exact hfound hy

/-- Collecting what each element of a list offers. -/
theorem reduceOption_map_eq_filterMap {α β : Type} (offer : α → Option β)
    (xs : List α) : (xs.map offer).reduceOption = xs.filterMap offer := by
  rw [List.reduceOption, List.filterMap_map, Function.id_comp]

theorem map_eq_self {α : Type} {f : α → α} {xs : List α} (h : ∀ x ∈ xs, f x = x) :
    xs.map f = xs := by
  rw [List.map_congr_left h, List.map_id']

/-- What an element offers is found under its key. -/
theorem lookup_filterMap {κ α β : Type} [BEq κ] [LawfulBEq κ] {key : α → κ}
    {xs : List α} (distinct : (xs.map key).Nodup)
    {offer : α → Option (κ × β)}
    (hkey : ∀ x ∈ xs, ∀ entry ∈ offer x, entry.1 = key x) {x : α} (hx : x ∈ xs) :
    (xs.filterMap offer).lookup (key x) = (offer x).map Prod.snd := by
  have hfound := forall₂_lookup_reduceOption distinct
    (List.forall₂_map_right_iff.mpr (List.forall₂_same.mpr hkey))
  rw [List.forall₂_map_right_iff, List.forall₂_same,
    reduceOption_map_eq_filterMap] at hfound
  exact hfound x hx

theorem Entity.any_value_eq_true {items : List Entity.Item} {n : Int32} :
    (items.any fun item => item.value == n) = true ↔
      n ∈ items.map Entity.Item.value := by
  rw [List.any_eq_true, List.mem_map]
  exact exists_congr fun item => and_congr_right fun _ => beq_iff_eq

/-! ## Fields that are sent -/

namespace Entity.Field

/-- **What a declared field has to send**: what was given under its name, or
nothing. -/
def send (typeName : String)
    (given : List (String × (Ty → Except ValueError Wire))) (f : Field) :
    Except ValueError (Option (Int16 × Wire)) :=
  match given.lookup f.name with
  | some lower => (fun w => some (f.id, w)) <$> lower f.type
  | none =>
    if f.isRequired then .error (.missingField typeName f.name) else .ok none

/-- **What arrives for a declared field**: what was received under its id, its
default, or nothing. -/
def receive (typeName : String)
    (received : List (Int16 × (Ty → Except ValueError Value))) (f : Field) :
    Except ValueError (Option (String × Value)) :=
  match received.lookup f.id with
  | some raise => (fun v => some (f.name, v)) <$> raise f.type
  | none =>
    match f.defaultValue with
    | some v => .ok (some (f.name, v))
    | none =>
      if f.isRequired then .error (.missingField typeName f.name) else .ok none

/-- A field of which something is sent was set, and the others are not
required. -/
theorem send_eq_ok {f : Field} {typeName : String}
    {given : List (String × (Ty → Except ValueError Wire))}
    {o : Option (Int16 × Wire)} :
    f.send typeName given = .ok o ↔
      (∃ lower w, given.lookup f.name = some lower ∧ lower f.type = .ok w
          ∧ o = some (f.id, w))
        ∨ given.lookup f.name = none ∧ f.isRequired = false ∧ o = none := by
  unfold send
  cases given.lookup f.name with
  | some lower => simp [map_eq_ok, @eq_comm _ o]
  | none => cases f.isRequired <;> simp [@eq_comm _ o]

end Entity.Field

/-! ## Scopes -/

/-- **The fields of a struct are told apart** by their names and by their ids,
and those of a union have no defaults. -/
structure Entity.Field.ToldApart (kind : StructKind) (fields : List Entity.Field) :
    Prop where
  /-- The names are different. -/
  names : (fields.map Entity.Field.name).Nodup
  /-- The ids are different. -/
  ids : (fields.map Entity.Field.id).Nodup
  /-- No field of a union has a default. -/
  plain : kind = .union → ∀ f ∈ fields, f.defaultValue = none

namespace Scope

/-- **A scope tells the fields of its structs apart.** -/
def TellsApart (s : Scope) : Prop :=
  ∀ id e kind declared, s.entity? id = some e → e.body = .struct kind declared →
    Entity.Field.ToldApart kind declared

theorem entity?_of_targetOf {s : Scope} {r : Reference EntityId}
    {referrer : String} {id : EntityId} {e : Entity}
    (h : s.targetOf r referrer = .ok (id, e)) : s.entity? id = some e := by
  unfold targetOf at h
  split at h
  next =>
    unfold lookup at h
    split at h
    next hnamed =>
      cases h
      obtain ⟨j, -, hj⟩ := Option.bind_eq_some_iff.mp hnamed
      obtain ⟨f, hf, heq⟩ := Option.map_eq_some_iff.mp hj
      cases heq
      exact hf
    next => cases h
  next j _ =>
    split at h
    next f hf =>
      split at h
      next =>
        cases h
        exact hf
      next => cases h
    next => cases h

/-- The shape of a type that is exchanged is found by following typedefs. -/
theorem dealias_of_shape {s : Scope} {ty : Ty} {shape : Shape}
    (h : s.shape ty = .ok shape) : s.dealias ty s.name = .ok shape := by
  unfold Scope.shape at h
  split at h
  next hdealias =>
    cases h
    exact hdealias
  next => cases h
  next => cases h

theorem entity?_of_follow {s : Scope} {referrer : String} {left : Nat} {trail : Trail}
    {ty : Ty} {id : EntityId} {e : Entity}
    (h : s.follow referrer left trail ty = .ok (.entity id e)) : s.entity? id = some e := by
  fun_induction s.follow referrer left trail ty with
  | case8 trail r id e htarget target hbody left hnew ih => exact ih h
  | case9 left trail r id e htarget hbody =>
    cases h
    exact entity?_of_targetOf htarget
  | _ => cases h

theorem entity?_of_shape (s : Scope) {ty : Ty} {id : EntityId} {e : Entity}
    (h : s.shape ty = .ok (.entity id e)) : s.entity? id = some e :=
  entity?_of_follow (dealias_of_shape h)

theorem tag_of_shape {s : Scope} {ty : Ty} {shape : Shape} (h : s.shape ty = .ok shape) :
    ty.tag s = shape.tag := by
  unfold Ty.tag
  rw [h]
  rfl

end Scope

namespace Value

variable {s : Scope} {typeName : String}

/-- **The fields of a struct are sent one by one**, and what there is to send is
collected. -/
theorem fieldsToWire_eq_map
    (given : List (String × (Ty → Except ValueError Wire)))
    (declared : List Entity.Field) :
    fieldsToWire typeName given declared =
      List.reduceOption <$> declared.mapM (Entity.Field.send typeName given) := by
  induction declared with
  | nil => rfl
  | cons f declared ih =>
    rw [fieldsToWire, List.mapM_cons, ih]
    generalize declared.mapM (Entity.Field.send typeName given) = others
    unfold Entity.Field.send
    cases given.lookup f.name with
    | some lower =>
      dsimp only
      cases lower f.type with
      | error e => rfl
      | ok w => cases others <;> rfl
    | none =>
      dsimp only
      cases f.isRequired with
      | true => rfl
      | false => cases others <;> rfl

theorem lowerings_eq_map (s : Scope) (fields : List (String × Value)) :
    lowerings s fields = fields.map fun x => (x.1, x.2.toWire s) := by
  induction fields with
  | nil => rfl
  | cons x fields ih => rw [lowerings, ih]; rfl

theorem itemsToWire_eq_ok {element : Ty} {items : List Value} {ws : List Wire} :
    itemsToWire s element items = .ok ws ↔
      List.Forall₂ (fun v w => v.toWire s element = .ok w) items ws := by
  induction items generalizing ws with
  | nil => cases ws <;> simp [itemsToWire]
  | cons v items ih =>
    simp only [itemsToWire, bind_eq_ok, pure_eq_ok, ih,
      List.forall₂_cons_left_iff]
    constructor
    · rintro ⟨w, hw, ws', hws, rfl⟩
      exact ⟨w, ws', hw, hws, rfl⟩
    · rintro ⟨w, ws', hw, hws, rfl⟩
      exact ⟨w, hw, ws', hws, rfl⟩

theorem entriesToWire_eq_ok {key value : Ty} {entries : List (Value × Value)}
    {ws : List (Wire × Wire)} :
    entriesToWire s key value entries = .ok ws ↔
      List.Forall₂ (fun x w => x.1.toWire s key = .ok w.1
        ∧ x.2.toWire s value = .ok w.2) entries ws := by
  induction entries generalizing ws with
  | nil => cases ws <;> simp [entriesToWire]
  | cons x entries ih =>
    simp only [entriesToWire, bind_eq_ok, pure_eq_ok, ih,
      List.forall₂_cons_left_iff]
    constructor
    · rintro ⟨k, hk, w, hw, ws', hws, rfl⟩
      exact ⟨(k, w), ws', ⟨hk, hw⟩, hws, rfl⟩
    · rintro ⟨⟨k, w⟩, ws', ⟨hk, hw⟩, hws, rfl⟩
      exact ⟨k, hk, w, hw, ws', hws, rfl⟩

/-- The value of an enum is sent if it is that of an item. -/
theorem enumToWire_eq_ok {items : List Entity.Item} {v : Value} {w : Wire} :
    enumToWire typeName items v = .ok w ↔
      ∃ n ∈ items.map Entity.Item.value, v = .enum typeName n ∧ w = .i32 n := by
  unfold enumToWire
  cases v with
  | enum found n =>
    dsimp only
    simp only [Entity.any_value_eq_true, enum.injEq]
    by_cases hfound : found = typeName
    · rw [if_pos hfound]
      by_cases hn : n ∈ items.map Entity.Item.value
      · rw [if_pos hn, Except.ok.injEq]
        constructor
        · rintro rfl
          exact ⟨n, hn, ⟨hfound, rfl⟩, rfl⟩
        · rintro ⟨m, -, ⟨-, rfl⟩, rfl⟩
          rfl
      · rw [if_neg hn]
        simp only [reduceCtorEq, false_iff]
        rintro ⟨m, hm, ⟨-, rfl⟩, -⟩
        exact hn hm
    · rw [if_neg hfound]
      simp [hfound]
  | _ => simp

/-- **A struct is sent** if nothing but its fields was given, one of them for a
union, and each of them is sent. -/
theorem structToWire_eq_ok {kind : StructKind} {declared : List Entity.Field}
    {given : List (String × (Ty → Except ValueError Wire))} {w : Wire} :
    structToWire typeName kind declared given = .ok w ↔
      (∀ x ∈ given, x.1 ∈ declared.map Entity.Field.name)
        ∧ (kind = .union → given.length = 1)
        ∧ ∃ sent, declared.mapM (Entity.Field.send typeName given) = .ok sent
          ∧ w = .struct sent.reduceOption := by
  unfold structToWire
  split
  next name lower hfind =>
    have hunknown : name ∉ declared.map Entity.Field.name := by
      simpa using List.find?_some hfind
    simp only [reduceCtorEq, false_iff]
    exact fun h => hunknown (h.1 _ (List.mem_of_find?_eq_some hfind))
  next hfind =>
    have hknown : ∀ x ∈ given, x.1 ∈ declared.map Entity.Field.name :=
      fun x hx => by simpa using List.find?_eq_none.mp hfind x hx
    by_cases hcount : kind = .union ∧ given.length ≠ 1
    · rw [if_pos hcount]
      simp [hcount.1, hcount.2]
    · have hsingle : kind = .union → given.length = 1 := by
        intro hkind
        by_contra hlength
        exact hcount ⟨hkind, hlength⟩
      rw [if_neg hcount, fieldsToWire_eq_map]
      simp only [map_eq_ok, exists_exists_and_eq_and, @eq_comm _ _ w]
      exact ⟨fun h => ⟨hknown, hsingle, h⟩, fun h => h.2.2⟩

/-- **What is sent at a shape.** -/
inductive LowersAs (s : Scope) : Shape → Value → Wire → Prop
  | primitive {p : Primitive} {v : Value} {w : Wire}
      (sent : primitiveToWire p v = .ok w) : LowersAs s (.primitive p) v w
  | list {element : Ty} {tag : Wire.Tag} {items : List Value} {ws : List Wire}
      (announced : element.tag s = .ok tag)
      (each : List.Forall₂ (fun v w => v.toWire s element = .ok w) items ws) :
      LowersAs s (.list element) (.list items) (.list tag ws)
  | set {element : Ty} {tag : Wire.Tag} {items : List Value} {ws : List Wire}
      (announced : element.tag s = .ok tag)
      (each : List.Forall₂ (fun v w => v.toWire s element = .ok w) items ws) :
      LowersAs s (.set element) (.set items) (.set tag ws)
  | map {key value : Ty} {keyTag valueTag : Wire.Tag}
      {entries : List (Value × Value)} {ws : List (Wire × Wire)}
      (keys : key.tag s = .ok keyTag) (values : value.tag s = .ok valueTag)
      (each : List.Forall₂ (fun x w => x.1.toWire s key = .ok w.1
        ∧ x.2.toWire s value = .ok w.2) entries ws) :
      LowersAs s (.map key value) (.map entries) (.map keyTag valueTag ws)
  | item {id : EntityId} {e : Entity} {items : List Entity.Item} {n : Int32}
      (body : e.body = .enum items) (member : n ∈ items.map Entity.Item.value) :
      LowersAs s (.entity id e) (.enum e.name n) (.i32 n)
  | struct {id : EntityId} {e : Entity} {kind : StructKind}
      {declared : List Entity.Field} {fields : List (String × Value)}
      {sent : List (Option (Int16 × Wire))}
      (body : e.body = .struct kind declared)
      (known : ∀ x ∈ fields, x.1 ∈ declared.map Entity.Field.name)
      (single : kind = .union → fields.length = 1)
      (each : List.Forall₂
        (fun f o => f.send e.name (fields.map fun x => (x.1, x.2.toWire s)) = .ok o)
        declared sent) :
      LowersAs s (.entity id e) (.struct e.name fields)
        (.struct sent.reduceOption)

/-- **Sending goes by the shape of the type.** -/
theorem toWire_eq_ok {ty : Ty} {v : Value} {w : Wire} :
    v.toWire s ty = .ok w ↔ ∃ shape, s.shape ty = .ok shape ∧ LowersAs s shape v w := by
  rw [toWire]
  cases hshape : s.shape ty with
  | error e => simp
  | ok shape =>
    simp only [Except.ok.injEq, exists_eq_left']
    constructor
    · intro hok
      cases shape with
      | primitive p => exact .primitive hok
      | list element =>
        cases v with
        | list items =>
          simp only [bind_eq_ok, pure_eq_ok, itemsToWire_eq_ok] at hok
          obtain ⟨tag, htag, ws, hws, rfl⟩ := hok
          exact .list htag hws
        | _ => cases hok
      | set element =>
        cases v with
        | set items =>
          simp only [bind_eq_ok, pure_eq_ok, itemsToWire_eq_ok] at hok
          obtain ⟨tag, htag, ws, hws, rfl⟩ := hok
          exact .set htag hws
        | _ => cases hok
      | map key value =>
        cases v with
        | map entries =>
          simp only [bind_eq_ok, pure_eq_ok, entriesToWire_eq_ok] at hok
          obtain ⟨keyTag, hkey, valueTag, hvalue, ws, hws, rfl⟩ := hok
          exact .map hkey hvalue hws
        | _ => cases hok
      | entity id e =>
        dsimp only at hok
        cases hbody : e.body with
        | enum items =>
          rw [hbody] at hok
          obtain ⟨n, hn, rfl, rfl⟩ := enumToWire_eq_ok.mp hok
          exact .item hbody hn
        | struct kind declared =>
          rw [hbody] at hok
          cases v with
          | struct typeName fields =>
            dsimp only at hok
            split at hok
            next hname =>
              subst hname
              rw [lowerings_eq_map, structToWire_eq_ok] at hok
              obtain ⟨hknown, hsingle, sent, hsent, rfl⟩ := hok
              refine .struct hbody (fun x hx => ?_) (by simpa using hsingle)
                (mapM_eq_ok.mp hsent)
              exact hknown _ (List.mem_map_of_mem hx)
            next => cases hok
          | _ => cases hok
        | _ =>
          rw [hbody] at hok
          cases hok
    · intro hlowers
      cases hlowers with
      | primitive sent => exact sent
      | list announced each =>
        dsimp only
        rw [announced, itemsToWire_eq_ok.mpr each]
        rfl
      | set announced each =>
        dsimp only
        rw [announced, itemsToWire_eq_ok.mpr each]
        rfl
      | map keys values each =>
        dsimp only
        rw [keys, values, entriesToWire_eq_ok.mpr each]
        rfl
      | item body member =>
        dsimp only
        rw [body]
        exact enumToWire_eq_ok.mpr ⟨_, member, rfl, rfl⟩
      | struct body known single each =>
        dsimp only
        rw [body]
        dsimp only
        rw [if_pos rfl, lowerings_eq_map, structToWire_eq_ok]
        refine ⟨fun x hx => ?_, by simpa using single, _, mapM_eq_ok.mpr each, rfl⟩
        obtain ⟨y, hy, rfl⟩ := List.mem_map.mp hx
        exact known y hy

/-- A value that is sent is sent by any shape that its type has. -/
theorem lowersAs_of_shape {ty : Ty} {v : Value} {w : Wire} (hw : v.toWire s ty = .ok w)
    {shape : Shape} (hshape : s.shape ty = .ok shape) : LowersAs s shape v w := by
  obtain ⟨shape', hshape', hlowers⟩ := toWire_eq_ok.mp hw
  rw [hshape] at hshape'
  cases hshape'
  exact hlowers

end Value

/-! ## Fields that are received -/

/-- A new name goes to the end of a table. -/
theorem put_of_notMem {α : Type} {table : List (String × α)} {name : String}
    (h : name ∉ table.map Prod.fst) (a : α) :
    put table name a = table ++ [(name, a)] := by
  have hany : (table.any fun entry => entry.1 == name) = false := by
    refine List.any_eq_false.mpr fun entry hentry heq => h ?_
    exact List.mem_map.mpr ⟨entry, hentry, beq_iff_eq.mp heq⟩
  unfold put
  rw [hany]
  rfl

namespace Wire

variable {s : Scope} {typeName : String}

/-- **The fields of a struct are received one by one**, and what arrives is
collected. A name that occurs once never meets itself in what is done. -/
theorem fieldsToValue_eq_map
    (received : List (Int16 × (Ty → Except ValueError Value)))
    (done : List (String × Value)) (declared : List Entity.Field)
    (distinct : (done.map Prod.fst ++ declared.map Entity.Field.name).Nodup) :
    fieldsToValue typeName received done declared =
      (fun arrived => done ++ arrived.reduceOption)
        <$> declared.mapM (Entity.Field.receive typeName received) := by
  induction declared generalizing done with
  | nil =>
    show Except.ok done = .ok (done ++ [])
    rw [List.append_nil]
  | cons f declared ih =>
    rw [List.map_cons, List.nodup_middle, ← List.cons_append] at distinct
    have hrest : (done.map Prod.fst ++ declared.map Entity.Field.name).Nodup :=
      (List.nodup_cons.mp distinct).2
    have hnew : f.name ∉ done.map Prod.fst := fun hmem =>
      (List.nodup_cons.mp distinct).1 (List.mem_append_left _ hmem)
    -- whatever arrives for the field, the others are received behind it
    have hput : ∀ v, fieldsToValue typeName received (put done f.name v) declared
        = (fun arrived => done ++ (f.name, v) :: arrived.reduceOption)
          <$> declared.mapM (Entity.Field.receive typeName received) := by
      intro v
      rw [put_of_notMem hnew, ih]
      · simp only [List.append_assoc, List.cons_append, List.nil_append]
      · rw [List.map_append, List.append_assoc]
        exact List.nodup_middle.mpr distinct
    rw [fieldsToValue, List.mapM_cons]
    simp only [hput, ih done hrest]
    generalize declared.mapM (Entity.Field.receive typeName received) = others
    unfold Entity.Field.receive
    cases received.lookup f.id with
    | some raise =>
      dsimp only
      cases raise f.type with
      | error e => rfl
      | ok v => cases others <;> rfl
    | none =>
      dsimp only
      cases f.defaultValue with
      | some v => cases others <;> rfl
      | none =>
        cases f.isRequired with
        | true => rfl
        | false => cases others <;> rfl

theorem raisings_eq_map (s : Scope) (fields : List (Int16 × Wire)) :
    raisings s fields = fields.map fun x => (x.1, x.2.toValue s) := by
  induction fields with
  | nil => rfl
  | cons x fields ih => rw [raisings, ih]; rfl

theorem itemsToValue_eq_ok {element : Ty} {items : List Wire} {vs : List Value} :
    itemsToValue s element items = .ok vs ↔
      List.Forall₂ (fun w v => w.toValue s element = .ok v) items vs := by
  induction items generalizing vs with
  | nil => cases vs <;> simp [itemsToValue]
  | cons w items ih =>
    simp only [itemsToValue, bind_eq_ok, pure_eq_ok, ih,
      List.forall₂_cons_left_iff]
    constructor
    · rintro ⟨v, hv, vs', hvs, rfl⟩
      exact ⟨v, vs', hv, hvs, rfl⟩
    · rintro ⟨v, vs', hv, hvs, rfl⟩
      exact ⟨v, hv, vs', hvs, rfl⟩

theorem entriesToValue_eq_ok {key value : Ty} {entries : List (Wire × Wire)}
    {vs : List (Value × Value)} :
    entriesToValue s key value entries = .ok vs ↔
      List.Forall₂ (fun w x => w.1.toValue s key = .ok x.1
        ∧ w.2.toValue s value = .ok x.2) entries vs := by
  induction entries generalizing vs with
  | nil => cases vs <;> simp [entriesToValue]
  | cons w entries ih =>
    simp only [entriesToValue, bind_eq_ok, pure_eq_ok, ih,
      List.forall₂_cons_left_iff]
    constructor
    · rintro ⟨k, hk, v, hv, vs', hvs, rfl⟩
      exact ⟨(k, v), vs', ⟨hk, hv⟩, hvs, rfl⟩
    · rintro ⟨⟨k, v⟩, vs', ⟨hk, hv⟩, hvs, rfl⟩
      exact ⟨k, hk, v, hv, vs', hvs, rfl⟩

/-- A number is received as the value of an enum if it is that of an item. -/
theorem enumToValue_eq_ok {ty : Ty} {items : List Entity.Item} {w : Wire}
    {v : Value} :
    enumToValue ty typeName items w = .ok v ↔
      ∃ n ∈ items.map Entity.Item.value, w = .i32 n ∧ v = .enum typeName n := by
  unfold enumToValue
  cases w with
  | i32 n =>
    dsimp only
    simp only [Entity.any_value_eq_true, i32.injEq]
    by_cases hn : n ∈ items.map Entity.Item.value
    · rw [if_pos hn, Except.ok.injEq]
      constructor
      · rintro rfl
        exact ⟨n, hn, rfl, rfl⟩
      · rintro ⟨m, -, rfl, rfl⟩
        rfl
    · rw [if_neg hn]
      simp only [reduceCtorEq, false_iff]
      rintro ⟨m, hm, rfl, -⟩
      exact hn hm
  | _ => simp

/-- **A struct is received** if each of its fields is, and one arrives for a
union. -/
theorem structToValue_eq_ok {kind : StructKind} {declared : List Entity.Field}
    (distinct : (declared.map Entity.Field.name).Nodup)
    {received : List (Int16 × (Ty → Except ValueError Value))} {v : Value} :
    structToValue typeName kind declared received = .ok v ↔
      ∃ arrived, declared.mapM (Entity.Field.receive typeName received) = .ok arrived
        ∧ (kind = .union → arrived.reduceOption.length = 1)
        ∧ v = .struct typeName arrived.reduceOption := by
  unfold structToValue
  rw [fieldsToValue_eq_map received [] declared distinct]
  simp only [bind_eq_ok, map_eq_ok, List.nil_append, exists_exists_and_eq_and]
  refine exists_congr fun arrived => and_congr_right fun _ => ?_
  by_cases hcount : kind = .union ∧ arrived.reduceOption.length ≠ 1
  · rw [if_pos hcount]
    simp [hcount.1, hcount.2]
  · have hsingle : kind = .union → arrived.reduceOption.length = 1 := by
      intro hkind
      by_contra hlength
      exact hcount ⟨hkind, hlength⟩
    rw [if_neg hcount, pure_eq_ok, eq_comm]
    exact ⟨fun h => ⟨hsingle, h⟩, fun h => h.2⟩

/-- **What is received at a shape.** -/
inductive RaisesAs (s : Scope) : Shape → Wire → Value → Prop
  | primitive {p : Primitive} {w : Wire} {v : Value}
      (received : primitiveToValue p w = .ok v) : RaisesAs s (.primitive p) w v
  | list {element : Ty} {tag : Wire.Tag} {items : List Wire} {vs : List Value}
      (each : List.Forall₂ (fun w v => w.toValue s element = .ok v) items vs) :
      RaisesAs s (.list element) (.list tag items) (.list vs)
  | set {element : Ty} {tag : Wire.Tag} {items : List Wire} {vs : List Value}
      (each : List.Forall₂ (fun w v => w.toValue s element = .ok v) items vs) :
      RaisesAs s (.set element) (.set tag items) (.set vs)
  | map {key value : Ty} {keyTag valueTag : Wire.Tag}
      {entries : List (Wire × Wire)} {vs : List (Value × Value)}
      (each : List.Forall₂ (fun w x => w.1.toValue s key = .ok x.1
        ∧ w.2.toValue s value = .ok x.2) entries vs) :
      RaisesAs s (.map key value) (.map keyTag valueTag entries) (.map vs)
  | item {id : EntityId} {e : Entity} {items : List Entity.Item} {n : Int32}
      (body : e.body = .enum items) (member : n ∈ items.map Entity.Item.value) :
      RaisesAs s (.entity id e) (.i32 n) (.enum e.name n)
  | struct {id : EntityId} {e : Entity} {kind : StructKind}
      {declared : List Entity.Field} {fields : List (Int16 × Wire)}
      {arrived : List (Option (String × Value))}
      (body : e.body = .struct kind declared)
      (each : List.Forall₂
        (fun f o => f.receive e.name (fields.map fun x => (x.1, x.2.toValue s)) = .ok o)
        declared arrived)
      (single : kind = .union → arrived.reduceOption.length = 1) :
      RaisesAs s (.entity id e) (.struct fields)
        (.struct e.name arrived.reduceOption)

/-- **Receiving goes by the shape of the type**, in a scope that tells the
fields of its structs apart. -/
theorem toValue_eq_ok (h : s.TellsApart) {ty : Ty} {w : Wire} {v : Value} :
    w.toValue s ty = .ok v ↔ ∃ shape, s.shape ty = .ok shape ∧ RaisesAs s shape w v := by
  rw [toValue]
  cases hshape : s.shape ty with
  | error e => simp
  | ok shape =>
    simp only [Except.ok.injEq, exists_eq_left']
    constructor
    · intro hok
      cases shape with
      | primitive p => exact .primitive hok
      | list element =>
        cases w with
        | list tag items =>
          obtain ⟨vs, hvs, rfl⟩ := map_eq_ok.mp hok
          exact .list (itemsToValue_eq_ok.mp hvs)
        | _ => cases hok
      | set element =>
        cases w with
        | set tag items =>
          obtain ⟨vs, hvs, rfl⟩ := map_eq_ok.mp hok
          exact .set (itemsToValue_eq_ok.mp hvs)
        | _ => cases hok
      | map key value =>
        cases w with
        | map keyTag valueTag entries =>
          obtain ⟨vs, hvs, rfl⟩ := map_eq_ok.mp hok
          exact .map (entriesToValue_eq_ok.mp hvs)
        | _ => cases hok
      | entity id e =>
        dsimp only at hok
        cases hbody : e.body with
        | enum items =>
          rw [hbody] at hok
          obtain ⟨n, hn, rfl, rfl⟩ := enumToValue_eq_ok.mp hok
          exact .item hbody hn
        | struct kind declared =>
          rw [hbody] at hok
          cases w with
          | struct fields =>
            have hnames := (h id e kind declared (s.entity?_of_shape hshape) hbody).names
            dsimp only at hok
            rw [raisings_eq_map, structToValue_eq_ok hnames] at hok
            obtain ⟨arrived, harrived, hsingle, rfl⟩ := hok
            exact .struct hbody (mapM_eq_ok.mp harrived) hsingle
          | _ => cases hok
        | _ =>
          rw [hbody] at hok
          cases hok
    · intro hraises
      cases hraises with
      | primitive received => exact received
      | list each =>
        dsimp only
        rw [itemsToValue_eq_ok.mpr each]
        rfl
      | set each =>
        dsimp only
        rw [itemsToValue_eq_ok.mpr each]
        rfl
      | map each =>
        dsimp only
        rw [entriesToValue_eq_ok.mpr each]
        rfl
      | item body member =>
        dsimp only
        rw [body]
        exact enumToValue_eq_ok.mpr ⟨_, member, rfl, rfl⟩
      | struct body each single =>
        have hnames := (h _ _ _ _ (s.entity?_of_shape hshape) body).names
        dsimp only
        rw [body]
        dsimp only
        rw [raisings_eq_map, structToValue_eq_ok hnames]
        exact ⟨_, mapM_eq_ok.mpr each, single, rfl⟩

end Wire

end Interlink
