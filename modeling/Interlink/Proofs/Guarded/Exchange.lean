import Interlink.Proofs.Exchange.Erased
import Interlink.Proofs.Exchange.Tagged
import Interlink.Proofs.Guarded.Stray

/-!
# Watched exchange

Sending and receiving follow a type along with a value, and so they come to many more
references than those in front of the type: those of its items and of the fields of its
structs, through the typedefs of each. Here both are written once more, watched like the
walk along typedefs that they are made of. What is left of a type is told without its
entity, so that each use of the handle is guarded. Both match the plain functions
(`Watched.matches_toWire`, `Watched.matches_toValue`), by induction on what is sent or
received.

With what is known about types without handles this says what a handle is worth: no
handle is used that the scope never issued, a handle that is right could as well not be
there, and one that is wrong has its name reported as unknown
(`Scope.IsArena.dealias_of_meets`).
-/

namespace Interlink

namespace Watched

open Guarded (Peeled peel)

variable {α : Type} {s : Scope} {ty : Ty} {id : EntityId} {e : Entity}

/-- The fault that a reference is an unknown type. -/
def unknownType (r : Reference EntityId) : ValueError := .unknownType r.name

/-! ## Types -/

/-- **What is left of a type that is exchanged.** -/
def shape (s : Scope) (ty : Ty) : Watched ValueError Peeled :=
  match dealias s ty s.name with
  | .ok peeled => .ok peeled
  | .error (.fault (.unknown name ..)) => .error (.fault (.unknownType name))
  | .error (.fault e) => .error (.fault (.type e))
  | .error (.stray r) => .error (.stray r)
  | .error (.defect x) => trip x

/-- **A type has no shape, or is seen to have it.** -/
theorem shape_cases (h : s.IsArena) (ty : Ty) :
    (∃ stop fault, shape s ty = .error stop ∧ s.shape ty = .error fault
      ∧ ∀ α, @Matches ValueError α s.IsStray unknownType (.error stop) (.error fault))
    ∨ ∃ left, shape s ty = .ok (peel left) ∧ s.shape ty = .ok left := by
  have hmatches := matches_dealias h ty s.name
  unfold shape Scope.shape
  cases hdealias : s.dealias ty s.name with
  | ok left =>
    rw [hdealias] at hmatches
    rw [hmatches.eq_ok]
    exact .inr ⟨left, rfl, rfl⟩
  | error fault =>
    left
    rw [hdealias] at hmatches
    have hmatches : Matches _ (unknown s.name) (dealias s ty s.name) (.error fault) := hmatches
    generalize dealias s ty s.name = walk at hmatches
    cases hmatches with
    | fault => cases fault <;> exact ⟨_, _, rfl, rfl, fun _ => .fault _⟩
    | stray strays => exact ⟨_, _, rfl, rfl, fun _ => .stray strays.2⟩

/-- The fault that an entity stands where a type is expected. -/
def notType (s : Scope) (id : EntityId) (kind : Entity.Kind) : Watched ValueError α := do
  let e ← entity s id
  .error (.fault (.mismatch "a type" (kind.noun ++ " '" ++ e.name ++ "'")))

theorem matches_notType (he : s.entity? id = some e) {P : Reference EntityId → Prop}
    {blame : Reference EntityId → ValueError} :
    @Matches ValueError α P blame (notType s id e.kind) (.error e.notType) := by
  unfold notType
  rw [entity_eq he]
  exact .fault _

/-- **The tag of a type.** -/
def tag (s : Scope) (ty : Ty) : Watched ValueError Wire.Tag :=
  match shape s ty with
  | .error stop => .error stop
  | .ok (.type (.primitive p)) => .ok p.tag
  | .ok (.type (.list _)) => .ok .list
  | .ok (.type (.set _)) => .ok .set
  | .ok (.type (.map _ _)) => .ok .map
  | .ok (.type (.named r)) => trip (.nameLeft r.name)
  | .ok (.entity _ .enum) => .ok .i32
  | .ok (.entity _ (.struct _)) => .ok .struct
  | .ok (.entity id kind) => notType s id kind

theorem matches_tag (h : s.IsArena) (ty : Ty) :
    Matches s.IsStray unknownType (tag s ty) (ty.tag s) := by
  unfold tag Ty.tag
  rcases shape_cases h ty with ⟨stop, fault, hshape, hplain, hfault⟩ | ⟨left, hshape, hplain⟩
  · rw [hshape, hplain]
    exact hfault _
  · rw [hshape, hplain]
    cases left with
    | entity id e =>
      have he := s.entity?_of_shape hplain
      have hnot := @matches_notType Wire.Tag s id e he s.IsStray unknownType
      simp only [peel, bind, Except.bind, Shape.tag, Entity.kind] at hnot ⊢
      cases hbody : e.body with
      | enum items => exact .ok _
      | struct kind fields => exact .ok _
      | _ =>
        rw [hbody] at hnot
        exact hnot
    | _ => exact .ok _

/-! ## Fields -/

def fieldsToWire (typeName : String) (given : List (String × (Ty → Watched ValueError Wire))) :
    List Entity.Field → Watched ValueError (List (Int16 × Wire))
  | [] => .ok []
  | f :: declared =>
    match given.lookup f.name with
    | some lower => do
      let value ← lower f.type
      let fields ← fieldsToWire typeName given declared
      return (f.id, value) :: fields
    | none =>
      if f.isRequired then .error (.fault (.missingField typeName f.name))
      else fieldsToWire typeName given declared

def structToWire (typeName : String) (kind : StructKind) (declared : List Entity.Field)
    (given : List (String × (Ty → Watched ValueError Wire))) : Watched ValueError Wire :=
  match given.find? fun (name, _) => !declared.any fun f => f.name == name with
  | some (name, _) => .error (.fault (.unknownField typeName name))
  | none =>
    if kind = .union ∧ given.length ≠ 1 then
      .error (.fault (.unionArity typeName given.length))
    else .struct <$> fieldsToWire typeName given declared

def fieldsToValue (typeName : String)
    (received : List (Int16 × (Ty → Watched ValueError Value)))
    (done : List (String × Value)) :
    List Entity.Field → Watched ValueError (List (String × Value))
  | [] => .ok done
  | f :: declared =>
    match received.lookup f.id with
    | some raise => do
      let value ← raise f.type
      fieldsToValue typeName received (put done f.name value) declared
    | none =>
      match f.defaultValue with
      | some value => fieldsToValue typeName received (put done f.name value) declared
      | none =>
        if f.isRequired then .error (.fault (.missingField typeName f.name))
        else fieldsToValue typeName received done declared

def structToValue (typeName : String) (kind : StructKind) (declared : List Entity.Field)
    (received : List (Int16 × (Ty → Watched ValueError Value))) :
    Watched ValueError Value := do
  let fields ← fieldsToValue typeName received [] declared
  if kind = .union ∧ fields.length ≠ 1 then
    .error (.fault (.unionArity typeName fields.length))
  else return .struct typeName fields

section Fields

variable {typeName : String}

/-- **What is sent of fields matches** if it does for each of them. -/
theorem matches_fieldsToWire {fields : List (String × Value)}
    {lower' : Value → Ty → Watched ValueError Wire} {lower : Value → Ty → Except ValueError Wire}
    (hfields : ∀ x ∈ fields, ∀ ty, Matches s.IsStray unknownType (lower' x.2 ty) (lower x.2 ty))
    (declared : List Entity.Field) :
    Matches s.IsStray unknownType
      (fieldsToWire typeName (fields.map fun x => (x.1, lower' x.2)) declared)
      (Value.fieldsToWire typeName (fields.map fun x => (x.1, lower x.2)) declared) := by
  induction declared with
  | nil => exact .ok _
  | cons f declared ih =>
    rw [fieldsToWire, Value.fieldsToWire, lookup_map_snd, lookup_map_snd]
    cases hlookup : fields.lookup f.name with
    | some v =>
      exact (hfields _ (mem_of_lookup_eq_some hlookup) f.type).bind fun _ _ =>
        ih.bind fun _ _ => .ok _
    | none =>
      dsimp only [Option.map_none]
      split
      · exact .fault _
      · exact ih

theorem matches_structToWire {fields : List (String × Value)}
    {lower' : Value → Ty → Watched ValueError Wire} {lower : Value → Ty → Except ValueError Wire}
    (hfields : ∀ x ∈ fields, ∀ ty, Matches s.IsStray unknownType (lower' x.2 ty) (lower x.2 ty))
    (kind : StructKind) (declared : List Entity.Field) :
    Matches s.IsStray unknownType
      (structToWire typeName kind declared (fields.map fun x => (x.1, lower' x.2)))
      (Value.structToWire typeName kind declared (fields.map fun x => (x.1, lower x.2))) := by
  unfold structToWire Value.structToWire
  simp only [List.find?_map, List.length_map, Function.comp_def]
  cases fields.find? fun x => !declared.any fun f => f.name == x.1 with
  | some x => exact .fault _
  | none =>
    dsimp only [Option.map_none]
    split
    · exact .fault _
    · exact (matches_fieldsToWire hfields declared).map _

/-- **What is received of fields matches** if it does for each of them. -/
theorem matches_fieldsToValue {fields : List (Int16 × Wire)}
    {raise' : Wire → Ty → Watched ValueError Value} {raise : Wire → Ty → Except ValueError Value}
    (hfields : ∀ x ∈ fields, ∀ ty, Matches s.IsStray unknownType (raise' x.2 ty) (raise x.2 ty))
    (declared : List Entity.Field) (done : List (String × Value)) :
    Matches s.IsStray unknownType
      (fieldsToValue typeName (fields.map fun x => (x.1, raise' x.2)) done declared)
      (Wire.fieldsToValue typeName (fields.map fun x => (x.1, raise x.2)) done declared) := by
  induction declared generalizing done with
  | nil => exact .ok _
  | cons f declared ih =>
    rw [fieldsToValue, Wire.fieldsToValue, lookup_map_snd, lookup_map_snd]
    cases hlookup : fields.lookup f.id with
    | some w =>
      exact (hfields _ (mem_of_lookup_eq_some hlookup) f.type).bind fun _ _ => ih _
    | none =>
      dsimp only [Option.map_none]
      cases f.defaultValue with
      | some v => exact ih _
      | none =>
        dsimp only
        split
        · exact .fault _
        · exact ih _

theorem matches_structToValue {fields : List (Int16 × Wire)}
    {raise' : Wire → Ty → Watched ValueError Value} {raise : Wire → Ty → Except ValueError Value}
    (hfields : ∀ x ∈ fields, ∀ ty, Matches s.IsStray unknownType (raise' x.2 ty) (raise x.2 ty))
    (kind : StructKind) (declared : List Entity.Field) :
    Matches s.IsStray unknownType
      (structToValue typeName kind declared (fields.map fun x => (x.1, raise' x.2)))
      (Wire.structToValue typeName kind declared (fields.map fun x => (x.1, raise x.2))) := by
  refine (matches_fieldsToValue hfields declared []).bind fun done _ => ?_
  split
  · exact .fault _
  · exact .ok _

end Fields

/-! ## Sending -/

mutual

/-- **A value on the wire, as one of a type.** -/
def toWire (s : Scope) (v : Value) (ty : Ty) : Watched ValueError Wire :=
  match shape s ty with
  | .error stop => .error stop
  | .ok (.type (.primitive p)) => ofResult (Value.primitiveToWire p v)
  | .ok (.type (.list element)) =>
    match v with
    | .list items => do
      let tag ← tag s element
      let items ← itemsToWire s element items
      return .list tag items
    | v => .error (.fault (.mismatch ty.display v.describe))
  | .ok (.type (.set element)) =>
    match v with
    | .set items => do
      let tag ← tag s element
      let items ← itemsToWire s element items
      return .set tag items
    | v => .error (.fault (.mismatch ty.display v.describe))
  | .ok (.type (.map key value)) =>
    match v with
    | .map entries => do
      let keyTag ← tag s key
      let valueTag ← tag s value
      let entries ← entriesToWire s key value entries
      return .map keyTag valueTag entries
    | v => .error (.fault (.mismatch ty.display v.describe))
  | .ok (.type (.named r)) => trip (.nameLeft r.name)
  | .ok (.entity id kind) =>
    match entity s id with
    | .error stop => .error stop
    | .ok e =>
      match kind, e.body with
      | .enum, .enum items => ofResult (Value.enumToWire e.name items v)
      | .enum, _ => trip (.noItems id)
      | .struct kind, .struct _ declared =>
        match v with
        | .struct typeName fields =>
          if typeName = e.name then structToWire e.name kind declared (lowerings s fields)
          else .error (.fault (.mismatch e.name typeName))
        | v => .error (.fault (.mismatch e.name v.describe))
      | .struct _, _ => trip (.noFields id)
      | kind, _ => notType s id kind

def itemsToWire (s : Scope) (element : Ty) : List Value → Watched ValueError (List Wire)
  | [] => .ok []
  | item :: items => do
    let item ← toWire s item element
    let items ← itemsToWire s element items
    return item :: items

def entriesToWire (s : Scope) (key value : Ty) :
    List (Value × Value) → Watched ValueError (List (Wire × Wire))
  | [] => .ok []
  | (k, v) :: entries => do
    let k ← toWire s k key
    let v ← toWire s v value
    let entries ← entriesToWire s key value entries
    return (k, v) :: entries

def lowerings (s : Scope) :
    List (String × Value) → List (String × (Ty → Watched ValueError Wire))
  | [] => []
  | (name, v) :: fields => (name, toWire s v) :: lowerings s fields

end

section Send

theorem lowerings_eq_map (s : Scope) (fields : List (String × Value)) :
    lowerings s fields = fields.map fun x => (x.1, toWire s x.2) := by
  induction fields with
  | nil => rw [lowerings, List.map_nil]
  | cons x fields ih => rw [lowerings, ih, List.map_cons]

theorem matches_itemsToWire {items : List Value}
    (hitems : ∀ v ∈ items, ∀ ty, Matches s.IsStray unknownType (toWire s v ty) (v.toWire s ty))
    (element : Ty) :
    Matches s.IsStray unknownType (itemsToWire s element items)
      (Value.itemsToWire s element items) := by
  induction items with
  | nil =>
    rw [itemsToWire, Value.itemsToWire]
    exact .ok _
  | cons v items ih =>
    obtain ⟨hv, hitems⟩ := List.forall_mem_cons.mp hitems
    rw [itemsToWire, Value.itemsToWire]
    exact (hv element).bind fun _ _ => (ih hitems).bind fun _ _ => .ok _

theorem matches_entriesToWire {entries : List (Value × Value)}
    (hkeys : ∀ x ∈ entries, ∀ ty,
      Matches s.IsStray unknownType (toWire s x.1 ty) (x.1.toWire s ty))
    (hvalues : ∀ x ∈ entries, ∀ ty,
      Matches s.IsStray unknownType (toWire s x.2 ty) (x.2.toWire s ty))
    (key value : Ty) :
    Matches s.IsStray unknownType (entriesToWire s key value entries)
      (Value.entriesToWire s key value entries) := by
  induction entries with
  | nil =>
    rw [entriesToWire, Value.entriesToWire]
    exact .ok _
  | cons x entries ih =>
    obtain ⟨k, v⟩ := x
    obtain ⟨hk, hkeys⟩ := List.forall_mem_cons.mp hkeys
    obtain ⟨hv, hvalues⟩ := List.forall_mem_cons.mp hvalues
    rw [entriesToWire, Value.entriesToWire]
    exact (hk key).bind fun _ _ => (hv value).bind fun _ _ =>
      (ih hkeys hvalues).bind fun _ _ => .ok _

/-- **Sending is watched**: no guard is tripped, and a reference that strays is blamed. -/
theorem matches_toWire (h : s.IsArena) (v : Value) (ty : Ty) :
    Matches s.IsStray unknownType (toWire s v ty) (v.toWire s ty) := by
  induction v using Value.childInduction generalizing ty with
  | step v ih =>
    rw [toWire.eq_def, Value.toWire.eq_def]
    rcases shape_cases h ty with ⟨stop, fault, hshape, hplain, hfault⟩ | ⟨left, hshape, hplain⟩
    · rw [hshape, hplain]
      exact hfault _
    · rw [hshape, hplain]
      cases left with
      | primitive p => exact matches_ofResult _
      | list element =>
        cases v with
        | list items =>
          exact (matches_tag h element).bind fun _ _ =>
            (matches_itemsToWire ih element).bind fun _ _ => .ok _
        | _ => exact .fault _
      | set element =>
        cases v with
        | set items =>
          exact (matches_tag h element).bind fun _ _ =>
            (matches_itemsToWire ih element).bind fun _ _ => .ok _
        | _ => exact .fault _
      | map key value =>
        cases v with
        | map entries =>
          exact (matches_tag h key).bind fun _ _ => (matches_tag h value).bind fun _ _ =>
            (matches_entriesToWire (fun x hx => ih x.1 (Value.key_mem_children hx))
              (fun x hx => ih x.2 (Value.value_mem_children hx)) key value).bind
              fun _ _ => .ok _
        | _ => exact .fault _
      | entity id e =>
        have he := s.entity?_of_shape hplain
        have hnot := @matches_notType Wire s id e he s.IsStray unknownType
        simp only [peel, entity_eq he, Entity.kind] at hnot ⊢
        cases hbody : e.body with
        | enum items => exact matches_ofResult _
        | struct kind declared =>
          cases v with
          | struct typeName fields =>
            simp only [Entity.Body.kind]
            split
            · rw [lowerings_eq_map, Value.lowerings_eq_map]
              exact matches_structToWire (fun x hx => ih x.2 (List.mem_map_of_mem hx)) kind declared
            · exact .fault _
          | _ => exact .fault _
        | _ =>
          rw [hbody] at hnot
          exact hnot

end Send

/-! ## Receiving -/

mutual

/-- **A wire value as a value of a type.** -/
def toValue (s : Scope) (w : Wire) (ty : Ty) : Watched ValueError Value :=
  match shape s ty with
  | .error stop => .error stop
  | .ok (.type (.primitive p)) => ofResult (Wire.primitiveToValue p w)
  | .ok (.type (.list element)) =>
    match w with
    | .list _ items => .list <$> itemsToValue s element items
    | w => .error (.fault (.mismatch ty.display w.tag.name))
  | .ok (.type (.set element)) =>
    match w with
    | .set _ items => .set <$> itemsToValue s element items
    | w => .error (.fault (.mismatch ty.display w.tag.name))
  | .ok (.type (.map key value)) =>
    match w with
    | .map _ _ entries => .map <$> entriesToValue s key value entries
    | w => .error (.fault (.mismatch ty.display w.tag.name))
  | .ok (.type (.named r)) => trip (.nameLeft r.name)
  | .ok (.entity id kind) =>
    match entity s id with
    | .error stop => .error stop
    | .ok e =>
      match kind, e.body with
      | .enum, .enum items => ofResult (Wire.enumToValue ty e.name items w)
      | .enum, _ => trip (.noItems id)
      | .struct kind, .struct _ declared =>
        match w with
        | .struct fields => structToValue e.name kind declared (raisings s fields)
        | w => .error (.fault (.mismatch e.name w.tag.name))
      | .struct _, _ => trip (.noFields id)
      | kind, _ => notType s id kind

def itemsToValue (s : Scope) (element : Ty) : List Wire → Watched ValueError (List Value)
  | [] => .ok []
  | item :: items => do
    let item ← toValue s item element
    let items ← itemsToValue s element items
    return item :: items

def entriesToValue (s : Scope) (key value : Ty) :
    List (Wire × Wire) → Watched ValueError (List (Value × Value))
  | [] => .ok []
  | (k, v) :: entries => do
    let k ← toValue s k key
    let v ← toValue s v value
    let entries ← entriesToValue s key value entries
    return (k, v) :: entries

def raisings (s : Scope) :
    List (Int16 × Wire) → List (Int16 × (Ty → Watched ValueError Value))
  | [] => []
  | (id, w) :: fields => (id, toValue s w) :: raisings s fields

end

section Receive

theorem raisings_eq_map (s : Scope) (fields : List (Int16 × Wire)) :
    raisings s fields = fields.map fun x => (x.1, toValue s x.2) := by
  induction fields with
  | nil => rw [raisings, List.map_nil]
  | cons x fields ih => rw [raisings, ih, List.map_cons]

theorem matches_itemsToValue {items : List Wire}
    (hitems : ∀ w ∈ items, ∀ ty, Matches s.IsStray unknownType (toValue s w ty) (w.toValue s ty))
    (element : Ty) :
    Matches s.IsStray unknownType (itemsToValue s element items)
      (Wire.itemsToValue s element items) := by
  induction items with
  | nil =>
    rw [itemsToValue, Wire.itemsToValue]
    exact .ok _
  | cons w items ih =>
    obtain ⟨hw, hitems⟩ := List.forall_mem_cons.mp hitems
    rw [itemsToValue, Wire.itemsToValue]
    exact (hw element).bind fun _ _ => (ih hitems).bind fun _ _ => .ok _

theorem matches_entriesToValue {entries : List (Wire × Wire)}
    (hkeys : ∀ x ∈ entries, ∀ ty,
      Matches s.IsStray unknownType (toValue s x.1 ty) (x.1.toValue s ty))
    (hvalues : ∀ x ∈ entries, ∀ ty,
      Matches s.IsStray unknownType (toValue s x.2 ty) (x.2.toValue s ty))
    (key value : Ty) :
    Matches s.IsStray unknownType (entriesToValue s key value entries)
      (Wire.entriesToValue s key value entries) := by
  induction entries with
  | nil =>
    rw [entriesToValue, Wire.entriesToValue]
    exact .ok _
  | cons x entries ih =>
    obtain ⟨k, v⟩ := x
    obtain ⟨hk, hkeys⟩ := List.forall_mem_cons.mp hkeys
    obtain ⟨hv, hvalues⟩ := List.forall_mem_cons.mp hvalues
    rw [entriesToValue, Wire.entriesToValue]
    exact (hk key).bind fun _ _ => (hv value).bind fun _ _ =>
      (ih hkeys hvalues).bind fun _ _ => .ok _

/-- **Receiving is watched**: no guard is tripped, and a reference that strays is blamed. -/
theorem matches_toValue (h : s.IsArena) (w : Wire) (ty : Ty) :
    Matches s.IsStray unknownType (toValue s w ty) (w.toValue s ty) := by
  induction w using Wire.childInduction generalizing ty with
  | step w ih =>
    rw [toValue.eq_def, Wire.toValue.eq_def]
    rcases shape_cases h ty with ⟨stop, fault, hshape, hplain, hfault⟩ | ⟨left, hshape, hplain⟩
    · rw [hshape, hplain]
      exact hfault _
    · rw [hshape, hplain]
      cases left with
      | primitive p => exact matches_ofResult _
      | list element =>
        cases w with
        | list tag items => exact (matches_itemsToValue ih element).map _
        | _ => exact .fault _
      | set element =>
        cases w with
        | set tag items => exact (matches_itemsToValue ih element).map _
        | _ => exact .fault _
      | map key value =>
        cases w with
        | map keyTag valueTag entries =>
          exact (matches_entriesToValue (fun x hx => ih x.1 (Wire.key_mem_children hx))
            (fun x hx => ih x.2 (Wire.value_mem_children hx)) key value).map _
        | _ => exact .fault _
      | entity id e =>
        have he := s.entity?_of_shape hplain
        have hnot := @matches_notType Value s id e he s.IsStray unknownType
        simp only [peel, entity_eq he, Entity.kind] at hnot ⊢
        cases hbody : e.body with
        | enum items => exact matches_ofResult _
        | struct kind declared =>
          cases w with
          | struct fields =>
            simp only [Entity.Body.kind]
            rw [raisings_eq_map, Wire.raisings_eq_map]
            exact matches_structToValue (fun x hx => ih x.2 (Wire.field_mem_children hx)) kind
              declared
          | _ => exact .fault _
        | _ =>
          rw [hbody] at hnot
          exact hnot

end Receive

end Watched

/-! ## What a handle is worth -/

namespace Scope.IsArena

variable {s : Scope} {ty : Ty} {r : Reference EntityId}

/-- **A reference that is met and strays is reported as unknown.** -/
theorem dealias_of_meets (h : s.IsArena) (hmeets : s.Meets ty r) (hstray : s.IsStray r)
    (referrer : String) :
    s.dealias ty referrer = .error (.unknown r.name referrer r.span) := by
  have hmatches := Watched.matches_dealias h ty referrer
  rw [(Watched.dealias_eq_stray h ty referrer).mpr ⟨hmeets, hstray⟩] at hmatches
  exact map_eq_error.mp hmatches.eq_blame

/-- Where a type is exchanged, it is reported as an unknown type. -/
theorem shape_of_meets (h : s.IsArena) (hmeets : s.Meets ty r) (hstray : s.IsStray r) :
    s.shape ty = .error (.unknownType r.name) := by
  unfold Scope.shape
  rw [h.dealias_of_meets hmeets hstray]

/-- **A handle means nothing but the name it comes with.** In a scope where names and
handles agree, take any type, with handles from anywhere. No handle is used that the scope
never issued, and wherever a reference is met that strays, however deep, it is blamed.
What is found, sent or received at the type is found, sent or received at it without
handles. And if a reference is met that strays when the typedefs in front of the type are
followed, its name is reported as unknown. -/
theorem exchange_by_name (h : s.IsArena) (ty : Ty) (referrer : String) (v : Value) (w : Wire) :
    ((Watched.dealias s ty referrer).Matches s.IsStray (Watched.unknown referrer)
          (Guarded.peel <$> s.dealias ty referrer)
        ∧ (Watched.tag s ty).Matches s.IsStray Watched.unknownType (ty.tag s)
        ∧ (Watched.toWire s v ty).Matches s.IsStray Watched.unknownType (v.toWire s ty)
        ∧ (Watched.toValue s w ty).Matches s.IsStray Watched.unknownType (w.toValue s ty))
      ∧ ((∀ shape, s.dealias ty referrer = .ok shape →
            Shape.erase <$> s.dealias ty.erase referrer = .ok shape.erase)
        ∧ (∀ tag, ty.tag s = .ok tag → ty.erase.tag s = .ok tag)
        ∧ (∀ sent, v.toWire s ty = .ok sent → v.toWire s ty.erase = .ok sent)
        ∧ ∀ received, w.toValue s ty = .ok received → w.toValue s ty.erase = .ok received)
      ∧ ∀ r, (Watched.dealias s ty referrer = .error (.stray r) ↔ s.Meets ty r ∧ s.IsStray r)
        ∧ (s.Meets ty r → s.IsStray r →
          s.dealias ty referrer = .error (.unknown r.name referrer r.span)
            ∧ ty.tag s = .error (.unknownType r.name)
            ∧ v.toWire s ty = .error (.unknownType r.name)
            ∧ w.toValue s ty = .error (.unknownType r.name)) := by
  refine ⟨⟨(Watched.matches_dealias h ty referrer).imp fun _ => And.right, Watched.matches_tag h ty,
      Watched.matches_toWire h v ty, Watched.matches_toValue h w ty⟩,
    ⟨fun _ => h.dealias_erase, fun _ => h.tag_erase, fun _ => h.toWire_erase,
      fun _ => h.toValue_erase⟩,
    fun r => ⟨Watched.dealias_eq_stray h ty referrer, fun hmeets hstray => ?_⟩⟩
  have hshape := h.shape_of_meets hmeets hstray
  refine ⟨h.dealias_of_meets hmeets hstray referrer, ?_, ?_, ?_⟩
  · rw [Ty.tag, hshape]
    rfl
  · rw [Value.toWire, hshape]
  · rw [Wire.toValue, hshape]

end Scope.IsArena

namespace Document

/-- A reference to cards with a handle from somewhere. -/
def cardFrom (id : EntityId) : Reference EntityId := ⟨"Card", ⟨6, 1⟩, some id⟩

/-- It strays in the document with cards, unless the handle is that of cards there. -/
theorem isStray_cardFrom {id : EntityId} (hid : id ≠ 1) : cardsScope.IsStray (cardFrom id) := by
  refine ⟨id, rfl, fun e he => ?_⟩
  rcases id with _ | _ | _ | id
  · cases he
    decide
  · exact absurd rfl hid
  · cases he
    decide
  · cases he

/-- The deck is sent with the handle of decks as without it. A card with the handle of
another entity, or with one that was never issued, is unknown, also as the item of a list,
and even if there is no such item. -/
theorem exchange_by_name_cards :
    cards.compile "cards" = .ok ⟨cardsScope, []⟩ ∧ cardsScope.IsArena
      ∧ (deck [("suit", .enum "Suit" 1), ("rank", .i32 1)]).toWire cardsScope
          (.named ⟨"Deck", ⟨9, 1⟩, some 2⟩) = .ok deckSent
      ∧ (deck [("suit", .enum "Suit" 1), ("rank", .i32 1)]).toWire cardsScope deckType
        = .ok deckSent
      ∧ (∀ id, id ≠ 1 → ∀ w : Wire, w.toValue cardsScope (.named (cardFrom id))
          = .error (.unknownType "Card"))
      ∧ Watched.toWire cardsScope (.list []) (.list (.named (cardFrom 7)))
        = .error (.stray (cardFrom 7))
      ∧ (Value.list []).toWire cardsScope (.list (.named (cardFrom 7)))
        = .error (.unknownType "Card") := by
  have harena := (stage_of_compile compile_cards).models.arena
  have hsent : (deck [("suit", .enum "Suit" 1), ("rank", .i32 1)]).toWire cardsScope
      (.named ⟨"Deck", ⟨9, 1⟩, some 2⟩) = .ok deckSent := rfl
  have hdeck := harena.exchange_by_name (.named ⟨"Deck", ⟨9, 1⟩, some 2⟩) "cards"
    (deck [("suit", .enum "Suit" 1), ("rank", .i32 1)]) deckSent
  have hlist := harena.exchange_by_name (.list (.named (cardFrom 7))) "cards" (.list []) deckSent
  have htag : Watched.tag cardsScope (.named (cardFrom 7)) = .error (.stray (cardFrom 7)) := by
    unfold Watched.tag Watched.shape
    rw [(Watched.dealias_eq_stray harena _ _).mpr ⟨.here _, isStray_cardFrom (by decide)⟩]
  have hstop : Watched.toWire cardsScope (.list []) (.list (.named (cardFrom 7)))
      = .error (.stray (cardFrom 7)) := by
    have hshape : Watched.shape cardsScope (.list (.named (cardFrom 7)))
        = .ok (.type (.list (.named (cardFrom 7)))) := rfl
    rw [Watched.toWire, hshape]
    dsimp only
    rw [htag]
    rfl
  refine ⟨compile_cards, harena, hsent, hdeck.2.1.2.2.1 _ hsent, fun id hid w => ?_, hstop, ?_⟩
  · have hcard := harena.exchange_by_name (.named (cardFrom id)) "cards" (.list []) w
    exact ((hcard.2.2 (cardFrom id)).2 (.here _) (isStray_cardFrom hid)).2.2.2
  · have hmatches := hlist.1.2.2.1
    rw [hstop] at hmatches
    exact hmatches.eq_blame

end Document

end Interlink
