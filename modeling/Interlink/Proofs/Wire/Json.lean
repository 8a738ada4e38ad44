import Interlink.Proofs.Json.Record
import Interlink.Proofs.Wire.Basic
import Interlink.Protocol

/-!
# Wire values in JSON are read as they were written

The tree of a wire value can be written (`Wire.written_toJson`), so its text is
read as that tree, and it remains to read the tree. The readers are followed
through it part by part (`Gives`): what there is no room for is refused, and
nothing else is (`Wire.gives_ofJson?`). How much room a wire value takes is the
depth of its tree.

Two things do not come back as they were. A NaN comes back as the one that
stands for all of them (`Wire.quiet`). And since numbers are read quickly rather
than exactly, a double need not be read as it was written, so that it is has to
be assumed of the doubles in question (`Wire.KeepsDoubles`).
-/

namespace Interlink

/-! ## Doubles -/

namespace Double

/-- A double, with one NaN for all of them. -/
def quiet (d : Double) : Double := if d.isNaN then .nan else d

theorem quiet_of_isFinite {d : Double} (h : d.isFinite = true) : d.quiet = d := by
  have hnan : d.isNaN = false := by
    simp only [isFinite, bne_iff_ne, ne_eq] at h
    simp [isNaN, h]
  rw [quiet, hnan]
  rfl

/-- A double that is neither finite nor a NaN is an infinity. -/
theorem eq_infinity {d : Double} (hfinite : d.isFinite = false) (hnan : d.isNaN = false) :
    d = .infinity d.negative := by
  have hexponent : d.exponent = 2047 := by simpa [isFinite] using hfinite
  have hfraction : d.fraction = 0 := by simpa [isNaN, hexponent] using hnan
  have hlt := d.bits.toNat_lt
  unfold exponent at hexponent
  unfold fraction at hfraction
  have hbits : d.bits = (infinity d.negative).bits := by
    apply UInt64.toNat_inj.mp
    unfold infinity negative
    by_cases hsign : 0x8000000000000000 ≤ d.bits.toNat
    · rw [decide_eq_true hsign, if_pos rfl]
      show d.bits.toNat = 0xfff0000000000000
      omega
    · rw [decide_eq_false hsign]
      show d.bits.toNat = 0x7ff0000000000000
      omega
  exact congrArg Double.mk hbits

/-- **A double is read from JSON**, a NaN as the one that stands for all, if its
number is when it has one. -/
theorem ofWireJson?_toWireJson {d : Double}
    (h : d.isFinite = true → (Json.Number.ofDouble d).double? = some d) :
    ofWireJson? d.toWireJson = some d.quiet := by
  unfold toWireJson
  split
  next hfinite =>
    rw [quiet_of_isFinite hfinite]
    exact h hfinite
  next hfinite =>
    split
    next hnan =>
      rw [quiet, if_pos hnan]
      rfl
    next hnan =>
      rw [Bool.not_eq_true] at hfinite hnan
      have heq := eq_infinity hfinite hnan
      have hquiet : d.quiet = d := by rw [quiet, hnan]; rfl
      rw [hquiet]
      split
      next hsign =>
        rw [hsign] at heq
        rw [heq]
        rfl
      next hsign =>
        rw [Bool.not_eq_true] at hsign
        rw [hsign] at heq
        rw [heq]
        rfl

-- Not every number is: this double comes back as its lower neighbour.
example : ofWireJson? (toWireJson ⟨0x3a1890c78092b4d4⟩) = some ⟨0x3a1890c78092b4d3⟩ := by
  decide

end Double

/-! ## Wire values -/

namespace Wire

mutual

/-- **A wire value with one NaN for all of them.** -/
def quiet : Wire → Wire
  | .double d => .double d.quiet
  | .struct fields => .struct (quietFields fields)
  | .map key value entries => .map key value (quietEntries entries)
  | .set element items => .set element (quietItems items)
  | .list element items => .list element (quietItems items)
  | w => w

/-- The fields of a struct with one NaN for all of them. -/
def quietFields : List (Int16 × Wire) → List (Int16 × Wire)
  | [] => []
  | (id, value) :: fields => (id, value.quiet) :: quietFields fields

/-- The entries of a map with one NaN for all of them. -/
def quietEntries : List (Wire × Wire) → List (Wire × Wire)
  | [] => []
  | (key, value) :: entries => (key.quiet, value.quiet) :: quietEntries entries

/-- The items of a list or set with one NaN for all of them. -/
def quietItems : List Wire → List Wire
  | [] => []
  | item :: items => item.quiet :: quietItems items

end

theorem quietFields_eq_map (fields : List (Int16 × Wire)) :
    quietFields fields = fields.map fun x => (x.1, x.2.quiet) := by
  induction fields with
  | nil => rfl
  | cons x fields ih => rw [quietFields, ih, List.map_cons]

theorem quietEntries_eq_map (entries : List (Wire × Wire)) :
    quietEntries entries = entries.map fun x => (x.1.quiet, x.2.quiet) := by
  induction entries with
  | nil => rfl
  | cons x entries ih => rw [quietEntries, ih, List.map_cons]

theorem quietItems_eq_map (items : List Wire) : quietItems items = items.map quiet := by
  induction items with
  | nil => rfl
  | cons x items ih => rw [quietItems, ih, List.map_cons]

theorem tag_quiet (w : Wire) : w.quiet.tag = w.tag := by
  cases w <;> simp [quiet, tag]

/-- **The doubles of a wire value are read as they were written.** -/
def KeepsDoubles (w : Wire) : Prop :=
  ∀ d, w.HasPart (.double d) → d.isFinite = true →
    (Json.Number.ofDouble d).double? = some d

theorem KeepsDoubles.of_mem_children {w u : Wire} (h : w.KeepsDoubles) (hu : u ∈ w.children) :
    u.KeepsDoubles :=
  fun d hpart => h d (.head hu hpart)

/-- The doubles of a wire value are read if it is no other double and those of
its children are. -/
theorem keepsDoubles_of_children {w : Wire}
    (hself : ∀ d, w = .double d → d.isFinite = true →
      (Json.Number.ofDouble d).double? = some d)
    (hchildren : ∀ u ∈ w.children, u.KeepsDoubles) : w.KeepsDoubles := by
  have hparts : ∀ part, w.HasPart part → ∀ d, part = .double d → d.isFinite = true →
      (Json.Number.ofDouble d).double? = some d := by
    refine forall_hasPart.mpr ⟨hself, fun u hu part hpart d hd => ?_⟩
    exact hchildren u hu d (hd ▸ hpart)
  exact fun d hpart => hparts _ hpart d rfl

/-! ## Writing -/

/-- A field of a struct in JSON. -/
def fieldToJson (x : Int16 × Wire) : Json :=
  .object [("id", .int x.1.toInt), ("value", x.2.toJson)]

/-- An entry of a map in JSON. -/
def entryToJson (x : Wire × Wire) : Json := .arr [x.1.toJson, x.2.toJson]

theorem fieldsToJson_eq_map (fields : List (Int16 × Wire)) :
    fieldsToJson fields = fields.map fieldToJson := by
  induction fields with
  | nil => rfl
  | cons x fields ih => rw [fieldsToJson, ih, List.map_cons, fieldToJson]

theorem entriesToJson_eq_map (entries : List (Wire × Wire)) :
    entriesToJson entries = entries.map entryToJson := by
  induction entries with
  | nil => rfl
  | cons x entries ih => rw [entriesToJson, ih, List.map_cons, entryToJson]

theorem itemsToJson_eq_map (items : List Wire) : itemsToJson items = items.map toJson := by
  induction items with
  | nil => rfl
  | cons w items ih => rw [itemsToJson, ih, List.map_cons]

theorem written_toWireJson (d : Double) : d.toWireJson.Written := by
  unfold Double.toWireJson
  split_ifs
  · exact Json.written_num.mpr (Json.Number.proper_ofDouble d)
  all_goals exact Json.written_text _

/-- **The tree of a wire value can be written.** -/
theorem written_toJson (w : Wire) : w.toJson.Written := by
  induction w using childInduction with
  | step w ih =>
    cases w with
    | double d => simp [toJson, written_toWireJson]
    | struct fields =>
      rw [toJson, Json.written_tagged, fieldsToJson_eq_map, Json.written_arr, List.forall_mem_map]
      intro x hx
      simp [fieldToJson, ih x.2 (field_mem_children hx)]
    | map key value entries =>
      have hentries : (Json.arr (entries.map entryToJson)).Written := by
        rw [Json.written_arr, List.forall_mem_map]
        intro x hx
        simp [entryToJson, ih x.1 (key_mem_children hx), ih x.2 (value_mem_children hx)]
      simpa [toJson, entriesToJson_eq_map, -Json.written_arr] using hentries
    | set element items =>
      have hitems : ∀ u ∈ items, u.toJson.Written := ih
      simpa [toJson, itemsToJson_eq_map] using hitems
    | list element items =>
      have hitems : ∀ u ∈ items, u.toJson.Written := ih
      simpa [toJson, itemsToJson_eq_map] using hitems
    | _ => simp [toJson]

/-! ## Reading

What a reader finds is followed together with the room it needs. -/

/-- **What is found where there is room**: a reader finds `a` if there is, and
nothing if there is not. Finding it may hang on something that is given; refusing
it does not. -/
structure Gives {α : Type} (given : Prop) (x : Option α) (room : Prop) (a : α) : Prop where
  /-- With room `a` is found. -/
  found : given → room → x = some a
  /-- Without room nothing is found. -/
  refused : ¬room → x = none

namespace Gives

variable {α β : Type} {given : Prop} {x : Option α} {y : Option β} {p q : Prop} {a : α} {b : β}

theorem of_eq (h : given → x = some a) : Gives given x True a :=
  ⟨fun hgiven _ => h hgiven, fun hno => absurd trivial hno⟩

theorem congr (h : Gives given x p a) (hpq : p ↔ q) : Gives given x q a :=
  ⟨fun hgiven hq => h.found hgiven (hpq.mpr hq), fun hno => h.refused (mt hpq.mp hno)⟩

theorem weaken {given' : Prop} (h : Gives given x p a) (himp : given' → given) :
    Gives given' x p a :=
  ⟨fun hgiven => h.found (himp hgiven), h.refused⟩

theorem map (h : Gives given x p a) (f : α → β) : Gives given (x.map f) p (f a) :=
  ⟨fun hgiven hp => by rw [h.found hgiven hp]; rfl, fun hno => by rw [h.refused hno]; rfl⟩

theorem pair (hx : Gives given x p a) (hy : Gives given y q b) :
    Gives given (x.bind fun a => y.map fun b => (a, b)) (p ∧ q) (a, b) := by
  refine ⟨fun hgiven hpq => ?_, fun hno => ?_⟩
  · rw [hx.found hgiven hpq.1, hy.found hgiven hpq.2]
    rfl
  · by_cases hp : p
    · rw [hy.refused fun hq => hno ⟨hp, hq⟩]
      cases x <;> rfl
    · rw [hx.refused hp]
      rfl

theorem within (h : Gives given x p a) (room depth : Nat) :
    Gives given (Wire.within room depth x) (depth ≤ room ∧ p) a := by
  unfold Wire.within
  refine ⟨fun hgiven hp => ?_, fun hno => ?_⟩
  · rw [if_pos hp.1, h.found hgiven hp.2]
  · split
    next hroom => exact h.refused fun hp => hno ⟨hroom, hp⟩
    next => rfl

theorem mapM {γ : Type} {items : List γ} {f : γ → α} {read : α → Option β} {room : γ → Prop}
    {g : γ → β} (h : ∀ item ∈ items, Gives given (read (f item)) (room item) (g item)) :
    Gives given ((items.map f).mapM read) (∀ item ∈ items, room item) (items.map g) := by
  induction items with
  | nil => exact (of_eq fun _ => rfl).congr (by simp)
  | cons item items ih =>
    obtain ⟨hitem, hitems⟩ := List.forall_mem_cons.mp h
    have hboth := ((hitem.pair (ih hitems)).map fun z => z.1 :: z.2).congr
      List.forall_mem_cons.symm
    have heq : ((item :: items).map f).mapM read
        = ((read (f item)).bind fun b => ((items.map f).mapM read).map fun bs => (b, bs)).map
          fun z => z.1 :: z.2 := by
      rw [List.map_cons, List.mapM_cons]
      cases read (f item) with
      | none => rfl
      | some b => cases (items.map f).mapM read <;> rfl
    rw [heq]
    exact hboth

end Gives

/-! ### Parts of wire values -/

variable {given : Prop} {read : Json → Option Wire}

/-- A field takes the room of its value. -/
theorem gives_fieldOfJson? {x : Int16 × Wire} {p : Prop}
    (h : Gives given (read x.2.toJson) p x.2.quiet) :
    Gives given (fieldOfJson? read (fieldToJson x)) p (x.1, x.2.quiet) := by
  have heq : fieldOfJson? read (fieldToJson x)
      = (read x.2.toJson).map fun value => (x.1, value) := by
    show ((Json.int x.1.toInt).int16?.bind fun id =>
      (read x.2.toJson).bind fun value => some (id, value)) = _
    rw [Json.int16?_int]
    cases read x.2.toJson <;> rfl
  rw [heq]
  exact h.map fun value => (x.1, value)

/-- An entry takes the room of its key and of its value. -/
theorem gives_entryOfJson? {x : Wire × Wire} {p q : Prop}
    (hkey : Gives given (read x.1.toJson) p x.1.quiet)
    (hvalue : Gives given (read x.2.toJson) q x.2.quiet) :
    Gives given (entryOfJson? read (entryToJson x)) (p ∧ q) (x.1.quiet, x.2.quiet) := by
  have heq : entryOfJson? read (entryToJson x)
      = (read x.1.toJson).bind fun key => (read x.2.toJson).map fun value => (key, value) := by
    show ((read x.1.toJson).bind fun key =>
      (read x.2.toJson).bind fun value => some (key, value)) = _
    cases read x.1.toJson <;> cases read x.2.toJson <;> rfl
  rw [heq]
  exact hkey.pair hvalue

/-- The items of a list or set are read three brackets further in. -/
theorem gives_sequenceOfJson? (room : Nat) {items : List Wire} {p : Wire → Prop}
    (element : Tag) (h : ∀ u ∈ items, Gives given (read u.toJson) (p u) u.quiet) :
    Gives given
      (sequenceOfJson? room read (.object [("element", .text element.name),
        ("items", .arr (itemsToJson items))]))
      (3 ≤ room ∧ ∀ u ∈ items, p u) (element, items.map quiet) := by
  have heq : sequenceOfJson? room read (.object [("element", .text element.name),
        ("items", .arr (itemsToJson items))])
      = (within room 3 ((items.map toJson).mapM read)).map fun items => (element, items) := by
    show ((Tag.ofName? element.name).bind fun element =>
      (within room 3 ((itemsToJson items).mapM read)).bind fun items =>
        some (element, items)) = _
    rw [Tag.ofName?_name, itemsToJson_eq_map]
    cases within room 3 ((items.map toJson).mapM read) <;> rfl
  rw [heq]
  exact ((Gives.mapM h).within room 3).map fun items => (element, items)

/-- The entries of a map are read three brackets further in, and what is in them
four. -/
theorem gives_mapOfJson? (room : Nat) {entries : List (Wire × Wire)} {p : Wire → Prop}
    (key value : Tag)
    (hkeys : ∀ x ∈ entries, Gives given (read x.1.toJson) (p x.1) x.1.quiet)
    (hvalues : ∀ x ∈ entries, Gives given (read x.2.toJson) (p x.2) x.2.quiet) :
    Gives given
      (mapOfJson? room read (.object [("key", .text key.name), ("value", .text value.name),
        ("entries", .arr (entriesToJson entries))]))
      (3 ≤ room ∧ ∀ x ∈ entries, 4 ≤ room ∧ p x.1 ∧ p x.2)
      (key, value, entries.map fun x => (x.1.quiet, x.2.quiet)) := by
  have heq : mapOfJson? room read (.object [("key", .text key.name),
        ("value", .text value.name), ("entries", .arr (entriesToJson entries))])
      = (within room 3 ((entries.map entryToJson).mapM fun entry =>
          within room 4 (entryOfJson? read entry))).map fun entries => (key, value, entries) := by
    show ((Tag.ofName? key.name).bind fun key => (Tag.ofName? value.name).bind fun value =>
      (within room 3 ((entriesToJson entries).mapM fun entry =>
        within room 4 (entryOfJson? read entry))).bind fun entries =>
          some (key, value, entries)) = _
    rw [Tag.ofName?_name, Tag.ofName?_name, entriesToJson_eq_map]
    cases within room 3 ((entries.map entryToJson).mapM fun entry =>
      within room 4 (entryOfJson? read entry)) <;> rfl
  rw [heq]
  refine ((Gives.mapM fun x hx => ?_).within room 3).map fun entries => (key, value, entries)
  exact (gives_entryOfJson? (hkeys x hx) (hvalues x hx)).within room 4

/-! ### Wire values -/

/-- What is read some brackets further in. -/
def nested (room depth : Nat) (j : Json) : Option Wire :=
  within room depth (ofJson? (room - depth) j)

theorem ofJson?_eq (room : Nat) (j : Json) :
    ofJson? room j = content room (nested room 3) (nested room 4) j := by
  rcases room with _ | _ | _ | _ | room <;> rfl

theorem depth_fields_le {fields : List (Int16 × Wire)} {n : Nat} :
    (Json.arr (fieldsToJson fields)).depth ≤ n ↔
      1 ≤ n ∧ ∀ x ∈ fields, 2 + x.2.toJson.depth ≤ n := by
  have hfield : ∀ x, (fieldToJson x).depth = 1 + x.2.toJson.depth := by
    intro x
    show 1 + max 0 (max x.2.toJson.depth 0) = _
    rw [Nat.max_zero, Nat.zero_max]
  rw [fieldsToJson_eq_map, Json.depth_arr_map_le]
  refine and_congr_right fun _ => forall₂_congr fun x _ => ?_
  rw [hfield, ← Nat.add_assoc]

theorem depth_entries_le {key value : Tag} {entries : List (Wire × Wire)} {n : Nat} :
    (Json.object [("key", .text key.name), ("value", .text value.name),
        ("entries", .arr (entriesToJson entries))]).depth ≤ n ↔
      2 ≤ n ∧ ∀ x ∈ entries, 3 + x.1.toJson.depth ≤ n ∧ 3 + x.2.toJson.depth ≤ n := by
  have hentry : ∀ x, (entryToJson x).depth = 1 + max x.1.toJson.depth x.2.toJson.depth := by
    intro x
    show 1 + max x.1.toJson.depth (max x.2.toJson.depth 0) = _
    rw [Nat.max_zero]
  have hroom : 1 + max 0 (max 0 (max (Json.arr (entriesToJson entries)).depth 0)) ≤ n ↔
      1 ≤ n ∧ (Json.arr (entriesToJson entries)).depth ≤ n - 1 := by omega
  refine hroom.trans ?_
  rw [entriesToJson_eq_map, Json.depth_arr_map_le, ← and_assoc]
  refine and_congr (by omega) (forall₂_congr fun x _ => ?_)
  rw [hentry]
  omega

theorem depth_items_le {element : Tag} {items : List Wire} {n : Nat} :
    (Json.object [("element", .text element.name),
        ("items", .arr (itemsToJson items))]).depth ≤ n ↔
      2 ≤ n ∧ ∀ u ∈ items, 2 + u.toJson.depth ≤ n := by
  have hroom : 1 + max 0 (max (Json.arr (itemsToJson items)).depth 0) ≤ n ↔
      1 ≤ n ∧ (Json.arr (itemsToJson items)).depth ≤ n - 1 := by omega
  refine hroom.trans ?_
  rw [itemsToJson_eq_map, Json.depth_arr_map_le, ← and_assoc]
  refine and_congr (by omega) (forall₂_congr fun u _ => ?_)
  omega

theorem depth_toWireJson (d : Double) : d.toWireJson.depth = 0 := by
  unfold Double.toWireJson
  split_ifs <;> rfl

variable {room : Nat}

/-- What is tagged takes one bracket more. -/
theorem gives_tagged {inner innermost : Json → Option Wire} {name : String} {payload : Json}
    {x : Option Wire} {w : Wire} (hx : Gives given x (payload.depth ≤ room - 1) w)
    (hcontent : content room inner innermost (.tagged name payload) = within room 1 x) :
    Gives given (content room inner innermost (.tagged name payload))
      ((Json.tagged name payload).depth ≤ room) w := by
  rw [hcontent]
  refine (hx.within room 1).congr ?_
  rw [Json.depth_tagged]
  omega

theorem gives_scalar {inner innermost : Json → Option Wire} {name : String} {payload : Json}
    {x : Option Wire} {w : Wire} (hx : given → x = some w)
    (hcontent : content room inner innermost (.tagged name payload) = within room 1 x)
    (hdepth : payload.depth = 0) :
    Gives given (content room inner innermost (.tagged name payload))
      ((Json.tagged name payload).depth ≤ room) w :=
  gives_tagged ((Gives.of_eq hx).congr (by simp [hdepth])) hcontent

/-- A list or set is read if there is room for it. -/
theorem gives_sequence {items : List Wire} (element : Tag) (f : Tag × List Wire → Wire)
    (h : ∀ u ∈ items, Gives given (nested room 3 u.toJson)
      (3 ≤ room ∧ u.toJson.depth ≤ room - 3) u.quiet) :
    Gives given
      (within room 2 ((sequenceOfJson? room (nested room 3)
        (.object [("element", .text element.name), ("items", .arr (itemsToJson items))])).map f))
      ((Json.object [("element", .text element.name),
        ("items", .arr (itemsToJson items))]).depth ≤ room - 1)
      (f (element, items.map quiet)) := by
  refine (((gives_sequenceOfJson? room element h).map f).within room 2).congr ?_
  rw [depth_items_le, ← and_assoc]
  refine and_congr (by omega) (forall₂_congr fun u _ => ?_)
  omega

/-- **A wire value is read from its tree**, if there is room for the tree. -/
theorem gives_ofJson? (w : Wire) : ∀ room,
    Gives w.KeepsDoubles (ofJson? room w.toJson) (w.toJson.depth ≤ room) w.quiet := by
  induction w using childInduction with
  | step w ih =>
    intro room
    have hnested : ∀ n, ∀ u ∈ w.children, Gives w.KeepsDoubles (nested room n u.toJson)
        (n ≤ room ∧ u.toJson.depth ≤ room - n) u.quiet :=
      fun n u hu => ((ih u hu (room - n)).weaken fun h => h.of_mem_children hu).within room n
    rw [ofJson?_eq]
    cases w with
    | bool b => exact gives_scalar (fun _ => rfl) rfl rfl
    | byte n => exact gives_scalar (fun _ => congrArg (Option.map byte) (Json.int8?_int n)) rfl rfl
    | i16 n => exact gives_scalar (fun _ => congrArg (Option.map i16) (Json.int16?_int n)) rfl rfl
    | i32 n => exact gives_scalar (fun _ => congrArg (Option.map i32) (Json.int32?_int n)) rfl rfl
    | i64 n => exact gives_scalar (fun _ => congrArg (Option.map i64) (Json.int64?_int n)) rfl rfl
    | double d =>
      refine gives_scalar (fun hkeeps => ?_) rfl (depth_toWireJson d)
      rw [quiet]
      exact congrArg (Option.map double) (Double.ofWireJson?_toWireJson (hkeeps d .refl))
    | string s => exact gives_scalar (fun _ => rfl) rfl rfl
    | binary bytes =>
      have hbytes : Gives (binary bytes).KeepsDoubles
          ((bytes.map fun b => Json.int b.toNat).mapM Json.uint8?) (∀ b ∈ bytes, True)
          (bytes.map id) :=
        .mapM fun b _ => .of_eq fun _ => Json.uint8?_int b
      rw [List.map_id] at hbytes
      have hdepth : ∀ b : UInt8, (Json.int b.toNat).depth = 0 := fun _ => rfl
      refine gives_tagged (((hbytes.map binary).within room 2).congr ?_) rfl
      simp only [Json.depth_arr_map_le, hdepth]
      exact ⟨fun h => ⟨by omega, fun _ _ => by omega⟩, fun h => ⟨by omega, fun _ _ => trivial⟩⟩
    | struct fields =>
      have hfields : Gives (struct fields).KeepsDoubles
          ((fields.map fieldToJson).mapM fun field =>
            within room 3 (fieldOfJson? (nested room 3) field)) _ _ :=
        .mapM fun x hx =>
          (gives_fieldOfJson? (hnested 3 x.2 (field_mem_children hx))).within room 3
      rw [← fieldsToJson_eq_map] at hfields
      rw [quiet, quietFields_eq_map]
      refine gives_tagged (((hfields.map struct).within room 2).congr ?_) rfl
      rw [depth_fields_le]
      refine and_congr (by omega) (forall₂_congr fun x _ => ?_)
      omega
    | map key value entries =>
      have hentries := gives_mapOfJson? room (p := fun u => 4 ≤ room ∧ u.toJson.depth ≤ room - 4)
        key value (fun x hx => hnested 4 x.1 (key_mem_children hx))
        (fun x hx => hnested 4 x.2 (value_mem_children hx))
      rw [quiet, quietEntries_eq_map]
      refine gives_tagged
        (((hentries.map fun x => map x.1 x.2.1 x.2.2).within room 2).congr ?_) rfl
      rw [depth_entries_le, ← and_assoc]
      refine and_congr (by omega) (forall₂_congr fun x _ => ?_)
      omega
    | set element items =>
      rw [quiet, quietItems_eq_map]
      exact gives_tagged (gives_sequence element (fun x => set x.1 x.2) (hnested 3)) rfl
    | list element items =>
      rw [quiet, quietItems_eq_map]
      exact gives_tagged (gives_sequence element (fun x => list x.1 x.2) (hnested 3)) rfl

/-- **A wire value is read from its payload**, if there is room for it. -/
theorem gives_ofBytes? (w : Wire) :
    Gives w.KeepsDoubles (ofBytes? (Text.utf8 w.toJson.compact))
      (w.toJson.depth ≤ maxDepth) w.quiet := by
  rw [ofBytes?, Json.ofBytes?_compact w.written_toJson]
  exact w.gives_ofJson? maxDepth

end Wire

/-! ## The protocol -/

namespace Protocol

open Wire (nestedLists)

/-- **JSON is exact where there is room.** A wire value whose text opens no more
brackets inside one another than are allowed is read from it, with one NaN for
all of them, provided its finite doubles are read as they were written. One whose
text opens more is refused, whatever is expected and whatever its doubles. -/
theorem decode_encode_json (w : Wire) :
    (w.toJson.depth ≤ Wire.maxDepth → w.KeepsDoubles →
        json.decode w.tag (json.encode w) = .ok w.quiet)
      ∧ (Wire.maxDepth < w.toJson.depth →
        ∀ expected, json.decode expected (json.encode w) = .error (.unreadable .json)) := by
  have hread : Wire.Gives w.KeepsDoubles (json.read? (json.encode w))
      (w.toJson.depth ≤ Wire.maxDepth) w.quiet := w.gives_ofBytes?
  refine ⟨fun hdepth hkeeps => ?_, fun hdepth expected => ?_⟩
  · unfold decode
    rw [hread.found hkeeps hdepth]
    exact if_pos w.tag_quiet
  · unfold decode
    rw [hread.refused (Nat.not_le.mpr hdepth)]

/-- A struct with a text that is full of escapes, and with a list of doubles: a
tenth, a NaN of its own and an infinity. -/
def measured (nan : Double) : Wire :=
  .struct [(-1, .string "\"\\\t\x01é\x7f"),
    (7, .list .double [.double ⟨0x3fb999999999999a⟩, .double nan, .double (.infinity true)])]

theorem quiet_measured : (measured ⟨0xfff0000000000001⟩).quiet = measured .nan := by
  have htenth : Double.quiet ⟨0x3fb999999999999a⟩ = ⟨0x3fb999999999999a⟩ := by decide
  have hnan : Double.quiet ⟨0xfff0000000000001⟩ = .nan := by decide
  have hinfinity : Double.quiet (.infinity true) = .infinity true := by decide
  simp only [measured, Wire.quiet, Wire.quietFields, Wire.quietItems, htenth, hnan, hinfinity]

theorem keepsDoubles_measured : (measured ⟨0xfff0000000000001⟩).KeepsDoubles := by
  refine Wire.keepsDoubles_of_children (fun d h => by cases h) fun u hu => ?_
  rcases List.mem_pair.mp hu with rfl | rfl
  · exact Wire.keepsDoubles_of_children (fun d h => by cases h) fun u hu => by cases hu
  · refine Wire.keepsDoubles_of_children (fun d h => by cases h) fun u hu => ?_
    have hdoubles : ∀ d ∈ [⟨0x3fb999999999999a⟩, ⟨0xfff0000000000001⟩, .infinity true],
        d.isFinite = true → (Json.Number.ofDouble d).double? = some d := by
      decide
    obtain ⟨d, hd, rfl⟩ : ∃ d ∈ [⟨0x3fb999999999999a⟩, ⟨0xfff0000000000001⟩, .infinity true],
        Wire.double d = u := List.mem_map.mp hu
    refine Wire.keepsDoubles_of_children (fun d' h => ?_) fun u hu => by cases hu
    cases h
    exact hdoubles d hd

theorem depth_nestedLists (n : Nat) : (nestedLists n).toJson.depth = 3 * (n + 1) := by
  induction n with
  | zero => rfl
  | succ n ih =>
    show 1 + max (1 + max 0 (max (1 + max (nestedLists n).toJson.depth 0) 0)) 0 = _
    rw [ih]
    omega

/-- The text and the doubles are read, and 43 lists inside one another are too
many. -/
theorem decode_encode_measured :
    ((measured ⟨0xfff0000000000001⟩).toJson.depth ≤ Wire.maxDepth
        ∧ (measured ⟨0xfff0000000000001⟩).KeepsDoubles
        ∧ json.decode .struct (json.encode (measured ⟨0xfff0000000000001⟩))
          = .ok (measured .nan))
      ∧ (Wire.maxDepth < (nestedLists 42).toJson.depth
        ∧ ∀ expected, json.decode expected (json.encode (nestedLists 42))
          = .error (.unreadable .json)) := by
  have hshallow : (measured ⟨0xfff0000000000001⟩).toJson.depth ≤ Wire.maxDepth := by decide
  have hdeep : Wire.maxDepth < (nestedLists 42).toJson.depth := by
    rw [depth_nestedLists]
    decide
  have hread := (decode_encode_json _).1 hshallow keepsDoubles_measured
  rw [quiet_measured] at hread
  exact ⟨⟨hshallow, keepsDoubles_measured, hread⟩, hdeep, (decode_encode_json _).2 hdeep⟩

end Protocol

end Interlink
