import Interlink.Proofs.MessagePack.Head
import Interlink.Proofs.Number.Width
import Interlink.Proofs.Wire.Basic
import Interlink.Protocol

/-!
# Wire values in MessagePack are read as they were written

The readers of wire values are followed through what was written for them, part
by part (`MessagePack.Reads`). What a reader has no room for it refuses, and
that is the only reason to refuse what was written: a wire value whose lengths
fit (`Wire.Fits`) is read exactly if it is not nested deeper than there is room
for (`Wire.reads_unpackIn`).

That reading is exact, and needs all of the bytes, is said by `Reads`. So no
shorter front of the bytes is a payload, and no other wire value has the same
bytes (`Protocol.decode_encode_msgpack`).
-/

namespace Interlink

namespace Wire

open MessagePack (Head Reader Reads many)
open MessagePack.Head (reads_read)
open Text (utf8 ofUtf8?)

/-! ## Lengths and nesting -/

/-- The length that the bytes of a wire value say at its start: that of a text
in bytes, and that of a container in what it holds. -/
def length : Wire → Nat
  | .string s => (utf8 s).length
  | .binary bytes => bytes.length
  | .struct fields => fields.length
  | .map _ _ entries => entries.length
  | .set _ items => items.length
  | .list _ items => items.length
  | _ => 0

/-- **The lengths in a wire value fit** in thirty-two bits. -/
def Fits (w : Wire) : Prop := ∀ u, w.HasPart u → u.length < 0x100000000

theorem Fits.length {w : Wire} (h : w.Fits) : w.length < 0x100000000 := h w .refl

theorem Fits.of_mem_children {w u : Wire} (h : w.Fits) (hu : u ∈ w.children) : u.Fits :=
  fun part hpart => h part (.head hu hpart)

/-- Lengths fit if those of the children do. -/
theorem fits_of_children {w : Wire} (hlength : w.length < 0x100000000)
    (hchildren : ∀ u ∈ w.children, u.Fits) : w.Fits :=
  forall_hasPart.mpr ⟨hlength, hchildren⟩

mutual

/-- **How deep a wire value is nested** in MessagePack: how many arrays and maps
stand inside one another, not counting the maps around wire values. -/
def nesting : Wire → Nat
  | .binary _ => 1
  | .struct fields => 1 + fieldsNesting fields
  | .map _ _ entries => 2 + entriesNesting entries
  | .set _ items => 2 + itemsNesting items
  | .list _ items => 2 + itemsNesting items
  | _ => 0

/-- How deep fields are nested, each of them a map. -/
def fieldsNesting : List (Int16 × Wire) → Nat
  | [] => 0
  | (_, value) :: fields => max (1 + nesting value) (fieldsNesting fields)

/-- How deep entries are nested, each of them an array. -/
def entriesNesting : List (Wire × Wire) → Nat
  | [] => 0
  | (key, value) :: entries =>
    max (max (1 + nesting key) (1 + nesting value)) (entriesNesting entries)

/-- How deep items are nested. -/
def itemsNesting : List Wire → Nat
  | [] => 0
  | item :: items => max (nesting item) (itemsNesting items)

end

theorem fieldsNesting_le {fields : List (Int16 × Wire)} {n : Nat} :
    fieldsNesting fields ≤ n ↔ ∀ x ∈ fields, 1 + x.2.nesting ≤ n := by
  induction fields with
  | nil => simp [fieldsNesting]
  | cons x fields ih => rw [fieldsNesting, Nat.max_le, ih, List.forall_mem_cons]

theorem entriesNesting_le {entries : List (Wire × Wire)} {n : Nat} :
    entriesNesting entries ≤ n ↔
      ∀ x ∈ entries, 1 + x.1.nesting ≤ n ∧ 1 + x.2.nesting ≤ n := by
  induction entries with
  | nil => simp [entriesNesting]
  | cons x entries ih =>
    rw [entriesNesting, Nat.max_le, Nat.max_le, ih, List.forall_mem_cons]

theorem itemsNesting_le {items : List Wire} {n : Nat} :
    itemsNesting items ≤ n ↔ ∀ w ∈ items, w.nesting ≤ n := by
  induction items with
  | nil => simp [itemsNesting]
  | cons w items ih => rw [itemsNesting, Nat.max_le, ih, List.forall_mem_cons]

/-- There is room for a struct if there is some for its array, and for what is
in its fields two brackets further in. -/
theorem nesting_struct_le {fields : List (Int16 × Wire)} {room : Nat} :
    (struct fields).nesting ≤ room ↔
      1 ≤ room ∧ ∀ x ∈ fields, 2 + x.2.nesting ≤ room := by
  have hroom : 1 + fieldsNesting fields ≤ room ↔
      1 ≤ room ∧ fieldsNesting fields ≤ room - 1 := by omega
  rw [nesting, hroom, fieldsNesting_le]
  refine and_congr_right fun _ => forall₂_congr fun x _ => ?_
  omega

/-- There is room for a map if there is some for its record and its array, and
for what is in its entries three brackets further in. -/
theorem nesting_map_le {key value : Tag} {entries : List (Wire × Wire)} {room : Nat} :
    (map key value entries).nesting ≤ room ↔
      2 ≤ room ∧ ∀ x ∈ entries, 3 + x.1.nesting ≤ room ∧ 3 + x.2.nesting ≤ room := by
  have hroom : 2 + entriesNesting entries ≤ room ↔
      2 ≤ room ∧ entriesNesting entries ≤ room - 2 := by omega
  rw [nesting, hroom, entriesNesting_le]
  refine and_congr_right fun _ => forall₂_congr fun x _ => ?_
  omega

/-- There is room for a list or set if there is some for its record and its
array, and for its items two brackets further in. -/
theorem sequence_nesting_le {items : List Wire} {room : Nat} :
    2 + itemsNesting items ≤ room ↔
      2 ≤ room ∧ ∀ w ∈ items, 2 + w.nesting ≤ room := by
  have hroom : 2 + itemsNesting items ≤ room ↔
      2 ≤ room ∧ itemsNesting items ≤ room - 2 := by omega
  rw [hroom, itemsNesting_le]
  refine and_congr_right fun _ => forall₂_congr fun x _ => ?_
  omega

/-! ## What is written part by part -/

theorem packItems_eq_flatMap (items : List Wire) : packItems items = items.flatMap pack := by
  induction items with
  | nil => rfl
  | cons w items ih => rw [packItems, ih, List.flatMap_cons]

theorem packEntries_eq_flatMap (entries : List (Wire × Wire)) :
    packEntries entries = entries.flatMap fun x =>
      (Head.array 2).write ++ (x.1.pack ++ x.2.pack) := by
  induction entries with
  | nil => rfl
  | cons x entries ih =>
    rw [packEntries, ih, List.flatMap_cons]
    simp only [List.append_assoc]

/-! ## Names, numbers and sequences -/

theorem place?_ofText (names : List String) (name : String) :
    place? names (Head.ofText name) = some (names.findIdx? fun other => other == name) := by
  show some (names.findIdx? fun other => utf8 other == utf8 name) = _
  have hsame : (fun other => utf8 other == utf8 name) = fun other => other == name := by
    funext other
    rw [Bool.eq_iff_iff, beq_iff_eq, beq_iff_eq]
    refine ⟨fun heq => ?_, fun heq => heq ▸ rfl⟩
    have htexts := congrArg ofUtf8? heq
    rwa [Text.ofUtf8?_utf8, Text.ofUtf8?_utf8, Option.some.injEq] at htexts
  rw [hsame]

theorem Tag.ofHead?_ofText (tag : Tag) : Tag.ofHead? (Head.ofText tag.name) = some tag := by
  unfold Tag.ofHead?
  rw [place?_ofText]
  cases tag <;> rfl

/-- The names that records and tags have are short. -/
theorem reads_name {name : String} (h : (utf8 name).length < 0x100000000) :
    Reads Head.read (packName name) True (Head.ofText name) :=
  reads_read (show (Head.ofText name).Fits from h)

theorem reads_readTag (tag : Tag) : Reads readTag (packName tag.name) True tag := by
  refine (reads_name (by cases tag <;> decide)).finish ?_
  show liftM (Tag.ofHead? (Head.ofText tag.name)) = _
  rw [Tag.ofHead?_ofText]
  rfl

theorem reads_readBool (b : Bool) : Reads readBool (Head.bool b).write True b :=
  (reads_read (show (Head.bool b).Fits from trivial)).finish rfl

theorem reads_readInt {n : Int} (hlow : -0x8000000000000000 ≤ n)
    (hhigh : n < 0x10000000000000000) : Reads readInt (packInt n) True n := by
  have hfits : (Head.int n).Fits := by
    unfold Head.int
    by_cases hsign : 0 ≤ n
    · rw [if_pos hsign]
      show n.toNat < 0x10000000000000000
      omega
    · rw [if_neg hsign]
      exact ⟨hlow, by omega⟩
  have hnumber : (Head.int n).int? = some n := by
    unfold Head.int
    by_cases hsign : 0 ≤ n
    · rw [if_pos hsign]
      exact congrArg some (Int.toNat_of_nonneg hsign)
    · rw [if_neg hsign]
      rfl
  refine (reads_read hfits).finish ?_
  rw [hnumber]
  rfl

theorem reads_width {α β : Type} {width? : Int → Option α} {f : α → β} {n : Int} {k : α}
    (hlow : -0x8000000000000000 ≤ n) (hhigh : n < 0x10000000000000000)
    (hk : width? n = some k) :
    Reads (do return f (← width? (← readInt)) : Reader β) (packInt n) True (f k) := by
  refine (reads_readInt hlow hhigh).finish ?_
  rw [hk]
  rfl

theorem reads_readDouble (d : Double) :
    Reads readDouble (Head.double d).write True d :=
  (reads_read (show (Head.double d).Fits from trivial)).finish rfl

theorem reads_readText {text : String} (h : (utf8 text).length < 0x100000000) :
    Reads readText (packName text) True text := by
  refine (reads_name h).finish ?_
  show (liftM (ofUtf8? (utf8 text)) : Reader String) = _
  rw [Text.ofUtf8?_utf8]
  rfl

theorem reads_readByte (byte : UInt8) :
    Reads readByte (packInt byte.toNat) True byte := by
  have hlt := byte.toNat_lt
  refine (reads_readInt (by omega) (by omega)).finish ?_
  rw [Width.uint8?_eq_some.mpr rfl]
  rfl

/-- **An array is read** if there is room for it and its items are read. -/
theorem reads_readArray {α : Type} {item : Reader α} {write : α → List UInt8}
    {provided : α → Prop} {items : List α} (room : Nat)
    (hlength : items.length < 0x100000000)
    (h : ∀ a ∈ items, Reads item (write a) (provided a) a) :
    Reads (readArray room item)
      ((Head.array items.length).write ++ items.flatMap write)
      (1 ≤ room ∧ ∀ a ∈ items, provided a) items :=
  (reads_read (show (Head.array items.length).Fits from hlength)).bind_of_true
    (.guarded fun _ => MessagePack.reads_many h)

theorem reads_readBinary (room : Nat) {bytes : List UInt8}
    (hlength : bytes.length < 0x100000000) :
    Reads (readBinary room)
      ((Head.array bytes.length).write ++ bytes.flatMap fun byte => packInt byte.toNat)
      (1 ≤ room) bytes := by
  have hbytes := MessagePack.reads_many fun byte (_ : byte ∈ bytes) => reads_readByte byte
  refine ((reads_read (show (Head.array bytes.length).Fits from hlength)).bind_of_true
    (.guarded fun _ => hbytes)).congr ?_
  simp

theorem reads_readEntry {item : Reader Wire} {key value : Wire} {p q : Prop}
    (room : Nat) (hkey : Reads item key.pack p key) (hvalue : Reads item value.pack q value) :
    Reads (readEntry room item) ((Head.array 2).write ++ (key.pack ++ value.pack))
      (1 ≤ room ∧ p ∧ q) (key, value) :=
  (reads_read (show (Head.array 2).Fits from (by decide : 2 < 0x100000000))).bind_of_true
    (.guarded fun _ => hkey.bind fun _ => hvalue.finish rfl)

/-! ## Records -/

/-- **A part of a record as it was written**: its name, its bytes, and what is
read from them, provided that something holds. -/
structure NamedPart where
  /-- The name. -/
  name : String
  /-- The bytes of the part. -/
  bytes : List UInt8
  /-- What must hold for the part to be read. -/
  provided : Prop
  /-- The part. -/
  part : Part

/-- The bytes of a record with named parts. -/
def packRecord (parts : List NamedPart) : List UInt8 :=
  (Head.map parts.length).write ++ parts.flatMap fun x => packName x.name ++ x.bytes

/-- **Parts that stand in the order of their names are read into their
places.** Those before are done. -/
theorem reads_readNamed (room : Nat) {part : Nat → Reader Part} {names : List String}
    (distinct : names.Nodup) (hshort : ∀ name ∈ names, (utf8 name).length < 0x100000000)
    (done todo : List NamedPart) (hnames : (done ++ todo).map NamedPart.name = names)
    (h : ∀ i x, (done ++ todo)[i]? = some x →
      Reads (part i) x.bytes x.provided x.part) :
    Reads (readNamed room names part todo.length
        (done.map (fun x => some x.part) ++ List.replicate todo.length none))
      (todo.flatMap fun x => packName x.name ++ x.bytes) (∀ x ∈ todo, x.provided)
      ((done ++ todo).map fun x => some x.part) := by
  induction todo generalizing done with
  | nil =>
    rw [List.append_nil, List.length_nil, List.replicate_zero, List.append_nil]
    exact (Reads.pure _).congr (by simp)
  | cons x todo ih =>
    have hnames' : names = done.map NamedPart.name ++ x.name :: todo.map NamedPart.name := by
      rw [← hnames, List.map_append, List.map_cons]
    have hplace : place? names (Head.ofText x.name) = some (some done.length) := by
      have hnew : (done.map NamedPart.name).findIdx? (fun other => other == x.name)
          = none := by
        rw [hnames', List.nodup_append] at distinct
        exact List.findIdx?_eq_none_iff.mpr fun other hother =>
          beq_false_of_ne (distinct.2.2 other hother x.name List.mem_cons_self)
      rw [place?_ofText, hnames', List.findIdx?_append, hnew, List.findIdx?_cons,
        beq_self_eq_true]
      simp
    have hfree : (done.map (fun x => some x.part)
        ++ List.replicate (todo.length + 1) none)[done.length]? = some none := by
      rw [List.getElem?_append_right (by simp), List.length_map, Nat.sub_self]
      rfl
    have hset : (done.map (fun x : NamedPart => some x.part)
          ++ List.replicate (todo.length + 1) none).set done.length (some x.part)
        = (done ++ [x]).map (fun x : NamedPart => some x.part)
          ++ List.replicate todo.length none := by
      rw [List.set_append_right _ _ (by simp), List.length_map, Nat.sub_self,
        List.map_append, List.append_assoc]
      rfl
    have hothers := ih (done ++ [x]) (by rwa [List.append_assoc])
      (by rwa [List.append_assoc])
    rw [List.append_assoc, List.singleton_append] at hothers
    have hname : x.name ∈ names := by
      rw [hnames']
      exact List.mem_append_right _ List.mem_cons_self
    rw [List.flatMap_cons, List.append_assoc, List.length_cons, readNamed]
    refine (reads_name (hshort x.name hname)).bind_of_true ?_
    rw [hplace, MessagePack.liftM_some_bind]
    dsimp only
    rw [hfree]
    refine ((h done.length x (by simp)).bind fun _ => ?_).congr List.forall_mem_cons.symm
    rw [hset]
    exact hothers

/-- **A record is read** if there is room for it and its parts are read. -/
theorem reads_readRecord (room : Nat) {part : Nat → Reader Part} (names : List String)
    (distinct : names.Nodup) (hshort : ∀ name ∈ names, (utf8 name).length < 0x100000000)
    (hlength : names.length < 0x100000000) (parts : List NamedPart)
    (hnames : parts.map NamedPart.name = names)
    (h : ∀ i x, parts[i]? = some x → Reads (part i) x.bytes x.provided x.part) :
    Reads (readRecord room names part) (packRecord parts)
      (1 ≤ room ∧ ∀ x ∈ parts, x.provided) (parts.map NamedPart.part) := by
  have hsame : names.length = parts.length := by rw [← hnames, List.length_map]
  have hhead := reads_read (show (Head.map parts.length).Fits from hsame ▸ hlength)
  cases room with
  | zero => exact (hhead.bind_of_true (.failure _ _)).congr (by simp)
  | succ room =>
    have hall : (parts.map fun x => some x.part).mapM id
        = some (parts.map NamedPart.part) := by
      rw [List.mapM_map]
      exact List.mapM_pure
    have hnamed := reads_readNamed room distinct hshort [] parts hnames h
    have hread : Reads (readRecord (room + 1) names part) (packRecord parts)
        (∀ x ∈ parts, x.provided) (parts.map NamedPart.part) := by
      refine hhead.bind_of_true ?_
      dsimp only
      rw [hsame]
      refine hnamed.finish ?_
      rw [List.nil_append, hall]
      rfl
    exact hread.congr (by simp)

/-- The parts of a field of a struct. -/
def fieldParts (id : Int16) (w : Wire) (p : Prop) : List NamedPart :=
  [⟨"id", packInt id.toInt, True, .id id⟩, ⟨"value", w.pack, p, .value w⟩]

/-- The parts of a list or set, of whose items something is asked. -/
def sequenceParts (room : Nat) (provided : Wire → Prop) (element : Tag)
    (items : List Wire) : List NamedPart :=
  [⟨"element", packName element.name, True, .tag element⟩,
    ⟨"items", (Head.array items.length).write ++ items.flatMap pack,
      1 ≤ room - 1 ∧ ∀ w ∈ items, provided w, .items items⟩]

/-- The parts of a map, of whose keys and values something is asked. -/
def mapParts (room : Nat) (provided : Wire → Prop) (key value : Tag)
    (entries : List (Wire × Wire)) : List NamedPart :=
  [⟨"key", packName key.name, True, .tag key⟩,
    ⟨"value", packName value.name, True, .tag value⟩,
    ⟨"entries", (Head.array entries.length).write ++ entries.flatMap fun x =>
        (Head.array 2).write ++ (x.1.pack ++ x.2.pack),
      1 ≤ room - 1 ∧ ∀ x ∈ entries, 1 ≤ room - 2 ∧ provided x.1 ∧ provided x.2,
      .entries entries⟩]

theorem reads_readField (room : Nat) {inner : Reader Wire} {w : Wire} {p : Prop}
    (id : Int16) (hw : Reads inner w.pack p w) :
    Reads (readField room inner) (packRecord (fieldParts id w p)) (1 ≤ room ∧ p)
      (id, w) := by
  have hlow := id.le_toInt
  have hhigh := id.toInt_lt
  unfold readField
  refine Reads.congr (Reads.finish (reads_readRecord room ["id", "value"] (by decide)
    (by decide) (by decide) _ rfl fun i x hx => ?_) rfl) (by simp [fieldParts])
  rcases i with _ | _ | i
  · cases hx
    exact reads_width (by omega) (by omega) (Width.int16?_eq_some.mpr rfl)
  · cases hx
    exact hw.map
  · cases hx

theorem reads_readSequence (room : Nat) {inner : Reader Wire} (provided : Wire → Prop)
    (element : Tag) {items : List Wire} (hlength : items.length < 0x100000000)
    (h : ∀ w ∈ items, Reads inner w.pack (provided w) w) :
    Reads (readSequence room inner)
      (packRecord (sequenceParts room provided element items))
      (2 ≤ room ∧ ∀ w ∈ items, provided w) (element, items) := by
  unfold readSequence
  refine Reads.congr (Reads.finish (reads_readRecord room ["element", "items"] (by decide)
    (by decide) (by decide) _ rfl fun i x hx => ?_) rfl) ?_
  · rcases i with _ | _ | i
    · cases hx
      exact (reads_readTag element).map
    · cases hx
      exact (reads_readArray (room - 1) hlength h).map
    · cases hx
  · rw [sequenceParts, List.forall_mem_cons, List.forall_mem_singleton]
    constructor
    · rintro ⟨-, -, hroom, hall⟩
      exact ⟨by omega, hall⟩
    · rintro ⟨hroom, hall⟩
      exact ⟨by omega, trivial, by omega, hall⟩

theorem reads_readMap (room : Nat) {innermost : Reader Wire} (provided : Wire → Prop)
    (key value : Tag) {entries : List (Wire × Wire)}
    (hlength : entries.length < 0x100000000)
    (h : ∀ x ∈ entries, Reads innermost x.1.pack (provided x.1) x.1
      ∧ Reads innermost x.2.pack (provided x.2) x.2) :
    Reads (readMap room innermost)
      (packRecord (mapParts room provided key value entries))
      (2 ≤ room ∧ ∀ x ∈ entries, 3 ≤ room ∧ provided x.1 ∧ provided x.2)
      (key, value, entries) := by
  unfold readMap
  refine Reads.congr (Reads.finish (reads_readRecord room ["key", "value", "entries"]
    (by decide) (by decide) (by decide) _ rfl fun i x hx => ?_) rfl) ?_
  · rcases i with _ | _ | _ | i
    · cases hx
      exact (reads_readTag key).map
    · cases hx
      exact (reads_readTag value).map
    · cases hx
      exact (reads_readArray (room - 1) hlength fun x hx =>
        reads_readEntry (room - 2) (h x hx).1 (h x hx).2).map
    · cases hx
  · rw [mapParts, List.forall_mem_cons, List.forall_mem_cons, List.forall_mem_singleton]
    constructor
    · rintro ⟨-, -, -, hroom, hall⟩
      refine ⟨by omega, fun x hx => ?_⟩
      exact ⟨by have := (hall x hx).1; omega, (hall x hx).2⟩
    · rintro ⟨hroom, hall⟩
      refine ⟨by omega, trivial, trivial, by omega, fun x hx => ?_⟩
      exact ⟨by have := (hall x hx).1; omega, (hall x hx).2⟩

theorem packFields_eq_flatMap (fields : List (Int16 × Wire)) (provided : Wire → Prop) :
    packFields fields =
      fields.flatMap fun x => packRecord (fieldParts x.1 x.2 (provided x.2)) := by
  induction fields with
  | nil => rfl
  | cons x fields ih =>
    rw [packFields, ih, List.flatMap_cons]
    simp [packRecord, fieldParts]

theorem packRecord_sequenceParts (room : Nat) (provided : Wire → Prop) (element : Tag)
    (items : List Wire) :
    packRecord (sequenceParts room provided element items) =
      (Head.map 2).write ++ packName "element" ++ packName element.name
        ++ packName "items" ++ (Head.array items.length).write ++ packItems items := by
  rw [packItems_eq_flatMap]
  simp [packRecord, sequenceParts]

theorem packRecord_mapParts (room : Nat) (provided : Wire → Prop) (key value : Tag)
    (entries : List (Wire × Wire)) :
    packRecord (mapParts room provided key value entries) =
      (Head.map 3).write ++ packName "key" ++ packName key.name
        ++ packName "value" ++ packName value.name
        ++ packName "entries" ++ (Head.array entries.length).write
        ++ packEntries entries := by
  rw [packEntries_eq_flatMap]
  simp [packRecord, mapParts]

/-! ## Wire values -/

/-- The rest of a wire value, by its tag. -/
def unpackTagged (room : Nat) (inner innermost : Reader Wire) : Tag → Reader Wire
  | .bool => return .bool (← readBool)
  | .byte => return .byte (← Width.int8? (← readInt))
  | .i16 => return .i16 (← Width.int16? (← readInt))
  | .i32 => return .i32 (← Width.int32? (← readInt))
  | .i64 => return .i64 (← Width.int64? (← readInt))
  | .double => return .double (← readDouble)
  | .string => return .string (← readText)
  | .binary => return .binary (← readBinary room)
  | .struct => return .struct (← readArray room (readField (room - 1) inner))
  | .map => do
    let (key, value, entries) ← readMap room innermost
    return .map key value entries
  | .set => do
    let (element, items) ← readSequence room inner
    return .set element items
  | .list => do
    let (element, items) ← readSequence room inner
    return .list element items

/-- A wire value is read behind its tag. -/
theorem reads_unpackLevel {room : Nat} {inner innermost : Reader Wire} (tag : Tag)
    {payload : List UInt8} {p : Prop} {w : Wire}
    (h : Reads (unpackTagged room inner innermost tag) payload p w) :
    Reads (unpackLevel room inner innermost) (packTagged tag payload) p w := by
  unfold packTagged
  rw [List.append_assoc]
  refine (reads_read (show (Head.map 1).Fits from (by decide : 1 < 0x100000000))).bind_of_true
    ((reads_name (by cases tag <;> decide)).bind_of_true ?_)
  rw [Tag.ofHead?_ofText, MessagePack.liftM_some_bind]
  cases tag <;> exact h

/-- What is nested is read in the room that is left. -/
theorem unpackIn_eq (room : Nat) :
    unpackIn room = unpackLevel room
      (if 2 ≤ room then unpackIn (room - 2) else failure)
      (if 3 ≤ room then unpackIn (room - 3) else failure) := by
  rcases room with _ | _ | _ | room
  · rfl
  · rfl
  · rfl
  · rw [unpackIn, if_pos (by omega), if_pos (by omega)]
    rfl

/-- **A wire value whose lengths fit is read exactly if there is room for it.** -/
theorem reads_unpackIn {w : Wire} (hfits : w.Fits) (room : Nat) :
    Reads (unpackIn room) w.pack (w.nesting ≤ room) w := by
  induction w using Wire.childInduction generalizing room with
  | step w ih =>
    have hlength := hfits.length
    -- a child stands two brackets further in, or three
    have hinner : ∀ u ∈ w.children, Reads (if 2 ≤ room then unpackIn (room - 2) else failure)
        u.pack (2 + u.nesting ≤ room) u := fun u hu =>
      (Reads.guarded fun _ => ih u hu (hfits.of_mem_children hu) (room - 2)).congr
        (by omega)
    have hinnermost : ∀ u ∈ w.children,
        Reads (if 3 ≤ room then unpackIn (room - 3) else failure)
          u.pack (3 + u.nesting ≤ room) u := fun u hu =>
      (Reads.guarded fun _ => ih u hu (hfits.of_mem_children hu) (room - 3)).congr
        (by omega)
    rw [unpackIn_eq]
    generalize (if 2 ≤ room then unpackIn (room - 2) else failure) = inner at hinner ⊢
    generalize (if 3 ≤ room then unpackIn (room - 3) else failure) = innermost at hinnermost ⊢
    cases w with
    | bool b =>
      exact (reads_unpackLevel .bool (reads_readBool b).map).congr (by simp [nesting])
    | byte n =>
      have hlow := n.le_toInt
      have hhigh := n.toInt_lt
      exact (reads_unpackLevel .byte (reads_width (by omega) (by omega)
        (Width.int8?_eq_some.mpr rfl))).congr (by simp [nesting])
    | i16 n =>
      have hlow := n.le_toInt
      have hhigh := n.toInt_lt
      exact (reads_unpackLevel .i16 (reads_width (by omega) (by omega)
        (Width.int16?_eq_some.mpr rfl))).congr (by simp [nesting])
    | i32 n =>
      have hlow := n.le_toInt
      have hhigh := n.toInt_lt
      exact (reads_unpackLevel .i32 (reads_width (by omega) (by omega)
        (Width.int32?_eq_some.mpr rfl))).congr (by simp [nesting])
    | i64 n =>
      have hlow := n.le_toInt
      have hhigh := n.toInt_lt
      exact (reads_unpackLevel .i64 (reads_width (by omega) (by omega)
        (Width.int64?_eq_some.mpr rfl))).congr (by simp [nesting])
    | double d =>
      exact (reads_unpackLevel .double (reads_readDouble d).map).congr (by simp [nesting])
    | string s =>
      exact (reads_unpackLevel .string (reads_readText hlength).map).congr
        (by simp [nesting])
    | binary bytes =>
      exact (reads_unpackLevel .binary (reads_readBinary room hlength).map).congr
        (by rw [nesting])
    | struct fields =>
      have hfields := reads_readArray room hlength fun x hx =>
        reads_readField (room - 1) x.1 (hinner x.2 (field_mem_children hx))
      rw [pack, packFields_eq_flatMap fields fun u => 2 + u.nesting ≤ room]
      refine (reads_unpackLevel .struct hfields.map).congr ?_
      rw [nesting_struct_le]
      refine and_congr_right fun _ => forall₂_congr fun x _ => ?_
      omega
    | map key value entries =>
      have hmap := reads_readMap room (fun u => 3 + u.nesting ≤ room) key value hlength
        fun x hx =>
          ⟨hinnermost x.1 (key_mem_children hx), hinnermost x.2 (value_mem_children hx)⟩
      rw [pack, ← packRecord_mapParts room fun u => 3 + u.nesting ≤ room]
      refine (reads_unpackLevel .map (hmap.finish rfl)).congr ?_
      rw [nesting_map_le]
      refine and_congr_right fun _ => forall₂_congr fun x _ => ?_
      omega
    | set element items =>
      have hitems := reads_readSequence room (fun u => 2 + u.nesting ≤ room) element
        hlength hinner
      rw [pack, ← packRecord_sequenceParts room fun u => 2 + u.nesting ≤ room]
      refine (reads_unpackLevel .set (hitems.finish rfl)).congr ?_
      rw [nesting, sequence_nesting_le]
    | list element items =>
      have hitems := reads_readSequence room (fun u => 2 + u.nesting ≤ room) element
        hlength hinner
      rw [pack, ← packRecord_sequenceParts room fun u => 2 + u.nesting ≤ room]
      refine (reads_unpackLevel .list (hitems.finish rfl)).congr ?_
      rw [nesting, sequence_nesting_le]

end Wire

/-! ## The protocol -/

namespace Protocol

open Wire (packDepth nestedLists)

/-- A payload that holds no wire value is refused. -/
theorem decode_of_unpack_eq_none {bytes : List UInt8} (h : Wire.unpack bytes = none)
    (expected : Wire.Tag) :
    msgpack.decode expected bytes = .error (.unreadable .msgpack) := by
  have hnone : msgpack.read? bytes = none := by
    show (Wire.unpack bytes).map Prod.fst = none
    rw [h]
    rfl
  unfold decode
  rw [hnone]

/-- **MessagePack is exact.** A wire value whose lengths fit is read from its
bytes, which say themselves where they end, unless it is nested too deep, and
then nothing is read. Nothing is read from fewer bytes, and no other wire value
has the same bytes. -/
theorem decode_encode_msgpack {w : Wire} (hfits : w.Fits) :
    (w.nesting ≤ packDepth →
        ∀ rest, Wire.unpack (msgpack.encode w ++ rest) = some (w, rest)
          ∧ msgpack.decode w.tag (msgpack.encode w ++ rest) = .ok w)
      ∧ (packDepth < w.nesting → ∀ rest expected,
        msgpack.decode expected (msgpack.encode w ++ rest)
          = .error (.unreadable .msgpack))
      ∧ (∀ front, front <+: msgpack.encode w → front ≠ msgpack.encode w →
        ∀ expected, msgpack.decode expected front = .error (.unreadable .msgpack))
      ∧ ∀ w' : Wire, w'.Fits → msgpack.encode w' = msgpack.encode w → w' = w := by
  have hread := Wire.reads_unpackIn hfits packDepth
  refine ⟨fun hdepth rest => ?_, fun hdepth rest => ?_, fun front hfront hne => ?_,
    fun w' hfits' heq => ?_⟩
  · have hwhole : Wire.unpack (msgpack.encode w ++ rest) = some (w, rest) :=
      hread.whole hdepth rest
    have hsome : msgpack.read? (msgpack.encode w ++ rest) = some w := by
      show (Wire.unpack (msgpack.encode w ++ rest)).map Prod.fst = some w
      rw [hwhole]
      rfl
    refine ⟨hwhole, ?_⟩
    unfold decode
    rw [hsome]
    exact if_pos rfl
  · exact decode_of_unpack_eq_none (hread.refused (Nat.not_le.mpr hdepth) rest)
  · exact decode_of_unpack_eq_none (hread.cut front hfront hne)
  · -- both are read from the same bytes where there is room for either
    have hw := (Wire.reads_unpackIn hfits (max w.nesting w'.nesting)).whole
      (Nat.le_max_left _ _) []
    have hw' := (Wire.reads_unpackIn hfits' (max w.nesting w'.nesting)).whole
      (Nat.le_max_right _ _) []
    rw [show w'.pack = w.pack from heq, hw] at hw'
    cases hw'
    rfl

theorem fits_nestedLists (n : Nat) : (nestedLists n).Fits := by
  induction n with
  | zero =>
    exact Wire.fits_of_children (by decide) fun u hu => absurd hu List.not_mem_nil
  | succ n ih =>
    refine Wire.fits_of_children (show 1 < 0x100000000 by decide) fun u hu => ?_
    rw [List.mem_singleton.mp hu]
    exact ih

theorem nesting_nestedLists (n : Nat) : (nestedLists n).nesting = 2 * (n + 1) := by
  induction n with
  | zero => rfl
  | succ n ih =>
    rw [nestedLists, Wire.nesting, Wire.itemsNesting, Wire.itemsNesting, ih]
    omega

/-- Of lists inside one another 511 are read, whatever follows them, and 512 are
too many. -/
theorem decode_encode_nestedLists :
    ((nestedLists 510).Fits ∧ (nestedLists 511).Fits)
      ∧ (∀ rest, msgpack.decode .list (msgpack.encode (nestedLists 510) ++ rest)
        = .ok (nestedLists 510))
      ∧ ∀ rest expected, msgpack.decode expected (msgpack.encode (nestedLists 511) ++ rest)
        = .error (.unreadable .msgpack) := by
  refine ⟨⟨fits_nestedLists 510, fits_nestedLists 511⟩, fun rest => ?_, ?_⟩
  · refine ((decode_encode_msgpack (fits_nestedLists 510)).1 ?_ rest).2
    rw [nesting_nestedLists]
    decide
  · refine (decode_encode_msgpack (fits_nestedLists 511)).2.1 ?_
    rw [nesting_nestedLists]
    decide

end Protocol

end Interlink
