import Interlink.Proofs.Exchange.Tagged

/-!
# What receiving does not notice

A struct is received field by field, in the order of declaration: for each declared
field the first one with its id counts, and nothing else is looked at. And no tag
that a container announces is looked at. So there are changes of a wire value that
receiving it at a type does not notice, neither in what it gives nor in how it fails:

* a field that the struct does not declare is put in, with whatever is in it,
* the fields of a struct are put into another order, except that those with one id
  keep theirs,
* a field is put in behind another one with the same id,
* a container announces other tags.

Any of these may happen inside of other wire values. Which fields are declared then
depends on the type at which the inner one is received; one that is not received at
all may change in any way. `Scope.Overlooks` lists the changes, and
`Wire.toValue_of_overlooks` goes through them one by one: what is received under the ids
of declared fields (`Wire.toValue_struct_congr`) and item by item
(`Wire.toValue_list_congr` and its like) is what it was.
-/

namespace Interlink

/-! ## Changes -/

namespace Scope

/-- **A type is one of structs that declare a field.** -/
def Declares (s : Scope) (ty : Ty) (f : Entity.Field) : Prop :=
  ∃ id e kind declared, s.shape ty = .ok (.entity id e)
    ∧ e.body = .struct kind declared ∧ f ∈ declared

/-- **A change that receiving at a type does not notice.** A change further inside is
asked to be one at the type at which that part is received, if it is received: an
item of a container if the type is one of such containers, and a field of a struct if
the struct declares it and it is the first one with its id. -/
inductive Overlooks (s : Scope) : Ty → Wire → Wire → Prop
  | insert {ty : Ty} {before after : List (Int16 × Wire)} (x : Int16 × Wire)
      (unknown : ∀ f, s.Declares ty f → f.id ≠ x.1) :
      Overlooks s ty (.struct (before ++ after)) (.struct (before ++ x :: after))
  | reorder {ty : Ty} {fields fields' : List (Int16 × Wire)}
      (order : ∀ id, fields.filter (fun x => x.1 == id) = fields'.filter fun x => x.1 == id) :
      Overlooks s ty (.struct fields) (.struct fields')
  | again {ty : Ty} {before after : List (Int16 × Wire)} (x : Int16 × Wire)
      (earlier : x.1 ∈ before.map Prod.fst) :
      Overlooks s ty (.struct (before ++ after)) (.struct (before ++ x :: after))
  | announceList {ty : Ty} {items : List Wire} (tag tag' : Wire.Tag) :
      Overlooks s ty (.list tag items) (.list tag' items)
  | announceSet {ty : Ty} {items : List Wire} (tag tag' : Wire.Tag) :
      Overlooks s ty (.set tag items) (.set tag' items)
  | announceMap {ty : Ty} {entries : List (Wire × Wire)} (key key' value value' : Wire.Tag) :
      Overlooks s ty (.map key value entries) (.map key' value' entries)
  | field {ty : Ty} {before after : List (Int16 × Wire)} {id : Int16} {u u' : Wire}
      (inside : ∀ f, s.Declares ty f → f.id = id → id ∉ before.map Prod.fst →
        Overlooks s f.type u u') :
      Overlooks s ty (.struct (before ++ (id, u) :: after)) (.struct (before ++ (id, u') :: after))
  | listItem {ty : Ty} {tag : Wire.Tag} {before after : List Wire} {u u' : Wire}
      (inside : ∀ element, s.shape ty = .ok (.list element) → Overlooks s element u u') :
      Overlooks s ty (.list tag (before ++ u :: after)) (.list tag (before ++ u' :: after))
  | setItem {ty : Ty} {tag : Wire.Tag} {before after : List Wire} {u u' : Wire}
      (inside : ∀ element, s.shape ty = .ok (.set element) → Overlooks s element u u') :
      Overlooks s ty (.set tag (before ++ u :: after)) (.set tag (before ++ u' :: after))
  | mapKey {ty : Ty} {keyTag valueTag : Wire.Tag} {before after : List (Wire × Wire)}
      {u u' w : Wire}
      (inside : ∀ key value, s.shape ty = .ok (.map key value) → Overlooks s key u u') :
      Overlooks s ty (.map keyTag valueTag (before ++ (u, w) :: after))
        (.map keyTag valueTag (before ++ (u', w) :: after))
  | mapValue {ty : Ty} {keyTag valueTag : Wire.Tag} {before after : List (Wire × Wire)}
      {w u u' : Wire}
      (inside : ∀ key value, s.shape ty = .ok (.map key value) → Overlooks s value u u') :
      Overlooks s ty (.map keyTag valueTag (before ++ (w, u) :: after))
        (.map keyTag valueTag (before ++ (w, u') :: after))

end Scope

/-! ## Lists and tables -/

/-- **A step for each element** of a list depends on what the step gives for them. -/
theorem mapM_eq_of_map_eq {ε α β : Type} {f : α → Except ε β} {xs ys : List α}
    (h : xs.map f = ys.map f) : xs.mapM f = ys.mapM f := by
  have hmap : ∀ zs : List α, zs.mapM f = (zs.map f).mapM id := by
    intro zs
    rw [List.mapM_map]
    rfl
  rw [hmap, hmap, h]

/-- An element may be replaced by another one that counts for the same. -/
theorem map_replace {α β : Type} {f : α → β} {x y : α} (h : f x = f y)
    (before after : List α) :
    (before ++ x :: after).map f = (before ++ y :: after).map f := by
  rw [List.map_append, List.map_append, List.map_cons, List.map_cons, h]

section Tables

variable {κ β : Type} [BEq κ] [LawfulBEq κ] {before after : List (κ × β)} {k : κ}

/-- What is found under a key is found among the entries with that key. -/
theorem lookup_filter (table : List (κ × β)) (k : κ) :
    (table.filter fun x => x.1 == k).lookup k = table.lookup k := by
  induction table with
  | nil => rfl
  | cons x table ih =>
    by_cases hx : x.1 = k
    · rw [List.filter_cons_of_pos (by simpa using hx), List.lookup_cons, List.lookup_cons, hx,
        beq_self_eq_true]
    · rw [List.filter_cons_of_neg (by simpa using hx), List.lookup_cons, ih,
        beq_false_of_ne (Ne.symm hx)]

/-- An entry under another key is not found. -/
theorem lookup_insert_of_ne {x : κ × β} (h : k ≠ x.1) :
    (before ++ x :: after).lookup k = (before ++ after).lookup k := by
  rw [List.lookup_append, List.lookup_append, List.lookup_cons, beq_false_of_ne h]

/-- An entry behind one with its key is not found either. -/
theorem lookup_insert_of_mem {x : κ × β} (h : x.1 ∈ before.map Prod.fst) :
    (before ++ x :: after).lookup k = (before ++ after).lookup k := by
  by_cases hk : k = x.1
  · obtain ⟨b, hb⟩ := Option.isSome_iff_exists.mp (lookup_isSome_iff_mem.mpr h)
    rw [List.lookup_append, List.lookup_append, hk, hb]
    rfl
  · exact lookup_insert_of_ne hk

/-- An entry may be replaced by another one that counts for the same, if it is
found. -/
theorem lookup_replace_map {γ : Type} {g : β → γ} {b b' : β} {j : κ}
    (h : k = j → j ∉ before.map Prod.fst → g b = g b') :
    ((before ++ (j, b) :: after).lookup k).map g
      = ((before ++ (j, b') :: after).lookup k).map g := by
  by_cases hk : k = j
  · by_cases hearlier : j ∈ before.map Prod.fst
    · rw [lookup_insert_of_mem hearlier, lookup_insert_of_mem hearlier]
    · have hnone : before.lookup k = none := by
        rw [← Option.not_isSome_iff_eq_none, lookup_isSome_iff_mem, hk]
        exact hearlier
      rw [List.lookup_append, List.lookup_append, hnone, List.lookup_cons, List.lookup_cons, hk,
        beq_self_eq_true]
      exact congrArg some (h hk hearlier)
  · rw [lookup_insert_of_ne hk, lookup_insert_of_ne hk]

end Tables

/-! ## What receiving depends on -/

namespace Wire

variable {s : Scope} {ty : Ty}

theorem itemsToValue_eq_mapM (element : Ty) (items : List Wire) :
    itemsToValue s element items = items.mapM fun w => w.toValue s element := by
  induction items with
  | nil => rfl
  | cons w items ih => rw [itemsToValue, ih, List.mapM_cons]

/-- An entry of a map is received key first. -/
def entryToValue (s : Scope) (key value : Ty) (x : Wire × Wire) :
    Except ValueError (Value × Value) := do
  let k ← x.1.toValue s key
  let v ← x.2.toValue s value
  return (k, v)

theorem entriesToValue_eq_mapM (key value : Ty) (entries : List (Wire × Wire)) :
    entriesToValue s key value entries = entries.mapM (entryToValue s key value) := by
  induction entries with
  | nil => rfl
  | cons x entries ih =>
    rw [entriesToValue, ih, List.mapM_cons, entryToValue]
    cases x.1.toValue s key with
    | error e => rfl
    | ok k => cases x.2.toValue s value <;> rfl

/-- **A list is received by its items**, if the type is one of lists, and otherwise it
is refused for being a list. -/
theorem toValue_list_congr {tag tag' : Tag} {items items' : List Wire}
    (h : ∀ element, s.shape ty = .ok (.list element) →
      items.map (fun w => w.toValue s element) = items'.map fun w => w.toValue s element) :
    (list tag items).toValue s ty = (list tag' items').toValue s ty := by
  rw [toValue, toValue]
  cases hshape : s.shape ty with
  | error e => rfl
  | ok shape =>
    cases shape with
    | primitive p => cases p <;> rfl
    | list element =>
      dsimp only
      rw [itemsToValue_eq_mapM, itemsToValue_eq_mapM, mapM_eq_of_map_eq (h element hshape)]
    | entity id e =>
      dsimp only
      cases e.body <;> rfl
    | _ => rfl

theorem toValue_set_congr {tag tag' : Tag} {items items' : List Wire}
    (h : ∀ element, s.shape ty = .ok (.set element) →
      items.map (fun w => w.toValue s element) = items'.map fun w => w.toValue s element) :
    (set tag items).toValue s ty = (set tag' items').toValue s ty := by
  rw [toValue, toValue]
  cases hshape : s.shape ty with
  | error e => rfl
  | ok shape =>
    cases shape with
    | primitive p => cases p <;> rfl
    | set element =>
      dsimp only
      rw [itemsToValue_eq_mapM, itemsToValue_eq_mapM, mapM_eq_of_map_eq (h element hshape)]
    | entity id e =>
      dsimp only
      cases e.body <;> rfl
    | _ => rfl

theorem toValue_map_congr {key key' value value' : Tag} {entries entries' : List (Wire × Wire)}
    (h : ∀ k v, s.shape ty = .ok (.map k v) →
      entries.map (entryToValue s k v) = entries'.map (entryToValue s k v)) :
    (map key value entries).toValue s ty = (map key' value' entries').toValue s ty := by
  rw [toValue, toValue]
  cases hshape : s.shape ty with
  | error e => rfl
  | ok shape =>
    cases shape with
    | primitive p => cases p <;> rfl
    | map k v =>
      dsimp only
      rw [entriesToValue_eq_mapM, entriesToValue_eq_mapM, mapM_eq_of_map_eq (h k v hshape)]
    | entity id e =>
      dsimp only
      cases e.body <;> rfl
    | _ => rfl

/-- **The fields of a struct are received by what is under their ids**, raised to their
types. -/
theorem fieldsToValue_congr {typeName : String}
    {received received' : List (Int16 × (Ty → Except ValueError Value))}
    {declared : List Entity.Field}
    (h : ∀ f ∈ declared, (received.lookup f.id).map (fun raise => raise f.type)
      = (received'.lookup f.id).map fun raise => raise f.type)
    (done : List (String × Value)) :
    fieldsToValue typeName received done declared
      = fieldsToValue typeName received' done declared := by
  induction declared generalizing done with
  | nil => rfl
  | cons f declared ih =>
    obtain ⟨hf, hdeclared⟩ := List.forall_mem_cons.mp h
    have ih := ih hdeclared
    rw [fieldsToValue, fieldsToValue]
    cases hraise : received.lookup f.id with
    | some raise =>
      rw [hraise] at hf
      obtain ⟨raise', hraise', heq⟩ := Option.map_eq_some_iff.mp hf.symm
      rw [hraise']
      dsimp only at heq ⊢
      rw [heq]
      cases raise f.type with
      | error e => rfl
      | ok v => exact ih _
    | none =>
      rw [hraise] at hf
      rw [Option.map_eq_none_iff.mp hf.symm]
      dsimp only
      cases f.defaultValue with
      | some v => exact ih _
      | none =>
        cases f.isRequired with
        | true => rfl
        | false => exact ih _

/-- **A struct is received by what is under the ids of declared fields**, if the type is
one of structs, and otherwise it is refused for being a struct. -/
theorem toValue_struct_congr {fields fields' : List (Int16 × Wire)}
    (h : ∀ f, s.Declares ty f → (fields.lookup f.id).map (fun w => w.toValue s f.type)
      = (fields'.lookup f.id).map fun w => w.toValue s f.type) :
    (struct fields).toValue s ty = (struct fields').toValue s ty := by
  rw [toValue, toValue]
  cases hshape : s.shape ty with
  | error e => rfl
  | ok shape =>
    cases shape with
    | primitive p => cases p <;> rfl
    | entity id e =>
      dsimp only
      cases hbody : e.body with
      | struct kind declared =>
        have hfields : ∀ done, fieldsToValue e.name (raisings s fields) done declared
            = fieldsToValue e.name (raisings s fields') done declared := by
          refine fieldsToValue_congr fun f hf => ?_
          rw [raisings_eq_map, raisings_eq_map, lookup_map_snd, lookup_map_snd, Option.map_map,
            Option.map_map]
          exact h f ⟨id, e, kind, declared, hshape, hbody, hf⟩
        dsimp only
        unfold structToValue
        rw [hfields]
      | _ => rfl
    | _ => rfl

/-- **A change that is overlooked** changes neither what is received nor how receiving
fails. -/
theorem toValue_of_overlooks {w w' : Wire} (h : s.Overlooks ty w w') :
    w'.toValue s ty = w.toValue s ty := by
  induction h with
  | insert x unknown =>
    refine toValue_struct_congr fun f hf => ?_
    rw [lookup_insert_of_ne (unknown f hf)]
  | reorder order =>
    refine toValue_struct_congr fun f hf => ?_
    rw [← lookup_filter, ← order, lookup_filter]
  | again x earlier =>
    refine toValue_struct_congr fun f hf => ?_
    rw [lookup_insert_of_mem earlier]
  | announceList tag tag' => exact toValue_list_congr fun _ _ => rfl
  | announceSet tag tag' => exact toValue_set_congr fun _ _ => rfl
  | announceMap key key' value value' => exact toValue_map_congr fun _ _ _ => rfl
  | field _ ih =>
    exact toValue_struct_congr fun f hf => lookup_replace_map fun hid hfirst =>
      ih f hf hid hfirst
  | listItem _ ih => exact toValue_list_congr fun t ht => map_replace (ih t ht) _ _
  | setItem _ ih => exact toValue_set_congr fun t ht => map_replace (ih t ht) _ _
  | mapKey _ ih =>
    refine toValue_map_congr fun k v hshape => map_replace ?_ _ _
    rw [entryToValue, entryToValue, ih k v hshape]
  | mapValue _ ih =>
    refine toValue_map_congr fun k v hshape => map_replace ?_ _ _
    rw [entryToValue, entryToValue, ih k v hshape]

/-- **Changes that are overlooked make no difference**, however many there are. In every
scope, and so in that of a compiled document, a wire value that went through such changes
is received at the type as the same value, or refused with the same fault. -/
theorem toValue_overlooked (s : Scope) {ty : Ty} {w w' : Wire}
    (h : Relation.ReflTransGen (s.Overlooks ty) w w') : w'.toValue s ty = w.toValue s ty := by
  induction h with
  | refl => rfl
  | tail _ hstep ih => rw [toValue_of_overlooks hstep, ih]

end Wire

/-! ## Compiled documents -/

namespace Document

def cardType : Ty := .named ⟨"Card", ⟨5, 14⟩, some 1⟩

/-- A change of the fields of its card that is overlooked is a change of a deck that is
overlooked. -/
theorem overlooks_deck {tag : Wire.Tag} {fields fields' : List (Int16 × Wire)}
    (h : cardsScope.Overlooks cardType (.struct fields) (.struct fields')) :
    cardsScope.Overlooks deckType (.list tag [.struct fields]) (.list tag [.struct fields']) := by
  have hitem : ∀ element, cardsScope.shape deckType = .ok (.list element) →
      cardsScope.Overlooks element (.struct fields) (.struct fields') := by
    intro element helement
    cases helement
    exact h
  exact @Scope.Overlooks.listItem _ _ _ [] [] _ _ hitem

/-- A field with another id than those of suit and rank is not one of a card. -/
theorem not_declares_card {id : Int16} (h : id ≠ 1 ∧ id ≠ 2) (f : Entity.Field)
    (hf : cardsScope.Declares cardType f) : f.id ≠ id := by
  obtain ⟨_, _, _, _, hshape, hbody, hmem⟩ := hf
  cases hshape
  cases hbody
  rcases List.mem_pair.mp hmem with rfl | rfl
  · exact Ne.symm h.1
  · exact Ne.symm h.2

/-- A deck sent by somebody else, from fields of a card in their order: it announces
numbers, its card has a field that nobody declared, the rank in front, and at the end
one more rank, which is no number. -/
def strayDeck (suit : List (Int16 × Wire)) : Wire :=
  .list .i32 [.struct ((7, .bool true) :: (2, .i32 1) :: suit ++ [(2, .string "ace")])]

/-- The stray deck comes from the one that is sent by changes that are overlooked, if all
that is in the place of the suit has its id. -/
theorem overlooked_strayDeck {suit : List (Int16 × Wire)} (hsuit : ∀ x ∈ suit, x.1 = 1) :
    Relation.ReflTransGen (cardsScope.Overlooks deckType)
      (.list .struct [.struct (suit ++ [(2, .i32 1)])]) (strayDeck suit) := by
  have horder : ∀ id : Int16, (suit ++ [(2, Wire.i32 1)]).filter (fun x => x.1 == id)
      = ((2, Wire.i32 1) :: suit).filter fun x => x.1 == id := by
    intro id
    by_cases hid : (2 : Int16) = id
    · have hother : suit.filter (fun x => x.1 == id) = [] := by
        refine List.filter_eq_nil_iff.mpr fun x hx => ?_
        rw [hsuit x hx, ← hid]
        decide
      rw [List.filter_append, List.filter_cons, List.filter_cons, hother]
      rfl
    · rw [List.filter_append, List.filter_cons_of_neg (by simpa using hid)]
      simp [hid]
  have hinsert := @Scope.Overlooks.insert cardsScope cardType [] ((2, .i32 1) :: suit)
    (7, .bool true) (not_declares_card (by decide))
  have hagain := @Scope.Overlooks.again cardsScope cardType
    ((7, .bool true) :: (2, .i32 1) :: suit) [] (2, .string "ace") (by simp)
  rw [List.append_nil] at hagain
  exact .tail (.tail (.tail (.single (.announceList .struct .i32))
    (overlooks_deck (.reorder horder))) (overlooks_deck hinsert)) (overlooks_deck hagain)

/-- The stray deck is received as the one that was sent, and without a suit it is refused
for the same reason. -/
theorem toValue_overlooked_strayDeck :
    cards.compile "cards" = .ok ⟨cardsScope, []⟩
      ∧ Relation.ReflTransGen (cardsScope.Overlooks deckType) deckSent (strayDeck [(1, .i32 1)])
      ∧ deckSent.toValue cardsScope deckType
        = .ok (deck [("suit", .enum "Suit" 1), ("rank", .i32 1)])
      ∧ (strayDeck [(1, .i32 1)]).toValue cardsScope deckType
        = .ok (deck [("suit", .enum "Suit" 1), ("rank", .i32 1)])
      ∧ (strayDeck []).toValue cardsScope deckType = .error (.missingField "Card" "suit") := by
  have hstray := @overlooked_strayDeck [(1, .i32 1)] (by simp)
  have hlacking := @overlooked_strayDeck [] (by simp)
  have hsent : deckSent.toValue cardsScope deckType
      = .ok (deck [("suit", .enum "Suit" 1), ("rank", .i32 1)]) := rfl
  refine ⟨compile_cards, hstray, hsent, ?_, ?_⟩
  · exact (Wire.toValue_overlooked cardsScope hstray).trans hsent
  · exact Wire.toValue_overlooked cardsScope hlacking

end Document

end Interlink
