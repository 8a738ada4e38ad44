import Interlink.Proofs.Document.WellFormed
import Interlink.Proofs.Outcome

/-!
# Numbering

Declaring a definition numbers its parts. The items of an enum and the fields
of a list are gone through once, with what has been seen before at hand; here
it is said which lists come through, and what numbers they get:
`numberItems_eq_ok` and `EnumItem.exists_numberedAs` for enums,
`numberFields_eq_ok` and `Field.exists_numberedAs` for fields.
-/

namespace Interlink

/-- Nothing is wrong with a name exactly if it is plain. -/
theorem nameFault?_eq_none {name : String} :
    nameFault? name = none ↔ IsPlain name := by
  unfold nameFault? IsPlain
  by_cases hempty : name = ""
  · subst hempty
    simp
  · by_cases hdot : '.' ∈ name.toList <;> simp [hempty, hdot]

/-! ## Enums -/

/-- The value of an item is its number, as long as that is in range. -/
theorem EnumItem.value?_eq_some {item : EnumItem} {next : Int} {n : Int32}
    (hnext : -0x80000000 ≤ next) :
    item.value? next = some n ↔
      n.toInt = (item.value.map Int32.toInt).getD next := by
  unfold value?
  cases item.value with
  | some k => simp [Int32.toInt_inj, eq_comm]
  | none =>
    simp only [Option.map_none, Option.getD_none]
    have hlt := n.toInt_lt
    by_cases hfits : next < 0x80000000
    · rw [if_pos hfits, Option.some.injEq, ← Int32.toInt_inj,
        Int32.toInt_ofInt_of_le hnext hfits, eq_comm]
    · rw [if_neg hfits]
      simp only [reduceCtorEq, false_iff]
      omega

/-- **The items of an enum with their numbers**: the same names and places, and
the numbers that the document means. -/
structure EnumItem.NumberedAs (items : List EnumItem) (next : Int)
    (numbered : List Entity.Item) : Prop where
  /-- The names and the numbers. -/
  numbers : numbered.map (fun item => (item.name, item.value.toInt))
    = EnumItem.numbered next items
  /-- The places. -/
  spans : numbered.map Entity.Item.span = items.map EnumItem.span

namespace EnumItem

variable {item : EnumItem} {items : List EnumItem} {next : Int}
  {numbered : List Entity.Item}

theorem numberedAs_nil : NumberedAs [] next numbered ↔ numbered = [] :=
  ⟨fun h => List.map_eq_nil_iff.mp h.spans, fun h => by subst h; exact ⟨rfl, rfl⟩⟩

/-- The first item has its own number or the next one, and the others go on
from there. -/
theorem numberedAs_cons (hnext : -0x80000000 ≤ next) :
    NumberedAs (item :: items) next numbered ↔
      ∃ n rest, item.value? next = some n
        ∧ NumberedAs items (n.toInt + 1) rest
        ∧ numbered = ⟨item.name, n, item.span⟩ :: rest := by
  constructor
  · rintro ⟨hnumbers, hspans⟩
    cases numbered with
    | nil => cases hspans
    | cons first rest =>
      obtain ⟨name, n, span⟩ := first
      simp only [EnumItem.numbered, List.map_cons, List.cons.injEq,
        Prod.mk.injEq] at hnumbers hspans
      obtain ⟨⟨rfl, hn⟩, hrest⟩ := hnumbers
      obtain ⟨rfl, hspans⟩ := hspans
      exact ⟨n, rest, (value?_eq_some hnext).mpr hn, ⟨hn ▸ hrest, hspans⟩, rfl⟩
  · rintro ⟨n, rest, hn, hrest, rfl⟩
    have hvalue := (value?_eq_some hnext).mp hn
    constructor
    · simp only [EnumItem.numbered, List.map_cons, ← hvalue, hrest.numbers]
    · simp only [List.map_cons, hrest.spans]

/-- **There are numbers for all items** exactly if none is too large. -/
theorem exists_numberedAs (hnext : -0x80000000 ≤ next) :
    (∃ numbered, NumberedAs items next numbered) ↔
      ∀ x ∈ EnumItem.numbered next items, x.2 ≤ 0x7fffffff := by
  induction items generalizing next with
  | nil => exact ⟨fun _ x hx => absurd hx List.not_mem_nil, fun _ => ⟨[], rfl, rfl⟩⟩
  | cons item items ih =>
    simp only [numberedAs_cons hnext, EnumItem.numbered, List.forall_mem_cons]
    constructor
    · rintro ⟨_, n, rest, hn, hrest, rfl⟩
      have hlow := n.le_toInt
      have hhigh := n.toInt_lt
      rw [← (value?_eq_some hnext).mp hn]
      exact ⟨by omega, (ih (by omega)).mp ⟨rest, hrest⟩⟩
    · rintro ⟨hfits, hothers⟩
      have hlow : -0x80000000 ≤ (item.value.map Int32.toInt).getD next := by
        cases item.value with
        | some k => exact k.le_toInt
        | none => exact hnext
      have hn := Int32.toInt_ofInt_of_le hlow (by omega)
      obtain ⟨rest, hrest⟩ := (ih (by omega)).mpr hothers
      exact ⟨_, _, rest, (value?_eq_some hnext).mpr hn, hn.symm ▸ hrest, rfl⟩

theorem map_fst_numbered (next : Int) :
    (EnumItem.numbered next items).map Prod.fst = items.map EnumItem.name := by
  induction items generalizing next with
  | nil => rfl
  | cons item items ih => rw [EnumItem.numbered, List.map_cons, ih, List.map_cons]

theorem NumberedAs.map_name (h : NumberedAs items next numbered) :
    numbered.map Entity.Item.name = items.map EnumItem.name := by
  rw [← map_fst_numbered next, ← h.numbers, List.map_map]
  rfl

/-- The numbers of the numbered items are those that the document means. -/
theorem NumberedAs.map_value (h : NumberedAs items next numbered) :
    numbered.map (fun item => item.value.toInt)
      = (EnumItem.numbered next items).map Prod.snd := by
  rw [← h.numbers, List.map_map]
  rfl

end EnumItem

/-- An item that nothing is wrong with gets its number, and the others are
numbered after it. -/
theorem numberItems_cons {owner : String} {next : Int}
    {seen : Std.HashMap String Span} {item : EnumItem} {items : List EnumItem}
    {n : Int32} (hplain : IsPlain item.name) (hfresh : item.name ∉ seen)
    (hn : item.value? next = some n) :
    numberItems owner next seen (item :: items)
      = (⟨item.name, n, item.span⟩ :: ·)
        <$> numberItems owner (n.toInt + 1) (seen.insert item.name item.span)
          items := by
  rw [numberItems, nameFault?_eq_none.mpr hplain, Option.isSome_none,
    if_neg Bool.false_ne_true, Std.HashMap.getElem?_eq_none hfresh]
  dsimp only
  rw [hn]
  dsimp only
  cases numberItems owner (n.toInt + 1) (seen.insert item.name item.span)
    items <;> rfl

/-- **Numbering the items of an enum** succeeds when their names are plain,
different from each other and from those seen before, and gives the items their
numbers. -/
theorem numberItems_eq_ok {owner : String} {next : Int}
    {seen : Std.HashMap String Span} {items : List EnumItem}
    {numbered : List Entity.Item} (hnext : -0x80000000 ≤ next) :
    numberItems owner next seen items = .ok numbered ↔
      (∀ item ∈ items, IsPlain item.name)
        ∧ (items.map EnumItem.name).Nodup
        ∧ (∀ item ∈ items, item.name ∉ seen)
        ∧ EnumItem.NumberedAs items next numbered := by
  -- `seen` grows by the name of the first item, so it is part of the induction
  induction items generalizing next seen numbered with
  | nil => simp [numberItems, EnumItem.numberedAs_nil, eq_comm]
  | cons item items ih =>
    rw [EnumItem.numberedAs_cons hnext]
    simp only [List.forall_mem_cons, List.map_cons, List.nodup_cons]
    by_cases hplain : IsPlain item.name
    · by_cases hmem : item.name ∈ seen
      · simp [numberItems, nameFault?_eq_none.mpr hplain, hmem]
      · cases hn : item.value? next with
        | none => simp [numberItems, nameFault?_eq_none.mpr hplain, hmem, hn]
        | some n =>
          have hlow := n.le_toInt
          rw [numberItems_cons hplain hmem hn, map_eq_ok]
          simp only [eq_comm (b := numbered),
            ih (show -0x80000000 ≤ n.toInt + 1 by omega),
            Std.HashMap.mem_insert, beq_iff_eq, not_or, Option.some.injEq]
          constructor
          · rintro ⟨rest, ⟨hplains, hnodup, hfresh, hnumbered⟩, hcons⟩
            refine ⟨⟨hplain, hplains⟩, ⟨fun h => ?_, hnodup⟩,
              ⟨hmem, fun i hi => (hfresh i hi).2⟩, n, rest, rfl, hnumbered, hcons⟩
            obtain ⟨i, hi, hname⟩ := List.mem_map.mp h
            exact (hfresh i hi).1 hname.symm
          · rintro ⟨⟨-, hplains⟩, ⟨hnot, hnodup⟩, ⟨-, hfresh⟩, _, rest, rfl,
              hnumbered, hcons⟩
            refine ⟨rest, ⟨hplains, hnodup, fun i hi => ⟨fun h => ?_, hfresh i hi⟩,
              hnumbered⟩, hcons⟩
            exact hnot (List.mem_map.mpr ⟨i, hi, h.symm⟩)
    · have hfault : (nameFault? item.name).isSome = true :=
        Option.isSome_iff_ne_none.mpr fun h => hplain (nameFault?_eq_none.mp h)
      rw [numberItems, if_pos hfault]
      simp [hplain]

/-! ## Fields -/

/-- **The fields of a list with their ids**: each field as it is declared, with
the id that the document means. -/
structure Field.NumberedAs (fields : List Field) (used : Nat)
    (numbered : List Entity.Field) : Prop where
  /-- The fields. -/
  each : List.Forall₂ (fun f g => g = f.withId g.id) fields numbered
  /-- The ids. -/
  ids : numbered.map (fun g => g.id.toInt) = Field.ids used fields

namespace Field

variable {f : Field} {fields : List Field} {used : Nat}
  {numbered : List Entity.Field}

@[simp] theorem withId_id (f : Field) (id : Int16) : (f.withId id).id = id := rfl

theorem numberedAs_nil : NumberedAs [] used numbered ↔ numbered = [] :=
  ⟨fun h => List.forall₂_nil_left_iff.mp h.each,
    fun h => by subst h; exact ⟨.nil, rfl⟩⟩

/-- A field with an id keeps it. -/
theorem numberedAs_cons_some {id : Int16} (hid : f.id = some id) :
    NumberedAs (f :: fields) used numbered ↔
      ∃ rest, NumberedAs fields used rest ∧ numbered = f.withId id :: rest := by
  constructor
  · rintro ⟨hfields, hids⟩
    obtain ⟨g, rest, hg, hrest, rfl⟩ := List.forall₂_cons_left_iff.mp hfields
    simp only [Field.ids, hid, List.map_cons, List.cons.injEq,
      Int16.toInt_inj] at hids
    exact ⟨rest, ⟨hrest, hids.2⟩, by rw [hg, hids.1]⟩
  · rintro ⟨rest, ⟨hfields, hids⟩, rfl⟩
    refine ⟨.cons rfl hfields, ?_⟩
    simp only [Field.ids, hid, List.map_cons, hids, withId_id]

/-- A field without an id gets the next one, if there is one left. -/
theorem numberedAs_cons_none (hid : f.id = none) :
    NumberedAs (f :: fields) used numbered ↔
      used < 0x8000 ∧ ∃ rest, NumberedAs fields (used + 1) rest
        ∧ numbered = f.withId (.ofInt (-(used + 1 : Nat))) :: rest := by
  constructor
  · rintro ⟨hfields, hids⟩
    obtain ⟨g, rest, hg, hrest, rfl⟩ := List.forall₂_cons_left_iff.mp hfields
    simp only [Field.ids, hid, List.map_cons, List.cons.injEq] at hids
    have hlow := g.id.le_toInt
    refine ⟨by omega, rest, ⟨hrest, hids.2⟩, ?_⟩
    rw [hg, ← hids.1, Int16.ofInt_toInt]
  · rintro ⟨hleft, rest, ⟨hfields, hids⟩, rfl⟩
    refine ⟨.cons rfl hfields, ?_⟩
    have hid' := Int16.toInt_ofInt_of_le (n := -(used + 1 : Nat)) (by omega)
      (by omega)
    simp only [Field.ids, hid, List.map_cons, hids, withId_id, hid']

/-- **There are ids for all fields** exactly if at most so many have none. -/
theorem exists_numberedAs (hused : used ≤ 32768) :
    (∃ numbered, NumberedAs fields used numbered) ↔
      used + (fields.filter fun f => f.id.isNone).length ≤ 32768 := by
  induction fields generalizing used with
  | nil => exact ⟨fun _ => hused, fun _ => ⟨[], numberedAs_nil.mpr rfl⟩⟩
  | cons f fields ih =>
    cases hid : f.id with
    | some id =>
      rw [List.filter_cons_of_neg (by simp [hid]), ← ih hused]
      simp only [numberedAs_cons_some hid]
      constructor
      · rintro ⟨_, rest, hrest, -⟩
        exact ⟨rest, hrest⟩
      · rintro ⟨rest, hrest⟩
        exact ⟨_, rest, hrest, rfl⟩
    | none =>
      rw [List.filter_cons_of_pos (by simp [hid]), List.length_cons]
      simp only [numberedAs_cons_none hid]
      constructor
      · rintro ⟨_, hleft, rest, hrest, -⟩
        have := (ih hleft).mp ⟨rest, hrest⟩
        omega
      · intro hfew
        have hleft : used + 1 ≤ 32768 := by omega
        obtain ⟨rest, hrest⟩ := (ih hleft).mpr (by omega)
        exact ⟨_, by omega, rest, hrest, rfl⟩

end Field

section

variable {owner : String} {used : Nat} {f : Field} {fields : List Field}

theorem numberFields_cons_some {id : Int16} (hname : f.name ≠ "")
    (hid : f.id = some id) :
    numberFields owner used (f :: fields)
      = (f.withId id :: ·) <$> numberFields owner used fields := by
  rw [numberFields, if_neg (by simpa using hname), hid]
  dsimp only
  cases numberFields owner used fields <;> rfl

theorem numberFields_cons_none (hname : f.name ≠ "") (hid : f.id = none)
    (hleft : used < 0x8000) :
    numberFields owner used (f :: fields)
      = (f.withId (.ofInt (-(used + 1 : Nat))) :: ·)
        <$> numberFields owner (used + 1) fields := by
  rw [numberFields, if_neg (by simpa using hname), hid]
  dsimp only
  rw [if_pos hleft]
  cases numberFields owner (used + 1) fields <;> rfl

/-- **Numbering the fields of a list** succeeds when none is without a name,
and gives the fields their ids. -/
theorem numberFields_eq_ok {numbered : List Entity.Field} :
    numberFields owner used fields = .ok numbered ↔
      (∀ f ∈ fields, f.name ≠ "") ∧ Field.NumberedAs fields used numbered := by
  induction fields generalizing used numbered with
  | nil =>
    rw [Field.numberedAs_nil, numberFields, Except.ok.injEq, eq_comm]
    exact ⟨fun h => ⟨fun f hf => absurd hf List.not_mem_nil, h⟩, And.right⟩
  | cons f fields ih =>
    simp only [List.forall_mem_cons]
    by_cases hname : f.name = ""
    · simp [numberFields, hname]
    · cases hid : f.id with
      | some id =>
        rw [Field.numberedAs_cons_some hid, numberFields_cons_some hname hid,
          map_eq_ok]
        simp only [eq_comm (b := numbered), ih]
        constructor
        · rintro ⟨rest, ⟨hnames, hrest⟩, hcons⟩
          exact ⟨⟨hname, hnames⟩, rest, hrest, hcons⟩
        · rintro ⟨⟨-, hnames⟩, rest, hrest, hcons⟩
          exact ⟨rest, ⟨hnames, hrest⟩, hcons⟩
      | none =>
        rw [Field.numberedAs_cons_none hid]
        by_cases hleft : used < 0x8000
        · rw [numberFields_cons_none hname hid hleft, map_eq_ok]
          simp only [eq_comm (b := numbered), ih]
          constructor
          · rintro ⟨rest, ⟨hnames, hrest⟩, hcons⟩
            exact ⟨⟨hname, hnames⟩, hleft, rest, hrest, hcons⟩
          · rintro ⟨⟨-, hnames⟩, -, rest, hrest, hcons⟩
            exact ⟨rest, ⟨hnames, hrest⟩, hcons⟩
        · simp [numberFields, hname, hid, hleft]

end

end Interlink
