import Interlink.Proofs.Document.WellFormed
import Interlink.Proofs.Outcome

/-!
# Values of types

`Document.Coerces` says what a value becomes at a type; this module says what
it is then. A value has a type (`Document.HasType`) when it is of the form that
the type asks for all the way down: numbers have its width, items of enums are
items, and structs have fields of their types, enough of them and no others.

Not everything that is coerced has been looked at before. A struct passes where
its own type is asked for, whatever is in it. But the values that expressions
stand for are put together, by lists and maps, from values that have types:
literals, items, and constants, which were coerced before they were used. Such
values are **intact** (`Document.Intact`), and coercing them gives values that
have types (`WellFormed.hasType_of_coerces`).
-/

namespace Interlink

/-- The primitive type that a value is one of. -/
def Value.primitive? : Value → Option Primitive
  | .bool _ => some .bool
  | .byte _ => some .byte
  | .i16 _ => some .i16
  | .i32 _ => some .i32
  | .i64 _ => some .i64
  | .double _ => some .double
  | .string _ => some .string
  | .binary _ => some .binary
  | _ => none

/-- A whole number has itself for its number. -/
theorem Value.int?_of_wholeNumber? {v : Value} {n : Int} (h : v.wholeNumber? = some n) :
    v.int? = some n := by
  cases v with
  | enum => cases h
  | _ => exact h

/-- What becomes of a value at a primitive type is of that type. -/
theorem Primitive.Converts.primitive? {p : Primitive} {v u : Value}
    (h : p.Converts v u) : u.primitive? = some p := by
  cases h with
  | @integer _ _ _ n number width same =>
    cases u <;> cases width <;> rfl
  | _ => rfl

/-- What is kept of a sequence without repetitions was in it. -/
theorem Value.distinct_subset (items : List Value) :
    Value.distinct items ⊆ items := by
  have hfold : ∀ rest kept : List Value,
      rest.foldl (fun kept item =>
        if kept.any fun other => other.same item then kept else kept ++ [item]) kept
        ⊆ kept ++ rest := by
    intro rest
    induction rest with
    | nil => intro kept v hv; simpa using hv
    | cons item rest ih =>
      intro kept v hv
      rw [List.foldl_cons] at hv
      have hv := ih _ hv
      split at hv
      · rcases List.mem_append.mp hv with hv | hv
        · exact List.mem_append_left _ hv
        · exact List.mem_append_right _ (List.mem_cons_of_mem _ hv)
      · simpa using hv
  intro v hv
  simpa using hfold items [] hv

namespace Document

variable (d : Document)

/-- **A value has a type.** -/
inductive HasType : TypeExpr → Value → Prop
  | primitive {t : TypeExpr} {p : Primitive} {v : Value}
      (type : d.Reaches t (.primitive p)) (exact : v.primitive? = some p) :
      HasType t v
  | list {t element : TypeExpr} {items : List Value}
      (type : d.Reaches t (.list element))
      (each : ∀ v ∈ items, HasType element v) : HasType t (.list items)
  | set {t element : TypeExpr} {items : List Value}
      (type : d.Reaches t (.set element))
      (each : ∀ v ∈ items, HasType element v) : HasType t (.set items)
  | map {t key value : TypeExpr} {entries : List (Value × Value)}
      (type : d.Reaches t (.map key value))
      (keys : ∀ x ∈ entries, HasType key x.1)
      (values : ∀ x ∈ entries, HasType value x.2) : HasType t (.map entries)
  | item {t : TypeExpr} {name : String} {items : List EnumItem} {n : Int32}
      (type : d.ReachesBody t name (.enum items))
      (member : n.toInt ∈ (EnumItem.numbered 0 items).map Prod.snd) :
      HasType t (.enum name n)
  | struct {t : TypeExpr} {name : String} {kind : StructKind}
      {declared : List Field} {fields : List (String × Value)}
      (type : d.ReachesBody t name (.struct kind declared))
      (known : ∀ x ∈ fields, (Field.named? declared x.1).isSome)
      (each : ∀ x ∈ fields, ∀ f, Field.named? declared x.1 = some f →
        HasType f.type x.2)
      (single : kind = .union → fields.length = 1)
      (required : kind ≠ .union → ∀ f ∈ declared,
        f.requiredness = .required → f.name ∈ fields.map Prod.fst) :
      HasType t (.struct name fields)

/-- **An intact value** is put together by lists and maps from values that have
types. -/
inductive Intact : Value → Prop
  | typed {t : TypeExpr} {v : Value} (typed : d.HasType t v) : Intact v
  | list {items : List Value} (each : ∀ v ∈ items, Intact v) :
      Intact (.list items)
  | map {entries : List (Value × Value)} (keys : ∀ x ∈ entries, Intact x.1)
      (values : ∀ x ∈ entries, Intact x.2) : Intact (.map entries)

variable {d}

/-! ## Intact values taken apart -/

namespace Intact

/-- The items of an intact sequence are intact. -/
theorem of_isSequence {v : Value} {items : List Value} (h : d.Intact v)
    (hv : v.IsSequence items) : ∀ u ∈ items, d.Intact u := by
  cases h with
  | typed htyped =>
    cases htyped with
    | list _ each =>
      rcases hv with hv | hv <;> cases hv
      exact fun u hu => .typed (each u hu)
    | set _ each =>
      rcases hv with hv | hv <;> cases hv
      exact fun u hu => .typed (each u hu)
    | primitive _ exact => rcases hv with rfl | rfl <;> cases exact
    | _ => rcases hv with hv | hv <;> cases hv
  | list each =>
    rcases hv with hv | hv <;> cases hv
    exact each
  | map => rcases hv with hv | hv <;> cases hv

/-- The keys and values of an intact map are intact. -/
theorem of_map {entries : List (Value × Value)} (h : d.Intact (.map entries)) :
    ∀ x ∈ entries, d.Intact x.1 ∧ d.Intact x.2 := by
  cases h with
  | typed htyped =>
    cases htyped with
    | primitive _ exact => cases exact
    | map _ keys values => exact fun x hx => ⟨.typed (keys x hx), .typed (values x hx)⟩
  | map keys values => exact fun x hx => ⟨keys x hx, values x hx⟩

/-- An intact value of an enum is that of an item. -/
theorem of_enum {name : String} {n : Int32} (h : d.Intact (.enum name n)) :
    ∃ items, d.Defines name (.enum items)
      ∧ n.toInt ∈ (EnumItem.numbered 0 items).map Prod.snd := by
  cases h with | typed htyped =>
  cases htyped with
  | primitive _ exact => cases exact
  | item type member =>
    obtain ⟨m, -, -, hdefines⟩ := type
    exact ⟨_, hdefines, member⟩

/-- An intact struct has the type it is named for. -/
theorem of_struct {name : String} {fields : List (String × Value)}
    (h : d.Intact (.struct name fields)) : ∃ t, d.HasType t (.struct name fields) := by
  cases h with | typed htyped => exact ⟨_, htyped⟩

end Intact

/-! ## Coercion gives types -/

theorem WellFormed.defines_unique (hd : d.WellFormed) {name : String}
    {b b' : Definition.Body} (hb : d.Defines name b) (hb' : d.Defines name b') :
    b = b' :=
  defines_unique_of_nodup hd.distinct hb hb'

/-- A type leads to one thing when its typedefs are followed. -/
theorem WellFormed.reaches_unique (hd : d.WellFormed) {t a b : TypeExpr}
    (ha : d.Reaches t a) (hb : d.Reaches t b) : a = b := by
  induction ha with
  | primitive p => cases hb; rfl
  | list element => cases hb; rfl
  | set element => cases hb; rfl
  | map key value => cases hb; rfl
  | named defined final =>
    cases hb with
    | named => rfl
    | typedef defined' => exact absurd (hd.defines_unique defined defined') (final _)
  | typedef defined _ ih =>
    cases hb with
    | named defined' final => exact absurd (hd.defines_unique defined' defined) (final _)
    | typedef defined' reaches =>
      cases hd.defines_unique defined defined'
      exact ih reaches

/-- **An intact value that is coerced to a type has that type.** -/
theorem WellFormed.hasType_of_coerces (hd : d.WellFormed) {t : TypeExpr}
    {v u : Value} (hcoerces : d.Coerces t v u) (hv : d.Intact v) :
    d.HasType t u := by
  induction hcoerces with
  | primitive type converts => exact .primitive type converts.primitive?
  | @list t element v items typed type sequence length _ ih =>
    refine .list type fun u hu => ?_
    obtain ⟨w, hwu⟩ := exists_mem_zip_right length hu
    exact ih _ hwu (hv.of_isSequence sequence w (List.of_mem_zip hwu).1)
  | @set t element v items typed type sequence length _ ih =>
    refine .set type fun u hu => ?_
    obtain ⟨w, hwu⟩ := exists_mem_zip_right length (Value.distinct_subset _ hu)
    exact ih _ hwu (hv.of_isSequence sequence w (List.of_mem_zip hwu).1)
  | @map t key value entries typed type length _ _ ihk ihv =>
    have hintact : ∀ y ∈ typed, ∃ x, (x, y) ∈ entries.zip typed
        ∧ d.Intact x.1 ∧ d.Intact x.2 := by
      intro y hy
      obtain ⟨x, hxy⟩ := exists_mem_zip_right length hy
      exact ⟨x, hxy, hv.of_map x (List.of_mem_zip hxy).1⟩
    refine .map type (fun y hy => ?_) fun y hy => ?_
    · obtain ⟨x, hxy, hkey, -⟩ := hintact y hy
      exact ihk _ hxy hkey
    · obtain ⟨x, hxy, -, hvalue⟩ := hintact y hy
      exact ihv _ hxy hvalue
  | item n type =>
    obtain ⟨items, hdefines, hmember⟩ := hv.of_enum
    obtain ⟨m, hm, hreaches, hdefines'⟩ := type
    cases hd.defines_unique hdefines hdefines'
    exact .item ⟨m, hm, hreaches, hdefines⟩ hmember
  | number type _ member => exact .item type member
  | same fields type =>
    -- nothing is looked at here, but the struct had a type before
    obtain ⟨t', htyped⟩ := hv.of_struct
    obtain ⟨m, hm, hreaches, hdefines⟩ := type
    cases htyped with
    | primitive _ exact => cases exact
    | struct type' known each single required =>
      obtain ⟨m', hm', hreaches', hdefines'⟩ := type'
      cases hd.defines_unique hdefines hdefines'
      exact .struct ⟨m, hm, hreaches, hdefines⟩ known each single required
  | @struct t name kind declared entries fields type keys known _ distinct single
      required ih =>
    have hlength : entries.length = fields.length := by
      simpa using congrArg List.length keys
    refine .struct type known (fun y hy f hf => ?_) single required
    obtain ⟨x, hxy⟩ := exists_mem_zip_right hlength hy
    exact ih _ hxy f hf (hv.of_map x (List.of_mem_zip hxy).1).2

/-! ## What expressions stand for -/

theorem hasType_of_primitive? (d : Document) {v : Value} {p : Primitive}
    (h : v.primitive? = some p) : d.HasType (.primitive p) v :=
  .primitive (.primitive p) h

/-- **What an expression stands for is intact.** -/
theorem WellFormed.intact_of_looseValue (hd : d.WellFormed) {c : ConstExpr}
    {v : Value} (hv : d.LooseValue c v) : d.Intact v := by
  induction hv with
  | bool b => exact .typed (d.hasType_of_primitive? rfl)
  | int n => exact .typed (d.hasType_of_primitive? rfl)
  | double x => exact .typed (d.hasType_of_primitive? rfl)
  | string s => exact .typed (d.hasType_of_primitive? rfl)
  | list length _ ih =>
    refine .list fun v hv => ?_
    obtain ⟨c, hcv⟩ := exists_mem_zip_right length hv
    exact ih _ hcv
  | map length _ _ ihk ihv =>
    refine .map (fun x hx => ?_) fun x hx => ?_
    · obtain ⟨c, hcx⟩ := exists_mem_zip_right length hx
      exact ihk _ hcx
    · obtain ⟨c, hcx⟩ := exists_mem_zip_right length hx
      exact ihv _ hcx
  | constant _ _ coerces ih => exact .typed (hd.hasType_of_coerces coerces ih)
  | @item m enumName n names =>
    obtain ⟨items, item, -, hdefines, hmember⟩ := names
    refine .typed (.item (t := .named ⟨enumName, m.span⟩)
      ⟨⟨enumName, m.span⟩, rfl, .named hdefines ?_, hdefines⟩ ?_)
    · intro _ heq
      cases heq
    · exact List.mem_map.mpr ⟨_, hmember, rfl⟩

/-- **What an expression is at a type has that type.** -/
theorem WellFormed.hasType_of_hasValue (hd : d.WellFormed) {t : TypeExpr}
    {c : ConstExpr} {v : Value} (hv : d.HasValue t c v) : d.HasType t v := by
  obtain ⟨loose, hstands, hcoerces⟩ := hv
  exact hd.hasType_of_coerces hcoerces (hd.intact_of_looseValue hstands)

end Document

end Interlink
