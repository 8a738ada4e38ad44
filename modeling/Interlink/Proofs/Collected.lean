import Interlink.Proofs.Exchange.Lossless
import Interlink.Proofs.Stored
import Interlink.Proofs.Value.Distinct

/-!
# Sets are sets

A set is written as a list, and what is written twice is in it once. Whether two items
are equal is seen only when they have the type of the elements: as a truth value, one is
the same as `true`. So the items are coerced first, and of those that are equal then the
first one is kept. The stored set has these **first occurrences**, in the order in which
they are written, and a set within a list, a map, a struct or another set is made in the
same way (`Document.Collects`).

A value may also come from a constant, and a struct that has its type is let through as
it is. That no set has an item twice, at any depth, is therefore an invariant of
evaluation (`Value.IsTidy`): coercion keeps it (`Document.Coerces.isTidy`), and what an
expression stands for has it (`Document.LooseValue.isTidy`). The invariant includes that
no struct sets a field twice. Without that, equality of structs would depend on which of
the two is asked (`Value.same_symm`).
-/

namespace Interlink

/-- Lists that belong together do so the other way round, if what relates their elements
does. -/
theorem forall₂_symm_of_mem {α : Type} {R : α → α → Prop} {xs ys : List α}
    (h : List.Forall₂ R xs ys) (hsymm : ∀ x ∈ xs, ∀ y ∈ ys, R x y → R y x) :
    List.Forall₂ R ys xs := by
  induction h with
  | nil => exact .nil
  | cons hxy _ ih =>
    simp only [List.forall_mem_cons] at hsymm
    exact .cons (hsymm.1.1 hxy) (ih fun x hx => (hsymm.2 x hx).2)

/-- Between two elements of lists of one length there is one of a third list. -/
theorem exists_mem_zip_between {α β γ : Type} {xs : List α} {ys : List β} {zs : List γ}
    (hxy : xs.length = ys.length) (hyz : ys.length = zs.length) {p : α × γ}
    (hp : p ∈ xs.zip zs) : ∃ y, (p.1, y) ∈ xs.zip ys ∧ (y, p.2) ∈ ys.zip zs := by
  obtain ⟨i, hi, rfl⟩ := List.mem_iff_getElem.mp hp
  rw [List.length_zip] at hi
  have hys : i < ys.length := by omega
  refine ⟨ys[i], List.mem_iff_getElem.mpr ⟨i, ?_, ?_⟩, List.mem_iff_getElem.mpr ⟨i, ?_, ?_⟩⟩
  · rw [List.length_zip]
    omega
  · simp
  · rw [List.length_zip]
    omega
  · simp

/-- What becomes a value of a primitive type is of a primitive type, or has a number. -/
theorem Primitive.Converts.plain {p : Primitive} {v u : Value} (h : p.Converts v u) :
    v.primitive?.isSome ∨ v.int?.isSome := by
  cases h with
  | integer number => exact .inr (Option.isSome_of_eq_some number)
  | zero number => exact .inr (Option.isSome_of_eq_some (Value.int?_of_wholeNumber? number))
  | one number => exact .inr (Option.isSome_of_eq_some (Value.int?_of_wholeNumber? number))
  | whole number => exact .inr (Option.isSome_of_eq_some (Value.int?_of_wholeNumber? number))
  | _ => exact .inl rfl

theorem Double.same_symm {a b : Double} (h : a.same b = true) : b.same a = true := by
  simp only [same, Bool.and_eq_true, Bool.or_eq_true, Bool.not_eq_true',
    beq_iff_eq] at h ⊢
  exact ⟨⟨h.1.2, h.1.1⟩, h.2.imp Eq.symm And.symm⟩

namespace Value

variable {v u a b : Value}

/-! ## Equality is symmetric -/

/-- **Tables that are equal by name** from one side are so from the other, if no
name is twice in either of them and none is left over. -/
theorem exists_left_of_names {xs ys : List (String × Value)}
    (length : xs.length = ys.length) (hxs : (xs.map Prod.fst).Nodup)
    (hys : (ys.map Prod.fst).Nodup)
    (each : ∀ x ∈ xs, ∃ v, ys.lookup x.1 = some v ∧ x.2.same v = true)
    {y : String × Value} (hy : y ∈ ys) :
    ∃ x ∈ xs, xs.lookup y.1 = some x.2 ∧ x.2.same y.2 = true := by
  have hsubset : xs.map Prod.fst ⊆ ys.map Prod.fst := by
    intro name hname
    obtain ⟨x, hx, rfl⟩ := List.mem_map.mp hname
    obtain ⟨v, hv, -⟩ := each x hx
    exact lookup_isSome_iff_mem.mp (by rw [hv]; rfl)
  have hperm : (xs.map Prod.fst).Perm (ys.map Prod.fst) :=
    (List.subperm_of_subset hxs hsubset).perm_of_length_le (by simp [length])
  obtain ⟨x, hx, hname⟩ := List.mem_map.mp (hperm.mem_iff.mpr (List.mem_map_of_mem hy))
  obtain ⟨v, hv, hsame⟩ := each x hx
  rw [hname, (lookup_eq_some_iff_mem hys).mpr hy] at hv
  cases hv
  refine ⟨x, hx, ?_, hsame⟩
  rw [← hname]
  exact (lookup_eq_some_iff_mem hxs).mpr hx

/-- **Equality is symmetric** between values that set no field twice. -/
theorem same_symm (ha : a.SetsOnce) (hb : b.SetsOnce) (h : a.same b = true) :
    b.same a = true := by
  induction a using Value.childInduction generalizing b with
  | step a ih =>
    have hpart : ∀ x ∈ a.children, ∀ y ∈ b.children, x.same y = true → y.same x = true :=
      fun x hx y hy => ih x hx (ha.of_mem_children hx) (hb.of_mem_children hy)
    rw [same_eq_true] at h ⊢
    cases h with
    | plain exact other => exact .plain exact other
    | double same => exact .double (Double.same_symm same)
    | item name n => exact .item name n
    | list each => exact .list (forall₂_symm_of_mem each hpart)
    | set each => exact .set (forall₂_symm_of_mem each hpart)
    | map each =>
      refine .map (forall₂_symm_of_mem each fun x hx y hy hsame => ?_)
      exact ⟨hpart _ (key_mem_children hx) _ (key_mem_children hy) hsame.1,
        hpart _ (value_mem_children hx) _ (value_mem_children hy) hsame.2⟩
    | @struct name xs ys length each =>
      have hxs : (xs.map Prod.fst).Nodup := ha name xs .refl
      have hys : (ys.map Prod.fst).Nodup := hb name ys .refl
      refine .struct length.symm fun y hy => ?_
      obtain ⟨x, hx, hlookup, hsame⟩ := exists_left_of_names length hxs hys each hy
      exact ⟨x.2, hlookup, hpart _ (List.mem_map_of_mem hx) _ (List.mem_map_of_mem hy) hsame⟩

/-! ## Sets without repetitions -/

/-- **Items that are different from each other**, whichever of two is compared with the
other. -/
def Differ (items : List Value) : Prop :=
  items.Pairwise fun x y => x.same y = false ∧ y.same x = false

/-- **Every set in a value, at any depth, has different items.** -/
def SetsDiffer (v : Value) : Prop := ∀ items, v.HasPart (.set items) → Differ items

/-- A value has nothing twice, as far as it is not within its parts: a set has no item
twice, and a struct sets no field twice. -/
def HasOnce : Value → Prop
  | .set items => Differ items
  | .struct _ fields => (fields.map Prod.fst).Nodup
  | _ => True

/-- **A tidy value** has nothing twice at any depth. -/
def IsTidy (v : Value) : Prop := ∀ u, v.HasPart u → u.HasOnce

theorem IsTidy.of_mem_children (h : v.IsTidy) (hu : u ∈ v.children) : u.IsTidy :=
  fun x hx => h x (.head hu hx)

/-- A value is tidy if it has nothing twice itself, and its parts are tidy. -/
theorem isTidy_of_children (hself : v.HasOnce) (hchildren : ∀ u ∈ v.children, u.IsTidy) :
    v.IsTidy := by
  intro x hx
  rcases Relation.ReflTransGen.cases_head hx with rfl | ⟨u, hu, hx⟩
  · exact hself
  · exact hchildren u hu x hx

theorem IsTidy.setsOnce (h : v.IsTidy) : v.SetsOnce := fun _ _ hpart => h _ hpart

theorem IsTidy.setsDiffer (h : v.IsTidy) : v.SetsDiffer := fun _ hpart => h _ hpart

theorem isTidy_of_primitive? {p : Primitive} (h : v.primitive? = some p) : v.IsTidy := by
  cases v <;> cases h <;> exact isTidy_of_children trivial fun _ hu => absurd hu List.not_mem_nil

theorem isTidy_map {entries : List (Value × Value)}
    (h : ∀ x ∈ entries, x.1.IsTidy ∧ x.2.IsTidy) : (map entries).IsTidy := by
  refine isTidy_of_children trivial fun u hu => ?_
  rcases List.mem_append.mp hu with hu | hu
  · obtain ⟨x, hx, rfl⟩ := List.mem_map.mp hu
    exact (h x hx).1
  · obtain ⟨x, hx, rfl⟩ := List.mem_map.mp hu
    exact (h x hx).2

theorem isTidy_enum (name : String) (n : Int32) : (enum name n).IsTidy :=
  isTidy_of_children trivial fun _ hu => absurd hu List.not_mem_nil

/-- **What is kept of tidy items is different.** -/
theorem differ_distinct {items : List Value} (h : ∀ x ∈ items, x.IsTidy) :
    Differ (distinct items) := by
  have hfirsts := (pairwise_firsts [] items).1
  rw [← distinct_eq_firsts] at hfirsts
  refine hfirsts.imp_of_mem fun {x y} hx hy hxy => ⟨hxy, Bool.eq_false_iff.mpr fun hyx => ?_⟩
  have hx := (h x (distinct_subset items hx)).setsOnce
  have hy := (h y (distinct_subset items hy)).setsOnce
  rw [same_symm hy hx hyx] at hxy
  cases hxy

end Value

namespace Document

variable (d : Document)

/-- **How a value is collected from an expression.** Literals are gone through at every
depth: a set has the first occurrences of what its items became, and lists, maps and
structs have all of it. A constant is taken as it is and coerced once more. If a set is
asked for, its items are coerced and the first occurrences kept. -/
inductive Collects : TypeExpr → ConstExpr → Value → Prop
  | literal {t : TypeExpr} {expr : ConstExpr} {loose v : Value}
      (stands : d.LooseValue expr loose) (plain : loose.primitive?.isSome)
      (coerces : d.Coerces t loose v) : Collects t expr v
  | list {t element : TypeExpr} {items : List ConstExpr} {values : List Value}
      (type : d.Reaches t (.list element)) (length : items.length = values.length)
      (each : ∀ x ∈ items.zip values, Collects element x.1 x.2) :
      Collects t (.list items) (.list values)
  | set {t element : TypeExpr} {items : List ConstExpr} {values : List Value}
      (type : d.Reaches t (.set element)) (length : items.length = values.length)
      (each : ∀ x ∈ items.zip values, Collects element x.1 x.2) :
      Collects t (.list items) (.set (Value.firsts [] values))
  | map {t key value : TypeExpr} {entries : List (ConstExpr × ConstExpr)}
      {values : List (Value × Value)} (type : d.Reaches t (.map key value))
      (length : entries.length = values.length)
      (keys : ∀ x ∈ entries.zip values, Collects key x.1.1 x.2.1)
      (each : ∀ x ∈ entries.zip values, Collects value x.1.2 x.2.2) :
      Collects t (.map entries) (.map values)
  | struct {t : TypeExpr} {name : String} {kind : StructKind} {declared : List Field}
      {entries : List (ConstExpr × ConstExpr)} {fields : List (String × Value)}
      (type : d.ReachesBody t name (.struct kind declared))
      (length : entries.length = fields.length)
      (names : ∀ x ∈ entries.zip fields, d.LooseValue x.1.1 (.string x.2.1))
      (known : ∀ x ∈ fields, (Field.named? declared x.1).isSome)
      (each : ∀ x ∈ entries.zip fields, ∀ f, Field.named? declared x.2.1 = some f →
        Collects f.type x.1.2 x.2.2) :
      Collects t (.map entries) (.struct name fields)
  | reference {t : TypeExpr} {m : Mention} {u v : Value}
      (stands : d.LooseValue (.reference m) u) (coerces : d.Coerces t u v)
      (set : ∀ element, d.Reaches t (.set element) → ∃ items values,
        u.IsSequence items ∧ List.Forall₂ (d.Coerces element) items values
          ∧ v = .set (Value.firsts [] values)) :
      Collects t (.reference m) v

variable {d} {t : TypeExpr} {expr : ConstExpr} {v u loose : Value}

/-! ## Evaluation keeps values tidy -/

/-- **Coercion keeps a value tidy.** -/
theorem Coerces.isTidy (h : d.Coerces t v u) (hv : v.IsTidy) : u.IsTidy := by
  induction h with
  | primitive _ converts => exact Value.isTidy_of_primitive? converts.primitive?
  | @list _ _ _ _ typed _ sequence length _ ih =>
    refine Value.isTidy_of_children trivial fun y hy => ?_
    obtain ⟨x, hxy⟩ := exists_mem_zip_right length hy
    exact ih _ hxy (hv.of_mem_children (sequence.mem_children (List.of_mem_zip hxy).1))
  | @set _ _ _ _ typed _ sequence length _ ih =>
    have htyped : ∀ y ∈ typed, y.IsTidy := by
      intro y hy
      obtain ⟨x, hxy⟩ := exists_mem_zip_right length hy
      exact ih _ hxy (hv.of_mem_children (sequence.mem_children (List.of_mem_zip hxy).1))
    exact Value.isTidy_of_children (Value.differ_distinct htyped) fun y hy =>
      htyped y (Value.distinct_subset typed hy)
  | map _ length _ _ ihk ihv =>
    refine Value.isTidy_map fun y hy => ?_
    obtain ⟨x, hxy⟩ := exists_mem_zip_right length hy
    have hx := (List.of_mem_zip hxy).1
    exact ⟨ihk _ hxy (hv.of_mem_children (Value.key_mem_children hx)),
      ihv _ hxy (hv.of_mem_children (Value.value_mem_children hx))⟩
  | item n _ => exact hv
  | number _ _ _ => exact Value.isTidy_enum _ _
  | same fields _ => exact hv
  | @struct _ _ _ _ entries fields _ keys known _ distinct _ _ ih =>
    have hlength : entries.length = fields.length := by
      simpa using congrArg List.length keys
    refine Value.isTidy_of_children distinct (List.forall_mem_map.mpr fun y hy => ?_)
    obtain ⟨x, hxy⟩ := exists_mem_zip_right hlength hy
    obtain ⟨f, hf⟩ := Option.isSome_iff_exists.mp (known y hy)
    exact ih _ hxy f hf
      (hv.of_mem_children (Value.value_mem_children (List.of_mem_zip hxy).1))

/-- **What an expression stands for is tidy.** -/
theorem LooseValue.isTidy (h : d.LooseValue expr v) : v.IsTidy := by
  induction h with
  | bool b => exact Value.isTidy_of_primitive? rfl
  | int n => exact Value.isTidy_of_primitive? rfl
  | double x => exact Value.isTidy_of_primitive? rfl
  | string t => exact Value.isTidy_of_primitive? rfl
  | list length _ ih =>
    refine Value.isTidy_of_children trivial fun y hy => ?_
    obtain ⟨x, hxy⟩ := exists_mem_zip_right length hy
    exact ih _ hxy
  | map length _ _ ihk ihv =>
    refine Value.isTidy_map fun y hy => ?_
    obtain ⟨x, hxy⟩ := exists_mem_zip_right length hy
    exact ⟨ihk _ hxy, ihv _ hxy⟩
  | constant _ _ coerces ih => exact coerces.isTidy ih
  | item _ => exact Value.isTidy_enum _ _

/-! ## Values are collected from literals -/

/-- **Where a set is asked for the first occurrences are kept.** -/
theorem WellFormed.firsts_of_coerces (hd : d.WellFormed) (h : d.Coerces t v u)
    {element : TypeExpr} (ht : d.Reaches t (.set element)) :
    ∃ items values, v.IsSequence items ∧ List.Forall₂ (d.Coerces element) items values
      ∧ u = .set (Value.firsts [] values) := by
  cases h with
  | set type sequence length coerces =>
    cases hd.reaches_unique type ht
    refine ⟨_, _, sequence, List.forall₂_iff_zip.mpr ⟨length, fun hx => coerces _ hx⟩, ?_⟩
    rw [Value.distinct_eq_firsts]
  | primitive type => cases hd.reaches_unique type ht
  | list type => cases hd.reaches_unique type ht
  | map type => cases hd.reaches_unique type ht
  | item _ type =>
    obtain ⟨_, _, hreaches, -⟩ := type
    cases hd.reaches_unique hreaches ht
  | number type =>
    obtain ⟨_, _, hreaches, -⟩ := type
    cases hd.reaches_unique hreaches ht
  | same _ type =>
    obtain ⟨_, _, hreaches, -⟩ := type
    cases hd.reaches_unique hreaches ht
  | struct type =>
    obtain ⟨_, _, hreaches, -⟩ := type
    cases hd.reaches_unique hreaches ht

/-- **What an expression becomes at a type is collected from it.** -/
theorem WellFormed.collects (hd : d.WellFormed) (h : d.LooseValue expr loose)
    (hv : d.Coerces t loose v) : d.Collects t expr v := by
  induction h generalizing t v with
  | bool b => exact .literal (.bool b) rfl hv
  | int n => exact .literal (.int n) rfl hv
  | double x => exact .literal (.double x) rfl hv
  | string s => exact .literal (.string s) rfl hv
  | @list items values length _ ih =>
    have hitems : ∀ {element typed}, values.length = typed.length →
        (∀ x ∈ values.zip typed, d.Coerces element x.1 x.2) →
        ∀ x ∈ items.zip typed, d.Collects element x.1 x.2 := by
      intro element typed length' coerces x hx
      obtain ⟨y, hxy, hyx⟩ := exists_mem_zip_between length length' hx
      exact ih _ hxy (coerces _ hyx)
    cases hv with
    | primitive _ converts => rcases converts.plain with hplain | hplain <;> cases hplain
    | number _ number => cases number
    | list type sequence length' coerces =>
      rcases sequence with hsequence | hsequence <;> cases hsequence
      exact .list type (length.trans length') (hitems length' coerces)
    | set type sequence length' coerces =>
      rcases sequence with hsequence | hsequence <;> cases hsequence
      rw [Value.distinct_eq_firsts]
      exact .set type (length.trans length') (hitems length' coerces)
  | @map entries values length keys _ ihk ihv =>
    cases hv with
    | primitive _ converts => rcases converts.plain with hplain | hplain <;> cases hplain
    | number _ number => cases number
    | list _ sequence => rcases sequence with hsequence | hsequence <;> cases hsequence
    | set _ sequence => rcases sequence with hsequence | hsequence <;> cases hsequence
    | map type length' keys' values' =>
      refine .map type (length.trans length') (fun x hx => ?_) fun x hx => ?_
      · obtain ⟨y, hxy, hyx⟩ := exists_mem_zip_between length length' hx
        exact ihk _ hxy (keys' _ hyx)
      · obtain ⟨y, hxy, hyx⟩ := exists_mem_zip_between length length' hx
        exact ihv _ hxy (values' _ hyx)
    | @struct _ _ _ _ _ fields type names known coerces =>
      obtain ⟨length', hnames⟩ :=
        List.forall₂_iff_zip.mp (map_eq_map_iff_forall₂.mp names)
      refine .struct type (length.trans length') (fun x hx => ?_) known fun x hx f hf => ?_
      · obtain ⟨y, hxy, hyx⟩ := exists_mem_zip_between length length' hx
        rw [← hnames hyx]
        exact keys _ hxy
      · obtain ⟨y, hxy, hyx⟩ := exists_mem_zip_between length length' hx
        exact ihv _ hxy (coerces _ hyx f hf)
  | constant defined stands coerces _ =>
    exact .reference (.constant defined stands coerces) hv fun _ ht =>
      hd.firsts_of_coerces hv ht
  | item names =>
    exact .reference (.item names) hv fun _ ht => hd.firsts_of_coerces hv ht

/-- **Sets are sets.** In every constant and every default, no set has an item twice, at
any depth, and a set that is written out has the first occurrences of what its items
became, in their order. -/
theorem sets_collected_of_compile {name : String} {c : Compiled}
    (hok : d.compile name = .ok c) :
    d.Stores c.scope fun t expr v => v.SetsDiffer ∧ d.Collects t expr v := by
  refine (stores_of_compile hok).imp fun t expr v hv => ?_
  obtain ⟨loose, hstands, hcoerces⟩ := hv
  exact ⟨(hcoerces.isTidy hstands.isTidy).setsDiffer,
    (wellFormed_of_compile hok).collects hstands hcoerces⟩

/-- Sets of truth values that are written as numbers too, one of them as a constant that
is no set. -/
def switches : Document where
  headers := []
  definitions :=
    [⟨"BOARD", ⟨1, 1⟩, .const (.list (.set (.primitive .bool)))
        (.list [.list [.int 1, .bool false, .bool true, .int 0],
          .reference ⟨"OFF", ⟨1, 66⟩⟩])⟩,
      ⟨"OFF", ⟨2, 1⟩, .const (.list (.primitive .byte)) (.list [.int 0, .int 0])⟩]

def switchesScope : Scope where
  name := "switches"
  entities :=
    [⟨"BOARD", ⟨1, 1⟩, true, .const (.list (.set (.primitive .bool)))
        (.list [.list [.int 1, .bool false, .bool true, .int 0],
          .reference ⟨"OFF", ⟨1, 66⟩, some (.const 1)⟩])
        (some (.list [.set [.bool true, .bool false], .set [.bool false]]))⟩,
      ⟨"OFF", ⟨2, 1⟩, true, .const (.list (.primitive .byte)) (.list [.int 0, .int 0])
        (some (.list [.byte 0, .byte 0]))⟩]
  symbols := [("BOARD", 0), ("OFF", 1)]

section

open Evaluation

theorem compile_switches : switches.compile "switches" = .ok ⟨switchesScope, []⟩ := by
  simp [switches, switchesScope]

end

/-- Of the switches that are written, each is kept once, and the constant that is off
twice is off once. -/
theorem sets_collected_switches :
    ∃ v, switches.compile "switches" = .ok ⟨switchesScope, []⟩
      ∧ (switches.Stores switchesScope fun t expr v => v.SetsDiffer ∧ switches.Collects t expr v)
      ∧ switchesScope.constant? "BOARD" = some v
      ∧ v = .list [.set [.bool true, .bool false], .set [.bool false]]
      ∧ v.SetsDiffer
      ∧ switches.Collects (.list (.set (.primitive .bool)))
        (.list [.list [.int 1, .bool false, .bool true, .int 0],
          .reference ⟨"OFF", ⟨1, 66⟩⟩]) v := by
  have hstores := sets_collected_of_compile compile_switches
  have harena := (stage_of_compile compile_switches).models.arena
  have hdefines : switches.Defines "BOARD" (.const (.list (.set (.primitive .bool)))
      (.list [.list [.int 1, .bool false, .bool true, .int 0],
        .reference ⟨"OFF", ⟨1, 66⟩⟩])) := ⟨_, .head _, rfl, rfl⟩
  obtain ⟨v, hv, hsets, hcollects⟩ := hstores.exists_constant? harena hdefines
  exact ⟨v, compile_switches, hstores, hv, (Option.some.inj hv).symm, hsets, hcollects⟩

end Document

end Interlink
