import Interlink.Proofs.Document.Typed
import Interlink.Proofs.Stored

/-!
# Whole numbers are exact

A constant may be a number, an item of an enum, or another constant, of any type, which
is again one of these. Where such a chain ends there is a number: the one that the
expression counts to (`Document.Counts`). Each link of the chain is of a width of its
own, or of an enum, and the number passes through all of them.

Coercion either keeps the number of a value or leaves it without one
(`Document.Coerces.int?_eq`): nothing comes out with another number than it went in
with. So the only number a value can have is that at the end of its chain
(`Scope.Models.int?_eq_of_counts`). At an integer type or an enum a value has a number,
hence that one, and it has the form that the type asks for.
-/

namespace Interlink

/-- A value of an integer type is a number of its width. -/
theorem Value.width?_of_primitive? {v : Value} {p : Primitive}
    (h : v.primitive? = some p) (hp : p.isInteger) :
    v.width? = some p ∧ ∃ n, v.int? = some n := by
  cases v <;> cases h <;> cases hp
  all_goals exact ⟨rfl, _, rfl⟩

/-- What became of a value at a primitive type has a number only if the value had it. -/
theorem Primitive.Converts.int?_eq {p : Primitive} {v u : Value} {k : Int}
    (h : p.Converts v u) (hu : u.int? = some k) : v.int? = some k := by
  cases h with
  | integer number _ same =>
    rw [number, ← Value.int?_of_wholeNumber? same, hu]
  | _ => cases hu

namespace Document

variable (d : Document)

/-- **The number that an expression counts to**: that of a literal or of an item of an
enum, or the one that a constant counts to, whatever its type is. -/
inductive Counts : ConstExpr → Int → Prop
  | literal (n : Int64) : Counts (.int n) n.toInt
  | item {m : Mention} {enumName : String} {n : Int32}
      (names : d.NamesItem m.name enumName n.toInt) : Counts (.reference m) n.toInt
  | constant {m : Mention} {type : TypeExpr} {expr : ConstExpr} {n : Int}
      (defined : d.Defines m.name (.const type expr)) (counts : Counts expr n) :
      Counts (.reference m) n

/-- **A value is a number as a type writes it**: at an integer type it is the number in
that width, and at an enum it is an item with the number. -/
structure Writes (t : TypeExpr) (n : Int) (v : Value) : Prop where
  width : ∀ p : Primitive, p.isInteger → d.Reaches t (.primitive p) →
    v.width? = some p ∧ v.int? = some n
  item : ∀ name items, d.ReachesBody t name (.enum items) →
    (∃ k, v = .enum name k) ∧ v.int? = some n
      ∧ n ∈ (EnumItem.numbered 0 items).map Prod.snd

variable {d}

/-! ## The number of a value -/

/-- **Coercion gives no value another number.** -/
theorem Coerces.int?_eq {t : TypeExpr} {v u : Value} {k : Int} (h : d.Coerces t v u)
    (hu : u.int? = some k) : v.int? = some k := by
  cases h with
  | primitive _ converts => exact converts.int?_eq hu
  | item _ _ => exact hu
  | number _ number _ =>
    cases hu
    exact Value.int?_of_wholeNumber? number
  | _ => cases hu

end Document

/-- **An expression that counts to a number** stands for a value with that number, or
for one that has none. -/
theorem Scope.Models.int?_eq_of_counts {s : Scope} {d : Document} (h : s.Models d)
    {expr : ConstExpr} {n k : Int} (hcounts : d.Counts expr n) {v : Value}
    (hv : d.LooseValue expr v) (hk : v.int? = some k) : k = n := by
  induction hcounts generalizing v with
  | literal n =>
    cases hv
    exact (Option.some.inj hk).symm
  | item names =>
    cases h.looseValue_unique hv (.item names)
    exact (Option.some.inj hk).symm
  | constant defined _ ih =>
    obtain ⟨_, _, -, -, hmeans⟩ := h.means_of_defines defined
    obtain ⟨_, _, hdefines, loose, hstands, hcoerces⟩ := (h.looseValue_of_const hmeans).mp hv
    cases h.defines_unique defined hdefines
    exact ih hstands (hcoerces.int?_eq hk)

namespace Document

variable {d : Document}

/-! ## Values of integer types and of enums -/

theorem WellFormed.width?_of_hasType (hd : d.WellFormed) {t : TypeExpr} {v : Value}
    (hv : d.HasType t v) {p : Primitive} (hp : p.isInteger)
    (ht : d.Reaches t (.primitive p)) : v.width? = some p ∧ ∃ n, v.int? = some n := by
  cases hv with
  | primitive type exact =>
    cases hd.reaches_unique type ht
    exact Value.width?_of_primitive? exact hp
  | list type => cases hd.reaches_unique type ht
  | set type => cases hd.reaches_unique type ht
  | map type => cases hd.reaches_unique type ht
  | item type =>
    obtain ⟨_, _, hreaches, -⟩ := type
    cases hd.reaches_unique hreaches ht
  | struct type =>
    obtain ⟨_, _, hreaches, -⟩ := type
    cases hd.reaches_unique hreaches ht

theorem WellFormed.item_of_hasType (hd : d.WellFormed) {t : TypeExpr} {v : Value}
    (hv : d.HasType t v) {name : String} {items : List EnumItem}
    (ht : d.ReachesBody t name (.enum items)) :
    ∃ k : Int32, v = .enum name k ∧ k.toInt ∈ (EnumItem.numbered 0 items).map Prod.snd := by
  obtain ⟨m, rfl, hreaches, hdefines⟩ := ht
  cases hv with
  | primitive type => cases hd.reaches_unique type hreaches
  | list type => cases hd.reaches_unique type hreaches
  | set type => cases hd.reaches_unique type hreaches
  | map type => cases hd.reaches_unique type hreaches
  | item type member =>
    obtain ⟨m', rfl, hreaches', hdefines'⟩ := type
    cases hd.reaches_unique hreaches' hreaches
    cases hd.defines_unique hdefines' hdefines
    exact ⟨_, rfl, member⟩
  | struct type =>
    obtain ⟨m', rfl, hreaches', hdefines'⟩ := type
    cases hd.reaches_unique hreaches' hreaches
    cases hd.defines_unique hdefines' hdefines

/-- **A value of an expression that counts to a number is that number**, as its type
writes it. -/
theorem WellFormed.writes_of_hasValue (hd : d.WellFormed) {s : Scope} (hs : s.Models d)
    {t : TypeExpr} {expr : ConstExpr} {v : Value} (hv : d.HasValue t expr v) {n : Int}
    (hcounts : d.Counts expr n) : d.Writes t n v := by
  have htyped := hd.hasType_of_hasValue hv
  obtain ⟨loose, hstands, hcoerces⟩ := hv
  have hnumber : ∀ k, v.int? = some k → k = n := fun k hk =>
    hs.int?_eq_of_counts hcounts hstands (hcoerces.int?_eq hk)
  constructor
  · intro p hp ht
    obtain ⟨hwidth, k, hk⟩ := hd.width?_of_hasType htyped hp ht
    cases hnumber k hk
    exact ⟨hwidth, hk⟩
  · intro name items ht
    obtain ⟨k, rfl, hmember⟩ := hd.item_of_hasType htyped ht
    cases hnumber k.toInt rfl
    exact ⟨⟨k, rfl⟩, rfl, hmember⟩

/-- **Whole numbers are exact.** Every constant and every default whose expression counts
to a number, by a chain of constants of any types, is stored as that number: in the
width of its type, or as an item of its enum. -/
theorem numbers_exact_of_compile {name : String} {c : Compiled}
    (hok : d.compile name = .ok c) :
    d.Stores c.scope fun t expr v => ∀ n, d.Counts expr n → d.Writes t n v :=
  (stores_of_compile hok).imp fun _ _ _ hv _ hcounts =>
    (wellFormed_of_compile hok).writes_of_hasValue (stage_of_compile hok).models hv hcounts

/-- A number at the limit of the least width that goes through a greater width, an enum
and the greatest width, and back. -/
def ladder : Document where
  headers := []
  definitions :=
    [⟨"Step", ⟨1, 1⟩, .struct .struct
        [⟨some 1, "level", .primitive .byte, .unmarked, some (.reference ⟨"TOP", ⟨2, 21⟩⟩),
          ⟨2, 3⟩⟩]⟩,
      ⟨"TOP", ⟨4, 1⟩, .const (.primitive .i64) (.reference ⟨"MIDDLE", ⟨4, 17⟩⟩)⟩,
      ⟨"MIDDLE", ⟨5, 1⟩, .const (.named ⟨"Level", ⟨5, 7⟩⟩) (.reference ⟨"BOTTOM", ⟨5, 22⟩⟩)⟩,
      ⟨"BOTTOM", ⟨6, 1⟩, .const (.primitive .i16) (.int (-128))⟩,
      ⟨"Level", ⟨7, 1⟩, .enum [⟨"low", some (-128), ⟨7, 14⟩⟩, ⟨"next", none, ⟨7, 26⟩⟩]⟩]

def ladderScope : Scope where
  name := "ladder"
  entities :=
    [⟨"Step", ⟨1, 1⟩, true, .struct .struct
        [⟨1, "level", .primitive .byte, .unmarked,
          some (.reference ⟨"TOP", ⟨2, 21⟩, some (.const 1)⟩), some (.byte (-128)),
          ⟨2, 3⟩⟩]⟩,
      ⟨"TOP", ⟨4, 1⟩, true, .const (.primitive .i64)
        (.reference ⟨"MIDDLE", ⟨4, 17⟩, some (.const 2)⟩) (some (.i64 (-128)))⟩,
      ⟨"MIDDLE", ⟨5, 1⟩, true, .const (.named ⟨"Level", ⟨5, 7⟩, some 4⟩)
        (.reference ⟨"BOTTOM", ⟨5, 22⟩, some (.const 3)⟩) (some (.enum "Level" (-128)))⟩,
      ⟨"BOTTOM", ⟨6, 1⟩, true, .const (.primitive .i16) (.int (-128))
        (some (.i16 (-128)))⟩,
      ⟨"Level", ⟨7, 1⟩, true, .enum [⟨"low", -128, ⟨7, 14⟩⟩, ⟨"next", -127, ⟨7, 26⟩⟩]⟩]
  symbols := [("Step", 0), ("TOP", 1), ("MIDDLE", 2), ("BOTTOM", 3), ("Level", 4)]

section

open Evaluation

theorem compile_ladder : ladder.compile "ladder" = .ok ⟨ladderScope, []⟩ := by
  simp [ladder, ladderScope]

end

/-- The least byte comes through all of it, and is a byte again in the default of the
field. -/
theorem numbers_exact_ladder :
    ladder.compile "ladder" = .ok ⟨ladderScope, []⟩
      ∧ ladder.Counts (.reference ⟨"TOP", ⟨2, 21⟩⟩) (-128)
      ∧ (ladder.Stores ladderScope fun t expr v => ∀ n, ladder.Counts expr n → ladder.Writes t n v)
      ∧ ladder.Writes (.primitive .byte) (-128) (.byte (-128))
      ∧ ladder.Writes (.named ⟨"Level", ⟨5, 7⟩⟩) (-128) (.enum "Level" (-128)) := by
  have hstores := numbers_exact_of_compile compile_ladder
  have hmiddle : ladder.Defines "MIDDLE" (.const (.named ⟨"Level", ⟨5, 7⟩⟩)
      (.reference ⟨"BOTTOM", ⟨5, 22⟩⟩)) :=
    ⟨_, .tail _ (.tail _ (.head _)), rfl, rfl⟩
  have hbottom : ladder.Counts (.reference ⟨"BOTTOM", ⟨5, 22⟩⟩) (-128) :=
    .constant ⟨_, .tail _ (.tail _ (.tail _ (.head _))), rfl, rfl⟩ (.literal (-128))
  have htop : ladder.Counts (.reference ⟨"TOP", ⟨2, 21⟩⟩) (-128) :=
    .constant ⟨_, .tail _ (.head _), rfl, rfl⟩
      (.constant hmiddle hbottom)
  refine ⟨compile_ladder, htop, hstores, ?_, ?_⟩
  · cases hstores with | cons hstep =>
    cases hstep.2 with | struct hfields =>
    cases hfields with | cons hlevel =>
    cases hlevel.2 with | some hwrites =>
    exact hwrites _ htop
  · have harena := (stage_of_compile compile_ladder).models.arena
    obtain ⟨v, hv, hwrites⟩ := hstores.exists_constant? harena hmiddle
    cases hv
    exact hwrites _ hbottom

end Document

end Interlink
