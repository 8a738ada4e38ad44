import Mathlib.Logic.Relation
import Interlink.Wire.Basic

/-!
# The parts of a wire value

Wire values are made of wire values in four ways, and what is proved of all of
them is proved by one induction (`Wire.childInduction`): what holds of a wire
value whenever it holds of its children holds of every wire value. What is asked
of a wire value all the way down is asked of its parts (`Wire.HasPart`).
-/

namespace Interlink.Wire

/-- The wire values that a wire value is made of. -/
def children : Wire → List Wire
  | .struct fields => fields.map Prod.snd
  | .map _ _ entries => entries.map Prod.fst ++ entries.map Prod.snd
  | .set _ items => items
  | .list _ items => items
  | _ => []

theorem field_mem_children {fields : List (Int16 × Wire)} {x : Int16 × Wire}
    (hx : x ∈ fields) : x.2 ∈ (struct fields).children :=
  List.mem_map.mpr ⟨x, hx, rfl⟩

variable {key value : Tag} {entries : List (Wire × Wire)} {x : Wire × Wire}

theorem key_mem_children (hx : x ∈ entries) : x.1 ∈ (map key value entries).children :=
  List.mem_append_left _ (List.mem_map.mpr ⟨x, hx, rfl⟩)

theorem value_mem_children (hx : x ∈ entries) :
    x.2 ∈ (map key value entries).children :=
  List.mem_append_right _ (List.mem_map.mpr ⟨x, hx, rfl⟩)

theorem sizeOf_lt_of_mem_children {w u : Wire} (h : u ∈ w.children) :
    sizeOf u < sizeOf w := by
  cases w with
  | struct fields =>
    obtain ⟨⟨id, x⟩, hx, rfl⟩ := List.mem_map.mp h
    have hlt := List.sizeOf_lt_of_mem hx
    simp only [Prod.mk.sizeOf_spec, struct.sizeOf_spec] at hlt ⊢
    omega
  | map key value entries =>
    simp only [map.sizeOf_spec]
    rcases List.mem_append.mp h with h | h
    · obtain ⟨⟨k, x⟩, hx, rfl⟩ := List.mem_map.mp h
      have hlt := List.sizeOf_lt_of_mem hx
      simp only [Prod.mk.sizeOf_spec] at hlt ⊢
      omega
    · obtain ⟨⟨k, x⟩, hx, rfl⟩ := List.mem_map.mp h
      have hlt := List.sizeOf_lt_of_mem hx
      simp only [Prod.mk.sizeOf_spec] at hlt ⊢
      omega
  | set element items =>
    have hlt : sizeOf u < sizeOf items := List.sizeOf_lt_of_mem h
    simp only [set.sizeOf_spec]
    omega
  | list element items =>
    have hlt : sizeOf u < sizeOf items := List.sizeOf_lt_of_mem h
    simp only [list.sizeOf_spec]
    omega
  | _ => exact absurd h List.not_mem_nil

/-- **Induction on wire values.** -/
theorem childInduction {motive : Wire → Prop}
    (step : ∀ w, (∀ u ∈ w.children, motive u) → motive w) (w : Wire) : motive w :=
  step w fun u _ => childInduction step u
termination_by sizeOf w
decreasing_by exact sizeOf_lt_of_mem_children ‹_›

/-- A wire value is part of a wire value: it is that one, or part of one of its
children. -/
def HasPart : Wire → Wire → Prop :=
  Relation.ReflTransGen fun w u => u ∈ w.children

/-- What is asked of all parts is asked of the wire value itself and of all parts
of its children. -/
theorem forall_hasPart {p : Wire → Prop} {w : Wire} :
    (∀ part, w.HasPart part → p part)
      ↔ p w ∧ ∀ u ∈ w.children, ∀ part, u.HasPart part → p part := by
  refine ⟨fun h => ⟨h w .refl, fun u hu part hpart => h part (.head hu hpart)⟩, ?_⟩
  intro h part hpart
  rcases Relation.ReflTransGen.cases_head hpart with rfl | ⟨u, hu, hpart⟩
  · exact h.1
  · exact h.2 u hu part hpart

/-- Lists inside one another, one more of them than the number says. -/
def nestedLists : Nat → Wire
  | 0 => .list .list []
  | n + 1 => .list .list [nestedLists n]

end Interlink.Wire
