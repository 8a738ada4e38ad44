import Interlink.CompiledUnit
import Interlink.Proofs.Exchange.Complete

/-!
# The type that a value tells of itself

A value may be sent without anybody saying its type. It is then sent at the type
that it tells of itself: its own name, or that of its first item. A type at which
it can be sent may look quite different, with typedefs in front of it and in it.

The two come to the same. A scope **equates** two types (`Scope.Equates`) if they
have the same shape, and their items have, all the way down to primitive types
and entities. At such types every value is sent alike (`Scope.Equates.toWire`),
also one whose later items are empty and tell nothing. And a type at which a
value can be sent is equated with the one that the value tells of itself, if it
tells one (`Value.equates_of_inferType`). A typedef of containers of itself does
no harm: the first items of a value of it end in an empty container, so that the
value tells no type at all.
-/

namespace Interlink

/-! ## Types that come to the same -/

namespace Scope

/-- **Two types come to the same**: following their typedefs leads to the same
shape, or to containers of one kind whose items have types that come to the
same. -/
inductive Equates (s : Scope) : Ty → Ty → Prop
  | same {t u : Ty} {shape : Shape} (left : s.shape t = .ok shape)
      (right : s.shape u = .ok shape) : Equates s t u
  | list {t u a b : Ty} (left : s.shape t = .ok (.list a))
      (right : s.shape u = .ok (.list b)) (elements : Equates s a b) : Equates s t u
  | set {t u a b : Ty} (left : s.shape t = .ok (.set a))
      (right : s.shape u = .ok (.set b)) (elements : Equates s a b) : Equates s t u
  | map {t u a b k l : Ty} (left : s.shape t = .ok (.map k a))
      (right : s.shape u = .ok (.map l b)) (keys : Equates s k l)
      (values : Equates s a b) : Equates s t u

variable {s : Scope} {t u : Ty}

@[simp] theorem shape_primitive (p : Primitive) :
    s.shape (.primitive p) = .ok (.primitive p) := by
  rw [shape, dealias, follow]

@[simp] theorem shape_list (element : Ty) : s.shape (.list element) = .ok (.list element) := by
  rw [shape, dealias, follow]

@[simp] theorem shape_set (element : Ty) : s.shape (.set element) = .ok (.set element) := by
  rw [shape, dealias, follow]

@[simp] theorem shape_map (key value : Ty) :
    s.shape (.map key value) = .ok (.map key value) := by
  rw [shape, dealias, follow]

theorem Equates.tag_eq (h : s.Equates t u) : t.tag s = u.tag s := by
  cases h with
  | same left right => rw [tag_of_shape left, tag_of_shape right]
  | list left right => rw [tag_of_shape left, tag_of_shape right]; rfl
  | set left right => rw [tag_of_shape left, tag_of_shape right]; rfl
  | map left right => rw [tag_of_shape left, tag_of_shape right]; rfl

/-- **At types that come to the same a value is sent alike.** -/
theorem Equates.toWire (h : s.Equates t u) {v : Value} {w : Wire}
    (hw : v.toWire s u = .ok w) : v.toWire s t = .ok w := by
  induction h generalizing v w with
  | same left right =>
    exact Value.toWire_eq_ok.mpr ⟨_, left, Value.lowersAs_of_shape hw right⟩
  | list left right elements ih =>
    cases Value.lowersAs_of_shape hw right with | list announced each =>
    refine Value.toWire_eq_ok.mpr ⟨_, left, .list ?_ (each.imp fun v w => ih)⟩
    rw [elements.tag_eq, announced]
  | set left right elements ih =>
    cases Value.lowersAs_of_shape hw right with | set announced each =>
    refine Value.toWire_eq_ok.mpr ⟨_, left, .set ?_ (each.imp fun v w => ih)⟩
    rw [elements.tag_eq, announced]
  | map left right keys values ihk ihv =>
    cases Value.lowersAs_of_shape hw right with | map announcedKeys announcedValues each =>
    refine Value.toWire_eq_ok.mpr ⟨_, left, .map ?_ ?_ (each.imp fun x w hx => ?_)⟩
    · rw [keys.tag_eq, announcedKeys]
    · rw [values.tag_eq, announcedValues]
    · exact ⟨ihk hx.1, ihv hx.2⟩

/-! ## Names that values carry -/

/-- **A reference that is bound to an entity** has that entity as its shape,
unless it is a typedef. -/
theorem shape_bound {id : EntityId} {e : Entity} (he : s.entity? id = some e)
    (hfinal : ∀ target, e.body ≠ .typedef target) (span : Span) :
    s.shape (.named ⟨e.name, span, some id⟩) = .ok (.entity id e) := by
  have htarget : s.targetOf ⟨e.name, span, some id⟩ s.name = .ok (id, e) := by
    unfold targetOf
    dsimp only
    rw [he]
    exact if_pos rfl
  have hdealias : s.dealias (.named ⟨e.name, span, some id⟩) s.name
      = .ok (.entity id e) := by
    unfold dealias follow
    rw [htarget]
    cases hbody : e.body with
    | typedef target => exact absurd hbody (hfinal target)
    | _ => simp only [hbody]
  unfold shape
  rw [hdealias]

/-- **The type with the name of an entity** is a reference bound to it, if it is
found at all. -/
theorem IsArena.typeNamed_eq (h : s.IsArena) {id : EntityId} {e : Entity}
    (he : s.entity? id = some e) (ht : s.typeNamed e.name = .ok t) :
    t = .named ⟨e.name, .unknown, some id⟩ := by
  unfold typeNamed at ht
  rw [h.named?_eq_some.mpr ⟨he, rfl⟩] at ht
  dsimp only at ht
  split at ht
  · exact (Except.ok.inj ht).symm
  · cases ht

end Scope

/-! ## The type that is told -/

namespace Value

variable {s : Scope} {ty t : Ty} {v : Value} {w : Wire}

theorem inferType_of_primitive? {p : Primitive} (h : v.primitive? = some p) :
    v.inferType s = .ok (.primitive p) := by
  cases v <;> cases h <;> rfl

/-- **The type that a value tells of itself comes to the same as any type at
which it can be sent.** -/
theorem equates_of_inferType (h : s.IsArena) (hw : v.toWire s ty = .ok w)
    (ht : v.inferType s = .ok t) : s.Equates t ty := by
  -- what is told goes down the first items, and so does the induction
  induction v using Value.childInduction generalizing ty t w with
  | step v ih =>
    obtain ⟨shape, hshape, hlowers⟩ := toWire_eq_ok.mp hw
    cases hlowers with
    | primitive sent =>
      rw [inferType_of_primitive? (primitive?_of_primitiveToWire sent)] at ht
      cases ht
      exact .same (s.shape_primitive _) hshape
    | list announced each =>
      cases each with
      | nil => cases ht
      | cons hfirst _ =>
        simp only [inferType, bind_eq_ok, pure_eq_ok] at ht
        obtain ⟨first, hinfer, rfl⟩ := ht
        exact .list (s.shape_list _) hshape (ih _ List.mem_cons_self hfirst hinfer)
    | set announced each =>
      cases each with
      | nil => cases ht
      | cons hfirst _ =>
        simp only [inferType, bind_eq_ok, pure_eq_ok] at ht
        obtain ⟨first, hinfer, rfl⟩ := ht
        exact .set (s.shape_set _) hshape (ih _ List.mem_cons_self hfirst hinfer)
    | map keys values each =>
      cases each with
      | nil => cases ht
      | @cons x _ _ _ hfirst _ =>
        simp only [inferType, bind_eq_ok, pure_eq_ok] at ht
        obtain ⟨key, hkey, value, hvalue, rfl⟩ := ht
        exact .map (s.shape_map _ _) hshape
          (ih x.1 (key_mem_children List.mem_cons_self) hfirst.1 hkey)
          (ih x.2 (value_mem_children List.mem_cons_self) hfirst.2 hvalue)
    | item body member =>
      have he := s.entity?_of_shape hshape
      obtain rfl := h.typeNamed_eq he ht
      exact .same (s.shape_bound he (by simp [body]) _) hshape
    | struct body known single each =>
      have he := s.entity?_of_shape hshape
      obtain rfl := h.typeNamed_eq he ht
      exact .same (s.shape_bound he (by simp [body]) _) hshape

end Value

/-! ## Compiled documents -/

namespace CompiledUnit

variable {ty : Ty} {v : Value} {w : Wire}

/-- What can be sent at a type has a payload. -/
theorem encodeAs_of_toWire (u : CompiledUnit) (hw : v.toWire u.scope ty = .ok w) :
    u.encodeAs ty v = .ok (u.protocol.encode w) := by
  unfold encodeAs
  rw [hw]
  rfl

/-- What can be sent at the type that it tells has a payload without anybody saying
the type. -/
theorem encode_of_toWire (u : CompiledUnit) (ht : v.inferType u.scope = .ok ty)
    (hw : v.toWire u.scope ty = .ok w) : u.encode v = .ok (u.protocol.encode w) := by
  unfold encode
  rw [ht]
  exact u.encodeAs_of_toWire hw

end CompiledUnit

namespace Document

variable {d : Document} {name : String} {c : Compiled}

/-- **A value is sent alike with its type and without.** In the scope of a
compiled document a value that can be sent at some type, and tells a type of
itself, is sent at that one too, as the same wire value. So a unit of the
document has the same payload for it, whether it is told the type or not. -/
theorem encode_eq_encodeAs_of_compile (hok : d.compile name = .ok c) {ty t : Ty}
    {v : Value} {w : Wire} (hw : v.toWire c.scope ty = .ok w)
    (ht : v.inferType c.scope = .ok t) :
    v.toWire c.scope t = .ok w
      ∧ ∀ u : CompiledUnit, u.toCompiled = c →
        u.encode v = .ok (u.protocol.encode w)
          ∧ u.encodeAs ty v = .ok (u.protocol.encode w) := by
  have harena := (stage_of_compile hok).models.arena
  have htold := (Value.equates_of_inferType harena hw ht).toWire hw
  refine ⟨htold, ?_⟩
  rintro u rfl
  exact ⟨u.encode_of_toWire ht htold, u.encodeAs_of_toWire hw⟩

/-- A document with typedefs in front of containers, and of what is in them. -/
def hands : Document where
  headers := []
  definitions :=
    [⟨"Hands", ⟨1, 1⟩, .typedef (.map (.primitive .string) (.named ⟨"Hand", ⟨1, 21⟩⟩))⟩,
      ⟨"Hand", ⟨2, 1⟩, .typedef (.list (.named ⟨"Card", ⟨2, 14⟩⟩))⟩,
      ⟨"Card", ⟨3, 1⟩, .typedef (.named ⟨"Suit", ⟨3, 9⟩⟩)⟩,
      ⟨"Suit", ⟨4, 1⟩, .enum [⟨"clubs", none, ⟨4, 13⟩⟩, ⟨"hearts", none, ⟨4, 20⟩⟩]⟩]

def handsScope : Scope where
  name := "hands"
  entities :=
    [⟨"Hands", ⟨1, 1⟩, true,
        .typedef (.map (.primitive .string) (.named ⟨"Hand", ⟨1, 21⟩, some 1⟩))⟩,
      ⟨"Hand", ⟨2, 1⟩, true, .typedef (.list (.named ⟨"Card", ⟨2, 14⟩, some 2⟩))⟩,
      ⟨"Card", ⟨3, 1⟩, true, .typedef (.named ⟨"Suit", ⟨3, 9⟩, some 3⟩)⟩,
      ⟨"Suit", ⟨4, 1⟩, true, .enum [⟨"clubs", 0, ⟨4, 13⟩⟩, ⟨"hearts", 1, ⟨4, 20⟩⟩]⟩]
  symbols := [("Hands", 0), ("Hand", 1), ("Card", 2), ("Suit", 3)]

section

open Evaluation

theorem compile_hands : hands.compile "hands" = .ok ⟨handsScope, []⟩ := by
  simp [hands, handsScope]

end

/-- Two hands, of which the second is empty. -/
def twoHands : Value :=
  .map [(.string "north", .list [.enum "Suit" 1]), (.string "south", .list [])]

/-- The two hands on the wire. -/
def twoHandsSent : Wire :=
  .map .string .list
    [(.string "north", .list .i32 [.i32 1]), (.string "south", .list .i32 [])]

/-- Two hands are sent alike as hands and as what they tell of themselves, a map
from texts to lists of suits. -/
theorem encode_eq_encodeAs_hands :
    hands.compile "hands" = .ok ⟨handsScope, []⟩
      ∧ twoHands.toWire handsScope (.named ⟨"Hands", ⟨9, 1⟩, none⟩) = .ok twoHandsSent
      ∧ twoHands.inferType handsScope
        = .ok (.map (.primitive .string) (.list (.named ⟨"Suit", .unknown, some 3⟩)))
      ∧ twoHands.toWire handsScope
          (.map (.primitive .string) (.list (.named ⟨"Suit", .unknown, some 3⟩)))
        = .ok twoHandsSent
      ∧ ∀ u : CompiledUnit, u.toCompiled = ⟨handsScope, []⟩ →
        u.encode twoHands = .ok (u.protocol.encode twoHandsSent)
          ∧ u.encodeAs (.named ⟨"Hands", ⟨9, 1⟩, none⟩) twoHands
            = .ok (u.protocol.encode twoHandsSent) := by
  have hw : twoHands.toWire handsScope (.named ⟨"Hands", ⟨9, 1⟩, none⟩)
      = .ok twoHandsSent := rfl
  have ht : twoHands.inferType handsScope
      = .ok (.map (.primitive .string) (.list (.named ⟨"Suit", .unknown, some 3⟩))) := rfl
  exact ⟨compile_hands, hw, ht, encode_eq_encodeAs_of_compile compile_hands hw ht⟩

end Document

end Interlink
