import Interlink.Json.Record
import Interlink.Proofs.Json.Tree
import Interlink.Proofs.Number.Width

/-!
# Parts of trees are read as they were written

What the readers of records have in common: whole numbers come back with their
width, sequences item by item, and what may be absent as what it was. Some
readers ask two things of a tree before they look at its members, how deep it
nests and whether all of it can be read; a tree that is written of short whole
numbers, texts and doubles that are read back can be (`Legible`).
-/

namespace Interlink.Json

/-! ## Depth -/

theorem depthItems_le {items : List Json} {n : Nat} :
    depthItems items ≤ n ↔ ∀ item ∈ items, item.depth ≤ n := by
  induction items with
  | nil => simp [depthItems]
  | cons item items ih => rw [depthItems, Nat.max_le, ih, List.forall_mem_cons]

/-- There is room for an array if there is some for its bracket, and for its
items one bracket further in. -/
theorem depth_arr_map_le {α : Type} {f : α → Json} {xs : List α} {n : Nat} :
    (arr (xs.map f)).depth ≤ n ↔ 1 ≤ n ∧ ∀ x ∈ xs, 1 + (f x).depth ≤ n := by
  have hroom : 1 + depthItems (xs.map f) ≤ n ↔ 1 ≤ n ∧ depthItems (xs.map f) ≤ n - 1 := by omega
  rw [depth, hroom, depthItems_le, List.forall_mem_map]
  refine and_congr_right fun _ => forall₂_congr fun x _ => ?_
  omega

@[simp] theorem depth_tagged (tag : String) (value : Json) :
    (tagged tag value).depth = 1 + value.depth := by
  show 1 + max value.depth 0 = _
  rw [Nat.max_zero]

/-! ## Whole numbers -/

theorem int?_int (n : Int) : (int n).int? = some n := Number.int?_ofInt n

theorem fit?_int {α : Type} (w : Width α) (a : α) :
    (int (w.toInt a)).fit? w = some a := by
  rw [fit?, int?_int, Option.bind_some, w.fit?_eq_some]

theorem int8?_int (n : Int8) : ((int n.toInt).int?.bind Width.int8?) = some n :=
  fit?_int .int8 n

theorem int16?_int (n : Int16) : (int n.toInt).int16? = some n := fit?_int .int16 n

theorem int32?_int (n : Int32) : (int n.toInt).int32? = some n := fit?_int .int32 n

theorem int64?_int (n : Int64) : (int n.toInt).int64? = some n := fit?_int .int64 n

theorem uint8?_int (n : UInt8) : (int n.toNat).uint8? = some n := fit?_int .uint8 n

theorem uint32?_int (n : UInt32) : (int n.toNat).uint32? = some n := fit?_int .uint32 n

theorem uint64?_int (n : UInt64) : (int n.toNat).uint64? = some n := fit?_int .uint64 n

/-! ## Sequences and absent parts -/

variable {α : Type} {toJson : α → Json} {read : Json → Option α}

theorem mapM_map_eq_some {xs : List α} (h : ∀ x ∈ xs, read (toJson x) = some x) :
    (xs.map toJson).mapM read = some xs := by
  induction xs with
  | nil => rfl
  | cons x xs ih =>
    obtain ⟨hx, hxs⟩ := List.forall_mem_cons.mp h
    rw [List.map_cons, List.mapM_cons, hx, ih hxs]
    rfl

theorem list?_arr {xs : List α} (h : ∀ x ∈ xs, read (toJson x) = some x) :
    (arr (xs.map toJson)).list? read = some xs :=
  mapM_map_eq_some h

/-- What may be absent is read, if it is not written as `null` when it is
there. -/
theorem orNull_option {o : Option α} (hnull : ∀ a, toJson a ≠ .null)
    (h : ∀ a ∈ o, read (toJson a) = some a) :
    orNull (some (option toJson o)) read = some o := by
  cases o with
  | none => rfl
  | some a =>
    have hread : orNull (some (toJson a)) read = (read (toJson a)).map some := by
      unfold orNull
      split
      next heq => cases heq
      next heq => exact absurd (Option.some.inj heq) (hnull a)
      next heq => rw [Option.some.inj heq]
    show orNull (some (toJson a)) read = _
    rw [hread, h a rfl]
    rfl

/-! ## Legible trees -/

/-- **A tree is legible**: it can be written, and all of it can be read. -/
def Legible (j : Json) : Prop := j.Written ∧ j.readable = true

@[simp] theorem legible_null : null.Legible :=
  ⟨List.forall_mem_singleton.mpr trivial, rfl⟩

@[simp] theorem legible_bool (b : Bool) : (bool b).Legible := ⟨written_bool b, rfl⟩

@[simp] theorem legible_text (s : String) : (text s).Legible := ⟨written_text s, rfl⟩

theorem legible_int {n : Int} (h : n.natAbs < 2 ^ 64) : (int n).Legible :=
  ⟨written_int n, Number.isSome_double?_ofInt h⟩

theorem legible_toInt {α : Type} (w : Width α) (hlow : -2 ^ 64 < w.low)
    (hhigh : w.high ≤ 2 ^ 64) (a : α) : (int (w.toInt a)).Legible := by
  have hle := w.low_le a
  have hlt := w.lt_high a
  exact legible_int (by omega)

@[simp] theorem legible_int8 (n : Int8) : (int n.toInt).Legible :=
  legible_toInt .int8 (by decide) (by decide) n

@[simp] theorem legible_int16 (n : Int16) : (int n.toInt).Legible :=
  legible_toInt .int16 (by decide) (by decide) n

@[simp] theorem legible_int32 (n : Int32) : (int n.toInt).Legible :=
  legible_toInt .int32 (by decide) (by decide) n

@[simp] theorem legible_int64 (n : Int64) : (int n.toInt).Legible :=
  legible_toInt .int64 (by decide) (by decide) n

@[simp] theorem legible_uint8 (n : UInt8) : (int n.toNat).Legible :=
  legible_toInt .uint8 (by decide) (by decide) n

@[simp] theorem legible_uint32 (n : UInt32) : (int n.toNat).Legible :=
  legible_toInt .uint32 (by decide) (by decide) n

/-- **A double that JSON keeps**: it is finite, and its number is read as it was
written. -/
def KeepsDouble (d : Double) : Prop :=
  d.isFinite = true ∧ (Number.ofDouble d).double? = some d

theorem double_of_isFinite {d : Double} (h : d.isFinite = true) :
    double d = .num (.ofDouble d) := if_pos h

@[simp] theorem written_double (d : Double) : (double d).Written := by
  unfold double
  split
  next => exact written_num.mpr (Number.proper_ofDouble d)
  next => exact List.forall_mem_singleton.mpr trivial

theorem KeepsDouble.double? {d : Double} (h : KeepsDouble d) : (double d).double? = some d := by
  rw [double_of_isFinite h.1]
  exact h.2

theorem KeepsDouble.legible {d : Double} (h : KeepsDouble d) : (double d).Legible := by
  refine ⟨written_double d, ?_⟩
  rw [double_of_isFinite h.1]
  exact Option.isSome_of_eq_some h.2

theorem readableItems_eq_all (items : List Json) : readableItems items = items.all readable := by
  induction items with
  | nil => rfl
  | cons item items ih => rw [readableItems, ih, List.all_cons]

theorem readableMembers_eq_all (members : List (Option String × Json)) :
    readableMembers members
      = members.all fun member => member.1.isSome && member.2.readable := by
  induction members with
  | nil => rfl
  | cons member members ih => rw [readableMembers, ih, List.all_cons]

@[simp] theorem legible_arr {items : List Json} :
    (arr items).Legible ↔ ∀ item ∈ items, item.Legible := by
  unfold Legible
  rw [written_arr, readable, readableItems_eq_all, List.all_eq_true]
  exact forall₂_and.symm

@[simp] theorem legible_obj {members : List (Option String × Json)} :
    (obj members).Legible ↔
      ∀ member ∈ members, member.1.isSome = true ∧ member.2.Legible := by
  unfold Legible
  rw [written_obj, readable, readableMembers_eq_all, List.all_eq_true, ← forall₂_and]
  refine forall₂_congr fun member _ => ?_
  rw [Bool.and_eq_true]
  tauto

@[simp] theorem legible_object {members : List (String × Json)} :
    (object members).Legible ↔ ∀ member ∈ members, member.2.Legible := by
  rw [object, legible_obj, List.forall_mem_map]
  simp

@[simp] theorem legible_tagged {tag : String} {value : Json} :
    (tagged tag value).Legible ↔ value.Legible := by
  rw [tagged, legible_object, List.forall_mem_singleton]

theorem legible_option {o : Option α} (h : ∀ a ∈ o, (toJson a).Legible) :
    (option toJson o).Legible := by
  cases o with
  | none => exact legible_null
  | some a => exact h a rfl

/-- **What survives JSON**: it is written legibly, and read as it was. -/
structure Survives (toJson : α → Json) (read : Json → Option α) (a : α) : Prop where
  /-- Its tree is legible. -/
  legible : (toJson a).Legible
  /-- Its tree is read as what was written. -/
  read : read (toJson a) = some a

end Interlink.Json
