import Interlink.Proofs.Document.Typed
import Interlink.Proofs.Link.Coerce

/-!
# Sequences without repetitions

Values are compared by `Value.same`, which is not equality: a NaN is equal to
nothing, the two zeros are equal to each other, and structs are compared field by
field, by name. But it is transitive (`Value.same_trans`), and that is what makes
sense of "without repetitions".

The items of a set are collected one by one, and each is compared with those that
were kept so far (`Value.distinct`). What is kept are the **first occurrences**
(`Value.firsts`): the items that are equal to no earlier one, kept or not. The two
are the same (`Value.distinct_eq_firsts`), since an item that was dropped is equal
to one that was kept. First occurrences are different from each other, and there
is nothing left to drop among them (`Value.firsts_firsts`).
-/

namespace Interlink

/-- Lists that belong together by way of a third one, if what relates their elements
can be composed. -/
theorem forall₂_trans_of_mem {α : Type} {R : α → α → Prop} {xs ys zs : List α}
    (hxy : List.Forall₂ R xs ys) (hyz : List.Forall₂ R ys zs)
    (htrans : ∀ x ∈ xs, ∀ y z, R x y → R y z → R x z) : List.Forall₂ R xs zs := by
  induction hxy generalizing zs with
  | nil => exact hyz
  | cons hx _ ih =>
    cases hyz with | cons hy hyz =>
    rw [List.forall_mem_cons] at htrans
    exact .cons (htrans.1 _ _ hx hy) (ih hyz htrans.2)

theorem Double.same_trans {a b c : Double} (hab : a.same b = true)
    (hbc : b.same c = true) : a.same c = true := by
  simp only [same, Bool.and_eq_true, Bool.or_eq_true, Bool.not_eq_true',
    beq_iff_eq] at hab hbc ⊢
  refine ⟨⟨hab.1.1, hbc.1.2⟩, ?_⟩
  -- where two words are equal, so are the doubles
  rcases hab.2 with hword | ⟨ha, hb⟩
  · obtain rfl : a = b := congrArg Double.mk hword
    exact hbc.2
  · rcases hbc.2 with hword | ⟨-, hc⟩
    · obtain rfl : b = c := congrArg Double.mk hword
      exact .inr ⟨ha, hb⟩
    · exact .inr ⟨ha, hc⟩

namespace Value

/-! ## Equality by parts -/

theorem sameItems_eq_true {xs ys : List Value} :
    sameItems xs ys = true ↔ List.Forall₂ (fun x y => x.same y = true) xs ys := by
  induction xs generalizing ys with
  | nil => cases ys <;> simp [sameItems]
  | cons x xs ih => cases ys <;> simp [sameItems, ih]

theorem sameEntries_eq_true {xs ys : List (Value × Value)} :
    sameEntries xs ys = true ↔ List.Forall₂ (fun x y =>
      x.1.same y.1 = true ∧ x.2.same y.2 = true) xs ys := by
  induction xs generalizing ys with
  | nil => cases ys <;> simp [sameEntries]
  | cons x xs ih => cases ys <;> simp [sameEntries, ih]

/-- Fields are looked for by name. -/
theorem sameFields_eq_true {xs ys : List (String × Value)} :
    sameFields xs ys = true ↔
      ∀ x ∈ xs, ∃ v, ys.lookup x.1 = some v ∧ x.2.same v = true := by
  induction xs with
  | nil => simp [sameFields]
  | cons x xs ih =>
    rw [sameFields, Bool.and_eq_true, ih, List.forall_mem_cons]
    refine and_congr_left fun _ => ?_
    cases ys.lookup x.1 <;> simp

/-- **When values are equal**, in terms of what they are made of. -/
inductive SameAs : Value → Value → Prop
  | plain {v : Value} {p : Primitive} (exact : v.primitive? = some p)
      (other : p ≠ .double) : SameAs v v
  | double {a b : Double} (same : a.same b = true) : SameAs (.double a) (.double b)
  | item (name : String) (n : Int32) : SameAs (.enum name n) (.enum name n)
  | list {xs ys : List Value}
      (each : List.Forall₂ (fun x y => x.same y = true) xs ys) :
      SameAs (.list xs) (.list ys)
  | set {xs ys : List Value}
      (each : List.Forall₂ (fun x y => x.same y = true) xs ys) :
      SameAs (.set xs) (.set ys)
  | map {xs ys : List (Value × Value)}
      (each : List.Forall₂ (fun x y => x.1.same y.1 = true ∧ x.2.same y.2 = true)
        xs ys) : SameAs (.map xs) (.map ys)
  | struct {name : String} {xs ys : List (String × Value)}
      (length : xs.length = ys.length)
      (each : ∀ x ∈ xs, ∃ v, ys.lookup x.1 = some v ∧ x.2.same v = true) :
      SameAs (.struct name xs) (.struct name ys)

variable {a b c : Value}

/-- What is equal to a value of a primitive type other than doubles is that value. -/
theorem eq_of_same {p : Primitive} (ha : a.primitive? = some p) (hp : p ≠ .double)
    (h : a.same b = true) : a = b := by
  cases a <;> cases ha <;> cases b <;> simp_all [same]

/-- **Equality goes by parts.** -/
theorem same_eq_true : a.same b = true ↔ SameAs a b := by
  constructor
  · intro h
    cases a with
    | double x =>
      cases b with
      | double y => exact .double h
      | _ => cases h
    | list xs =>
      cases b with
      | list ys => exact .list (sameItems_eq_true.mp h)
      | _ => cases h
    | set xs =>
      cases b with
      | set ys => exact .set (sameItems_eq_true.mp h)
      | _ => cases h
    | map xs =>
      cases b with
      | map ys => exact .map (sameEntries_eq_true.mp h)
      | _ => cases h
    | enum m n =>
      cases b with
      | enum m' n' =>
        simp only [same, Bool.and_eq_true, beq_iff_eq] at h
        rw [h.1, h.2]
        exact .item m' n'
      | _ => cases h
    | struct m xs =>
      cases b with
      | struct m' ys =>
        simp only [same, Bool.and_eq_true, beq_iff_eq, sameFields_eq_true] at h
        rw [h.1.1]
        exact .struct h.1.2 h.2
      | _ => cases h
    | _ =>
      rw [← eq_of_same rfl (by decide) h]
      exact .plain rfl (by decide)
  · intro h
    cases h with
    | plain hexact hother => cases a <;> simp_all [same, primitive?]
    | double hsame => exact hsame
    | item name n => simp [same]
    | list heach => exact sameItems_eq_true.mpr heach
    | set heach => exact sameItems_eq_true.mpr heach
    | map heach => exact sameEntries_eq_true.mpr heach
    | struct hlength heach =>
      simp only [same, beq_self_eq_true, hlength, Bool.true_and]
      exact sameFields_eq_true.mpr heach

/-- **Equality is transitive.** -/
theorem same_trans (hab : a.same b = true) (hbc : b.same c = true) :
    a.same c = true := by
  induction a using Value.childInduction generalizing b c with
  | step a ih =>
    rw [same_eq_true] at *
    cases hab with
    | plain => exact hbc
    | item => exact hbc
    | double hab =>
      cases hbc with
      | plain hexact hother =>
        cases hexact
        exact absurd rfl hother
      | double hbc => exact .double (Double.same_trans hab hbc)
    | list hab =>
      cases hbc with
      | plain hexact => cases hexact
      | list hbc => exact .list (forall₂_trans_of_mem hab hbc fun x hx y z => ih x hx)
    | set hab =>
      cases hbc with
      | plain hexact => cases hexact
      | set hbc => exact .set (forall₂_trans_of_mem hab hbc fun x hx y z => ih x hx)
    | map hab =>
      cases hbc with
      | plain hexact => cases hexact
      | map hbc =>
        refine .map (forall₂_trans_of_mem hab hbc fun x hx y z hxy hyz => ?_)
        exact ⟨ih x.1 (key_mem_children hx) hxy.1 hyz.1,
          ih x.2 (value_mem_children hx) hxy.2 hyz.2⟩
    | struct hlength hab =>
      cases hbc with
      | plain hexact => cases hexact
      | struct hlength' hbc =>
        refine .struct (hlength.trans hlength') fun x hx => ?_
        obtain ⟨y, hy, hxy⟩ := hab x hx
        obtain ⟨z, hz, hyz⟩ := hbc (x.1, y) (mem_of_lookup_eq_some hy)
        exact ⟨z, hz, ih x.2 (List.mem_map_of_mem hx) hxy hyz⟩

/-! ## First occurrences -/

/-- **The first occurrences in a sequence**: the items that are equal to no earlier
one. `earlier` has what stands before the sequence. -/
def firsts (earlier : List Value) : List Value → List Value
  | [] => []
  | item :: items =>
    if earlier.any fun other => other.same item then firsts (earlier ++ [item]) items
    else item :: firsts (earlier ++ [item]) items

/-- One more item is kept, unless one that is equal to it has been kept. -/
def keep (kept : List Value) (item : Value) : List Value :=
  if kept.any fun other => other.same item then kept else kept ++ [item]

/-- **What is kept are the first occurrences**, if every earlier item is as good as
one that was kept. -/
theorem foldl_keep_eq_firsts {kept earlier : List Value} (items : List Value)
    (hkept : ∀ v, (kept.any fun other => other.same v)
      = earlier.any fun other => other.same v) :
    items.foldl keep kept = kept ++ firsts earlier items := by
  induction items generalizing kept earlier with
  | nil => simp [firsts]
  | cons item items ih =>
    rw [List.foldl_cons, keep, firsts, hkept item]
    by_cases hitem : (earlier.any fun other => other.same item) = true
    · rw [if_pos hitem, if_pos hitem]
      refine ih fun v => ?_
      -- what the dropped item is equal to is equal to one that was kept
      have hdropped : item.same v = true →
          (kept.any fun other => other.same v) = true := by
        intro hv
        rw [← hkept item, List.any_eq_true] at hitem
        obtain ⟨other, hother, hsame⟩ := hitem
        exact List.any_eq_true.mpr ⟨other, hother, same_trans hsame hv⟩
      rw [List.any_append, ← hkept v]
      cases hv : item.same v <;> simp_all
    · have hrest : items.foldl keep (kept ++ [item])
          = kept ++ [item] ++ firsts (earlier ++ [item]) items := by
        refine ih fun v => ?_
        rw [List.any_append, List.any_append, hkept v]
      rw [if_neg hitem, if_neg hitem, hrest, List.append_assoc, List.singleton_append]

/-- **The items of a set are the first occurrences.** -/
theorem distinct_eq_firsts (items : List Value) : distinct items = firsts [] items := by
  rw [← List.nil_append (firsts [] items), ← foldl_keep_eq_firsts items fun _ => rfl]
  rfl

/-- **First occurrences are different** from each other and from what stands before
the sequence. -/
theorem pairwise_firsts (earlier items : List Value) :
    (firsts earlier items).Pairwise (fun x y => x.same y = false)
      ∧ ∀ x ∈ earlier, ∀ y ∈ firsts earlier items, x.same y = false := by
  induction items generalizing earlier with
  | nil => exact ⟨.nil, fun _ _ y hy => absurd hy List.not_mem_nil⟩
  | cons item items ih =>
    obtain ⟨hpairwise, hearlier⟩ := ih (earlier ++ [item])
    rw [List.forall_mem_append, List.forall_mem_singleton] at hearlier
    rw [firsts]
    by_cases hitem : (earlier.any fun other => other.same item) = true
    · rw [if_pos hitem]
      exact ⟨hpairwise, hearlier.1⟩
    · rw [if_neg hitem]
      refine ⟨List.pairwise_cons.mpr ⟨hearlier.2, hpairwise⟩, fun x hx => ?_⟩
      rw [List.forall_mem_cons]
      refine ⟨?_, hearlier.1 x hx⟩
      exact Bool.eq_false_iff.mpr fun hsame =>
        hitem (List.any_eq_true.mpr ⟨x, hx, hsame⟩)

theorem firsts_eq_self {earlier items : List Value}
    (h : items.Pairwise fun x y => x.same y = false)
    (hearlier : ∀ x ∈ earlier, ∀ y ∈ items, x.same y = false) :
    firsts earlier items = items := by
  induction items generalizing earlier with
  | nil => rfl
  | cons item items ih =>
    obtain ⟨hitem, hitems⟩ := List.pairwise_cons.mp h
    have hnew : ¬ (earlier.any fun other => other.same item) = true := by
      rw [List.any_eq_true]
      rintro ⟨x, hx, hsame⟩
      rw [hearlier x hx item List.mem_cons_self] at hsame
      cases hsame
    rw [firsts, if_neg hnew, ih hitems]
    rw [List.forall_mem_append, List.forall_mem_singleton]
    exact ⟨fun x hx y hy => hearlier x hx y (List.mem_cons_of_mem _ hy), hitem⟩

/-- **Nothing is left to drop** among the first occurrences. -/
theorem firsts_firsts (items : List Value) : firsts [] (firsts [] items) = firsts [] items :=
  firsts_eq_self (pairwise_firsts [] items).1 fun _ hx => absurd hx List.not_mem_nil

/-- What is left without repetitions has none to drop. -/
theorem distinct_distinct (items : List Value) :
    distinct (distinct items) = distinct items := by
  rw [distinct_eq_firsts, distinct_eq_firsts, firsts_firsts]

end Value

end Interlink
