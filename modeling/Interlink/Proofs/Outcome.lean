import Mathlib.Data.List.Forall2
import Mathlib.Data.List.Nodup

/-!
# Computations that may fail

Everything that can go wrong in a compilation is an `Except`. A proof about a
compilation that went right takes it apart step by step: a sequence of steps
succeeds when each of them does on what the one before gave (`bind_eq_ok`), and
a step for each element of a list succeeds when it does for each of them
(`mapM_eq_ok`, `forM_eq_ok`). Lists that belong together element by element are
related by `List.Forall₂`.

A proof about a compilation that went wrong looks for the step that did: a
sequence of steps fails with the fault of one of them (`bind_eq_error`,
`exists_of_mapM_eq_error`, `exists_of_forM_eq_error`).

The tables that a compilation keeps are lists of pairs; looking up a key in one
whose keys are all different is asking whether a pair is in it
(`lookup_eq_some_iff_mem`).
-/

namespace Interlink

variable {ε α β κ : Type}

/-! ## Sequences of steps -/

/-- **Two steps in sequence succeed** when the first one does, and the second
one on its result. -/
theorem bind_eq_ok {x : Except ε α} {f : α → Except ε β} {b : β} :
    (x >>= f) = .ok b ↔ ∃ a, x = .ok a ∧ f a = .ok b := by
  cases x with
  | error e => simp [bind, Except.bind]
  | ok a => simp [bind, Except.bind]

theorem map_eq_ok {x : Except ε α} {f : α → β} {b : β} :
    (f <$> x) = .ok b ↔ ∃ a, x = .ok a ∧ f a = b := by
  cases x with
  | error e => simp [Functor.map, Except.map]
  | ok a => simp [Functor.map, Except.map]

theorem exists_map_eq_ok {x : Except ε α} {f : α → β} :
    (∃ b, (f <$> x) = .ok b) ↔ ∃ a, x = .ok a := by
  simp only [map_eq_ok]
  constructor
  · rintro ⟨b, a, ha, -⟩
    exact ⟨a, ha⟩
  · rintro ⟨a, ha⟩
    exact ⟨f a, a, ha, rfl⟩

theorem pure_eq_ok {a b : α} : (pure a : Except ε α) = .ok b ↔ a = b := by
  simp [pure, Except.pure]

theorem discard_eq_ok {x : Except ε α} {u : Unit} :
    Functor.discard x = .ok u ↔ ∃ a, x = .ok a := by
  cases x with
  | error e =>
    constructor
    · intro h
      cases h
    · rintro ⟨a, h⟩
      cases h
  | ok a => exact ⟨fun _ => ⟨a, rfl⟩, fun _ => rfl⟩

/-! ## A step for each element -/

/-- **A step for each element of a list** succeeds when the steps do, with
their results in order. -/
theorem mapM_eq_ok {f : α → Except ε β} {xs : List α} {ys : List β} :
    xs.mapM f = .ok ys ↔ List.Forall₂ (fun x y => f x = .ok y) xs ys := by
  induction xs generalizing ys with
  | nil => cases ys <;> simp [pure_eq_ok]
  | cons x xs ih =>
    simp only [List.mapM_cons, bind_eq_ok, pure_eq_ok, ih,
      List.forall₂_cons_left_iff]
    constructor
    · rintro ⟨y, hy, ys', hys, rfl⟩
      exact ⟨y, ys', hy, hys, rfl⟩
    · rintro ⟨y, ys', hy, hys, rfl⟩
      exact ⟨y, hy, ys', hys, rfl⟩

/-- A step for each element of a list succeeds for some results when each step
does for some result. -/
theorem exists_mapM_eq_ok {f : α → Except ε β} {xs : List α} :
    (∃ ys, xs.mapM f = .ok ys) ↔ ∀ x ∈ xs, ∃ y, f x = .ok y := by
  simp only [mapM_eq_ok]
  induction xs with
  | nil => exact ⟨fun _ x hx => absurd hx List.not_mem_nil, fun _ => ⟨[], .nil⟩⟩
  | cons x xs ih =>
    simp only [List.forall_mem_cons, ← ih, List.forall₂_cons_left_iff]
    constructor
    · rintro ⟨_, y, ys, hy, hys, rfl⟩
      exact ⟨⟨y, hy⟩, ys, hys⟩
    · rintro ⟨⟨y, hy⟩, ys, hys⟩
      exact ⟨y :: ys, y, ys, hy, hys, rfl⟩

theorem optionMapM_eq_ok {f : α → Except ε β} {o : Option α} {o' : Option β} :
    o.mapM f = .ok o' ↔ Option.Rel (fun a b => f a = .ok b) o o' := by
  cases o with
  | none =>
    show (pure none : Except ε (Option β)) = .ok o' ↔ _
    rw [pure_eq_ok]
    constructor
    · rintro rfl
      exact .none
    · intro h
      cases h
      rfl
  | some a =>
    show (some <$> f a) = .ok o' ↔ _
    rw [map_eq_ok]
    constructor
    · rintro ⟨b, hb, rfl⟩
      exact .some hb
    · rintro ⟨hb⟩
      exact ⟨_, hb, rfl⟩

/-- A step for the content of an option succeeds for some result when it does
for that content. -/
theorem exists_optionMapM_eq_ok {f : α → Except ε β} {o : Option α} :
    (∃ o', o.mapM f = .ok o') ↔ ∀ a ∈ o, ∃ b, f a = .ok b := by
  simp only [optionMapM_eq_ok]
  cases o with
  | none =>
    exact ⟨fun _ a ha => absurd ha (Option.not_mem_none a), fun _ => ⟨none, .none⟩⟩
  | some a =>
    constructor
    · rintro ⟨_, ⟨hb⟩⟩ _ ⟨⟩
      exact ⟨_, hb⟩
    · intro h
      obtain ⟨b, hb⟩ := h a rfl
      exact ⟨some b, .some hb⟩

theorem forM_eq_ok {f : α → Except ε Unit} {xs : List α} {u : Unit} :
    xs.forM f = .ok u ↔ ∀ x ∈ xs, f x = .ok ⟨⟩ := by
  induction xs with
  | nil => exact ⟨fun _ x hx => absurd hx List.not_mem_nil, fun _ => rfl⟩
  | cons x xs ih =>
    show (f x >>= fun _ => xs.forM f) = .ok u ↔ _
    simp only [bind_eq_ok, ih, List.forall_mem_cons]
    constructor
    · rintro ⟨_, hx, hxs⟩
      exact ⟨hx, hxs⟩
    · rintro ⟨hx, hxs⟩
      exact ⟨⟨⟩, hx, hxs⟩

/-! ## The step that fails -/

/-- **Two steps in sequence fail** when the first one does, or the second one on
the result of the first. -/
theorem bind_eq_error {x : Except ε α} {f : α → Except ε β} {fault : ε} :
    (x >>= f) = .error fault ↔
      x = .error fault ∨ ∃ a, x = .ok a ∧ f a = .error fault := by
  cases x with
  | error e => simp [bind, Except.bind]
  | ok a => simp [bind, Except.bind]

theorem map_eq_error {x : Except ε α} {f : α → β} {fault : ε} :
    (f <$> x) = .error fault ↔ x = .error fault := by
  cases x with
  | error e => simp [Functor.map, Except.map]
  | ok a => simp [Functor.map, Except.map]

theorem discard_eq_error {x : Except ε α} {fault : ε} :
    (Functor.discard x : Except ε Unit) = .error fault ↔ x = .error fault := by
  cases x with
  | error e => exact ⟨fun h => congrArg _ (Except.error.inj h),
      fun h => congrArg _ (Except.error.inj h)⟩
  | ok a => exact ⟨fun h => absurd h (by intro h; cases h),
      fun h => absurd h (by intro h; cases h)⟩

theorem pure_ne_error {a : α} {fault : ε} :
    (pure a : Except ε α) ≠ .error fault := by
  intro h
  cases h

/-- **A step for each element of a list fails** at one of the elements. -/
theorem exists_of_mapM_eq_error {f : α → Except ε β} {xs : List α} {fault : ε}
    (h : xs.mapM f = .error fault) : ∃ x ∈ xs, f x = .error fault := by
  induction xs with
  | nil => exact absurd h pure_ne_error
  | cons x xs ih =>
    rw [List.mapM_cons, bind_eq_error] at h
    rcases h with hx | ⟨y, -, h⟩
    · exact ⟨x, List.mem_cons_self, hx⟩
    · rcases bind_eq_error.mp h with hxs | ⟨ys, -, hpure⟩
      · obtain ⟨z, hz, hfault⟩ := ih hxs
        exact ⟨z, List.mem_cons_of_mem _ hz, hfault⟩
      · exact absurd hpure pure_ne_error

/-- **Two steps for each element of a list** that fail alike for each of them fail
alike for the list. -/
theorem mapM_fails_alike {γ : Type} {f : α → Except ε β} {g : α → Except ε γ}
    {P : ε → Prop} {xs : List α}
    (h : ∀ x ∈ xs, (∃ fault, P fault ∧ f x = .error fault ∧ g x = .error fault)
      ∨ ∃ y z, f x = .ok y ∧ g x = .ok z) :
    (∃ fault, P fault ∧ xs.mapM f = .error fault ∧ xs.mapM g = .error fault)
      ∨ ∃ ys zs, xs.mapM f = .ok ys ∧ xs.mapM g = .ok zs := by
  induction xs with
  | nil => exact .inr ⟨[], [], rfl, rfl⟩
  | cons x xs ih =>
    obtain ⟨hx, hxs⟩ := List.forall_mem_cons.mp h
    rw [List.mapM_cons, List.mapM_cons]
    rcases hx with ⟨fault, hP, hf, hg⟩ | ⟨y, z, hf, hg⟩
    · rw [hf, hg]
      exact .inl ⟨fault, hP, rfl, rfl⟩
    · rw [hf, hg]
      rcases ih hxs with ⟨fault, hP, hfs, hgs⟩ | ⟨ys, zs, hfs, hgs⟩
      · rw [hfs, hgs]
        exact .inl ⟨fault, hP, rfl, rfl⟩
      · rw [hfs, hgs]
        exact .inr ⟨y :: ys, z :: zs, rfl, rfl⟩

/-- A step for the content of an option fails at that content. -/
theorem exists_of_optionMapM_eq_error {f : α → Except ε β} {o : Option α}
    {fault : ε} (h : o.mapM f = .error fault) : ∃ a ∈ o, f a = .error fault := by
  cases o with
  | none => exact absurd h pure_ne_error
  | some a => exact ⟨a, rfl, map_eq_error.mp h⟩

/-- **A check of each element of a list fails** at the first element that does
not pass. -/
theorem exists_of_forM_eq_error {f : α → Except ε Unit} {xs : List α} {fault : ε}
    (h : xs.forM f = .error fault) :
    ∃ before x after, xs = before ++ x :: after
      ∧ (∀ y ∈ before, f y = .ok ()) ∧ f x = .error fault := by
  induction xs with
  | nil => exact absurd h pure_ne_error
  | cons x xs ih =>
    rcases bind_eq_error.mp (show (f x >>= fun _ => xs.forM f) = _ from h) with
      hx | ⟨⟨⟩, hx, hxs⟩
    · exact ⟨[], x, xs, rfl, fun _ hy => absurd hy List.not_mem_nil, hx⟩
    · obtain ⟨before, y, after, rfl, hbefore, hfault⟩ := ih hxs
      exact ⟨x :: before, y, after, rfl,
        List.forall_mem_cons.mpr ⟨hx, hbefore⟩, hfault⟩

/-! ## Lists side by side -/

theorem exists_right_of_forall₂ {R : α → β → Prop} {xs : List α} {ys : List β}
    (h : List.Forall₂ R xs ys) {x : α} (hx : x ∈ xs) : ∃ y ∈ ys, R x y := by
  induction h with
  | nil => exact absurd hx List.not_mem_nil
  | cons hxy _ ih =>
    rcases List.mem_cons.mp hx with rfl | hx
    · exact ⟨_, List.mem_cons_self, hxy⟩
    · obtain ⟨y, hy, hR⟩ := ih hx
      exact ⟨y, List.mem_cons_of_mem _ hy, hR⟩

theorem exists_left_of_forall₂ {R : α → β → Prop} {xs : List α} {ys : List β}
    (h : List.Forall₂ R xs ys) {y : β} (hy : y ∈ ys) : ∃ x ∈ xs, R x y :=
  exists_right_of_forall₂ h.flip hy

/-- Every element on the right has one partner for two relations. -/
theorem exists_left_of_forall₂_and {R S : α → β → Prop} {xs : List α}
    {ys : List β} (hR : List.Forall₂ R xs ys) (hS : List.Forall₂ S xs ys) {y : β}
    (hy : y ∈ ys) : ∃ x ∈ xs, R x y ∧ S x y := by
  induction hR with
  | nil => cases hy
  | cons hxy _ ih =>
    cases hS with | cons hxy' hS =>
    rcases List.mem_cons.mp hy with rfl | hy
    · exact ⟨_, List.mem_cons_self, hxy, hxy'⟩
    · obtain ⟨x, hx, hboth⟩ := ih hS hy
      exact ⟨x, List.mem_cons_of_mem _ hx, hboth⟩

/-- What follows for an element and its partner holds of all of them. -/
theorem forall₂_imp_of_mem {R S : α → β → Prop} {xs : List α} {ys : List β}
    (h : List.Forall₂ R xs ys) (himp : ∀ x ∈ xs, ∀ y, R x y → S x y) :
    List.Forall₂ S xs ys := by
  induction h with
  | nil => exact .nil
  | cons hxy _ ih =>
    refine .cons (himp _ List.mem_cons_self _ hxy) (ih fun x hx => ?_)
    exact himp x (List.mem_cons_of_mem _ hx)

/-- In lists of one length every element on the left has a partner. -/
theorem exists_mem_zip {xs : List α} {ys : List β} (h : xs.length = ys.length)
    {x : α} (hx : x ∈ xs) : ∃ y, (x, y) ∈ xs.zip ys := by
  have hzip : List.Forall₂ (fun x y => (x, y) ∈ xs.zip ys) xs ys :=
    List.forall₂_iff_zip.mpr ⟨h, fun hxy => hxy⟩
  obtain ⟨y, -, hxy⟩ := exists_right_of_forall₂ hzip hx
  exact ⟨y, hxy⟩

/-- In lists of one length every element on the right has a partner. -/
theorem exists_mem_zip_right {xs : List α} {ys : List β}
    (h : xs.length = ys.length) {y : β} (hy : y ∈ ys) :
    ∃ x, (x, y) ∈ xs.zip ys := by
  have hzip : List.Forall₂ (fun x y => (x, y) ∈ xs.zip ys) xs ys :=
    List.forall₂_iff_zip.mpr ⟨h, fun hxy => hxy⟩
  obtain ⟨x, -, hxy⟩ := exists_left_of_forall₂ hzip hy
  exact ⟨x, hxy⟩

/-- Lists that look alike look alike element by element. -/
theorem map_eq_map_iff_forall₂ {f : α → κ} {g : β → κ} {xs : List α}
    {ys : List β} :
    xs.map f = ys.map g ↔ List.Forall₂ (fun x y => f x = g y) xs ys := by
  rw [← List.forall₂_eq_eq_eq, List.forall₂_map_left_iff,
    List.forall₂_map_right_iff]

/-- Lists that look alike in two ways are equal, if these tell their elements
apart. -/
theorem eq_of_map_eq_map {γ : Type} {f : α → β} {g : α → γ} {xs ys : List α}
    (hf : xs.map f = ys.map f) (hg : xs.map g = ys.map g)
    (hinj : ∀ x y, f x = f y → g x = g y → x = y) : xs = ys := by
  induction xs generalizing ys with
  | nil => exact (List.map_eq_nil_iff.mp hf.symm).symm
  | cons x xs ih =>
    cases ys with
    | nil => cases hf
    | cons y ys =>
      simp only [List.map_cons, List.cons.injEq] at hf hg
      rw [hinj x y hf.1 hg.1, ih hf.2 hg.2]

/-- Two elements of a list, one after the other, come from two elements of a list
that looks alike. -/
theorem exists_pair_of_map_eq {f : α → κ} {g : β → κ} {xs : List α} {ys : List β}
    (h : xs.map f = ys.map g) {x y : α} (hboth : [x, y].Sublist xs) :
    ∃ a b, [a, b].Sublist ys ∧ g a = f x ∧ g b = f y := by
  have hmap : ([x, y].map f).Sublist (ys.map g) := h ▸ hboth.map f
  obtain ⟨pair, hpair, heq⟩ := List.sublist_map_iff.mp hmap
  have hlength : pair.length = 2 := by simpa using (congrArg List.length heq).symm
  obtain ⟨a, b, rfl⟩ := List.length_eq_two.mp hlength
  simp only [List.map_cons, List.map_nil, List.cons.injEq, and_true] at heq
  exact ⟨a, b, hpair, heq.1.symm, heq.2.symm⟩

/-- Two lists that belong to one list, in ways that determine how their elements
look, look alike. -/
theorem map_eq_map_of_forall₂ {γ : Type} {R : α → β → Prop} {S : α → γ → Prop}
    {xs : List α} {ys : List β} {zs : List γ} {f : β → κ} {g : γ → κ}
    (hR : List.Forall₂ R xs ys) (hS : List.Forall₂ S xs zs)
    (hRS : ∀ x y z, R x y → S x z → f y = g z) : ys.map f = zs.map g := by
  induction hR generalizing zs with
  | nil =>
    cases hS
    rfl
  | cons hxy _ ih =>
    cases hS with | cons hxz hS =>
    rw [List.map_cons, List.map_cons, hRS _ _ _ hxy hxz, ih hS]

/-- Two lists that belong to one list, in ways that determine their elements,
are equal. -/
theorem eq_of_forall₂ {R S : α → β → Prop} {xs : List α} {ys zs : List β}
    (hR : List.Forall₂ R xs ys) (hS : List.Forall₂ S xs zs)
    (hRS : ∀ x y z, R x y → S x z → y = z) : ys = zs := by
  have hmap := map_eq_map_of_forall₂ (f := id) (g := id) hR hS hRS
  rwa [List.map_id, List.map_id] at hmap

/-- Lists made of the elements of lists that belong together. -/
theorem flatMap_eq_of_forall₂ {R : α → β → Prop} {xs : List α} {ys : List β}
    (h : List.Forall₂ R xs ys) {f : α → List κ} {g : β → List κ}
    (hfg : ∀ x y, R x y → g y = f x) : ys.flatMap g = xs.flatMap f := by
  induction h with
  | nil => rfl
  | cons hxy _ ih => rw [List.flatMap_cons, List.flatMap_cons, hfg _ _ hxy, ih]

/-- Lists made of the contents of options that look alike. -/
theorem map_getD_eq_of_map_eq {γ δ : Type} {o : Option α} {o' : Option β}
    {f : α → κ} {f' : β → κ} (h : o.map f = o'.map f') {g : α → List γ}
    {g' : β → List δ} {r : γ → δ} (hg : ∀ a b, f a = f' b → (g a).map r = g' b) :
    ((o.map g).getD []).map r = (o'.map g').getD [] := by
  cases o with
  | none =>
    cases o' with
    | none => rfl
    | some b => cases h
  | some a =>
    cases o' with
    | none => cases h
    | some b => exact hg a b (Option.some.inj h)

/-! ## Tables -/

/-- **Looking up a key** in a table whose keys are all different. -/
theorem lookup_eq_some_iff_mem [BEq κ] [LawfulBEq κ] {table : List (κ × β)}
    (distinct : (table.map Prod.fst).Nodup) {k : κ} {b : β} :
    table.lookup k = some b ↔ (k, b) ∈ table := by
  induction table with
  | nil => simp
  | cons entry table ih =>
    obtain ⟨j, a⟩ := entry
    rw [List.map_cons, List.nodup_cons] at distinct
    rw [List.lookup_cons, List.mem_cons, Prod.mk.injEq]
    by_cases hkj : k = j
    · subst hkj
      have hnot : (k, b) ∉ table := fun hmem =>
        distinct.1 (List.mem_map.mpr ⟨(k, b), hmem, rfl⟩)
      simp [hnot, eq_comm]
    · have hne : (k == j) = false := beq_false_of_ne hkj
      simp [hne, hkj, ih distinct.2]

theorem lookup_isSome_iff_mem [BEq κ] [LawfulBEq κ] {table : List (κ × β)}
    {k : κ} : (table.lookup k).isSome = true ↔ k ∈ table.map Prod.fst := by
  rw [List.lookup_isSome_iff, List.mem_map]
  exact exists_congr fun p => and_congr_right fun _ => beq_iff_eq.trans eq_comm

theorem mem_of_lookup_eq_some [BEq κ] [LawfulBEq κ] {table : List (κ × β)} {k : κ}
    {b : β} (h : table.lookup k = some b) : (k, b) ∈ table := by
  obtain ⟨before, after, hsplit, -⟩ := List.lookup_eq_some_iff.mp h
  rw [hsplit]
  exact List.mem_append_right _ List.mem_cons_self

/-- **Finding an element by a key** that no other element has. -/
theorem find?_eq_some_of_mem [BEq κ] [LawfulBEq κ] {key : α → κ} {xs : List α}
    (distinct : (xs.map key).Nodup) {x : α} (hx : x ∈ xs) :
    xs.find? (fun y => key y == key x) = some x := by
  have hsome : (xs.find? fun y => key y == key x).isSome = true :=
    List.find?_isSome.mpr ⟨x, hx, beq_self_eq_true _⟩
  obtain ⟨y, hy⟩ := Option.isSome_iff_exists.mp hsome
  have hkey : key y = key x := by simpa using List.find?_some hy
  rw [hy, List.inj_on_of_nodup_map distinct (List.mem_of_find?_eq_some hy) hx
    hkey]

/-- Where the elements of a list have different keys, what is found by a key is the element
that has it. -/
theorem find?_eq_some_iff_of_nodup [BEq κ] [LawfulBEq κ] {key : α → κ} {xs : List α}
    (distinct : (xs.map key).Nodup) (k : κ) (x : α) :
    xs.find? (fun y => key y == k) = some x ↔ x ∈ xs ∧ key x = k := by
  constructor
  · intro h
    exact ⟨List.mem_of_find?_eq_some h, by simpa using List.find?_some h⟩
  · rintro ⟨hx, rfl⟩
    exact find?_eq_some_of_mem distinct hx

end Interlink
