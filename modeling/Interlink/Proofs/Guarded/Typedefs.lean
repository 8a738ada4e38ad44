import Interlink.Proofs.Guarded.Basic

/-!
# Typedefs come to an end

`Scope.dealias` follows typedefs with a bound on its steps. Without the bound it is a
loop, and a turn of the loop looks at one type (`Scope.turn`): the type is an answer,
or it names a typedef, which is entered, and the next turn is for its target. Nothing
in a turn says that there is a last one.

Here the loop is taken as it is, in any scope whose symbols have the handles of
entities. Names may be there twice, and handles may come from another scope. What a
walk has entered are different typedefs of the scope (`Scope.Walks.entered`), so there
are never more of them than entities. The loop ends therefore, and it ends with what
`dealias` gives (`Scope.ends_iff`).

What that is can be said without a trail. A type **stands for** another if it names a
typedef of it (`Scope.StandsFor`). Such steps come to an end at a type that **yields** an
answer (`Scope.Yields`), or never. Since a type stands for one other type at most, steps
that come back to where they were never end, wherever they began
(`exists_step_of_cycle`).
-/

namespace Interlink

/-! ## Chains that come back -/

section Chains

variable {α : Type} {step : α → α → Prop} {a b c : α}

/-- **A chain that has come to an end was finite all along**, if each element leads to one
other at most. -/
theorem acc_of_reaches_end (unique : ∀ x y z, step x y → step x z → y = z)
    (hreaches : Relation.ReflTransGen step a c) (hend : ∀ y, ¬ step c y) :
    Acc (fun y x => step x y) a := by
  induction hreaches using Relation.ReflTransGen.head_induction_on with
  | refl => exact .intro _ fun y hy => absurd hy (hend y)
  | @head x y hxy _ ih =>
    refine .intro _ fun z hxz => ?_
    rw [← unique x y z hxy hxz]
    exact ih

/-- **A chain that comes back never ends.** -/
theorem exists_step_of_cycle (unique : ∀ x y z, step x y → step x z → y = z)
    (hreaches : Relation.ReflTransGen step a b) (hcycle : Relation.TransGen step b b)
    (hreaches' : Relation.ReflTransGen step a c) : ∃ y, step c y := by
  by_contra hend
  have hacc := acc_of_reaches_end unique hreaches' fun y hy => hend ⟨y, hy⟩
  have haccb : Acc (fun y x => step x y) b := by
    clear hcycle
    induction hreaches with
    | refl => exact hacc
    | tail _ hstep ih => exact ih.inv hstep
  exact not_transGen_of_acc haccb hcycle

end Chains

namespace Scope

variable {s : Scope} {r : Reference EntityId} {id : EntityId} {e : Entity}
  {ty ty' target : Ty} {t : Trail} {left left' : Nat} {referrer : String}
  {result : Except CompileError Shape}

/-! ## What a type stands for -/

/-- **A reference has a handle.** If it is not bound, it is the one that the symbols have for
its name. If it is bound, it is its own, but only if the entity behind that has its name. -/
def HasHandle (s : Scope) (r : Reference EntityId) (id : EntityId) : Prop :=
  match r.target with
  | none => s.id? r.name = some id
  | some bound => bound = id ∧ ∃ e, s.entity? id = some e ∧ e.name = r.name

/-- A reference names a typedef. -/
structure NamesTypedef (s : Scope) (r : Reference EntityId) (id : EntityId) (e : Entity)
    (target : Ty) : Prop where
  /-- It has a handle. -/
  handle : s.HasHandle r id
  /-- The entity behind the handle. -/
  held : s.entity? id = some e
  /-- It is a typedef. -/
  body : e.body = .typedef target

/-- **A type stands for another** if it names a typedef of it. -/
def StandsFor (s : Scope) (ty target : Ty) : Prop :=
  ∃ r id e, ty = .named r ∧ s.NamesTypedef r id e target

/-- **What a type yields** that stands for no other: a primitive type or a container yields
itself, the name of an entity that is no typedef yields the entity, and a name without a
handle yields the fault that it is unknown. -/
inductive Yields (s : Scope) (referrer : String) : Ty → Except CompileError Shape → Prop
  | primitive (p : Primitive) : Yields s referrer (.primitive p) (.ok (.primitive p))
  | list (element : Ty) : Yields s referrer (.list element) (.ok (.list element))
  | set (element : Ty) : Yields s referrer (.set element) (.ok (.set element))
  | map (key value : Ty) : Yields s referrer (.map key value) (.ok (.map key value))
  | entity {r : Reference EntityId} {id : EntityId} {e : Entity} (handle : s.HasHandle r id)
      (held : s.entity? id = some e) (other : ∀ target, e.body ≠ .typedef target) :
      Yields s referrer (.named r) (.ok (.entity id e))
  | unknown {r : Reference EntityId} (nothing : ∀ id, ¬ s.HasHandle r id) :
      Yields s referrer (.named r) (.error (.unknown r.name referrer r.span))

theorem HasHandle.unique {j : EntityId} (hid : s.HasHandle r id) (hj : s.HasHandle r j) :
    id = j := by
  unfold HasHandle at hid hj
  cases htarget : r.target with
  | none =>
    rw [htarget] at hid hj
    exact Option.some.inj (hid.symm.trans hj)
  | some bound =>
    rw [htarget] at hid hj
    exact hid.1.symm.trans hj.1

theorem StandsFor.unique (ty a b : Ty) (ha : s.StandsFor ty a) (hb : s.StandsFor ty b) :
    a = b := by
  obtain ⟨r, id, e, rfl, ha⟩ := ha
  obtain ⟨r', j, f, hr, hb⟩ := hb
  cases hr
  cases ha.handle.unique hb.handle
  have hef : some e = some f := ha.held.symm.trans hb.held
  cases hef
  exact Entity.Body.typedef.inj (ha.body.symm.trans hb.body)

/-- What yields an answer stands for nothing else. -/
theorem Yields.not_standsFor (h : s.Yields referrer ty result) : ¬ s.StandsFor ty target := by
  rintro ⟨r, j, f, hr, names⟩
  cases h with
  | entity handle held other =>
    cases hr
    cases handle.unique names.handle
    rw [names.held] at held
    cases held
    exact other target names.body
  | unknown nothing =>
    cases hr
    exact nothing j names.handle
  | _ => cases hr

/-- **A reference means the entity behind its handle.** -/
theorem targetOf_eq_ok_iff_hasHandle :
    s.targetOf r referrer = .ok (id, e) ↔ s.HasHandle r id ∧ s.entity? id = some e := by
  unfold HasHandle targetOf
  cases htarget : r.target with
  | none =>
    dsimp only
    rw [lookup_eq_ok, named?, Option.bind_eq_some_iff]
    simp only [Option.map_eq_some_iff, Prod.mk.injEq]
    constructor
    · rintro ⟨j, hj, f, hf, rfl, rfl⟩
      exact ⟨hj, hf⟩
    · rintro ⟨hid, he⟩
      exact ⟨id, hid, e, he, rfl, rfl⟩
  | some bound =>
    dsimp only
    constructor
    · intro h
      split at h
      next f hf =>
        split at h
        next hname =>
          cases h
          exact ⟨⟨rfl, e, hf, hname⟩, hf⟩
        next => cases h
      next => cases h
    · rintro ⟨⟨rfl, f, hf, hname⟩, he⟩
      rw [he] at hf
      cases hf
      rw [he]
      exact if_pos hname

/-- **A reference that means nothing has no handle**, if the handles of the symbols are
those of entities. -/
theorem SymbolsHeld.not_hasHandle (h : s.SymbolsHeld) {fault : CompileError}
    (herr : s.targetOf r referrer = .error fault) (id : EntityId) : ¬ s.HasHandle r id := by
  intro hid
  have hheld : ∃ e, s.entity? id = some e := by
    unfold HasHandle at hid
    split at hid
    · exact h.exists_entity hid
    · obtain ⟨-, e, he, -⟩ := hid
      exact ⟨e, he⟩
  obtain ⟨e, he⟩ := hheld
  rw [targetOf_eq_ok_iff_hasHandle.mpr ⟨hid, he⟩] at herr
  cases herr

/-- **A type yields an answer, or it names a typedef.** -/
theorem SymbolsHeld.yields_or_names (h : s.SymbolsHeld) (referrer : String) (ty : Ty) :
    (∃ result, s.Yields referrer ty result)
      ∨ ∃ r id e target, ty = .named r ∧ s.NamesTypedef r id e target := by
  cases ty with
  | primitive p => exact .inl ⟨_, .primitive p⟩
  | list element => exact .inl ⟨_, .list element⟩
  | set element => exact .inl ⟨_, .set element⟩
  | map key value => exact .inl ⟨_, .map key value⟩
  | named r =>
    cases htarget : s.targetOf r referrer with
    | error fault => exact .inl ⟨_, .unknown (h.not_hasHandle htarget)⟩
    | ok found =>
      obtain ⟨id, e⟩ := found
      obtain ⟨hid, he⟩ := targetOf_eq_ok_iff_hasHandle.mp htarget
      by_cases htypedef : ∃ target, e.body = .typedef target
      · obtain ⟨target, hbody⟩ := htypedef
        exact .inr ⟨r, id, e, target, rfl, hid, he, hbody⟩
      · exact .inl ⟨_, .entity hid he fun target hbody => htypedef ⟨target, hbody⟩⟩

/-! ## One step of following -/

/-- A name without a handle means nothing. -/
theorem targetOf_of_not_hasHandle (nothing : ∀ id, ¬ s.HasHandle r id) (referrer : String) :
    s.targetOf r referrer = .error (.unknown r.name referrer r.span) := by
  cases htarget : s.targetOf r referrer with
  | error fault => rw [eq_unknown_of_targetOf htarget]
  | ok found => exact absurd (targetOf_eq_ok_iff_hasHandle.mp htarget).1 (nothing found.1)

/-- The name of a typedef means the typedef. -/
theorem NamesTypedef.targetOf_eq (names : s.NamesTypedef r id e target) (referrer : String) :
    s.targetOf r referrer = .ok (id, e) :=
  targetOf_eq_ok_iff_hasHandle.mpr ⟨names.handle, names.held⟩

/-- **Following stops at a type that yields an answer**, whatever was entered before. -/
theorem Yields.follow_eq (h : s.Yields referrer ty result) :
    s.follow referrer left t ty = result := by
  cases h with
  | primitive p => rw [follow]
  | list element => rw [follow]
  | set element => rw [follow]
  | map key value => rw [follow]
  | @entity r id e handle held other =>
    rw [follow, targetOf_eq_ok_iff_hasHandle.mpr ⟨handle, held⟩]
    cases hbody : e.body with
    | typedef target => exact absurd hbody (other target)
    | _ => simp only [hbody]
  | unknown nothing => rw [follow, targetOf_of_not_hasHandle nothing]

/-- A typedef that was entered before closes a circle. -/
theorem NamesTypedef.follow_of_mem (names : s.NamesTypedef r id e target) (again : id ∈ t) :
    s.follow referrer left t (.named r) = .error (s.circle t id e) := by
  cases left with
  | zero => simp only [follow, names.targetOf_eq, names.body]
  | succ left =>
    simp only [follow, names.targetOf_eq, names.body, List.contains_iff_mem, again, if_true]

/-- Any other is entered. -/
theorem NamesTypedef.follow_of_not_mem (names : s.NamesTypedef r id e target)
    (fresh : id ∉ t) :
    s.follow referrer (left + 1) t (.named r) = s.follow referrer left (id :: t) target := by
  simp only [follow, names.targetOf_eq, names.body, List.contains_iff_mem, fresh, if_false]

/-- **While a typedef is left that was not entered, a step is left.** -/
theorem exists_left_eq_succ (ht : Guarded.Open s left t) (held : s.entity? id = some e)
    (fresh : id ∉ t) : ∃ k, left = k + 1 := by
  cases left with
  | zero => exact absurd ((ht e.name).mem_of_no_step held) fresh
  | succ k => exact ⟨k, rfl⟩

/-- **The answer does not depend on the number of steps**, as long as there are enough of
them. -/
theorem SymbolsHeld.follow_eq_of_open (h : s.SymbolsHeld) (ht : Guarded.Open s left t)
    (ht' : Guarded.Open s left' t) :
    s.follow referrer left t ty = s.follow referrer left' t ty := by
  induction left using Nat.strong_induction_on generalizing left' t ty with
  | _ left ih =>
    rcases h.yields_or_names referrer ty with
      ⟨result, yields⟩ | ⟨r, id, e, target, rfl, names⟩
    · rw [yields.follow_eq, yields.follow_eq]
    · by_cases again : id ∈ t
      · rw [names.follow_of_mem again, names.follow_of_mem again]
      · obtain ⟨k, rfl⟩ := exists_left_eq_succ ht names.held again
        obtain ⟨k', rfl⟩ := exists_left_eq_succ ht' names.held again
        rw [names.follow_of_not_mem again, names.follow_of_not_mem again]
        exact ih k (Nat.lt_succ_self k) (ht.enter names.held again)
          (ht'.enter names.held again)

/-! ## The loop -/

/-- **What a turn of the loop comes to**, unless it fails. -/
inductive Turn where
  /-- The answer. -/
  | done (shape : Shape)
  /-- A typedef is entered, and the next turn is for its target. -/
  | enter (id : EntityId) (target : Ty)

/-- **A turn of the loop** at a type, with the typedefs that were entered before. The
entity behind a handle is taken to be there. -/
def turn (s : Scope) (referrer : String) (t : Trail) : Ty → Guarded Turn
  | .primitive p => .ok (.done (.primitive p))
  | .list element => .ok (.done (.list element))
  | .set element => .ok (.done (.set element))
  | .map key value => .ok (.done (.map key value))
  | .named r => do
    let (id, e) ← Guarded.targetOf s r referrer
    match e.body with
    | .typedef target =>
      if t.contains id then Guarded.circle s t id e else .ok (.enter id target)
    | _ => .ok (.done (.entity id e))

/-- **A walk** of the loop that began at a type: the typedefs that it has entered, the last
one first, and the type that it has come to. -/
inductive Walks (s : Scope) (referrer : String) (ty : Ty) : Trail → Ty → Prop
  | start : Walks s referrer ty [] ty
  | enter {t : Trail} {ty' target : Ty} {id : EntityId} (walk : Walks s referrer ty t ty')
      (turn : s.turn referrer t ty' = .ok (.enter id target)) :
      Walks s referrer ty (id :: t) target

/-- **The loop ends with a result**: it has come to a last turn, and no guard is tripped
there. -/
def Ends (s : Scope) (referrer : String) (ty : Ty) (result : Except CompileError Shape) :
    Prop :=
  ∃ t ty', s.Walks referrer ty t ty'
    ∧ s.turn referrer t ty' = Turn.done <$> Guarded.ofResult result

/-- Results that are told apart are told apart at the last turn. -/
theorem done_ofResult_inj {a b : Except CompileError Shape}
    (hab : Turn.done <$> Guarded.ofResult a = Turn.done <$> Guarded.ofResult b) : a = b := by
  cases a <;> cases b <;> cases hab <;> rfl

section Turns

variable (h : s.SymbolsHeld)
include h

/-- The loop stops at a type that yields an answer. -/
theorem Yields.turn_eq (yields : s.Yields referrer ty result) :
    s.turn referrer t ty = Turn.done <$> Guarded.ofResult result := by
  cases yields with
  | primitive p => rfl
  | list element => rfl
  | set element => rfl
  | map key value => rfl
  | @entity r id e handle held other =>
    rw [turn, Guarded.targetOf_eq h, targetOf_eq_ok_iff_hasHandle.mpr ⟨handle, held⟩]
    simp only [Guarded.ofResult_ok, bind, Except.bind]
    cases hbody : e.body with
    | typedef target => exact absurd hbody (other target)
    | _ => rfl
  | unknown nothing =>
    rw [turn, Guarded.targetOf_eq h, targetOf_of_not_hasHandle nothing]
    rfl

/-- The loop stops at a typedef that was entered before. -/
theorem NamesTypedef.turn_of_mem (names : s.NamesTypedef r id e target)
    (ht : Guarded.Open s left t) (again : id ∈ t) :
    s.turn referrer t (.named r) = .error (.fault (s.circle t id e)) := by
  rw [turn, Guarded.targetOf_eq h, names.targetOf_eq]
  simp only [Guarded.ofResult_ok, bind, Except.bind, names.body, List.contains_iff_mem, again,
    if_true]
  exact Guarded.circle_eq ht id e

/-- The loop enters any other. -/
theorem NamesTypedef.turn_of_not_mem (names : s.NamesTypedef r id e target)
    (fresh : id ∉ t) : s.turn referrer t (.named r) = .ok (.enter id target) := by
  rw [turn, Guarded.targetOf_eq h, names.targetOf_eq]
  simp only [Guarded.ofResult_ok, bind, Except.bind, names.body, List.contains_iff_mem, fresh,
    if_false]

/-- **A turn enters only a typedef that was not entered before.** -/
theorem names_of_turn (ht : Guarded.Open s left t)
    (hturn : s.turn referrer t ty = .ok (.enter id target)) :
    ∃ r e, ty = .named r ∧ s.NamesTypedef r id e target ∧ id ∉ t := by
  rcases h.yields_or_names referrer ty with
    ⟨result, yields⟩ | ⟨r, j, e, target', rfl, names⟩
  · rw [yields.turn_eq h] at hturn
    cases result <;> cases hturn
  · by_cases again : j ∈ t
    · rw [names.turn_of_mem h ht again] at hturn
      cases hturn
    · rw [names.turn_of_not_mem h again] at hturn
      cases hturn
      exact ⟨r, e, rfl, names, again⟩

/-- **A last turn** is at a type that yields the result, or at a typedef that was entered
before. -/
theorem result_of_turn (ht : Guarded.Open s left t)
    (hturn : s.turn referrer t ty = Turn.done <$> Guarded.ofResult result) :
    s.Yields referrer ty result
      ∨ ∃ r id e target, ty = .named r ∧ s.NamesTypedef r id e target ∧ id ∈ t
        ∧ result = .error (s.circle t id e) := by
  rcases h.yields_or_names referrer ty with
    ⟨result', yields⟩ | ⟨r, id, e, target, rfl, names⟩
  · rw [yields.turn_eq h] at hturn
    exact .inl (done_ofResult_inj hturn ▸ yields)
  · by_cases again : id ∈ t
    · rw [names.turn_of_mem h ht again] at hturn
      exact .inr ⟨r, id, e, target, rfl, names, again, done_ofResult_inj hturn.symm⟩
    · rw [names.turn_of_not_mem h again] at hturn
      cases result <;> cases hturn

end Turns

/-! ## Walks -/

/-- **What a walk has entered**: different typedefs of the scope, each of which is passed on
the way from the type where the walk began to the one that it has come to. -/
structure Entered (s : Scope) (ty : Ty) (t : Trail) (ty' : Ty) : Prop where
  /-- No typedef was entered twice. -/
  nodup : t.Nodup
  /-- The typedefs are passed on the way. -/
  passed : ∀ id ∈ t, ∃ e target, s.entity? id = some e ∧ e.body = .typedef target
    ∧ Relation.ReflTransGen s.StandsFor ty target
    ∧ Relation.ReflTransGen s.StandsFor target ty'
  /-- The way. -/
  reaches : Relation.ReflTransGen s.StandsFor ty ty'

theorem entered_nil (s : Scope) (ty : Ty) : s.Entered ty [] ty :=
  ⟨List.nodup_nil, fun _ hid => absurd hid List.not_mem_nil, .refl⟩

namespace Entered

theorem enter (h : s.Entered ty t (.named r)) (names : s.NamesTypedef r id e target)
    (fresh : id ∉ t) : s.Entered ty (id :: t) target := by
  have hstands : s.StandsFor (.named r) target := ⟨r, id, e, rfl, names⟩
  refine ⟨List.nodup_cons.mpr ⟨fresh, h.nodup⟩, List.forall_mem_cons.mpr ⟨?_, ?_⟩,
    h.reaches.tail hstands⟩
  · exact ⟨e, target, names.held, names.body, h.reaches.tail hstands, .refl⟩
  · intro j hj
    obtain ⟨f, passed, hf, hbody, hbefore, hafter⟩ := h.passed j hj
    exact ⟨f, passed, hf, hbody, hbefore, hafter.tail hstands⟩

/-- The walk can be gone on, with steps for all that was not entered. -/
theorem isOpen (h : s.Entered ty t ty') (room : s.steps ≤ left + t.length) :
    Guarded.Open s left t := by
  refine fun name => ⟨h.nodup, room, fun id hid => ?_, ?_⟩
  · obtain ⟨e, -, he, -⟩ := h.passed id hid
    exact ⟨e, he⟩
  · -- nothing is asked of the names
    generalize t.map s.nameOf = names
    induction names generalizing name with
    | nil => exact .singleton name
    | cons next names ih => exact .cons_cons trivial (ih next)

/-- There are at most as many typedefs as entities. -/
theorem length_le (h : s.Entered ty t ty') : t.length ≤ s.steps := by
  refine length_le_steps h.nodup fun id hid => ?_
  obtain ⟨e, -, he, -⟩ := h.passed id hid
  exact ⟨e, he⟩

end Entered

section Loop

variable (h : s.SymbolsHeld)
include h

/-- **A walk enters no typedef twice**, and none that is not on its way. -/
theorem Walks.entered (walk : s.Walks referrer ty t ty') : s.Entered ty t ty' := by
  induction walk with
  | start => exact entered_nil s ty
  | enter walk hturn ih =>
    obtain ⟨r, e, rfl, names, fresh⟩ :=
      names_of_turn h (ih.isOpen (Nat.le_add_right _ _)) hturn
    exact ih.enter names fresh

/-- **The loop comes to its end** from wherever it is, with what following gives there. -/
theorem Walks.ends_follow (walk : s.Walks referrer ty t ty')
    (room : s.steps ≤ left + t.length) :
    s.Ends referrer ty (s.follow referrer left t ty') := by
  -- a walk that is longer by one typedef has one step less
  induction left using Nat.strong_induction_on generalizing t ty' with
  | _ left ih =>
    have ht : Guarded.Open s left t := (walk.entered h).isOpen room
    rcases h.yields_or_names referrer ty' with
      ⟨result, yields⟩ | ⟨r, id, e, target, rfl, names⟩
    · refine ⟨t, ty', walk, ?_⟩
      rw [yields.follow_eq, yields.turn_eq h]
    · by_cases again : id ∈ t
      · refine ⟨t, .named r, walk, ?_⟩
        rw [names.follow_of_mem again, names.turn_of_mem h ht again]
        rfl
      · obtain ⟨k, rfl⟩ := exists_left_eq_succ ht names.held again
        rw [names.follow_of_not_mem again]
        refine ih k (Nat.lt_succ_self k) (walk.enter (names.turn_of_not_mem h again)) ?_
        rw [List.length_cons]
        omega

/-- **What following gives is the same all along a walk.** -/
theorem Walks.dealias_eq (walk : s.Walks referrer ty t ty')
    (room : s.steps ≤ left + t.length) :
    s.dealias ty referrer = s.follow referrer left t ty' := by
  induction walk generalizing left with
  | start =>
    exact h.follow_eq_of_open (Guarded.open_nil s) ((entered_nil s ty).isOpen room)
  | enter walk hturn ih =>
    obtain ⟨r, e, rfl, names, fresh⟩ :=
      names_of_turn h ((walk.entered h).isOpen (Nat.le_add_right _ _)) hturn
    rw [← names.follow_of_not_mem fresh]
    refine ih ?_
    rw [List.length_cons] at room
    omega

/-- **The loop ends with what `dealias` gives**, and with nothing else. -/
theorem ends_iff : s.Ends referrer ty result ↔ result = s.dealias ty referrer := by
  constructor
  · rintro ⟨t, ty', walk, hturn⟩
    have hroom : s.steps ≤ s.steps + t.length := Nat.le_add_right _ _
    rw [walk.dealias_eq h hroom]
    rcases result_of_turn h ((walk.entered h).isOpen hroom) hturn with
      yields | ⟨r, id, e, target, rfl, names, again, rfl⟩
    · rw [yields.follow_eq]
    · rw [names.follow_of_mem again]
  · rintro rfl
    exact Walks.start.ends_follow h (Nat.le_add_right _ _)

/-- **Where the loop ends**: typedefs lead to a type that yields the result, or they lead into
a circle. -/
theorem Ends.cases (hends : s.Ends referrer ty result) :
    (∃ ty', Relation.ReflTransGen s.StandsFor ty ty' ∧ s.Yields referrer ty' result)
      ∨ ∃ t id e target, result = .error (s.circle t id e)
        ∧ Relation.ReflTransGen s.StandsFor ty target
        ∧ Relation.TransGen s.StandsFor target target := by
  obtain ⟨t, ty', walk, hturn⟩ := hends
  have hentered := walk.entered h
  rcases result_of_turn h (hentered.isOpen (Nat.le_add_right _ _)) hturn with
    yields | ⟨r, id, e, target, rfl, names, again, rfl⟩
  · exact .inl ⟨ty', hentered.reaches, yields⟩
  · -- the walk has passed the target of the typedef, and is about to pass it again
    obtain ⟨f, passed, hf, hbody, hbefore, hafter⟩ := hentered.passed id again
    cases Option.some.inj (names.held.symm.trans hf)
    cases Entity.Body.typedef.inj (names.body.symm.trans hbody)
    exact .inr ⟨t, id, e, target, rfl, hbefore, .tail' hafter ⟨r, id, e, rfl, names⟩⟩

/-- **A circle is reported exactly if no type on the way yields an answer.** -/
theorem dealias_eq_circular_iff :
    (∃ name chain span, s.dealias ty referrer = .error (.circular name chain span)) ↔
      ∀ ty', Relation.ReflTransGen s.StandsFor ty ty' →
        ∀ result, ¬ s.Yields referrer ty' result := by
  rcases Ends.cases h ((ends_iff h).mpr rfl) with
    ⟨ty', hreaches, yields⟩ | ⟨t, id, e, target, hcircle, hreaches, hcycle⟩
  · refine ⟨?_, fun hnever => absurd yields (hnever ty' hreaches _)⟩
    rintro ⟨name, chain, span, hcircular⟩
    rw [hcircular] at yields
    cases yields
  · refine ⟨fun _ ty' hreaches' result yields => ?_, fun _ => ⟨_, _, _, hcircle⟩⟩
    obtain ⟨next, hnext⟩ :=
      exists_step_of_cycle StandsFor.unique hreaches hcycle hreaches'
    exact yields.not_standsFor hnext

/-- **A typedef is dealiased as a reference to it is**, which is then blamed on the
typedef. -/
theorem NamesTypedef.dealiasEntity_eq (names : s.NamesTypedef r id e target) :
    s.dealiasEntity id e = s.dealias (.named r) e.name := by
  have hnew : id ∉ ([] : Trail) := List.not_mem_nil
  obtain ⟨k, hk⟩ := exists_left_eq_succ (Guarded.open_nil s) names.held hnew
  have hopen : Guarded.Open s k [id] :=
    Guarded.Open.enter (hk ▸ Guarded.open_nil s) names.held hnew
  unfold dealiasEntity
  simp only [names.body]
  calc s.follow e.name s.steps [id] target
      = s.follow e.name k [id] target :=
        h.follow_eq_of_open (fun _ => chainedTrail_singleton names.held trivial) hopen
    _ = s.follow e.name (k + 1) [] (.named r) := (names.follow_of_not_mem hnew).symm
    _ = s.dealias (.named r) e.name := by rw [dealias, hk]

end Loop

/-- **Following typedefs terminates with a normal form**, in every scope whose symbols have
the handles of entities.

* A walk of the loop never enters a typedef twice, nor more typedefs than there are
  entities.
* The loop ends with what `dealias` gives, and with nothing else.
* That is the answer of the type to which the typedefs lead – a primitive type, a
  container, an entity that is no typedef, or the fault that a name is unknown –, or the
  fault of a circle.
* It is a circle exactly if the typedefs never lead to such a type.
* A typedef and a reference to it have the same shape. -/
theorem dealias_settles (h : s.SymbolsHeld) (ty : Ty) (referrer : String) :
    (∀ t ty', s.Walks referrer ty t ty' →
      t.Nodup ∧ t.length ≤ s.entities.length
        ∧ ∀ id ∈ t, ∃ e target, s.entity? id = some e ∧ e.body = .typedef target)
    ∧ (∀ result, s.Ends referrer ty result ↔ result = s.dealias ty referrer)
    ∧ ((∃ ty', Relation.ReflTransGen s.StandsFor ty ty'
          ∧ s.Yields referrer ty' (s.dealias ty referrer))
        ∨ ∃ name chain span, s.dealias ty referrer = .error (.circular name chain span))
    ∧ ((∃ name chain span, s.dealias ty referrer = .error (.circular name chain span)) ↔
        ∀ ty', Relation.ReflTransGen s.StandsFor ty ty' →
          ∀ result, ¬ s.Yields referrer ty' result)
    ∧ ∀ r id e target, s.NamesTypedef r id e target → ∀ shape,
        s.dealiasEntity id e = .ok shape ↔ s.dealias (.named r) referrer = .ok shape := by
  refine ⟨fun t ty' walk => ?_, fun result => ends_iff h, ?_, dealias_eq_circular_iff h,
    fun r id e target names shape => ?_⟩
  · have hentered := walk.entered h
    refine ⟨hentered.nodup, hentered.length_le, fun id hid => ?_⟩
    obtain ⟨e, target, he, hbody, -⟩ := hentered.passed id hid
    exact ⟨e, target, he, hbody⟩
  · rcases Ends.cases h ((ends_iff h).mpr rfl) with
      hyields | ⟨t, id, e, target, hcircle, -⟩
    · exact .inl hyields
    · exact .inr ⟨_, _, _, hcircle⟩
  · rw [names.dealiasEntity_eq h]
    exact ⟨dealias_of_referrer, dealias_of_referrer⟩

/-- A scope with a circle of two typedefs, and one that leads into it. -/
def lasso : Scope where
  name := "lasso"
  entities :=
    [⟨"A", ⟨1, 1⟩, false, .typedef (.named ⟨"B", ⟨1, 9⟩, none⟩)⟩,
      ⟨"B", ⟨2, 1⟩, false, .typedef (.named ⟨"C", ⟨2, 9⟩, some 2⟩)⟩,
      ⟨"C", ⟨3, 1⟩, false, .typedef (.named ⟨"B", ⟨3, 9⟩, none⟩)⟩]
  symbols := [("A", 0), ("B", 1), ("C", 2)]

/-- From outside the circle of `lasso` the circle is reported, and no type on the way yields
an answer. -/
theorem dealias_settles_lasso :
    lasso.SymbolsHeld
      ∧ lasso.dealias (.named ⟨"A", ⟨9, 1⟩, none⟩) "user"
        = .error (.circular "B" ["B", "C", "B"] ⟨2, 1⟩)
      ∧ ∀ ty', Relation.ReflTransGen lasso.StandsFor (.named ⟨"A", ⟨9, 1⟩, none⟩) ty' →
          ∀ result, ¬ lasso.Yields "user" ty' result := by
  have hheld : lasso.SymbolsHeld := by
    intro x hx
    simp only [lasso, List.mem_cons, List.not_mem_nil, or_false] at hx
    rcases hx with rfl | rfl | rfl <;> exact ⟨_, rfl⟩
  have hcircular : lasso.dealias (.named ⟨"A", ⟨9, 1⟩, none⟩) "user"
      = .error (.circular "B" ["B", "C", "B"] ⟨2, 1⟩) := by rfl
  obtain ⟨-, -, -, hiff, -⟩ :=
    dealias_settles hheld (.named ⟨"A", ⟨9, 1⟩, none⟩) "user"
  exact ⟨hheld, hcircular, hiff.mp ⟨_, _, _, hcircular⟩⟩

end Scope

end Interlink
