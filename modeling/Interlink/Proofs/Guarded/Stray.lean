import Interlink.Proofs.Guarded.Basic

/-!
# References that stray

A handle is a mere number, and a type may come from anywhere. The handle of a bound
reference may then be that of another entity, or of none. A reference **strays** if it
is bound, but not to an entity of its name (`Scope.IsStray`).

Here following typedefs is written once more, this time watched: it stops apart at a
reference that strays (`Stop.stray`), and at each use of a handle there is a guard.
A watched computation **matches** a plain one (`Watched.Matches`) if no guard is
tripped, and if the plain one puts the blame on the reference where the watched one
stops at one. Following typedefs does so, whatever the type (`Watched.matches_dealias`).

Where the watched walk stops is said by rules too (`Scope.Meets`): a reference is met
if typedefs lead to it. Typedefs that lead to a reference that strays do not go round
in circles (`Scope.IsArena.acc_of_meets`), so the walk gets there, and it stops nowhere
else (`Watched.dealias_eq_stray`).
-/

namespace Interlink

/-! ## What references mean -/

namespace Scope

/-- **A reference denotes an entity** that has its name, and to which it is bound, if it
is bound. -/
def Denotes (s : Scope) (r : Reference EntityId) (id : EntityId) (e : Entity) : Prop :=
  s.entity? id = some e ∧ e.name = r.name ∧ (r.target = none ∨ r.target = some id)

/-- **A reference strays**: it is bound, but not to an entity of its name. -/
def IsStray (s : Scope) (r : Reference EntityId) : Prop :=
  ∃ id, r.target = some id ∧ ∀ e, s.entity? id = some e → e.name ≠ r.name

/-- **A reference is met** when the typedefs in front of a type are followed. -/
inductive Meets (s : Scope) : Ty → Reference EntityId → Prop
  | here (r : Reference EntityId) : Meets s (.named r) r
  | typedef {r r' : Reference EntityId} {id : EntityId} {e : Entity} {target : Ty}
      (denotes : s.Denotes r id e) (body : e.body = .typedef target)
      (next : Meets s target r') : Meets s (.named r) r'

/-- A typedef stands for a reference to another name. -/
def Leads (s : Scope) (a b : String) : Prop :=
  ∃ id e r j f, s.entity? id = some e ∧ e.name = a ∧ e.body = .typedef (.named r)
    ∧ s.Denotes r j f ∧ f.name = b

variable {s : Scope} {r r' : Reference EntityId} {id : EntityId} {e : Entity} {ty : Ty}

/-- A reference that strays denotes nothing. -/
theorem IsStray.not_denotes (h : s.IsStray r) : ¬ s.Denotes r id e := by
  rintro ⟨he, hname, hbound⟩
  obtain ⟨j, htarget, hstray⟩ := h
  rw [htarget] at hbound
  rcases hbound with hnone | hid
  · cases hnone
  · cases hid
    exact hstray e he hname

/-- **Typedefs that lead to a reference that strays come to an end.** -/
theorem IsArena.acc_of_meets (h : s.IsArena) (hmeets : s.Meets ty r) (hstray : s.IsStray r)
    (hty : ty = .named r') (hdenotes : s.Denotes r' id e) :
    Acc (fun b a => s.Leads a b) e.name := by
  induction hmeets generalizing r' id e with
  | here r =>
    cases hty
    exact absurd hdenotes hstray.not_denotes
  | @typedef r₀ _ j f target denotes body next ih =>
    cases hty
    refine .intro _ ?_
    rintro b ⟨k, g, r₁, i, g', hg, hname, hbody, hdenotes', rfl⟩
    -- the names are one, so the typedefs are
    obtain ⟨-, rfl⟩ := h.entity?_inj hg denotes.1
      ((hname.trans hdenotes.2.1).trans denotes.2.1.symm)
    rw [body] at hbody
    cases hbody
    exact ih hstray rfl hdenotes'

end Scope

/-! ## Watched computations -/

/-- **How a watched computation stops.** -/
inductive Stop (ε : Type) where
  /-- With a fault of its own. -/
  | fault (e : ε)
  /-- A reference is met that strays. -/
  | stray (r : Reference EntityId)
  /-- A guard is tripped. -/
  | defect (x : Defect)

/-- **A watched computation.** -/
abbrev Watched (ε α : Type) := Except (Stop ε) α

namespace Watched

open Guarded (Peeled peel)

variable {ε α β : Type} {s : Scope} {blame : Reference EntityId → ε}
  {P Q : Reference EntityId → Prop}

/-- A computation that does nothing that is watched. -/
def ofResult (x : Except ε α) : Watched ε α := x.mapError .fault

/-- A guarded computation that meets no reference. -/
def ofGuarded (x : Guarded α) : Watched CompileError α :=
  x.mapError fun
    | .fault e => .fault e
    | .defect x => .defect x

/-- A guard is tripped. -/
def trip (x : Defect) : Watched ε α := .error (.defect x)

/-- **A watched computation matches a plain one**: no guard is tripped, and where it stops
at a reference, it is one of those at which it may, and the plain one blames it. -/
inductive Matches (P : Reference EntityId → Prop) (blame : Reference EntityId → ε) :
    Watched ε α → Except ε α → Prop
  | ok (a : α) : Matches P blame (.ok a) (.ok a)
  | fault (e : ε) : Matches P blame (.error (.fault e)) (.error e)
  | stray {r : Reference EntityId} (strays : P r) :
      Matches P blame (.error (.stray r)) (.error (blame r))

/-! ## Rules -/

section Rules

variable {x : Except ε α} {x' : Watched ε α} {f : α → Except ε β} {f' : α → Watched ε β}

theorem matches_ofResult (x : Except ε α) : Matches P blame (ofResult x) x := by
  cases x with
  | error e => exact .fault e
  | ok a => exact .ok a

/-- A guarded computation in which no guard is tripped matches. -/
theorem matches_ofGuarded {blame : Reference EntityId → CompileError}
    {x : Except CompileError α} {x' : Guarded α} (h : x' = Guarded.ofResult x) :
    Matches P blame (ofGuarded x') x := by
  subst h
  cases x with
  | error e => exact .fault e
  | ok a => exact .ok a

namespace Matches

/-- **One step after the other.** The second one has to be compared only for what the
first one gives. -/
theorem bind (hx : Matches P blame x' x)
    (hf : ∀ a, x = .ok a → Matches P blame (f' a) (f a)) :
    Matches P blame (x' >>= f') (x >>= f) := by
  cases hx with
  | ok a => exact hf a rfl
  | fault e => exact .fault e
  | stray strays => exact .stray strays

theorem map (g : α → β) (hx : Matches P blame x' x) : Matches P blame (g <$> x') (g <$> x) := by
  cases hx with
  | ok a => exact .ok (g a)
  | fault e => exact .fault e
  | stray strays => exact .stray strays

/-- What the plain computation gives, the watched one gives. -/
theorem eq_ok {a : α} (h : Matches P blame x' (.ok a)) : x' = .ok a := by
  cases h
  rfl

/-- A reference at which the watched computation stops is blamed by the plain one. -/
theorem eq_blame {r : Reference EntityId} (h : Matches P blame (.error (.stray r)) x) :
    x = .error (blame r) := by
  cases h
  rfl

/-- A reference at which the watched computation stops is one of those where it may. -/
theorem strays {r : Reference EntityId} (h : Matches P blame (.error (.stray r)) x) : P r := by
  cases h with | stray strays =>
  exact strays

theorem imp (h : Matches P blame x' x) (himp : ∀ r, P r → Q r) : Matches Q blame x' x := by
  cases h with
  | ok a => exact .ok a
  | fault e => exact .fault e
  | stray strays => exact .stray (himp _ strays)

end Matches

end Rules

/-! ## References -/

variable {r : Reference EntityId} {referrer : String} {id : EntityId} {e : Entity} {ty : Ty}

/-- **The entity behind a handle.** -/
def entity (s : Scope) (id : EntityId) : Watched ε Entity :=
  match s.entity? id with
  | some e => .ok e
  | none => trip (.handle id)

theorem entity_eq (he : s.entity? id = some e) : entity s id = (.ok e : Watched ε Entity) := by
  unfold entity
  rw [he]

/-- The handle that a reference stands for. -/
def targetId (s : Scope) (r : Reference EntityId) (referrer : String) :
    Watched CompileError EntityId :=
  match r.target with
  | none =>
    match s.id? r.name with
    | some id => .ok id
    | none => .error (.fault (.unknown r.name referrer r.span))
  | some id =>
    match s.entity? id with
    | some e => if e.name = r.name then .ok id else .error (.stray r)
    | none => .error (.stray r)

/-- **What a reference stands for.** -/
def targetOf (s : Scope) (r : Reference EntityId) (referrer : String) :
    Watched CompileError (EntityId × Entity) := do
  let id ← targetId s r referrer
  return (id, ← entity s id)

/-- The fault that a reference is unknown. -/
def unknown (referrer : String) (r : Reference EntityId) : CompileError :=
  .unknown r.name referrer r.span

/-- **A reference is watched**, and it is the only one at which to stop. -/
theorem matches_targetOf (h : s.IsArena) (r : Reference EntityId) (referrer : String) :
    Matches (fun r' => r' = r ∧ s.IsStray r) (unknown referrer) (targetOf s r referrer)
      (s.targetOf r referrer) := by
  unfold targetOf targetId Scope.targetOf
  cases htarget : r.target with
  | none =>
    dsimp only
    unfold Scope.lookup Scope.named?
    cases hid : s.id? r.name with
    | none => exact .fault _
    | some id =>
      obtain ⟨e, he, -⟩ := h.id?_eq_some.mp hid
      simp only [Option.bind_some, he, Option.map_some, bind, Except.bind, entity_eq he]
      exact .ok (id, e)
  | some id =>
    dsimp only
    cases he : s.entity? id with
    | none => exact .stray ⟨rfl, id, htarget, fun e h => by rw [he] at h; cases h⟩
    | some e =>
      dsimp only
      by_cases hname : e.name = r.name
      · simp only [if_pos hname, bind, Except.bind, entity_eq he]
        exact .ok (id, e)
      · simp only [if_neg hname]
        refine .stray ⟨rfl, id, htarget, fun f hf => ?_⟩
        rw [he] at hf
        cases hf
        exact hname

/-- A reference that denotes an entity stands for it. -/
theorem targetOf_of_denotes (h : s.IsArena) (hdenotes : s.Denotes r id e) (referrer : String) :
    targetOf s r referrer = .ok (id, e) := by
  have hmatches := matches_targetOf h r referrer
  rw [h.targetOf_eq_ok.mpr hdenotes] at hmatches
  exact hmatches.eq_ok

/-- **A reference that strays is noticed.** -/
theorem targetOf_of_isStray (hstray : s.IsStray r) (referrer : String) :
    targetOf s r referrer = .error (.stray r) := by
  obtain ⟨id, htarget, hother⟩ := hstray
  unfold targetOf targetId
  rw [htarget]
  dsimp only
  cases he : s.entity? id with
  | none => rfl
  | some e =>
    dsimp only
    rw [if_neg (hother e he)]
    rfl

/-! ## Typedefs -/

def follow (s : Scope) (referrer : String) :
    (left : Nat) → Trail → Ty → Watched CompileError Peeled
  | left, t, .named r => do
    let (id, e) ← targetOf s r referrer
    match e.body with
    | .typedef target =>
      if t.contains id then ofGuarded (Guarded.circle s t id e)
      else
        match left with
        | 0 => trip .endless
        | left + 1 => follow s referrer left (id :: t) target
    | _ => .ok (.entity id e.kind)
  | _, _, ty => .ok (.type ty)

/-- **Typedefs are followed** without tripping a guard, and the walk stops only at a
reference that it meets and that strays. -/
theorem matches_follow (h : s.IsArena) (referrer : String) {left : Nat} {t : Trail}
    (ht : Guarded.Open s left t) (ty : Ty) :
    Matches (fun r => s.Meets ty r ∧ s.IsStray r) (unknown referrer)
      (follow s referrer left t ty) (peel <$> s.follow referrer left t ty) := by
  fun_induction s.follow referrer left t ty with
  | case1 | case2 | case3 | case4 =>
    simp only [follow]
    exact .ok _
  | case5 left t r fault htarget =>
    have hmatches := matches_targetOf h r referrer
    rw [htarget] at hmatches
    rw [follow]
    refine (hmatches.bind (f := fun _ => .error fault) fun _ hok => by cases hok).imp ?_
    rintro _ ⟨rfl, hstray⟩
    exact ⟨.here _, hstray⟩
  | case6 t r id e htarget target hbody =>
    -- no step is left, so the entity has been entered
    have hmem := (ht r.name).mem_of_no_step (Scope.entity?_of_targetOf htarget)
    rw [follow, targetOf_of_denotes h (h.targetOf_eq_ok.mp htarget)]
    simp only [hbody, bind, Except.bind, List.contains_iff_mem, hmem, if_true]
    exact matches_ofGuarded (Guarded.circle_eq ht id e)
  | case7 t r id e htarget target hbody left hmem =>
    rw [follow, targetOf_of_denotes h (h.targetOf_eq_ok.mp htarget)]
    simp only [hbody, bind, Except.bind, hmem, if_true]
    exact matches_ofGuarded (Guarded.circle_eq ht id e)
  | case8 t r id e htarget target hbody left hnew ih =>
    have hdenotes := h.targetOf_eq_ok.mp htarget
    rw [follow, targetOf_of_denotes h hdenotes]
    simp only [hbody, bind, Except.bind, hnew]
    refine (ih (ht.enter hdenotes.1 (by simpa using hnew))).imp fun r' hr' => ?_
    exact ⟨.typedef hdenotes hbody hr'.1, hr'.2⟩
  | case9 left t r id e htarget hbody =>
    rw [follow, targetOf_of_denotes h (h.targetOf_eq_ok.mp htarget)]
    simp only [bind, Except.bind]
    exact .ok _

def dealias (s : Scope) (ty : Ty) (referrer : String) : Watched CompileError Peeled :=
  follow s referrer s.steps [] ty

theorem matches_dealias (h : s.IsArena) (ty : Ty) (referrer : String) :
    Matches (fun r => s.Meets ty r ∧ s.IsStray r) (unknown referrer)
      (dealias s ty referrer) (peel <$> s.dealias ty referrer) :=
  matches_follow h referrer (Guarded.open_nil s) ty

/-- **A reference that is met stops the walk**, if it strays. A trail is asked for only where
a name denotes something. -/
theorem follow_of_meets (h : s.IsArena) (hmeets : s.Meets ty r) (hstray : s.IsStray r)
    (referrer : String) {left : Nat} {t : Trail}
    (hopen : ∀ r' id e, ty = .named r' → s.Denotes r' id e →
      s.OpenTrail s.Leads left t e.name) :
    follow s referrer left t ty = .error (.stray r) := by
  induction hmeets generalizing left t with
  | here r =>
    rw [follow, targetOf_of_isStray hstray]
    rfl
  | @typedef r₀ _ id e target denotes body next ih =>
    have hends := not_transGen_of_acc
      (h.acc_of_meets (.typedef denotes body next) hstray rfl denotes)
    obtain ⟨hnew, k, rfl, hnext⟩ := (hopen r₀ id e rfl denotes).enter hends denotes.1
    rw [follow, targetOf_of_denotes h denotes]
    simp only [body, bind, Except.bind, List.contains_iff_mem, hnew, if_false]
    refine ih hstray fun r' j f htarget hdenotes => hnext f.name ?_
    exact ⟨id, e, r', j, f, denotes.1, rfl, htarget ▸ body, hdenotes, rfl⟩

/-- **The walk stops at the reference that is met and strays**, and nowhere else. -/
theorem dealias_eq_stray (h : s.IsArena) (ty : Ty) (referrer : String) :
    dealias s ty referrer = .error (.stray r) ↔ s.Meets ty r ∧ s.IsStray r := by
  constructor
  · intro hstop
    have hmatches := matches_dealias h ty referrer
    rw [hstop] at hmatches
    exact hmatches.strays
  · rintro ⟨hmeets, hstray⟩
    exact follow_of_meets h hmeets hstray referrer fun _ _ _ _ _ => Scope.openTrail_nil

end Watched

end Interlink
