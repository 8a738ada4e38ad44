import Mathlib.Data.List.Perm.Subperm
import Interlink.Proofs.Scope.Models

/-!
# Following typedefs

`Scope.dealias` follows typedefs along a trail, with steps that may run out;
`Document.Reaches` says by rules what is left when they are followed. The two
agree: what `dealias` finds is reached (`dealias_sound`), and what is reached is
found (`dealias_complete`), since typedefs that reach something do not go round
in circles (`acc_of_reaches`).

## Trails that stay open

A walk fails only where it comes back to an entity that it has entered. An
**open trail** (`Scope.OpenTrail`) is one all of whose entities lead to the name
that is met next. If that name does not lead back to itself, its entity has not
been entered, there is a step left for it, and the trail stays open
(`OpenTrail.enter`). Typedefs, constants and services are all followed along
such trails.
-/

namespace Interlink

/-- An element all of whose chains end does not lead back to itself. -/
theorem not_transGen_of_acc {α : Type} {step : α → α → Prop} {a : α}
    (h : Acc (fun b a => step a b) a) : ¬ Relation.TransGen step a a := by
  induction h with
  | intro a _ ih =>
    intro hcycle
    obtain ⟨b, hab, hba⟩ := Relation.TransGen.head'_iff.mp hcycle
    exact ih b hab (.tail' hba hab)

/-- A relation all of whose chains end never comes back. -/
theorem acyclic_of_acc {α : Type} {step : α → α → Prop}
    (h : ∀ a, Acc (fun b a => step a b) a) : Acyclic step :=
  fun a => not_transGen_of_acc (h a)

namespace Scope

variable {s s' : Scope} {d : Document} {id : EntityId} {e : Entity}

/-! ## Trails -/

theorem nameOf_eq (he : s.entity? id = some e) : s.nameOf id = e.name := by
  unfold nameOf
  rw [he]

/-- **An open trail** to a name: its entities are different and lead to the
name, and there are steps left for all others. -/
structure OpenTrail (s : Scope) (step : String → String → Prop) (left : Nat)
    (t : Trail) (name : String) : Prop where
  /-- No entity was entered twice. -/
  nodup : t.Nodup
  /-- There are steps for the entities that were not entered. -/
  room : s.steps ≤ left + t.length
  /-- Each entity leads to the name. -/
  leads : ∀ id ∈ t, ∃ e, s.entity? id = some e
    ∧ Relation.TransGen step e.name name

theorem openTrail_nil {step : String → String → Prop} {name : String} :
    s.OpenTrail step s.steps [] name :=
  ⟨List.nodup_nil, Nat.le_add_right _ _, fun _ h => absurd h List.not_mem_nil⟩

/-- Different handles of one scope are at most as many as its entities. -/
theorem length_le_steps {t : Trail} (hnodup : t.Nodup)
    (hheld : ∀ id ∈ t, ∃ e, s.entity? id = some e) : t.length ≤ s.steps := by
  have hsub : t ⊆ List.range s.steps := by
    intro j hj
    obtain ⟨f, hf⟩ := hheld j hj
    exact List.mem_range.mpr (List.getElem?_eq_some_iff.mp hf).1
  have hle := (hnodup.subperm hsub).length_le
  rwa [List.length_range] at hle

/-- **An open trail can be continued**: the entity that is met is new, there
is a step left for it, and the trail with it is open to all that it leads
to. -/
theorem OpenTrail.enter {step : String → String → Prop} {left : Nat} {t : Trail}
    (h : s.OpenTrail step left t e.name)
    (hends : ¬ Relation.TransGen step e.name e.name)
    (he : s.entity? id = some e) :
    id ∉ t ∧ ∃ k, left = k + 1 ∧ ∀ name, step e.name name →
      s.OpenTrail step k (id :: t) name := by
  have hnew : id ∉ t := by
    intro hmem
    obtain ⟨f, hf, hleads⟩ := h.leads id hmem
    rw [he] at hf
    cases hf
    exact hends hleads
  have hnodup : (id :: t).Nodup := List.nodup_cons.mpr ⟨hnew, h.nodup⟩
  have hbound : (id :: t).length ≤ s.steps :=
    length_le_steps hnodup (List.forall_mem_cons.mpr
      ⟨⟨e, he⟩, fun j hj => (h.leads j hj).imp fun f hf => hf.1⟩)
  have hroom := h.room
  rw [List.length_cons] at hbound
  obtain ⟨k, rfl⟩ : ∃ k, left = k + 1 := ⟨left - 1, by omega⟩
  refine ⟨hnew, k, rfl, fun name hstep => ⟨hnodup, ?_, fun j hj => ?_⟩⟩
  · rw [List.length_cons]
    omega
  · rcases List.mem_cons.mp hj with rfl | hj
    · exact ⟨e, he, .single hstep⟩
    · obtain ⟨f, hf, hleads⟩ := h.leads j hj
      exact ⟨f, hf, hleads.tail hstep⟩

/-! ## Types of a document in a scope -/

/-- **A type stands for a type of a document**: it is the same up to the
targets of its references, and these agree with the scope. -/
inductive Renders (s : Scope) : TypeExpr → Ty → Prop
  | primitive (p : Primitive) : Renders s (.primitive p) (.primitive p)
  | list {t : TypeExpr} {ty : Ty} (element : Renders s t ty) :
      Renders s (.list t) (.list ty)
  | set {t : TypeExpr} {ty : Ty} (element : Renders s t ty) :
      Renders s (.set t) (.set ty)
  | map {k v : TypeExpr} {key value : Ty} (keys : Renders s k key)
      (values : Renders s v value) : Renders s (.map k v) (.map key value)
  | named {m : Mention} {r : Reference EntityId} (same : r.name = m.name)
      (agrees : s.Agrees r) : Renders s (.named m) (.named r)

/-- A type stands for a type of a document when its erasure is that type and
its references agree with the scope. -/
theorem renders_of_erase {t : TypeExpr} {ty : Ty} (herase : ty.erase = t.toTy)
    (hagrees : ∀ r ∈ ty.references, s.Agrees r) : s.Renders t ty := by
  induction ty generalizing t with
  | primitive p =>
    cases t <;> cases herase
    exact .primitive p
  | list element ih =>
    cases t <;>
      simp only [Ty.erase, TypeExpr.toTy, reduceCtorEq, Ty.list.injEq] at herase
    exact .list (ih herase hagrees)
  | set element ih =>
    cases t <;>
      simp only [Ty.erase, TypeExpr.toTy, reduceCtorEq, Ty.set.injEq] at herase
    exact .set (ih herase hagrees)
  | map key value ihk ihv =>
    cases t <;>
      simp only [Ty.erase, TypeExpr.toTy, reduceCtorEq, Ty.map.injEq] at herase
    exact .map (ihk herase.1 fun r hr => hagrees r (List.mem_append_left _ hr))
      (ihv herase.2 fun r hr => hagrees r (List.mem_append_right _ hr))
  | named r =>
    cases t <;>
      simp only [Ty.erase, TypeExpr.toTy, reduceCtorEq, Ty.named.injEq] at herase
    exact .named (congrArg Reference.name herase :)
      (hagrees r (List.mem_singleton_self r))

theorem renders_toTy (s : Scope) (t : TypeExpr) : s.Renders t t.toTy := by
  induction t with
  | primitive p => exact .primitive p
  | list element ih => exact .list ih
  | set element ih => exact .set ih
  | map key value ihk ihv => exact .map ihk ihv
  | named m => exact .named rfl (.inl rfl)

/-- **A shape is that of a type** none of whose typedefs is left to follow. -/
inductive RendersShape (s : Scope) : TypeExpr → Shape → Prop
  | primitive (p : Primitive) : RendersShape s (.primitive p) (.primitive p)
  | list {t : TypeExpr} {ty : Ty} (element : s.Renders t ty) :
      RendersShape s (.list t) (.list ty)
  | set {t : TypeExpr} {ty : Ty} (element : s.Renders t ty) :
      RendersShape s (.set t) (.set ty)
  | map {k v : TypeExpr} {key value : Ty} (keys : s.Renders k key)
      (values : s.Renders v value) : RendersShape s (.map k v) (.map key value)
  | entity {m : Mention} {id : EntityId} {e : Entity}
      (held : s.entity? id = some e) (same : e.name = m.name) :
      RendersShape s (.named m) (.entity id e)

/-- A reference that agrees with the scope means the entity with its name. -/
theorem IsArena.targetOf_eq_ok_of_agrees (h : s.IsArena) {r : Reference EntityId}
    (hagrees : s.Agrees r) {referrer : String} :
    s.targetOf r referrer = .ok (id, e) ↔
      s.entity? id = some e ∧ e.name = r.name := by
  rw [h.targetOf_eq_ok]
  constructor
  · rintro ⟨he, hname, -⟩
    exact ⟨he, hname⟩
  · rintro ⟨he, hname⟩
    refine ⟨he, hname, hagrees.imp_right fun htarget => ?_⟩
    rw [htarget]
    exact h.id?_eq_some.mpr ⟨e, he, hname⟩

namespace Models

theorem renders_typedef (h : s.Models d) (he : s.entity? id = some e) {ty : Ty}
    (hbody : e.body = .typedef ty) :
    ∃ t, d.Defines e.name (.typedef t) ∧ s.Renders t ty := by
  obtain ⟨body, hdefines, hdeclared⟩ := h.exists_defines he
  have hagrees := h.agrees e (List.mem_of_getElem? he)
  rw [hbody] at hdeclared hagrees
  cases hdeclared with | typedef herase =>
  exact ⟨_, hdefines, renders_of_erase herase hagrees⟩

/-- An entity that is no typedef is defined as no typedef. -/
theorem reaches_named (h : s.Models d) (he : s.entity? id = some e)
    (hbody : ∀ ty, e.body ≠ .typedef ty) {m : Mention} (hname : e.name = m.name) :
    d.Reaches (.named m) (.named m) := by
  obtain ⟨body, hdefines, hdeclared⟩ := h.exists_defines he
  refine .named (hname ▸ hdefines) fun target htarget => ?_
  generalize hb : e.body = b at hdeclared
  rw [htarget] at hdeclared
  cases hdeclared with | typedef _ => exact hbody _ hb

/-! ## Following is sound -/

/-- What is found by following is reached. -/
theorem follow_sound (h : s.Models d) {referrer : String} {left : Nat}
    {trail : Trail} {t : TypeExpr} {ty : Ty} {shape : Shape}
    (hty : s.Renders t ty) (hok : s.follow referrer left trail ty = .ok shape) :
    ∃ t', d.Reaches t t' ∧ s.RendersShape t' shape := by
  fun_induction s.follow referrer left trail ty generalizing t with
  | case1 =>
    cases hty
    cases hok
    exact ⟨_, .primitive _, .primitive _⟩
  | case2 =>
    cases hty with | list helement =>
    cases hok
    exact ⟨_, .list _, .list helement⟩
  | case3 =>
    cases hty with | set helement =>
    cases hok
    exact ⟨_, .set _, .set helement⟩
  | case4 =>
    cases hty with | map hkeys hvalues =>
    cases hok
    exact ⟨_, .map _ _, .map hkeys hvalues⟩
  | case5 => cases hok
  | case6 => cases hok
  | case7 => cases hok
  | case8 trail r id e htarget target hbody left _ ih =>
    cases hty with | named hsame hagrees =>
    obtain ⟨he, hname⟩ := (h.arena.targetOf_eq_ok_of_agrees hagrees).mp htarget
    obtain ⟨t, hdefines, hrenders⟩ := h.renders_typedef he hbody
    obtain ⟨t', hreaches, hshape⟩ := ih hrenders hok
    exact ⟨t', .typedef ((hname.trans hsame) ▸ hdefines) hreaches, hshape⟩
  | case9 left trail r id e htarget hbody =>
    cases hty with | named hsame hagrees =>
    cases hok
    obtain ⟨he, hname⟩ := (h.arena.targetOf_eq_ok_of_agrees hagrees).mp htarget
    exact ⟨_, h.reaches_named he hbody (hname.trans hsame),
      .entity he (hname.trans hsame)⟩

/-- **What `dealias` finds is reached.** -/
theorem dealias_sound (h : s.Models d) {referrer : String} {t : TypeExpr}
    {ty : Ty} {shape : Shape} (hty : s.Renders t ty)
    (hok : s.dealias ty referrer = .ok shape) :
    ∃ t', d.Reaches t t' ∧ s.RendersShape t' shape :=
  h.follow_sound hty hok

/-! ## Following is complete -/

/-- A chain of typedefs that reaches something ends. -/
theorem acc_of_reaches (h : s.Models d) {t t' : TypeExpr}
    (hreaches : d.Reaches t t') {m : Mention} (ht : t = .named m) :
    Acc (fun b a => d.TypedefMentions a b) m.name := by
  induction hreaches generalizing m with
  | primitive p => cases ht
  | list element => cases ht
  | set element => cases ht
  | map key value => cases ht
  | named hdefines hfinal =>
    cases ht
    refine .intro _ fun b hb => ?_
    obtain ⟨m', hdefines', -⟩ := hb
    exact absurd (h.defines_unique hdefines hdefines') (hfinal _)
  | typedef hdefines hreaches ih =>
    cases ht
    refine .intro _ fun b hb => ?_
    obtain ⟨m', hdefines', rfl⟩ := hb
    cases h.defines_unique hdefines hdefines'
    exact ih rfl

/-- A reference with a name that is defined means the entity of the
definition. -/
theorem exists_targetOf (h : s.Models d) (referrer : String) {m : Mention}
    {r : Reference EntityId} {body : Definition.Body}
    (hdefines : d.Defines m.name body) (hsame : r.name = m.name)
    (hagrees : s.Agrees r) :
    ∃ id e, s.targetOf r referrer = .ok (id, e) ∧ s.entity? id = some e
      ∧ e.name = m.name ∧ body.DeclaredAs e.body := by
  obtain ⟨id, e, he, hname, hdeclared⟩ := h.exists_entity hdefines
  exact ⟨id, e, (h.arena.targetOf_eq_ok_of_agrees hagrees).mpr
    ⟨he, hname.trans hsame.symm⟩, he, hname, hdeclared⟩

/-- **What is reached is found** along an open trail. A trail is asked for only
where a name is met. -/
theorem follow_complete (h : s.Models d) (referrer : String)
    {t t' : TypeExpr} (hreaches : d.Reaches t t') {left : Nat} {trail : Trail}
    {ty : Ty} (hty : s.Renders t ty)
    (hopen : ∀ m, t = .named m →
      s.OpenTrail d.TypedefMentions left trail m.name) :
    ∃ shape, s.follow referrer left trail ty = .ok shape
      ∧ s.RendersShape t' shape := by
  -- on the rules, not on the steps left: a trail that is open always has one
  induction hreaches generalizing left trail ty with
  | primitive p =>
    cases hty
    exact ⟨_, by rw [follow], .primitive p⟩
  | list element =>
    cases hty with | list helement =>
    exact ⟨_, by rw [follow], .list helement⟩
  | set element =>
    cases hty with | set helement =>
    exact ⟨_, by rw [follow], .set helement⟩
  | map key value =>
    cases hty with | map hkeys hvalues =>
    exact ⟨_, by rw [follow], .map hkeys hvalues⟩
  | named hdefines hfinal =>
    cases hty with | named hsame hagrees =>
    obtain ⟨id, e, htarget, he, hname, hdeclared⟩ :=
      h.exists_targetOf referrer hdefines hsame hagrees
    refine ⟨.entity id e, ?_, .entity he hname⟩
    rw [follow, htarget]
    generalize hbody : e.body = b at hdeclared
    cases hdeclared with
    | typedef => exact absurd rfl (hfinal _)
    | _ => simp only [hbody]
  | @typedef m target t' hdefines hreaches ih =>
    cases hty with | named hsame hagrees =>
    obtain ⟨id, e, htarget, he, hname, hdeclared⟩ :=
      h.exists_targetOf referrer hdefines hsame hagrees
    generalize hbody : e.body = b at hdeclared
    cases hdeclared with | @typedef _ ty herase =>
    have hopen' := hopen m rfl
    have hends := not_transGen_of_acc
      (h.acc_of_reaches (.typedef hdefines hreaches) rfl)
    rw [← hname] at hopen' hends
    obtain ⟨hnew, k, rfl, henter⟩ := hopen'.enter hends he
    have hagrees' := h.agrees e (List.mem_of_getElem? he)
    rw [hbody] at hagrees'
    have hrenders : s.Renders target ty := renders_of_erase herase hagrees'
    obtain ⟨shape, hok, hshape⟩ := ih hrenders fun m' hm' =>
      henter m'.name ⟨m', hname ▸ hm' ▸ hdefines, rfl⟩
    refine ⟨shape, ?_, hshape⟩
    rw [follow, htarget]
    simp only [hbody]
    rw [if_neg (by simpa using hnew), hok]

/-- **What is reached is found by `dealias`.** -/
theorem dealias_complete (h : s.Models d) (referrer : String)
    {t t' : TypeExpr} (hreaches : d.Reaches t t') {ty : Ty} (hty : s.Renders t ty) :
    ∃ shape, s.dealias ty referrer = .ok shape ∧ s.RendersShape t' shape :=
  h.follow_complete referrer hreaches hty fun _ _ => openTrail_nil

/-- A type whose shape is an entity reaches what the entity is defined as. -/
theorem reachesBody_sound (h : s.Models d) {t : TypeExpr} {ty : Ty}
    {referrer : String} (hty : s.Renders t ty)
    (hok : s.dealias ty referrer = .ok (.entity id e)) :
    s.entity? id = some e
      ∧ ∃ body, d.ReachesBody t e.name body ∧ body.DeclaredAs e.body := by
  obtain ⟨t', hreaches, hshape⟩ := h.dealias_sound hty hok
  cases hshape with | @entity m _ _ he hname =>
  obtain ⟨body, hdefines, hdeclared⟩ := h.exists_defines he
  exact ⟨he, body, ⟨m, hname.symm, hreaches, hdefines⟩, hdeclared⟩

/-- A type that reaches a definition has its entity as a shape. -/
theorem reachesBody_complete (h : s.Models d) (referrer : String)
    {t : TypeExpr} {name : String} {body : Definition.Body}
    (hreaches : d.ReachesBody t name body) {ty : Ty} (hty : s.Renders t ty) :
    ∃ id e, s.dealias ty referrer = .ok (.entity id e)
      ∧ s.entity? id = some e ∧ e.name = name ∧ body.DeclaredAs e.body := by
  obtain ⟨m, rfl, hreaches, hdefines⟩ := hreaches
  obtain ⟨shape, hok, hshape⟩ := h.dealias_complete referrer hreaches hty
  cases hshape with | @entity _ id e he hname =>
  exact ⟨id, e, hok, he, hname, h.declaredAs he (hname.symm ▸ hdefines)⟩

end Models

/-! ## Whom an unknown name is blamed on -/

variable {referrer referrer' : String}

/-- What a reference means does not depend on the referrer. -/
theorem targetOf_of_referrer {r : Reference EntityId} {found : EntityId × Entity}
    (h : s.targetOf r referrer = .ok found) : s.targetOf r referrer' = .ok found := by
  unfold targetOf at h ⊢
  cases htarget : r.target with
  | none =>
    rw [htarget] at h
    exact lookup_eq_ok.mpr (lookup_eq_ok.mp h)
  | some id =>
    rw [htarget] at h
    dsimp only at h ⊢
    cases he : s.entity? id with
    | none =>
      rw [he] at h
      cases h
    | some e =>
      rw [he] at h
      dsimp only at h ⊢
      by_cases hname : e.name = r.name
      · rwa [if_pos hname] at h ⊢
      · rw [if_neg hname] at h
        cases h

/-- Where typedefs lead does not depend on the referrer. -/
theorem follow_of_referrer {left : Nat} {trail : Trail} {ty : Ty} {shape : Shape}
    (h : s.follow referrer left trail ty = .ok shape) :
    s.follow referrer' left trail ty = .ok shape := by
  fun_induction s.follow referrer left trail ty with
  | case1 | case2 | case3 | case4 => rwa [follow]
  | case5 | case6 | case7 => cases h
  | case8 trail r id e htarget target hbody left hnew ih =>
    rw [follow, targetOf_of_referrer htarget]
    simp only [hbody]
    rw [if_neg hnew]
    exact ih h
  | case9 left trail r id e htarget hbody =>
    rw [follow, targetOf_of_referrer htarget]
    cases he : e.body with
    | typedef target => exact absurd he (hbody target)
    | _ => simpa only [he] using h

/-- **The shape of a type does not depend on the referrer.** -/
theorem dealias_of_referrer {ty : Ty} {shape : Shape}
    (h : s.dealias ty referrer = .ok shape) : s.dealias ty referrer' = .ok shape :=
  follow_of_referrer h

end Scope

end Interlink
