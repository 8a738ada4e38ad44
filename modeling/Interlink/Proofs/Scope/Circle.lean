import Interlink.Proofs.Document.Faults
import Interlink.Proofs.Scope.Shape

/-!
# Circles that are reported

A walk that comes back to an entity of its trail reports the names since it was
entered. They are a circle, wherever the walk began: a trail is **chained**
(`Scope.ChainedTrail`) if each of its entities leads to the one that was entered
after it, and the last one to the name that is met next. Entering the entity of
that name keeps a trail chained (`ChainedTrail.enter`), and if it was entered
before, what is cut out of the trail is a circle (`ChainedTrail.isCircle`). When
no step is left, it was entered before (`ChainedTrail.mem_of_no_step`).

The first walk is the one along typedefs (`Models.explains_follow`). Types are
followed only if they come from the document (`Scope.Cites`), and what is left
of them when their typedefs are followed comes from it too.
-/

namespace Interlink.Scope

variable {s : Scope} {d : Document} {id : EntityId} {e : Entity}
  {step : String → String → Prop} {left : Nat} {t : Trail} {name : String}
  {fault : CompileError}

/-! ## Chained trails -/

/-- **A chained trail** to a name: its entities are different and each leads to
the next, the last one to the name, and there are steps left for all others. -/
structure ChainedTrail (s : Scope) (step : String → String → Prop) (left : Nat)
    (t : Trail) (name : String) : Prop where
  /-- No entity was entered twice. -/
  nodup : t.Nodup
  /-- There are steps for the entities that were not entered. -/
  room : s.steps ≤ left + t.length
  /-- The entities are there. -/
  held : ∀ id ∈ t, ∃ e, s.entity? id = some e
  /-- Each leads to the one entered after it, the last one to the name. -/
  chained : (name :: t.map s.nameOf).IsChain fun b a => step a b

theorem chainedTrail_nil : s.ChainedTrail step s.steps [] name :=
  ⟨List.nodup_nil, Nat.le_add_right _ _, fun _ h => absurd h List.not_mem_nil,
    .singleton _⟩

/-- A trail of one entity is chained to what it leads to. -/
theorem chainedTrail_singleton (he : s.entity? id = some e)
    (hstep : step e.name name) : s.ChainedTrail step s.steps [id] name := by
  refine ⟨List.nodup_singleton _, Nat.le_add_right _ _, fun j hj => ?_, ?_⟩
  · rw [List.mem_singleton.mp hj]
    exact ⟨e, he⟩
  · rw [List.map_singleton, nameOf_eq he]
    exact .cons_cons hstep (.singleton _)

namespace ChainedTrail

/-- **An entity that is not in the trail can be entered**, and the trail is
chained to all that it leads to. -/
theorem enter (h : s.ChainedTrail step (left + 1) t e.name)
    (he : s.entity? id = some e) (hnew : id ∉ t) (hstep : step e.name name) :
    s.ChainedTrail step left (id :: t) name where
  nodup := List.nodup_cons.mpr ⟨hnew, h.nodup⟩
  room := by
    have hroom := h.room
    rw [List.length_cons]
    omega
  held := List.forall_mem_cons.mpr ⟨⟨e, he⟩, h.held⟩
  chained := by
    rw [List.map_cons, nameOf_eq he]
    exact .cons_cons hstep h.chained

/-- **When no step is left, every entity has been entered.** -/
theorem mem_of_no_step (h : s.ChainedTrail step 0 t name)
    (he : s.entity? id = some e) : id ∈ t := by
  by_contra hnew
  have hbound := length_le_steps (List.nodup_cons.mpr ⟨hnew, h.nodup⟩)
    (List.forall_mem_cons.mpr ⟨⟨e, he⟩, h.held⟩)
  have hroom := h.room
  rw [List.length_cons] at hbound
  omega

theorem nodup_names (h : s.ChainedTrail step left t name) (harena : s.IsArena) :
    (t.map s.nameOf).Nodup := by
  refine h.nodup.map_on fun i hi j hj hij => ?_
  obtain ⟨e, he⟩ := h.held i hi
  obtain ⟨f, hf⟩ := h.held j hj
  rw [nameOf_eq he, nameOf_eq hf] at hij
  exact (harena.entity?_inj he hf hij).1

/-- **What is cut out of a chained trail is a circle**, if the entity that is met
has been entered. -/
theorem isCircle (h : s.ChainedTrail step left t e.name) (harena : s.IsArena)
    (he : s.entity? id = some e) (hmem : id ∈ t) :
    IsCircle step e.name (e.name
      :: (t.takeWhile fun entered => entered != id).reverse.map s.nameOf
      ++ [e.name]) := by
  -- the trail since the entity was entered, the entity, and the trail before it
  obtain ⟨since, before, rfl, hnot⟩ := List.eq_append_cons_of_mem hmem
  have hsince : (since ++ id :: before).takeWhile (fun entered => entered != id)
      = since := by
    rw [List.takeWhile_append_of_pos, List.takeWhile_cons_of_neg, List.append_nil]
    · simp
    · intro j hj
      exact bne_iff_ne.mpr fun hid => hnot (hid ▸ hj)
  rw [hsince]
  have hnames := h.nodup_names harena
  have hchain := h.chained
  rw [List.map_append, List.map_cons, nameOf_eq he] at hnames hchain
  refine ⟨_, rfl, ?_, ?_⟩
  · rw [List.map_reverse, List.nodup_cons, List.nodup_reverse, List.mem_reverse]
    have hcut := (List.nodup_middle.mp hnames).sublist
      (List.cons_sublist_cons.mpr (List.sublist_append_left _ _))
    exact List.nodup_cons.mp hcut
  · -- the trail has the last entity first
    have hcut : (e.name :: since.map s.nameOf ++ [e.name]).IsChain
        fun b a => step a b := by
      refine hchain.prefix ⟨before.map s.nameOf, ?_⟩
      simp
    rw [← List.isChain_reverse] at hcut
    simpa using hcut

end ChainedTrail

/-! ## What a scope says of its document -/

/-- **A type comes from a document**: its references are mentions of types, and
agree with the scope. -/
def Cites (s : Scope) (d : Document) (ty : Ty) : Prop :=
  ∀ r ∈ ty.references, s.Agrees r ∧ d.MentionsType r.mention

/-- A shape comes from a document. -/
def CitesShape (s : Scope) (d : Document) : Shape → Prop
  | .primitive _ => True
  | .list element => s.Cites d element
  | .set element => s.Cites d element
  | .map key value => s.Cites d key ∧ s.Cites d value
  | .entity id e => s.entity? id = some e

namespace Models

theorem hasSpan (h : s.Models d) (he : s.entity? id = some e) : d.HasSpan e.span := by
  obtain ⟨x, hx, hdeclared⟩ := h.exists_definition he
  exact hdeclared.span ▸ .definition hx

theorem mentionsType (h : s.Models d) (he : s.entity? id = some e)
    {r : Reference EntityId} (hr : r ∈ e.body.typeReferences) :
    d.MentionsType r.mention := by
  obtain ⟨x, hx, hdeclared⟩ := h.exists_definition he
  refine ⟨x, hx, ?_⟩
  rw [← hdeclared.body.map_mention_types]
  exact List.mem_map_of_mem hr

theorem mentionsConstant (h : s.Models d) (he : s.entity? id = some e)
    {r : Reference ConstTarget} (hr : r ∈ e.body.constReferences) :
    d.MentionsConstant r.mention := by
  obtain ⟨x, hx, hdeclared⟩ := h.exists_definition he
  refine ⟨x, hx, ?_⟩
  rw [← hdeclared.body.map_mention_constants]
  exact List.mem_map_of_mem hr

theorem cites (h : s.Models d) (he : s.entity? id = some e) {ty : Ty}
    (hty : ty.references ⊆ e.body.typeReferences) : s.Cites d ty := fun r hr =>
  ⟨h.agrees e (List.mem_of_getElem? he) r (hty hr), h.mentionsType he (hty hr)⟩

/-- A name that the scope does not know is defined nowhere. -/
theorem undefined (h : s.Models d) (hnone : s.named? name = none) :
    d.Undefined name := by
  intro x hx hname
  refine h.arena.named?_eq_none.mp hnone ?_
  rw [h.names, ← hname]
  exact List.mem_map_of_mem hx

/-- **A circle that is reported is there.** A walk reports one when no step is
left, or when it meets an entity again. -/
theorem explains_circle (h : s.Models d)
    (hstep : step = d.ConstantMentions ∨ step = d.TypedefMentions ∨ step = d.Extends)
    (htrail : s.ChainedTrail step left t e.name) (he : s.entity? id = some e)
    (hstuck : left = 0 ∨ id ∈ t) : d.Explains (s.circle t id e) := by
  have hmem : id ∈ t := by
    rcases hstuck with rfl | hmem
    · exact htrail.mem_of_no_step he
    · exact hmem
  have hcircle := htrail.isCircle h.arena he hmem
  obtain ⟨x, hx, hdeclared⟩ := h.exists_definition he
  refine ⟨⟨x, hx, hdeclared.name.symm⟩, fun y hy hname => ?_, ?_⟩
  · -- there is one definition of the name
    have hxy : x = y := List.inj_on_of_nodup_map (h.names ▸ h.arena.distinct) hx hy
      (hdeclared.name.symm.trans hname.symm)
    rw [← hxy, hdeclared.span]
  · rcases hstep with rfl | rfl | rfl
    · exact .inl hcircle
    · exact .inr (.inl hcircle)
    · exact .inr (.inr hcircle)

end Models

/-! ## Following typedefs -/

/-- A reference that means nothing is reported as unknown. -/
theorem eq_unknown_of_targetOf {r : Reference EntityId} {referrer : String}
    (herr : s.targetOf r referrer = .error fault) :
    fault = .unknown r.name referrer r.span := by
  unfold targetOf lookup at herr
  split at herr
  · split at herr
    · cases herr
    · exact (Except.error.inj herr).symm
  · split at herr
    · split at herr
      · cases herr
      · exact (Except.error.inj herr).symm
    · exact (Except.error.inj herr).symm

/-- A reference that agrees with the scope and means nothing has a name that the
scope does not know. -/
theorem IsArena.targetOf_eq_error (h : s.IsArena) {r : Reference EntityId}
    (hagrees : s.Agrees r) {referrer : String}
    (herr : s.targetOf r referrer = .error fault) :
    s.named? r.name = none ∧ fault = .unknown r.name referrer r.span := by
  refine ⟨?_, eq_unknown_of_targetOf herr⟩
  cases hnamed : s.named? r.name with
  | none => rfl
  | some found =>
    obtain ⟨id, e⟩ := found
    have hfound : s.targetOf r referrer = .ok (id, e) :=
      (h.targetOf_eq_ok_of_agrees hagrees).mpr (h.named?_eq_some.mp hnamed)
    cases hfound.symm.trans herr

namespace Models

variable {referrer : String} {ty : Ty}

/-- A typedef that is directly another name leads to that name. -/
theorem typedefMentions (h : s.Models d) (he : s.entity? id = some e)
    {r : Reference EntityId} (hbody : e.body = .typedef (.named r)) :
    d.TypedefMentions e.name r.name := by
  obtain ⟨target, hdefines, hrenders⟩ := h.renders_typedef he hbody
  cases hrenders with | named hsame _ =>
  exact ⟨_, hdefines, hsame.symm⟩

/-- What is left of a type when its typedefs are followed comes from the
document. -/
theorem citesShape_of_follow (h : s.Models d) (hty : s.Cites d ty) {shape : Shape}
    (hok : s.follow referrer left t ty = .ok shape) : s.CitesShape d shape := by
  fun_induction s.follow referrer left t ty with
  | case1 =>
    cases hok
    exact trivial
  | case2 =>
    cases hok
    exact hty
  | case3 =>
    cases hok
    exact hty
  | case4 =>
    cases hok
    exact ⟨fun r hr => hty r (List.mem_append_left _ hr),
      fun r hr => hty r (List.mem_append_right _ hr)⟩
  | case5 => cases hok
  | case6 => cases hok
  | case7 => cases hok
  | case8 trail r id e htarget target hbody left _ ih =>
    obtain ⟨he, -⟩ := (h.arena.targetOf_eq_ok_of_agrees
      (hty r (List.mem_singleton_self r)).1).mp htarget
    exact ih (h.cites he (by rw [hbody]; exact List.Subset.refl _)) hok
  | case9 left trail r id e htarget hbody =>
    cases hok
    exact ((h.arena.targetOf_eq_ok_of_agrees
      (hty r (List.mem_singleton_self r)).1).mp htarget).1

/-- **Following typedefs fails** at a name that is not defined, or in a circle.
A trail is asked for only where a name is met. -/
theorem explains_follow (h : s.Models d) (hty : s.Cites d ty)
    (htrail : ∀ r, ty = .named r → s.ChainedTrail d.TypedefMentions left t r.name)
    (herr : s.follow referrer left t ty = .error fault) : d.Explains fault := by
  fun_induction s.follow referrer left t ty with
  | case1 => cases herr
  | case2 => cases herr
  | case3 => cases herr
  | case4 => cases herr
  | case5 left trail r fault' htarget =>
    cases herr
    obtain ⟨hagrees, hmentions⟩ := hty r (List.mem_singleton_self r)
    obtain ⟨hnone, rfl⟩ := h.arena.targetOf_eq_error hagrees htarget
    exact ⟨h.undefined hnone, .inl hmentions⟩
  | case6 trail r id e htarget target hbody =>
    cases herr
    obtain ⟨he, hname⟩ := (h.arena.targetOf_eq_ok_of_agrees
      (hty r (List.mem_singleton_self r)).1).mp htarget
    exact h.explains_circle (.inr (.inl rfl)) (hname ▸ htrail r rfl) he (.inl rfl)
  | case7 trail r id e htarget target hbody left hmem =>
    cases herr
    obtain ⟨he, hname⟩ := (h.arena.targetOf_eq_ok_of_agrees
      (hty r (List.mem_singleton_self r)).1).mp htarget
    exact h.explains_circle (.inr (.inl rfl)) (hname ▸ htrail r rfl) he
      (.inr (List.contains_iff_mem.mp hmem))
  | case8 trail r id e htarget target hbody left hnew ih =>
    obtain ⟨he, hname⟩ := (h.arena.targetOf_eq_ok_of_agrees
      (hty r (List.mem_singleton_self r)).1).mp htarget
    refine ih (h.cites he (by rw [hbody]; exact List.Subset.refl _)) ?_ herr
    rintro r' rfl
    exact (hname ▸ htrail r rfl).enter he (by simpa using hnew)
      (h.typedefMentions he hbody)
  | case9 => cases herr

/-- **The shape of a type is not found**. -/
theorem explains_dealias (h : s.Models d) (hty : s.Cites d ty)
    (herr : s.dealias ty referrer = .error fault) : d.Explains fault :=
  h.explains_follow hty (fun _ _ => chainedTrail_nil) herr

/-- The shape of an entity is not found. -/
theorem explains_dealiasEntity (h : s.Models d) (he : s.entity? id = some e)
    (herr : s.dealiasEntity id e = .error fault) : d.Explains fault := by
  unfold dealiasEntity at herr
  split at herr
  next target hbody =>
    refine h.explains_follow (h.cites he (by rw [hbody]; exact List.Subset.refl _))
      ?_ herr
    rintro r rfl
    exact chainedTrail_singleton he (h.typedefMentions he hbody)
  next => cases herr

end Models

end Interlink.Scope
