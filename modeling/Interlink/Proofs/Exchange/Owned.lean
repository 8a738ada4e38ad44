import Interlink.Proofs.Exchange.Misfit

/-!
# Types that a scope owns

A scope owns the types that its names stand for, those that its entities are written
with, and all their parts (`Scope.Owns`). Linking has bound every name in them to a type
(`Scope.Owns.boundTo`), so that they render types of the document whose names stand for
types (`Scope.Stage.founded_of_owns`).

Types of a compiled scope therefore never fail as types
(`Document.fails_at_misfit_of_compile`). They can be followed and have tags, and nothing
but a misfit keeps a value from being sent or received at them.
-/

namespace Interlink

namespace Entity

/-- The types that a function is written with: those of its parameters, of its result
and of its declared exceptions. -/
def Function.types (f : Function) : List Ty :=
  f.parameters.map Field.type ++ f.returns.toList ++ f.exceptions.map Field.type

/-- **The types that an entity is written with**: the type of a constant, the target of a
typedef, and the types of fields, parameters, results and declared exceptions. -/
def Body.types : Body → List Ty
  | .const type _ _ => [type]
  | .typedef target => [target]
  | .enum _ => []
  | .struct _ fields => fields.map Field.type
  | .service functions _ _ => functions.flatMap Function.types

theorem Function.references_subset {f : Function} {ty : Ty} (h : ty ∈ f.types) :
    ty.references ⊆ f.typeReferences := by
  intro r hr
  unfold Function.types at h
  unfold Function.typeReferences
  rcases List.mem_append.mp h with h | h
  · refine List.mem_append_left _ ?_
    rcases List.mem_append.mp h with h | h
    · obtain ⟨p, hp, rfl⟩ := List.mem_map.mp h
      exact List.mem_append_left _ (List.mem_flatMap.mpr ⟨p, hp, hr⟩)
    · rw [Option.mem_toList.mp h]
      exact List.mem_append_right _ hr
  · obtain ⟨p, hp, rfl⟩ := List.mem_map.mp h
    exact List.mem_append_right _ (List.mem_flatMap.mpr ⟨p, hp, hr⟩)

theorem Body.references_subset {b : Body} {ty : Ty} (h : ty ∈ b.types) :
    ty.references ⊆ b.typeReferences := by
  cases b with
  | const type _ _ =>
    rw [List.mem_singleton.mp h]
    exact fun r hr => hr
  | typedef target =>
    rw [List.mem_singleton.mp h]
    exact fun r hr => hr
  | enum _ => cases h
  | struct _ fields =>
    obtain ⟨f, hf, rfl⟩ := List.mem_map.mp h
    exact fun r hr => List.mem_flatMap.mpr ⟨f, hf, hr⟩
  | service functions _ _ =>
    obtain ⟨f, hf, hty⟩ := List.mem_flatMap.mp h
    exact fun r hr => List.mem_flatMap.mpr ⟨f, hf, Function.references_subset hty hr⟩

end Entity

namespace Scope

/-- **The types that a scope owns**: those that names stand for, those that its entities
are written with, and all their parts. -/
inductive Owns (s : Scope) : Ty → Prop
  | named {name : String} {ty : Ty} (type : s.typeNamed name = .ok ty) : Owns s ty
  | declared {id : EntityId} {e : Entity} {ty : Ty} (entity : s.entity? id = some e)
      (type : ty ∈ e.body.types) : Owns s ty
  | list {element : Ty} (owns : Owns s (.list element)) : Owns s element
  | set {element : Ty} (owns : Owns s (.set element)) : Owns s element
  | key {key value : Ty} (owns : Owns s (.map key value)) : Owns s key
  | value {key value : Ty} (owns : Owns s (.map key value)) : Owns s value

variable {s : Scope} {d : Document} {ty : Ty}

/-- A type that a name stands for is bound to an entity that is a type. -/
theorem IsArena.boundTo_of_typeNamed (h : s.IsArena) {name : String}
    (hty : s.typeNamed name = .ok ty) :
    ∀ r ∈ ty.references, s.BoundTo Entity.Kind.isType r := by
  unfold typeNamed at hty
  cases hnamed : s.named? name with
  | none =>
    rw [hnamed] at hty
    cases hty
  | some found =>
    rw [hnamed] at hty
    obtain ⟨id, e⟩ := found
    obtain ⟨he, hname⟩ := h.named?_eq_some.mp hnamed
    dsimp only at hty
    split at hty
    next hkind =>
      cases hty
      intro r hr
      rw [List.mem_singleton.mp hr]
      exact ⟨id, e, rfl, he, hname, hkind⟩
    next => cases hty

/-- **All names in a type that a scope owns are bound to types**, if its entities are
linked. -/
theorem Owns.boundTo (h : s.Owns ty) (harena : s.IsArena)
    (hbound : ∀ id e, s.entity? id = some e → e.body.Bound s) :
    ∀ r ∈ ty.references, s.BoundTo Entity.Kind.isType r := by
  induction h with
  | named type => exact harena.boundTo_of_typeNamed type
  | declared entity type =>
    exact fun r hr => (hbound _ _ entity).types r (Entity.Body.references_subset type hr)
  | list _ ih => exact ih
  | set _ ih => exact ih
  | key _ ih => exact fun r hr => ih r (List.mem_append_left _ hr)
  | value _ ih => exact fun r hr => ih r (List.mem_append_right _ hr)

/-- **A type that a linked scope owns is founded.** -/
theorem Stage.founded_of_owns (h : s.Stage d (Entity.Linked s d) s) (hty : s.Owns ty) :
    s.Founded d ty := by
  refine h.models.exists_renders fun r hr => ?_
  obtain ⟨id, e, htarget, he, hname, hkind⟩ :=
    hty.boundTo h.models.arena (fun id e he => (h.each id e he).bound.1) r hr
  exact ⟨id, e, h.models.arena.targetOf_eq_ok.mpr ⟨he, hname, .inr htarget⟩, hkind⟩

end Scope

namespace Document

variable {d : Document} {name : String} {c : Compiled} {ty : Ty}

/-- **Types of a compiled scope never fail as types.** A type that the scope owns leads
to a type, whoever asks, and has a tag. Sending a value at it, or receiving one, fails
at a misfit only, with an error about the value; and what was expected is called "a type"
only if the document calls a type so. -/
theorem fails_at_misfit_of_compile (hok : d.compile name = .ok c) (hty : c.scope.Owns ty) :
    (∃ shape, (∀ referrer, c.scope.dealias ty referrer = .ok shape) ∧ shape.IsType)
      ∧ (∃ tag, ty.tag c.scope = .ok tag)
      ∧ (∀ v error, Value.toWire c.scope v ty = .error error →
        error.BlamesValue ∧ v.Misfit c.scope ty error
          ∧ ∀ found, error = .mismatch "a type" found → d.NamesType "a type")
      ∧ ∀ w error, Wire.toValue c.scope w ty = .error error →
        error.BlamesValue ∧ w.Misfit c.scope ty error
          ∧ ∀ found, error = .mismatch "a type" found → d.NamesType "a type" := by
  have hd := wellFormed_of_compile hok
  have hstage := stage_of_compile hok
  have hs := hstage.models
  have hfounded := hstage.founded_of_owns hty
  have hcalled : ∀ {asked}, c.scope.Founded d asked → c.scope.Calls asked "a type" →
      d.NamesType "a type" := fun hasked => hs.namesType_of_calls hd hasked
  refine ⟨?_, hs.tag_of_founded hd hfounded, fun v error h => ?_, fun w error h => ?_⟩
  · obtain ⟨shape, hshape, htype⟩ := hs.shape_of_founded hd hfounded
    exact ⟨shape, fun referrer => Scope.dealias_of_referrer (Scope.dealias_of_shape hshape),
      htype⟩
  · have hmisfit := Value.misfit_of_toWire hs hd hfounded h
    refine ⟨hmisfit.blamesValue, hmisfit, fun found herror => ?_⟩
    obtain ⟨asked, hasked, hcalls⟩ := hmisfit.exists_calls hs hd hfounded herror
    exact hcalled hasked hcalls
  · have hmisfit := Wire.misfit_of_toValue hs hd (tellsApart_of_compile hok) hfounded h
    refine ⟨hmisfit.blamesValue, hmisfit, fun found herror => ?_⟩
    obtain ⟨asked, hasked, hcalls⟩ := hmisfit.exists_calls hs hd hfounded herror
    exact hcalled hasked hcalls

/-- A deck with a card of a suit that there is not is refused for the suit, and a card
that arrives without a suit for what it lacks. -/
theorem fails_at_misfit_cards :
    ∃ ty, cards.compile "cards" = .ok ⟨cardsScope, []⟩
      ∧ cardsScope.typeNamed "Deck" = .ok ty ∧ cardsScope.Owns ty
      ∧ (∃ shape, (∀ referrer, cardsScope.dealias ty referrer = .ok shape) ∧ shape.IsType)
      ∧ (∃ tag, ty.tag cardsScope = .ok tag)
      ∧ (deck [("suit", .enum "Suit" 7)]).toWire cardsScope ty
        = .error (.unknownEnumValue "Suit" 7)
      ∧ (deck [("suit", .enum "Suit" 7)]).Misfit cardsScope ty (.unknownEnumValue "Suit" 7)
      ∧ (Wire.list .struct [.struct [(2, .i32 9)]]).toValue cardsScope ty
        = .error (.missingField "Card" "suit")
      ∧ (Wire.list .struct [.struct [(2, .i32 9)]]).Misfit cardsScope ty
        (.missingField "Card" "suit") := by
  have hnamed : cardsScope.typeNamed "Deck" = .ok (.named ⟨"Deck", .unknown, some 2⟩) := rfl
  have hsend : (deck [("suit", .enum "Suit" 7)]).toWire cardsScope
      (.named ⟨"Deck", .unknown, some 2⟩) = .error (.unknownEnumValue "Suit" 7) := rfl
  have hreceive : (Wire.list .struct [.struct [(2, .i32 9)]]).toValue cardsScope
      (.named ⟨"Deck", .unknown, some 2⟩) = .error (.missingField "Card" "suit") := rfl
  obtain ⟨hshape, htag, hsent, hreceived⟩ :=
    fails_at_misfit_of_compile compile_cards (.named hnamed)
  exact ⟨_, compile_cards, hnamed, .named hnamed, hshape, htag, hsend,
    (hsent _ _ hsend).2.1, hreceive, (hreceived _ _ hreceive).2.1⟩

end Document

end Interlink
