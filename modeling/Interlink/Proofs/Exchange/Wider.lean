import Interlink.Proofs.Exchange.Complete
import Interlink.Proofs.Wire.Basic

/-!
# Exchange in a wider scope

A scope is **within** another one (`Scope.Within`) if the other one has the same
entities under the same handles and names, and perhaps more. What was found in
the smaller scope is found in the wider one: the target of a reference, the end
of a chain of typedefs, the tag of a type. So a value that can be sent or
received there is sent or received in the same way here (`Value.toWire_within`,
`Wire.toValue_within`).

Nothing is said of what fails in the smaller scope. A name that stands for
nothing there may stand for something in the wider one.
-/

namespace Interlink

namespace Scope

variable {s s' : Scope}

/-- **A scope is within another one**, which has its entities and names, and
perhaps more. -/
structure Within (s s' : Scope) : Prop where
  /-- An entity is in both under the same handle. -/
  entities : ∀ id e, s.entity? id = some e → s'.entity? id = some e
  /-- A name has the same handle in both. -/
  ids : ∀ name id, s.id? name = some id → s'.id? name = some id
  /-- A trail can be as long. -/
  steps : s.steps ≤ s'.steps

/-- **A scope is within itself with one more entity.** -/
theorem within_push (s : Scope) (e : Entity) : s.Within (s.push e) where
  entities id f hf := by
    obtain ⟨hid, -⟩ := List.getElem?_eq_some_iff.mp hf
    exact (List.getElem?_append_left hid).trans hf
  ids name id hid := by
    show (s.symbols ++ [(e.name, s.entities.length)]).lookup name = some id
    rw [List.lookup_append]
    have hid : s.symbols.lookup name = some id := hid
    rw [hid]
    rfl
  steps := by
    show s.entities.length ≤ (s.entities ++ [e]).length
    rw [List.length_append]
    exact Nat.le_add_right _ _

namespace Within

theorem named? (h : s.Within s') {name : String} {found : EntityId × Entity}
    (hfound : s.named? name = some found) : s'.named? name = some found := by
  obtain ⟨id, hid, hentity⟩ := Option.bind_eq_some_iff.mp hfound
  obtain ⟨e, he, rfl⟩ := Option.map_eq_some_iff.mp hentity
  refine Option.bind_eq_some_iff.mpr ⟨id, h.ids name id hid, ?_⟩
  rw [h.entities id e he]
  rfl

theorem targetOf (h : s.Within s') {r : Reference EntityId} {referrer referrer' : String}
    {found : EntityId × Entity} (hok : s.targetOf r referrer = .ok found) :
    s'.targetOf r referrer' = .ok found := by
  unfold Scope.targetOf at hok ⊢
  cases htarget : r.target with
  | none =>
    simp only [htarget] at hok ⊢
    obtain ⟨id, e⟩ := found
    exact lookup_eq_ok.mpr (h.named? (lookup_eq_ok.mp hok))
  | some id =>
    simp only [htarget] at hok ⊢
    cases he : s.entity? id with
    | none => simp only [he, reduceCtorEq] at hok
    | some e =>
      simp only [he, h.entities id e he] at hok ⊢
      split at hok
      next hname => rw [if_pos hname, hok]
      next => cases hok

/-- Typedefs still lead where they lead, also with more steps left. -/
theorem follow (h : s.Within s') {referrer referrer' : String} {left left' : Nat}
    (hleft : left ≤ left') {t : Trail} {ty : Ty} {shape : Shape}
    (hok : s.follow referrer left t ty = .ok shape) :
    s'.follow referrer' left' t ty = .ok shape := by
  fun_induction s.follow referrer left t ty generalizing left' with
  | case1 | case2 | case3 | case4 =>
    rw [Scope.follow]
    exact hok
  | case8 t r id e htarget target hbody left hnew ih =>
    obtain ⟨k, rfl⟩ : ∃ k, left' = k + 1 := ⟨left' - 1, by omega⟩
    rw [Scope.follow, h.targetOf htarget]
    simp only [hbody]
    rw [if_neg hnew]
    exact ih (Nat.le_of_succ_le_succ hleft) hok
  | case9 left t r id e htarget hbody =>
    rw [Scope.follow, h.targetOf htarget]
    dsimp only
    split
    next target htypedef => exact (hbody target htypedef).elim
    next => exact hok
  | _ => cases hok

theorem shape (h : s.Within s') {ty : Ty} {shape : Shape}
    (hok : s.shape ty = .ok shape) : s'.shape ty = .ok shape := by
  have hdealias : s'.dealias ty s'.name = .ok shape :=
    h.follow h.steps (dealias_of_shape hok)
  unfold Scope.shape
  rw [hdealias]

theorem tag (h : s.Within s') {ty : Ty} {tag : Wire.Tag} (hok : ty.tag s = .ok tag) :
    ty.tag s' = .ok tag := by
  obtain ⟨shape, hshape, htag⟩ := bind_eq_ok.mp hok
  exact bind_eq_ok.mpr ⟨shape, h.shape hshape, htag⟩

end Within

end Scope

namespace Entity.Field

variable {f : Field} {typeName : String}

/-- What is sent for a field is what is sent for the value that was set. -/
theorem send_imp {fields : List (String × Value)}
    {lower lower' : Value → Ty → Except ValueError Wire}
    (himp : ∀ x ∈ fields, ∀ ty w, lower x.2 ty = .ok w → lower' x.2 ty = .ok w)
    {o : Option (Int16 × Wire)}
    (hok : f.send typeName (fields.map fun x => (x.1, lower x.2)) = .ok o) :
    f.send typeName (fields.map fun x => (x.1, lower' x.2)) = .ok o := by
  unfold send at hok ⊢
  rw [lookup_map_snd] at hok ⊢
  cases hv : fields.lookup f.name with
  | none =>
    rw [hv] at hok
    exact hok
  | some v =>
    rw [hv] at hok
    obtain ⟨w, hw, rfl⟩ := map_eq_ok.mp hok
    exact map_eq_ok.mpr ⟨w, himp _ (mem_of_lookup_eq_some hv) _ w hw, rfl⟩

/-- What arrives for a field is what arrives for the wire value that was sent. -/
theorem receive_imp {fields : List (Int16 × Wire)}
    {raise raise' : Wire → Ty → Except ValueError Value}
    (himp : ∀ x ∈ fields, ∀ ty v, raise x.2 ty = .ok v → raise' x.2 ty = .ok v)
    {o : Option (String × Value)}
    (hok : f.receive typeName (fields.map fun x => (x.1, raise x.2)) = .ok o) :
    f.receive typeName (fields.map fun x => (x.1, raise' x.2)) = .ok o := by
  unfold receive at hok ⊢
  rw [lookup_map_snd] at hok ⊢
  cases hw : fields.lookup f.id with
  | none =>
    rw [hw] at hok
    exact hok
  | some w =>
    rw [hw] at hok
    obtain ⟨v, hv, rfl⟩ := map_eq_ok.mp hok
    exact map_eq_ok.mpr ⟨v, himp _ (mem_of_lookup_eq_some hw) _ v hv, rfl⟩

end Entity.Field

variable {s s' : Scope} {ty : Ty} {v : Value} {w : Wire}

/-- **What is sent in a scope is sent in a wider one.** -/
theorem Value.toWire_within (h : s.Within s') (hok : v.toWire s ty = .ok w) :
    v.toWire s' ty = .ok w := by
  induction v using Value.childInduction generalizing ty w with
  | step v ih =>
    obtain ⟨shape, hshape, hlowers⟩ := toWire_eq_ok.mp hok
    refine toWire_eq_ok.mpr ⟨shape, h.shape hshape, ?_⟩
    cases hlowers with
    | primitive sent => exact .primitive sent
    | list announced each =>
      refine .list (h.tag announced) (forall₂_imp_of_mem each fun u hu w hw => ?_)
      exact ih u hu hw
    | set announced each =>
      refine .set (h.tag announced) (forall₂_imp_of_mem each fun u hu w hw => ?_)
      exact ih u hu hw
    | map keys values each =>
      refine .map (h.tag keys) (h.tag values)
        (forall₂_imp_of_mem each fun x hx w hw => ?_)
      exact ⟨ih x.1 (key_mem_children hx) hw.1, ih x.2 (value_mem_children hx) hw.2⟩
    | item body member => exact .item body member
    | struct body known single each =>
      refine .struct body known single (each.imp fun f o ho => ?_)
      exact Entity.Field.send_imp
        (fun x hx ty w hw => ih x.2 (List.mem_map_of_mem hx) hw) ho

/-- **What is received in a scope is received in a wider one**, where both tell the
fields of their structs apart. -/
theorem Wire.toValue_within (h : s.Within s') (htold : s.TellsApart)
    (htold' : s'.TellsApart) (hok : w.toValue s ty = .ok v) : w.toValue s' ty = .ok v := by
  induction w using Wire.childInduction generalizing ty v with
  | step w ih =>
    obtain ⟨shape, hshape, hraises⟩ := (toValue_eq_ok htold).mp hok
    refine (toValue_eq_ok htold').mpr ⟨shape, h.shape hshape, ?_⟩
    cases hraises with
    | primitive received => exact .primitive received
    | list each => exact .list (forall₂_imp_of_mem each fun u hu v hv => ih u hu hv)
    | set each => exact .set (forall₂_imp_of_mem each fun u hu v hv => ih u hu hv)
    | map each =>
      refine .map (forall₂_imp_of_mem each fun x hx v hv => ?_)
      exact ⟨ih x.1 (key_mem_children hx) hv.1, ih x.2 (value_mem_children hx) hv.2⟩
    | item body member => exact .item body member
    | struct body each single =>
      refine .struct body (each.imp fun f o ho => ?_) single
      exact Entity.Field.receive_imp
        (fun x hx ty v hv => ih x.2 (field_mem_children hx) hv) ho

end Interlink
