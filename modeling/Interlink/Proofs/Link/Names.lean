import Mathlib.Data.List.TakeDrop
import Mathlib.Data.List.TakeWhile
import Interlink.Link.Bind
import Interlink.Proofs.Scope.Shape

/-!
# What names mean

A reference to a type is bound to the entity with its name, which is a type; a
service is bound in the same way to the service it extends (`Scope.BoundTo`). A
reference to a constant is bound to the constant with its name, or to the item
of an enum that its name spells (`Scope.BoundConst`). Which names can be bound
is a matter of the document (`Models.holds_isType`, `Models.holds_service`,
`Models.exists_means`), and so is what they are bound to.

A plain name never spells an item, since it has no dot; and of the dots in a
name the last one is that in front of the item, since items have plain names.
So a name means at most one thing, and `Scope.constTarget` finds it
(`Models.constTarget_eq_ok`).
-/

namespace Interlink

/-! ## Names with a dot -/

/-- **A text split at its last dot**: no dot comes after it. -/
theorem splitAtLastDot?_eq_some {name before after : String} :
    splitAtLastDot? name = some (before, after) ↔
      name = qualified before after ∧ '.' ∉ after.toList := by
  unfold splitAtLastDot?
  simp only [List.span_eq_takeWhile_dropWhile]
  constructor
  · intro h
    split at h
    next => cases h
    next dot rest hdrop =>
      cases h
      have hdot : dot = '.' := by
        have hhead := List.head_dropWhile_not (fun c => c != '.')
          (l := name.toList.reverse) (by rw [hdrop]; exact List.cons_ne_nil _ _)
        simpa [hdrop] using hhead
      have hsplit : name.toList.reverse
          = name.toList.reverse.takeWhile (fun c => c != '.') ++ '.' :: rest :=
        calc name.toList.reverse
            = name.toList.reverse.takeWhile (fun c => c != '.')
              ++ name.toList.reverse.dropWhile (fun c => c != '.') :=
              List.takeWhile_append_dropWhile.symm
          _ = _ := by rw [hdrop, hdot]
      constructor
      · have hname := congrArg List.reverse hsplit
        rw [List.reverse_reverse] at hname
        refine String.toList_inj.mp (hname.trans ?_)
        simp [qualified]
      · rw [String.toList_ofList, List.mem_reverse]
        intro hmem
        simpa using List.mem_takeWhile_imp hmem
  · rintro ⟨rfl, hnot⟩
    have hrev : (qualified before after).toList.reverse
        = after.toList.reverse ++ '.' :: before.toList.reverse := by
      simp [qualified]
    have hplain : ∀ c ∈ after.toList.reverse, (c != '.') = true := by
      intro c hc
      have hne : c ≠ '.' := fun h => hnot (h ▸ List.mem_reverse.mp hc)
      simpa using hne
    rw [hrev, List.dropWhile_append_of_pos hplain,
      List.takeWhile_append_of_pos hplain]
    simp

/-- A name with a dot in it is not plain. -/
theorem not_isPlain_qualified {before after : String} :
    ¬ IsPlain (qualified before after) := by
  intro h
  refine h.2 ?_
  simp [qualified]

/-- The items of an enum have no dots in their names. -/
theorem EnumItem.NumberedAs.dotless {items : List EnumItem}
    {numbered : List Entity.Item} (h : EnumItem.NumberedAs items 0 numbered)
    (hsound : EnumItem.Sound items) :
    ∀ item ∈ numbered, '.' ∉ item.name.toList := by
  intro item hitem
  have hname : item.name ∈ items.map EnumItem.name := by
    rw [← h.map_name]
    exact List.mem_map.mpr ⟨item, hitem, rfl⟩
  obtain ⟨i, hi, heq⟩ := List.mem_map.mp hname
  rw [← heq]
  exact (hsound.plain i hi).2

namespace Scope

variable {s s' : Scope} {d : Document} {id : EntityId} {e : Entity}

/-! ## What a name means -/

/-- A scope holds an entity with a name, of one of some kinds. -/
def Holds (s : Scope) (kinds : Entity.Kind → Bool) (name : String) : Prop :=
  ∃ id e, s.entity? id = some e ∧ e.name = name ∧ kinds e.kind = true

/-- **A reference is bound** to the entity with its name, which is of one of
some kinds. -/
def BoundTo (s : Scope) (kinds : Entity.Kind → Bool) (r : Reference EntityId) :
    Prop :=
  ∃ id e, r.target = some id ∧ s.entity? id = some e ∧ e.name = r.name
    ∧ kinds e.kind = true

/-- **What a name means as a constant**: the constant with that name, or the
item of an enum that the name spells, the last dot of the name being that in
front of the item. -/
def Means (s : Scope) (name : String) : ConstTarget → Prop
  | .const id => ∃ e, s.entity? id = some e ∧ e.name = name ∧ e.kind = .constant
  | .item id n => ∃ e items item, s.entity? id = some e ∧ e.body = .enum items
    ∧ item ∈ items ∧ name = qualified e.name item.name
    ∧ '.' ∉ item.name.toList ∧ item.value = n

/-- **A constant reference is bound** to what its name means. -/
def BoundConst (s : Scope) (r : Reference ConstTarget) : Prop :=
  ∃ target, r.target = some target ∧ s.Means r.name target

theorem IsArena.agrees_of_boundTo (h : s.IsArena) {kinds : Entity.Kind → Bool}
    {r : Reference EntityId} (hr : s.BoundTo kinds r) : s.Agrees r := by
  obtain ⟨id, e, htarget, he, hname, -⟩ := hr
  exact .inr (htarget.trans (h.id?_eq_some.mpr ⟨e, he, hname⟩).symm)

theorem means_of_erase_eq (heq : s'.erase = s.erase) {name : String}
    {target : ConstTarget} (h : s.Means name target) : s'.Means name target := by
  cases target with
  | const id =>
    obtain ⟨e, he, hname, hkind⟩ := h
    obtain ⟨e', he', herase⟩ := exists_entity?_of_erase_eq heq he
    exact ⟨e', he', (Entity.name_eq_of_erase_eq herase).trans hname,
      (Entity.kind_eq_of_erase_eq herase).trans hkind⟩
  | item id n =>
    obtain ⟨e, items, item, he, hbody, hitem, hname, hdot, hn⟩ := h
    obtain ⟨e', he', herase⟩ := exists_entity?_of_erase_eq heq he
    have hname' := Entity.name_eq_of_erase_eq herase
    have hbody' : e'.body.erase = .enum items := by
      rw [← Entity.erase_body, herase, Entity.erase_body, hbody]
      rfl
    refine ⟨e', items, item, he', ?_, hitem, hname'.symm ▸ hname, hdot, hn⟩
    cases hb : e'.body <;> rw [hb] at hbody' <;> cases hbody'
    rfl

theorem boundTo_of_erase_eq (heq : s'.erase = s.erase)
    {kinds : Entity.Kind → Bool} {r : Reference EntityId}
    (h : s.BoundTo kinds r) : s'.BoundTo kinds r := by
  obtain ⟨id, e, htarget, he, hname, hkind⟩ := h
  obtain ⟨e', he', herase⟩ := exists_entity?_of_erase_eq heq he
  exact ⟨id, e', htarget, he', (Entity.name_eq_of_erase_eq herase).trans hname,
    (Entity.kind_eq_of_erase_eq herase).symm ▸ hkind⟩

/-- Whether a constant reference is bound depends on the erasure of the scope
only. -/
theorem boundConst_of_erase_eq (heq : s'.erase = s.erase)
    {r : Reference ConstTarget} (h : s.BoundConst r) : s'.BoundConst r := by
  obtain ⟨target, htarget, hmeans⟩ := h
  exact ⟨target, htarget, means_of_erase_eq heq hmeans⟩

namespace Models

/-- A scope holds a type with a name when the document defines one. -/
theorem holds_isType (h : s.Models d) {name : String} :
    s.Holds Entity.Kind.isType name ↔ d.NamesType name := by
  constructor
  · rintro ⟨id, e, he, rfl, hkind⟩
    obtain ⟨body, hdefines, hdeclared⟩ := h.exists_defines he
    refine ⟨body, hdefines, ?_⟩
    unfold Entity.kind at hkind
    generalize e.body = b at hdeclared hkind
    cases hdeclared with
    | const => cases hkind
    | service => cases hkind
    | _ => trivial
  · rintro ⟨body, hdefines, htype⟩
    obtain ⟨id, e, he, hname, hdeclared⟩ := h.exists_entity hdefines
    refine ⟨id, e, he, hname, ?_⟩
    unfold Entity.kind
    generalize e.body = b at hdeclared
    cases hdeclared with
    | const => cases htype
    | service => cases htype
    | _ => rfl

/-- A scope holds a service with a name when the document defines one. -/
theorem holds_service (h : s.Models d) {name : String} :
    s.Holds (fun kind => kind == .service) name ↔
      ∃ functions parent, d.Defines name (.service functions parent) := by
  constructor
  · rintro ⟨id, e, he, rfl, hkind⟩
    obtain ⟨body, hdefines, hdeclared⟩ := h.exists_defines he
    unfold Entity.kind at hkind
    generalize e.body = b at hdeclared hkind
    cases hdeclared with
    | service => exact ⟨_, _, hdefines⟩
    | _ => cases hkind
  · rintro ⟨functions, parent, hdefines⟩
    obtain ⟨id, e, he, hname, hdeclared⟩ := h.exists_entity hdefines
    refine ⟨id, e, he, hname, ?_⟩
    unfold Entity.kind
    generalize e.body = b at hdeclared
    cases hdeclared
    rfl

/-- A name that means a constant is defined as one. -/
theorem defines_of_means (h : s.Models d) {name : String}
    (hmeans : s.Means name (.const id)) :
    ∃ type value, d.Defines name (.const type value) := by
  obtain ⟨e, he, rfl, hkind⟩ := hmeans
  obtain ⟨body, hdefines, hdeclared⟩ := h.exists_defines he
  unfold Entity.kind at hkind
  generalize e.body = b at hdeclared hkind
  cases hdeclared with
  | const => exact ⟨_, _, hdefines⟩
  | _ => cases hkind

/-- **A name that means an item of an enum** spells one of the document, with
the same number. -/
theorem namesItem_of_means (h : s.Models d) {name : String} {n : Int32}
    (hmeans : s.Means name (.item id n)) (he : s.entity? id = some e) :
    d.NamesItem name e.name n.toInt := by
  obtain ⟨e', items, item, he', hbody, hitem, rfl, -, rfl⟩ := hmeans
  rw [he] at he'
  cases he'
  obtain ⟨body, hdefines, hdeclared⟩ := h.exists_defines he
  rw [hbody] at hdeclared
  cases hdeclared with | enum _ hnumbers =>
  refine ⟨_, item.name, rfl, hdefines, ?_⟩
  rw [← hnumbers.numbers]
  exact List.mem_map.mpr ⟨item, hitem, rfl⟩

/-- **A name that spells an item of an enum** means it. -/
theorem means_of_namesItem (h : s.Models d) {name enumName : String} {n : Int}
    (hnames : d.NamesItem name enumName n) :
    ∃ id e k, s.entity? id = some e ∧ e.name = enumName ∧ k.toInt = n
      ∧ s.Means name (.item id k) := by
  obtain ⟨items, itemName, rfl, hdefines, hmember⟩ := hnames
  obtain ⟨id, e, he, rfl, hdeclared⟩ := h.exists_entity hdefines
  generalize hbody : e.body = b at hdeclared
  cases hdeclared with | enum hsound hnumbers =>
  rw [← hnumbers.numbers] at hmember
  obtain ⟨item, hitem, heq⟩ := List.mem_map.mp hmember
  obtain ⟨rfl, rfl⟩ := Prod.mk.inj heq
  exact ⟨id, e, item.value, he, rfl, rfl, e, _, item, he, hbody, hitem, rfl,
    hnumbers.dotless hsound item hitem, rfl⟩

/-- **A name that is defined as a constant** means it. -/
theorem means_of_defines (h : s.Models d) {name : String} {type : TypeExpr}
    {value : ConstExpr} (hdefines : d.Defines name (.const type value)) :
    ∃ id e, s.entity? id = some e ∧ e.name = name ∧ s.Means name (.const id) := by
  obtain ⟨id, e, he, hname, hdeclared⟩ := h.exists_entity hdefines
  refine ⟨id, e, he, hname, e, he, hname, ?_⟩
  unfold Entity.kind
  generalize e.body = b at hdeclared
  cases hdeclared
  rfl

/-- **The names that mean something as a constant** are those of constants and
those that spell an item. -/
theorem exists_means (h : s.Models d) {name : String} :
    (∃ target, s.Means name target) ↔ d.NamesConstant name := by
  constructor
  · rintro ⟨target, hmeans⟩
    cases target with
    | const id => exact .inl (h.defines_of_means hmeans)
    | item id n =>
      have ⟨e, _, _, he, _⟩ := hmeans
      exact .inr ⟨e.name, n.toInt, h.namesItem_of_means hmeans he⟩
  · rintro (⟨type, value, hdefines⟩ | ⟨enumName, n, hnames⟩)
    · obtain ⟨id, e, -, -, hmeans⟩ := h.means_of_defines hdefines
      exact ⟨.const id, hmeans⟩
    · obtain ⟨id, e, k, -, -, -, hmeans⟩ := h.means_of_namesItem hnames
      exact ⟨.item id k, hmeans⟩

/-- The items of an enum have different names. -/
theorem nodup_items (h : s.Models d) (he : s.entity? id = some e)
    {items : List Entity.Item} (hbody : e.body = .enum items) :
    (items.map Entity.Item.name).Nodup := by
  obtain ⟨body, -, hdeclared⟩ := h.exists_defines he
  rw [hbody] at hdeclared
  cases hdeclared with | enum hsound hnumbers =>
  exact hnumbers.map_name ▸ hsound.distinct

/-- **Looking up an item of an enum** finds what its name means. -/
theorem item?_eq_some (h : s.Models d) {name : String} {target : ConstTarget} :
    s.item? name = some target ↔
      ∃ id n, target = .item id n ∧ s.Means name (.item id n) := by
  simp only [item?, Option.bind_eq_bind, Option.bind_eq_some_iff, Prod.exists,
    splitAtLastDot?_eq_some, h.arena.named?_eq_some]
  constructor
  · rintro ⟨_, itemName, ⟨rfl, hdot⟩, id, e, ⟨he, rfl⟩, hmatch⟩
    split at hmatch
    next items hbody =>
      obtain ⟨item, hfind, hpure⟩ := Option.bind_eq_some_iff.mp hmatch
      cases hpure
      obtain rfl : item.name = itemName := by simpa using List.find?_some hfind
      exact ⟨id, item.value, rfl, e, items, item, he, hbody,
        List.mem_of_find?_eq_some hfind, rfl, hdot, rfl⟩
    next => cases hmatch
  · rintro ⟨id, n, rfl, e, items, item, he, hbody, hitem, rfl, hdot, rfl⟩
    refine ⟨e.name, item.name, ⟨rfl, hdot⟩, id, e, ⟨he, rfl⟩, ?_⟩
    rw [hbody]
    exact Option.bind_eq_some_iff.mpr
      ⟨item, find?_eq_some_of_mem (h.nodup_items he hbody) hitem, rfl⟩

/-- **A constant reference is looked up** to find what its name means. -/
theorem constTarget_eq_ok (h : s.Models d) (referrer : String)
    {r : Reference ConstTarget} {target : ConstTarget} :
    s.constTarget referrer r = .ok target ↔ s.Means r.name target := by
  unfold constTarget
  cases hnamed : s.named? r.name with
  | none =>
    dsimp only
    -- only an item can be meant, as no entity has the name
    have hmeans : s.Means r.name target ↔ s.item? r.name = some target := by
      rw [h.item?_eq_some]
      constructor
      · intro hmeans
        cases target with
        | const id =>
          obtain ⟨e, he, hname, -⟩ := hmeans
          rw [h.arena.named?_eq_some.mpr ⟨he, hname⟩] at hnamed
          cases hnamed
        | item id n => exact ⟨id, n, rfl, hmeans⟩
      · rintro ⟨id, n, rfl, hmeans⟩
        exact hmeans
    rw [hmeans]
    cases s.item? r.name <;> simp
  | some found =>
    obtain ⟨id, e⟩ := found
    obtain ⟨he, hname⟩ := h.arena.named?_eq_some.mp hnamed
    obtain ⟨body, hdefines, -⟩ := h.exists_defines he
    -- a name of an entity is plain, so it spells no item
    have hplain := hname ▸ h.isPlain hdefines
    by_cases hkind : e.kind = .constant
    · simp only [hkind, if_true, Except.ok.injEq]
      constructor
      · rintro rfl
        exact ⟨e, he, hname, hkind⟩
      · intro hmeans
        cases target with
        | const j =>
          obtain ⟨f, hf, hfname, -⟩ := hmeans
          rw [(h.arena.entity?_inj he hf (hname.trans hfname.symm)).1]
        | item j n =>
          obtain ⟨_, _, _, _, _, _, hspelt, -⟩ := hmeans
          exact absurd (hspelt ▸ hplain) not_isPlain_qualified
    · simp only [hkind, if_false, reduceCtorEq, false_iff]
      intro hmeans
      cases target with
      | const j =>
        obtain ⟨f, hf, hfname, hfkind⟩ := hmeans
        obtain ⟨-, rfl⟩ := h.arena.entity?_inj he hf (hname.trans hfname.symm)
        exact hkind hfkind
      | item j n =>
        obtain ⟨_, _, _, _, _, _, hspelt, -⟩ := hmeans
        exact not_isPlain_qualified (hspelt ▸ hplain)

/-- **A name means at most one thing** as a constant. -/
theorem means_unique (h : s.Models d) {name : String}
    {target target' : ConstTarget} (ht : s.Means name target)
    (ht' : s.Means name target') : target = target' := by
  -- looking the name up gives both
  have hok := (h.constTarget_eq_ok "" (r := ⟨name, .unknown, none⟩)).mpr ht
  rw [(h.constTarget_eq_ok "" (r := ⟨name, .unknown, none⟩)).mpr ht'] at hok
  exact (Except.ok.inj hok).symm

end Models

end Scope

end Interlink
