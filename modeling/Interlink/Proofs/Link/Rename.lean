import Interlink.Proofs.Link.MethodLists

/-!
# Scopes that differ in their handles

A handle is a place in the order of declaration. When definitions are declared
in another order, an entity has another handle, and so has everything that
refers to it. `Entity.rename` changes the handles in an entity: the targets of
its references, and the services of its methods. Values have no handles in
them.

Two scopes are **aligned** (`Scope.Aligned`) if they have the same declarations
under handles that a renaming takes to each other. This says nothing about what
was linked in them. But a reference that is bound in both is bound to what its
name means in both, so the one is the other renamed (`Aligned.reference_eq`),
and so it is for everything that is made of references (`Aligned.body_eq`).
-/

namespace Interlink

/-! ## Renaming -/

section Rename

variable (ρ : EntityId → EntityId)

/-- A reference to another target. -/
def Reference.rename {τ : Type} (f : τ → τ) (r : Reference τ) : Reference τ :=
  { r with target := r.target.map f }

def Ty.rename : Ty → Ty
  | .primitive p => .primitive p
  | .list element => .list element.rename
  | .set element => .set element.rename
  | .map key value => .map key.rename value.rename
  | .named r => .named (r.rename ρ)

/-- The same target under another handle. -/
def ConstTarget.rename : ConstTarget → ConstTarget
  | .const id => .const (ρ id)
  | .item enumId value => .item (ρ enumId) value

namespace Init

mutual

def rename : Init → Init
  | .list items => .list (renameItems items)
  | .map entries => .map (renameEntries entries)
  | .reference r => .reference (r.rename (ConstTarget.rename ρ))
  | init => init

def renameItems : List Init → List Init
  | [] => []
  | item :: items => item.rename :: renameItems items

def renameEntries : List (Init × Init) → List (Init × Init)
  | [] => []
  | (key, value) :: entries => (key.rename, value.rename) :: renameEntries entries

end

end Init

namespace Entity

def Field.rename (f : Field) : Field :=
  { f with type := f.type.rename ρ, default := f.default.map (Init.rename ρ) }

def Function.rename (f : Function) : Function :=
  { f with
    parameters := f.parameters.map (Field.rename ρ)
    returns := f.returns.map (Ty.rename ρ)
    exceptions := f.exceptions.map (Field.rename ρ) }

def Body.rename : Body → Body
  | .const type init value => .const (type.rename ρ) (init.rename ρ) value
  | .typedef target => .typedef (target.rename ρ)
  | .enum items => .enum items
  | .struct kind fields => .struct kind (fields.map (Field.rename ρ))
  | .service functions parent methods =>
    .service (functions.map (Function.rename ρ))
      (parent.map (Reference.rename ρ)) (methods.map (Method.rename ρ))

/-- **What linking has stored in two bodies is the same**, up to handles: the
values of constants and of defaults, and the methods of services. -/
def Body.SameStored : Body → Body → Prop
  | .const _ _ value, .const _ _ value' => value = value'
  | .struct _ fields, .struct _ fields' =>
    fields'.map Field.defaultValue = fields.map Field.defaultValue
  | .service functions _ methods, .service functions' _ methods' =>
    (functions'.map fun f => f.parameters.map Field.defaultValue)
        = (functions.map fun f => f.parameters.map Field.defaultValue)
      ∧ (functions'.map fun f => f.exceptions.map Field.defaultValue)
        = (functions.map fun f => f.exceptions.map Field.defaultValue)
      ∧ methods' = methods.map (Method.rename ρ)
  | _, _ => True

/-- **An entity with other handles.** -/
def rename (e : Entity) : Entity := { e with body := e.body.rename ρ }

end Entity

end Rename

open Entity (Function Method)

/-! ## Scopes that are aligned -/

namespace Scope

variable {ρ : EntityId → EntityId} {s s' : Scope} {d' : Document}
  {id : EntityId} {e : Entity}

/-- **Two scopes are aligned**: they have the same declarations, names and
handles agree in the one, and the other is the scope of a document. -/
structure Aligned (ρ : EntityId → EntityId) (s s' : Scope) (d' : Document) : Prop
    extends Corresponds ρ s s' where
  /-- Names and handles agree in the one. -/
  arena : s.IsArena
  /-- The other one is the scope of a document. -/
  models : s'.Models d'

namespace Aligned

/-! ### References -/

/-- **A reference that is bound in both scopes** is bound to the same name. -/
theorem reference_eq (h : Aligned ρ s s' d') {kinds kinds' : Entity.Kind → Bool}
    {r r' : Reference EntityId} (herase : r'.erase = r.erase)
    (hr : s.BoundTo kinds r) (hr' : s'.BoundTo kinds' r') : r' = r.rename ρ := by
  obtain ⟨id, e, htarget, he, hname, -⟩ := hr
  obtain ⟨j, e', htarget', he', hname', -⟩ := hr'
  have hsame : r'.name = r.name := (congrArg Reference.name herase :)
  have hspan : r'.span = r.span := (congrArg Reference.span herase :)
  have hid := h.ids _ _ (h.arena.id?_eq_some.mpr ⟨e, he, hname⟩)
  have hj := h.models.arena.id?_eq_some.mpr ⟨e', he', hname'⟩
  rw [hsame, hid] at hj
  obtain ⟨name, span, target⟩ := r'
  cases hsame
  cases hspan
  cases htarget'.trans hj.symm
  unfold Reference.rename
  rw [htarget]
  rfl

/-- **What a name means as a constant** in the one it means in the other. -/
theorem means (h : Aligned ρ s s' d') {name : String} {target : ConstTarget}
    (hmeans : s.Means name target) : s'.Means name (target.rename ρ) := by
  cases target with
  | const id =>
    obtain ⟨e, he, hname, hkind⟩ := hmeans
    obtain ⟨e', he', herase⟩ := h.held id e he
    exact ⟨e', he', (Entity.name_eq_of_erase_eq herase).trans hname,
      (Entity.kind_eq_of_erase_eq herase).trans hkind⟩
  | item id n =>
    obtain ⟨e, items, item, he, hbody, hitem, hname, hdot, hn⟩ := hmeans
    obtain ⟨e', he', herase⟩ := h.held id e he
    have hbody' : e'.body.erase = .enum items := by
      rw [← Entity.erase_body, herase, Entity.erase_body, hbody]
      rfl
    refine ⟨e', items, item, he', ?_, hitem,
      (Entity.name_eq_of_erase_eq herase).symm ▸ hname, hdot, hn⟩
    cases hb : e'.body <;> rw [hb] at hbody' <;> cases hbody'
    rfl

/-- A reference to a constant that is bound in both scopes is bound to the same
thing. -/
theorem constReference_eq (h : Aligned ρ s s' d') {r r' : Reference ConstTarget}
    (herase : r'.erase = r.erase) (hr : s.BoundConst r) (hr' : s'.BoundConst r') :
    r' = r.rename (ConstTarget.rename ρ) := by
  obtain ⟨target, htarget, hmeans⟩ := hr
  obtain ⟨target', htarget', hmeans'⟩ := hr'
  have hsame : r'.name = r.name := (congrArg Reference.name herase :)
  have hspan : r'.span = r.span := (congrArg Reference.span herase :)
  have heq := h.models.means_unique (hsame ▸ hmeans') (h.means hmeans)
  obtain ⟨name, span, bound⟩ := r'
  cases hsame
  cases hspan
  cases htarget'.trans (congrArg some heq)
  unfold Reference.rename
  rw [htarget]
  rfl

theorem type_eq (h : Aligned ρ s s' d') {kinds kinds' : Entity.Kind → Bool}
    {ty ty' : Ty} (herase : ty'.erase = ty.erase)
    (hty : ∀ r ∈ ty.references, s.BoundTo kinds r)
    (hty' : ∀ r ∈ ty'.references, s'.BoundTo kinds' r) : ty' = ty.rename ρ := by
  induction ty generalizing ty' with
  | primitive p =>
    cases ty' <;> cases herase
    rfl
  | list element ih =>
    cases ty' <;> simp only [Ty.erase, reduceCtorEq, Ty.list.injEq] at herase
    exact congrArg Ty.list (ih herase hty hty')
  | set element ih =>
    cases ty' <;> simp only [Ty.erase, reduceCtorEq, Ty.set.injEq] at herase
    exact congrArg Ty.set (ih herase hty hty')
  | map key value ihk ihv =>
    cases ty' <;> simp only [Ty.erase, reduceCtorEq, Ty.map.injEq] at herase
    refine congrArg₂ Ty.map (ihk herase.1 (fun r hr => ?_) fun r hr => ?_)
      (ihv herase.2 (fun r hr => ?_) fun r hr => ?_)
    · exact hty r (List.mem_append_left _ hr)
    · exact hty' r (List.mem_append_left _ hr)
    · exact hty r (List.mem_append_right _ hr)
    · exact hty' r (List.mem_append_right _ hr)
  | named r =>
    cases ty' <;> simp only [Ty.erase, reduceCtorEq, Ty.named.injEq] at herase
    exact congrArg Ty.named (h.reference_eq herase (hty r (List.mem_singleton_self r))
      (hty' _ (List.mem_singleton_self _)))

mutual

theorem init_eq (h : Aligned ρ s s' d') {init init' : Init}
    (herase : init'.erase = init.erase)
    (hinit : ∀ r ∈ init.references, s.BoundConst r)
    (hinit' : ∀ r ∈ init'.references, s'.BoundConst r) : init' = init.rename ρ := by
  cases init with
  | list items =>
    cases init' <;> simp only [Init.erase, reduceCtorEq, Init.list.injEq] at herase
    exact congrArg Init.list (items_eq h herase hinit hinit')
  | map entries =>
    cases init' <;> simp only [Init.erase, reduceCtorEq, Init.map.injEq] at herase
    exact congrArg Init.map (entries_eq h herase hinit hinit')
  | reference r =>
    cases init' <;>
      simp only [Init.erase, reduceCtorEq, Init.reference.injEq] at herase
    exact congrArg Init.reference (h.constReference_eq herase
      (hinit r (List.mem_singleton_self r)) (hinit' _ (List.mem_singleton_self _)))
  | _ =>
    cases init' <;> cases herase
    rfl

theorem items_eq (h : Aligned ρ s s' d') {items items' : List Init}
    (herase : Init.eraseItems items' = Init.eraseItems items)
    (hitems : ∀ r ∈ Init.itemReferences items, s.BoundConst r)
    (hitems' : ∀ r ∈ Init.itemReferences items', s'.BoundConst r) :
    items' = Init.renameItems ρ items := by
  cases items with
  | nil =>
    cases items' <;> cases herase
    rfl
  | cons item items =>
    cases items' <;>
      simp only [Init.eraseItems, reduceCtorEq, List.cons.injEq] at herase
    refine congrArg₂ List.cons (init_eq h herase.1 (fun r hr => ?_) fun r hr => ?_)
      (items_eq h herase.2 (fun r hr => ?_) fun r hr => ?_)
    · exact hitems r (List.mem_append_left _ hr)
    · exact hitems' r (List.mem_append_left _ hr)
    · exact hitems r (List.mem_append_right _ hr)
    · exact hitems' r (List.mem_append_right _ hr)

theorem entries_eq (h : Aligned ρ s s' d') {entries entries' : List (Init × Init)}
    (herase : Init.eraseEntries entries' = Init.eraseEntries entries)
    (hentries : ∀ r ∈ Init.entryReferences entries, s.BoundConst r)
    (hentries' : ∀ r ∈ Init.entryReferences entries', s'.BoundConst r) :
    entries' = Init.renameEntries ρ entries := by
  cases entries with
  | nil =>
    cases entries' <;> cases herase
    rfl
  | cons entry entries =>
    obtain ⟨key, value⟩ := entry
    cases entries' with
    | nil => cases herase
    | cons entry' entries' =>
    obtain ⟨key', value'⟩ := entry'
    simp only [Init.eraseEntries, List.cons.injEq, Prod.mk.injEq] at herase
    refine congrArg₂ List.cons (congrArg₂ Prod.mk
      (init_eq h herase.1.1 (fun r hr => ?_) fun r hr => ?_)
      (init_eq h herase.1.2 (fun r hr => ?_) fun r hr => ?_))
      (entries_eq h herase.2 (fun r hr => ?_) fun r hr => ?_)
    · exact hentries r (List.mem_append_left _ (List.mem_append_left _ hr))
    · exact hentries' r (List.mem_append_left _ (List.mem_append_left _ hr))
    · exact hentries r (List.mem_append_left _ (List.mem_append_right _ hr))
    · exact hentries' r (List.mem_append_left _ (List.mem_append_right _ hr))
    · exact hentries r (List.mem_append_right _ hr)
    · exact hentries' r (List.mem_append_right _ hr)

end

/-! ### Members -/

theorem field_eq (h : Aligned ρ s s' d') {kinds kinds' : Entity.Kind → Bool}
    {g g' : Entity.Field} (herase : g'.erase = g.erase)
    (hvalue : g'.defaultValue = g.defaultValue)
    (htypes : ∀ r ∈ g.type.references, s.BoundTo kinds r)
    (htypes' : ∀ r ∈ g'.type.references, s'.BoundTo kinds' r)
    (hconstants : ∀ r ∈ g.defaultReferences, s.BoundConst r)
    (hconstants' : ∀ r ∈ g'.defaultReferences, s'.BoundConst r) :
    g' = g.rename ρ := by
  obtain ⟨id, name, type, requiredness, default, value, span⟩ := g
  obtain ⟨id', name', type', requiredness', default', value', span'⟩ := g'
  simp only [Entity.Field.erase, Entity.Field.mk.injEq, true_and] at herase
  obtain ⟨rfl, rfl, htype, rfl, hdefault, rfl⟩ := herase
  cases hvalue
  have hdefault' : default' = default.map (Init.rename ρ) := by
    cases default with
    | none => exact Option.map_eq_none_iff.mp hdefault
    | some init =>
      obtain ⟨init', rfl, hinit⟩ := Option.map_eq_some_iff.mp hdefault
      exact congrArg some (h.init_eq hinit hconstants hconstants')
  rw [h.type_eq htype htypes htypes', hdefault']
  rfl

/-- **Lists of fields** that are bound in both scopes and have the same
values. -/
theorem fields_eq (h : Aligned ρ s s' d') {kinds kinds' : Entity.Kind → Bool}
    {fields fields' : List Entity.Field}
    (herase : fields'.map Entity.Field.erase = fields.map Entity.Field.erase)
    (hvalues : fields'.map Entity.Field.defaultValue = fields.map Entity.Field.defaultValue)
    (htypes : ∀ r ∈ fields.flatMap fun g => g.type.references, s.BoundTo kinds r)
    (htypes' : ∀ r ∈ fields'.flatMap fun g => g.type.references,
      s'.BoundTo kinds' r)
    (hconstants : ∀ r ∈ fields.flatMap Entity.Field.defaultReferences, s.BoundConst r)
    (hconstants' : ∀ r ∈ fields'.flatMap Entity.Field.defaultReferences,
      s'.BoundConst r) : fields' = fields.map (Entity.Field.rename ρ) := by
  induction fields generalizing fields' with
  | nil => exact List.map_eq_nil_iff.mp herase
  | cons g fields ih =>
    cases fields' with
    | nil => cases herase
    | cons g' fields' =>
    simp only [List.map_cons, List.cons.injEq] at herase hvalues
    simp only [List.flatMap_cons, List.forall_mem_append] at htypes htypes'
    simp only [List.flatMap_cons, List.forall_mem_append] at hconstants hconstants'
    rw [List.map_cons, ih herase.2 hvalues.2 htypes.2 htypes'.2 hconstants.2
      hconstants'.2, h.field_eq herase.1 hvalues.1 htypes.1 htypes'.1 hconstants.1
      hconstants'.1]

theorem function_eq (h : Aligned ρ s s' d') {kinds kinds' : Entity.Kind → Bool}
    {f f' : Function} (herase : f'.erase = f.erase)
    (hparameters : f'.parameters.map Entity.Field.defaultValue
      = f.parameters.map Entity.Field.defaultValue)
    (hexceptions : f'.exceptions.map Entity.Field.defaultValue
      = f.exceptions.map Entity.Field.defaultValue)
    (htypes : ∀ r ∈ f.typeReferences, s.BoundTo kinds r)
    (htypes' : ∀ r ∈ f'.typeReferences, s'.BoundTo kinds' r)
    (hconstants : ∀ r ∈ f.constReferences, s.BoundConst r)
    (hconstants' : ∀ r ∈ f'.constReferences, s'.BoundConst r) :
    f' = f.rename ρ := by
  obtain ⟨name, parameters, returns, exceptions, oneway, span⟩ := f
  obtain ⟨name', parameters', returns', exceptions', oneway', span'⟩ := f'
  simp only [Function.erase, Function.mk.injEq] at herase
  obtain ⟨rfl, hpar, hret, hexc, rfl, rfl⟩ := herase
  simp only [Function.typeReferences, Function.constReferences,
    List.forall_mem_append] at htypes htypes' hconstants hconstants'
  have hreturns : returns' = returns.map (Ty.rename ρ) := by
    cases returns with
    | none => exact Option.map_eq_none_iff.mp hret
    | some ty =>
      obtain ⟨ty', rfl, hty⟩ := Option.map_eq_some_iff.mp hret
      exact congrArg some (h.type_eq hty htypes.1.2 htypes'.1.2)
  rw [hreturns, h.fields_eq hpar hparameters htypes.1.1 htypes'.1.1 hconstants.1
    hconstants'.1, h.fields_eq hexc hexceptions htypes.2 htypes'.2 hconstants.2
    hconstants'.2]
  rfl

/-- **Lists of functions** that are bound in both scopes and have the same
values. -/
theorem functions_eq (h : Aligned ρ s s' d') {kinds kinds' : Entity.Kind → Bool}
    {functions functions' : List Function}
    (herase : functions'.map Function.erase = functions.map Function.erase)
    (hparameters : (functions'.map fun f => f.parameters.map Entity.Field.defaultValue)
      = functions.map fun f => f.parameters.map Entity.Field.defaultValue)
    (hexceptions : (functions'.map fun f => f.exceptions.map Entity.Field.defaultValue)
      = functions.map fun f => f.exceptions.map Entity.Field.defaultValue)
    (htypes : ∀ r ∈ functions.flatMap Function.typeReferences, s.BoundTo kinds r)
    (htypes' : ∀ r ∈ functions'.flatMap Function.typeReferences,
      s'.BoundTo kinds' r)
    (hconstants : ∀ r ∈ functions.flatMap Function.constReferences,
      s.BoundConst r)
    (hconstants' : ∀ r ∈ functions'.flatMap Function.constReferences,
      s'.BoundConst r) : functions' = functions.map (Function.rename ρ) := by
  induction functions generalizing functions' with
  | nil => exact List.map_eq_nil_iff.mp herase
  | cons f functions ih =>
    cases functions' with
    | nil => cases herase
    | cons f' functions' =>
    simp only [List.map_cons, List.cons.injEq] at herase hparameters hexceptions
    simp only [List.flatMap_cons, List.forall_mem_append] at htypes htypes'
    simp only [List.flatMap_cons, List.forall_mem_append] at hconstants hconstants'
    rw [List.map_cons, ih herase.2 hparameters.2 hexceptions.2 htypes.2 htypes'.2
      hconstants.2 hconstants'.2, h.function_eq herase.1 hparameters.1
      hexceptions.1 htypes.1 htypes'.1 hconstants.1 hconstants'.1]

/-- **Bodies that are bound in both scopes** and have the same values and
methods. -/
theorem body_eq (h : Aligned ρ s s' d') {b b' : Entity.Body}
    (herase : b'.erase = b.erase) (hbound : b.Bound s) (hbound' : b'.Bound s')
    (hsame : Entity.Body.SameStored ρ b b') : b' = b.rename ρ := by
  obtain ⟨htypes, hconstants, hparent⟩ := hbound
  obtain ⟨htypes', hconstants', hparent'⟩ := hbound'
  cases b with
  | const type init value =>
    cases b' <;> simp only [Entity.Body.erase, reduceCtorEq,
      Entity.Body.const.injEq] at herase
    obtain rfl := hsame
    rw [h.type_eq herase.1 htypes htypes', h.init_eq herase.2.1 hconstants hconstants']
    rfl
  | typedef target =>
    cases b' <;> simp only [Entity.Body.erase, reduceCtorEq,
      Entity.Body.typedef.injEq] at herase
    exact congrArg Entity.Body.typedef (h.type_eq herase htypes htypes')
  | enum items =>
    cases b' <;> simp only [Entity.Body.erase, reduceCtorEq,
      Entity.Body.enum.injEq] at herase
    exact congrArg Entity.Body.enum herase
  | struct kind fields =>
    cases b' <;> simp only [Entity.Body.erase, reduceCtorEq,
      Entity.Body.struct.injEq] at herase
    obtain ⟨rfl, hfields⟩ := herase
    exact congrArg (Entity.Body.struct _)
      (h.fields_eq hfields hsame htypes htypes' hconstants hconstants')
  | service functions parent methods =>
    cases b' with
    | service functions' parent' methods' =>
      simp only [Entity.Body.erase, Entity.Body.service.injEq, and_true] at herase
      obtain ⟨hparameters, hexceptions, rfl⟩ := hsame
      have hparent_eq : parent' = parent.map (Reference.rename ρ) := by
        cases parent with
        | none => exact Option.map_eq_none_iff.mp herase.2
        | some r =>
          obtain ⟨r', rfl, hr⟩ := Option.map_eq_some_iff.mp herase.2
          exact congrArg some (h.reference_eq hr (hparent r rfl) (hparent' r' rfl))
      rw [h.functions_eq herase.1 hparameters hexceptions htypes htypes' hconstants
        hconstants', hparent_eq]
      rfl
    | _ => cases herase

end Aligned

end Scope

end Interlink
