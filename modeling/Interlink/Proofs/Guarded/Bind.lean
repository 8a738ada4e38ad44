import Interlink.Proofs.Guarded.Basic
import Interlink.Proofs.Halted

/-!
# Guarded binding

Binding looks up names, and gives every reference its target. It trips no guard as
long as the handles of names are those of entities, and as long as no reference is
bound yet (`Entity.Body.Unbound`): a name is looked up once for each reference, and
each reference is met once.
-/

namespace Interlink.Guarded

open Entity (Function)

variable {s : Scope}

/-! ## References -/

/-- **Bind a reference**, which must not be bound yet. -/
def bindReference {τ : Type} (r : Reference τ) (target : τ) : Guarded (Reference τ) :=
  match r.target with
  | none => .ok { r with target := some target }
  | some _ => trip (.boundTwice r.name)

theorem bindReference_eq {τ : Type} {r : Reference τ} (hr : r.target = none) (target : τ) :
    bindReference r target = .ok { r with target := some target } := by
  unfold bindReference
  rw [hr]

def bindTy (s : Scope) (referrer : String) : Ty → Guarded Ty
  | .primitive p => .ok (.primitive p)
  | .list element => .list <$> bindTy s referrer element
  | .set element => .set <$> bindTy s referrer element
  | .map key value => do
    let key ← bindTy s referrer key
    let value ← bindTy s referrer value
    return .map key value
  | .named r => do
    let (id, e) ← lookup s r.name r.span referrer
    if e.kind.isType then .named <$> bindReference r id
    else .error (.fault (.mismatch referrer r.span (.notType r.name e.kind)))

theorem bindTy_eq (h : s.IsArena) (referrer : String) {ty : Ty}
    (hty : ∀ r ∈ ty.references, r.target = none) :
    bindTy s referrer ty = ofResult (ty.bind s referrer) := by
  induction ty with
  | primitive p => rfl
  | list element ih => exact map_eq Ty.list (ih hty)
  | set element ih => exact map_eq Ty.set (ih hty)
  | map key value ihk ihv =>
    obtain ⟨hkey, hvalue⟩ := List.forall_mem_append.mp hty
    exact bind_eq (ihk hkey) fun _ _ => bind_eq (ihv hvalue) fun _ _ => rfl
  | named r =>
    rw [bindTy, Ty.bind, lookup_eq h.symbolsHeld]
    cases s.lookup r.name r.span referrer with
    | error fault => rfl
    | ok found =>
      obtain ⟨id, e⟩ := found
      have hr := bindReference_eq (hty r (List.mem_singleton_self r)) id
      simp only [ofResult_ok, bind, Except.bind, hr]
      split <;> rfl

def item (s : Scope) (name : String) : Guarded (Option ConstTarget) :=
  match splitAtLastDot? name with
  | none => .ok none
  | some (enumName, itemName) => do
    match ← named s enumName with
    | none => .ok none
    | some (id, e) =>
      match e.body with
      | .enum items =>
        let item := items.find? fun item => item.name == itemName
        .ok (item.map fun item => .item id item.value)
      | _ => .ok none

theorem item_eq (h : s.IsArena) (name : String) : item s name = .ok (s.item? name) := by
  unfold item Scope.item?
  cases splitAtLastDot? name with
  | none => rfl
  | some split =>
    obtain ⟨enumName, itemName⟩ := split
    simp only [named_eq h.symbolsHeld, Option.bind_eq_bind, Option.bind_some]
    cases s.named? enumName with
    | none => rfl
    | some found =>
      obtain ⟨id, e⟩ := found
      simp only [bind, Except.bind, Option.bind_some]
      cases e.body with
      | enum items =>
        dsimp only
        cases items.find? fun item => item.name == itemName <;> rfl
      | _ => rfl

def constTarget (s : Scope) (referrer : String) (r : Reference ConstTarget) :
    Guarded ConstTarget := do
  match ← named s r.name with
  | some (id, e) =>
    if e.kind = .constant then .ok (.const id)
    else .error (.fault (.mismatch referrer r.span (.notConstantOrItem r.name e.kind)))
  | none =>
    match ← item s r.name with
    | some target => .ok target
    | none => .error (.fault (.unknown r.name referrer r.span))

theorem constTarget_eq (h : s.IsArena) (referrer : String) (r : Reference ConstTarget) :
    constTarget s referrer r = ofResult (s.constTarget referrer r) := by
  unfold constTarget Scope.constTarget
  rw [named_eq h.symbolsHeld, item_eq h]
  simp only [bind, Except.bind]
  cases s.named? r.name with
  | none => cases s.item? r.name <;> rfl
  | some found =>
    dsimp only
    split <;> rfl

mutual

def bindInit (s : Scope) (referrer : String) : Init → Guarded Init
  | .bool b => .ok (.bool b)
  | .int n => .ok (.int n)
  | .double d => .ok (.double d)
  | .string t => .ok (.string t)
  | .list items => .list <$> bindItems s referrer items
  | .map entries => .map <$> bindEntries s referrer entries
  | .reference r => do
    let target ← constTarget s referrer r
    .reference <$> bindReference r target

def bindItems (s : Scope) (referrer : String) : List Init → Guarded (List Init)
  | [] => .ok []
  | item :: items => do
    let item ← bindInit s referrer item
    let items ← bindItems s referrer items
    return item :: items

def bindEntries (s : Scope) (referrer : String) :
    List (Init × Init) → Guarded (List (Init × Init))
  | [] => .ok []
  | (key, value) :: entries => do
    let key ← bindInit s referrer key
    let value ← bindInit s referrer value
    let entries ← bindEntries s referrer entries
    return (key, value) :: entries

end

mutual

/-- **Binding an expression trips no guard**, if no reference in it is bound. -/
theorem bindInit_eq (h : s.IsArena) (referrer : String) {init : Init}
    (hinit : ∀ r ∈ init.references, r.target = none) :
    bindInit s referrer init = ofResult (init.bind s referrer) := by
  cases init with
  | list items =>
    rw [bindInit, Init.bind]
    exact map_eq Init.list (bindItems_eq h referrer hinit)
  | map entries =>
    rw [bindInit, Init.bind]
    exact map_eq Init.map (bindEntries_eq h referrer hinit)
  | reference r =>
    rw [bindInit, Init.bind, constTarget_eq h]
    cases s.constTarget referrer r with
    | error fault => rfl
    | ok target =>
      have hr := bindReference_eq (hinit r (List.mem_singleton_self r)) target
      simp only [ofResult_ok, bind, Except.bind, hr]
      rfl
  | _ =>
    rw [bindInit, Init.bind]
    rfl

theorem bindItems_eq (h : s.IsArena) (referrer : String) {items : List Init}
    (hitems : ∀ r ∈ Init.itemReferences items, r.target = none) :
    bindItems s referrer items = ofResult (Init.bindItems s referrer items) := by
  cases items with
  | nil =>
    rw [bindItems, Init.bindItems]
    rfl
  | cons item items =>
    obtain ⟨hitem, hitems⟩ := List.forall_mem_append.mp hitems
    rw [bindItems, Init.bindItems]
    exact bind_eq (bindInit_eq h referrer hitem) fun _ _ =>
      bind_eq (bindItems_eq h referrer hitems) fun _ _ => rfl

theorem bindEntries_eq (h : s.IsArena) (referrer : String) {entries : List (Init × Init)}
    (hentries : ∀ r ∈ Init.entryReferences entries, r.target = none) :
    bindEntries s referrer entries = ofResult (Init.bindEntries s referrer entries) := by
  cases entries with
  | nil =>
    rw [bindEntries, Init.bindEntries]
    rfl
  | cons entry entries =>
    obtain ⟨key, value⟩ := entry
    obtain ⟨hentry, hentries⟩ := List.forall_mem_append.mp hentries
    obtain ⟨hkey, hvalue⟩ := List.forall_mem_append.mp hentry
    rw [bindEntries, Init.bindEntries]
    exact bind_eq (bindInit_eq h referrer hkey) fun _ _ =>
      bind_eq (bindInit_eq h referrer hvalue) fun _ _ =>
        bind_eq (bindEntries_eq h referrer hentries) fun _ _ => rfl

end

/-! ## Members -/

def bindField (s : Scope) (owner : String) (f : Entity.Field) : Guarded Entity.Field := do
  let referrer := qualified owner f.name
  let type ← bindTy s referrer f.type
  let default ← f.default.mapM (bindInit s referrer)
  return { f with type, default }

def bindFields (s : Scope) (owner : String) (fields : List Entity.Field) :
    Guarded (List Entity.Field) :=
  fields.mapM (bindField s owner)

theorem bindFields_eq (h : s.IsArena) (owner : String) {fields : List Entity.Field}
    (htypes : ∀ r ∈ fields.flatMap fun f => f.type.references, r.target = none)
    (hconstants : ∀ r ∈ fields.flatMap Entity.Field.defaultReferences, r.target = none) :
    bindFields s owner fields = ofResult (Entity.bindFields s owner fields) := by
  refine mapM_eq fun f hf => ?_
  refine bind_eq (bindTy_eq h _ fun r hr => ?_) fun _ _ =>
    bind_eq (optionMapM_eq fun init hinit => ?_) fun _ _ => rfl
  · exact htypes r (List.mem_flatMap.mpr ⟨f, hf, hr⟩)
  · refine bindInit_eq h _ fun r hr => hconstants r (List.mem_flatMap.mpr ⟨f, hf, ?_⟩)
    unfold Entity.Field.defaultReferences
    rw [Option.mem_def.mp hinit]
    exact hr

def checkException (s : Scope) (owner : String) (f : Entity.Field) : Guarded Unit := do
  match ← dealias s f.type owner with
  | .entity _ (.struct .exception) => .ok ()
  | _ => .error (.fault (.mismatch (qualified owner f.name) f.span (.notException f.type)))

theorem checkException_eq (h : s.IsArena) (owner : String) (f : Entity.Field) :
    checkException s owner f = ofResult (f.checkException s owner) := by
  unfold checkException Entity.Field.checkException
  rw [dealias_eq h]
  cases s.dealias f.type owner with
  | error fault => rfl
  | ok shape =>
    cases shape with
    | entity id e =>
      simp only [Functor.map, Except.map, ofResult_ok, bind, Except.bind, peel]
      split
      next hpeeled =>
        rw [(Peeled.entity.inj hpeeled).2, if_pos rfl]
        rfl
      next hother =>
        rw [if_neg fun hkind => hother id (congrArg (Peeled.entity id) hkind)]
        rfl
    | _ => rfl

def bindFunction (s : Scope) (service : String) (f : Function) : Guarded Function := do
  let owner := qualified service f.name
  let parameters ← bindFields s owner f.parameters
  let returns ← f.returns.mapM (bindTy s owner)
  let exceptions ← bindFields s owner f.exceptions
  exceptions.forM (checkException s owner)
  return { f with parameters, returns, exceptions }

theorem bindFunction_eq (h : s.IsArena) (service : String) {f : Function}
    (htypes : ∀ r ∈ f.typeReferences, r.target = none)
    (hconstants : ∀ r ∈ f.constReferences, r.target = none) :
    bindFunction s service f = ofResult (f.bind s service) := by
  obtain ⟨htypes, hexceptions⟩ := List.forall_mem_append.mp htypes
  obtain ⟨hparameters, hreturns⟩ := List.forall_mem_append.mp htypes
  obtain ⟨hdefaults, hdefaults'⟩ := List.forall_mem_append.mp hconstants
  refine bind_eq (bindFields_eq h _ hparameters hdefaults) fun _ _ =>
    bind_eq (optionMapM_eq fun ty hty => bindTy_eq h _ fun r hr => hreturns r ?_) fun _ _ =>
    bind_eq (bindFields_eq h _ hexceptions hdefaults') fun _ _ =>
    bind_eq (forM_eq fun g _ => checkException_eq h _ g) fun _ _ => rfl
  rw [Option.mem_def.mp hty]
  exact hr

def bindParent (s : Scope) (service : String) (parent : Reference EntityId) :
    Guarded (Reference EntityId) := do
  let (id, e) ← lookup s parent.name parent.span service
  if e.kind = .service then bindReference parent id
  else .error (.fault (.mismatch service parent.span (.notService parent.name e.kind)))

theorem bindParent_eq (h : s.IsArena) (service : String) {parent : Reference EntityId}
    (hparent : parent.target = none) :
    bindParent s service parent = ofResult (Entity.bindParent s service parent) := by
  unfold bindParent Entity.bindParent
  rw [lookup_eq h.symbolsHeld]
  cases s.lookup parent.name parent.span service with
  | error fault => rfl
  | ok found =>
    obtain ⟨id, e⟩ := found
    simp only [ofResult_ok, bind, Except.bind, bindReference_eq hparent]
    split <;> rfl

/-! ## Entities -/

/-- **Bind the references of an entity.** -/
def bindStep (s : Scope) (id : EntityId) : Guarded Scope := do
  let e ← entity s id
  match e.body with
  | .const type init value => do
    let type ← bindTy s e.name type
    let init ← bindInit s e.name init
    replace s id (.const type init value)
  | .typedef target => do
    let target ← bindTy s e.name target
    replace s id (.typedef target)
  | .enum _ => .ok s
  | .struct kind fields => do
    let fields ← bindFields s e.name fields
    replace s id (.struct kind fields)
  | .service functions parent methods => do
    let parent ← parent.mapM (bindParent s e.name)
    let functions ← functions.mapM (bindFunction s e.name)
    replace s id (.service functions parent methods)

/-- **Binding an entity trips no guard**, if it is not resolved and none of its
references is bound. -/
theorem bindStep_eq (h : s.IsArena) {id : EntityId} {e : Entity}
    (he : s.entity? id = some e) (hopen : e.resolved = false) (hbody : e.body.Unbound) :
    bindStep s id = ofResult (s.bindStep id) := by
  obtain ⟨htypes, hconstants, hparent⟩ := hbody
  have hreplace : ∀ b : Entity.Body, b.kind = e.body.kind →
      replace s id b = ofResult (pure (s.setBody id b)) :=
    fun b hb => replace_eq he hopen hb
  unfold bindStep Scope.bindStep
  rw [entity_eq he, he]
  simp only [bind, Except.bind]
  generalize e.body = body at htypes hconstants hparent hreplace
  cases body with
  | const type init value =>
    exact bind_eq (bindTy_eq h _ htypes) fun _ _ =>
      bind_eq (bindInit_eq h _ hconstants) fun _ _ => hreplace _ rfl
  | typedef target => exact bind_eq (bindTy_eq h _ htypes) fun _ _ => hreplace _ rfl
  | enum items => rfl
  | struct kind fields =>
    exact bind_eq (bindFields_eq h _ htypes hconstants) fun _ _ => hreplace _ rfl
  | service functions parent methods =>
    refine bind_eq (optionMapM_eq fun r hr => bindParent_eq h _ (hparent r hr)) fun _ _ =>
      bind_eq (mapM_eq fun f hf => ?_) fun _ _ => hreplace _ rfl
    exact bindFunction_eq h _ (fun r hr => htypes r (List.mem_flatMap.mpr ⟨f, hf, hr⟩))
      fun r hr => hconstants r (List.mem_flatMap.mpr ⟨f, hf, hr⟩)

end Interlink.Guarded
