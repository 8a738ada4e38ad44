import Interlink.Link.Evaluate
import Interlink.Proofs.Outcome
import Interlink.Scope.Define

/-!
# What linking adds, taken away again

Linking fills places that are empty before: the targets of references, the
values of constants and defaults, the methods of services, the mark that an
entity is resolved. `Scope.erase` empties them. Two scopes with the same
erasure hold the same declarations, however far each of them is linked.

Beside it stand the references of an entity as lists: `Body.typeReferences`
and `Body.constReferences` list every reference of a body to a type, and to a
constant or enum item, wherever it stands. What is said of all references of an
entity is said of these lists.
-/

namespace Interlink

/-! ## Erasing -/

/-- A reference without its target. -/
def Reference.erase {τ : Type} (r : Reference τ) : Reference τ :=
  { r with target := none }

@[simp] theorem Reference.erase_name {τ : Type} (r : Reference τ) :
    r.erase.name = r.name := rfl

/-- A type with no reference bound. -/
def Ty.erase : Ty → Ty
  | .primitive p => .primitive p
  | .list element => .list element.erase
  | .set element => .set element.erase
  | .map key value => .map key.erase value.erase
  | .named r => .named r.erase

namespace Init

mutual

/-- An expression with no reference bound. -/
def erase : Init → Init
  | .list items => .list (eraseItems items)
  | .map entries => .map (eraseEntries entries)
  | .reference r => .reference r.erase
  | init => init

def eraseItems : List Init → List Init
  | [] => []
  | item :: items => item.erase :: eraseItems items

def eraseEntries : List (Init × Init) → List (Init × Init)
  | [] => []
  | (key, value) :: entries => (key.erase, value.erase) :: eraseEntries entries

end

end Init

namespace Entity

/-- A field as it is declared. -/
def Field.erase (f : Field) : Field :=
  { f with
    type := f.type.erase
    default := f.default.map Init.erase
    defaultValue := none }

/-- A function as it is declared. -/
def Function.erase (f : Function) : Function :=
  { f with
    parameters := f.parameters.map Field.erase
    returns := f.returns.map Ty.erase
    exceptions := f.exceptions.map Field.erase }

/-- A body as it is declared. -/
def Body.erase : Body → Body
  | .const type init _ => .const type.erase init.erase none
  | .typedef target => .typedef target.erase
  | .enum items => .enum items
  | .struct kind fields => .struct kind (fields.map Field.erase)
  | .service functions parent _ =>
    .service (functions.map Function.erase) (parent.map Reference.erase) []

@[simp] theorem Body.kind_erase (b : Body) : b.erase.kind = b.kind := by
  cases b <;> rfl

/-- **An entity as it is declared.** -/
def erase (e : Entity) : Entity :=
  { e with resolved := false, body := e.body.erase }

@[simp] theorem erase_name (e : Entity) : e.erase.name = e.name := rfl

@[simp] theorem erase_body (e : Entity) : e.erase.body = e.body.erase := rfl

@[simp] theorem erase_kind (e : Entity) : e.erase.kind = e.kind :=
  Body.kind_erase e.body

theorem name_eq_of_erase_eq {e e' : Entity} (h : e'.erase = e.erase) :
    e'.name = e.name := by
  rw [← erase_name, h, erase_name]

theorem kind_eq_of_erase_eq {e e' : Entity} (h : e'.erase = e.erase) :
    e'.kind = e.kind := by
  rw [← erase_kind, h, erase_kind]

end Entity

/-- **A scope as it is declared.** -/
def Scope.erase (s : Scope) : Scope :=
  { s with entities := s.entities.map Entity.erase }

/-! ## References as lists -/

/-- The references of a type, at any depth. -/
def Ty.references : Ty → List (Reference EntityId)
  | .primitive _ => []
  | .list element => element.references
  | .set element => element.references
  | .map key value => key.references ++ value.references
  | .named r => [r]

namespace Entity

/-- The references in the default of a field. -/
def Field.defaultReferences (f : Field) : List (Reference ConstTarget) :=
  (f.default.map Init.references).getD []

/-- The references of a function to types: those of its parameters, of its
result and of its declared exceptions. -/
def Function.typeReferences (f : Function) : List (Reference EntityId) :=
  (f.parameters.flatMap fun p => p.type.references)
    ++ (f.returns.map Ty.references).getD []
    ++ f.exceptions.flatMap fun p => p.type.references

/-- The references of a function to constants and enum items, in defaults. -/
def Function.constReferences (f : Function) : List (Reference ConstTarget) :=
  f.parameters.flatMap Field.defaultReferences
    ++ f.exceptions.flatMap Field.defaultReferences

namespace Body

/-- **The references of a body to types**: those of the type of a constant, of
the target of a typedef, of fields, parameters, results and declared
exceptions, at any depth. -/
def typeReferences : Body → List (Reference EntityId)
  | .const type _ _ => type.references
  | .typedef target => target.references
  | .enum _ => []
  | .struct _ fields => fields.flatMap fun f => f.type.references
  | .service functions _ _ => functions.flatMap Function.typeReferences

/-- **The references of a body to constants and enum items**: those of the
expression of a constant, and of the defaults of fields, parameters and
declared exceptions. -/
def constReferences : Body → List (Reference ConstTarget)
  | .const _ init _ => init.references
  | .typedef _ => []
  | .enum _ => []
  | .struct _ fields => fields.flatMap Field.defaultReferences
  | .service functions _ _ => functions.flatMap Function.constReferences

/-- The service that a body extends. -/
def parent? : Body → Option (Reference EntityId)
  | .service _ parent _ => parent
  | _ => none

end Body

end Entity

theorem Ty.references_erase (ty : Ty) :
    ty.erase.references = ty.references.map Reference.erase := by
  induction ty with
  | primitive p => rfl
  | list element ih => exact ih
  | set element ih => exact ih
  | map key value ihk ihv =>
    simp only [erase, references, List.map_append, ihk, ihv]
  | named r => rfl

namespace Init

mutual

theorem references_erase (init : Init) :
    init.erase.references = init.references.map Reference.erase := by
  cases init with
  | list items => exact itemReferences_erase items
  | map entries => exact entryReferences_erase entries
  | reference r => rfl
  | _ => rfl

theorem itemReferences_erase (items : List Init) :
    itemReferences (eraseItems items)
      = (itemReferences items).map Reference.erase := by
  cases items with
  | nil => rfl
  | cons item items =>
    simp only [eraseItems, itemReferences, List.map_append,
      references_erase item, itemReferences_erase items]

theorem entryReferences_erase (entries : List (Init × Init)) :
    entryReferences (eraseEntries entries)
      = (entryReferences entries).map Reference.erase := by
  match entries with
  | [] => rfl
  | (key, value) :: entries =>
    simp only [eraseEntries, entryReferences, List.map_append,
      references_erase key, references_erase value,
      entryReferences_erase entries]

end

end Init

theorem Entity.Function.typeReferences_erase (f : Entity.Function) :
    f.erase.typeReferences = f.typeReferences.map Reference.erase := by
  have hreturns : ((f.returns.map Ty.erase).map Ty.references).getD []
      = ((f.returns.map Ty.references).getD []).map Reference.erase := by
    cases f.returns with
    | none => rfl
    | some ty => exact ty.references_erase
  simp only [typeReferences, Function.erase, hreturns, Field.erase,
    List.flatMap_map, List.map_append, List.map_flatMap, Ty.references_erase]

namespace Entity.Body

theorem typeReferences_erase (b : Body) :
    b.erase.typeReferences = b.typeReferences.map Reference.erase := by
  cases b with
  | const type init value => exact type.references_erase
  | typedef target => exact target.references_erase
  | enum items => rfl
  | struct kind fields =>
    simp only [erase, typeReferences, List.flatMap_map, List.map_flatMap,
      Field.erase, Ty.references_erase]
  | service functions parent methods =>
    simp only [erase, typeReferences, List.flatMap_map, List.map_flatMap,
      Function.typeReferences_erase]

end Entity.Body

/-! ## Declared bodies are erased -/

@[simp] theorem TypeExpr.erase_toTy (t : TypeExpr) : t.toTy.erase = t.toTy := by
  induction t with
  | primitive p => rfl
  | list element ih => exact congrArg Ty.list ih
  | set element ih => exact congrArg Ty.set ih
  | map key value ihk ihv => exact congrArg₂ Ty.map ihk ihv
  | named m => rfl

namespace ConstExpr

mutual

@[simp] theorem erase_toInit (c : ConstExpr) : c.toInit.erase = c.toInit := by
  cases c with
  | list items => exact congrArg Init.list (eraseItems_itemsToInit items)
  | map entries => exact congrArg Init.map (eraseEntries_entriesToInit entries)
  | _ => rfl

theorem eraseItems_itemsToInit (items : List ConstExpr) :
    Init.eraseItems (itemsToInit items) = itemsToInit items := by
  cases items with
  | nil => rfl
  | cons item items =>
    exact congrArg₂ List.cons (erase_toInit item)
      (eraseItems_itemsToInit items)

theorem eraseEntries_entriesToInit (entries : List (ConstExpr × ConstExpr)) :
    Init.eraseEntries (entriesToInit entries) = entriesToInit entries := by
  match entries with
  | [] => rfl
  | (key, value) :: entries =>
    exact congrArg₂ List.cons
      (congrArg₂ Prod.mk (erase_toInit key) (erase_toInit value))
      (eraseEntries_entriesToInit entries)

end

end ConstExpr

/-- A numbered field has no reference bound. -/
@[simp] theorem Field.erase_withId (f : Field) (id : Int16) :
    (f.withId id).erase = f.withId id := by
  unfold Field.withId Entity.Field.erase
  cases f.default with
  | none => simp
  | some c => simp

end Interlink
