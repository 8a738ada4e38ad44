import Interlink.Proofs.Guarded.Basic
import Interlink.Proofs.Exchange.Complete

/-!
# Guarded evaluation

Evaluation relies on more than binding does. When the typedefs in front of a type
have been followed, what is left is no name, and an entity has the body that its kind
announces. A reference in an expression is bound; a constant that an expression
mentions is one, and its value is there when it is asked for. In the pass over
constants it is there because the constants that an expression mentions are found
first, and later because the pass has been over all of them.
-/

namespace Interlink.Guarded

open Entity (Function)

variable {s : Scope} {d : Document} {id : EntityId} {e : Entity}

/-! ## Coercion -/

mutual

/-- **Coercion of a value to a type.** -/
def coerce (s : Scope) (site : Site) (v : Value) (ty : Ty) : Guarded Value :=
  match dealias s ty site.owner with
  | .error alarm => .error alarm
  | .ok (.type (.primitive p)) => ofResult (v.coercePrimitive site ty p)
  | .ok (.type (.list element)) =>
    match v with
    | .list items => .list <$> coerceItems s site element items
    | .set items => .list <$> coerceItems s site element items
    | v => ofResult (site.misfit (.notUsable v ty))
  | .ok (.type (.set element)) =>
    match v with
    | .list items =>
      (fun typed => .set (Value.distinct typed)) <$> coerceItems s site element items
    | .set items =>
      (fun typed => .set (Value.distinct typed)) <$> coerceItems s site element items
    | v => ofResult (site.misfit (.notUsable v ty))
  | .ok (.type (.map key value)) =>
    match v with
    | .map entries => .map <$> coerceEntries s site key value entries
    | v => ofResult (site.misfit (.notUsable v ty))
  | .ok (.type (.named r)) => trip (.nameLeft r.name)
  | .ok (.entity id kind) =>
    match entity s id with
    | .error alarm => .error alarm
    | .ok e =>
      match kind, e.body with
      | .enum, .enum items => ofResult (v.coerceEnum site e.name items)
      | .enum, _ => trip (.noItems id)
      | .struct kind, .struct _ declared =>
        match v with
        | .struct typeName fields =>
          if typeName = e.name then .ok (.struct typeName fields)
          else ofResult (site.misfit (.notUsableAs v kind e.name))
        | .map entries => do
          let fields ← coerceFields s site e.name kind declared [] entries
          ofResult (Value.checkFieldsSet site e.name kind declared fields)
        | v => ofResult (site.misfit (.notUsableAs v kind e.name))
      | .struct _, _ => trip (.noFields id)
      | kind, _ => ofResult (site.misfit (.notType e.name kind))

def coerceItems (s : Scope) (site : Site) (element : Ty) :
    List Value → Guarded (List Value)
  | [] => .ok []
  | item :: items => do
    let item ← coerce s site item element
    let items ← coerceItems s site element items
    return item :: items

def coerceEntries (s : Scope) (site : Site) (key value : Ty) :
    List (Value × Value) → Guarded (List (Value × Value))
  | [] => .ok []
  | (k, v) :: entries => do
    let k ← coerce s site k key
    let v ← coerce s site v value
    let entries ← coerceEntries s site key value entries
    return (k, v) :: entries

def coerceFields (s : Scope) (site : Site) (typeName : String) (kind : StructKind)
    (declared : List Entity.Field) (done : List (String × Value)) :
    List (Value × Value) → Guarded (List (String × Value))
  | [] => .ok done
  | (key, v) :: entries =>
    match key with
    | .string name =>
      match declared.find? fun f => f.name == name with
      | none => ofResult (site.misfit (.noField name kind typeName))
      | some f =>
        if (done.lookup name).isSome then
          ofResult (site.misfit (.fieldAgain name kind typeName))
        else do
          let typed ← coerce s site v f.type
          coerceFields s site typeName kind declared (done ++ [(name, typed)]) entries
    | key => ofResult (site.misfit (.notFieldName key kind))

end

section Coerce

variable {site : Site}

theorem coerceItems_eq {items : List Value}
    (hitems : ∀ v ∈ items, ∀ ty, coerce s site v ty = ofResult (v.coerce s site ty))
    (element : Ty) :
    coerceItems s site element items = ofResult (Value.coerceItems s site element items) := by
  induction items with
  | nil =>
    rw [coerceItems, Value.coerceItems]
    rfl
  | cons v items ih =>
    obtain ⟨hv, hitems⟩ := List.forall_mem_cons.mp hitems
    rw [coerceItems, Value.coerceItems]
    exact bind_eq (hv element) fun _ _ => bind_eq (ih hitems) fun _ _ => rfl

theorem coerceEntries_eq {entries : List (Value × Value)}
    (hkeys : ∀ x ∈ entries, ∀ ty, coerce s site x.1 ty = ofResult (x.1.coerce s site ty))
    (hvalues : ∀ x ∈ entries, ∀ ty, coerce s site x.2 ty = ofResult (x.2.coerce s site ty))
    (key value : Ty) :
    coerceEntries s site key value entries
      = ofResult (Value.coerceEntries s site key value entries) := by
  induction entries with
  | nil =>
    rw [coerceEntries, Value.coerceEntries]
    rfl
  | cons x entries ih =>
    obtain ⟨k, v⟩ := x
    obtain ⟨hk, hkeys⟩ := List.forall_mem_cons.mp hkeys
    obtain ⟨hv, hvalues⟩ := List.forall_mem_cons.mp hvalues
    rw [coerceEntries, Value.coerceEntries]
    exact bind_eq (hk key) fun _ _ => bind_eq (hv value) fun _ _ =>
      bind_eq (ih hkeys hvalues) fun _ _ => rfl

theorem coerceFields_eq {entries : List (Value × Value)}
    (hvalues : ∀ x ∈ entries, ∀ ty, coerce s site x.2 ty = ofResult (x.2.coerce s site ty))
    (typeName : String) (kind : StructKind) (declared : List Entity.Field)
    (done : List (String × Value)) :
    coerceFields s site typeName kind declared done entries
      = ofResult (Value.coerceFields s site typeName kind declared done entries) := by
  induction entries generalizing done with
  | nil =>
    rw [coerceFields, Value.coerceFields]
    rfl
  | cons x entries ih =>
    obtain ⟨hv, hothers⟩ := List.forall_mem_cons.mp hvalues
    obtain ⟨key, v⟩ := x
    cases key with
    | string name =>
      rw [coerceFields, Value.coerceFields]
      cases declared.find? fun f => f.name == name with
      | none => rfl
      | some f =>
        dsimp only
        split
        next => rfl
        next =>
          rw [hv f.type]
          cases v.coerce s site f.type with
          | error fault => rfl
          | ok typed => exact ih hothers _
    | _ =>
      simp only [coerceFields, Value.coerceFields]

/-- **Coercion trips no guard.** -/
theorem coerce_eq (h : s.IsArena) (v : Value) (ty : Ty) :
    coerce s site v ty = ofResult (v.coerce s site ty) := by
  induction v using Value.childInduction generalizing ty with
  | step v ih =>
    rw [coerce, Value.coerce, dealias_eq h]
    cases hdealias : s.dealias ty site.owner with
    | error fault => rfl
    | ok shape =>
      simp only [Functor.map, Except.map, ofResult_ok]
      cases shape with
      | primitive p => rfl
      | list element =>
        cases v with
        | list items => exact map_eq Value.list (coerceItems_eq ih element)
        | set items => exact map_eq Value.list (coerceItems_eq ih element)
        | _ => rfl
      | set element =>
        cases v with
        | list items => exact map_eq _ (coerceItems_eq ih element)
        | set items => exact map_eq _ (coerceItems_eq ih element)
        | _ => rfl
      | map key value =>
        cases v with
        | map entries =>
          exact map_eq Value.map (coerceEntries_eq
            (fun x hx => ih x.1 (Value.key_mem_children hx))
            (fun x hx => ih x.2 (Value.value_mem_children hx)) key value)
        | _ => rfl
      | entity id e =>
        have he : s.entity? id = some e := Scope.entity?_of_follow hdealias
        -- the kind is that of the body, so the body is the one announced
        simp only [peel, entity_eq he, Entity.kind]
        cases e.body with
        | struct kind declared =>
          cases v with
          | struct typeName fields =>
            simp only [Entity.Body.kind]
            split <;> rfl
          | map entries =>
            simp only [Entity.Body.kind]
            rw [coerceFields_eq fun x hx => ih x.2 (Value.value_mem_children hx)]
            cases Value.coerceFields s site e.name kind declared [] entries <;> rfl
          | _ => rfl
        | _ => rfl

end Coerce

/-! ## Expressions -/

/-- The value of a reference in an expression. `constant` gives that of a constant. -/
def refer (s : Scope) (constant : EntityId → Guarded Value) (r : Reference ConstTarget) :
    Guarded Value :=
  match r.target with
  | some (.const id) => constant id
  | some (.item enumId n) => do return .enum (← entity s enumId).name n
  | none => trip (.unbound r.name)

mutual

/-- **The loose value of an expression.** -/
def loose (s : Scope) (constant : EntityId → Guarded Value) : Init → Guarded Value
  | .bool b => .ok (.bool b)
  | .int n => .ok (.i64 n)
  | .double d => .ok (.double d)
  | .string t => .ok (.string t)
  | .list items => .list <$> looseItems s constant items
  | .map entries => .map <$> looseEntries s constant entries
  | .reference r => refer s constant r

def looseItems (s : Scope) (constant : EntityId → Guarded Value) :
    List Init → Guarded (List Value)
  | [] => .ok []
  | item :: items => do
    let item ← loose s constant item
    let items ← looseItems s constant items
    return item :: items

def looseEntries (s : Scope) (constant : EntityId → Guarded Value) :
    List (Init × Init) → Guarded (List (Value × Value))
  | [] => .ok []
  | (key, value) :: entries => do
    let key ← loose s constant key
    let value ← loose s constant value
    let entries ← looseEntries s constant entries
    return (key, value) :: entries

end

/-- **The value of an expression at a type.** -/
def evaluate (s : Scope) (site : Site) (constant : EntityId → Guarded Value) (ty : Ty)
    (init : Init) : Guarded Value := do
  let value ← loose s constant init
  coerce s site value ty

section Expressions

variable {owner : String} {constant : EntityId → Entity → Except CompileError Value}
  {constant' : EntityId → Guarded Value}

/-- **A guarded source of values stands for a plain one** as far as the references in
some list go: these are bound, and the values of the constants among them are there. -/
def Supplied (s : Scope) (constant' : EntityId → Guarded Value)
    (constant : EntityId → Entity → Except CompileError Value)
    (refs : List (Reference ConstTarget)) : Prop :=
  ∀ r ∈ refs, s.BoundConst r ∧ ∀ id e, r.target = some (.const id) →
    s.entity? id = some e → e.kind = .constant → constant' id = ofResult (constant id e)

/-- A reference that is bound and supplied has its value. -/
theorem refer_eq {r : Reference ConstTarget} (hr : Supplied s constant' constant [r]) :
    refer s constant' r = ofResult ((Init.reference r).loose s owner constant) := by
  obtain ⟨⟨target, htarget, hmeans⟩, hconstant⟩ := hr r (List.mem_singleton_self r)
  rw [refer, Init.loose, htarget]
  cases target with
  | const id =>
    obtain ⟨e, he, -, hkind⟩ := hmeans
    dsimp only
    rw [he, hconstant id e htarget he hkind]
  | item enumId n =>
    obtain ⟨e, items, item, he, -⟩ := hmeans
    dsimp only
    rw [he, entity_eq he]
    rfl

mutual

theorem loose_eq {init : Init} (hinit : Supplied s constant' constant init.references) :
    loose s constant' init = ofResult (init.loose s owner constant) := by
  cases init with
  | list items =>
    rw [loose, Init.loose]
    exact map_eq Value.list (looseItems_eq hinit)
  | map entries =>
    rw [loose, Init.loose]
    exact map_eq Value.map (looseEntries_eq hinit)
  | reference r =>
    rw [loose]
    exact refer_eq hinit
  | _ =>
    rw [loose, Init.loose]
    rfl

theorem looseItems_eq {items : List Init}
    (hitems : Supplied s constant' constant (Init.itemReferences items)) :
    looseItems s constant' items = ofResult (Init.looseItems s owner constant items) := by
  cases items with
  | nil =>
    rw [looseItems, Init.looseItems]
    rfl
  | cons item items =>
    obtain ⟨hitem, hitems⟩ := List.forall_mem_append.mp hitems
    rw [looseItems, Init.looseItems]
    exact bind_eq (loose_eq hitem) fun _ _ => bind_eq (looseItems_eq hitems) fun _ _ => rfl

theorem looseEntries_eq {entries : List (Init × Init)}
    (hentries : Supplied s constant' constant (Init.entryReferences entries)) :
    looseEntries s constant' entries
      = ofResult (Init.looseEntries s owner constant entries) := by
  cases entries with
  | nil =>
    rw [looseEntries, Init.looseEntries]
    rfl
  | cons entry entries =>
    obtain ⟨key, value⟩ := entry
    obtain ⟨hentry, hentries⟩ := List.forall_mem_append.mp hentries
    obtain ⟨hkey, hvalue⟩ := List.forall_mem_append.mp hentry
    rw [looseEntries, Init.looseEntries]
    exact bind_eq (loose_eq hkey) fun _ _ => bind_eq (loose_eq hvalue) fun _ _ =>
      bind_eq (looseEntries_eq hentries) fun _ _ => rfl

end

/-- **Evaluation trips no guard**, if what the expression mentions is supplied. -/
theorem evaluate_eq (h : s.IsArena) (site : Site) (ty : Ty) {init : Init}
    (hinit : Supplied s constant' constant init.references) :
    evaluate s site constant' ty init = ofResult (init.evaluate s site constant ty) := by
  unfold evaluate Init.evaluate
  rw [loose_eq hinit]
  cases init.loose s site.owner constant with
  | error fault => rfl
  | ok value => exact coerce_eq h value ty

end Expressions

/-! ## Constants -/

/-- The value that a table holds for a constant. -/
def tableValue (table : ValueTable) (id : EntityId) : Guarded Value :=
  match table.lookup id with
  | some value => .ok value
  | none => trip (.notEvaluated id)

/-- A table supplies the constants that it holds. -/
theorem supplied_table {table : ValueTable} {refs : List (Reference ConstTarget)}
    (hbound : ∀ r ∈ refs, s.BoundConst r)
    (hheld : ∀ r ∈ refs, ∀ id, r.target = some (.const id) →
      ∃ v, table.lookup id = some v) :
    Supplied s (tableValue table) table.value refs := by
  refine fun r hr => ⟨hbound r hr, fun id e htarget _ _ => ?_⟩
  obtain ⟨v, hv⟩ := hheld r hr id htarget
  unfold tableValue ValueTable.value
  rw [hv]
  rfl

def findReferred (find : ValueTable → EntityId → Guarded (Value × ValueTable)) :
    ValueTable → List (Reference ConstTarget) → Guarded ValueTable
  | table, [] => .ok table
  | table, r :: rest =>
    match r.target with
    | some (.const id) => do
      let (_, table) ← find table id
      findReferred find table rest
    | some (.item _ _) => findReferred find table rest
    | none => trip (.unbound r.name)

/-- **Finding the value of a constant.** -/
def findValue (s : Scope) :
    (left : Nat) → Trail → ValueTable → EntityId → Guarded (Value × ValueTable)
  | left, t, table, id =>
    match table.lookup id with
    | some value => .ok (value, table)
    | none => do
      let e ← entity s id
      if t.contains id then circle s t id e
      else
        match e.body with
        | .const ty init _ =>
          match left with
          | 0 => trip .endless
          | left + 1 => do
            let table ← findReferred (findValue s left (id :: t)) table init.references
            let value ← evaluate s ⟨e.name, e.span⟩ (tableValue table) ty init
            return (value, (id, value) :: table)
        | _ => trip (.notConstant id)

/-- The constants that bound references mention are found without tripping a guard, if
each of them is. -/
theorem findReferred_eq {owner : String}
    {find : ValueTable → EntityId → Entity → Except CompileError (Value × ValueTable)}
    {find' : ValueTable → EntityId → Guarded (Value × ValueTable)} (hfind : s.Finds d find)
    (heach : ∀ table id e, s.SoundTable d table → s.entity? id = some e →
      e.kind = .constant → find' table id = ofResult (find table id e))
    {refs : List (Reference ConstTarget)} (hbound : ∀ r ∈ refs, s.BoundConst r)
    {table : ValueTable} (htable : s.SoundTable d table) :
    findReferred find' table refs = ofResult (s.findReferred owner find table refs) := by
  induction refs generalizing table with
  | nil => rfl
  | cons r refs ih =>
    obtain ⟨⟨target, htarget, hmeans⟩, hrefs⟩ := List.forall_mem_cons.mp hbound
    unfold findReferred Scope.findReferred
    rw [htarget]
    cases target with
    | const id =>
      obtain ⟨e, he, -, hkind⟩ := hmeans
      simp only [he, heach table id e htable he hkind]
      cases hfound : find table id e with
      | error fault => rfl
      | ok found => exact ih hrefs (hfind _ _ _ _ _ he htable hfound).1
    | item id n => exact ih hrefs htable

/-- **The value of a constant is found without tripping a guard.** -/
theorem findValue_eq (h : s.Models d) (hbound : s.ConstantsBound) {left : Nat} {t : Trail}
    (ht : Open s left t) {table : ValueTable} (htable : s.SoundTable d table)
    (he : s.entity? id = some e) (hkind : e.kind = .constant) :
    findValue s left t table id = ofResult (s.findValue left t table id e) := by
  induction left generalizing t table id e with
  | zero =>
    unfold findValue Scope.findValue
    cases table.lookup id with
    | some value => rfl
    | none =>
      -- no step is left, so the constant has been entered
      have hmem := (ht e.name).mem_of_no_step he
      simp only [entity_eq he, bind, Except.bind, List.contains_iff_mem, hmem, if_true]
      exact circle_eq ht id e
  | succ left ih =>
    unfold findValue Scope.findValue
    cases table.lookup id with
    | some value => rfl
    | none =>
      simp only [entity_eq he, bind, Except.bind]
      split
      next hmem => exact circle_eq ht id e
      next hnew =>
        cases hbody : e.body with
        | const ty init stored =>
          have hrefs := hbound id e ty init stored he hbody
          have ht' := ht.enter he (by simpa using hnew)
          have hfind := h.findValue_sound hbound left (id :: t)
          dsimp only
          rw [findReferred_eq hfind (fun _ _ _ htable he hkind => ih ht' htable he hkind)
            hrefs htable]
          cases hreferred : s.findReferred e.name (s.findValue left (id :: t)) table
              init.references with
          | error fault => rfl
          | ok table' =>
            obtain ⟨-, -, hheld⟩ := Scope.findReferred_sound hfind htable hreferred
            simp only [ofResult_ok]
            rw [evaluate_eq h.arena _ ty (supplied_table hrefs hheld)]
            cases init.evaluate s ⟨e.name, e.span⟩ table'.value ty <;> rfl
        | _ => simp [Entity.kind, Entity.Body.kind, hbody] at hkind

/-! ## Defaults -/

def storedValue (s : Scope) (id : EntityId) : Guarded Value := do
  match (← entity s id).body with
  | .const _ _ (some value) => .ok value
  | _ => trip (.notEvaluated id)

/-- Once constants have their values, these supply all bound references. -/
theorem supplied_stored (hvalued : s.ConstantsValued d)
    {refs : List (Reference ConstTarget)} (hbound : ∀ r ∈ refs, s.BoundConst r) :
    Supplied s (storedValue s) Scope.storedValue refs := by
  refine fun r hr => ⟨hbound r hr, fun id e _ he hkind => ?_⟩
  obtain ⟨ty, init, v, hbody, -⟩ := hvalued id e he hkind
  unfold storedValue Scope.storedValue
  rw [entity_eq he, hbody]
  simp only [bind, Except.bind, hbody]
  rfl

def evaluateDefault (s : Scope) (owner : String) (f : Entity.Field) :
    Guarded Entity.Field :=
  match f.default with
  | none => .ok { f with defaultValue := none }
  | some init => do
    let value ← evaluate s ⟨qualified owner f.name, f.span⟩ (storedValue s) f.type init
    return { f with defaultValue := some value }

def evaluateDefaults (s : Scope) (owner : String) (fields : List Entity.Field) :
    Guarded (List Entity.Field) :=
  fields.mapM (evaluateDefault s owner)

/-- **Defaults are evaluated without tripping a guard.** -/
theorem evaluateDefaults_eq (h : s.IsArena) (hvalued : s.ConstantsValued d) (owner : String)
    {fields : List Entity.Field}
    (hbound : ∀ r ∈ fields.flatMap Entity.Field.defaultReferences, s.BoundConst r) :
    evaluateDefaults s owner fields = ofResult (Entity.evaluateDefaults s owner fields) := by
  refine mapM_eq fun f hf => ?_
  unfold evaluateDefault Entity.Field.evaluateDefault
  cases hdefault : f.default with
  | none => rfl
  | some init =>
    have hrefs : ∀ r ∈ init.references, s.BoundConst r := by
      refine fun r hr => hbound r (List.mem_flatMap.mpr ⟨f, hf, ?_⟩)
      unfold Entity.Field.defaultReferences
      rw [hdefault]
      exact hr
    dsimp only
    rw [evaluate_eq h _ f.type (supplied_stored hvalued hrefs)]
    cases init.evaluate s ⟨qualified owner f.name, f.span⟩ Scope.storedValue f.type <;> rfl

def checkFunction (s : Scope) (service : String) (f : Function) : Guarded Function := do
  let owner := qualified service f.name
  ofResult (Entity.checkDistinct owner ∅ ∅ f.parameters)
  ofResult (Entity.checkDistinct owner ∅ ∅ f.exceptions)
  ofResult (f.checkOneway owner)
  let parameters ← evaluateDefaults s owner f.parameters
  return { f with parameters }

theorem checkFunction_eq (h : s.IsArena) (hvalued : s.ConstantsValued d) (service : String)
    {f : Function} (hbound : ∀ r ∈ f.constReferences, s.BoundConst r) :
    checkFunction s service f = ofResult (f.check s service) :=
  bind_eq rfl fun _ _ => bind_eq rfl fun _ _ => bind_eq rfl fun _ _ =>
    bind_eq (evaluateDefaults_eq h hvalued _ (List.forall_mem_append.mp hbound).1)
      fun _ _ => rfl

end Interlink.Guarded
