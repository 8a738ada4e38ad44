import Interlink.Proofs.Exchange.Rules
import Interlink.Proofs.Scope.Circle

/-!
# Guards

Compiling relies on much that it does not check. A handle is taken to be that of an
entity, a reference to be bound once and not twice, a constant to have its value
when somebody asks for it. Where a function has an answer for the other case all
the same, the answer is never meant to be given.

Here and in the modules that follow, compiling is written a second time with a guard
at each such place (`Defect`). A guarded computation ends with a result, with a fault
of the document, or with the alarm that a guard was tripped. That no guard is ever
tripped is then an equation: the guarded computation is the plain one
(`Guarded.ofResult`), function by function, up to `Document.compile` itself. The
guarded functions also do without a bound on the length of a walk; that there is a
step left whenever one is needed is one more guard (`Defect.endless`).

This module has the rules for such equations, and what is guarded when an entity is
looked up and when typedefs are followed.
-/

namespace Interlink

/-- **What must never happen.** -/
inductive Defect where
  /-- A handle is used that the scope never issued. -/
  | handle (id : EntityId)
  /-- A reference is bound that is bound already. -/
  | boundTwice (name : String)
  /-- An entity that is resolved gets another body. -/
  | changedLater (id : EntityId)
  /-- An entity gets a body of another kind. -/
  | otherKind (id : EntityId)
  /-- An entity that is resolved is marked again. -/
  | resolvedTwice (id : EntityId)
  /-- An entity is left unresolved. -/
  | unresolved (id : EntityId)
  /-- The value of a constant is asked for before it is known. -/
  | notEvaluated (id : EntityId)
  /-- A reference is followed that is not bound. -/
  | unbound (name : String)
  /-- What is said to be an enum has no items. -/
  | noItems (id : EntityId)
  /-- What is said to be a struct, union or exception has no fields. -/
  | noFields (id : EntityId)
  /-- What is evaluated as a constant is none. -/
  | notConstant (id : EntityId)
  /-- A name is left when typedefs have been followed. -/
  | nameLeft (name : String)
  /-- The methods of something are collected that is no service. -/
  | notService (id : EntityId)
  /-- A method is no function. -/
  | noFunction (m : Entity.Method)
  /-- A walk has entered all entities and goes on. -/
  | endless

/-- **How a guarded computation fails.** -/
inductive Alarm where
  /-- The document has a fault. -/
  | fault (e : CompileError)
  /-- A guard was tripped. -/
  | defect (x : Defect)

/-- **A guarded computation.** -/
abbrev Guarded (α : Type) := Except Alarm α

namespace Guarded

variable {α β σ : Type}

/-- **A computation in which no guard is tripped.** -/
def ofResult (x : Except CompileError α) : Guarded α := x.mapError .fault

/-- A sweep in which no guard is tripped. -/
def ofHalt (x : Except (Halt σ) α) : Guarded α :=
  x.mapError fun halt => .fault halt.error

/-- A guard is tripped. -/
def trip (x : Defect) : Guarded α := .error (.defect x)

/-! ## Rules -/

@[simp] theorem ofResult_ok (a : α) : ofResult (.ok a) = .ok a := rfl

section Rules

variable {x : Except CompileError α} {x' : Guarded α}
  {f : α → Except CompileError β} {f' : α → Guarded β}

/-- **One step after the other.** The second one has to be compared only for what the
first one gives. -/
theorem bind_eq (hx : x' = ofResult x) (hf : ∀ a, x = .ok a → f' a = ofResult (f a)) :
    (x' >>= f') = ofResult (x >>= f) := by
  subst hx
  cases x with
  | error e => rfl
  | ok a => exact hf a rfl

theorem map_eq (g : α → β) (hx : x' = ofResult x) : g <$> x' = ofResult (g <$> x) := by
  subst hx
  cases x <;> rfl

theorem mapM_eq {xs : List α} (h : ∀ a ∈ xs, f' a = ofResult (f a)) :
    xs.mapM f' = ofResult (xs.mapM f) := by
  induction xs with
  | nil => rfl
  | cons a xs ih =>
    obtain ⟨ha, hxs⟩ := List.forall_mem_cons.mp h
    rw [List.mapM_cons, List.mapM_cons]
    exact bind_eq ha fun _ _ => bind_eq (ih hxs) fun _ _ => rfl

theorem forM_eq {xs : List α} {check : α → Except CompileError Unit}
    {check' : α → Guarded Unit} (h : ∀ a ∈ xs, check' a = ofResult (check a)) :
    xs.forM check' = ofResult (xs.forM check) := by
  induction xs with
  | nil => rfl
  | cons a xs ih =>
    obtain ⟨ha, hxs⟩ := List.forall_mem_cons.mp h
    exact bind_eq ha fun _ _ => ih hxs

theorem optionMapM_eq {o : Option α} (h : ∀ a ∈ o, f' a = ofResult (f a)) :
    o.mapM f' = ofResult (o.mapM f) := by
  cases o with
  | none => rfl
  | some a => exact map_eq some (h a rfl)

end Rules

/-! ## Entities -/

variable {s : Scope} {id : EntityId} {e : Entity}

/-- **The entity behind a handle.** -/
def entity (s : Scope) (id : EntityId) : Guarded Entity :=
  match s.entity? id with
  | some e => .ok e
  | none => trip (.handle id)

theorem entity_eq (he : s.entity? id = some e) : entity s id = .ok e := by
  unfold entity
  rw [he]

def named (s : Scope) (name : String) : Guarded (Option (EntityId × Entity)) :=
  match s.id? name with
  | some id => do return some (id, ← entity s id)
  | none => .ok none

/-- **A name has no handle but that of an entity.** -/
theorem named_eq (h : s.SymbolsHeld) (name : String) : named s name = .ok (s.named? name) := by
  unfold named Scope.named?
  cases hid : s.id? name with
  | none => rfl
  | some id =>
    obtain ⟨e, he⟩ := h.exists_entity hid
    dsimp only
    rw [entity_eq he, Option.bind_some, he]
    rfl

def lookup (s : Scope) (name : String) (span : Span) (referrer : String) :
    Guarded (EntityId × Entity) := do
  match ← named s name with
  | some found => .ok found
  | none => .error (.fault (.unknown name referrer span))

theorem lookup_eq (h : s.SymbolsHeld) (name : String) (span : Span) (referrer : String) :
    lookup s name span referrer = ofResult (s.lookup name span referrer) := by
  unfold lookup Scope.lookup
  rw [named_eq h]
  cases s.named? name <;> rfl

/-- What a type reference means. The handle of a bound reference may be from anywhere,
and is checked in any case. -/
def targetOf (s : Scope) (r : Reference EntityId) (referrer : String) :
    Guarded (EntityId × Entity) :=
  match r.target with
  | none => lookup s r.name r.span referrer
  | some _ => ofResult (s.targetOf r referrer)

theorem targetOf_eq (h : s.SymbolsHeld) (r : Reference EntityId) (referrer : String) :
    targetOf s r referrer = ofResult (s.targetOf r referrer) := by
  unfold targetOf
  cases htarget : r.target with
  | some id => rfl
  | none =>
    dsimp only
    rw [lookup_eq h]
    unfold Scope.targetOf
    rw [htarget]

/-- **Give an entity another body.** It must not be resolved, and the body must be of
the same kind. -/
def replace (s : Scope) (id : EntityId) (body : Entity.Body) : Guarded Scope := do
  let e ← entity s id
  if e.resolved then trip (.changedLater id)
  else if body.kind = e.kind then return s.setBody id body
  else trip (.otherKind id)

theorem replace_eq (he : s.entity? id = some e) (hopen : e.resolved = false)
    {body : Entity.Body} (hkind : body.kind = e.kind) :
    replace s id body = .ok (s.setBody id body) := by
  unfold replace
  rw [entity_eq he]
  simp only [bind, Except.bind, hopen, hkind, Bool.false_eq_true, if_false, if_true]
  rfl

/-- **Mark an entity as resolved**, which it must not be yet. -/
def mark (s : Scope) (id : EntityId) : Guarded Scope := do
  let e ← entity s id
  if e.resolved then trip (.resolvedTwice id) else return s.resolve id

theorem mark_eq (he : s.entity? id = some e) (hopen : e.resolved = false) :
    mark s id = .ok (s.resolve id) := by
  unfold mark
  rw [entity_eq he]
  simp only [bind, Except.bind, hopen, Bool.false_eq_true, if_false]
  rfl

/-! ## Trails -/

/-- **A trail that can be gone on**, wherever it leads: no entity was entered twice, and
there are steps for the others. -/
abbrev Open (s : Scope) (left : Nat) (t : Trail) : Prop :=
  ∀ name, s.ChainedTrail (fun _ _ => True) left t name

/-- The fault that a trail comes back to an entity, which has the names of the entities
on the way. -/
def circle (s : Scope) (t : Trail) (id : EntityId) (e : Entity) : Guarded α := do
  let names ← (t.takeWhile fun entered => entered != id).reverse.mapM fun entered =>
    Entity.name <$> entity s entered
  .error (.fault (.circular e.name (e.name :: names ++ [e.name]) e.span))

theorem circle_eq {left : Nat} {t : Trail} (ht : Open s left t) (id : EntityId) (e : Entity) :
    (circle s t id e : Guarded α) = .error (.fault (s.circle t id e)) := by
  have hnames : ∀ js : List EntityId, (∀ j ∈ js, ∃ e, s.entity? j = some e) →
      (js.mapM fun entered => Entity.name <$> entity s entered) = .ok (js.map s.nameOf) := by
    intro js hjs
    induction js with
    | nil => rfl
    | cons j js ih =>
      obtain ⟨⟨f, hf⟩, hjs⟩ := List.forall_mem_cons.mp hjs
      rw [List.mapM_cons, entity_eq hf, ih hjs, List.map_cons, Scope.nameOf_eq hf]
      rfl
  unfold circle
  rw [hnames]
  · rfl
  · intro j hj
    have hmem := List.takeWhile_prefix (fun entered => entered != id) |>.subset
      (List.mem_reverse.mp hj)
    exact (ht e.name).held j hmem

/-! ## Typedefs -/

/-- **What is left of a type when its typedefs are followed**: a type, which should not
be a name, or an entity, of which only the kind is told. -/
inductive Peeled where
  /-- A type. -/
  | type (ty : Ty)
  /-- An entity that is no typedef. -/
  | entity (id : EntityId) (kind : Entity.Kind)

/-- A shape as what is left of a type. -/
def peel : Shape → Peeled
  | .primitive p => .type (.primitive p)
  | .list element => .type (.list element)
  | .set element => .type (.set element)
  | .map key value => .type (.map key value)
  | .entity id e => .entity id e.kind

def follow (s : Scope) (referrer : String) :
    (left : Nat) → Trail → Ty → Guarded Peeled
  | left, t, .named r => do
    let (id, e) ← targetOf s r referrer
    match e.body with
    | .typedef target =>
      if t.contains id then circle s t id e
      else
        match left with
        | 0 => trip .endless
        | left + 1 => follow s referrer left (id :: t) target
    | _ => .ok (.entity id e.kind)
  | _, _, ty => .ok (.type ty)

/-- A trail that can be gone on can be gone on by an entity that is new. -/
theorem Open.enter {left : Nat} {t : Trail} (ht : Open s (left + 1) t)
    (he : s.entity? id = some e) (hnew : id ∉ t) : Open s left (id :: t) :=
  fun _ => (ht e.name).enter he hnew trivial

theorem open_nil (s : Scope) : Open s s.steps [] := fun _ => Scope.chainedTrail_nil

/-- **Typedefs are followed without tripping a guard.** -/
theorem follow_eq (h : s.IsArena) (referrer : String) {left : Nat} {t : Trail}
    (ht : Open s left t) (ty : Ty) :
    follow s referrer left t ty = ofResult (peel <$> s.follow referrer left t ty) := by
  fun_induction s.follow referrer left t ty with
  | case1 | case2 | case3 | case4 =>
    simp only [follow]
    rfl
  | case5 left t r fault htarget =>
    rw [follow, targetOf_eq h.symbolsHeld, htarget]
    rfl
  | case6 t r id e htarget target hbody =>
    -- no step is left, so the entity has been entered
    have hmem := (ht r.name).mem_of_no_step (Scope.entity?_of_targetOf htarget)
    rw [follow, targetOf_eq h.symbolsHeld, htarget]
    simp only [ofResult_ok, hbody, bind, Except.bind, List.contains_iff_mem, hmem, if_true]
    exact circle_eq ht id e
  | case7 t r id e htarget target hbody left hmem =>
    rw [follow, targetOf_eq h.symbolsHeld, htarget]
    simp only [ofResult_ok, hbody, bind, Except.bind, hmem, if_true]
    exact circle_eq ht id e
  | case8 t r id e htarget target hbody left hnew ih =>
    rw [follow, targetOf_eq h.symbolsHeld, htarget]
    simp only [ofResult_ok, hbody, bind, Except.bind, hnew]
    exact ih (ht.enter (Scope.entity?_of_targetOf htarget) (by simpa using hnew))
  | case9 left t r id e htarget hbody =>
    rw [follow, targetOf_eq h.symbolsHeld, htarget]
    simp only [ofResult_ok, bind, Except.bind]
    rfl

def dealias (s : Scope) (ty : Ty) (referrer : String) : Guarded Peeled :=
  follow s referrer s.steps [] ty

theorem dealias_eq (h : s.IsArena) (ty : Ty) (referrer : String) :
    dealias s ty referrer = ofResult (peel <$> s.dealias ty referrer) :=
  follow_eq h referrer (open_nil s) ty

end Guarded

end Interlink
