import Interlink.Link.Pass
import Interlink.Proofs.Link.Names

/-!
# Binding

Binding leaves the erasure of whatever it binds as it is, and leaves no
reference unbound. For types, expressions, fields, functions and whole entities
there are two statements each: what is there when binding succeeds
(`bind_sound`), and when it succeeds (`exists_bind`).
-/

namespace Interlink

variable {s : Scope} {d : Document} {referrer owner service : String}

/-- **Looking up a name to bind a reference**: there is an entity with that
name, and it is as it should be. -/
theorem Scope.IsArena.lookup_if_eq_ok (h : s.IsArena) {α : Type} {name : String}
    {span : Span} {p : Entity → Prop} [DecidablePred p] {f : EntityId → α}
    {fault : Entity → CompileError} {a : α} :
    (match s.lookup name span referrer with
      | .error e => .error e
      | .ok (id, e) => if p e then .ok (f id) else .error (fault e))
        = Except.ok a ↔
      ∃ id e, s.entity? id = some e ∧ e.name = name ∧ p e ∧ a = f id := by
  cases hlookup : s.lookup name span referrer with
  | error e =>
    simp only [reduceCtorEq, false_iff]
    rintro ⟨id, e, he, hname, -⟩
    rw [lookup_eq_ok.mpr (h.named?_eq_some.mpr ⟨he, hname⟩)] at hlookup
    cases hlookup
  | ok found =>
    obtain ⟨id, e⟩ := found
    obtain ⟨he, hname⟩ := h.named?_eq_some.mp (lookup_eq_ok.mp hlookup)
    -- the entity is the only one with that name
    have hunique : ∀ j e', s.entity? j = some e' → e'.name = name →
        id = j ∧ e = e' := fun j e' he' hname' =>
      h.entity?_inj he he' (hname.trans hname'.symm)
    by_cases hp : p e
    · simp only [hp, if_true, Except.ok.injEq]
      constructor
      · rintro rfl
        exact ⟨id, e, he, hname, hp, rfl⟩
      · rintro ⟨j, e', he', hname', -, rfl⟩
        rw [(hunique j e' he' hname').1]
    · simp only [hp, if_false, reduceCtorEq, false_iff]
      rintro ⟨j, e', he', hname', hp', -⟩
      obtain ⟨-, rfl⟩ := hunique j e' he' hname'
      exact hp hp'

/-! ## Types -/

namespace Ty

theorem bind_named (h : s.IsArena) {r : Reference EntityId} {ty : Ty} :
    bind s referrer (.named r) = .ok ty ↔
      ∃ id e, s.entity? id = some e ∧ e.name = r.name ∧ e.kind.isType = true
        ∧ ty = .named { r with target := some id } := by
  unfold bind
  exact h.lookup_if_eq_ok

/-- **A type that was bound** is the same type, with every reference bound to a
type. -/
theorem bind_sound (h : s.IsArena) {ty ty' : Ty}
    (hok : ty.bind s referrer = .ok ty') :
    ty'.erase = ty.erase
      ∧ ∀ r ∈ ty'.references, s.BoundTo Entity.Kind.isType r := by
  induction ty generalizing ty' with
  | primitive p =>
    cases hok
    exact ⟨rfl, fun r hr => absurd hr List.not_mem_nil⟩
  | list element ih =>
    obtain ⟨element', helement, rfl⟩ := map_eq_ok.mp hok
    obtain ⟨herase, hbound⟩ := ih helement
    exact ⟨congrArg Ty.list herase, hbound⟩
  | set element ih =>
    obtain ⟨element', helement, rfl⟩ := map_eq_ok.mp hok
    obtain ⟨herase, hbound⟩ := ih helement
    exact ⟨congrArg Ty.set herase, hbound⟩
  | map key value ihk ihv =>
    simp only [bind, bind_eq_ok, pure_eq_ok] at hok
    obtain ⟨key', hkey, value', hvalue, rfl⟩ := hok
    obtain ⟨hkerase, hkbound⟩ := ihk hkey
    obtain ⟨hverase, hvbound⟩ := ihv hvalue
    refine ⟨congrArg₂ Ty.map hkerase hverase, fun r hr => ?_⟩
    exact (List.mem_append.mp hr).elim (hkbound r) (hvbound r)
  | named r =>
    obtain ⟨id, e, he, hname, hkind, rfl⟩ := (bind_named h).mp hok
    refine ⟨rfl, fun r' hr' => ?_⟩
    cases List.mem_singleton.mp hr'
    exact ⟨id, e, rfl, he, hname, hkind⟩

/-- **A type can be bound** when its names are those of types. -/
theorem exists_bind (h : s.IsArena) (referrer : String) {ty : Ty} :
    (∃ ty', ty.bind s referrer = .ok ty') ↔
      ∀ r ∈ ty.references, s.Holds Entity.Kind.isType r.name := by
  induction ty with
  | primitive p =>
    exact ⟨fun _ r hr => absurd hr List.not_mem_nil, fun _ => ⟨_, rfl⟩⟩
  | list element ih =>
    rw [references, ← ih]
    exact exists_map_eq_ok
  | set element ih =>
    rw [references, ← ih]
    exact exists_map_eq_ok
  | map key value ihk ihv =>
    simp only [bind, bind_eq_ok, pure_eq_ok, references, List.mem_append, or_imp,
      forall_and, ← ihk, ← ihv]
    constructor
    · rintro ⟨_, key', hkey, value', hvalue, -⟩
      exact ⟨⟨key', hkey⟩, value', hvalue⟩
    · rintro ⟨⟨key', hkey⟩, value', hvalue⟩
      exact ⟨_, key', hkey, value', hvalue, rfl⟩
  | named r =>
    simp only [bind_named h, references, List.mem_singleton, forall_eq]
    constructor
    · rintro ⟨_, id, e, he, hname, hkind, -⟩
      exact ⟨id, e, he, hname, hkind⟩
    · rintro ⟨id, e, he, hname, hkind⟩
      exact ⟨_, id, e, he, hname, hkind, rfl⟩

end Ty

/-! ## Expressions -/

namespace Init

theorem bind_reference (h : s.Models d) {r : Reference ConstTarget} {init : Init} :
    bind s referrer (.reference r) = .ok init ↔
      ∃ target, s.Means r.name target
        ∧ init = .reference { r with target := some target } := by
  unfold bind
  simp only [← h.constTarget_eq_ok referrer]
  cases s.constTarget referrer r <;> simp [eq_comm]

mutual

/-- **An expression that was bound** is the same expression, with every
reference bound to what its name means. -/
theorem bind_sound (h : s.Models d) {init init' : Init}
    (hok : init.bind s referrer = .ok init') :
    init'.erase = init.erase ∧ ∀ r ∈ init'.references, s.BoundConst r := by
  cases init with
  | list items =>
    obtain ⟨items', hitems, rfl⟩ := map_eq_ok.mp hok
    obtain ⟨herase, hbound⟩ := bindItems_sound h hitems
    exact ⟨congrArg Init.list herase, hbound⟩
  | map entries =>
    obtain ⟨entries', hentries, rfl⟩ := map_eq_ok.mp hok
    obtain ⟨herase, hbound⟩ := bindEntries_sound h hentries
    exact ⟨congrArg Init.map herase, hbound⟩
  | reference r =>
    obtain ⟨target, hmeans, rfl⟩ := (bind_reference h).mp hok
    refine ⟨rfl, fun r' hr' => ?_⟩
    cases List.mem_singleton.mp hr'
    exact ⟨target, rfl, hmeans⟩
  | _ =>
    cases hok
    exact ⟨rfl, fun r hr => absurd hr List.not_mem_nil⟩

theorem bindItems_sound (h : s.Models d) {items items' : List Init}
    (hok : bindItems s referrer items = .ok items') :
    eraseItems items' = eraseItems items
      ∧ ∀ r ∈ itemReferences items', s.BoundConst r := by
  cases items with
  | nil =>
    cases hok
    exact ⟨rfl, fun r hr => absurd hr List.not_mem_nil⟩
  | cons item items =>
    simp only [bindItems, bind_eq_ok, pure_eq_ok] at hok
    obtain ⟨item', hitem, items', hitems, rfl⟩ := hok
    obtain ⟨herase, hbound⟩ := bind_sound h hitem
    obtain ⟨herases, hbounds⟩ := bindItems_sound h hitems
    refine ⟨congrArg₂ List.cons herase herases, fun r hr => ?_⟩
    exact (List.mem_append.mp hr).elim (hbound r) (hbounds r)

theorem bindEntries_sound (h : s.Models d) {entries entries' : List (Init × Init)}
    (hok : bindEntries s referrer entries = .ok entries') :
    eraseEntries entries' = eraseEntries entries
      ∧ ∀ r ∈ entryReferences entries', s.BoundConst r := by
  match entries with
  | [] =>
    cases hok
    exact ⟨rfl, fun r hr => absurd hr List.not_mem_nil⟩
  | (key, value) :: entries =>
    simp only [bindEntries, bind_eq_ok, pure_eq_ok] at hok
    obtain ⟨key', hkey, value', hvalue, entries', hentries, rfl⟩ := hok
    obtain ⟨hkerase, hkbound⟩ := bind_sound h hkey
    obtain ⟨hverase, hvbound⟩ := bind_sound h hvalue
    obtain ⟨herases, hbounds⟩ := bindEntries_sound h hentries
    refine ⟨congrArg₂ List.cons (congrArg₂ Prod.mk hkerase hverase) herases,
      fun r hr => ?_⟩
    rcases List.mem_append.mp hr with hr | hr
    · exact (List.mem_append.mp hr).elim (hkbound r) (hvbound r)
    · exact hbounds r hr

end

mutual

/-- **An expression can be bound** when its names mean constants or enum
items. -/
theorem exists_bind (h : s.Models d) (referrer : String) (init : Init) :
    (∃ init', init.bind s referrer = .ok init') ↔
      ∀ r ∈ init.references, ∃ target, s.Means r.name target := by
  cases init with
  | list items =>
    rw [references, ← exists_bindItems h referrer items]
    exact exists_map_eq_ok
  | map entries =>
    rw [references, ← exists_bindEntries h referrer entries]
    exact exists_map_eq_ok
  | reference r =>
    simp only [bind_reference h, references, List.mem_singleton, forall_eq]
    constructor
    · rintro ⟨_, target, hmeans, -⟩
      exact ⟨target, hmeans⟩
    · rintro ⟨target, hmeans⟩
      exact ⟨_, target, hmeans, rfl⟩
  | _ => exact ⟨fun _ r hr => absurd hr List.not_mem_nil, fun _ => ⟨_, rfl⟩⟩

theorem exists_bindItems (h : s.Models d) (referrer : String)
    (items : List Init) :
    (∃ items', bindItems s referrer items = .ok items') ↔
      ∀ r ∈ itemReferences items, ∃ target, s.Means r.name target := by
  cases items with
  | nil => exact ⟨fun _ r hr => absurd hr List.not_mem_nil, fun _ => ⟨_, rfl⟩⟩
  | cons item items =>
    simp only [bindItems, bind_eq_ok, pure_eq_ok, itemReferences,
      List.mem_append, or_imp, forall_and, ← exists_bind h referrer item,
      ← exists_bindItems h referrer items]
    constructor
    · rintro ⟨_, item', hitem, items', hitems, -⟩
      exact ⟨⟨item', hitem⟩, items', hitems⟩
    · rintro ⟨⟨item', hitem⟩, items', hitems⟩
      exact ⟨_, item', hitem, items', hitems, rfl⟩

theorem exists_bindEntries (h : s.Models d) (referrer : String)
    (entries : List (Init × Init)) :
    (∃ entries', bindEntries s referrer entries = .ok entries') ↔
      ∀ r ∈ entryReferences entries, ∃ target, s.Means r.name target := by
  match entries with
  | [] => exact ⟨fun _ r hr => absurd hr List.not_mem_nil, fun _ => ⟨_, rfl⟩⟩
  | (key, value) :: entries =>
    simp only [bindEntries, bind_eq_ok, pure_eq_ok, entryReferences,
      List.mem_append, or_imp, forall_and, ← exists_bind h referrer key,
      ← exists_bind h referrer value, ← exists_bindEntries h referrer entries]
    constructor
    · rintro ⟨_, key', hkey, value', hvalue, entries', hentries, -⟩
      exact ⟨⟨⟨key', hkey⟩, value', hvalue⟩, entries', hentries⟩
    · rintro ⟨⟨⟨key', hkey⟩, value', hvalue⟩, entries', hentries⟩
      exact ⟨_, key', hkey, value', hvalue, entries', hentries, rfl⟩

end

end Init

/-! ## Fields -/

namespace Entity

/-- **A field that was bound** is the same field, with the references of its
type and of its default bound. -/
theorem Field.bind_sound (h : s.Models d) {f g : Field}
    (hok : f.bind s owner = .ok g) :
    g.erase = f.erase ∧ (∀ r ∈ g.type.references, s.BoundTo Kind.isType r)
      ∧ ∀ r ∈ g.defaultReferences, s.BoundConst r := by
  simp only [Field.bind, bind_eq_ok, pure_eq_ok, optionMapM_eq_ok] at hok
  obtain ⟨type, htype, default, hdefault, rfl⟩ := hok
  obtain ⟨herase, hbound⟩ := Ty.bind_sound h.arena htype
  unfold Field.defaultReferences Field.erase
  generalize f.default = o at hdefault ⊢
  cases hdefault with
  | none =>
    refine ⟨?_, hbound, fun r hr => absurd hr List.not_mem_nil⟩
    simp only [herase]
  | some hinit =>
    obtain ⟨hinitErase, hinitBound⟩ := Init.bind_sound h hinit
    refine ⟨?_, hbound, hinitBound⟩
    simp only [herase, Option.map_some, hinitErase]

/-- **A field can be bound** when the names in its type and in its default
can. -/
theorem Field.exists_bind (h : s.Models d) (owner : String) {f : Field} :
    (∃ g, f.bind s owner = .ok g) ↔
      (∀ r ∈ f.type.references, s.Holds Kind.isType r.name)
        ∧ ∀ r ∈ f.defaultReferences, ∃ target, s.Means r.name target := by
  have hdefault : (∃ default, f.default.mapM
        (Init.bind s (qualified owner f.name)) = .ok default) ↔
      ∀ r ∈ f.defaultReferences, ∃ target, s.Means r.name target := by
    unfold Field.defaultReferences
    simp only [exists_optionMapM_eq_ok, Init.exists_bind h]
    cases f.default <;> simp
  rw [← Ty.exists_bind h.arena (qualified owner f.name), ← hdefault]
  simp only [Field.bind, bind_eq_ok, pure_eq_ok]
  constructor
  · rintro ⟨_, type, htype, default, hdefault, -⟩
    exact ⟨⟨type, htype⟩, default, hdefault⟩
  · rintro ⟨⟨type, htype⟩, default, hdefault⟩
    exact ⟨_, type, htype, default, hdefault, rfl⟩

/-- **Fields that were bound** are the same fields, with all their references
bound. -/
theorem bindFields_sound (h : s.Models d) {fields bound : List Field}
    (hok : bindFields s owner fields = .ok bound) :
    bound.map Field.erase = fields.map Field.erase
      ∧ (∀ r ∈ bound.flatMap fun f => f.type.references,
        s.BoundTo Kind.isType r)
      ∧ ∀ r ∈ bound.flatMap Field.defaultReferences, s.BoundConst r := by
  have heach := mapM_eq_ok.mp hok
  refine ⟨(map_eq_map_iff_forall₂.mpr (heach.imp fun f g hg =>
    (Field.bind_sound h hg).1.symm)).symm, fun r hr => ?_, fun r hr => ?_⟩
  · obtain ⟨g, hmem, hr⟩ := List.mem_flatMap.mp hr
    obtain ⟨f, -, hg⟩ := exists_left_of_forall₂ heach hmem
    exact (Field.bind_sound h hg).2.1 r hr
  · obtain ⟨g, hmem, hr⟩ := List.mem_flatMap.mp hr
    obtain ⟨f, -, hg⟩ := exists_left_of_forall₂ heach hmem
    exact (Field.bind_sound h hg).2.2 r hr

/-- **Fields can be bound** when all names in them can. -/
theorem exists_bindFields (h : s.Models d) (owner : String)
    {fields : List Field} :
    (∃ bound, bindFields s owner fields = .ok bound) ↔
      (∀ r ∈ fields.flatMap fun f => f.type.references,
        s.Holds Kind.isType r.name)
      ∧ ∀ r ∈ fields.flatMap Field.defaultReferences,
        ∃ target, s.Means r.name target := by
  unfold bindFields
  simp only [exists_mapM_eq_ok, Field.exists_bind h, List.mem_flatMap]
  constructor
  · intro hall
    constructor
    · rintro r ⟨f, hf, hr⟩
      exact (hall f hf).1 r hr
    · rintro r ⟨f, hf, hr⟩
      exact (hall f hf).2 r hr
  · rintro ⟨htypes, hconsts⟩ f hf
    exact ⟨fun r hr => htypes r ⟨f, hf, hr⟩, fun r hr => hconsts r ⟨f, hf, hr⟩⟩

/-! ## Functions -/

/-- **A function that was bound** is the same function, with all its references
bound and its declared exceptions checked. -/
theorem Function.bind_sound (h : s.Models d) {f g : Function}
    (hok : f.bind s service = .ok g) :
    g.erase = f.erase ∧ (∀ r ∈ g.typeReferences, s.BoundTo Kind.isType r)
      ∧ (∀ r ∈ g.constReferences, s.BoundConst r)
      ∧ ∀ x ∈ g.exceptions,
        x.checkException s (qualified service f.name) = .ok () := by
  simp only [Function.bind, bind_eq_ok, pure_eq_ok, optionMapM_eq_ok,
    forM_eq_ok] at hok
  obtain ⟨parameters, hpar, returns, hret, exceptions, hexc, -, hcheck, rfl⟩ := hok
  obtain ⟨hparErase, hparTypes, hparConsts⟩ := bindFields_sound h hpar
  obtain ⟨hexcErase, hexcTypes, hexcConsts⟩ := bindFields_sound h hexc
  have hreturns : returns.map Ty.erase = f.returns.map Ty.erase
      ∧ ∀ r ∈ (returns.map Ty.references).getD [], s.BoundTo Kind.isType r := by
    generalize f.returns = o at hret ⊢
    cases hret with
    | none => exact ⟨rfl, fun r hr => absurd hr List.not_mem_nil⟩
    | some hty =>
      obtain ⟨herase, hbound⟩ := Ty.bind_sound h.arena hty
      exact ⟨congrArg some herase, hbound⟩
  refine ⟨?_, fun r hr => ?_, fun r hr => ?_, hcheck⟩
  · simp only [Function.erase, hparErase, hreturns.1, hexcErase]
  · rcases List.mem_append.mp hr with hr | hr
    · exact (List.mem_append.mp hr).elim (hparTypes r) (hreturns.2 r)
    · exact hexcTypes r hr
  · exact (List.mem_append.mp hr).elim (hparConsts r) (hexcConsts r)

/-- **A function can be bound** when all names in it can, and its declared
exceptions are found to be exceptions once they are bound. -/
theorem Function.exists_bind (h : s.Models d) {f : Function}
    (htypes : ∀ r ∈ f.typeReferences, s.Holds Kind.isType r.name)
    (hconsts : ∀ r ∈ f.constReferences, ∃ target, s.Means r.name target)
    (hexceptions : ∀ exceptions : List Field,
      exceptions.map Field.erase = f.exceptions.map Field.erase →
      (∀ r ∈ exceptions.flatMap fun x => x.type.references,
        s.BoundTo Kind.isType r) →
      ∀ x ∈ exceptions,
        x.checkException s (qualified service f.name) = .ok ()) :
    ∃ g, f.bind s service = .ok g := by
  obtain ⟨parameters, hpar⟩ :=
    (exists_bindFields h (qualified service f.name)).mpr
      ⟨fun r hr => htypes r (List.mem_append_left _ (List.mem_append_left _ hr)),
        fun r hr => hconsts r (List.mem_append_left _ hr)⟩
  obtain ⟨exceptions, hexc⟩ :=
    (exists_bindFields h (qualified service f.name)).mpr
      ⟨fun r hr => htypes r (List.mem_append_right _ hr),
        fun r hr => hconsts r (List.mem_append_right _ hr)⟩
  have hreturns : ∃ returns,
      f.returns.mapM (Ty.bind s (qualified service f.name)) = .ok returns := by
    refine exists_optionMapM_eq_ok.mpr fun ty hty => ?_
    refine (Ty.exists_bind h.arena (qualified service f.name)).mpr fun r hr => ?_
    refine htypes r (List.mem_append_left _ (List.mem_append_right _ ?_))
    rw [Option.mem_def.mp hty]
    exact hr
  obtain ⟨returns, hret⟩ := hreturns
  obtain ⟨herase, hbound, -⟩ := bindFields_sound h hexc
  simp only [Function.bind, bind_eq_ok, pure_eq_ok, forM_eq_ok]
  exact ⟨_, parameters, hpar, returns, hret, exceptions, hexc, ⟨⟩,
    hexceptions exceptions herase hbound, rfl⟩

/-- **Functions that were bound** are the same functions, with all their
references bound and their declared exceptions checked. -/
theorem bindFunctions_sound (h : s.Models d) {functions bound : List Function}
    (hok : functions.mapM (Function.bind s service) = .ok bound) :
    bound.map Function.erase = functions.map Function.erase
      ∧ (∀ r ∈ bound.flatMap Function.typeReferences, s.BoundTo Kind.isType r)
      ∧ (∀ r ∈ bound.flatMap Function.constReferences, s.BoundConst r)
      ∧ ∀ f ∈ bound, ∀ x ∈ f.exceptions,
        ∃ owner, x.checkException s owner = .ok () := by
  have heach := mapM_eq_ok.mp hok
  have hsound : ∀ g ∈ bound, ∃ f ∈ functions, f.bind s service = .ok g :=
    fun g hg => exists_left_of_forall₂ heach hg
  refine ⟨(map_eq_map_iff_forall₂.mpr (heach.imp fun f g hg =>
    (Function.bind_sound h hg).1.symm)).symm, fun r hr => ?_, fun r hr => ?_,
    fun g hg x hx => ?_⟩
  · obtain ⟨g, hg, hr⟩ := List.mem_flatMap.mp hr
    obtain ⟨f, -, hf⟩ := hsound g hg
    exact (Function.bind_sound h hf).2.1 r hr
  · obtain ⟨g, hg, hr⟩ := List.mem_flatMap.mp hr
    obtain ⟨f, -, hf⟩ := hsound g hg
    exact (Function.bind_sound h hf).2.2.1 r hr
  · obtain ⟨f, -, hf⟩ := hsound g hg
    exact ⟨_, (Function.bind_sound h hf).2.2.2 x hx⟩

/-! ## Services -/

/-- **A service is bound to the service it extends.** -/
theorem bindParent_eq_ok (h : s.IsArena) {parent bound : Reference EntityId} :
    bindParent s service parent = .ok bound ↔
      ∃ id e, s.entity? id = some e ∧ e.name = parent.name
        ∧ e.kind = .service ∧ bound = { parent with target := some id } := by
  unfold bindParent
  exact h.lookup_if_eq_ok

/-- A service that was bound extends the same service. -/
theorem bindParent_sound (h : s.IsArena)
    {parent bound : Option (Reference EntityId)}
    (hok : parent.mapM (bindParent s service) = .ok bound) :
    bound.map Reference.erase = parent.map Reference.erase
      ∧ ∀ r ∈ bound, s.BoundTo (fun kind => kind == .service) r := by
  cases optionMapM_eq_ok.mp hok with
  | none => exact ⟨rfl, fun r hr => absurd hr (Option.not_mem_none r)⟩
  | some hr =>
    obtain ⟨id, e, he, hname, hkind, rfl⟩ := (bindParent_eq_ok h).mp hr
    refine ⟨rfl, fun r hr => ?_⟩
    cases hr
    exact ⟨id, e, rfl, he, hname, beq_iff_eq.mpr hkind⟩

/-- A declared exception passes when its shape is an exception. -/
theorem Field.checkException_eq_ok {f : Field} :
    f.checkException s owner = .ok () ↔
      ∃ id e, s.dealias f.type owner = .ok (.entity id e)
        ∧ e.kind = .struct .exception := by
  unfold Field.checkException
  split
  next hok => simp [hok]
  next id e hok =>
    by_cases hkind : e.kind = .struct .exception <;> simp [hok, hkind]
  next shape hother hok =>
    simp only [hok, reduceCtorEq, Except.ok.injEq, false_iff]
    rintro ⟨id, e, rfl, -⟩
    exact hother id e rfl

/-! ## Whole entities -/

/-- **All references of a body are bound.** -/
structure Body.Bound (s : Scope) (b : Body) : Prop where
  /-- References to types are bound to types. -/
  types : ∀ r ∈ b.typeReferences, s.BoundTo Kind.isType r
  /-- References to constants and enum items are bound to what they mean. -/
  constants : ∀ r ∈ b.constReferences, s.BoundConst r
  /-- The service that is extended is bound to a service. -/
  parent : ∀ r ∈ b.parent?, s.BoundTo (fun kind => kind == .service) r

/-- What extends nothing has no service to bind. -/
theorem Body.Bound.of_parent {b : Body} (hparent : b.parent? = none)
    (htypes : ∀ r ∈ b.typeReferences, s.BoundTo Kind.isType r)
    (hconstants : ∀ r ∈ b.constReferences, s.BoundConst r) : b.Bound s := by
  refine ⟨htypes, hconstants, fun r hr => ?_⟩
  rw [hparent] at hr
  cases hr

end Entity

/-- **The references of a definition can be bound**, and the exceptions that
its functions declare are exceptions. -/
structure Definition.Body.Bindable (d : Document) (x : Definition.Body) :
    Prop where
  /-- The names of types stand for types. -/
  types : ∀ m ∈ x.typeMentions, d.NamesType m.name
  /-- The names of constants stand for constants or enum items. -/
  constants : ∀ m ∈ x.constMentions, d.NamesConstant m.name
  /-- A service extends a service. -/
  parent : ∀ functions m, x = .service functions (some m) →
    ∃ functions' parent', d.Defines m.name (.service functions' parent')
  /-- Declared exceptions are exceptions. -/
  exceptions : ∀ functions parent, x = .service functions parent →
    ∀ f ∈ functions, ∀ y ∈ f.exceptions, ∃ name fields,
      d.ReachesBody y.type name (.struct .exception fields)

namespace Scope

variable {s' : Scope} {id : EntityId} {e : Entity}

theorem setBody_self (he : s.entity? id = some e) : s.setBody id e.body = s := by
  have hentities : (s.setBody id e.body).entities = s.entities := by
    refine List.ext_getElem? fun j => ?_
    have hj := entity?_setBody s id e.body j
    unfold entity? at hj he
    rw [hj]
    split
    next hid =>
      subst hid
      rw [he]
      rfl
    next => rfl
  calc s.setBody id e.body
      = { s with entities := (s.setBody id e.body).entities } := rfl
    _ = s := by rw [hentities]

/-- **Binding an entity** gives it a body with the same erasure and all
references bound, and checks the exceptions that its functions declare. -/
theorem bindStep_sound (h : s.Models d) (he : s.entity? id = some e)
    (hok : s.bindStep id = .ok s') :
    ∃ b, s' = s.setBody id b ∧ b.erase = e.body.erase ∧ b.Bound s
      ∧ ∀ functions parent methods, b = .service functions parent methods →
        ∀ f ∈ functions, ∀ x ∈ f.exceptions,
          ∃ owner, x.checkException s owner = .ok () := by
  unfold bindStep at hok
  rw [he] at hok
  dsimp only at hok
  cases hbody : e.body with
  | const type init value =>
    simp only [hbody, bind_eq_ok, pure_eq_ok] at hok
    obtain ⟨type', htype, init', hinit, rfl⟩ := hok
    obtain ⟨hterase, htbound⟩ := Ty.bind_sound h.arena htype
    obtain ⟨hierase, hibound⟩ := Init.bind_sound h hinit
    refine ⟨_, rfl, ?_, .of_parent rfl htbound hibound, fun _ _ _ heq => by cases heq⟩
    simp only [Entity.Body.erase, hterase, hierase]
  | typedef target =>
    simp only [hbody, bind_eq_ok, pure_eq_ok] at hok
    obtain ⟨target', htarget, rfl⟩ := hok
    obtain ⟨herase, hbound⟩ := Ty.bind_sound h.arena htarget
    exact ⟨_, rfl, congrArg Entity.Body.typedef herase,
      .of_parent rfl hbound fun r hr => absurd hr List.not_mem_nil,
      fun _ _ _ heq => by cases heq⟩
  | enum items =>
    simp only [hbody, Except.ok.injEq] at hok
    subst hok
    refine ⟨e.body, (setBody_self he).symm, by rw [hbody], ?_, ?_⟩
    · rw [hbody]
      exact .of_parent rfl (fun r hr => absurd hr List.not_mem_nil)
        fun r hr => absurd hr List.not_mem_nil
    · intro _ _ _ heq
      rw [hbody] at heq
      cases heq
  | struct kind fields =>
    simp only [hbody, bind_eq_ok, pure_eq_ok] at hok
    obtain ⟨fields', hfields, rfl⟩ := hok
    obtain ⟨herase, htypes, hconsts⟩ := Entity.bindFields_sound h hfields
    exact ⟨_, rfl, congrArg (Entity.Body.struct kind) herase,
      .of_parent rfl htypes hconsts, fun _ _ _ heq => by cases heq⟩
  | service functions parent methods =>
    simp only [hbody, bind_eq_ok, pure_eq_ok] at hok
    obtain ⟨parent', hparent, functions', hfunctions, rfl⟩ := hok
    obtain ⟨hpErase, hpBound⟩ := Entity.bindParent_sound h.arena hparent
    obtain ⟨hfErase, htypes, hconsts, hexceptions⟩ :=
      Entity.bindFunctions_sound h hfunctions
    refine ⟨_, rfl, ?_, ⟨htypes, hconsts, hpBound⟩, ?_⟩
    · simp only [Entity.Body.erase, hfErase, hpErase]
    · rintro _ _ _ ⟨⟩
      exact hexceptions

namespace Models

/-- A declared exception that passes reaches an exception. -/
theorem reachesBody_of_checkException (h : s.Models d) {f : Entity.Field}
    {t : TypeExpr} (hty : s.Renders t f.type)
    (hok : f.checkException s owner = .ok ()) :
    ∃ name fields, d.ReachesBody t name (.struct .exception fields) := by
  obtain ⟨id, e, hok, hkind⟩ := Entity.Field.checkException_eq_ok.mp hok
  obtain ⟨-, body, hreaches, hdeclared⟩ := h.reachesBody_sound hty hok
  unfold Entity.kind at hkind
  generalize e.body = b at hdeclared hkind
  cases hdeclared <;> cases hkind
  exact ⟨e.name, _, hreaches⟩

/-- A declared exception that reaches an exception passes. -/
theorem checkException_of_reachesBody (h : s.Models d) (owner : String)
    {f : Entity.Field} {t : TypeExpr} (hty : s.Renders t f.type) {name : String}
    {fields : List Field}
    (hreaches : d.ReachesBody t name (.struct .exception fields)) :
    f.checkException s owner = .ok () := by
  obtain ⟨id, e, hok, -, -, hdeclared⟩ :=
    h.reachesBody_complete owner hreaches hty
  refine Entity.Field.checkException_eq_ok.mpr ⟨id, e, hok, ?_⟩
  unfold Entity.kind
  generalize e.body = b at hdeclared
  cases hdeclared
  rfl

/-- **What was bound can be bound.** -/
theorem bindable_of_bound (h : s.Models d) (he : s.entity? id = some e)
    {b : Entity.Body} (herase : b.erase = e.body.erase) (hbound : b.Bound s)
    (hexceptions : ∀ functions parent methods,
      b = .service functions parent methods → ∀ f ∈ functions,
        ∀ x ∈ f.exceptions, ∃ owner, x.checkException s owner = .ok ())
    {x : Definition.Body} (hdefines : d.Defines e.name x) : x.Bindable d := by
  have hdeclared : x.DeclaredAs b :=
    Definition.Body.declaredAs_of_erase_eq herase (h.declaredAs he hdefines)
  constructor
  · intro m hm
    obtain ⟨r, hr, hname⟩ := List.mem_map.mp
      (hdeclared.map_name_types ▸ List.mem_map_of_mem hm)
    obtain ⟨j, e', -, he', hname', hkind⟩ := hbound.types r hr
    exact h.holds_isType.mp ⟨j, e', he', hname'.trans hname, hkind⟩
  · intro m hm
    obtain ⟨r, hr, hname⟩ := List.mem_map.mp
      (hdeclared.map_name_constants ▸ List.mem_map_of_mem hm)
    obtain ⟨target, -, hmeans⟩ := hbound.constants r hr
    exact h.exists_means.mp ⟨target, hname ▸ hmeans⟩
  · rintro functions m rfl
    cases hdeclared with | @service _ _ _ parent _ _ hparent =>
    obtain ⟨r, rfl, hr⟩ := Option.map_eq_some_iff.mp hparent
    obtain ⟨j, e', -, he', hname', hkind⟩ := hbound.parent r rfl
    have hname : r.name = m.name := congrArg Reference.name hr
    exact h.holds_service.mp ⟨j, e', he', hname'.trans hname, hkind⟩
  · rintro functions parent rfl f hf y hy
    cases hdeclared with | service hfunctions _ =>
    obtain ⟨g, hg, hfg⟩ := exists_right_of_forall₂ hfunctions hf
    obtain ⟨z, hz, hyz⟩ := exists_right_of_forall₂ hfg.exceptions.each hy
    have hrenders : s.Renders y.type z.type := by
      refine renders_of_erase hyz.type fun r hr =>
        h.arena.agrees_of_boundTo (hbound.types r ?_)
      exact List.mem_flatMap.mpr ⟨g, hg, List.mem_append_right _
        (List.mem_flatMap.mpr ⟨z, hz, hr⟩)⟩
    obtain ⟨owner, hok⟩ := hexceptions _ _ _ rfl g hg z hz
    exact h.reachesBody_of_checkException hrenders hok

/-- The service that a service extends can be bound. -/
theorem exists_bindParent (h : s.Models d) (service : String)
    {parent : Option (Reference EntityId)} {extended : Option Mention}
    (hsame : parent.map Reference.erase = extended.map Mention.toReference)
    (hextended : ∀ m ∈ extended, ∃ functions parent,
      d.Defines m.name (.service functions parent)) :
    ∃ bound, parent.mapM (Entity.bindParent s service) = .ok bound := by
  refine exists_optionMapM_eq_ok.mpr fun r hr => ?_
  rw [Option.mem_def.mp hr, Option.map_some] at hsame
  obtain ⟨m, hm, hmr⟩ := Option.map_eq_some_iff.mp hsame.symm
  obtain ⟨j, e, he, hname, hkind⟩ := h.holds_service.mpr (hextended m hm)
  have hrname : m.name = r.name := congrArg Reference.name hmr
  exact ⟨_, (Entity.bindParent_eq_ok h.arena).mpr
    ⟨j, e, he, hname.trans hrname, beq_iff_eq.mp hkind, rfl⟩⟩

/-- A function can be bound when the names in it can, and what it declares as
exceptions are exceptions. -/
theorem exists_bindFunction (h : s.Models d) (service : String)
    {f : FunctionDecl} {g : Entity.Function} (hdeclared : f.DeclaredAs g)
    (htypes : ∀ r ∈ g.typeReferences, s.Holds Entity.Kind.isType r.name)
    (hconsts : ∀ r ∈ g.constReferences, ∃ target, s.Means r.name target)
    (hexceptions : ∀ x ∈ f.exceptions, ∃ name fields,
      d.ReachesBody x.type name (.struct .exception fields)) :
    ∃ bound, g.bind s service = .ok bound := by
  refine Entity.Function.exists_bind h htypes hconsts ?_
  intro exceptions herase hbound z hz
  have hall : Field.AllDeclaredAs f.exceptions exceptions :=
    Field.allDeclaredAs_erase.mp
      (herase ▸ Field.allDeclaredAs_erase.mpr hdeclared.exceptions)
  obtain ⟨y, hy, hyz⟩ := exists_left_of_forall₂ hall.each hz
  obtain ⟨name, fields, hreaches⟩ := hexceptions y hy
  refine h.checkException_of_reachesBody _
    (renders_of_erase hyz.type fun r hr => ?_) hreaches
  exact h.arena.agrees_of_boundTo
    (hbound r (List.mem_flatMap.mpr ⟨z, hz, hr⟩))

/-- **What can be bound is bound.** -/
theorem exists_bindStep (h : s.Models d) (he : s.entity? id = some e)
    {x : Definition.Body} (hdefines : d.Defines e.name x) (hx : x.Bindable d) :
    ∃ s', s.bindStep id = .ok s' := by
  have hdeclared := h.declaredAs he hdefines
  have htypes : ∀ r ∈ e.body.typeReferences,
      s.Holds Entity.Kind.isType r.name := by
    intro r hr
    obtain ⟨m, hm, hname⟩ := List.mem_map.mp
      (hdeclared.map_name_types ▸ List.mem_map_of_mem hr)
    exact hname ▸ h.holds_isType.mpr (hx.types m hm)
  have hconsts : ∀ r ∈ e.body.constReferences,
      ∃ target, s.Means r.name target := by
    intro r hr
    obtain ⟨m, hm, hname⟩ := List.mem_map.mp
      (hdeclared.map_name_constants ▸ List.mem_map_of_mem hr)
    exact hname ▸ h.exists_means.mpr (hx.constants m hm)
  unfold bindStep
  rw [he]
  dsimp only
  generalize e.body = b at hdeclared htypes hconsts
  cases hdeclared with
  | const htype hvalue =>
    obtain ⟨type', htype'⟩ := (Ty.exists_bind h.arena e.name).mpr htypes
    obtain ⟨init', hinit'⟩ := (Init.exists_bind h e.name _).mpr hconsts
    simp only [bind_eq_ok, pure_eq_ok]
    exact ⟨_, type', htype', init', hinit', rfl⟩
  | typedef htarget =>
    obtain ⟨target', htarget'⟩ := (Ty.exists_bind h.arena e.name).mpr htypes
    simp only [bind_eq_ok, pure_eq_ok]
    exact ⟨_, target', htarget', rfl⟩
  | enum => exact ⟨s, rfl⟩
  | struct hfields =>
    obtain ⟨fields', hfields'⟩ :=
      (Entity.exists_bindFields h e.name).mpr ⟨htypes, hconsts⟩
    simp only [bind_eq_ok, pure_eq_ok]
    exact ⟨_, fields', hfields', rfl⟩
  | @service functions parent numbered bound methods hfunctions hparent =>
    obtain ⟨parent', hparent'⟩ := h.exists_bindParent e.name hparent fun m hm =>
      hx.parent functions m (congrArg _ hm)
    have hfunctions' : ∃ functions', numbered.mapM
        (Entity.Function.bind s e.name) = .ok functions' := by
      refine exists_mapM_eq_ok.mpr fun g hg => ?_
      obtain ⟨f, hf, hfg⟩ := exists_left_of_forall₂ hfunctions hg
      exact h.exists_bindFunction e.name hfg
        (fun r hr => htypes r (List.mem_flatMap.mpr ⟨g, hg, hr⟩))
        (fun r hr => hconsts r (List.mem_flatMap.mpr ⟨g, hg, hr⟩))
        (hx.exceptions functions parent rfl f hf)
    obtain ⟨functions', hfunctions'⟩ := hfunctions'
    simp only [bind_eq_ok, pure_eq_ok]
    exact ⟨_, parent', hparent', functions', hfunctions', rfl⟩

end Models

end Scope

end Interlink
