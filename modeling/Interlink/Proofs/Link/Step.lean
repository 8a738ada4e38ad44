import Interlink.Proofs.Link.Bind
import Interlink.Proofs.Link.Check
import Interlink.Proofs.Link.Methods

/-!
# The steps of linking

After its references are bound, an entity is checked, and what is to be
evaluated is evaluated: the value of a constant, the defaults of fields, the
method list of a service. Which definitions pass is said of the document
(`Definition.Body.Checked`), and so is what is stored
(`Definition.Body.ValuedAs`).

Each of the three steps gives the entity a body with the same erasure and the
same references, and leaves all others alone. As with binding, there are two
statements: what a step leaves behind (`constantStep_sound`, `typeStep_sound`,
`serviceStep_sound`), and that it succeeds on what passes
(`exists_constantStep`, `exists_typeStep`, `exists_serviceStep`).
-/

namespace Interlink

/-! ## What passes, and what is stored -/

/-- **A definition passes its check.** A constant has a value of its type, and a
typedef comes to an end. Fields are told apart, those of a union are not
required and have no default, and defaults have values. Functions have
different names and are sound, and a service comes to an end. -/
def Definition.Body.Checked (d : Document) (name : String) :
    Definition.Body → Prop
  | .const type expr => ∃ v, d.HasValue type expr v
  | .typedef target => ∃ t, d.Reaches target t
  | .enum _ => True
  | .struct kind fields =>
    Field.Distinct fields
      ∧ (kind = .union →
        ∀ f ∈ fields, f.requiredness ≠ .required ∧ f.default = none)
      ∧ ∀ f ∈ fields, ∀ c, f.default = some c → ∃ v, d.HasValue f.type c v
  | .service functions _ =>
    (functions.map FunctionDecl.name).Nodup ∧ (∀ f ∈ functions, f.Sound d)
      ∧ Acc (fun b a => d.Extends a b) name

/-- **What is stored with an entity** is what the document says: the value of a
constant, the values of the defaults of fields and of parameters. -/
def Definition.Body.ValuedAs (d : Document) :
    Definition.Body → Entity.Body → Prop
  | .const type expr, .const _ _ stored =>
    ∃ v, stored = some v ∧ d.HasValue type expr v
  | .struct _ fields, .struct _ valued =>
    List.Forall₂ (Field.ValuedAs d) fields valued
  | .service functions _, .service valued _ _ =>
    List.Forall₂ (fun f g =>
      List.Forall₂ (Field.ValuedAs d) f.parameters g.parameters) functions valued
  | _, _ => True

theorem Entity.Body.Bound.of_eq {s : Scope} {b b' : Entity.Body} (h : b.Bound s)
    (htypes : b'.typeReferences = b.typeReferences)
    (hconstants : b'.constReferences = b.constReferences)
    (hparent : b'.parent? = b.parent?) : b'.Bound s where
  types := htypes ▸ h.types
  constants := hconstants ▸ h.constants
  parent := hparent ▸ h.parent

namespace Scope

variable {s s' : Scope} {d : Document} {id : EntityId} {e : Entity}

/-! ## What a step does -/

/-- A constant gets the value that is found for it. -/
theorem constantStep_eq_ok {table table' : ValueTable}
    (he : s.entity? id = some e) {ty : Ty} {init : Init} {stored : Option Value}
    (hbody : e.body = .const ty init stored) :
    constantStep (s, table) id = .ok (s', table') ↔
      ∃ v, s.findValue s.steps [] table id e = .ok (v, table')
        ∧ s' = s.setBody id (.const ty init (some v)) := by
  unfold constantStep
  dsimp only
  rw [he]
  simp only [hbody, bind_eq_ok, pure_eq_ok, Prod.exists, Prod.mk.injEq,
    @eq_comm _ s']
  constructor
  · rintro ⟨v, table, hfind, hset, rfl⟩
    exact ⟨v, hfind, hset⟩
  · rintro ⟨v, hfind, hset⟩
    exact ⟨v, table', hfind, hset, rfl⟩

/-- A typedef has a shape. -/
theorem typeStep_typedef_eq_ok (he : s.entity? id = some e) {target : Ty}
    (hbody : e.body = .typedef target) :
    s.typeStep id = .ok s' ↔
      (∃ shape, s.follow e.name s.steps [id] target = .ok shape) ∧ s' = s := by
  have hshape : s.dealiasEntity id e = s.follow e.name s.steps [id] target := by
    unfold dealiasEntity
    rw [hbody]
  unfold typeStep
  rw [he]
  simp only [hbody, bind_eq_ok, discard_eq_ok, pure_eq_ok, hshape, exists_const,
    @eq_comm _ s']

/-- Nothing is checked of an enum. -/
theorem typeStep_enum_eq_ok (he : s.entity? id = some e)
    {items : List Entity.Item} (hbody : e.body = .enum items) :
    s.typeStep id = .ok s := by
  unfold typeStep
  rw [he]
  simp only [hbody]

/-- The fields of a struct, union or exception are told apart, and get the
values of their defaults. -/
theorem typeStep_struct_eq_ok (he : s.entity? id = some e) {kind : StructKind}
    {fields : List Entity.Field} (hbody : e.body = .struct kind fields) :
    s.typeStep id = .ok s' ↔
      Entity.checkDistinct e.name ∅ ∅ fields = .ok ()
        ∧ (kind = .union → Entity.checkUnion e.name fields = .ok ())
        ∧ ∃ valued, Entity.evaluateDefaults s e.name fields = .ok valued
          ∧ s' = s.setBody id (.struct kind valued) := by
  unfold typeStep
  rw [he]
  simp only [hbody, bind_eq_ok]
  by_cases hunion : kind = .union
  · simp only [hunion, if_true, bind_eq_ok, pure_eq_ok, forall_const,
      @eq_comm _ s']
    constructor
    · rintro ⟨⟨⟩, hdistinct, ⟨⟩, hunion, hvalues⟩
      exact ⟨hdistinct, hunion, hvalues⟩
    · rintro ⟨hdistinct, hunion, hvalues⟩
      exact ⟨⟨⟩, hdistinct, ⟨⟩, hunion, hvalues⟩
  · simp only [hunion, if_false, bind_eq_ok, pure_eq_ok, false_implies, true_and,
      @eq_comm _ s']
    constructor
    · rintro ⟨⟨⟩, hdistinct, hvalues⟩
      exact ⟨hdistinct, hvalues⟩
    · rintro ⟨hdistinct, hvalues⟩
      exact ⟨⟨⟩, hdistinct, hvalues⟩

/-- The functions of a service are told apart and checked, and its methods are
found. -/
theorem serviceStep_eq_ok {table table' : MethodTable}
    (he : s.entity? id = some e) {functions : List Entity.Function}
    {parent : Option (Reference EntityId)} {stored : List Entity.Method}
    (hbody : e.body = .service functions parent stored) :
    serviceStep (s, table) id = .ok (s', table') ↔
      Entity.checkFunctionNames e.name ∅ functions = .ok ()
        ∧ ∃ valued methods,
          functions.mapM (Entity.Function.check s e.name) = .ok valued
          ∧ s.findMethods s.steps [] table id = .ok (methods, table')
          ∧ s' = s.setBody id (.service valued parent methods) := by
  unfold serviceStep
  dsimp only
  rw [he]
  simp only [hbody, bind_eq_ok, pure_eq_ok, Prod.exists, Prod.mk.injEq,
    @eq_comm _ s']
  constructor
  · rintro ⟨⟨⟩, hnames, valued, hvalued, methods, table, hfind, hset, rfl⟩
    exact ⟨hnames, valued, methods, hvalued, hfind, hset⟩
  · rintro ⟨hnames, valued, methods, hvalued, hfind, hset⟩
    exact ⟨⟨⟩, hnames, valued, hvalued, methods, table', hfind, hset, rfl⟩

/-! ## What a step leaves behind -/

/-- **An entity was settled**: it has another body with the same erasure, its
references are still bound, its definition passes and its values are
stored. -/
def Settles (s : Scope) (d : Document) (id : EntityId) (e : Entity)
    (s' : Scope) : Prop :=
  ∃ b, s' = s.setBody id b ∧ b.erase = e.body.erase ∧ b.Bound s
    ∧ ∀ x, d.Defines e.name x → x.Checked d e.name ∧ x.ValuedAs d b

namespace Models

/-- **A constant that was evaluated** has a value, and it is stored. -/
theorem constantStep_sound (h : s.Models d) (hconstants : s.ConstantsBound)
    {table table' : ValueTable} (htable : s.SoundTable d table)
    (he : s.entity? id = some e) (hkind : e.kind = .constant)
    (hbound : e.body.Bound s)
    (hok : constantStep (s, table) id = .ok (s', table')) :
    s.SoundTable d table' ∧ s.Settles d id e s' := by
  obtain ⟨x, hx, hdeclared⟩ := h.exists_defines he
  unfold Settles
  unfold Entity.kind at hkind
  generalize hbody : e.body = b at hdeclared hbound hkind
  cases hdeclared with
  | const =>
    obtain ⟨v, hfind, rfl⟩ := (constantStep_eq_ok he hbody).mp hok
    obtain ⟨htable', -, hlookup⟩ :=
      h.findValue_sound hconstants _ _ _ _ _ _ _ he htable hfind
    obtain ⟨type, expr, hdefines, hv⟩ := htable' id v hlookup e he
    refine ⟨htable', _, rfl, rfl, hbound.of_eq rfl rfl rfl, fun y hy => ?_⟩
    cases h.defines_unique hdefines hy
    exact ⟨⟨v, hv⟩, v, rfl, hv⟩
  | _ => cases hkind

/-- **A type that was checked** passes, and has the values of its defaults. -/
theorem typeStep_sound (h : s.Models d) (hvalued : s.ConstantsValued d)
    (he : s.entity? id = some e) (hkind : e.kind.isType = true)
    (hbound : e.body.Bound s) (hok : s.typeStep id = .ok s') :
    s.Settles d id e s' := by
  obtain ⟨x, hx, hdeclared⟩ := h.exists_defines he
  have hagrees := h.agrees e (List.mem_of_getElem? he)
  have hself := setBody_self he
  unfold Settles
  unfold Entity.kind at hkind
  generalize hbody : e.body = b at hdeclared hbound hagrees hself hkind
  cases hdeclared with
  | typedef herase =>
    obtain ⟨⟨shape, hshape⟩, rfl⟩ := (typeStep_typedef_eq_ok he hbody).mp hok
    refine ⟨_, hself.symm, rfl, hbound, fun y hy => ?_⟩
    cases h.defines_unique hx hy
    obtain ⟨t', hreaches, -⟩ :=
      h.follow_sound (renders_of_erase herase hagrees) hshape
    exact ⟨⟨t', hreaches⟩, trivial⟩
  | enum =>
    rw [typeStep_enum_eq_ok he hbody] at hok
    cases hok
    refine ⟨_, hself.symm, rfl, hbound, fun y hy => ?_⟩
    cases h.defines_unique hx hy
    exact ⟨trivial, trivial⟩
  | @struct kind declared numbered hfields =>
    obtain ⟨hdistinct, hunion, valued, hvalues, rfl⟩ :=
      (typeStep_struct_eq_ok he hbody).mp hok
    obtain ⟨hsame, hvalued⟩ := h.evaluateDefaults_sound hvalued hfields hagrees
      hbound.constants hvalues
    obtain ⟨herase, htypes, hconstants⟩ := Entity.Field.SameDeclaration.lists hsame
    refine ⟨_, rfl, congrArg (Entity.Body.struct kind) herase,
      hbound.of_eq htypes hconstants rfl, fun y hy => ?_⟩
    cases h.defines_unique hx hy
    exact ⟨⟨hfields.checkDistinct_eq_ok.mp hdistinct, fun hkind =>
      hfields.checkUnion_eq_ok.mp (hunion hkind), Field.exists_hasValue hvalued⟩,
      hvalued⟩
  | _ => cases hkind

/-- **A service that was checked** passes, its parameters have the values of
their defaults, and the chain of services it extends ends. -/
theorem serviceStep_sound (h : s.Models d) (hvalued : s.ConstantsValued d)
    (hparents : s.ParentsBound) {table table' : MethodTable}
    (htable : s.EndingTable d table) (he : s.entity? id = some e)
    (hkind : e.kind = .service) (hbound : e.body.Bound s)
    (hok : serviceStep (s, table) id = .ok (s', table')) :
    s.EndingTable d table' ∧ s.Settles d id e s' := by
  obtain ⟨x, hx, hdeclared⟩ := h.exists_defines he
  have hagrees := h.agrees e (List.mem_of_getElem? he)
  unfold Settles
  unfold Entity.kind at hkind
  generalize hbody : e.body = b at hdeclared hbound hagrees hkind
  cases hdeclared with
  | @service declared _ numbered parent stored hfunctions _ =>
    obtain ⟨hnames, valued, methods, hvalues, hfind, rfl⟩ :=
      (serviceStep_eq_ok he hbody).mp hok
    obtain ⟨hacc, htable'⟩ := h.findMethods_sound hparents htable he hfind
    obtain ⟨hsound, hsame, hstored⟩ := h.checkFunctions_sound hvalued hfunctions
      hagrees hbound.constants hvalues
    refine ⟨htable', _, rfl, ?_, hbound.of_eq ?_ ?_ rfl, fun y hy => ?_⟩
    · refine congrArg (Entity.Body.service · _ _) (map_eq_map_iff_forall₂.mpr ?_).symm
      exact hsame.imp fun f g hg => hg.same.1.symm
    · exact flatMap_eq_of_forall₂ hsame fun f g hg => hg.same.2.1
    · exact flatMap_eq_of_forall₂ hsame fun f g hg => hg.same.2.2
    · cases h.defines_unique hx hy
      exact ⟨⟨(FunctionDecl.checkFunctionNames_eq_ok hfunctions).mp hnames, hsound, hacc⟩,
        hstored⟩
  | _ => cases hkind

/-! ## What passes is settled -/

/-- **A constant is evaluated**, if all constants have values. -/
theorem exists_constantStep (h : s.Models d) (hconstants : s.ConstantsBound)
    (hvalues : ∀ name type expr, d.Defines name (.const type expr) →
      ∃ v, d.HasValue type expr v)
    {table : ValueTable} (htable : s.SoundTable d table)
    (he : s.entity? id = some e) (hkind : e.kind = .constant) :
    ∃ state, constantStep (s, table) id = .ok state := by
  obtain ⟨v, table', hfind⟩ := h.exists_findValue hconstants hvalues
    (h.acyclic_constantMentions hvalues) htable he hkind openTrail_nil
  unfold Entity.kind at hkind
  generalize hbody : e.body = b at hkind
  cases b with
  | const => exact ⟨_, (constantStep_eq_ok he hbody).mpr ⟨v, hfind, rfl⟩⟩
  | _ => cases hkind

/-- **A type that passes is checked.** -/
theorem exists_typeStep (h : s.Models d) (hvalued : s.ConstantsValued d)
    (he : s.entity? id = some e) (hkind : e.kind.isType = true)
    (hbound : e.body.Bound s) {x : Definition.Body}
    (hx : d.Defines e.name x) (hchecked : x.Checked d e.name) :
    ∃ s', s.typeStep id = .ok s' := by
  have hdeclared := h.declaredAs he hx
  have hagrees := h.agrees e (List.mem_of_getElem? he)
  unfold Entity.kind at hkind
  generalize hbody : e.body = b at hdeclared hbound hagrees hkind
  cases hdeclared with
  | @typedef target ty herase =>
    obtain ⟨t, hreaches⟩ := hchecked
    -- the typedef itself has been entered, and leads to what it names
    have hopen : ∀ m, target = .named m →
        s.OpenTrail d.TypedefMentions s.steps [id] m.name := by
      rintro m rfl
      refine ⟨List.nodup_singleton id, Nat.le_add_right _ _, fun j hj => ?_⟩
      cases List.mem_singleton.mp hj
      exact ⟨e, he, .single ⟨m, hx, rfl⟩⟩
    obtain ⟨shape, hshape, -⟩ := h.follow_complete e.name hreaches
      (renders_of_erase herase hagrees) hopen
    exact ⟨s, (typeStep_typedef_eq_ok he hbody).mpr ⟨⟨shape, hshape⟩, rfl⟩⟩
  | enum => exact ⟨s, typeStep_enum_eq_ok he hbody⟩
  | struct hfields =>
    obtain ⟨hdistinct, hunion, hvalues⟩ := hchecked
    obtain ⟨valued, hvalues⟩ := h.exists_evaluateDefaults hvalued e.name hfields
      hagrees hbound.constants hvalues
    exact ⟨_, (typeStep_struct_eq_ok he hbody).mpr
      ⟨hfields.checkDistinct_eq_ok.mpr hdistinct,
        fun hkind => hfields.checkUnion_eq_ok.mpr (hunion hkind),
        valued, hvalues, rfl⟩⟩
  | _ => cases hkind

/-- **A service that passes is checked**, if no service extends itself. -/
theorem exists_serviceStep (h : s.Models d) (hvalued : s.ConstantsValued d)
    (hparents : s.ParentsBound) (hends : Acyclic d.Extends)
    (table : MethodTable) (he : s.entity? id = some e)
    (hkind : e.kind = .service) (hbound : e.body.Bound s) {x : Definition.Body}
    (hx : d.Defines e.name x) (hchecked : x.Checked d e.name) :
    ∃ state, serviceStep (s, table) id = .ok state := by
  have hdeclared := h.declaredAs he hx
  have hagrees := h.agrees e (List.mem_of_getElem? he)
  obtain ⟨methods, table', hfind⟩ := h.exists_findMethods hparents hends
    table he openTrail_nil
  unfold Entity.kind at hkind
  generalize hbody : e.body = b at hdeclared hbound hagrees hkind
  cases hdeclared with
  | @service declared _ numbered _ _ hfunctions _ =>
    obtain ⟨hnames, hsound, -⟩ := hchecked
    have hvalues : ∃ valued,
        numbered.mapM (Entity.Function.check s e.name) = .ok valued := by
      refine exists_mapM_eq_ok.mpr fun g hg => ?_
      obtain ⟨f, hf, hfg⟩ := exists_left_of_forall₂ hfunctions hg
      exact h.exists_checkFunction hvalued e.name hfg
        (fun r hr => hagrees r (List.mem_flatMap.mpr ⟨g, hg, hr⟩))
        (fun r hr => hbound.constants r (List.mem_flatMap.mpr ⟨g, hg, hr⟩))
        (hsound f hf)
    obtain ⟨valued, hvalues⟩ := hvalues
    exact ⟨_, (serviceStep_eq_ok he hbody).mpr
      ⟨(FunctionDecl.checkFunctionNames_eq_ok hfunctions).mpr hnames,
        valued, methods, hvalues, hfind, rfl⟩⟩
  | _ => cases hkind

end Models

end Scope

end Interlink
