import Interlink.Link.Check
import Interlink.Proofs.Link.Evaluate

/-!
# Checks and defaults

What the checks of an entity let through, said of the document: fields that are
told apart (`Field.AllDeclaredAs.checkDistinct_eq_ok`), unions without markers
and defaults, functions nobody waits for that have nothing to answer. The
defaults of a list of fields are evaluated with the values that are stored with
the constants, and so come to what the document says
(`Models.evaluateDefaults_sound`, `Models.exists_evaluateDefaults`).
-/

namespace Interlink

open Entity (checkDistinct checkFunctionNames checkUnion evaluateDefaults)

/-! ## Names and ids -/

namespace Entity

/-- **Names and ids that are not used twice**: they are different from each
other and from those seen before. -/
theorem checkDistinct_eq_ok {owner : String} {names : Std.HashMap String Span}
    {ids : Std.HashMap Int Span} {fields : List Field} :
    checkDistinct owner names ids fields = .ok () ↔
      (fields.map Field.name).Nodup ∧ (fields.map fun f => f.id.toInt).Nodup
        ∧ ∀ f ∈ fields, f.name ∉ names ∧ f.id.toInt ∉ ids := by
  induction fields generalizing names ids with
  | nil => simp [checkDistinct]
  | cons f fields ih =>
    unfold checkDistinct
    simp only [List.map_cons, List.nodup_cons, List.forall_mem_cons]
    by_cases hname : f.name ∈ names
    · rw [Std.HashMap.getElem?_eq_some_getElem hname]
      simp [hname]
    · rw [Std.HashMap.getElem?_eq_none hname]
      by_cases hid : f.id.toInt ∈ ids
      · rw [Std.HashMap.getElem?_eq_some_getElem hid]
        simp [hid]
      · rw [Std.HashMap.getElem?_eq_none hid]
        simp only [ih, Std.HashMap.mem_insert, beq_iff_eq, not_or, List.mem_map,
          not_exists, not_and]
        constructor
        · rintro ⟨hnames, hids, hfresh⟩
          exact ⟨⟨fun g hg h => (hfresh g hg).1.1 h.symm, hnames⟩,
            ⟨fun g hg h => (hfresh g hg).2.1 h.symm, hids⟩, ⟨hname, hid⟩,
            fun g hg => ⟨(hfresh g hg).1.2, (hfresh g hg).2.2⟩⟩
        · rintro ⟨⟨hnewName, hnames⟩, ⟨hnewId, hids⟩, -, hfresh⟩
          exact ⟨hnames, hids, fun g hg =>
            ⟨⟨fun h => hnewName g hg h.symm, (hfresh g hg).1⟩,
              fun h => hnewId g hg h.symm, (hfresh g hg).2⟩⟩

/-- **Names of functions that are not used twice.** -/
theorem checkFunctionNames_eq_ok {service : String}
    {names : Std.HashMap String Span} {functions : List Function} :
    checkFunctionNames service names functions = .ok () ↔
      (functions.map Function.name).Nodup
        ∧ ∀ f ∈ functions, f.name ∉ names := by
  induction functions generalizing names with
  | nil => simp [checkFunctionNames]
  | cons f functions ih =>
    unfold checkFunctionNames
    simp only [List.map_cons, List.nodup_cons, List.forall_mem_cons]
    by_cases hname : f.name ∈ names
    · rw [Std.HashMap.getElem?_eq_some_getElem hname]
      simp [hname]
    · rw [Std.HashMap.getElem?_eq_none hname]
      simp only [ih, Std.HashMap.mem_insert, beq_iff_eq, not_or, List.mem_map,
        not_exists, not_and]
      constructor
      · rintro ⟨hnames, hfresh⟩
        exact ⟨⟨fun g hg h => (hfresh g hg).1 h.symm, hnames⟩, hname,
          fun g hg => (hfresh g hg).2⟩
      · rintro ⟨⟨hnew, hnames⟩, -, hfresh⟩
        exact ⟨hnames, fun g hg => ⟨fun h => hnew g hg h.symm, hfresh g hg⟩⟩

/-- The fields of a union carry no marker that asks for them, and no
default. -/
theorem checkUnion_eq_ok {owner : String} {fields : List Field} :
    checkUnion owner fields = .ok () ↔
      ∀ f ∈ fields, f.requiredness ≠ .required ∧ f.default = none := by
  induction fields with
  | nil => simp [checkUnion]
  | cons f fields ih =>
    unfold checkUnion
    simp only [List.forall_mem_cons, ← ih]
    by_cases hrequired : f.requiredness = .required
    · simp [Field.isRequired, hrequired]
    · cases hdefault : f.default <;>
        simp [Field.isRequired, hrequired]

/-- A function that nobody waits for has nothing to answer. -/
theorem Function.checkOneway_eq_ok {owner : String} {f : Function} :
    f.checkOneway owner = .ok () ↔
      (f.oneway = true → f.returns = none ∧ f.exceptions = []) := by
  unfold Function.checkOneway
  cases f.oneway with
  | false => simp
  | true =>
    cases f.returns with
    | some ty => simp
    | none => cases f.exceptions <;> simp

end Entity

/-- **The fields of an entity are told apart** when those of its definition
are. -/
theorem Field.AllDeclaredAs.checkDistinct_eq_ok {owner : String}
    {fields : List Field} {numbered : List Entity.Field}
    (h : Field.AllDeclaredAs fields numbered) :
    checkDistinct owner ∅ ∅ numbered = .ok () ↔ Field.Distinct fields := by
  rw [Entity.checkDistinct_eq_ok, h.map_name, h.ids]
  constructor
  · rintro ⟨hnodup, hids, -⟩
    exact ⟨hnodup, hids⟩
  · rintro ⟨hnodup, hids⟩
    exact ⟨hnodup, hids, fun f _ => ⟨by simp, by simp⟩⟩

/-- The fields of a union are checked as those of its definition. -/
theorem Field.AllDeclaredAs.checkUnion_eq_ok {owner : String}
    {fields : List Field} {numbered : List Entity.Field}
    (h : Field.AllDeclaredAs fields numbered) :
    checkUnion owner numbered = .ok () ↔
      ∀ f ∈ fields, f.requiredness ≠ .required ∧ f.default = none := by
  have hsame : ∀ f g, Field.DeclaredAs f g →
      ((g.requiredness ≠ .required ∧ g.default = none) ↔
        (f.requiredness ≠ .required ∧ f.default = none)) := by
    intro f g hfg
    rw [hfg.requiredness, ← Option.map_eq_none_iff, hfg.default,
      Option.map_eq_none_iff]
  rw [Entity.checkUnion_eq_ok]
  constructor
  · intro hunion f hf
    obtain ⟨g, hg, hfg⟩ := exists_right_of_forall₂ h.each hf
    exact (hsame f g hfg).mp (hunion g hg)
  · intro hunion g hg
    obtain ⟨f, hf, hfg⟩ := exists_left_of_forall₂ h.each hg
    exact (hsame f g hfg).mpr (hunion f hf)

/-! ## Fields with new values -/

namespace Entity

/-- A field that differs from another at most in the value of its default. -/
def Field.SameDeclaration (f g : Field) : Prop :=
  ∃ o, g = { f with defaultValue := o }

/-- Fields with new values have the erasures and the references that they
had. -/
theorem Field.SameDeclaration.lists {fields valued : List Field}
    (h : List.Forall₂ Field.SameDeclaration fields valued) :
    valued.map Field.erase = fields.map Field.erase
      ∧ (valued.flatMap fun f => f.type.references)
        = fields.flatMap (fun f => f.type.references)
      ∧ valued.flatMap Field.defaultReferences
        = fields.flatMap Field.defaultReferences := by
  refine ⟨(map_eq_map_iff_forall₂.mpr (h.imp ?_)).symm,
    flatMap_eq_of_forall₂ h ?_, flatMap_eq_of_forall₂ h ?_⟩ <;>
  · rintro f g ⟨o, rfl⟩
    rfl

/-- A function that differs from another at most in the values of the defaults
of its parameters. -/
def Function.SameDeclaration (f g : Function) : Prop :=
  ∃ parameters, g = { f with parameters := parameters }
    ∧ List.Forall₂ Field.SameDeclaration f.parameters parameters

/-- A function with new values has the erasure and the references that it
had. -/
theorem Function.SameDeclaration.same {f g : Function}
    (h : f.SameDeclaration g) :
    g.erase = f.erase ∧ g.typeReferences = f.typeReferences
      ∧ g.constReferences = f.constReferences := by
  obtain ⟨parameters, rfl, hsame⟩ := h
  obtain ⟨herase, htypes, hconsts⟩ := Field.SameDeclaration.lists hsame
  simp only [Function.erase, Function.typeReferences, Function.constReferences,
    herase, htypes, hconsts, and_self]

end Entity

/-! ## Defaults -/

namespace Scope

variable {s : Scope} {d : Document} {owner service : String}

/-- **All constants have their values stored.** -/
def ConstantsValued (s : Scope) (d : Document) : Prop :=
  ∀ id e, s.entity? id = some e → e.kind = .constant →
    ∃ ty init v, e.body = .const ty init (some v) ∧ d.ConstantValue e.name v

/-- Stored values supply every bound reference. -/
theorem ConstantsValued.supplies (hvalued : s.ConstantsValued d)
    (h : s.Models d) {r : Reference ConstTarget} (hbound : s.BoundConst r) :
    s.Supplies d storedValue r := by
  intro id e htarget he v
  obtain ⟨target, htarget', hmeans⟩ := hbound
  rw [htarget] at htarget'
  cases htarget'
  obtain ⟨e', he', -, hkind⟩ := hmeans
  rw [he] at he'
  cases he'
  obtain ⟨ty, init, w, hbody, hw⟩ := hvalued id e he hkind
  unfold storedValue
  rw [hbody]
  constructor
  · rintro ⟨⟩
    exact hw
  · intro hv
    rw [h.constantValue_unique hv hw]

end Scope

/-- **The default of a field has its value stored**: there is a value exactly
if there is a default, and it is what the document says. -/
def Field.ValuedAs (d : Document) (f : Field) (g : Entity.Field) : Prop :=
  Option.Rel (d.HasValue f.type) f.default g.defaultValue

namespace Scope.Models

variable {s : Scope} {d : Document} {owner : String}

theorem evaluateDefault_some {g : Entity.Field} {init : Init}
    (hg : g.default = some init) :
    g.evaluateDefault s owner
      = (fun v => { g with defaultValue := some v })
        <$> init.evaluate s ⟨qualified owner g.name, g.span⟩ storedValue
          g.type := by
  rw [Entity.Field.evaluateDefault, hg]
  dsimp only
  cases init.evaluate s ⟨qualified owner g.name, g.span⟩ storedValue g.type with
  | error fault => rfl
  | ok v =>
    simp only [← hg]
    rfl

/-- **Evaluating a default** gives what the document says, and changes nothing
else. -/
theorem evaluateDefault_eq_ok (h : s.Models d) (hvalued : s.ConstantsValued d)
    (owner : String) {f : Field} {g g' : Entity.Field} (hdeclared : f.DeclaredAs g)
    (hagrees : ∀ r ∈ g.type.references, s.Agrees r)
    (hbound : ∀ r ∈ g.defaultReferences, s.BoundConst r) :
    g.evaluateDefault s owner = .ok g' ↔
      ∃ o, g' = { g with defaultValue := o }
        ∧ Option.Rel (d.HasValue f.type) f.default o := by
  have hdefault := hdeclared.default
  have hty := renders_of_erase hdeclared.type hagrees
  unfold Entity.Field.defaultReferences at hbound
  cases hg : g.default with
  | none =>
    rw [hg] at hdefault
    have hnone : f.default = none := Option.map_eq_none_iff.mp hdefault.symm
    simp only [Entity.Field.evaluateDefault, hg, Except.ok.injEq, hnone]
    constructor
    · rintro rfl
      exact ⟨none, rfl, .none⟩
    · rintro ⟨o, rfl, hrel⟩
      cases hrel
      rfl
  | some init =>
    rw [hg] at hdefault hbound
    obtain ⟨c, hc, hinit⟩ := Option.map_eq_some_iff.mp hdefault.symm
    rw [evaluateDefault_some hg, map_eq_ok, hc, ← hg]
    simp only [Init.evaluate_eq_ok h _ hinit.symm hty hbound
      fun r hr => hvalued.supplies h (hbound r hr)]
    constructor
    · rintro ⟨v, hv, rfl⟩
      exact ⟨some v, rfl, .some hv⟩
    · rintro ⟨_, rfl, ⟨hv⟩⟩
      exact ⟨_, hv, rfl⟩

/-- **Evaluating the defaults of a list of fields** gives what the document
says, and changes nothing else. -/
theorem evaluateDefaults_sound (h : s.Models d) (hvalued : s.ConstantsValued d)
    {fields : List Field} {numbered valued : List Entity.Field}
    (hdeclared : Field.AllDeclaredAs fields numbered)
    (hagrees : ∀ r ∈ numbered.flatMap fun g => g.type.references, s.Agrees r)
    (hbound : ∀ r ∈ numbered.flatMap Entity.Field.defaultReferences,
      s.BoundConst r)
    (hok : evaluateDefaults s owner numbered = .ok valued) :
    List.Forall₂ Entity.Field.SameDeclaration numbered valued
      ∧ List.Forall₂ (Field.ValuedAs d) fields valued := by
  have heach := hdeclared.each
  have hvalues := mapM_eq_ok.mp hok
  clear hok hdeclared
  induction heach generalizing valued with
  | nil =>
    cases hvalues
    exact ⟨.nil, .nil⟩
  | cons hfg _ ih =>
    cases hvalues with | cons hg hrest =>
    obtain ⟨hagree, hagrees⟩ := List.forall_mem_append.mp hagrees
    obtain ⟨hbound, hbounds⟩ := List.forall_mem_append.mp hbound
    obtain ⟨o, rfl, hrel⟩ :=
      (h.evaluateDefault_eq_ok hvalued owner hfg hagree hbound).mp hg
    obtain ⟨hsame, hvalued⟩ := ih hagrees hbounds hrest
    exact ⟨.cons ⟨o, rfl⟩ hsame, .cons hrel hvalued⟩

/-- **The defaults of a list of fields can be evaluated** when the document
says what they are. -/
theorem exists_evaluateDefaults (h : s.Models d)
    (hvalued : s.ConstantsValued d) (owner : String) {fields : List Field}
    {numbered : List Entity.Field}
    (hdeclared : Field.AllDeclaredAs fields numbered)
    (hagrees : ∀ r ∈ numbered.flatMap fun g => g.type.references, s.Agrees r)
    (hbound : ∀ r ∈ numbered.flatMap Entity.Field.defaultReferences,
      s.BoundConst r)
    (hvalues : ∀ f ∈ fields, ∀ c, f.default = some c →
      ∃ v, d.HasValue f.type c v) :
    ∃ valued, evaluateDefaults s owner numbered = .ok valued := by
  refine exists_mapM_eq_ok.mpr fun g hg => ?_
  obtain ⟨f, hf, hfg⟩ := exists_left_of_forall₂ hdeclared.each hg
  have hstep : ∀ g', g.evaluateDefault s owner = .ok g' ↔ _ := fun g' =>
    h.evaluateDefault_eq_ok hvalued owner hfg
      (fun r hr => hagrees r (List.mem_flatMap.mpr ⟨g, hg, hr⟩))
      (fun r hr => hbound r (List.mem_flatMap.mpr ⟨g, hg, hr⟩))
  cases hc : f.default with
  | none => exact ⟨_, (hstep _).mpr ⟨none, rfl, hc ▸ .none⟩⟩
  | some c =>
    obtain ⟨v, hv⟩ := hvalues f hf c hc
    exact ⟨_, (hstep _).mpr ⟨some v, rfl, hc ▸ .some hv⟩⟩

end Scope.Models

/-- Stored values are values that the document says. -/
theorem Field.exists_hasValue {d : Document} {fields : List Field}
    {valued : List Entity.Field}
    (h : List.Forall₂ (Field.ValuedAs d) fields valued) :
    ∀ f ∈ fields, ∀ c, f.default = some c → ∃ v, d.HasValue f.type c v := by
  intro f hf c hc
  obtain ⟨g, -, hfg⟩ := exists_right_of_forall₂ h hf
  unfold Field.ValuedAs at hfg
  rw [hc] at hfg
  generalize g.defaultValue = o at hfg
  cases hfg with | some hv => exact ⟨_, hv⟩

/-! ## Functions -/

/-- **A function is sound**: its fields are told apart, it has nothing to answer
if nobody waits, and the defaults of its parameters have values. -/
structure FunctionDecl.Sound (d : Document) (f : FunctionDecl) : Prop where
  /-- Parameters are told apart. -/
  parameters : Field.Distinct f.parameters
  /-- Declared exceptions are told apart. -/
  exceptions : Field.Distinct f.exceptions
  /-- Where nobody waits there is nothing to answer. -/
  oneway : f.oneway = true → f.returns = none ∧ f.exceptions = []
  /-- The defaults of parameters have values. -/
  defaults : ∀ p ∈ f.parameters, ∀ c, p.default = some c →
    ∃ v, d.HasValue p.type c v

/-- The check of what a function answers says the same of its declaration. -/
theorem FunctionDecl.DeclaredAs.checkOneway_eq_ok {owner : String}
    {f : FunctionDecl} {g : Entity.Function} (h : f.DeclaredAs g) :
    g.checkOneway owner = .ok () ↔
      (f.oneway = true → f.returns = none ∧ f.exceptions = []) := by
  have hreturns : g.returns = none ↔ f.returns = none := by
    rw [← Option.map_eq_none_iff, h.returns, Option.map_eq_none_iff]
  have hexceptions : g.exceptions = [] ↔ f.exceptions = [] := by
    rw [← List.length_eq_zero_iff, ← h.exceptions.each.length_eq,
      List.length_eq_zero_iff]
  rw [Entity.Function.checkOneway_eq_ok, h.oneway, hreturns, hexceptions]

/-- The functions of a service are told apart as those of its definition. -/
theorem FunctionDecl.checkFunctionNames_eq_ok {service : String}
    {functions : List FunctionDecl} {numbered : List Entity.Function}
    (h : List.Forall₂ FunctionDecl.DeclaredAs functions numbered) :
    checkFunctionNames service ∅ numbered = .ok () ↔
      (functions.map FunctionDecl.name).Nodup := by
  have hnames : numbered.map Entity.Function.name
      = functions.map FunctionDecl.name :=
    (map_eq_map_iff_forall₂.mpr (h.imp fun f g hg => hg.name.symm)).symm
  rw [Entity.checkFunctionNames_eq_ok, hnames]
  exact and_iff_left fun f _ => by simp

namespace Scope.Models

variable {s : Scope} {d : Document} {service : String}

/-- **A function that was checked** is sound, and has the values of the
defaults of its parameters; nothing else in it is changed. -/
theorem checkFunction_sound (h : s.Models d) (hvalued : s.ConstantsValued d)
    {f : FunctionDecl} {g g' : Entity.Function} (hdeclared : f.DeclaredAs g)
    (hagrees : ∀ r ∈ g.typeReferences, s.Agrees r)
    (hbound : ∀ r ∈ g.constReferences, s.BoundConst r)
    (hok : g.check s service = .ok g') :
    f.Sound d ∧ g.SameDeclaration g'
      ∧ List.Forall₂ (Field.ValuedAs d) f.parameters g'.parameters := by
  simp only [Entity.Function.check, bind_eq_ok, pure_eq_ok] at hok
  obtain ⟨⟨⟩, hpar, ⟨⟩, hexc, ⟨⟩, honeway, parameters, hvalues, rfl⟩ := hok
  obtain ⟨hsame, hvalues⟩ := h.evaluateDefaults_sound hvalued
    hdeclared.parameters
    (fun r hr => hagrees r (List.mem_append_left _ (List.mem_append_left _ hr)))
    (fun r hr => hbound r (List.mem_append_left _ hr)) hvalues
  exact ⟨⟨hdeclared.parameters.checkDistinct_eq_ok.mp hpar,
    hdeclared.exceptions.checkDistinct_eq_ok.mp hexc,
    hdeclared.checkOneway_eq_ok.mp honeway, Field.exists_hasValue hvalues⟩,
    ⟨parameters, rfl, hsame⟩, hvalues⟩

/-- **A sound function passes the check.** -/
theorem exists_checkFunction (h : s.Models d) (hvalued : s.ConstantsValued d)
    (service : String) {f : FunctionDecl} {g : Entity.Function}
    (hdeclared : f.DeclaredAs g)
    (hagrees : ∀ r ∈ g.typeReferences, s.Agrees r)
    (hbound : ∀ r ∈ g.constReferences, s.BoundConst r) (hsound : f.Sound d) :
    ∃ g', g.check s service = .ok g' := by
  obtain ⟨parameters, hvalues⟩ := h.exists_evaluateDefaults hvalued
    (qualified service g.name) hdeclared.parameters
    (fun r hr => hagrees r (List.mem_append_left _ (List.mem_append_left _ hr)))
    (fun r hr => hbound r (List.mem_append_left _ hr)) hsound.defaults
  simp only [Entity.Function.check, bind_eq_ok, pure_eq_ok]
  exact ⟨_, ⟨⟩, hdeclared.parameters.checkDistinct_eq_ok.mpr hsound.parameters,
    ⟨⟩, hdeclared.exceptions.checkDistinct_eq_ok.mpr hsound.exceptions,
    ⟨⟩, hdeclared.checkOneway_eq_ok.mpr hsound.oneway, parameters, hvalues, rfl⟩

/-- **The functions of a service that were checked** are sound, and have the
values of the defaults of their parameters; nothing else is changed. -/
theorem checkFunctions_sound (h : s.Models d) (hvalued : s.ConstantsValued d)
    {functions : List FunctionDecl} {numbered valued : List Entity.Function}
    (hdeclared : List.Forall₂ FunctionDecl.DeclaredAs functions numbered)
    (hagrees : ∀ r ∈ numbered.flatMap Entity.Function.typeReferences, s.Agrees r)
    (hbound : ∀ r ∈ numbered.flatMap Entity.Function.constReferences,
      s.BoundConst r)
    (hok : numbered.mapM (Entity.Function.check s service) = .ok valued) :
    (∀ f ∈ functions, f.Sound d)
      ∧ List.Forall₂ Entity.Function.SameDeclaration numbered valued
      ∧ List.Forall₂ (fun f g =>
        List.Forall₂ (Field.ValuedAs d) f.parameters g.parameters)
        functions valued := by
  have hvalues := mapM_eq_ok.mp hok
  clear hok
  induction hdeclared generalizing valued with
  | nil =>
    cases hvalues
    exact ⟨fun f hf => absurd hf List.not_mem_nil, .nil, .nil⟩
  | cons hfg _ ih =>
    cases hvalues with | cons hg hrest =>
    obtain ⟨hagree, hagrees⟩ := List.forall_mem_append.mp hagrees
    obtain ⟨hbound, hbounds⟩ := List.forall_mem_append.mp hbound
    obtain ⟨hsound, hsame, hstored⟩ :=
      h.checkFunction_sound hvalued hfg hagree hbound hg
    obtain ⟨hsounds, hsames, hstoreds⟩ := ih hagrees hbounds hrest
    exact ⟨List.forall_mem_cons.mpr ⟨hsound, hsounds⟩, .cons hsame hsames,
      .cons hstored hstoreds⟩

end Scope.Models

end Interlink
