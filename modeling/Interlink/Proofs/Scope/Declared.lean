import Interlink.Proofs.Scope.Arena
import Interlink.Proofs.Scope.Numbering

/-!
# Entities and their definitions

An entity is declared by a definition, and remains recognisable as what was
declared however far it is linked: `Definition.Body.DeclaredAs` compares a
definition with the body of an entity, up to what linking adds
(`declaredAs_of_erase_eq`).

Which definitions have a body at all is said by `exists_toBody`, and what the
body is by `toBody_eq_ok`. The references of an entity are what its definition
mentions (`map_mention_types`, `map_mention_constants`).
-/

namespace Interlink

/-! ## Erasing twice -/

@[simp] theorem Ty.erase_erase (ty : Ty) : ty.erase.erase = ty.erase := by
  induction ty with
  | primitive p => rfl
  | list element ih => exact congrArg Ty.list ih
  | set element ih => exact congrArg Ty.set ih
  | map key value ihk ihv => exact congrArg₂ Ty.map ihk ihv
  | named r => rfl

namespace Init

mutual

@[simp] theorem erase_erase (init : Init) : init.erase.erase = init.erase := by
  cases init with
  | list items => exact congrArg Init.list (eraseItems_eraseItems items)
  | map entries => exact congrArg Init.map (eraseEntries_eraseEntries entries)
  | _ => rfl

theorem eraseItems_eraseItems (items : List Init) :
    eraseItems (eraseItems items) = eraseItems items := by
  cases items with
  | nil => rfl
  | cons item items =>
    exact congrArg₂ List.cons (erase_erase item) (eraseItems_eraseItems items)

theorem eraseEntries_eraseEntries (entries : List (Init × Init)) :
    eraseEntries (eraseEntries entries) = eraseEntries entries := by
  match entries with
  | [] => rfl
  | (key, value) :: entries =>
    exact congrArg₂ List.cons
      (congrArg₂ Prod.mk (erase_erase key) (erase_erase value))
      (eraseEntries_eraseEntries entries)

end

end Init

/-! ## What a definition declares -/

/-- **A field of an entity is one of a document.** Ids are compared for whole
lists, see `Field.AllDeclaredAs`. -/
structure Field.DeclaredAs (f : Field) (g : Entity.Field) : Prop where
  /-- The name. -/
  name : g.name = f.name
  /-- The type. -/
  type : g.type.erase = f.type.toTy
  /-- The marker. -/
  requiredness : g.requiredness = f.requiredness
  /-- The default. -/
  default : g.default.map Init.erase = f.default.map ConstExpr.toInit
  /-- The place. -/
  span : g.span = f.span

/-- The fields of an entity are those of a document, with their ids. -/
structure Field.AllDeclaredAs (fields : List Field)
    (numbered : List Entity.Field) : Prop where
  /-- The fields. -/
  each : List.Forall₂ Field.DeclaredAs fields numbered
  /-- The ids. -/
  ids : numbered.map (fun g => g.id.toInt) = Field.ids 0 fields

/-- A function of an entity is one of a document. -/
structure FunctionDecl.DeclaredAs (f : FunctionDecl) (g : Entity.Function) :
    Prop where
  /-- The name. -/
  name : g.name = f.name
  /-- The parameters. -/
  parameters : Field.AllDeclaredAs f.parameters g.parameters
  /-- The type of the result. -/
  returns : g.returns.map Ty.erase = f.returns.map TypeExpr.toTy
  /-- The declared exceptions. -/
  exceptions : Field.AllDeclaredAs f.exceptions g.exceptions
  /-- Whether nobody waits for it. -/
  oneway : g.oneway = f.oneway
  /-- The place. -/
  span : g.span = f.span

/-- **The body of an entity is what a definition declares**, whatever linking
has added to it. -/
inductive Definition.Body.DeclaredAs : Definition.Body → Entity.Body → Prop
  | const {type : TypeExpr} {value : ConstExpr} {ty : Ty} {init : Init}
      {stored : Option Value} (sameType : ty.erase = type.toTy)
      (sameValue : init.erase = value.toInit) :
      DeclaredAs (.const type value) (.const ty init stored)
  | typedef {target : TypeExpr} {ty : Ty} (sameTarget : ty.erase = target.toTy) :
      DeclaredAs (.typedef target) (.typedef ty)
  | enum {items : List EnumItem} {numbered : List Entity.Item}
      (sound : EnumItem.Sound items)
      (numbers : EnumItem.NumberedAs items 0 numbered) :
      DeclaredAs (.enum items) (.enum numbered)
  | struct {kind : StructKind} {fields : List Field}
      {numbered : List Entity.Field}
      (sameFields : Field.AllDeclaredAs fields numbered) :
      DeclaredAs (.struct kind fields) (.struct kind numbered)
  | service {functions : List FunctionDecl} {parent : Option Mention}
      {numbered : List Entity.Function} {bound : Option (Reference EntityId)}
      {methods : List Entity.Method}
      (sameFunctions : List.Forall₂ FunctionDecl.DeclaredAs functions numbered)
      (sameParent : bound.map Reference.erase = parent.map Mention.toReference) :
      DeclaredAs (.service functions parent) (.service numbered bound methods)

/-! ## Linking does not matter -/

theorem Field.declaredAs_erase {f : Field} {g : Entity.Field} :
    f.DeclaredAs g.erase ↔ f.DeclaredAs g := by
  have hdefault : (g.default.map Init.erase).map Init.erase
      = g.default.map Init.erase := by
    cases g.default with
    | none => rfl
    | some init => exact congrArg some init.erase_erase
  constructor
  · rintro ⟨hname, htype, hreq, hdef, hspan⟩
    exact ⟨hname, g.type.erase_erase ▸ htype, hreq, hdefault ▸ hdef, hspan⟩
  · rintro ⟨hname, htype, hreq, hdef, hspan⟩
    exact ⟨hname, g.type.erase_erase.trans htype, hreq, hdefault.trans hdef,
      hspan⟩

theorem Field.allDeclaredAs_erase {fields : List Field}
    {numbered : List Entity.Field} :
    Field.AllDeclaredAs fields (numbered.map Entity.Field.erase) ↔
      Field.AllDeclaredAs fields numbered := by
  have heach : List.Forall₂ Field.DeclaredAs fields
      (numbered.map Entity.Field.erase) ↔
        List.Forall₂ Field.DeclaredAs fields numbered := by
    rw [List.forall₂_map_right_iff]
    simp only [Field.declaredAs_erase]
  have hids : (numbered.map Entity.Field.erase).map (fun g => g.id.toInt)
      = numbered.map fun g => g.id.toInt := by
    rw [List.map_map]
    rfl
  constructor
  · rintro ⟨h₁, h₂⟩
    exact ⟨heach.mp h₁, hids ▸ h₂⟩
  · rintro ⟨h₁, h₂⟩
    exact ⟨heach.mpr h₁, hids.trans h₂⟩

theorem FunctionDecl.declaredAs_erase {f : FunctionDecl} {g : Entity.Function} :
    f.DeclaredAs g.erase ↔ f.DeclaredAs g := by
  have hreturns : (g.returns.map Ty.erase).map Ty.erase
      = g.returns.map Ty.erase := by
    cases g.returns with
    | none => rfl
    | some ty => exact congrArg some ty.erase_erase
  constructor
  · rintro ⟨hname, hpar, hret, hexc, honeway, hspan⟩
    exact ⟨hname, Field.allDeclaredAs_erase.mp hpar, hreturns ▸ hret,
      Field.allDeclaredAs_erase.mp hexc, honeway, hspan⟩
  · rintro ⟨hname, hpar, hret, hexc, honeway, hspan⟩
    exact ⟨hname, Field.allDeclaredAs_erase.mpr hpar, hreturns.trans hret,
      Field.allDeclaredAs_erase.mpr hexc, honeway, hspan⟩

/-- **What a body declares is a matter of its erasure.** -/
theorem Definition.Body.declaredAs_erase {x : Definition.Body}
    {b : Entity.Body} : x.DeclaredAs b.erase ↔ x.DeclaredAs b := by
  have hparent : ∀ parent : Option (Reference EntityId),
      (parent.map Reference.erase).map Reference.erase
        = parent.map Reference.erase := fun parent => by
    cases parent <;> rfl
  have hfunctions : ∀ {fs : List FunctionDecl} {gs : List Entity.Function},
      List.Forall₂ FunctionDecl.DeclaredAs fs (gs.map Entity.Function.erase) ↔
        List.Forall₂ FunctionDecl.DeclaredAs fs gs := by
    intro fs gs
    rw [List.forall₂_map_right_iff]
    simp only [FunctionDecl.declaredAs_erase]
  constructor
  · intro h
    cases b with
    | const ty init stored =>
      cases h with | const htype hinit =>
      exact .const (ty.erase_erase ▸ htype) (init.erase_erase ▸ hinit)
    | typedef ty =>
      cases h with | typedef htarget =>
      exact .typedef (ty.erase_erase ▸ htarget)
    | enum items => exact h
    | struct kind fields =>
      cases h with | struct hfields =>
      exact .struct (Field.allDeclaredAs_erase.mp hfields)
    | service functions parent methods =>
      cases h with | service hfs hp =>
      exact .service (hfunctions.mp hfs) (hparent parent ▸ hp)
  · intro h
    cases h with
    | const htype hinit =>
      exact .const ((Ty.erase_erase _).trans htype)
        ((Init.erase_erase _).trans hinit)
    | typedef htarget => exact .typedef ((Ty.erase_erase _).trans htarget)
    | enum hsound hnumbers => exact .enum hsound hnumbers
    | struct hfields => exact .struct (Field.allDeclaredAs_erase.mpr hfields)
    | service hfs hp =>
      exact .service (hfunctions.mpr hfs) ((hparent _).trans hp)

theorem Definition.Body.declaredAs_of_erase_eq {x : Definition.Body}
    {b b' : Entity.Body} (heq : b'.erase = b.erase) (h : x.DeclaredAs b) :
    x.DeclaredAs b' :=
  declaredAs_erase.mp (heq ▸ declaredAs_erase.mpr h)

/-! ## A definition declares one thing -/

/-- The items of an enum are numbered in one way. -/
theorem EnumItem.NumberedAs.unique {items : List EnumItem} {next : Int}
    {numbered numbered' : List Entity.Item} (h : NumberedAs items next numbered)
    (h' : NumberedAs items next numbered') : numbered' = numbered := by
  refine eq_of_map_eq_map (h'.numbers.trans h.numbers.symm)
    (h'.spans.trans h.spans.symm) fun i j hnumber hspan => ?_
  obtain ⟨name, value, span⟩ := i
  obtain ⟨name', value', span'⟩ := j
  obtain ⟨rfl, hvalue⟩ := Prod.mk.inj hnumber
  cases hspan
  cases Int32.toInt_inj.mp hvalue
  rfl

theorem Field.AllDeclaredAs.map_erase_eq {fields : List Field}
    {numbered numbered' : List Entity.Field} (h : AllDeclaredAs fields numbered)
    (h' : AllDeclaredAs fields numbered') :
    numbered'.map Entity.Field.erase = numbered.map Entity.Field.erase := by
  have hids := h'.ids.trans h.ids.symm
  have heach := h.each
  have heach' := h'.each
  clear h h'
  induction heach generalizing numbered' with
  | nil =>
    cases heach'
    rfl
  | @cons f g _ _ hg _ ih =>
    cases heach' with | @cons _ g' _ _ hg' heach' =>
    simp only [List.map_cons, List.cons.injEq] at hids ⊢
    refine ⟨?_, ih hids.2 heach'⟩
    unfold Entity.Field.erase
    rw [Int16.toInt_inj.mp hids.1, hg'.name, hg.name, hg'.type, hg.type,
      hg'.requiredness, hg.requiredness, hg'.default, hg.default, hg'.span, hg.span]

theorem FunctionDecl.DeclaredAs.erase_eq {f : FunctionDecl} {g g' : Entity.Function}
    (h : f.DeclaredAs g) (h' : f.DeclaredAs g') : g'.erase = g.erase := by
  unfold Entity.Function.erase
  rw [h'.name, h.name, h.parameters.map_erase_eq h'.parameters, h'.returns,
    h.returns, h.exceptions.map_erase_eq h'.exceptions, h'.oneway, h.oneway,
    h'.span, h.span]

/-- **A definition declares one thing**, up to what linking adds. -/
theorem Definition.Body.DeclaredAs.erase_eq {x : Definition.Body}
    {b b' : Entity.Body} (h : x.DeclaredAs b) (h' : x.DeclaredAs b') :
    b'.erase = b.erase := by
  cases h with
  | const htype hvalue =>
    cases h' with | const htype' hvalue' =>
    simp only [Entity.Body.erase, htype, hvalue, htype', hvalue']
  | typedef htarget =>
    cases h' with | typedef htarget' =>
    simp only [Entity.Body.erase, htarget, htarget']
  | enum _ hnumbers =>
    cases h' with | enum _ hnumbers' =>
    rw [hnumbers.unique hnumbers']
  | struct hfields =>
    cases h' with | struct hfields' =>
    exact congrArg (Entity.Body.struct _) (hfields.map_erase_eq hfields')
  | service hfunctions hparent =>
    cases h' with | service hfunctions' hparent' =>
    simp only [Entity.Body.erase, hparent, hparent', Entity.Body.service.injEq,
      and_true]
    exact map_eq_map_of_forall₂ hfunctions' hfunctions fun f g' g hg' hg =>
      hg.erase_eq hg'

/-! ## The mentions in an entity -/

/-- A reference as it was mentioned. -/
def Reference.mention {τ : Type} (r : Reference τ) : Mention := ⟨r.name, r.span⟩

/-- The references with an erasure are the mentions that were made into it. -/
theorem Reference.map_mention_of_erase {τ : Type} {refs : List (Reference τ)}
    {mentions : List Mention}
    (h : refs.map Reference.erase = mentions.map Mention.toReference) :
    refs.map Reference.mention = mentions := by
  calc refs.map Reference.mention
      = (refs.map Reference.erase).map Reference.mention := by
        rw [List.map_map]; rfl
    _ = (mentions.map Mention.toReference).map (Reference.mention (τ := τ)) := by
        rw [h]
    _ = mentions := by rw [List.map_map]; exact List.map_id mentions

theorem TypeExpr.references_toTy (t : TypeExpr) :
    t.toTy.references = t.mentions.map Mention.toReference := by
  induction t with
  | primitive p => rfl
  | list element ih => exact ih
  | set element ih => exact ih
  | map key value ihk ihv =>
    simp only [toTy, Ty.references, mentions, ihk, ihv, List.map_append]
  | named m => rfl

/-- The references in a type are what the document mentions. -/
theorem Ty.map_mention_references {t : TypeExpr} {ty : Ty}
    (h : ty.erase = t.toTy) : ty.references.map Reference.mention = t.mentions := by
  refine Reference.map_mention_of_erase ?_
  rw [← references_erase, h, t.references_toTy]

namespace ConstExpr

mutual

theorem references_toInit (c : ConstExpr) :
    c.toInit.references = c.mentions.map Mention.toReference := by
  cases c with
  | list items => exact itemReferences_itemsToInit items
  | map entries => exact entryReferences_entriesToInit entries
  | _ => rfl

theorem itemReferences_itemsToInit (items : List ConstExpr) :
    Init.itemReferences (itemsToInit items)
      = (itemMentions items).map Mention.toReference := by
  cases items with
  | nil => rfl
  | cons item items =>
    simp only [itemsToInit, Init.itemReferences, itemMentions, List.map_append,
      references_toInit item, itemReferences_itemsToInit items]

theorem entryReferences_entriesToInit (entries : List (ConstExpr × ConstExpr)) :
    Init.entryReferences (entriesToInit entries)
      = (entryMentions entries).map Mention.toReference := by
  match entries with
  | [] => rfl
  | (key, value) :: entries =>
    simp only [entriesToInit, Init.entryReferences, entryMentions,
      List.map_append, references_toInit key, references_toInit value,
      entryReferences_entriesToInit entries]

end

end ConstExpr

/-- The references in an expression are what the document mentions. -/
theorem Init.map_mention_references {c : ConstExpr} {init : Init}
    (h : init.erase = c.toInit) :
    init.references.map Reference.mention = c.mentions := by
  refine Reference.map_mention_of_erase ?_
  rw [← references_erase, h, c.references_toInit]

/-- The names in an expression are those that the document mentions. -/
theorem Init.map_name_references {c : ConstExpr} {init : Init}
    (h : init.erase = c.toInit) :
    init.references.map Reference.name = c.mentions.map Mention.name := by
  rw [← Init.map_mention_references h, List.map_map]
  rfl

/-- The references in the default of a field are what the document mentions. -/
theorem Field.DeclaredAs.map_mention_default {f : Field} {g : Entity.Field}
    (h : f.DeclaredAs g) :
    g.defaultReferences.map Reference.mention = f.defaultMentions :=
  map_getD_eq_of_map_eq h.default fun _ _ => Init.map_mention_references

namespace Field.AllDeclaredAs

variable {fields : List Field} {numbered : List Entity.Field}

theorem map_name (h : Field.AllDeclaredAs fields numbered) :
    numbered.map Entity.Field.name = fields.map Field.name :=
  (map_eq_map_iff_forall₂.mpr (h.each.imp fun _ _ hg => hg.name.symm)).symm

/-- The references in the types of fields are what the document mentions. -/
theorem map_mention_types (h : Field.AllDeclaredAs fields numbered) :
    (numbered.flatMap fun g => g.type.references).map Reference.mention
      = fields.flatMap fun f => f.type.mentions := by
  rw [List.map_flatMap]
  exact flatMap_eq_of_forall₂ h.each fun f g hg => Ty.map_mention_references hg.type

/-- The references in the defaults of fields are what the document
mentions. -/
theorem map_mention_defaults (h : Field.AllDeclaredAs fields numbered) :
    (numbered.flatMap Entity.Field.defaultReferences).map Reference.mention
      = fields.flatMap Field.defaultMentions := by
  rw [List.map_flatMap]
  exact flatMap_eq_of_forall₂ h.each fun f g hg => hg.map_mention_default

end Field.AllDeclaredAs

namespace Definition.Body.DeclaredAs

variable {x : Definition.Body} {b : Entity.Body}

/-- **The references of an entity to types** are the types that its definition
mentions, where it mentions them. -/
theorem map_mention_types (h : x.DeclaredAs b) :
    b.typeReferences.map Reference.mention = x.typeMentions := by
  cases h with
  | const htype _ => exact Ty.map_mention_references htype
  | typedef htarget => exact Ty.map_mention_references htarget
  | enum => rfl
  | struct hfields => exact hfields.map_mention_types
  | service hfunctions _ =>
    simp only [Entity.Body.typeReferences, typeMentions, List.map_flatMap]
    refine flatMap_eq_of_forall₂ hfunctions fun f g hg => ?_
    have hreturns : ((g.returns.map Ty.references).getD []).map Reference.mention
        = (f.returns.map TypeExpr.mentions).getD [] :=
      map_getD_eq_of_map_eq hg.returns fun ty t => Ty.map_mention_references
    simp only [Entity.Function.typeReferences, FunctionDecl.typeMentions,
      List.map_append, hg.parameters.map_mention_types, hreturns,
      hg.exceptions.map_mention_types]

/-- **The references of an entity to constants and enum items** are those that
its definition mentions, where it mentions them. -/
theorem map_mention_constants (h : x.DeclaredAs b) :
    b.constReferences.map Reference.mention = x.constMentions := by
  cases h with
  | const _ hvalue => exact Init.map_mention_references hvalue
  | typedef => rfl
  | enum => rfl
  | struct hfields => exact hfields.map_mention_defaults
  | service hfunctions _ =>
    simp only [Entity.Body.constReferences, constMentions, List.map_flatMap]
    refine flatMap_eq_of_forall₂ hfunctions fun f g hg => ?_
    simp only [Entity.Function.constReferences, FunctionDecl.constMentions,
      List.map_append, hg.parameters.map_mention_defaults,
      hg.exceptions.map_mention_defaults]

/-- The types that an entity names are those that its definition names. -/
theorem map_name_types (h : x.DeclaredAs b) :
    b.typeReferences.map Reference.name = x.typeMentions.map Mention.name := by
  rw [← h.map_mention_types, List.map_map]
  rfl

/-- The constants and enum items that an entity names are those that its
definition names. -/
theorem map_name_constants (h : x.DeclaredAs b) :
    b.constReferences.map Reference.name = x.constMentions.map Mention.name := by
  rw [← h.map_mention_constants, List.map_map]
  rfl

end Definition.Body.DeclaredAs

/-! ## Bodies of definitions -/

/-- **A definition can be declared**: its parts can be numbered. -/
def Definition.Body.Declarable : Definition.Body → Prop
  | .enum items => EnumItem.Sound items
  | .struct _ fields => Field.Numberable fields
  | .service functions _ => ∀ f ∈ functions, f.name ≠ ""
    ∧ Field.Numberable f.parameters ∧ Field.Numberable f.exceptions
  | _ => True

theorem exists_numberFields (owner : String) {fields : List Field} :
    (∃ numbered, numberFields owner 0 fields = .ok numbered) ↔
      Field.Numberable fields := by
  simp only [numberFields_eq_ok, exists_and_left,
    Field.exists_numberedAs (Nat.zero_le _), Nat.zero_add]
  exact ⟨fun h => ⟨h.1, h.2⟩, fun h => ⟨h.named, h.few⟩⟩

/-- Numbered fields are those that were declared. -/
theorem Field.NumberedAs.allDeclaredAs {fields : List Field}
    {numbered : List Entity.Field} (h : Field.NumberedAs fields 0 numbered) :
    Field.AllDeclaredAs fields numbered := by
  refine ⟨h.each.imp fun f g hg => ?_, h.ids⟩
  rw [hg]
  refine ⟨rfl, f.type.erase_toTy, rfl, ?_, rfl⟩
  unfold Field.withId
  cases f.default with
  | none => rfl
  | some c => exact congrArg some c.erase_toInit

/-- Numbered fields have no reference bound. -/
theorem Field.NumberedAs.map_erase {fields : List Field}
    {numbered : List Entity.Field} {used : Nat}
    (h : Field.NumberedAs fields used numbered) :
    numbered.map Entity.Field.erase = numbered := by
  have heach := h.each
  clear h
  induction heach with
  | nil => rfl
  | cons hg _ ih =>
    rw [List.map_cons, ih, hg, Field.erase_withId]

/-- **Numbering a function** numbers its parameters and exceptions. -/
theorem FunctionDecl.number_eq_ok {service : String} {f : FunctionDecl}
    {g : Entity.Function} (h : f.number service = .ok g) :
    f.name ≠ "" ∧ f.DeclaredAs g ∧ g.erase = g := by
  unfold FunctionDecl.number at h
  split at h
  next => cases h
  next hname =>
    simp only [bind_eq_ok, pure_eq_ok, numberFields_eq_ok] at h
    obtain ⟨parameters, ⟨-, hpar⟩, exceptions, ⟨-, hexc⟩, rfl⟩ := h
    have hreturns : (f.returns.map TypeExpr.toTy).map Ty.erase
        = f.returns.map TypeExpr.toTy := by
      cases f.returns with
      | none => rfl
      | some t => exact congrArg some t.erase_toTy
    refine ⟨by simpa using hname, ⟨rfl, hpar.allDeclaredAs, hreturns,
      hexc.allDeclaredAs, rfl, rfl⟩, ?_⟩
    unfold Entity.Function.erase
    simp only [hpar.map_erase, hexc.map_erase, hreturns]

theorem FunctionDecl.exists_number (service : String) {f : FunctionDecl} :
    (∃ g, f.number service = .ok g) ↔ f.name ≠ ""
      ∧ Field.Numberable f.parameters ∧ Field.Numberable f.exceptions := by
  unfold FunctionDecl.number
  by_cases hname : f.name = ""
  · simp [hname]
  · rw [if_neg (by simpa using hname)]
    simp only [bind_eq_ok, pure_eq_ok]
    rw [← exists_numberFields (qualified service f.name),
      ← exists_numberFields (qualified service f.name)]
    constructor
    · rintro ⟨_, parameters, hpar, exceptions, hexc, -⟩
      exact ⟨hname, ⟨parameters, hpar⟩, exceptions, hexc⟩
    · rintro ⟨-, ⟨parameters, hpar⟩, exceptions, hexc⟩
      exact ⟨_, parameters, hpar, exceptions, hexc, rfl⟩

namespace Definition

variable {x : Definition} {b : Entity.Body}

/-- **A definition has a body** exactly if its parts can be numbered. -/
theorem exists_toBody : (∃ b, x.toBody = .ok b) ↔ x.body.Declarable := by
  unfold toBody
  cases x.body with
  | const type value => exact ⟨fun _ => trivial, fun _ => ⟨_, rfl⟩⟩
  | typedef target => exact ⟨fun _ => trivial, fun _ => ⟨_, rfl⟩⟩
  | enum items =>
    simp only [map_eq_ok, numberItems_eq_ok (show -0x80000000 ≤ (0 : Int) by decide)]
    constructor
    · rintro ⟨_, numbered, ⟨hplain, hnodup, -, hnumbered⟩, -⟩
      exact ⟨hplain, hnodup,
        (EnumItem.exists_numberedAs (by decide)).mp ⟨numbered, hnumbered⟩⟩
    · rintro ⟨hplain, hnodup, hfits⟩
      obtain ⟨numbered, hnumbered⟩ :=
        (EnumItem.exists_numberedAs (by decide)).mpr hfits
      exact ⟨_, numbered, ⟨hplain, hnodup, fun _ _ => by simp, hnumbered⟩, rfl⟩
  | struct kind fields =>
    simp only [map_eq_ok, Body.Declarable]
    rw [← exists_numberFields x.name]
    constructor
    · rintro ⟨_, numbered, h, -⟩
      exact ⟨numbered, h⟩
    · rintro ⟨numbered, h⟩
      exact ⟨_, numbered, h, rfl⟩
  | service functions parent =>
    simp only [bind_eq_ok, pure_eq_ok, Body.Declarable,
      ← FunctionDecl.exists_number x.name]
    rw [← exists_mapM_eq_ok]
    constructor
    · rintro ⟨_, numbered, h, -⟩
      exact ⟨numbered, h⟩
    · rintro ⟨numbered, h⟩
      exact ⟨_, numbered, h, rfl⟩

/-- **The body of a definition is what it declares**, and nothing in it is
linked. -/
theorem toBody_eq_ok (h : x.toBody = .ok b) :
    x.body.DeclaredAs b ∧ b.erase = b := by
  have hdeclarable := exists_toBody.mp ⟨b, h⟩
  unfold toBody at h
  revert h hdeclarable
  cases x.body with
  | const type value =>
    rintro ⟨⟩ -
    exact ⟨.const type.erase_toTy value.erase_toInit,
      congrArg₂ (Entity.Body.const · · none) type.erase_toTy value.erase_toInit⟩
  | typedef target =>
    rintro ⟨⟩ -
    exact ⟨.typedef target.erase_toTy, congrArg Entity.Body.typedef target.erase_toTy⟩
  | enum items =>
    intro h hsound
    obtain ⟨numbered, hok, rfl⟩ := map_eq_ok.mp h
    exact ⟨.enum hsound ((numberItems_eq_ok (by decide)).mp hok).2.2.2, rfl⟩
  | struct kind fields =>
    rintro h -
    obtain ⟨numbered, hok, rfl⟩ := map_eq_ok.mp h
    have hnumbered := (numberFields_eq_ok.mp hok).2
    exact ⟨.struct hnumbered.allDeclaredAs,
      congrArg (Entity.Body.struct kind) hnumbered.map_erase⟩
  | service functions parent =>
    rintro h -
    simp only [bind_eq_ok, pure_eq_ok, mapM_eq_ok] at h
    obtain ⟨numbered, hok, rfl⟩ := h
    have hparent : (parent.map Mention.toReference).map Reference.erase
        = parent.map (Mention.toReference (τ := EntityId)) := by
      cases parent <;> rfl
    have herase : numbered.map Entity.Function.erase = numbered := by
      clear hparent
      induction hok with
      | nil => rfl
      | cons hg _ ih =>
        rw [List.map_cons, ih, (FunctionDecl.number_eq_ok hg).2.2]
    refine ⟨.service (hok.imp fun f g hg => (FunctionDecl.number_eq_ok hg).2.1)
      hparent, ?_⟩
    simp only [Entity.Body.erase, herase, hparent]

end Definition

end Interlink
