import Interlink.Catalog
import Interlink.Proofs.Reordered

/-!
# All values of a scope

The values that a compiled scope stores are those of constants, of the defaults of
fields, and of the defaults of parameters. Each belongs to an expression of the
document and to the type that the expression is written for. What is proved of all
of them is said once for all (`Document.Stores`): the definitions and the entities
are gone through side by side, so that no value is left out on either side.

The values are those that the document says (`Document.stores_of_compile`). Whatever
else is so of what the document says is then so of what is stored
(`Document.Stores.imp`).
-/

namespace Interlink

/-- The value of a default is stored with a field: there is one exactly if there is a
default, and something holds of the type, the default and the value. -/
def Field.Stores (holds : TypeExpr → ConstExpr → Value → Prop) (f : Field)
    (g : Entity.Field) : Prop :=
  g.name = f.name ∧ Option.Rel (holds f.type) f.default g.defaultValue

/-- The values of the defaults of parameters are stored with a function, and none
with a declared exception. -/
def FunctionDecl.Stores (holds : TypeExpr → ConstExpr → Value → Prop)
    (f : FunctionDecl) (g : Entity.Function) : Prop :=
  List.Forall₂ (Field.Stores holds) f.parameters g.parameters ∧ g.BareExceptions

/-- **The values that are stored with an entity**: that of a constant, those of the
defaults of fields, and those of the defaults of parameters. -/
inductive Definition.Body.Stores (holds : TypeExpr → ConstExpr → Value → Prop) :
    Definition.Body → Entity.Body → Prop
  | const {type : TypeExpr} {expr : ConstExpr} {ty : Ty} {init : Init} {v : Value}
      (value : holds type expr v) :
      Stores holds (.const type expr) (.const ty init (some v))
  | typedef (target : TypeExpr) (ty : Ty) : Stores holds (.typedef target) (.typedef ty)
  | enum (items : List EnumItem) (numbered : List Entity.Item) :
      Stores holds (.enum items) (.enum numbered)
  | struct {kind : StructKind} {fields : List Field} {stored : List Entity.Field}
      (each : List.Forall₂ (Field.Stores holds) fields stored) :
      Stores holds (.struct kind fields) (.struct kind stored)
  | service {functions : List FunctionDecl} {parent : Option Mention}
      {stored : List Entity.Function} {bound : Option (Reference EntityId)}
      {methods : List Entity.Method}
      (each : List.Forall₂ (FunctionDecl.Stores holds) functions stored) :
      Stores holds (.service functions parent) (.service stored bound methods)

/-- **What holds of all values that a scope stores** for a document, each with the
type and the expression that it belongs to. -/
def Document.Stores (d : Document) (s : Scope)
    (holds : TypeExpr → ConstExpr → Value → Prop) : Prop :=
  List.Forall₂ (fun x e => e.name = x.name ∧ x.body.Stores holds e.body)
    d.definitions s.entities

section Imp

variable {P Q : TypeExpr → ConstExpr → Value → Prop}

/-- What follows of the value of a default. -/
theorem Field.Stores.imp {f : Field} {g : Entity.Field} (h : f.Stores P g)
    (himp : ∀ t c v, P t c v → Q t c v) : f.Stores Q g := by
  refine ⟨h.1, ?_⟩
  have hrel := h.2
  generalize f.default = o at hrel
  generalize g.defaultValue = o' at hrel
  cases hrel with
  | none => exact .none
  | some hvalue => exact .some (himp _ _ _ hvalue)

/-- What follows of the values that are stored with an entity. -/
theorem Definition.Body.Stores.imp {x : Definition.Body} {b : Entity.Body}
    (h : x.Stores P b) (himp : ∀ t c v, P t c v → Q t c v) : x.Stores Q b := by
  cases h with
  | const value => exact .const (himp _ _ _ value)
  | typedef target ty => exact .typedef target ty
  | enum items numbered => exact .enum items numbered
  | struct each => exact .struct (each.imp fun _ _ hfield => hfield.imp himp)
  | service each =>
    refine .service (each.imp fun f g hfunction => ⟨?_, hfunction.2⟩)
    exact hfunction.1.imp fun _ _ hfield => hfield.imp himp

/-- **What follows of all values.** -/
theorem Document.Stores.imp {d : Document} {s : Scope} (h : d.Stores s P)
    (himp : ∀ t c v, P t c v → Q t c v) : d.Stores s Q :=
  List.Forall₂.imp (fun _ _ hentity => ⟨hentity.1, hentity.2.imp himp⟩) h

end Imp

/-- The values of defaults are stored with fields that have them. -/
theorem Field.AllDeclaredAs.stores {d : Document} {fields : List Field}
    {numbered : List Entity.Field} (h : Field.AllDeclaredAs fields numbered)
    (hvalued : List.Forall₂ (Field.ValuedAs d) fields numbered) :
    List.Forall₂ (Field.Stores d.HasValue) fields numbered := by
  obtain ⟨hlength, hdeclared⟩ := List.forall₂_iff_zip.mp h.each
  obtain ⟨-, hvalue⟩ := List.forall₂_iff_zip.mp hvalued
  exact List.forall₂_iff_zip.mpr
    ⟨hlength, fun hpair => ⟨(hdeclared hpair).name, hvalue hpair⟩⟩

/-- **With an entity that has its values the values of the document are stored.** -/
theorem Definition.Body.DeclaredAs.stores {d : Document} {x : Definition.Body}
    {b : Entity.Body} (h : x.DeclaredAs b) (hvalued : x.ValuedAs d b)
    (hbare : b.BareExceptions) : x.Stores d.HasValue b := by
  cases h with
  | const _ _ =>
    obtain ⟨v, rfl, hv⟩ := hvalued
    exact .const hv
  | typedef _ => exact .typedef _ _
  | enum _ _ => exact .enum _ _
  | struct hfields => exact .struct (hfields.stores hvalued)
  | service hfunctions _ =>
    obtain ⟨hlength, hdeclared⟩ := List.forall₂_iff_zip.mp hfunctions
    obtain ⟨-, hvalues⟩ := List.forall₂_iff_zip.mp hvalued
    refine .service (List.forall₂_iff_zip.mpr ⟨hlength, fun {f g} hpair => ⟨?_, ?_⟩⟩)
    · exact (hdeclared hpair).parameters.stores (hvalues hpair)
    · exact hbare g (List.of_mem_zip hpair).2

namespace Document

variable {d : Document} {name : String} {c : Compiled}

/-- **A compiled scope stores the values of its document.** -/
theorem stores_of_compile (hok : d.compile name = .ok c) :
    d.Stores c.scope d.HasValue := by
  have hstage := stage_of_compile hok
  obtain ⟨hlength, hdeclared⟩ := List.forall₂_iff_zip.mp hstage.models.declared
  refine List.forall₂_iff_zip.mpr ⟨hlength, fun {x e} hpair => ?_⟩
  obtain ⟨hx, he⟩ := List.of_mem_zip hpair
  obtain ⟨id, hid⟩ := List.mem_iff_getElem?.mp he
  have hdefines : d.Defines e.name x.body := ⟨x, hx, (hdeclared hpair).name.symm, rfl⟩
  refine ⟨(hdeclared hpair).name, (hdeclared hpair).body.stores ?_ ?_⟩
  · exact ((hstage.each id e hid).settled x.body hdefines).2
  · exact bareExceptions_of_compile hok id e hid

/-- **The value of a constant is found under its name.** -/
theorem Stores.exists_constant? {s : Scope} {P : TypeExpr → ConstExpr → Value → Prop}
    (h : d.Stores s P) (harena : s.IsArena) {type : TypeExpr} {expr : ConstExpr}
    (hdefines : d.Defines name (.const type expr)) :
    ∃ v, s.constant? name = some v ∧ P type expr v := by
  obtain ⟨x, hx, rfl, hbody⟩ := hdefines
  obtain ⟨e, he, hname, hstores⟩ := exists_right_of_forall₂ h hx
  obtain ⟨id, hid⟩ := List.mem_iff_getElem?.mp he
  rw [hbody] at hstores
  generalize hb : e.body = b at hstores
  cases hstores with | @const _ _ _ _ v hv =>
  refine ⟨v, ?_, hv⟩
  unfold Scope.constant?
  rw [harena.named?_eq_some.mpr ⟨hid, hname⟩, Option.bind_some]
  simp only [hb]

end Document

end Interlink
