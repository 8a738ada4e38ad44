import Mathlib.Data.List.Nodup
import Interlink.Proofs.Document.Meaning

/-!
# Well-formed documents

What a document must satisfy to be compiled, clause by clause. Some clauses
look at one definition alone – names, numbers, lists of fields –, others at
what its mentions mean in the whole document; the last ones ask that constants
and defaults have values of their types.
-/

namespace Interlink

/-- **A plain name** is not empty and has no dot in it. -/
def IsPlain (name : String) : Prop := name ≠ "" ∧ '.' ∉ name.toList

/-- **The items of an enum are sound**: their names are plain and different,
and every number fits in thirty-two bits. Numbers that the document gives
always do. -/
structure EnumItem.Sound (items : List EnumItem) : Prop where
  /-- The names are plain. -/
  plain : ∀ item ∈ items, IsPlain item.name
  /-- The names are different. -/
  distinct : (items.map EnumItem.name).Nodup
  /-- No number is too large. -/
  fits : ∀ x ∈ EnumItem.numbered 0 items, x.2 ≤ 0x7fffffff

/-- The fields of a list can be numbered: none is without a name, and at most
so many are without an id. -/
structure Field.Numberable (fields : List Field) : Prop where
  /-- No name is empty. -/
  named : ∀ f ∈ fields, f.name ≠ ""
  /-- There are ids for all fields without one. -/
  few : (fields.filter fun f => f.id.isNone).length ≤ 32768

/-- **The fields of a list are told apart** by their names and by their
ids. -/
structure Field.Distinct (fields : List Field) : Prop where
  /-- The names are different. -/
  names : (fields.map Field.name).Nodup
  /-- The ids are different. -/
  ids : (Field.ids 0 fields).Nodup

namespace Document

/-- **A name is defined once**, if the definitions have different names. -/
theorem defines_unique_of_nodup {d : Document}
    (distinct : (d.definitions.map Definition.name).Nodup) {name : String}
    {body body' : Definition.Body} (hb : d.Defines name body)
    (hb' : d.Defines name body') : body = body' := by
  obtain ⟨x, hx, hname, rfl⟩ := hb
  obtain ⟨x', hx', hname', rfl⟩ := hb'
  rw [List.inj_on_of_nodup_map distinct hx hx' (hname.trans hname'.symm)]

/-- **A well-formed document.** -/
structure WellFormed (d : Document) : Prop where
  /-- No other document is asked for. -/
  selfContained : ∀ path span, Header.inclusion path span ∉ d.headers
  /-- There are not more definitions than handles. -/
  few : d.definitions.length ≤ 0x100000000
  /-- The names of definitions are plain. -/
  plain : ∀ x ∈ d.definitions, IsPlain x.name
  /-- The names of definitions are different. -/
  distinct : (d.definitions.map Definition.name).Nodup
  /-- The items of enums are sound. -/
  items : ∀ name items, d.Defines name (.enum items) → EnumItem.Sound items
  /-- The fields of structs, unions and exceptions, the parameters and the
  declared exceptions of functions can be numbered. -/
  numberable : ∀ x ∈ d.definitions, ∀ fields ∈ x.body.fieldLists,
    Field.Numberable fields
  /-- They are told apart. -/
  fields : ∀ x ∈ d.definitions, ∀ fields ∈ x.body.fieldLists,
    Field.Distinct fields
  /-- Functions have names. -/
  functionsNamed : ∀ name functions parent,
    d.Defines name (.service functions parent) → ∀ f ∈ functions, f.name ≠ ""
  /-- The functions of a service have different names. -/
  functionsDistinct : ∀ name functions parent,
    d.Defines name (.service functions parent) →
      (functions.map FunctionDecl.name).Nodup
  /-- The fields of a union are not required and have no default. -/
  unions : ∀ name fields, d.Defines name (.struct .union fields) →
    ∀ f ∈ fields, f.requiredness ≠ .required ∧ f.default = none
  /-- A function that nobody waits for has no result and no exceptions. -/
  oneway : ∀ name functions parent,
    d.Defines name (.service functions parent) → ∀ f ∈ functions,
      f.oneway = true → f.returns = none ∧ f.exceptions = []
  /-- The names of types stand for types. -/
  types : ∀ x ∈ d.definitions, ∀ m ∈ x.body.typeMentions, d.NamesType m.name
  /-- Services extend services. -/
  parents : ∀ name functions m, d.Defines name (.service functions (some m)) →
    ∃ functions parent, d.Defines m.name (.service functions parent)
  /-- Declared exceptions are exceptions. -/
  exceptions : ∀ name functions parent,
    d.Defines name (.service functions parent) → ∀ f ∈ functions,
      ∀ x ∈ f.exceptions, ∃ name fields,
        d.ReachesBody x.type name (.struct .exception fields)
  /-- The names of constants stand for constants or enum items. -/
  constants : ∀ x ∈ d.definitions, ∀ m ∈ x.body.constMentions,
    d.NamesConstant m.name
  /-- No constant is made of itself. -/
  constantsEnd : Acyclic d.ConstantMentions
  /-- No typedef stands for itself. -/
  typedefsEnd : Acyclic d.TypedefMentions
  /-- No service extends itself. -/
  servicesEnd : Acyclic d.Extends
  /-- Constants have a value of their type. -/
  values : ∀ name type expr, d.Defines name (.const type expr) →
    ∃ value, d.HasValue type expr value
  /-- So have the defaults of fields and parameters. -/
  defaults : ∀ x ∈ d.definitions, ∀ f ∈ x.body.valuedFields, ∀ expr,
    f.default = some expr → ∃ value, d.HasValue f.type expr value

end Document

end Interlink
