import Mathlib.Data.List.Chain
import Interlink.Proofs.Document.Meaning

/-!
# What is wrong with a document

A compilation that fails ends with one fault. What the fault says of the
document is stated here, from the document alone (`Document.Explains`): a
repeated name stands at two places of one list, an unknown name is mentioned
where the fault says and defined nowhere, a circle is a circle of definitions,
and the inclusion that is refused is the first one.

Every fault is reported at a place that something in the document stands at
(`Document.HasSpan`, `Explains.hasSpan`). For a value that does not fit and for
a malformed definition that is all that is said.

Two elements of a list, one after the other, are a sublist `[x, y]`.
-/

namespace Interlink

/-! ## Circles -/

/-- **A chain of names that goes round once**: from a name through others and
back, none of them met twice on the way, each leading to the next. -/
def IsCircle (step : String → String → Prop) (name : String)
    (chain : List String) : Prop :=
  ∃ between, chain = name :: between ++ [name] ∧ (name :: between).Nodup
    ∧ chain.IsChain step

/-! ## Lists of fields -/

/-- **The lists of fields in a definition**, with the name that a fault has for
their owner: the fields of a struct, union or exception, the parameters of a
function, the exceptions it declares. -/
inductive Definition.OwnsFields (x : Definition) : String → List Field → Prop
  | struct {kind : StructKind} {fields : List Field}
      (body : x.body = .struct kind fields) : OwnsFields x x.name fields
  | parameters {functions : List FunctionDecl} {parent : Option Mention}
      {f : FunctionDecl} (body : x.body = .service functions parent)
      (function : f ∈ functions) :
      OwnsFields x (qualified x.name f.name) f.parameters
  | exceptions {functions : List FunctionDecl} {parent : Option Mention}
      {f : FunctionDecl} (body : x.body = .service functions parent)
      (function : f ∈ functions) :
      OwnsFields x (qualified x.name f.name) f.exceptions

namespace Document

variable (d : Document)

/-! ## Mentions -/

/-- A mention of a type. -/
def MentionsType (m : Mention) : Prop :=
  ∃ x ∈ d.definitions, m ∈ x.body.typeMentions

/-- A mention of a constant or an enum item. -/
def MentionsConstant (m : Mention) : Prop :=
  ∃ x ∈ d.definitions, m ∈ x.body.constMentions

/-- A mention of a service that another one extends. -/
def MentionsService (m : Mention) : Prop :=
  ∃ x ∈ d.definitions, ∃ functions, x.body = .service functions (some m)

/-! ## Places -/

/-- **A place that something in a document stands at**: a header, a definition,
an item, a field, a function, or a mention. -/
inductive HasSpan : Span → Prop
  | header {header : Header} (mem : header ∈ d.headers) : HasSpan header.span
  | definition {x : Definition} (mem : x ∈ d.definitions) : HasSpan x.span
  | item {x : Definition} {items : List EnumItem} {item : EnumItem}
      (owner : x ∈ d.definitions) (body : x.body = .enum items)
      (mem : item ∈ items) : HasSpan item.span
  | field {x : Definition} {name : String} {fields : List Field} {f : Field}
      (owner : x ∈ d.definitions) (owns : x.OwnsFields name fields)
      (mem : f ∈ fields) : HasSpan f.span
  | function {x : Definition} {functions : List FunctionDecl}
      {parent : Option Mention} {f : FunctionDecl} (owner : x ∈ d.definitions)
      (body : x.body = .service functions parent) (mem : f ∈ functions) :
      HasSpan f.span
  | type {m : Mention} (mentions : d.MentionsType m) : HasSpan m.span
  | constant {m : Mention} (mentions : d.MentionsConstant m) : HasSpan m.span
  | parent {m : Mention} (mentions : d.MentionsService m) : HasSpan m.span

/-! ## Faults -/

/-- **Something is there twice**, under a name that a fault has for it, at a
later and at an earlier place: two definitions, items of one enum or functions
of one service have one name, or two fields of one list have one name or one
id. -/
inductive Repeats : String → Span → Span → Prop
  | definitions {x y : Definition} (both : [x, y].Sublist d.definitions)
      (same : x.name = y.name) : Repeats y.name y.span x.span
  | items {z : Definition} {items : List EnumItem} {x y : EnumItem}
      (owner : z ∈ d.definitions) (body : z.body = .enum items)
      (both : [x, y].Sublist items) (same : x.name = y.name) :
      Repeats (qualified z.name y.name) y.span x.span
  | functions {z : Definition} {functions : List FunctionDecl}
      {parent : Option Mention} {x y : FunctionDecl} (owner : z ∈ d.definitions)
      (body : z.body = .service functions parent)
      (both : [x, y].Sublist functions) (same : x.name = y.name) :
      Repeats (qualified z.name y.name) y.span x.span
  | fieldNames {z : Definition} {name : String} {fields : List Field} {x y : Field}
      (owner : z ∈ d.definitions) (owns : z.OwnsFields name fields)
      (both : [x, y].Sublist fields) (same : x.name = y.name) :
      Repeats (qualified name y.name) y.span x.span
  | fieldIds {z : Definition} {name : String} {fields : List Field} {x y : Field}
      {n : Int} (owner : z ∈ d.definitions) (owns : z.OwnsFields name fields)
      (both : [(x, n), (y, n)].Sublist (fields.zip (Field.ids 0 fields))) :
      Repeats (qualified name y.name ++ (" (field id " ++ toString n ++ ")"))
        y.span x.span

/-- No definition has a name. -/
def Undefined (name : String) : Prop := ∀ x ∈ d.definitions, x.name ≠ name

/-- No enum has an item that a name spells. -/
def NoItem (name : String) : Prop :=
  ∀ x ∈ d.definitions, ∀ items, x.body = .enum items →
    ∀ item ∈ items, name ≠ qualified x.name item.name

/-- **A name is mentioned at a place, and nothing is defined under it**: as a
type, as a service that is extended, or as a constant; then no item of an enum
is meant either. -/
def IsUnknown (m : Mention) : Prop :=
  d.Undefined m.name
    ∧ (d.MentionsType m ∨ d.MentionsService m
      ∨ d.MentionsConstant m ∧ d.NoItem m.name)

/-- **The first inclusion** among the headers. -/
def FirstInclusion (path : String) (span : Span) : Prop :=
  ∃ before after, d.headers = before ++ .inclusion path span :: after
    ∧ ∀ path span, Header.inclusion path span ∉ before

/-- **A definition goes round in a circle**: constants that mention each other
in their expressions, typedefs that are directly other names for each other, or
services that extend each other. The place is that of the definition. -/
def GoesRound (name : String) (chain : List String) (span : Span) : Prop :=
  (∃ x ∈ d.definitions, x.name = name)
    ∧ (∀ x ∈ d.definitions, x.name = name → x.span = span)
    ∧ (IsCircle d.ConstantMentions name chain
      ∨ IsCircle d.TypedefMentions name chain ∨ IsCircle d.Extends name chain)

/-- **What a fault says of a document.** -/
def Explains : CompileError → Prop
  | .duplicate name span first => d.Repeats name span first
  | .inclusion path span => d.FirstInclusion path span
  | .unknown name _ span => d.IsUnknown ⟨name, span⟩
  | .mismatch _ span _ => d.HasSpan span
  | .circular name chain span => d.GoesRound name chain span
  | .invalid _ span _ => d.HasSpan span

variable {d}

theorem Repeats.hasSpan {name : String} {span first : Span}
    (h : d.Repeats name span first) : d.HasSpan span := by
  -- the later one is in the list of both
  have hlater : ∀ {α : Type} {x y : α} {xs : List α}, [x, y].Sublist xs → y ∈ xs :=
    fun hboth => hboth.subset (List.mem_cons_of_mem _ (List.mem_singleton_self _))
  cases h with
  | definitions hboth => exact .definition (hlater hboth)
  | items howner hbody hboth => exact .item howner hbody (hlater hboth)
  | functions howner hbody hboth => exact .function howner hbody (hlater hboth)
  | fieldNames howner howns hboth => exact .field howner howns (hlater hboth)
  | fieldIds howner howns hboth =>
    exact .field howner howns (List.of_mem_zip (hlater hboth)).1

/-- **Every fault is reported at a place in the document.** -/
theorem Explains.hasSpan {fault : CompileError} (h : d.Explains fault) :
    d.HasSpan fault.span := by
  cases fault with
  | duplicate name span first => exact Repeats.hasSpan h
  | inclusion path span =>
    obtain ⟨before, after, hheaders, -⟩ := h
    have hmem : Header.inclusion path span ∈ d.headers := by
      rw [hheaders]
      exact List.mem_append_right _ List.mem_cons_self
    exact .header hmem
  | unknown name referrer span =>
    obtain ⟨-, htype | hservice | ⟨hconstant, -⟩⟩ := h
    · exact .type htype
    · exact .parent hservice
    · exact .constant hconstant
  | mismatch name span misfit => exact h
  | circular name chain span =>
    obtain ⟨⟨x, hx, hname⟩, hspan, -⟩ := h
    exact hspan x hx hname ▸ .definition hx
  | invalid name span malformation => exact h

end Document

end Interlink
