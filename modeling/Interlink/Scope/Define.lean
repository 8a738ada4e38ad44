import Std.Data.HashMap
import Interlink.Scope.Basic

/-!
# Declaring definitions

Every definition of a document becomes an entity. On the way its parts are
numbered: an enum item without a value gets the one after its predecessor's,
and the fields of a list that have no id get -1, -2, and so on. Names are
checked as far as they can be without looking at other definitions; no
reference is looked up.
-/

namespace Interlink

/-! ## References not yet bound -/

def Mention.toReference {τ : Type} (m : Mention) : Reference τ :=
  ⟨m.name, m.span, none⟩

/-- A type of a document, with references not yet bound. -/
def TypeExpr.toTy : TypeExpr → Ty
  | .primitive p => .primitive p
  | .list element => .list element.toTy
  | .set element => .set element.toTy
  | .map key value => .map key.toTy value.toTy
  | .named mention => .named mention.toReference

namespace ConstExpr

mutual

/-- A constant of a document, with references not yet bound. -/
def toInit : ConstExpr → Init
  | .bool b => .bool b
  | .int n => .int n
  | .double d => .double d
  | .string s => .string s
  | .list items => .list (itemsToInit items)
  | .map entries => .map (entriesToInit entries)
  | .reference mention => .reference mention.toReference

def itemsToInit : List ConstExpr → List Init
  | [] => []
  | item :: items => item.toInit :: itemsToInit items

def entriesToInit : List (ConstExpr × ConstExpr) → List (Init × Init)
  | [] => []
  | (key, value) :: entries =>
    (key.toInit, value.toInit) :: entriesToInit entries

end

end ConstExpr

/-! ## Names -/

/-- What is wrong with a name, if anything is: it is empty, or has a dot in
it, which would make it look like an item of an enum. -/
def nameFault? (name : String) : Option Malformation :=
  if name.isEmpty then some .emptyName
  else if name.toList.contains '.' then some .dottedName
  else none

/-- A name inside another: `owner.name`. -/
def qualified (owner name : String) : String := owner ++ "." ++ name

/-! ## Enums -/

/-- The value of an item: its own, or else the next one, if thirty-two bits
can hold it. -/
def EnumItem.value? (item : EnumItem) (next : Int) : Option Int32 :=
  match item.value with
  | some n => some n
  | none => if next < 0x80000000 then some (.ofInt next) else none

/-- Number the items of an enum. `next` is the value of an item that has none
of its own, and `seen` has the places of the items before. -/
def numberItems (owner : String) (next : Int)
    (seen : Std.HashMap String Span) :
    List EnumItem → Except CompileError (List Entity.Item)
  | [] => .ok []
  | item :: items =>
    let name := qualified owner item.name
    if (nameFault? item.name).isSome then
      .error (.invalid name item.span .itemName)
    else
      match seen[item.name]? with
      | some first => .error (.duplicate name item.span first)
      | none =>
        match item.value? next with
        | none => .error (.invalid name item.span .itemOverflow)
        | some n =>
          match numberItems owner (n.toInt + 1)
              (seen.insert item.name item.span) items with
          | .error e => .error e
          | .ok rest => .ok (⟨item.name, n, item.span⟩ :: rest)

/-! ## Fields -/

/-- A field with an id, its references not yet bound. -/
def Field.withId (f : Field) (id : Int16) : Entity.Field where
  id := id
  name := f.name
  type := f.type.toTy
  requiredness := f.requiredness
  default := f.default.map ConstExpr.toInit
  defaultValue := none
  span := f.span

/-- Number the fields of a list. `used` is how many ids have been handed out;
there are as many of them as negative numbers of sixteen bits. -/
def numberFields (owner : String) (used : Nat) :
    List Field → Except CompileError (List Entity.Field)
  | [] => .ok []
  | f :: fields =>
    if f.name.isEmpty then .error (.invalid owner f.span .emptyFieldName)
    else
      match f.id with
      | some id =>
        match numberFields owner used fields with
        | .error e => .error e
        | .ok rest => .ok (f.withId id :: rest)
      | none =>
        if used < 0x8000 then
          match numberFields owner (used + 1) fields with
          | .error e => .error e
          | .ok rest => .ok (f.withId (.ofInt (-(used + 1 : Nat))) :: rest)
        else .error (.invalid owner f.span .tooManyFields)

/-! ## Services -/

/-- A function of a service, numbered. -/
def FunctionDecl.number (service : String) (f : FunctionDecl) :
    Except CompileError Entity.Function :=
  if f.name.isEmpty then .error (.invalid service f.span .emptyFunctionName)
  else do
    let owner := qualified service f.name
    let parameters ← numberFields owner 0 f.parameters
    let exceptions ← numberFields owner 0 f.exceptions
    return {
      name := f.name
      parameters
      returns := f.returns.map TypeExpr.toTy
      exceptions
      oneway := f.oneway
      span := f.span }

/-! ## Definitions -/

/-- **The body that a definition declares.** -/
def Definition.toBody (d : Definition) : Except CompileError Entity.Body :=
  match d.body with
  | .const type value => .ok (.const type.toTy value.toInit none)
  | .typedef target => .ok (.typedef target.toTy)
  | .enum items => .enum <$> numberItems d.name 0 ∅ items
  | .struct kind fields => .struct kind <$> numberFields d.name 0 fields
  | .service functions parent => do
    let functions ← functions.mapM (FunctionDecl.number d.name)
    return .service functions (parent.map Mention.toReference) []

namespace Scope

/-- **Declaring a definition**, with what is left of the scope if that fails. -/
def defineOrHalt (s : Scope) (d : Definition) : Except (Halt Scope) Scope :=
  match nameFault? d.name with
  | some malformation => .error ⟨.invalid d.name d.span malformation, s⟩
  | none =>
    match d.toBody with
    | .error e => .error ⟨e, s⟩
    | .ok body => s.declareOrHalt d.name d.span body

def define (s : Scope) (d : Definition) : Except CompileError Scope :=
  Halt.forget (s.defineOrHalt d)

/-- Declaring definitions, one after the other. -/
def defineAll (s : Scope) : List Definition → Except CompileError Scope
  | [] => .ok s
  | d :: definitions =>
    match s.define d with
    | .error e => .error e
    | .ok s => s.defineAll definitions

end Scope

/-- **Checking a header.** A naming is only a remark; no other document is
ever read. -/
def Header.check : Header → Except CompileError Unit
  | .inclusion path span => .error (.inclusion path span)
  | .naming .. => .ok ()

end Interlink
