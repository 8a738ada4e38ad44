import Mathlib.Logic.Relation
import Interlink.Link.Coerce
import Interlink.Scope.Define

/-!
# What a document means

A document says what its types and constants are before anything is compiled.
This module states it by rules, from the definitions alone: there are no
handles, no passes and no order of evaluation here, and a definition may stand
before or after those that it mentions.

* `Document.Reaches`: the type that is left when typedefs are followed.
* `Document.Coerces`: what a value becomes at a type.
* `Document.LooseValue`: what an expression stands for, before a type is asked
  of it. A constant that goes back to itself has none, since a derivation is
  finite.
* `Document.HasValue`: what an expression is at a type.

The rules are relations. That compiling follows them, and that they determine
their results, is shown elsewhere.
-/

namespace Interlink

/-! ## Mentions -/

/-- The names that a type mentions, at any depth. -/
def TypeExpr.mentions : TypeExpr → List Mention
  | .primitive _ => []
  | .list element => element.mentions
  | .set element => element.mentions
  | .map key value => key.mentions ++ value.mentions
  | .named m => [m]

namespace ConstExpr

mutual

/-- The names that an expression mentions, at any depth. -/
def mentions : ConstExpr → List Mention
  | .list items => itemMentions items
  | .map entries => entryMentions entries
  | .reference m => [m]
  | _ => []

def itemMentions : List ConstExpr → List Mention
  | [] => []
  | item :: items => mentions item ++ itemMentions items

def entryMentions : List (ConstExpr × ConstExpr) → List Mention
  | [] => []
  | (key, value) :: entries =>
    mentions key ++ mentions value ++ entryMentions entries

end

end ConstExpr

/-- The names that the default of a field mentions. -/
def Field.defaultMentions (f : Field) : List Mention :=
  (f.default.map ConstExpr.mentions).getD []

/-- The types that a function names, in its parameters, its result and its
declared exceptions. -/
def FunctionDecl.typeMentions (f : FunctionDecl) : List Mention :=
  (f.parameters.flatMap fun p => p.type.mentions)
    ++ (f.returns.map TypeExpr.mentions).getD []
    ++ f.exceptions.flatMap fun p => p.type.mentions

/-- The constants and enum items that a function names in defaults. -/
def FunctionDecl.constMentions (f : FunctionDecl) : List Mention :=
  f.parameters.flatMap Field.defaultMentions
    ++ f.exceptions.flatMap Field.defaultMentions

namespace Definition.Body

/-- **The types that a definition names**, wherever they stand in it. -/
def typeMentions : Definition.Body → List Mention
  | .const type _ => type.mentions
  | .typedef target => target.mentions
  | .enum _ => []
  | .struct _ fields => fields.flatMap fun f => f.type.mentions
  | .service functions _ => functions.flatMap FunctionDecl.typeMentions

/-- **The constants and enum items that a definition names**, in its
expression or in the defaults of its fields. -/
def constMentions : Definition.Body → List Mention
  | .const _ value => value.mentions
  | .typedef _ => []
  | .enum _ => []
  | .struct _ fields => fields.flatMap Field.defaultMentions
  | .service functions _ => functions.flatMap FunctionDecl.constMentions

/-- The lists of fields in a definition: its fields, or the parameters and the
declared exceptions of its functions. -/
def fieldLists : Definition.Body → List (List Field)
  | .struct _ fields => [fields]
  | .service functions _ =>
    functions.flatMap fun f => [f.parameters, f.exceptions]
  | _ => []

/-- The fields of a definition whose defaults are evaluated: its fields, or
the parameters of its functions. -/
def valuedFields : Definition.Body → List Field
  | .struct _ fields => fields
  | .service functions _ => functions.flatMap FunctionDecl.parameters
  | _ => []

/-- Whether a definition defines a type. -/
def IsType : Definition.Body → Prop
  | .const .. => False
  | .service .. => False
  | _ => True

end Definition.Body

/-! ## Numbering -/

/-- **The items of an enum with their values.** An item without a value has the
one after its predecessor's; `next` is that of the first. -/
def EnumItem.numbered (next : Int) : List EnumItem → List (String × Int)
  | [] => []
  | item :: items =>
    let n := (item.value.map Int32.toInt).getD next
    (item.name, n) :: numbered (n + 1) items

/-- **The ids of a list of fields.** A field without an id takes the next
negative number; `used` of them are gone. -/
def Field.ids (used : Nat) : List Field → List Int
  | [] => []
  | f :: fields =>
    match f.id with
    | some id => id.toInt :: ids used fields
    | none => -(used + 1 : Nat) :: ids (used + 1) fields

/-- The first field of a list with a name. -/
def Field.named? (fields : List Field) (name : String) : Option Field :=
  fields.find? fun f => f.name == name

/-! ## Values of primitive types -/

/-- The integer type that a whole number is one of. -/
def Value.width? : Value → Option Primitive
  | .byte _ => some .byte
  | .i16 _ => some .i16
  | .i32 _ => some .i32
  | .i64 _ => some .i64
  | _ => none

/-- **What a value becomes at a primitive type.** A number of any width, or an
enum value, becomes the same number in the width of the type, if there is one.
Zero and one are truth values, a whole number is a double, a text is bytes; an
enum value is none of these. -/
inductive Primitive.Converts : Primitive → Value → Value → Prop
  | integer {p : Primitive} {v u : Value} {n : Int} (number : v.int? = some n)
      (width : u.width? = some p) (same : u.wholeNumber? = some n) :
      Converts p v u
  | bool (b : Bool) : Converts .bool (.bool b) (.bool b)
  | zero {v : Value} (number : v.wholeNumber? = some 0) :
      Converts .bool v (.bool false)
  | one {v : Value} (number : v.wholeNumber? = some 1) :
      Converts .bool v (.bool true)
  | double (d : Double) : Converts .double (.double d) (.double d)
  | whole {v : Value} {n : Int} (number : v.wholeNumber? = some n) :
      Converts .double v (.double (.ofInt n))
  | string (s : String) : Converts .string (.string s) (.string s)
  | text (s : String) : Converts .binary (.string s) (.binary (Text.utf8 s))
  | binary (bytes : List UInt8) : Converts .binary (.binary bytes) (.binary bytes)

/-- A value is a sequence of items, written as a list or as a set. -/
def Value.IsSequence (v : Value) (items : List Value) : Prop :=
  v = .list items ∨ v = .set items

namespace Document

variable (d : Document)

/-! ## Names -/

/-- **A name is defined** as something. -/
def Defines (name : String) (body : Definition.Body) : Prop :=
  ∃ x ∈ d.definitions, x.name = name ∧ x.body = body

/-- A name stands for a type. -/
def NamesType (name : String) : Prop := ∃ body, d.Defines name body ∧ body.IsType

/-- **A name stands for an item of an enum**: it is `enum.item`, and the item
has the number `n`. -/
def NamesItem (name enumName : String) (n : Int) : Prop :=
  ∃ items item, name = qualified enumName item
    ∧ d.Defines enumName (.enum items) ∧ (item, n) ∈ EnumItem.numbered 0 items

/-- A name stands for a constant, or for an item of an enum. -/
def NamesConstant (name : String) : Prop :=
  (∃ type value, d.Defines name (.const type value))
    ∨ ∃ enumName n, d.NamesItem name enumName n

/-! ## Types -/

/-- **What a type is when its typedefs are followed**: a primitive type, a
container, or the name of something that is no typedef. -/
inductive Reaches : TypeExpr → TypeExpr → Prop
  | primitive (p : Primitive) : Reaches (.primitive p) (.primitive p)
  | list (element : TypeExpr) : Reaches (.list element) (.list element)
  | set (element : TypeExpr) : Reaches (.set element) (.set element)
  | map (key value : TypeExpr) : Reaches (.map key value) (.map key value)
  | named {m : Mention} {body : Definition.Body}
      (defined : d.Defines m.name body)
      (final : ∀ target, body ≠ .typedef target) :
      Reaches (.named m) (.named m)
  | typedef {m : Mention} {target t : TypeExpr}
      (defined : d.Defines m.name (.typedef target))
      (reaches : Reaches target t) : Reaches (.named m) t

/-- A type is, when its typedefs are followed, defined as something. -/
def ReachesBody (t : TypeExpr) (name : String) (body : Definition.Body) : Prop :=
  ∃ m : Mention, m.name = name ∧ d.Reaches t (.named m) ∧ d.Defines name body

/-! ## Values of types -/

/-- **What a value becomes at a type.** A value of an enum or of a struct,
union or exception passes where its own type is asked for. Otherwise a struct
is written as a map from the names of its fields. -/
inductive Coerces : TypeExpr → Value → Value → Prop
  | primitive {t : TypeExpr} {p : Primitive} {v u : Value}
      (type : d.Reaches t (.primitive p)) (converts : p.Converts v u) :
      Coerces t v u
  | list {t element : TypeExpr} {v : Value} {items typed : List Value}
      (type : d.Reaches t (.list element)) (sequence : v.IsSequence items)
      (length : items.length = typed.length)
      (coerces : ∀ x ∈ items.zip typed, Coerces element x.1 x.2) :
      Coerces t v (.list typed)
  | set {t element : TypeExpr} {v : Value} {items typed : List Value}
      (type : d.Reaches t (.set element)) (sequence : v.IsSequence items)
      (length : items.length = typed.length)
      (coerces : ∀ x ∈ items.zip typed, Coerces element x.1 x.2) :
      Coerces t v (.set (Value.distinct typed))
  | map {t key value : TypeExpr} {entries typed : List (Value × Value)}
      (type : d.Reaches t (.map key value))
      (length : entries.length = typed.length)
      (keys : ∀ x ∈ entries.zip typed, Coerces key x.1.1 x.2.1)
      (values : ∀ x ∈ entries.zip typed, Coerces value x.1.2 x.2.2) :
      Coerces t (.map entries) (.map typed)
  | item {t : TypeExpr} {name : String} {items : List EnumItem} (n : Int32)
      (type : d.ReachesBody t name (.enum items)) :
      Coerces t (.enum name n) (.enum name n)
  | number {t : TypeExpr} {name : String} {items : List EnumItem} {v : Value}
      {n : Int32} (type : d.ReachesBody t name (.enum items))
      (number : v.wholeNumber? = some n.toInt)
      (member : n.toInt ∈ (EnumItem.numbered 0 items).map Prod.snd) :
      Coerces t v (.enum name n)
  | same {t : TypeExpr} {name : String} {kind : StructKind}
      {declared : List Field} (fields : List (String × Value))
      (type : d.ReachesBody t name (.struct kind declared)) :
      Coerces t (.struct name fields) (.struct name fields)
  | struct {t : TypeExpr} {name : String} {kind : StructKind}
      {declared : List Field} {entries : List (Value × Value)}
      {fields : List (String × Value)}
      (type : d.ReachesBody t name (.struct kind declared))
      (keys : entries.map Prod.fst = fields.map fun x => .string x.1)
      (known : ∀ x ∈ fields, (Field.named? declared x.1).isSome)
      (coerces : ∀ x ∈ entries.zip fields, ∀ f,
        Field.named? declared x.2.1 = some f → Coerces f.type x.1.2 x.2.2)
      (distinct : (fields.map Prod.fst).Nodup)
      (single : kind = .union → fields.length = 1)
      (required : kind ≠ .union → ∀ f ∈ declared,
        f.requiredness = .required → f.name ∈ fields.map Prod.fst) :
      Coerces t (.map entries) (.struct name fields)

/-! ## Constants -/

/-- **What an expression stands for.** A constant that it mentions stands for
its value at its own type. -/
inductive LooseValue : ConstExpr → Value → Prop
  | bool (b : Bool) : LooseValue (.bool b) (.bool b)
  | int (n : Int64) : LooseValue (.int n) (.i64 n)
  | double (x : Double) : LooseValue (.double x) (.double x)
  | string (s : String) : LooseValue (.string s) (.string s)
  | list {items : List ConstExpr} {values : List Value}
      (length : items.length = values.length)
      (each : ∀ x ∈ items.zip values, LooseValue x.1 x.2) :
      LooseValue (.list items) (.list values)
  | map {entries : List (ConstExpr × ConstExpr)} {values : List (Value × Value)}
      (length : entries.length = values.length)
      (keys : ∀ x ∈ entries.zip values, LooseValue x.1.1 x.2.1)
      (each : ∀ x ∈ entries.zip values, LooseValue x.1.2 x.2.2) :
      LooseValue (.map entries) (.map values)
  | constant {m : Mention} {type : TypeExpr} {expr : ConstExpr}
      {loose value : Value} (defined : d.Defines m.name (.const type expr))
      (stands : LooseValue expr loose) (coerces : d.Coerces type loose value) :
      LooseValue (.reference m) value
  | item {m : Mention} {enumName : String} {n : Int32}
      (names : d.NamesItem m.name enumName n.toInt) :
      LooseValue (.reference m) (.enum enumName n)

/-- **What an expression is at a type.** -/
def HasValue (type : TypeExpr) (expr : ConstExpr) (value : Value) : Prop :=
  ∃ loose, d.LooseValue expr loose ∧ d.Coerces type loose value

/-- What a constant is. -/
def ConstantValue (name : String) (value : Value) : Prop :=
  ∃ type expr, d.Defines name (.const type expr) ∧ d.HasValue type expr value

/-! ## Going round in circles -/

/-- A constant mentions a name in its expression. -/
def ConstantMentions (a b : String) : Prop :=
  ∃ type expr, d.Defines a (.const type expr)
    ∧ b ∈ expr.mentions.map Mention.name

/-- A typedef is directly another name for a name. -/
def TypedefMentions (a b : String) : Prop :=
  ∃ m : Mention, d.Defines a (.typedef (.named m)) ∧ m.name = b

/-- A service extends a name. -/
def Extends (a b : String) : Prop :=
  ∃ functions, ∃ m : Mention, d.Defines a (.service functions (some m))
    ∧ m.name = b

end Document

/-- **A relation never comes back** to where it started. -/
def Acyclic {α : Type} (step : α → α → Prop) : Prop :=
  ∀ a, ¬ Relation.TransGen step a a

end Interlink
