import Interlink.Number.Width
import Interlink.Scope.Shape
import Interlink.Text.Utf8

/-!
# Coercion

A constant is written without types: its whole numbers have no width, its
sequences may be meant as lists or as sets, and a struct is written as a map.
Coercion gives such a loose value the form that the declared type asks for, or
says why it has none. A value that has that form already stays as it is.

Types are looked at through `Scope.dealias`, which does not ask whether they
have been linked.
-/

namespace Interlink

/-- Where a misfit is reported: the definition or field that the value is
for. -/
structure Site where
  /-- Its name. -/
  owner : String
  /-- Where it stands. -/
  span : Span

/-- A misfit reported at a site. -/
def Site.misfit {α : Type} (site : Site) (misfit : Misfit) :
    Except CompileError α :=
  .error (.mismatch site.owner site.span misfit)

namespace Value

/-! ## Primitive types -/

/-- A number as a value of an integer type. Numbers out of range are
refused. -/
def ofInt? (p : Primitive) (n : Int) : Option Value :=
  match p with
  | .byte => (Width.int8? n).map .byte
  | .i16 => (Width.int16? n).map .i16
  | .i32 => (Width.int32? n).map .i32
  | .i64 => (Width.int64? n).map .i64
  | _ => none

/-- A value as one of a primitive type that is no integer type, if it can be
one. The numbers zero and one are truth values, any whole number is a double,
and a text is its bytes; the value of an enum is none of these. -/
def asPrimitive? : Primitive → Value → Option Value
  | .bool, .bool b => some (.bool b)
  | .bool, v =>
    match v.wholeNumber? with
    | some 0 => some (.bool false)
    | some 1 => some (.bool true)
    | _ => none
  | .double, .double d => some (.double d)
  | .double, v => v.wholeNumber?.map fun n => .double (.ofInt n)
  | .string, .string s => some (.string s)
  | .binary, .string s => some (.binary (Text.utf8 s))
  | .binary, .binary bytes => some (.binary bytes)
  | _, _ => none

/-- **Coercion to a primitive type.** `ty` is the type as it is declared, for
messages. -/
def coercePrimitive (site : Site) (ty : Ty) (p : Primitive) (v : Value) :
    Except CompileError Value :=
  if p.isInteger then
    match v.int? with
    | none => site.misfit (.notUsable v ty)
    | some n =>
      match ofInt? p n with
      | some typed => .ok typed
      | none => site.misfit (.outOfRange n p)
  else
    match asPrimitive? p v with
    | some typed => .ok typed
    | none => site.misfit (.notUsable v ty)

/-! ## Enums -/

/-- **Coercion to an enum.** A value of the enum itself is taken as it is; a
whole number must be the value of an item. -/
def coerceEnum (site : Site) (typeName : String) (items : List Entity.Item)
    (v : Value) : Except CompileError Value :=
  match v with
  | .enum found n =>
    if found = typeName then .ok (.enum found n)
    else site.misfit (.otherEnum found typeName)
  | v =>
    match v.wholeNumber?.bind fun n =>
        items.find? fun item => item.value.toInt == n with
    | some item => .ok (.enum typeName item.value)
    | none => site.misfit (.notItem v typeName)

/-! ## Sets -/

/-- The items of a sequence without those that are equal to an earlier one. -/
def distinct (items : List Value) : List Value :=
  items.foldl
    (fun kept item =>
      if kept.any fun other => other.same item then kept else kept ++ [item])
    []

/-! ## Structs -/

/-- Whether the fields set for a struct, union or exception are enough: one
for a union, and every required one otherwise. -/
def checkFieldsSet (site : Site) (typeName : String) (kind : StructKind)
    (declared : List Entity.Field) (fields : List (String × Value)) :
    Except CompileError Value :=
  if kind = .union then
    if fields.length = 1 then .ok (.struct typeName fields)
    else site.misfit (.unionCount typeName fields.length)
  else
    match declared.find? fun f =>
        f.isRequired && (fields.lookup f.name).isNone with
    | some f => site.misfit (.fieldMissing f.name kind typeName)
    | none => .ok (.struct typeName fields)

/-! ## All types -/

mutual

/-- **Coercion of a value to a type.** -/
def coerce (s : Scope) (site : Site) (v : Value) (ty : Ty) :
    Except CompileError Value :=
  match s.dealias ty site.owner with
  | .error e => .error e
  | .ok (.primitive p) => coercePrimitive site ty p v
  | .ok (.list element) =>
    match v with
    | .list items => .list <$> coerceItems s site element items
    | .set items => .list <$> coerceItems s site element items
    | v => site.misfit (.notUsable v ty)
  | .ok (.set element) =>
    match v with
    | .list items =>
      (fun typed => .set (distinct typed)) <$> coerceItems s site element items
    | .set items =>
      (fun typed => .set (distinct typed)) <$> coerceItems s site element items
    | v => site.misfit (.notUsable v ty)
  | .ok (.map key value) =>
    match v with
    | .map entries => .map <$> coerceEntries s site key value entries
    | v => site.misfit (.notUsable v ty)
  | .ok (.entity _ e) =>
    match e.body with
    | .enum items => coerceEnum site e.name items v
    | .struct kind declared =>
      match v with
      | .struct typeName fields =>
        if typeName = e.name then .ok (.struct typeName fields)
        else site.misfit (.notUsableAs v kind e.name)
      | .map entries =>
        match coerceFields s site e.name kind declared [] entries with
        | .error e => .error e
        | .ok fields => checkFieldsSet site e.name kind declared fields
      | v => site.misfit (.notUsableAs v kind e.name)
    | _ => site.misfit (.notType e.name e.kind)

def coerceItems (s : Scope) (site : Site) (element : Ty) :
    List Value → Except CompileError (List Value)
  | [] => .ok []
  | item :: items => do
    let item ← coerce s site item element
    let items ← coerceItems s site element items
    return item :: items

def coerceEntries (s : Scope) (site : Site) (key value : Ty) :
    List (Value × Value) → Except CompileError (List (Value × Value))
  | [] => .ok []
  | (k, v) :: entries => do
    let k ← coerce s site k key
    let v ← coerce s site v value
    let entries ← coerceEntries s site key value entries
    return (k, v) :: entries

/-- Coercion of the entries of a map that is meant as a struct. `done` has the
fields set so far. -/
def coerceFields (s : Scope) (site : Site) (typeName : String)
    (kind : StructKind) (declared : List Entity.Field)
    (done : List (String × Value)) :
    List (Value × Value) → Except CompileError (List (String × Value))
  | [] => .ok done
  | (key, v) :: entries =>
    match key with
    | .string name =>
      match declared.find? fun f => f.name == name with
      | none => site.misfit (.noField name kind typeName)
      | some f =>
        if (done.lookup name).isSome then
          site.misfit (.fieldAgain name kind typeName)
        else
          match coerce s site v f.type with
          | .error e => .error e
          | .ok typed =>
            coerceFields s site typeName kind declared
              (done ++ [(name, typed)]) entries
    | key => site.misfit (.notFieldName key kind)

end

end Value

end Interlink
