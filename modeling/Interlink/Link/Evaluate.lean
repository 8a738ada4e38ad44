import Interlink.Link.Coerce

/-!
# Evaluation

A constant expression is evaluated in two steps: first its loose value, with
every reference replaced by what it is bound to, then the coercion of that
value to the declared type.

Constants are evaluated in two situations. While constants are being linked, a
constant that mentions others finds their values first (`findValue`), along a
trail that catches circles; values are kept in a table as they are found, so
that each constant is evaluated once. Afterwards, when defaults are evaluated,
every constant has its value stored (`storedValue`).
-/

namespace Interlink

namespace Init

mutual

/-- **The references in an expression**, from left to right. -/
def references : Init → List (Reference ConstTarget)
  | .list items => itemReferences items
  | .map entries => entryReferences entries
  | .reference r => [r]
  | _ => []

def itemReferences : List Init → List (Reference ConstTarget)
  | [] => []
  | item :: items => references item ++ itemReferences items

def entryReferences : List (Init × Init) → List (Reference ConstTarget)
  | [] => []
  | (key, value) :: entries =>
    references key ++ references value ++ entryReferences entries

end

mutual

/-- **The loose value of an expression.** `constant` gives the value of a
constant that is referred to. -/
def loose (s : Scope) (owner : String)
    (constant : EntityId → Entity → Except CompileError Value) :
    Init → Except CompileError Value
  | .bool b => .ok (.bool b)
  | .int n => .ok (.i64 n)
  | .double d => .ok (.double d)
  | .string t => .ok (.string t)
  | .list items => .list <$> looseItems s owner constant items
  | .map entries => .map <$> looseEntries s owner constant entries
  | .reference r =>
    match r.target with
    | some (.const id) =>
      match s.entity? id with
      | some e => constant id e
      | none => .error (.unknown r.name owner r.span)
    | some (.item enumId n) =>
      match s.entity? enumId with
      | some e => .ok (.enum e.name n)
      | none => .error (.unknown r.name owner r.span)
    | none => .error (.unknown r.name owner r.span)

def looseItems (s : Scope) (owner : String)
    (constant : EntityId → Entity → Except CompileError Value) :
    List Init → Except CompileError (List Value)
  | [] => .ok []
  | item :: items => do
    let item ← loose s owner constant item
    let items ← looseItems s owner constant items
    return item :: items

def looseEntries (s : Scope) (owner : String)
    (constant : EntityId → Entity → Except CompileError Value) :
    List (Init × Init) → Except CompileError (List (Value × Value))
  | [] => .ok []
  | (key, value) :: entries => do
    let key ← loose s owner constant key
    let value ← loose s owner constant value
    let entries ← looseEntries s owner constant entries
    return (key, value) :: entries

end

/-- **The value of an expression at a type.** -/
def evaluate (s : Scope) (site : Site)
    (constant : EntityId → Entity → Except CompileError Value)
    (ty : Ty) (init : Init) : Except CompileError Value :=
  match init.loose s site.owner constant with
  | .error e => .error e
  | .ok value => value.coerce s site ty

end Init

/-! ## Values found so far -/

/-- **The values of constants found so far.** -/
abbrev ValueTable := List (EntityId × Value)

/-- The value that a table holds for a constant. -/
def ValueTable.value (table : ValueTable) (id : EntityId) (e : Entity) :
    Except CompileError Value :=
  match table.lookup id with
  | some value => .ok value
  | none => .error (.invalid e.name e.span .notEvaluated)

namespace Scope

/-- Find the values of the constants that some references are bound to, one
after the other. -/
def findReferred (s : Scope) (owner : String)
    (find : ValueTable → EntityId → Entity →
      Except CompileError (Value × ValueTable)) :
    ValueTable → List (Reference ConstTarget) → Except CompileError ValueTable
  | table, [] => .ok table
  | table, r :: rest =>
    match r.target with
    | some (.const id) =>
      match s.entity? id with
      | some e =>
        match find table id e with
        | .error fault => .error fault
        | .ok (_, table) => findReferred s owner find table rest
      | none => .error (.unknown r.name owner r.span)
    | some (.item _ _) => findReferred s owner find table rest
    | none => .error (.unknown r.name owner r.span)

/-- **Finding the value of a constant**, along a trail with so many steps left:
the constants that are being evaluated already may not be met again. The
constants that it mentions are found first, in the order in which it mentions
them. -/
def findValue (s : Scope) : (left : Nat) → Trail → ValueTable → EntityId →
    Entity → Except CompileError (Value × ValueTable)
  | left, t, table, id, e =>
    match table.lookup id with
    | some value => .ok (value, table)
    | none =>
      match left with
      | 0 => .error (s.circle t id e)
      | left + 1 =>
        if t.contains id then .error (s.circle t id e)
        else
          match e.body with
          | .const ty init _ =>
            match s.findReferred e.name (findValue s left (id :: t)) table
                init.references with
            | .error fault => .error fault
            | .ok table =>
              match init.evaluate s ⟨e.name, e.span⟩ table.value ty with
              | .error fault => .error fault
              | .ok value => .ok (value, (id, value) :: table)
          | _ => .error (.mismatch e.name e.span (.notConstant e.name e.kind))

/-- **The value stored with a constant.** -/
def storedValue (_ : EntityId) (e : Entity) : Except CompileError Value :=
  match e.body with
  | .const _ _ (some value) => .ok value
  | _ => .error (.invalid e.name e.span .notEvaluated)

end Scope

end Interlink
