import Interlink.CompiledUnit
import Interlink.Scope.Json

/-!
# The command line

A command names a document and may name a protocol, a file with options and a
file for the resolved scope. Running it is a function of the texts of the
files: it answers with the lines to print and the text to write, or with the
first thing that fails. The options come first, then the name of the protocol,
then the document.
-/

namespace Interlink

/-- **A command.** -/
structure Command where
  /-- The file of the document. -/
  document : String
  /-- The name of the protocol, which has precedence over the options. -/
  protocol : Option String := none
  /-- The file of the options. -/
  config : Option String := none
  /-- The file that the resolved scope is written to. -/
  emit : Option String := none

/-- **Why a command fails.** -/
inductive CommandError where
  /-- Something is wrong with the options. -/
  | options (error : OptionsError)
  /-- The document cannot be read. -/
  | unreadable (path : String)
  /-- The document is not one. -/
  | notDocument (path : String)
  /-- The document does not compile. -/
  | failed (path : String) (error : BuildError)
  /-- The resolved scope cannot be written. -/
  | unwritable (path : String)

/-- A message set in from the margin, line by line. -/
def setIn (message : String) : String :=
  "\n".intercalate ((message.splitOn "\n").map ("    " ++ ·))

def CommandError.message : CommandError → String
  | .options error => error.message
  | .unreadable path => "failed to read " ++ path
  | .notDocument path => path ++ " is not a valid document"
  | .failed path error =>
    "failed to compile " ++ path ++ "\n\nCaused by:\n" ++ setIn error.message
  | .unwritable path => "failed to write " ++ path

/-- **What a command has to say**: the lines to print, and then a file to
write. -/
structure Report where
  /-- The lines to print. -/
  lines : List String
  /-- The path and the text of the file to write. -/
  emitted : Option (String × String)

/-! ## Arguments -/

namespace Command

/-- The options of the command line that take a value. -/
inductive Flag where
  /-- The name of the protocol. -/
  | protocol
  /-- The file of the options. -/
  | config
  /-- The file that the resolved scope is written to. -/
  | emit

def Flag.word : Flag → String
  | .protocol => "--protocol"
  | .config => "--config"
  | .emit => "--emit"

/-- A flag, and the value that is written to it in the same argument. -/
def Flag.ofArgument? (argument : String) : Option (Flag × Option String) :=
  [Flag.protocol, .config, .emit].findSome? fun flag =>
    if argument = flag.word then some (flag, none)
    else if argument.startsWith (flag.word ++ "=") then
      some (flag, some (String.ofList
        (argument.toList.drop (flag.word.length + 1))))
    else none

/-- Arguments as far as they are understood. -/
structure Arguments where
  /-- The file of the document. -/
  document : Option String := none
  /-- The name of the protocol. -/
  protocol : Option String := none
  /-- The file of the options. -/
  config : Option String := none
  /-- The file that the resolved scope is written to. -/
  emit : Option String := none

namespace Arguments

/-- Take the document, which is given once. -/
def setDocument? (a : Arguments) (path : String) : Option Arguments :=
  if a.document.isNone ∧ path ≠ "" then some { a with document := path }
  else none

/-- Take the value of a flag, which is given at most once. A file has a
name. -/
def set? (a : Arguments) (value : String) : Flag → Option Arguments
  | .protocol =>
    if a.protocol.isNone then some { a with protocol := value } else none
  | .config =>
    if a.config.isNone ∧ value ≠ "" then some { a with config := value }
    else none
  | .emit =>
    if a.emit.isNone ∧ value ≠ "" then some { a with emit := value } else none

/-- Whether an argument is taken for a flag rather than for a value. -/
def isFlag (argument : String) : Bool :=
  argument.startsWith "-" && argument != "-"

/-- Take one argument after the other. Behind `--` there are no flags. -/
def takeAll (a : Arguments) : List String → Option Arguments
  | [] => some a
  | "--" :: rest =>
    rest.foldlM Arguments.setDocument? a
  | argument :: rest =>
    match Flag.ofArgument? argument with
    | some (flag, some value) => (a.set? value flag).bind (takeAll · rest)
    | some (flag, none) =>
      match rest with
      | value :: rest =>
        if isFlag value then none
        else (a.set? value flag).bind (takeAll · rest)
      | [] => none
    | none =>
      if isFlag argument then none
      else (a.setDocument? argument).bind (takeAll · rest)

end Arguments

/-- **The command that arguments stand for.** -/
def ofArguments? (arguments : List String) : Option Command := do
  let a ← Arguments.takeAll {} arguments
  return ⟨← a.document, a.protocol, a.config, a.emit⟩

/-! ## Names of units -/

/-- A file name up to its last dot. A dot in front of everything else is part
of the name. -/
def stem (file : String) : String :=
  match (file.toList.reverse.dropWhile (· != '.')) with
  | [] => file
  | ['.'] => file
  | _ :: before => String.ofList before.reverse

/-- **The name of the unit** in a file. -/
def unitName (path : String) : String :=
  match (path.splitOn "/").filter (fun part => part != "" && part != ".")
      |>.getLast? with
  | none => "unit"
  | some ".." => "unit"
  | some file => stem file

/-! ## Running -/

def options (files : String → Option String) (c : Command) :
    Except OptionsError Options := do
  let options ← match c.config with
    | none => .ok {}
    | some path =>
      match files path with
      | none => .error (.unreadable path)
      | some text => Options.parse text
  match c.protocol with
  | none => return options
  | some name => return { options with protocol := ← Protocol.named name }

def unit (files : String → Option String) (c : Command) :
    Except CommandError CompiledUnit := do
  let options ← (c.options files).mapError .options
  let some text := files c.document | .error (.unreadable c.document)
  let some document := Document.parse? text
    | .error (.notDocument c.document)
  (document.build (unitName c.document) (some options.protocol)).mapError
    (.failed c.document)

/-- **Running a command.** -/
def run (files : String → Option String) (c : Command) :
    Except CommandError Report := do
  let u ← c.unit files
  return ⟨u.summary, c.emit.map fun path => (path, u.scope.toJson.pretty)⟩

end Command

end Interlink
