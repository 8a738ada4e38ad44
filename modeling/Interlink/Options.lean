import Interlink.Protocol

/-!
# Options

What a compilation can be told beside the document: the protocol. Options are
read from JSON, where every name must be known; none has to be given.
-/

namespace Interlink

/-- **The options of a compilation.** -/
structure Options where
  /-- The protocol of the unit. -/
  protocol : Protocol := .msgpack
  deriving DecidableEq

/-- **What can be wrong with options**, whatever the document. -/
inductive OptionsError where
  /-- A unit is asked for without a protocol. -/
  | missingProtocol
  /-- There is no protocol with that name. -/
  | unknownProtocol (name : String)
  /-- The text is not that of options. -/
  | malformed
  /-- The file cannot be read. -/
  | unreadable (path : String)
  deriving DecidableEq

def OptionsError.message : OptionsError → String
  | .missingProtocol => "no serialization protocol configured"
  | .unknownProtocol name =>
    "unknown protocol '" ++ name ++ "', expected 'msgpack' or 'json'"
  | .malformed => "invalid compiler options:"
  | .unreadable path => "failed to read config file " ++ path

/-- The protocol with a name, or what is wrong with the name. -/
def Protocol.named (name : String) : Except OptionsError Protocol :=
  match Protocol.ofName? name with
  | some p => .ok p
  | none => .error (.unknownProtocol name)

/-- A protocol in JSON: its name, or an object of one member with that name
and nothing in it. -/
def Protocol.ofJson? : Json → Option Protocol
  | .str (some name) => Protocol.ofName? name
  | .obj [(some name, .null)] => Protocol.ofName? name
  | _ => none

namespace Options

def toJson (o : Options) : Json := .object [("protocol", .text o.protocol.name)]

def ofJson? : Json → Option Options
  | .obj [] => some {}
  | .obj [(some "protocol", j)] => (Protocol.ofJson? j).map Options.mk
  | .arr [] => some {}
  | .arr [j] => (Protocol.ofJson? j).map Options.mk
  | _ => none

/-- **Read the text of options.** -/
def parse (text : String) : Except OptionsError Options :=
  match (Json.parse? text).bind ofJson? with
  | some options => .ok options
  | none => .error .malformed

end Options

end Interlink
