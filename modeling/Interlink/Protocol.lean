import Interlink.Wire.Json
import Interlink.Wire.MessagePack

/-!
# Protocols

A protocol sends a wire value as bytes and reads it back. Whoever reads says
which tag is expected; a payload that holds a wire value with another tag is
refused, and so is one that holds none. In JSON the whole payload is the wire
value; in MessagePack it is the front of the payload, and what follows is left
alone.
-/

namespace Interlink

/-- **A protocol.** -/
inductive Protocol where
  /-- MessagePack, which is what a unit uses unless it is told otherwise. -/
  | msgpack
  /-- JSON. -/
  | json
  deriving DecidableEq

namespace Protocol

def name : Protocol → String
  | .msgpack => "msgpack"
  | .json => "json"

def ofName? : String → Option Protocol
  | "msgpack" => some .msgpack
  | "json" => some .json
  | _ => none

/-- **Why a payload is refused.** -/
inductive Refusal where
  /-- It holds no wire value. -/
  | unreadable (protocol : Protocol)
  /-- It holds a wire value with another tag than the one expected. -/
  | unexpected (expected found : Wire.Tag)
  deriving DecidableEq

def Refusal.message : Refusal → String
  | .unreadable .msgpack => "msgpack decoding failed"
  | .unreadable .json => "json codec failed"
  | .unexpected expected found =>
    "expected a " ++ expected.name ++ " payload, found " ++ found.name

/-- **The payload of a wire value.** -/
def encode : Protocol → Wire → List UInt8
  | .msgpack, w => w.pack
  | .json, w => Text.utf8 w.toJson.compact

/-- The wire value in a payload, whatever its tag. -/
def read? : Protocol → List UInt8 → Option Wire
  | .msgpack, bytes => (Wire.unpack bytes).map Prod.fst
  | .json, bytes => Wire.ofBytes? bytes

/-- **The wire value in a payload**, which is to have a given tag. -/
def decode (p : Protocol) (expected : Wire.Tag) (bytes : List UInt8) :
    Except Refusal Wire :=
  match p.read? bytes with
  | none => .error (.unreadable p)
  | some w =>
    if w.tag = expected then .ok w else .error (.unexpected expected w.tag)

end Protocol

end Interlink
