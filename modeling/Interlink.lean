import Interlink.Number.Double
import Interlink.Number.Shortest
import Interlink.Number.Width
import Interlink.Text.Unprintable
import Interlink.Text.Quoted
import Interlink.Text.Utf8
import Interlink.Json.Number
import Interlink.Json.Basic
import Interlink.Json.Token
import Interlink.Json.Tree
import Interlink.Json.Record
import Interlink.Span
import Interlink.Primitive
import Interlink.Document.Basic
import Interlink.Document.Json
import Interlink.Value.Basic
import Interlink.Value.Display
import Interlink.Value.Json
import Interlink.Entity.Type
import Interlink.Entity.Basic
import Interlink.CompileError
import Interlink.Scope.Basic
import Interlink.Scope.Shape
import Interlink.Scope.Define
import Interlink.Scope.Json
import Interlink.Link.Bind
import Interlink.Link.Coerce
import Interlink.Link.Evaluate
import Interlink.Link.Check
import Interlink.Link.Methods
import Interlink.Link.Pass
import Interlink.Compile
import Interlink.MessagePack.Head
import Interlink.Wire.Basic
import Interlink.Wire.Json
import Interlink.Wire.MessagePack
import Interlink.Protocol
import Interlink.Options
import Interlink.ValueError
import Interlink.Exchange.Type
import Interlink.Exchange.Send
import Interlink.Exchange.Receive
import Interlink.Catalog
import Interlink.CompiledUnit
import Interlink.CommandLine
import Interlink.Main
import Interlink.Proofs.Document.Meaning
import Interlink.Proofs.Document.WellFormed
import Interlink.Proofs.Outcome
import Interlink.Proofs.Scope.Arena
import Interlink.Proofs.Scope.Numbering
import Interlink.Proofs.Scope.Declared
import Interlink.Proofs.Scope.Models
import Interlink.Proofs.Scope.Shape
import Interlink.Proofs.Number.Width
import Interlink.Proofs.Link.Coerce
import Interlink.Proofs.Link.Bind
import Interlink.Proofs.Link.Evaluate
import Interlink.Proofs.Link.Check
import Interlink.Proofs.Link.Methods
import Interlink.Proofs.Link.Step
import Interlink.Proofs.Link.Pass
import Interlink.Proofs.Link.MethodLists
import Interlink.Proofs.Acceptance
import Interlink.Proofs.Linked
import Interlink.Proofs.Document.Typed
import Interlink.Proofs.Exchange.Rules
import Interlink.Proofs.Exchange.Send
import Interlink.Proofs.Exchange.Complete
import Interlink.Proofs.Wire.Basic
import Interlink.Proofs.Exchange.Admitted
import Interlink.Proofs.Exchange.Stable
import Interlink.Proofs.Exchange.Inferred
import Interlink.Proofs.Exchange.Construct
import Interlink.Proofs.Exchange.Lossless
import Interlink.Proofs.Exchange.Tagged
import Interlink.Proofs.MessagePack.Head
import Interlink.Proofs.Wire.MessagePack
import Interlink.Proofs.Json.Number
import Interlink.Proofs.Json.Token
import Interlink.Proofs.Json.Tree
import Interlink.Proofs.Wire.Json
import Interlink.Proofs.Services
import Interlink.Proofs.Document.Order
import Interlink.Proofs.Link.Rename
import Interlink.Proofs.Link.Exceptions
import Interlink.Proofs.Reordered
import Interlink.Proofs.Defaults
import Interlink.Proofs.Document.Faults
import Interlink.Proofs.Scope.Circle
import Interlink.Proofs.Scope.Refused
import Interlink.Proofs.Link.Unbound
import Interlink.Proofs.Link.Unfit
import Interlink.Proofs.Link.Unsettled
import Interlink.Proofs.Refusal
import Interlink.Proofs.Halted
import Interlink.Proofs.Exchange.Wider
import Interlink.Proofs.Extended
import Interlink.Proofs.Guarded.Basic
import Interlink.Proofs.Guarded.Bind
import Interlink.Proofs.Guarded.Evaluate
import Interlink.Proofs.Guarded.Methods
import Interlink.Proofs.Guarded.Compile
import Interlink.Proofs.Overrides
import Interlink.Proofs.Scope.History
import Interlink.Proofs.Json.Pretty
import Interlink.Proofs.Document.Json
import Interlink.Proofs.Value.Json
import Interlink.Proofs.Emitted
import Interlink.Proofs.Exchange.Overlooked
import Interlink.Proofs.Exchange.Erased
import Interlink.Proofs.Guarded.Exchange
import Interlink.Proofs.Value.Distinct
import Interlink.Proofs.Stored
import Interlink.Proofs.Idempotent
import Interlink.Proofs.ExactNumbers
import Interlink.Proofs.Collected
import Interlink.Proofs.Exchange.Misfit
import Interlink.Proofs.Exchange.Owned
import Interlink.Proofs.Guarded.Typedefs
import Interlink.Proofs.FieldIds
import Interlink.Proofs.Scope.EnumValues
