import Ferry.Bridge.Basic
import Ferry.Bridge.Capture
import Ferry.Bridge.Draft
import Ferry.Bridge.Handler
import Ferry.Bridge.HandlerTable
import Ferry.Bridge.Hop
import Ferry.Bridge.Reconstruct
import Ferry.Code
import Ferry.Exception.Graph
import Ferry.Exception.Survey
import Ferry.Exception.Text
import Ferry.Fault
import Ferry.Handle
import Ferry.Holdings.Basic
import Ferry.Holdings.Entry
import Ferry.Holdings.Release
import Ferry.Holdings.Slots
import Ferry.Holdings.Token
import Ferry.KeyedList
import Ferry.Kind
import Ferry.Message
import Ferry.ObjectType
import Ferry.Outline
import Ferry.Payload
import Ferry.Pool
import Ferry.Proofs.Registry.History
import Ferry.Proofs.Registry.Table
import Ferry.Proofs.Script.Frames
import Ferry.Registry
import Ferry.Script.BridgeCommand
import Ferry.Script.ExceptionCommand
import Ferry.Script.ObjectCommand
import Ferry.Script.OutlineCommand
import Ferry.Script.PayloadCommand
import Ferry.Script.Record
import Ferry.Script.RoundTrip
import Ferry.Script.Run
import Ferry.Script.Session
import Ferry.Script.StatusCommand
import Ferry.Status.Basic
import Ferry.Status.Text
import Ferry.Text.Ascii
import Ferry.Text.Escape
import Ferry.Text.Hex
import Ferry.Text.Quoted
import Ferry.Text.Trim
import Ferry.Text.Utf8
import Ferry.Token
import Ferry.Proofs.Ownership.Cells
import Ferry.Proofs.Ownership.Counts
import Ferry.Proofs.Ownership.Account
import Ferry.Proofs.Ownership.Careful
import Ferry.Proofs.Ownership.Quiet
import Ferry.Proofs.Ownership.Transfer
import Ferry.Proofs.Ownership.Exceptions
import Ferry.Proofs.Ownership.Bridges
import Ferry.Proofs.Ownership.Sessions
import Ferry.Proofs.Ownership.Commands
import Ferry.Proofs.Ownership.Scripts
import Ferry.Proofs.Ownership.Registries
import Ferry.Proofs.Ownership.Exclusive
import Ferry.Proofs.Ownership.Referring
import Ferry.Proofs.Ownership.Exact
import Ferry.Proofs.Ownership.Layers
import Ferry.Proofs.Ownership.Cascade
import Ferry.Proofs.Ownership.NoLeak
import Ferry.Proofs.Token.RoundTrip
import Ferry.Proofs.Token.Grammar
import Ferry.Proofs.Ownership.Minted
import Ferry.Proofs.Ownership.Honoured
import Ferry.Proofs.Ownership.PartialMap
import Ferry.Proofs.Bridge.Dropping
import Ferry.Proofs.Exception.Chains
import Ferry.Proofs.Exception.Growth
import Ferry.Proofs.Ownership.Spared
import Ferry.Proofs.Ownership.Tenure
import Ferry.Proofs.Bridge.Carrying
import Ferry.Proofs.Bridge.Transit
import Ferry.Proofs.Bridge.Relay
import Ferry.Bridge.Conduct
import Ferry.Proofs.Bridge.Dispatch
import Ferry.Proofs.Bridge.Fallback
import Ferry.Proofs.WorkList
import Ferry.Proofs.Ownership.Confluence
import Ferry.Proofs.Ownership.LettingGo
import Ferry.Proofs.Ownership.Foreign
import Ferry.Proofs.KeyedOrder
import Ferry.Proofs.Status.Formed
import Ferry.Proofs.Status.Slots
import Ferry.Proofs.Ownership.Lasting
import Ferry.Proofs.Ownership.TakingOut
import Ferry.Proofs.Ownership.Writing
import Ferry.Proofs.Exception.Spelling
import Ferry.Proofs.Exception.Outlines
import Ferry.Proofs.Bridge.Agreement
import Ferry.Proofs.Exception.Builders
import Ferry.Proofs.Bridge.Calls
import Ferry.Proofs.Text.Utf8
import Ferry.Proofs.Registry.Past
import Ferry.Proofs.Ownership.Pasts
import Ferry.Proofs.Bridge.Registrations
import Ferry.Proofs.Status.Chronicles
import Ferry.Proofs.Status.Chronicle
import Ferry.Proofs.Status.Equality
import Ferry.Proofs.Message
import Ferry.Proofs.Text.Trim
import Ferry.Proofs.Bridge.Plain
import Ferry.Proofs.Token.Refusals
import Ferry.Proofs.Registry.Reuse
import Ferry.Proofs.Ownership.PassingThrough
import Ferry.Exception.Unlinking
import Ferry.Proofs.Text.Reading
import Ferry.Proofs.Status.Rendering
import Ferry.Proofs.Exception.Heap
import Ferry.Proofs.Exception.Unlinking
