import StringSlots.Arena
import StringSlots.Bisect
import StringSlots.Buffer
import StringSlots.Bytes
import StringSlots.Cbor.Item
import StringSlots.Codec.Basic
import StringSlots.Codec.Config
import StringSlots.Codec.Json
import StringSlots.Codec.Member
import StringSlots.Codec.Release
import StringSlots.Demo.Document
import StringSlots.Demo.Run
import StringSlots.Error
import StringSlots.Event
import StringSlots.Json.Number
import StringSlots.Json.Parser
import StringSlots.Json.Printer
import StringSlots.Json.Text
import StringSlots.Json.Value
import StringSlots.Layout.Cbor
import StringSlots.Layout.Compound
import StringSlots.Layout.Json
import StringSlots.Layout.Member
import StringSlots.Layout.NameIndex
import StringSlots.Main
import StringSlots.Managed.Array
import StringSlots.Managed.Bridge
import StringSlots.Proofs.Arena.Ledger
import StringSlots.Proofs.Arena.Lifetime
import StringSlots.Proofs.Cbor.Item
import StringSlots.Proofs.Cbor.Prefix
import StringSlots.Proofs.Codec.Access
import StringSlots.Proofs.Codec.MemberAccess
import StringSlots.Proofs.Codec.Storing
import StringSlots.Proofs.Demo.Lines
import StringSlots.Proofs.Demo.Rows
import StringSlots.Proofs.Demo.Session
import StringSlots.Proofs.Demo.Store
import StringSlots.Proofs.Demo.Transcript
import StringSlots.Proofs.Json.Reading
import StringSlots.Proofs.Layout.Addressing
import StringSlots.Proofs.Layout.Equality
import StringSlots.Proofs.Layout.Lookup
import StringSlots.Proofs.Layout.Placement
import StringSlots.Proofs.Layout.Rendered
import StringSlots.Proofs.Layout.Slots
import StringSlots.Proofs.Layout.Sorted
import StringSlots.Proofs.Layout.Stored
import StringSlots.Proofs.Layout.Tiling
import StringSlots.Proofs.Layout.Truncated
import StringSlots.Proofs.Managed.Crossing
import StringSlots.Proofs.Managed.Host
import StringSlots.Proofs.Managed.Pins
import StringSlots.Proofs.Record.Access
import StringSlots.Proofs.Record.HandleAt
import StringSlots.Proofs.Record.Schema
import StringSlots.Proofs.Record.Visited
import StringSlots.Proofs.Record.Words
import StringSlots.Proofs.Release.Again
import StringSlots.Proofs.Release.OffsetOrder
import StringSlots.Proofs.Release.Parts
import StringSlots.Proofs.Release.Plan
import StringSlots.Proofs.Release.Reference
import StringSlots.Proofs.Release.Visits
import StringSlots.Proofs.Release.Walk
import StringSlots.Proofs.Run.Clients
import StringSlots.Proofs.Run.Contents
import StringSlots.Proofs.Run.Freshness
import StringSlots.Proofs.Run.Members
import StringSlots.Proofs.Run.Orders
import StringSlots.Proofs.Run.Ownership
import StringSlots.Proofs.Run.Requests
import StringSlots.Proofs.Run.RoundTrip
import StringSlots.Proofs.Run.Slots
import StringSlots.Proofs.Run.Workspace
import StringSlots.Proofs.Slot.Images
import StringSlots.Proofs.Text.Digits
import StringSlots.Proofs.Text.Null
import StringSlots.Proofs.Text.Quoted
import StringSlots.Record.Positions
import StringSlots.Record.Schema
import StringSlots.Record.View
import StringSlots.Slot.ByteOrder
import StringSlots.Slot.Handle
import StringSlots.Slot.Width
import StringSlots.Text.Quoted
import StringSlots.Text.Unprintable
import StringSlots.Text.Utf8
