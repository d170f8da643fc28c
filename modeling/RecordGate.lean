import RecordGate.Boundary.Basic
import RecordGate.Boundary.Guest
import RecordGate.Boundary.Served
import RecordGate.CommandLine
import RecordGate.Double.Basic
import RecordGate.Double.Rounding
import RecordGate.Double.Scaling
import RecordGate.Double.Shortest
import RecordGate.Files
import RecordGate.Host.Call
import RecordGate.Host.Functions
import RecordGate.Host.Memory
import RecordGate.Host.RecordPair
import RecordGate.Host.StageError
import RecordGate.Intent
import RecordGate.Invocation
import RecordGate.Json.Fault
import RecordGate.Json.Number
import RecordGate.Json.Printer
import RecordGate.Json.Reader
import RecordGate.Json.Scan
import RecordGate.Json.Value
import RecordGate.Listing.Record
import RecordGate.Listing.Rules
import RecordGate.Main
import RecordGate.Mismatch
import RecordGate.Module.Engine
import RecordGate.Module.Reader
import RecordGate.Module.Run
import RecordGate.Module.Script
import RecordGate.Module.Validator
import RecordGate.Module.WellFormed
import RecordGate.Program
import RecordGate.Proofs.Boundary.Contract
import RecordGate.Proofs.Boundary.Guest
import RecordGate.Proofs.Boundary.Keeping
import RecordGate.Proofs.Boundary.Layout
import RecordGate.Proofs.Boundary.Linked
import RecordGate.Proofs.Boundary.Presenting
import RecordGate.Proofs.Boundary.Served
import RecordGate.Proofs.Double.Range
import RecordGate.Proofs.Double.Rounding
import RecordGate.Proofs.Double.Shortest
import RecordGate.Proofs.Except
import RecordGate.Proofs.Host.Memory
import RecordGate.Proofs.Host.Reading
import RecordGate.Proofs.Host.Requirement
import RecordGate.Proofs.Host.Serving
import RecordGate.Proofs.Host.Transfer
import RecordGate.Proofs.Host.Transport
import RecordGate.Proofs.Invocation.Comparing
import RecordGate.Proofs.Invocation.Composing
import RecordGate.Proofs.Invocation.Fetching
import RecordGate.Proofs.Invocation.Protocol
import RecordGate.Proofs.Invocation.Replaying
import RecordGate.Proofs.Invocation.Stating
import RecordGate.Proofs.Json.Decimal
import RecordGate.Proofs.Json.Doubles
import RecordGate.Proofs.Json.Grammar
import RecordGate.Proofs.Json.Magnitude
import RecordGate.Proofs.Json.Members
import RecordGate.Proofs.Json.Numeral
import RecordGate.Proofs.Json.Printing
import RecordGate.Proofs.Json.Reading
import RecordGate.Proofs.Json.Skipping
import RecordGate.Proofs.Json.Strings
import RecordGate.Proofs.Json.Unambiguous
import RecordGate.Proofs.Listing.Decoding
import RecordGate.Proofs.Listing.Governing
import RecordGate.Proofs.Listing.Pricing
import RecordGate.Proofs.Listing.Verdict
import RecordGate.Proofs.Module.Advance
import RecordGate.Proofs.Module.Effect
import RecordGate.Proofs.Module.Growth
import RecordGate.Proofs.Module.Reaching
import RecordGate.Proofs.Module.Reporting
import RecordGate.Proofs.Module.Transfer
import RecordGate.Proofs.Module.Validation
import RecordGate.Proofs.Program.Printing
import RecordGate.Proofs.Program.Stages
import RecordGate.Proofs.Record.Invariant
import RecordGate.Proofs.Record.Numbers
import RecordGate.Proofs.Record.Positional
import RecordGate.Proofs.Record.Shape
import RecordGate.Proofs.Record.Written
import RecordGate.Proofs.Settings.Layer
import RecordGate.Proofs.Settings.Merging
import RecordGate.Proofs.Text.Encoding
import RecordGate.Proofs.Transfer.Clearing
import RecordGate.Proofs.Transfer.Sending
import RecordGate.Proofs.Transfer.Serialising
import RecordGate.Record.Decode
import RecordGate.Record.Samples
import RecordGate.Record.Schema
import RecordGate.Settings.Basic
import RecordGate.Settings.Reader
import RecordGate.Snapshot
import RecordGate.Text.Quoted
import RecordGate.Text.Unprintable
import RecordGate.Text.Utf8
import RecordGate.Toml.Key
import RecordGate.Toml.Line
import RecordGate.Toml.Moment
import RecordGate.Toml.Number
import RecordGate.Toml.Quoted
import RecordGate.Toml.Reader
import RecordGate.Toml.Table
import RecordGate.Toml.Value
import RecordGate.Transfer.Basic
import RecordGate.Transfer.Datum
