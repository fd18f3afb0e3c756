import LS8.Isa.Instruction
import LS8.Action
import LS8.Isa.Listing
import LS8.Machine.Memory
import LS8.Machine.Registers
import LS8.Machine.Basic
import LS8.Machine.Execution
import LS8.Machine.Snapshot
import LS8.Engine.Basic
import LS8.Engine.Run
import LS8.Engine.Session
import LS8.Json.Number
import LS8.Json.Reading
import LS8.Settings.Reading
import LS8.Program.Source
import LS8.Engine.Report
import LS8.Storage
import LS8.Command.Item
import LS8.Command.Request
import LS8.Command.Output
import LS8.Command.Perform
import LS8.Main
import LS8.Proofs.Effect
import LS8.Proofs.Transition
import LS8.Proofs.Faults
import LS8.Proofs.Hazards
import LS8.Proofs.Contents
import LS8.Proofs.Decoding
import LS8.Proofs.Loading
import LS8.Proofs.Placement
import LS8.Proofs.Assembly
import LS8.Proofs.Stack
import LS8.Proofs.StackHistory
import LS8.Proofs.Reloading
import LS8.Proofs.Listing
import LS8.Proofs.ListedRuns
import LS8.Proofs.Grammar
import LS8.Proofs.Sessions
import LS8.Proofs.Accounts
import LS8.Proofs.Halting
import LS8.Proofs.Renewal
import LS8.Proofs.Relocation
import LS8.Proofs.Composition
import LS8.Proofs.Addresses
import LS8.Proofs.Commands
import LS8.Proofs.Stepping
import LS8.Proofs.Numerals
import LS8.Proofs.BulkLoading
import LS8.Proofs.Layout
import LS8.Proofs.Reassembly
import LS8.Proofs.Attempts
import LS8.Proofs.Encoding
import LS8.Proofs.SnapshotLog
import LS8.Proofs.EventLog
import LS8.Proofs.GivenSettings
import LS8.Proofs.Wording
import LS8.Proofs.Locality
import LS8.Proofs.Captures
import LS8.Proofs.Reports
