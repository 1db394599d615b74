import QuorumDispatch.Lib.Lines
import QuorumDispatch.Lib.Text
import QuorumDispatch.Lib.Json
import QuorumDispatch.Reconcile
import QuorumDispatch.Dispositions.Record
import QuorumDispatch.Dispositions.Ledger
import QuorumDispatch.DeliveryEvents.Record
import QuorumDispatch.DeliveryEvents.Ledger
import QuorumDispatch.Lib.TextFile
import QuorumDispatch.DeliveryEvents.Record
import QuorumDispatch.IdStore
import QuorumDispatch.Attended.Basic
import QuorumDispatch.Attended.Fire
import QuorumDispatch.Attended.HumanInput
import QuorumDispatch.Attended.Mux
import QuorumDispatch.Attended.Terminals
import QuorumDispatch.Lib.Partial
import QuorumDispatch.Screen.Cell
import QuorumDispatch.Screen.Grid
import QuorumDispatch.Screen.Performer
import QuorumDispatch.Screen.Sheet
import QuorumDispatch.Screen.Refine
import QuorumDispatch.Screen.Geometry
import QuorumDispatch.Screen.Effects
import QuorumDispatch.Screen.RefineTerminal
import QuorumDispatch.Screen.Emulator
import QuorumDispatch.Screen.Reachable
import QuorumDispatch.Recovery.Coordinator
import QuorumDispatch.Screen.LogicalHistory
import QuorumDispatch.Screen.Render
import QuorumDispatch.Recovery.Respawn
import QuorumDispatch.Recovery.Lease
import QuorumDispatch.DeliveryEvents.Merged
import QuorumDispatch.DeliveryEvents.RecoveryEmit
import QuorumDispatch.Attended.Composer
import QuorumDispatch.Attended.FireTrace
import QuorumDispatch.Screen.Changes
import QuorumDispatch.Screen.Pairing
import QuorumDispatch.Screen.Interning
import QuorumDispatch.Screen.StyleUse
import QuorumDispatch.Screen.AltScreen
import QuorumDispatch.Screen.LogicalText
import QuorumDispatch.Screen.TypedText
import QuorumDispatch.Server.Attach
import QuorumDispatch.Server.Delivery
import QuorumDispatch.Screen.HandOff
import QuorumDispatch.Screen.Shadow
import QuorumDispatch.Server.Presence
import QuorumDispatch.Registry.Claims
import QuorumDispatch.Registry.Rows
import QuorumDispatch.Protocol.Codec
import QuorumDispatch.Server.LogicalStream
import QuorumDispatch.Relay.Delivery
import QuorumDispatch.Relay.Verdict
import QuorumDispatch.Relay.Network
import QuorumDispatch.Lib.Links
import QuorumDispatch.Screen.Provenance
import QuorumDispatch.Screen.ProvenanceGrid
import QuorumDispatch.Screen.ProvenanceTerminal
import QuorumDispatch.Screen.ProvenanceAlt
import QuorumDispatch.Screen.ProvenancePrint
import QuorumDispatch.Screen.LogicalEdges
import QuorumDispatch.Acp.Host
import QuorumDispatch.Acp.Turns
import QuorumDispatch.Acp.Wire
import QuorumDispatch.Acp.Serve
import QuorumDispatch.Acp.Relay
import QuorumDispatch.Acp.Wait
import QuorumDispatch.Registry.NameFence
import QuorumDispatch.Acp.Resume
import QuorumDispatch.Lib.JsonScan
import QuorumDispatch.Telemetry.Stream
import QuorumDispatch.Telemetry.Observed
import QuorumDispatch.Kill.Process
import QuorumDispatch.Lib.Dialog
import QuorumDispatch.Kill.Reap
import QuorumDispatch.Kill.Safety
import QuorumDispatch.Lib.FirstWins
import QuorumDispatch.Sessions.Join
import QuorumDispatch.Sessions.Merge
import QuorumDispatch.Sessions.Order
import QuorumDispatch.Pi.TurnTracker
import QuorumDispatch.Codex.Inject
import QuorumDispatch.Codex.Sends
import QuorumDispatch.Lib.Fibers
import QuorumDispatch.Pty.Verify
import QuorumDispatch.Pty.Send
import QuorumDispatch.Pty.Contract
import QuorumDispatch.Pty.Landing
import QuorumDispatch.Pi.Rollout
import QuorumDispatch.Pi.Landing
import QuorumDispatch.Conformance.Journal
import QuorumDispatch.Conformance.JournalCheck
import QuorumDispatch.Conformance.JournalCalls
import QuorumDispatch.Conformance.Designations
import QuorumDispatch.Conformance.Eligibility
import QuorumDispatch.Client.InputFilter
import QuorumDispatch.Screen.Sgr
import QuorumDispatch.Dispositions.Summary
import QuorumDispatch.Attended.Scheduler
import QuorumDispatch.Submit.Discipline
import QuorumDispatch.Screen.VerticalResize
import QuorumDispatch.Screen.EditLocality
import QuorumDispatch.Screen.Marks
import QuorumDispatch.Screen.EditSequences
import QuorumDispatch.Events.Record
import QuorumDispatch.Events.Writer
import QuorumDispatch.Events.Files
import QuorumDispatch.Dispositions.Sends
import QuorumDispatch.Dispositions.OneBody
import QuorumDispatch.Dispositions.WireFormat
import QuorumDispatch.Lib.Calendar
import QuorumDispatch.Lib.Digits
import QuorumDispatch.Timefmt.Iso
import QuorumDispatch.Timefmt.Codec
import QuorumDispatch.Resolve.Resolver
import QuorumDispatch.Resolve.Unambiguous
import QuorumDispatch.Resolve.Handles
import QuorumDispatch.Lib.Fence
import QuorumDispatch.Setup.RcBlock
import QuorumDispatch.Setup.Upsert
import QuorumDispatch.Transcript.Jsonl
import QuorumDispatch.Transcript.Recovery
import QuorumDispatch.Transcript.Wait
import QuorumDispatch.Transcript.Search
import QuorumDispatch.Transcript.ReadSound
import QuorumDispatch.DeliveryEvents.FitLine
import QuorumDispatch.Gc.Trash
import QuorumDispatch.Gc.Kept
import QuorumDispatch.Gc.Undone
import QuorumDispatch.Kill.Descendants
import QuorumDispatch.Relay.Runs
import QuorumDispatch.Lib.Lossy
import QuorumDispatch.Registry.Tombstones
import QuorumDispatch.Relay.Request
import QuorumDispatch.Registry.RowJson
import QuorumDispatch.Relay.Framing
import QuorumDispatch.Kill.Arithmetic
import QuorumDispatch.Registry.DeadHolder
import QuorumDispatch.Acp.Residence
import QuorumDispatch.Adoption.Phases
import QuorumDispatch.Codex.Rollout
import QuorumDispatch.Conformance.Grid
import QuorumDispatch.Attended.SpoolFile
import QuorumDispatch.Lib.Backtrack
import QuorumDispatch.Lib.PrefixCode
import QuorumDispatch.Registry.ClaimNames
import QuorumDispatch.Submit.Chunks
import QuorumDispatch.Submit.StripAnsi
import QuorumDispatch.Kill.WrapperName
import QuorumDispatch.Pi.Sent
