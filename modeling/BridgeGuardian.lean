import BridgeGuardian.Address
import BridgeGuardian.Archive
import BridgeGuardian.Bytes
import BridgeGuardian.Bytes.Base64
import BridgeGuardian.Bytes.Fields
import BridgeGuardian.Bytes.Hex
import BridgeGuardian.Configuration.Basic
import BridgeGuardian.Configuration.Document
import BridgeGuardian.Configuration.Environment
import BridgeGuardian.Configuration.EnvironmentFile
import BridgeGuardian.Configuration.Redacted
import BridgeGuardian.Coordinate
import BridgeGuardian.Crypto.Keccak
import BridgeGuardian.Crypto.Secp256k1
import BridgeGuardian.Deployment
import BridgeGuardian.DigestCache
import BridgeGuardian.Failure
import BridgeGuardian.Gap
import BridgeGuardian.Governance.Injection
import BridgeGuardian.Governance.Payload
import BridgeGuardian.Governance.Request
import BridgeGuardian.Governance.Wire
import BridgeGuardian.Guardians
import BridgeGuardian.Http.Admin
import BridgeGuardian.Http.MediaType
import BridgeGuardian.Http.Message
import BridgeGuardian.Http.Path
import BridgeGuardian.Http.Public
import BridgeGuardian.Intake
import BridgeGuardian.Json.Basic
import BridgeGuardian.Json.Double
import BridgeGuardian.Json.Embedded
import BridgeGuardian.Json.Parser
import BridgeGuardian.Json.Printer
import BridgeGuardian.Json.Shape
import BridgeGuardian.Json.Token
import BridgeGuardian.Polling
import BridgeGuardian.Program
import BridgeGuardian.Proofs.Archive
import BridgeGuardian.Proofs.Archive.History
import BridgeGuardian.Proofs.Archive.Undoing
import BridgeGuardian.Proofs.Bytes
import BridgeGuardian.Proofs.Configured
import BridgeGuardian.Proofs.Configured.Announced
import BridgeGuardian.Proofs.Configured.Variables
import BridgeGuardian.Proofs.Coordinate
import BridgeGuardian.Proofs.DigestCache
import BridgeGuardian.Proofs.DigestCache.Fifo
import BridgeGuardian.Proofs.DigestCache.Queue
import BridgeGuardian.Proofs.Duplicates
import BridgeGuardian.Proofs.Envelope
import BridgeGuardian.Proofs.Fields
import BridgeGuardian.Proofs.Fields.Layout
import BridgeGuardian.Proofs.Gap
import BridgeGuardian.Proofs.Gap.Exact
import BridgeGuardian.Proofs.Governance.Announcement
import BridgeGuardian.Proofs.Governance.Directives
import BridgeGuardian.Proofs.Governance.Handover
import BridgeGuardian.Proofs.Governance.Injected
import BridgeGuardian.Proofs.Governance.ModuleNames
import BridgeGuardian.Proofs.Governance.Orders
import BridgeGuardian.Proofs.Governance.Returns
import BridgeGuardian.Proofs.Governance.Succession
import BridgeGuardian.Proofs.Governance.Written
import BridgeGuardian.Proofs.Guardians
import BridgeGuardian.Proofs.Hex
import BridgeGuardian.Proofs.Hex.Spelling
import BridgeGuardian.Proofs.Intake
import BridgeGuardian.Proofs.Intake.Rejected
import BridgeGuardian.Proofs.Json.Depth
import BridgeGuardian.Proofs.Json.Places
import BridgeGuardian.Proofs.Json.Printed
import BridgeGuardian.Proofs.Json.Records
import BridgeGuardian.Proofs.Json.Spelled
import BridgeGuardian.Proofs.Listing
import BridgeGuardian.Proofs.Numeral
import BridgeGuardian.Proofs.Outcome
import BridgeGuardian.Proofs.Polling
import BridgeGuardian.Proofs.Quorum
import BridgeGuardian.Proofs.Recovery.Backfill
import BridgeGuardian.Proofs.Recovery.Backfilled
import BridgeGuardian.Proofs.Recovery.Destination
import BridgeGuardian.Proofs.Recovery.Honest
import BridgeGuardian.Proofs.Recovery.Marked
import BridgeGuardian.Proofs.Recovery.Missing
import BridgeGuardian.Proofs.Recovery.Reported
import BridgeGuardian.Proofs.Recovery.Serving
import BridgeGuardian.Proofs.Recovery.Spelled
import BridgeGuardian.Proofs.Recovery.Stored
import BridgeGuardian.Proofs.Recovery.Submitted
import BridgeGuardian.Proofs.Recovery.Turns
import BridgeGuardian.Proofs.Recovery.Undo
import BridgeGuardian.Proofs.Reordering
import BridgeGuardian.Proofs.Signing
import BridgeGuardian.Proofs.Site.Basic
import BridgeGuardian.Proofs.Site.Claimed
import BridgeGuardian.Proofs.Site.Served
import BridgeGuardian.Proofs.Site.Verified
import BridgeGuardian.Proofs.Storage
import BridgeGuardian.Proofs.Table
import BridgeGuardian.Proofs.Transcript
import BridgeGuardian.Proofs.Transfer
import BridgeGuardian.Proofs.Truncation
import BridgeGuardian.Proofs.Unreachable
import BridgeGuardian.Proofs.Watch.Classified
import BridgeGuardian.Proofs.Watch.Confirmed
import BridgeGuardian.Proofs.Watch.Cycle
import BridgeGuardian.Proofs.Watch.Encodings
import BridgeGuardian.Proofs.Watch.Ledger
import BridgeGuardian.Proofs.Watch.LookedUp
import BridgeGuardian.Proofs.Watch.Monotone
import BridgeGuardian.Proofs.Watch.Ranges
import BridgeGuardian.Proofs.Watch.Reading
import BridgeGuardian.Proofs.Watch.Reencoded
import BridgeGuardian.Proofs.Watch.Rounds
import BridgeGuardian.Proofs.Watch.Schedule
import BridgeGuardian.Proofs.Watch.Talk
import BridgeGuardian.Proofs.Work
import BridgeGuardian.Recovery.Backfill
import BridgeGuardian.Recovery.Missing
import BridgeGuardian.Recovery.Request
import BridgeGuardian.Recovery.Undo
import BridgeGuardian.Rounding
import BridgeGuardian.Storage
import BridgeGuardian.Surroundings
import BridgeGuardian.Table
import BridgeGuardian.Telemetry.Magnitude
import BridgeGuardian.Telemetry.Measurement
import BridgeGuardian.Telemetry.Register
import BridgeGuardian.Text.Alphanumeric
import BridgeGuardian.Text.Blank
import BridgeGuardian.Text.Form
import BridgeGuardian.Text.Numeral
import BridgeGuardian.Text.Quoted
import BridgeGuardian.Text.SocketAddress
import BridgeGuardian.Text.Unprintable
import BridgeGuardian.Transfer
import BridgeGuardian.Vaa
import BridgeGuardian.Watch.Confirmation
import BridgeGuardian.Watch.Cycle
import BridgeGuardian.Watch.Event
import BridgeGuardian.Watch.Failure
import BridgeGuardian.Watch.Node
import BridgeGuardian.Watch.Post
