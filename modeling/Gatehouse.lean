import Gatehouse.Address.Destination
import Gatehouse.Address.Ip
import Gatehouse.Address.Socket
import Gatehouse.Admission
import Gatehouse.Base64
import Gatehouse.Bytes
import Gatehouse.Capture.Desk
import Gatehouse.Capture.Intercept
import Gatehouse.Capture.Lending
import Gatehouse.Capture.Pool
import Gatehouse.CommandLine.Help
import Gatehouse.CommandLine.Options
import Gatehouse.Crypto.Aes
import Gatehouse.Crypto.Counter
import Gatehouse.Crypto.Curve
import Gatehouse.Crypto.Edwards
import Gatehouse.Crypto.Field
import Gatehouse.Crypto.Hmac
import Gatehouse.Crypto.Rsa
import Gatehouse.Crypto.Sha2
import Gatehouse.Crypto.Word
import Gatehouse.Gate.Command
import Gatehouse.Gate.Occupancy
import Gatehouse.Gate.Visit
import Gatehouse.Hello.Basic
import Gatehouse.Hello.Fields
import Gatehouse.Hello.Parse
import Gatehouse.Hello.Record
import Gatehouse.Hello.ServerName
import Gatehouse.Hex
import Gatehouse.Json.Basic
import Gatehouse.Json.Printer
import Gatehouse.Json.Reader
import Gatehouse.KeyTool.Command
import Gatehouse.KeyTool.Run
import Gatehouse.KeyTool.SharedFile
import Gatehouse.Lifecycle.Shutdown
import Gatehouse.Lifecycle.Startup
import Gatehouse.Lifecycle.Tasks
import Gatehouse.Main
import Gatehouse.Metrics.Basic
import Gatehouse.Metrics.Counter
import Gatehouse.Net.Backoff
import Gatehouse.Net.Clock
import Gatehouse.Net.Listener
import Gatehouse.Net.Slots
import Gatehouse.Net.Tracker
import Gatehouse.Pem
import Gatehouse.Proofs.Address.Destination
import Gatehouse.Proofs.Admission
import Gatehouse.Proofs.Base64
import Gatehouse.Proofs.Capture.Custody
import Gatehouse.Proofs.Capture.Interception
import Gatehouse.Proofs.Capture.Seam
import Gatehouse.Proofs.Capture.Sharing
import Gatehouse.Proofs.Capture.Standing
import Gatehouse.Proofs.Capture.Undecided
import Gatehouse.Proofs.Crypto.Widths
import Gatehouse.Proofs.Hello.Arrival
import Gatehouse.Proofs.Hello.Grammar
import Gatehouse.Proofs.Hello.Records
import Gatehouse.Proofs.Hello.Wire
import Gatehouse.Proofs.KeyTool.Agreement
import Gatehouse.Proofs.KeyTool.Rivalry
import Gatehouse.Proofs.Lifecycle.Launch
import Gatehouse.Proofs.Lifecycle.Waiting
import Gatehouse.Proofs.Net.Slots
import Gatehouse.Proofs.Occupancy
import Gatehouse.Proofs.Rdp.Exchange
import Gatehouse.Proofs.Rdp.Reading
import Gatehouse.Proofs.Rdp.Routing
import Gatehouse.Proofs.Reaction.Accounts
import Gatehouse.Proofs.Reaction.Carrying
import Gatehouse.Proofs.Reaction.Conduct
import Gatehouse.Proofs.Reaction.Course
import Gatehouse.Proofs.Reaction.Flow
import Gatehouse.Proofs.Reaction.Pumping
import Gatehouse.Proofs.Reaction.Reports
import Gatehouse.Proofs.Reaction.Serving
import Gatehouse.Proofs.Reaction.Standstill
import Gatehouse.Proofs.Reaction.Streams
import Gatehouse.Proofs.Reaction.Turns
import Gatehouse.Proofs.Reaction.Way
import Gatehouse.Proofs.Settings.Layers
import Gatehouse.Proofs.Settings.Limits
import Gatehouse.Proofs.Settings.Readiness
import Gatehouse.Proofs.Settings.Sections
import Gatehouse.Proofs.Settings.Wording
import Gatehouse.Proofs.Storage.Disk
import Gatehouse.Proofs.Storage.Replacement
import Gatehouse.Proofs.Stream.Pipe
import Gatehouse.Proofs.Ticket.Endurance
import Gatehouse.Proofs.Ticket.KeyFile
import Gatehouse.Proofs.Ticket.Listening
import Gatehouse.Proofs.Ticket.Material
import Gatehouse.Proofs.Ticket.Opening
import Gatehouse.Proofs.Ticket.Reload
import Gatehouse.Proofs.Ticket.Rotation
import Gatehouse.Proofs.Ticket.Sealing
import Gatehouse.Proofs.Ticket.Window
import Gatehouse.Proofs.Hello.ServerName
import Gatehouse.Proofs.Indifference
import Gatehouse.Proofs.Text.Utf8
import Gatehouse.Proofs.Undisturbed
import Gatehouse.Proofs.Visit
import Gatehouse.Rdp.Negotiation
import Gatehouse.Rdp.Request
import Gatehouse.Reaction.Alert
import Gatehouse.Reaction.Basic
import Gatehouse.Reaction.Execution
import Gatehouse.Reaction.Outcome
import Gatehouse.Reaction.Pump
import Gatehouse.Reaction.Relay
import Gatehouse.Rehearsal.Run
import Gatehouse.Rehearsal.Script
import Gatehouse.Rehearsal.Subjects
import Gatehouse.Settings.Basic
import Gatehouse.Settings.Document
import Gatehouse.Settings.Loading
import Gatehouse.Settings.Reading
import Gatehouse.Settings.Validation
import Gatehouse.Settings.Writing
import Gatehouse.Storage.Disk
import Gatehouse.Storage.Error
import Gatehouse.Storage.Replace
import Gatehouse.Stream.Deed
import Gatehouse.Stream.Pipe
import Gatehouse.Text.Binary64
import Gatehouse.Text.Blank
import Gatehouse.Text.Literal
import Gatehouse.Text.Lossy
import Gatehouse.Text.Number
import Gatehouse.Text.Unseen
import Gatehouse.Ticket.Issue
import Gatehouse.Ticket.Keeper
import Gatehouse.Ticket.Key
import Gatehouse.Ticket.KeyList
import Gatehouse.Ticket.Ring
import Gatehouse.Ticket.Schedule
import Gatehouse.Ticket.Workbench
import Gatehouse.Tls.Certificate
import Gatehouse.Tls.Der
import Gatehouse.Tls.Fitness
import Gatehouse.Tls.Identity
import Gatehouse.Tls.PrivateKey
import Gatehouse.Toml.Basic
import Gatehouse.Toml.Reader
import Gatehouse.Toml.Scalar
import Gatehouse.Watch
import Gatehouse.Proofs.Net.Backoff
import Gatehouse.Proofs.Hello.Reassembly
import Gatehouse.Proofs.Ticket.Timetable
import Gatehouse.Proofs.Net.Tracking
