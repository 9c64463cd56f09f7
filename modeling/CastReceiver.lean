import CastReceiver.Clients
import CastReceiver.Decision
import CastReceiver.Event.Basic
import CastReceiver.Event.Report
import CastReceiver.Gate
import CastReceiver.Hub.Basic
import CastReceiver.Json.Printer
import CastReceiver.Machine.Controller
import CastReceiver.Machine.Snapshot
import CastReceiver.Main
import CastReceiver.Peer
import CastReceiver.Phase
import CastReceiver.Player
import CastReceiver.Power
import CastReceiver.Radio
import CastReceiver.Server.Options
import CastReceiver.Server.Settings
import CastReceiver.Service.Connection
import CastReceiver.Service.Route
import CastReceiver.Settings
import CastReceiver.Text.Blank
import CastReceiver.Timer.Drill
import CastReceiver.Yaml.Node
import CastReceiver.Yaml.Scalar
import CastReceiver.Yaml.Source
import CastReceiver.Yaml.Text
import CastReceiver.Yaml.Token
import CastReceiver.Proofs.Discipline
import CastReceiver.Proofs.Session.Operations
import CastReceiver.Proofs.Session.Pending
import CastReceiver.Proofs.Session.Launching
import CastReceiver.Proofs.Session.Acceptance
import CastReceiver.Proofs.Session.Seats
import CastReceiver.Proofs.Discovery.Conditions
import CastReceiver.Proofs.Discovery.Operations
import CastReceiver.Proofs.Discovery.Steadiness
import CastReceiver.Proofs.Discovery.QuietRuns
import CastReceiver.Proofs.Commands
import CastReceiver.Proofs.Session.Succession
import CastReceiver.Proofs.Discovery.Advertising
import CastReceiver.Proofs.Session.Deadline
import CastReceiver.Proofs.Upkeep
import CastReceiver.Proofs.Session.Negotiation
import CastReceiver.Proofs.Session.Vigilance
import CastReceiver.Proofs.Nesting
import CastReceiver.Proofs.Session.Refusals
import CastReceiver.Proofs.LateAlarms
import CastReceiver.Proofs.Discovery.Changes
import CastReceiver.Proofs.Discovery.Sleep
import CastReceiver.Proofs.Session.Trace
import CastReceiver.Proofs.Session.Overtaking
import CastReceiver.Proofs.Session.Bids
import CastReceiver.Proofs.Tally
import CastReceiver.Proofs.Session.Naming
import CastReceiver.Proofs.Session.Automatic
import CastReceiver.Proofs.Service.Stream
import CastReceiver.Proofs.Spelling.LetterCase
import CastReceiver.Proofs.Json.Containers
import CastReceiver.Proofs.Service.Requests
import CastReceiver.Proofs.Shutdown
import CastReceiver.Proofs.Json.Tagged
import CastReceiver.Proofs.Json.Objects
import CastReceiver.Proofs.Service.Intake
import CastReceiver.Proofs.Session.Endings
import CastReceiver.Proofs.Session.DirectLaunch
import CastReceiver.Proofs.FriendlyName.Lookups
import CastReceiver.Proofs.Standby.Effect
import CastReceiver.Proofs.Server.Environment
import CastReceiver.Proofs.Clients
import CastReceiver.Proofs.Hub.Delivery
import CastReceiver.Proofs.Timer.Punctuality
