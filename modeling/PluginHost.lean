import PluginHost.Call
import PluginHost.Call.Envelope
import PluginHost.Call.Peer
import PluginHost.Call.Protocol
import PluginHost.Call.Rest
import PluginHost.Call.Retry
import PluginHost.Call.Rpc
import PluginHost.Call.Wire
import PluginHost.CommandLine
import PluginHost.CommandLine.Arguments
import PluginHost.CommandLine.Check
import PluginHost.CommandLine.Note
import PluginHost.CommandLine.Serve
import PluginHost.Config
import PluginHost.Config.Decode
import PluginHost.Config.Encode
import PluginHost.Config.Load
import PluginHost.Container
import PluginHost.Digest.Block
import PluginHost.Digest.Check
import PluginHost.Digest.Md5
import PluginHost.Digest.Sha256
import PluginHost.Document
import PluginHost.EchoPlugin
import PluginHost.Error
import PluginHost.Http
import PluginHost.Http.MediaType
import PluginHost.Install
import PluginHost.Json.Number
import PluginHost.Json.Reader
import PluginHost.Json.Value
import PluginHost.Main
import PluginHost.NameMap
import PluginHost.Number.Double
import PluginHost.Number.Shortest
import PluginHost.Process.Child
import PluginHost.Process.KillSwitch
import PluginHost.Process.OutputTail
import PluginHost.Process.Runner
import PluginHost.Process.Table
import PluginHost.Registry
import PluginHost.Rehearsal
import PluginHost.Rehearsal.Arithmetic
import PluginHost.Rehearsal.Field
import PluginHost.Rehearsal.Format
import PluginHost.Rehearsal.Script
import PluginHost.Rehearsal.ScriptReader
import PluginHost.Rehearsal.ScriptReader.Mark
import PluginHost.Rehearsal.Shell
import PluginHost.Rehearsal.Shell.Builtin
import PluginHost.Rehearsal.Shell.Execution
import PluginHost.Rehearsal.Stream
import PluginHost.Rehearsal.Tools
import PluginHost.Rehearsal.Trial
import PluginHost.Schema
import PluginHost.Storage
import PluginHost.Supervisor
import PluginHost.Supervisor.Probe
import PluginHost.Supervisor.Session
import PluginHost.System
import PluginHost.Text.Hex
import PluginHost.Text.Printable
import PluginHost.Text.Quoted
import PluginHost.Text.Utf8
import PluginHost.Toml.Reader
import PluginHost.Toml.Scalar
import PluginHost.Toml.Table
import PluginHost.Toml.Text
import PluginHost.Proofs.Authorization
import PluginHost.Proofs.Forgetting
import PluginHost.Proofs.Interleaving
import PluginHost.Proofs.NameMap
import PluginHost.Proofs.Recovery
import PluginHost.Proofs.Sections
import PluginHost.Proofs.System.Frame
import PluginHost.Proofs.System.Killing
import PluginHost.Proofs.System.Starting
import PluginHost.Proofs.Calls
import PluginHost.Proofs.Custody
import PluginHost.Proofs.Hosts
import PluginHost.Proofs.System.Ending
import PluginHost.Proofs.Traffic
import PluginHost.Proofs.Handles
import PluginHost.Proofs.HostViews
import PluginHost.Proofs.StaleSignals
import PluginHost.Proofs.Supervision.Delivery
import PluginHost.Proofs.Text.Hex
import PluginHost.Proofs.Text.Utf8
import PluginHost.Proofs.Json.Written
import PluginHost.Proofs.Retry
import PluginHost.Proofs.Wire.Messages
import PluginHost.Proofs.Wire.Replies
import PluginHost.Proofs.Wire.Retrying
import PluginHost.Proofs.Wire.Transparency
import PluginHost.Proofs.Ports
import PluginHost.Proofs.Wire.Limit
import PluginHost.Proofs.Abandonment
import PluginHost.Proofs.Checking
import PluginHost.Proofs.Household
import PluginHost.Proofs.Json.Integers
import PluginHost.Proofs.Json.Values
import PluginHost.Proofs.Outliving
import PluginHost.Proofs.Schema
import PluginHost.Proofs.Serving
import PluginHost.Proofs.System.Children
import PluginHost.Proofs.Wire.Envelopes
import PluginHost.Proofs.Attempts
import PluginHost.Proofs.Text.Order
import PluginHost.Proofs.Installation
import PluginHost.Proofs.Setup
import PluginHost.Proofs.Startup.Targets
import PluginHost.Proofs.Startup.FirstCall
import PluginHost.Proofs.Startup.Course
import PluginHost.Proofs.System.Scene
import PluginHost.Proofs.Startup
import PluginHost.Proofs.Process.OneShot
import PluginHost.Proofs.Process.Life
import PluginHost.Proofs.System.Lives
import PluginHost.Proofs.System.BulkKilling
import PluginHost.Proofs.Supervision.Sessions
import PluginHost.Proofs.Process.OutputTail
import PluginHost.Proofs.Process.OutputText
import PluginHost.Proofs.Schema.Order
import PluginHost.Proofs.Schema.Trees
import PluginHost.Proofs.Toml.Trees
import PluginHost.Proofs.Config.Edits
import PluginHost.Proofs.Supervision.Ticking
import PluginHost.Proofs.Digest.WholeFile
import PluginHost.Proofs.Config.RoundTrip
import PluginHost.Proofs.Json.Grammar
import PluginHost.Proofs.Json.Accepted
import PluginHost.Proofs.Schema.Members
import PluginHost.Proofs.Wire.Extensions
