import RevisionWatch.Agent.Address
import RevisionWatch.Agent.Call
import RevisionWatch.Agent.Outcome
import RevisionWatch.Command.Arguments
import RevisionWatch.Command.Display
import RevisionWatch.Command.Log
import RevisionWatch.Command.Run
import RevisionWatch.Command.Script
import RevisionWatch.Config
import RevisionWatch.Config.Fields
import RevisionWatch.Config.Load
import RevisionWatch.Daemon.Client
import RevisionWatch.Daemon.Error
import RevisionWatch.Daemon.Exchange
import RevisionWatch.Daemon.Listing
import RevisionWatch.Decimal.Binary
import RevisionWatch.Decimal.Digits
import RevisionWatch.Decimal.Notation
import RevisionWatch.Decimal.Shortest
import RevisionWatch.Http.Reply
import RevisionWatch.Http.Request
import RevisionWatch.Http.Response
import RevisionWatch.Json.Document
import RevisionWatch.Json.Fields
import RevisionWatch.Json.Number
import RevisionWatch.Json.Printer
import RevisionWatch.Json.Reader
import RevisionWatch.Json.Skip
import RevisionWatch.Json.Text
import RevisionWatch.Json.Value
import RevisionWatch.Main
import RevisionWatch.Mismatch
import RevisionWatch.Package
import RevisionWatch.Package.Json
import RevisionWatch.Package.Yaml
import RevisionWatch.Proofs.Command.Effective
import RevisionWatch.Proofs.Command.Interrupt
import RevisionWatch.Proofs.Command.Iterations
import RevisionWatch.Proofs.Command.Sessions
import RevisionWatch.Proofs.Command.Shown
import RevisionWatch.Proofs.Config.Fields
import RevisionWatch.Proofs.Config.Files
import RevisionWatch.Proofs.Config.Sound
import RevisionWatch.Proofs.Config.Yaml
import RevisionWatch.Proofs.Daemon.Absent
import RevisionWatch.Proofs.Daemon.Agreement
import RevisionWatch.Proofs.Daemon.Asking
import RevisionWatch.Proofs.Daemon.Classified
import RevisionWatch.Proofs.Daemon.Connections
import RevisionWatch.Proofs.Daemon.CutOff
import RevisionWatch.Proofs.Daemon.Ignored
import RevisionWatch.Proofs.Daemon.Listed
import RevisionWatch.Proofs.Daemon.Neighbours
import RevisionWatch.Proofs.Daemon.Rejected
import RevisionWatch.Proofs.Daemon.Revisions
import RevisionWatch.Proofs.Decimal.Digits
import RevisionWatch.Proofs.Http.Chunks
import RevisionWatch.Proofs.Http.FirstValues
import RevisionWatch.Proofs.Http.Framing
import RevisionWatch.Proofs.Http.Numbers
import RevisionWatch.Proofs.Http.Positions
import RevisionWatch.Proofs.Http.Written
import RevisionWatch.Proofs.Json.Ahead
import RevisionWatch.Proofs.Json.Grammar
import RevisionWatch.Proofs.Json.Keepable
import RevisionWatch.Proofs.Json.Lines
import RevisionWatch.Proofs.Json.Meaning
import RevisionWatch.Proofs.Json.Members
import RevisionWatch.Proofs.Json.Named
import RevisionWatch.Proofs.Json.Printed
import RevisionWatch.Proofs.Json.Reading
import RevisionWatch.Proofs.Json.Skipped
import RevisionWatch.Proofs.Json.Steps
import RevisionWatch.Proofs.Json.Taking
import RevisionWatch.Proofs.Json.Texts
import RevisionWatch.Proofs.Json.Varying
import RevisionWatch.Proofs.Json.Whole
import RevisionWatch.Proofs.Package.Json
import RevisionWatch.Proofs.Revision
import RevisionWatch.Proofs.Text.Blank
import RevisionWatch.Proofs.Text.Delimiter
import RevisionWatch.Proofs.Text.Lines
import RevisionWatch.Proofs.Text.Order
import RevisionWatch.Proofs.Watch.Accounting
import RevisionWatch.Proofs.Watch.Backed
import RevisionWatch.Proofs.Watch.Bounded
import RevisionWatch.Proofs.Watch.Deciding
import RevisionWatch.Proofs.Watch.Heard
import RevisionWatch.Proofs.Watch.Indifferent
import RevisionWatch.Proofs.Watch.Moment
import RevisionWatch.Proofs.Watch.Pace
import RevisionWatch.Proofs.Watch.Quiet
import RevisionWatch.Proofs.Watch.Rounds
import RevisionWatch.Proofs.Watch.Stopping
import RevisionWatch.Proofs.Watch.Success
import RevisionWatch.Proofs.Watch.Ties
import RevisionWatch.Proofs.Watch.Timeline
import RevisionWatch.Proofs.Watch.Trace
import RevisionWatch.Proofs.Watch.Unsent
import RevisionWatch.Proofs.Watch.Unsignalled
import RevisionWatch.Proofs.Watch.Words
import RevisionWatch.Proofs.Yaml.Gaps
import RevisionWatch.Proofs.Yaml.Lines
import RevisionWatch.Proofs.Yaml.Literal
import RevisionWatch.Proofs.Yaml.Mapping
import RevisionWatch.Proofs.Yaml.Plain
import RevisionWatch.Proofs.Yaml.Quoted
import RevisionWatch.Proofs.Yaml.Styles
import RevisionWatch.Revision
import RevisionWatch.Text.Blank
import RevisionWatch.Text.Bytes
import RevisionWatch.Text.Quoted
import RevisionWatch.Text.Visible
import RevisionWatch.Text.Width
import RevisionWatch.Watch.Error
import RevisionWatch.Watch.Machine
import RevisionWatch.Watch.Session
import RevisionWatch.Watch.Signal
import RevisionWatch.Yaml.Cursor
import RevisionWatch.Yaml.Meaning
import RevisionWatch.Yaml.Node
import RevisionWatch.Yaml.Printer
import RevisionWatch.Yaml.Property
import RevisionWatch.Yaml.Scalar
import RevisionWatch.Yaml.Token
