import ContentProbe.Collector.Basic
import ContentProbe.Collector.CallTimeout
import ContentProbe.Collector.Opening
import ContentProbe.Collector.Registry
import ContentProbe.Collector.Timeline
import ContentProbe.ContentId.Basic
import ContentProbe.ContentId.Multibase
import ContentProbe.ContentId.Varint
import ContentProbe.Decimal.Shortest
import ContentProbe.Download
import ContentProbe.Json.Double
import ContentProbe.Json.Mended
import ContentProbe.Json.Reader
import ContentProbe.Json.Value
import ContentProbe.Json.Writer
import ContentProbe.Matcher.Basic
import ContentProbe.Matcher.Codec
import ContentProbe.Node.Client
import ContentProbe.Node.Reply
import ContentProbe.Node.Request
import ContentProbe.Proofs.Collector.Accounting
import ContentProbe.Proofs.Collector.CallTimeout
import ContentProbe.Proofs.Collector.Delivery
import ContentProbe.Proofs.Collector.Dumps
import ContentProbe.Proofs.Collector.Ownership
import ContentProbe.Proofs.Collector.Pace
import ContentProbe.Proofs.Collector.Steps
import ContentProbe.Proofs.Collector.Timers
import ContentProbe.Proofs.ContentId.Multibase
import ContentProbe.Proofs.ContentId.RawKey
import ContentProbe.Proofs.Decimal.Binary64
import ContentProbe.Proofs.Decimal.Shortest
import ContentProbe.Proofs.Download.Convergence
import ContentProbe.Proofs.Download.Discovery
import ContentProbe.Proofs.Download.Filtering
import ContentProbe.Proofs.Download.Providers
import ContentProbe.Proofs.Download.Readings
import ContentProbe.Proofs.Download.Runs
import ContentProbe.Proofs.Earliest
import ContentProbe.Proofs.Freezing
import ContentProbe.Proofs.Growth
import ContentProbe.Proofs.Isolation
import ContentProbe.Proofs.Json.Documents
import ContentProbe.Proofs.Json.Doubles
import ContentProbe.Proofs.Json.Grammar
import ContentProbe.Proofs.Json.Literals
import ContentProbe.Proofs.Json.Mended
import ContentProbe.Proofs.Json.Reading
import ContentProbe.Proofs.Matcher.Coverage
import ContentProbe.Proofs.Matcher.FirstHit
import ContentProbe.Proofs.Matcher.RoundTrip
import ContentProbe.Proofs.Matcher.TraceIdText
import ContentProbe.Proofs.Node.Addition
import ContentProbe.Proofs.Node.Members
import ContentProbe.Proofs.Node.Reset
import ContentProbe.Proofs.Rebatching
import ContentProbe.Proofs.Record.Directory
import ContentProbe.Proofs.Record.Fields
import ContentProbe.Proofs.Record.Framing
import ContentProbe.Proofs.Run.Armed
import ContentProbe.Proofs.Run.Clock
import ContentProbe.Proofs.Run.Deadline
import ContentProbe.Proofs.Run.Drain
import ContentProbe.Proofs.Run.Filtering
import ContentProbe.Proofs.Run.Hosting
import ContentProbe.Proofs.Run.Payload
import ContentProbe.Proofs.Run.Recorded
import ContentProbe.Proofs.Run.Returns
import ContentProbe.Proofs.Run.Rounds
import ContentProbe.Proofs.Run.Scenes
import ContentProbe.Proofs.Run.Schedule
import ContentProbe.Proofs.Run.Sleep
import ContentProbe.Proofs.Run.Transfer
import ContentProbe.Proofs.Run.Turns
import ContentProbe.Proofs.Settings.Blanks
import ContentProbe.Proofs.Store.Area
import ContentProbe.Proofs.Store.Contents
import ContentProbe.Proofs.Store.FirstWins
import ContentProbe.Proofs.Text.Denotation
import ContentProbe.Proofs.Text.Digits
import ContentProbe.Proofs.Text.Injectivity
import ContentProbe.Proofs.Text.Lines
import ContentProbe.Proofs.Text.Utf8
import ContentProbe.Proofs.Time.Tick
import ContentProbe.Proofs.Trace.Checks
import ContentProbe.Proofs.Trace.Conversion
import ContentProbe.Proofs.Trace.Documents
import ContentProbe.Proofs.Trace.Ids
import ContentProbe.Proofs.Upload.Convergence
import ContentProbe.Proofs.Upload.Filtering
import ContentProbe.Proofs.Upload.Runs
import ContentProbe.Record.Basic
import ContentProbe.Record.Codec
import ContentProbe.Record.Ledger
import ContentProbe.Record.Location
import ContentProbe.Rota
import ContentProbe.Run.Action
import ContentProbe.Run.Download
import ContentProbe.Run.Loop
import ContentProbe.Run.Probe
import ContentProbe.Run.Station
import ContentProbe.Run.Turn
import ContentProbe.Run.Upload
import ContentProbe.Settings.Address
import ContentProbe.Settings.Collector
import ContentProbe.Settings.Endpoint
import ContentProbe.Settings.Environment
import ContentProbe.Settings.Probe
import ContentProbe.Store
import ContentProbe.Text.Blank
import ContentProbe.Text.Bytes
import ContentProbe.Text.Digits
import ContentProbe.Text.Lines
import ContentProbe.Text.Printable
import ContentProbe.Text.Quoted
import ContentProbe.Time.Calendar
import ContentProbe.Time.Elapsed
import ContentProbe.Time.Stamp
import ContentProbe.Time.Tick
import ContentProbe.Trace.Dump
import ContentProbe.Trace.Ids
import ContentProbe.Trace.Names
import ContentProbe.Trace.Span
import ContentProbe.Trace.Wire
import ContentProbe.Upload
