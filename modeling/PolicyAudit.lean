import PolicyAudit.Calendar.Date
import PolicyAudit.Calendar.Moment
import PolicyAudit.Calendar.Rfc3339
import PolicyAudit.Check.Checked
import PolicyAudit.Check.Record
import PolicyAudit.Check.Scalar
import PolicyAudit.Cluster.Access
import PolicyAudit.Cluster.Listing
import PolicyAudit.Command.Run
import PolicyAudit.Command.Settings
import PolicyAudit.Command.Snapshot
import PolicyAudit.Document.Literal
import PolicyAudit.Document.Value
import PolicyAudit.Hash
import PolicyAudit.Json.Printer
import PolicyAudit.Json.Reader
import PolicyAudit.Json.Standard
import PolicyAudit.Labels
import PolicyAudit.Log
import PolicyAudit.Main
import PolicyAudit.Manifest.Load
import PolicyAudit.Manifest.Location
import PolicyAudit.Manifest.Tree
import PolicyAudit.Number.Binary64
import PolicyAudit.Number.Shortest
import PolicyAudit.Priority
import PolicyAudit.Proofs.Calendar.Count
import PolicyAudit.Proofs.Calendar.Date
import PolicyAudit.Proofs.Calendar.Digits
import PolicyAudit.Proofs.Calendar.Instant
import PolicyAudit.Proofs.Calendar.Moment
import PolicyAudit.Proofs.Calendar.Order
import PolicyAudit.Proofs.Check.Maps
import PolicyAudit.Proofs.Check.Reading
import PolicyAudit.Proofs.Check.Restore
import PolicyAudit.Proofs.Check.Rewriting
import PolicyAudit.Proofs.Cluster.Conserved
import PolicyAudit.Proofs.Cluster.Items
import PolicyAudit.Proofs.Cluster.Kinds
import PolicyAudit.Proofs.Cluster.Listing
import PolicyAudit.Proofs.Cluster.Outcome
import PolicyAudit.Proofs.Command.Failing
import PolicyAudit.Proofs.Command.Listings
import PolicyAudit.Proofs.Command.Reading
import PolicyAudit.Proofs.Command.Rendering
import PolicyAudit.Proofs.Command.Skipping
import PolicyAudit.Proofs.Document.Form
import PolicyAudit.Proofs.Document.Plain
import PolicyAudit.Proofs.Document.Timely
import PolicyAudit.Proofs.Hash.Integers
import PolicyAudit.Proofs.Hash.Windows
import PolicyAudit.Proofs.Json.Decoding
import PolicyAudit.Proofs.Json.Quoted
import PolicyAudit.Proofs.Json.Rows
import PolicyAudit.Proofs.Json.Timely
import PolicyAudit.Proofs.Manifest.Documents
import PolicyAudit.Proofs.Manifest.Fresh
import PolicyAudit.Proofs.Manifest.Grouping
import PolicyAudit.Proofs.Manifest.InTurn
import PolicyAudit.Proofs.Manifest.Outcome
import PolicyAudit.Proofs.Manifest.Visits
import PolicyAudit.Proofs.Number.Nearness
import PolicyAudit.Proofs.Number.Rounding
import PolicyAudit.Proofs.Report.Agreement
import PolicyAudit.Proofs.Report.Concatenated
import PolicyAudit.Proofs.Report.Consistent
import PolicyAudit.Proofs.Report.Content
import PolicyAudit.Proofs.Report.Counting
import PolicyAudit.Proofs.Report.Dated
import PolicyAudit.Proofs.Report.Edited
import PolicyAudit.Proofs.Report.Emission
import PolicyAudit.Proofs.Report.Entry
import PolicyAudit.Proofs.Report.Exact
import PolicyAudit.Proofs.Report.Fields
import PolicyAudit.Proofs.Report.FirstSeen
import PolicyAudit.Proofs.Report.Fresh
import PolicyAudit.Proofs.Report.Kept
import PolicyAudit.Proofs.Report.Kinds
import PolicyAudit.Proofs.Report.Lines
import PolicyAudit.Proofs.Report.Narrow
import PolicyAudit.Proofs.Report.Payload
import PolicyAudit.Proofs.Report.Restore
import PolicyAudit.Proofs.Report.RoundTrip
import PolicyAudit.Proofs.Report.Rows
import PolicyAudit.Proofs.Report.Settled
import PolicyAudit.Proofs.Report.Variants
import PolicyAudit.Proofs.Session.Change
import PolicyAudit.Proofs.Session.Counters
import PolicyAudit.Proofs.Session.Edits
import PolicyAudit.Proofs.Session.Effects
import PolicyAudit.Proofs.Session.Emission
import PolicyAudit.Proofs.Session.Filtering
import PolicyAudit.Proofs.Session.Identity
import PolicyAudit.Proofs.Session.Nesting
import PolicyAudit.Proofs.Session.Reading
import PolicyAudit.Proofs.Session.Run
import PolicyAudit.Proofs.Session.SharedIdentity
import PolicyAudit.Proofs.Session.Sharing
import PolicyAudit.Proofs.Yaml.Timely
import PolicyAudit.Report.Basic
import PolicyAudit.Report.Filter
import PolicyAudit.Report.Finding
import PolicyAudit.Report.Json
import PolicyAudit.Report.Metadata
import PolicyAudit.Report.Reference
import PolicyAudit.Report.Tally
import PolicyAudit.Report.Text
import PolicyAudit.Report.Timestamp
import PolicyAudit.Session.Finding
import PolicyAudit.Session.Reports
import PolicyAudit.Session.Tally
import PolicyAudit.Text.Base64
import PolicyAudit.Text.Character
import PolicyAudit.Text.Layout
import PolicyAudit.Text.Printable
import PolicyAudit.Text.Quoted
import PolicyAudit.Yaml.Content
import PolicyAudit.Yaml.Directive
import PolicyAudit.Yaml.Document
import PolicyAudit.Yaml.Node
import PolicyAudit.Yaml.Node.Reader
import PolicyAudit.Yaml.Number
import PolicyAudit.Yaml.Property
import PolicyAudit.Yaml.Scalar.Block
import PolicyAudit.Yaml.Scalar.Plain
import PolicyAudit.Yaml.Scalar.Quoted
import PolicyAudit.Yaml.Spot
import PolicyAudit.Yaml.Tag
import PolicyAudit.Yaml.Token
import PolicyAudit.Yaml.Token.Scan
