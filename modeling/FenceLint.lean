import FenceLint.Act
import FenceLint.Artifact.Area
import FenceLint.Artifact.Name
import FenceLint.Backend
import FenceLint.Block
import FenceLint.Checker.Basic
import FenceLint.Checker.Run
import FenceLint.CommandLine.Help
import FenceLint.CommandLine.Options
import FenceLint.CommandLine.Run
import FenceLint.CommandLine.Switch
import FenceLint.Decimal.Binary
import FenceLint.Decimal.Digits
import FenceLint.Decimal.Fixed
import FenceLint.Decimal.Numeral
import FenceLint.Decimal.Shortest
import FenceLint.Diagram.Label
import FenceLint.Disk.Basic
import FenceLint.Disk.Path
import FenceLint.Duration
import FenceLint.Engine.Basic
import FenceLint.Engine.Check
import FenceLint.Engine.Config
import FenceLint.Engine.Locate
import FenceLint.Engine.Machine
import FenceLint.Error
import FenceLint.Failure
import FenceLint.Fault
import FenceLint.Fence
import FenceLint.Glob.Expand
import FenceLint.Glob.Pattern
import FenceLint.Harness.Child
import FenceLint.Harness.Session
import FenceLint.Harness.Stream
import FenceLint.Harness.Wire
import FenceLint.Json.Parser
import FenceLint.Json.Printer
import FenceLint.Json.Token
import FenceLint.Json.Value
import FenceLint.Log.Filter
import FenceLint.Log.Format
import FenceLint.Log.Layout
import FenceLint.Log.Record
import FenceLint.Log.Setup
import FenceLint.Log.Target
import FenceLint.Main
import FenceLint.Outcome
import FenceLint.Proofs.Artifact.Folder
import FenceLint.Proofs.Artifact.Name
import FenceLint.Proofs.Backend
import FenceLint.Proofs.Checker.Artifacts
import FenceLint.Proofs.Checker.Conservation
import FenceLint.Proofs.Checker.Coverage
import FenceLint.Proofs.Checker.Documents
import FenceLint.Proofs.Checker.Files
import FenceLint.Proofs.Checker.Service
import FenceLint.Proofs.Checker.Setup
import FenceLint.Proofs.Checker.Step
import FenceLint.Proofs.Checker.Validation
import FenceLint.Proofs.Checker.Visits
import FenceLint.Proofs.Checker.Watch
import FenceLint.Proofs.CommandLine.Answer
import FenceLint.Proofs.CommandLine.Ending
import FenceLint.Proofs.CommandLine.Output
import FenceLint.Proofs.CommandLine.Selection
import FenceLint.Proofs.CommandLine.Stages
import FenceLint.Proofs.CommandLine.Status
import FenceLint.Proofs.Diagram.OpeningWord
import FenceLint.Proofs.Disk.Path
import FenceLint.Proofs.Disk.Tree
import FenceLint.Proofs.Disk.Walk
import FenceLint.Proofs.Engine.Candidates
import FenceLint.Proofs.Engine.Isolation
import FenceLint.Proofs.Engine.Lifecycle
import FenceLint.Proofs.Engine.Opening
import FenceLint.Proofs.Engine.Progress
import FenceLint.Proofs.Engine.Provenance
import FenceLint.Proofs.Engine.Step
import FenceLint.Proofs.Fence.Decomposition
import FenceLint.Proofs.Fence.LineEnds
import FenceLint.Proofs.Fence.Seam
import FenceLint.Proofs.Fence.Sections
import FenceLint.Proofs.Glob.Pattern
import FenceLint.Proofs.Glob.Search
import FenceLint.Proofs.Harness.Exchange
import FenceLint.Proofs.Harness.Framing
import FenceLint.Proofs.Harness.Handshake
import FenceLint.Proofs.Harness.Reader
import FenceLint.Proofs.Harness.Rejection
import FenceLint.Proofs.Json.Fragments
import FenceLint.Proofs.Json.Layout
import FenceLint.Proofs.Json.RoundTrip
import FenceLint.Proofs.Json.Token
import FenceLint.Proofs.Json.Units
import FenceLint.Proofs.Related
import FenceLint.Proofs.Report.Ink
import FenceLint.Proofs.Report.Lines
import FenceLint.Proofs.Report.Record
import FenceLint.Proofs.Report.Rendering
import FenceLint.Proofs.Report.Totals
import FenceLint.Proofs.Targets.Expansion
import FenceLint.Proofs.Targets.OwnPath
import FenceLint.Proofs.Targets.Scan
import FenceLint.Proofs.Text.Bytes
import FenceLint.Proofs.Text.Rows
import FenceLint.Report.Collection
import FenceLint.Report.Document
import FenceLint.Report.Encoding
import FenceLint.Report.Printer
import FenceLint.Site
import FenceLint.Targets.Basic
import FenceLint.Targets.Scan
import FenceLint.Text.Blank
import FenceLint.Text.Lines
import FenceLint.Text.Pieces
import FenceLint.Text.Quoted
import FenceLint.Text.Shapeless
import FenceLint.Verdict
