import TargetGen.Build.Discovery
import TargetGen.Build.Phases
import TargetGen.Build.Report
import TargetGen.Build.Run
import TargetGen.Config
import TargetGen.Config.Allowlist
import TargetGen.Conversion.Basic
import TargetGen.Conversion.Run
import TargetGen.Decision
import TargetGen.Describe
import TargetGen.Describe.Invisible
import TargetGen.Distinct
import TargetGen.Error
import TargetGen.Expansion
import TargetGen.External.Builder
import TargetGen.External.Query
import TargetGen.External.Status
import TargetGen.Glob.Match
import TargetGen.Glob.Pattern
import TargetGen.Graph.Basic
import TargetGen.Graph.Countdown
import TargetGen.Graph.Failure
import TargetGen.Graph.Level
import TargetGen.Graph.Loader
import TargetGen.Graph.Search
import TargetGen.Json.Reader
import TargetGen.Json.Records
import TargetGen.Json.Value
import TargetGen.Json.Writer
import TargetGen.Label
import TargetGen.Label.List
import TargetGen.Module
import TargetGen.Ordered
import TargetGen.Package
import TargetGen.Package.Scan
import TargetGen.Path
import TargetGen.Phase.Basic
import TargetGen.Phase.Run
import TargetGen.Provider
import TargetGen.Reference
import TargetGen.Registry
import TargetGen.SourceTree.Basic
import TargetGen.SourceTree.Disk
import TargetGen.SourceTree.Listing
import TargetGen.Target
import TargetGen.Text
import TargetGen.Proofs.Reference
import TargetGen.Proofs.Graph.Frame
import TargetGen.Proofs.Graph.Propagation
import TargetGen.Proofs.Phase.Visit
import TargetGen.Proofs.Phase.Run
import TargetGen.Proofs.Build.Distribution
import TargetGen.Proofs.Build.Failure
import TargetGen.Proofs.Build.Fault
import TargetGen.Proofs.Package
import TargetGen.Proofs.Expansion.File
import TargetGen.Proofs.Glob
import TargetGen.Proofs.Label
import TargetGen.Proofs.Expansion.Plain
import TargetGen.Proofs.Phase.History
import TargetGen.Proofs.Phase.Order
import TargetGen.Proofs.External
import TargetGen.Proofs.Build.Answers
import TargetGen.Proofs.Build.Report
import TargetGen.Proofs.Conversion
import TargetGen.Proofs.Build.References
import TargetGen.Proofs.Build.Dependencies
import TargetGen.Proofs.Graph.Cycle
import TargetGen.Proofs.Phase.Additions
import TargetGen.Proofs.Build.Ordering
import TargetGen.Proofs.Graph.Alike
import TargetGen.Proofs.Phase.Commits
import TargetGen.Proofs.Build.Missing
import TargetGen.Proofs.Build.Targets
import TargetGen.Proofs.Phase.Accounts
import TargetGen.Proofs.Build.Growth
import TargetGen.Proofs.Graph.Level
import TargetGen.Proofs.Graph.Countdown
import TargetGen.Proofs.SourceTree.Steps
import TargetGen.Proofs.SourceTree.Disk
import TargetGen.Proofs.SourceTree.Tree
import TargetGen.Proofs.SourceTree.Agreement
import TargetGen.Proofs.Graph.Distance
import TargetGen.Proofs.Graph.Search
import TargetGen.Proofs.Package.Resolution
import TargetGen.Proofs.Build.Discovery
import TargetGen.Proofs.Build.Names
import TargetGen.Proofs.Expansion.Address
import TargetGen.Proofs.Expansion.Record
import TargetGen.Proofs.Config.DirDefault
import TargetGen.Proofs.Decision
import TargetGen.Proofs.Graph.Loader
import TargetGen.Proofs.Json.Text
import TargetGen.Proofs.Json.Records
import TargetGen.Proofs.Target.Quote
import TargetGen.Proofs.Target.BuildFile
import TargetGen.Proofs.Path.Algebra
import TargetGen.Proofs.Label.History
import TargetGen.Graph.EdgeStore
import TargetGen.Proofs.Graph.EdgeStore
import TargetGen.Proofs.Expansion.Gathering
import TargetGen.Proofs.Expansion.Qualified
