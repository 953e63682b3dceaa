import CommitReports.Action
import CommitReports.Calendar
import CommitReports.CommandLine.Arguments
import CommitReports.CommandLine.Response
import CommitReports.Commit
import CommitReports.Digest.Sha1
import CommitReports.Discovery
import CommitReports.Failure
import CommitReports.Files.Basic
import CommitReports.Files.Replacement
import CommitReports.Git.Address
import CommitReports.Git.Authoring
import CommitReports.Git.Checkout
import CommitReports.Git.CommitText
import CommitReports.Git.Configuration
import CommitReports.Git.Delta
import CommitReports.Git.FastForward
import CommitReports.Git.Fetch
import CommitReports.Git.Object
import CommitReports.Git.Patch
import CommitReports.Git.RefName
import CommitReports.Git.Refresh
import CommitReports.Git.Refspec
import CommitReports.Git.Repository
import CommitReports.Git.RevisionName
import CommitReports.Git.Signature
import CommitReports.Git.Snapshot
import CommitReports.Git.Store
import CommitReports.Git.Walk
import CommitReports.Git.WorkingTree
import CommitReports.Git.Workspace
import CommitReports.Graph
import CommitReports.Graph.Order
import CommitReports.Heap
import CommitReports.History.Amended
import CommitReports.History.Basic
import CommitReports.History.Git
import CommitReports.History.Recorded
import CommitReports.LineDiff.Groups
import CommitReports.LineDiff.Hunk
import CommitReports.LineDiff.Marks
import CommitReports.LineDiff.Midpoint
import CommitReports.Mail
import CommitReports.Main
import CommitReports.Note
import CommitReports.Number.Double
import CommitReports.Path
import CommitReports.Proofs.Action.Contract
import CommitReports.Proofs.Action.Invariant
import CommitReports.Proofs.Action.Simulation
import CommitReports.Proofs.Calendar.Gregorian
import CommitReports.Proofs.Calendar.Reading
import CommitReports.Proofs.Chronicle.Basic
import CommitReports.Proofs.Chronicle.Coverage
import CommitReports.Proofs.Chronicle.Once
import CommitReports.Proofs.Commit.Calls
import CommitReports.Proofs.Commit.Handles
import CommitReports.Proofs.Commit.Queries
import CommitReports.Proofs.Files.Directory
import CommitReports.Proofs.Files.Interrupted
import CommitReports.Proofs.Files.Masked
import CommitReports.Proofs.Files.Overwriting
import CommitReports.Proofs.Files.Replacement
import CommitReports.Proofs.Files.Walk
import CommitReports.Proofs.Git.Abbreviation
import CommitReports.Proofs.Git.Branch
import CommitReports.Proofs.Git.Changes
import CommitReports.Proofs.Git.CommitText
import CommitReports.Proofs.Git.Discovery
import CommitReports.Proofs.Git.FastForward
import CommitReports.Proofs.Git.FollowsHead
import CommitReports.Proofs.Git.Head
import CommitReports.Proofs.Git.LocalCommits
import CommitReports.Proofs.Git.RefName
import CommitReports.Proofs.Git.Report
import CommitReports.Proofs.Git.RevisionName
import CommitReports.Proofs.Git.Snapshot
import CommitReports.Proofs.Git.Spelling
import CommitReports.Proofs.Git.Standing
import CommitReports.Proofs.Git.Summary
import CommitReports.Proofs.Git.Untracked
import CommitReports.Proofs.Git.Walk
import CommitReports.Proofs.Git.WorkingTree
import CommitReports.Proofs.Graph.Listing
import CommitReports.Proofs.Graph.Reach
import CommitReports.Proofs.Graph.Search
import CommitReports.Proofs.History.Answers
import CommitReports.Proofs.History.Logged
import CommitReports.Proofs.History.Oblivious
import CommitReports.Proofs.History.Overheard
import CommitReports.Proofs.History.Question
import CommitReports.Proofs.History.Simulation
import CommitReports.Proofs.Path.Components
import CommitReports.Proofs.Path.Segments
import CommitReports.Proofs.Recorded.Ancestors
import CommitReports.Proofs.Recorded.Answers
import CommitReports.Proofs.Recorded.Consistent
import CommitReports.Proofs.Recorded.Discovery
import CommitReports.Proofs.Recorded.WellKept
import CommitReports.Proofs.Report.Compose
import CommitReports.Proofs.Report.Header
import CommitReports.Proofs.Report.Render
import CommitReports.Proofs.Run.Distinct
import CommitReports.Proofs.Run.DryRun
import CommitReports.Proofs.Run.Failure
import CommitReports.Proofs.Run.Header
import CommitReports.Proofs.Run.Independent
import CommitReports.Proofs.Run.Questions
import CommitReports.Proofs.Run.Repeated
import CommitReports.Proofs.Run.Simulation
import CommitReports.Proofs.Run.Spelling
import CommitReports.Proofs.Run.Success
import CommitReports.Proofs.Run.Verified
import CommitReports.Proofs.Run.Work
import CommitReports.Proofs.Settings.Anchoring
import CommitReports.Proofs.Settings.Verdict
import CommitReports.Proofs.Sink.Postbox
import CommitReports.Proofs.Sink.Tallied
import CommitReports.Proofs.Sink.Watched
import CommitReports.Proofs.Text.Fields
import CommitReports.Proofs.Text.Lines
import CommitReports.Proofs.Text.Pieces
import CommitReports.Proofs.Toml.Keys
import CommitReports.Proofs.Watermarks.Loading
import CommitReports.Proofs.Watermarks.Marks
import CommitReports.Proofs.Watermarks.Pinned
import CommitReports.Proofs.Watermarks.RoundTrip
import CommitReports.Proofs.Watermarks.Saving
import CommitReports.Proofs.Watermarks.Verdict
import CommitReports.Report
import CommitReports.Revision
import CommitReports.Run
import CommitReports.Settings.Basic
import CommitReports.Settings.Error
import CommitReports.Settings.Expansion
import CommitReports.Settings.Load
import CommitReports.Shell.Run
import CommitReports.Shell.Script
import CommitReports.Shell.Tools
import CommitReports.Sink
import CommitReports.Summary
import CommitReports.SystemError
import CommitReports.Text.Alphanumeric
import CommitReports.Text.Blank
import CommitReports.Text.Hexadecimal
import CommitReports.Text.Lines
import CommitReports.Text.Quoted
import CommitReports.Text.RangeTable
import CommitReports.Text.Styled
import CommitReports.Text.Utf8
import CommitReports.Text.Visible
import CommitReports.Toml.Document
import CommitReports.Toml.Scalar
import CommitReports.Toml.Table
import CommitReports.Toml.Text
import CommitReports.Toml.Value
import CommitReports.Watermarks
