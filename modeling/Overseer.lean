import Overseer.Assoc
import Overseer.Check.Result
import Overseer.Check.Run
import Overseer.CommandLine.Grammar
import Overseer.CommandLine.Invocation
import Overseer.CommandLine.Reading
import Overseer.CommandLine.Report
import Overseer.CommandLine.Run
import Overseer.Daemon.Command
import Overseer.Daemon.Handle
import Overseer.Daemon.Lifecycle
import Overseer.Diagnostic
import Overseer.Digest.Md5
import Overseer.Document
import Overseer.Fault.Basic
import Overseer.Fault.Class
import Overseer.Fault.Failure
import Overseer.Files.Lookup
import Overseer.Files.Resolve
import Overseer.Files.Tree
import Overseer.Fragment.Basic
import Overseer.Fragment.LineMap
import Overseer.Fragment.Rebase
import Overseer.Json.Basic
import Overseer.Json.Loose
import Overseer.Json.Reader
import Overseer.Json.Writer
import Overseer.Libraries
import Overseer.Log
import Overseer.Log.Setup
import Overseer.Main
import Overseer.Notebook
import Overseer.Number.Binary64
import Overseer.Output.Finding
import Overseer.Output.Line
import Overseer.Output.Link
import Overseer.Output.Report
import Overseer.Path
import Overseer.Process.Ended
import Overseer.Process.Outcome
import Overseer.Process.Script
import Overseer.Retry
import Overseer.Scenario
import Overseer.Session.Program
import Overseer.Session.Scheduler
import Overseer.Session.State
import Overseer.Settings.Basic
import Overseer.Settings.EnvFile
import Overseer.Settings.Expand
import Overseer.Settings.Layers
import Overseer.Store.Basic
import Overseer.Store.Collection
import Overseer.Supervisor
import Overseer.Text.Blank
import Overseer.Text.Lower
import Overseer.Text.Malformed
import Overseer.Text.Numeral
import Overseer.Text.Printable
import Overseer.Text.Quoted
import Overseer.Text.Ranges
import Overseer.Text.Search
import Overseer.Text.ShellWord
import Overseer.Text.Utf8
import Overseer.Text.Word
import Overseer.Watch
import Overseer.Wildmatch.Glob
import Overseer.Wildmatch.Pattern
import Overseer.Workspace
import Overseer.World
import Overseer.Proofs.Accord
import Overseer.Proofs.Accounts
import Overseer.Proofs.Apartness
import Overseer.Proofs.Attempts
import Overseer.Proofs.Attribution
import Overseer.Proofs.Checks
import Overseer.Proofs.Chronicle
import Overseer.Proofs.Collections
import Overseer.Proofs.Conduct
import Overseer.Proofs.Containment
import Overseer.Proofs.DaemonCalls
import Overseer.Proofs.Deeds
import Overseer.Proofs.Discipline
import Overseer.Proofs.Display
import Overseer.Proofs.Draining
import Overseer.Proofs.Encoding
import Overseer.Proofs.Evolution
import Overseer.Proofs.Exclusion
import Overseer.Proofs.FileChanges
import Overseer.Proofs.Filing
import Overseer.Proofs.FragmentChecks
import Overseer.Proofs.FragmentLines
import Overseer.Proofs.HandleTables
import Overseer.Proofs.Heed
import Overseer.Proofs.Heedful
import Overseer.Proofs.History
import Overseer.Proofs.Lawful
import Overseer.Proofs.Ledger
import Overseer.Proofs.Levels
import Overseer.Proofs.LineGrammar
import Overseer.Proofs.Maps
import Overseer.Proofs.Marks
import Overseer.Proofs.Mirror
import Overseer.Proofs.NoteRuns
import Overseer.Proofs.Order
import Overseer.Proofs.Recovery
import Overseer.Proofs.Remits
import Overseer.Proofs.Reports
import Overseer.Proofs.Requests
import Overseer.Proofs.Scheduling
import Overseer.Proofs.Snapshots
import Overseer.Proofs.Stations
import Overseer.Proofs.StatusFiles
import Overseer.Proofs.Stopping
import Overseer.Proofs.Tidiness
import Overseer.Proofs.TwinJobs
import Overseer.Proofs.Twins
import Overseer.Proofs.Census
import Overseer.Proofs.BufferLayout
import Overseer.Proofs.Halting
import Overseer.Proofs.Positions
import Overseer.Proofs.ShownLines
import Overseer.Proofs.Alone
import Overseer.Proofs.FanOut
import Overseer.Proofs.Blocking
import Overseer.Proofs.Counting
import Overseer.Proofs.Loading
import Overseer.Proofs.Precedence
import Overseer.Proofs.LineEnds
import Overseer.Proofs.Links
import Overseer.Proofs.FolderVariable
import Overseer.Proofs.NamePatterns
import Overseer.Proofs.Relevance
import Overseer.Proofs.Retries
