import DirectoryWatch.Change
import DirectoryWatch.Clock
import DirectoryWatch.Coalescer
import DirectoryWatch.CommandLine
import DirectoryWatch.CommandLine.Help
import DirectoryWatch.CommandLine.Parser
import DirectoryWatch.Config
import DirectoryWatch.Config.File
import DirectoryWatch.Disk
import DirectoryWatch.Event
import DirectoryWatch.Event.Json
import DirectoryWatch.EventQueue
import DirectoryWatch.Failure
import DirectoryWatch.FileTree
import DirectoryWatch.FileTree.Snapshot
import DirectoryWatch.Glob.Expression
import DirectoryWatch.Glob.Matching
import DirectoryWatch.Glob.Parser
import DirectoryWatch.Glob.Token
import DirectoryWatch.Ignore.Filter
import DirectoryWatch.Ignore.Rule
import DirectoryWatch.Json.Reader
import DirectoryWatch.Json.Value
import DirectoryWatch.Json.Writer
import DirectoryWatch.Main
import DirectoryWatch.Native.Backend
import DirectoryWatch.Native.Error
import DirectoryWatch.Native.Handle
import DirectoryWatch.Native.Record
import DirectoryWatch.Native.Registry
import DirectoryWatch.Native.Snapshot
import DirectoryWatch.Native.WaitSet
import DirectoryWatch.Native.WaitSet.Timeline
import DirectoryWatch.Native.Watches
import DirectoryWatch.Panic
import DirectoryWatch.Path
import DirectoryWatch.Program
import DirectoryWatch.Program.Scene
import DirectoryWatch.Report
import DirectoryWatch.Service
import DirectoryWatch.Service.Scene
import DirectoryWatch.Service.Timeline
import DirectoryWatch.Service.Worker
import DirectoryWatch.Session
import DirectoryWatch.Session.Waiting
import DirectoryWatch.SystemError
import DirectoryWatch.Text.Blank
import DirectoryWatch.Text.Decimal
import DirectoryWatch.Text.Quoted
import DirectoryWatch.Text.Shown
import DirectoryWatch.Text.Utf8
import DirectoryWatch.Toml.Document
import DirectoryWatch.Toml.Quotation
import DirectoryWatch.Toml.Reader
import DirectoryWatch.Toml.Scalar
import DirectoryWatch.Toml.Value
import DirectoryWatch.WatchError
import DirectoryWatch.Proofs.Clock.Order
import DirectoryWatch.Proofs.Clock.Sum
import DirectoryWatch.Proofs.Coalescer.Index
import DirectoryWatch.Proofs.Coalescer.Life
import DirectoryWatch.Proofs.Coalescer.Places
import DirectoryWatch.Proofs.Coalescer.Presence
import DirectoryWatch.Proofs.Coalescer.Rename
import DirectoryWatch.Proofs.Coalescer.Restriction
import DirectoryWatch.Proofs.CommandLine.Merging
import DirectoryWatch.Proofs.Config.Language
import DirectoryWatch.Proofs.Config.RoundTrip
import DirectoryWatch.Proofs.Event.RoundTrip
import DirectoryWatch.Proofs.Ignore.Levels
import DirectoryWatch.Proofs.Ignore.Negation
import DirectoryWatch.Proofs.Ignore.Relative
import DirectoryWatch.Proofs.Ignore.Verdicts
import DirectoryWatch.Proofs.Json.Written
import DirectoryWatch.Proofs.Native.Reception
import DirectoryWatch.Proofs.Native.Registration
import DirectoryWatch.Proofs.Native.StopSignal
import DirectoryWatch.Proofs.Native.Waiter
import DirectoryWatch.Proofs.Path.Parent
import DirectoryWatch.Proofs.Path.Spelling
import DirectoryWatch.Proofs.Program.Duration
import DirectoryWatch.Proofs.Program.Printing
import DirectoryWatch.Proofs.Queue.Handoff
import DirectoryWatch.Proofs.Report.Lines
import DirectoryWatch.Proofs.Service.Career
import DirectoryWatch.Proofs.Service.Ending
import DirectoryWatch.Proofs.Service.Errors
import DirectoryWatch.Proofs.Service.Lifecycle
import DirectoryWatch.Proofs.Service.Start
import DirectoryWatch.Proofs.Service.World
import DirectoryWatch.Proofs.Session.Admission
import DirectoryWatch.Proofs.Session.Boundaries
import DirectoryWatch.Proofs.Session.Course
import DirectoryWatch.Proofs.Session.DueTime
import DirectoryWatch.Proofs.Session.FixedWindow
import DirectoryWatch.Proofs.Session.Harvest
import DirectoryWatch.Proofs.Session.Intake
import DirectoryWatch.Proofs.Session.Panics
import DirectoryWatch.Proofs.Session.Reading
import DirectoryWatch.Proofs.Session.Recursion
import DirectoryWatch.Proofs.Session.RootLoss
import DirectoryWatch.Proofs.Session.Scope
import DirectoryWatch.Proofs.Session.Window
import DirectoryWatch.Proofs.Text.Decimal
import DirectoryWatch.Proofs.Text.Utf8
import DirectoryWatch.Proofs.Toml.Assignments
import DirectoryWatch.Proofs.Toml.Quotation
import DirectoryWatch.Proofs.Toml.Tables
import DirectoryWatch.Proofs.Trace
import DirectoryWatch.Proofs.Worker.Conservation
import DirectoryWatch.Proofs.Worker.Deadlines
import DirectoryWatch.Proofs.Worker.Delivery
import DirectoryWatch.Proofs.Worker.Drain
import DirectoryWatch.Proofs.Worker.Ending
import DirectoryWatch.Proofs.Worker.Failure
import DirectoryWatch.Proofs.Worker.History
import DirectoryWatch.Proofs.Worker.Outcomes
import DirectoryWatch.Proofs.Worker.Timeliness
import DirectoryWatch.Proofs.Worker.Windows
