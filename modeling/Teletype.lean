import Teletype.Text.Word
import Teletype.Text.Template
import Teletype.Text.Utf8
import Teletype.Data.Json
import Teletype.Fault
import Teletype.Files.Tree
import Teletype.Settings.Field
import Teletype.Failure
import Teletype.Settings.Load
import Teletype.Identity.Resolver
import Teletype.Shell
import Teletype.Output.Line
import Teletype.Output.Copy
import Teletype.Session.Operation
import Teletype.Recording.Studio
import Teletype.Terminal.Rule
import Teletype.CommandLine.Run
import Teletype.Main
import Teletype.Proofs.Output.Window
import Teletype.Proofs.Output.Copying
import Teletype.Proofs.Session.Basic
import Teletype.Proofs.Terminal.Course
import Teletype.Proofs.Recording.Marker
import Teletype.Proofs.Recording.Sequence
import Teletype.Proofs.Recording.Release
import Teletype.Proofs.Recording.Echo
import Teletype.Proofs.Output.Waiting
import Teletype.Proofs.Session.Manager
import Teletype.Proofs.Session.Run
import Teletype.Proofs.Session.Terminals
import Teletype.Proofs.Session.Ledger
import Teletype.Proofs.Session.Replacement
import Teletype.Proofs.Identity.Resolution
import Teletype.Proofs.Session.Credential
import Teletype.Proofs.Session.FirstFailure
import Teletype.Proofs.Session.Numbering
import Teletype.Proofs.Session.Renumbering
import Teletype.Proofs.Session.Indifference
import Teletype.Proofs.Session.FailedStart
import Teletype.Proofs.Session.Holding
import Teletype.Proofs.Session.Separation
import Teletype.Proofs.Session.Ownership
import Teletype.Proofs.Session.FailedSpawn
import Teletype.Proofs.Number.Numerals
import Teletype.Proofs.Identity.Backends
import Teletype.Proofs.Identity.Membership
import Teletype.Proofs.Recording.Conduct
import Teletype.Proofs.Recording.Floor
import Teletype.Proofs.Recording.Unnumbered
import Teletype.Proofs.Recording.Shares
import Teletype.Proofs.Recording.Isolation
import Teletype.Proofs.Files.History
import Teletype.Proofs.Terminal.Changes
import Teletype.Proofs.Settings.Precedence
import Teletype.Proofs.Output.Timing
import Teletype.Proofs.Recording.Probing
import Teletype.Proofs.Recording.Budget
import Teletype.Proofs.Output.Attention
import Teletype.Proofs.Output.Passing
import Teletype.Proofs.Recording.Liveness
import Teletype.Proofs.Recording.Forgery
import Teletype.Proofs.Session.Lifecycle
import Teletype.Proofs.Terminal.Typing
import Teletype.Proofs.Recording.Exposure
import Teletype.Proofs.CommandLine.Failures
import Teletype.Proofs.Terminal.Exit
import Teletype.Proofs.CommandLine.Status
import Teletype.Proofs.CommandLine.Copying
import Teletype.Proofs.Output.Cadence
import Teletype.Proofs.Recording.Cadence
import Teletype.Proofs.Session.Resizing
import Teletype.Proofs.Session.Writing
import Teletype.Proofs.Recording.Settling
import Teletype.Proofs.Settings.Shape
import Teletype.Proofs.Settings.Reloading
import Teletype.Proofs.Session.Departure
import Teletype.Proofs.Session.Spawning
import Teletype.Proofs.Shell.Commands
import Teletype.Proofs.Recording.Looks
