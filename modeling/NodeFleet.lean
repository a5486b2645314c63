import NodeFleet.Text.Blank
import NodeFleet.Text.Search
import NodeFleet.Text.Unshown
import NodeFleet.Text.Letter
import NodeFleet.Text.Piece
import NodeFleet.Text.Quoted
import NodeFleet.Amount.Basic
import NodeFleet.Amount.Decimal
import NodeFleet.Amount.Shortest
import NodeFleet.Duration
import NodeFleet.Remote.Error
import NodeFleet.Remote.Reply
import NodeFleet.Remote.ShellQuote
import NodeFleet.Daemon.Reading
import NodeFleet.Document.Value
import NodeFleet.Document.Json
import NodeFleet.Document.Printer
import NodeFleet.Document.Record
import NodeFleet.Config.Basic
import NodeFleet.Config.Error
import NodeFleet.Config.Validation
import NodeFleet.Config.Document
import NodeFleet.Document.Toml.Tree
import NodeFleet.Document.Toml.Scalar
import NodeFleet.Document.Toml.Text
import NodeFleet.Document.Toml.Reader
import NodeFleet.Remote.Credential
import NodeFleet.Fleet.Host
import NodeFleet.Fleet.Error
import NodeFleet.Fleet.Roster
import NodeFleet.Daemon.Command
import NodeFleet.Daemon.NodeConfig
import NodeFleet.Report.Basic
import NodeFleet.Report.Summary
import NodeFleet.Report.Document
import NodeFleet.Fleet.Observed
import NodeFleet.Program.Basic
import NodeFleet.Program.Session
import NodeFleet.Program.Poll
import NodeFleet.Fleet.Basic
import NodeFleet.Procedure.Conduct
import NodeFleet.Procedure.Sweep
import NodeFleet.Procedure.Daemons
import NodeFleet.Procedure.Reboot
import NodeFleet.Procedure.Promotion
import NodeFleet.Procedure.ColdRestart
import NodeFleet.Procedure.Transfer
import NodeFleet.Procedure.AwaitBalance
import NodeFleet.Local.Path
import NodeFleet.Procedure.Rollout
import NodeFleet.Procedure.Console
import NodeFleet.Desk
import NodeFleet.Local.Surroundings
import NodeFleet.Rehearsal.FileTree
import NodeFleet.Text.Lossy
import NodeFleet.Text.Base64
import NodeFleet.Remote.Identity
import NodeFleet.Rehearsal.LocalProgram
import NodeFleet.Rehearsal.Machine
import NodeFleet.Rehearsal.Script
import NodeFleet.Rehearsal.Basic
import NodeFleet.Config.Source
import NodeFleet.Launch.Arguments
import NodeFleet.Pattern.Basic
import NodeFleet.Pattern.Reader
import NodeFleet.Launch.LogFilter
import NodeFleet.Launch.Basic
import NodeFleet.Main
import NodeFleet.Proofs.Log
import NodeFleet.Proofs.Attempts
import NodeFleet.Proofs.Leaves
import NodeFleet.Proofs.Session
import NodeFleet.Proofs.Bracketing
import NodeFleet.Proofs.DeskSessions
import NodeFleet.Proofs.Conducting
import NodeFleet.Proofs.Stages
import NodeFleet.Proofs.ColdLine
import NodeFleet.Proofs.Stopping
import NodeFleet.Proofs.ColdRestart
import NodeFleet.Proofs.PrintedLines
import NodeFleet.Proofs.Collateral
import NodeFleet.Proofs.Listing
import NodeFleet.Proofs.Restarting
import NodeFleet.Proofs.Payments
import NodeFleet.Proofs.Orders
import NodeFleet.Proofs.Rosters
import NodeFleet.Proofs.Repetitions
import NodeFleet.Proofs.PeerLists
import NodeFleet.Proofs.KeptConfigs
import NodeFleet.Proofs.Parties
import NodeFleet.Proofs.Faults
import NodeFleet.Proofs.Uncancelled
import NodeFleet.Proofs.Aligned
import NodeFleet.Proofs.Heeding
import NodeFleet.Proofs.Sequences
import NodeFleet.Proofs.Answers
import NodeFleet.Proofs.Isolation
import NodeFleet.Proofs.Cancelling
import NodeFleet.Proofs.Promoting
import NodeFleet.Proofs.StartsAgain
import NodeFleet.Proofs.Words
import NodeFleet.Proofs.Generated
import NodeFleet.Proofs.Timing
import NodeFleet.Proofs.Settling
import NodeFleet.Proofs.Looks
import NodeFleet.Proofs.Snapshots
import NodeFleet.Proofs.Delays
import NodeFleet.Proofs.Sweeping
import NodeFleet.Proofs.Namesakes
import NodeFleet.Proofs.Network
import NodeFleet.Proofs.Tallies
import NodeFleet.Proofs.Outcomes
import NodeFleet.Proofs.Refusals
import NodeFleet.Proofs.Selecting
import NodeFleet.Proofs.Preflight
import NodeFleet.Proofs.Sightings
import NodeFleet.Proofs.Phases
import NodeFleet.Proofs.Costs
import NodeFleet.Proofs.Rounds
import NodeFleet.Proofs.Budgets
import NodeFleet.Proofs.Endings
import NodeFleet.Proofs.ShellWords
import NodeFleet.Proofs.Wiping
import NodeFleet.Proofs.Polling
import NodeFleet.Proofs.Confirming
import NodeFleet.Proofs.Funding
import NodeFleet.Proofs.Destinations
import NodeFleet.Proofs.Starting
import NodeFleet.Proofs.FileCommands
import NodeFleet.Proofs.Installing
import NodeFleet.Proofs.Placing
import NodeFleet.Proofs.Resolving
import NodeFleet.Proofs.StakingFiles
import NodeFleet.Proofs.Calls
import NodeFleet.Proofs.ServiceChecks
import NodeFleet.Proofs.StopAnswers
import NodeFleet.Proofs.Subjects
import NodeFleet.Proofs.Accepting
import NodeFleet.Proofs.Reporting
import NodeFleet.Proofs.LetterCase
import NodeFleet.Proofs.QuotedPaths
import NodeFleet.Proofs.Records
import NodeFleet.Proofs.DescribedParts
import NodeFleet.Proofs.Descriptions
import NodeFleet.Proofs.Lowercase
