import PoolKeeper.CommandLine.Arguments
import PoolKeeper.CommandLine.Run
import PoolKeeper.Config.Backend
import PoolKeeper.Config.Basic
import PoolKeeper.Config.Form
import PoolKeeper.Config.Retention
import PoolKeeper.Disk.Basic
import PoolKeeper.Disk.Machine
import PoolKeeper.Disk.Path
import PoolKeeper.Disk.Refusal
import PoolKeeper.Fault
import PoolKeeper.Form
import PoolKeeper.Json
import PoolKeeper.Lock
import PoolKeeper.Main
import PoolKeeper.Proofs.Account
import PoolKeeper.Proofs.Alongside
import PoolKeeper.Proofs.BackupOutcome
import PoolKeeper.Proofs.BesideOwner
import PoolKeeper.Proofs.BusySlot
import PoolKeeper.Proofs.Calendar
import PoolKeeper.Proofs.Commands
import PoolKeeper.Proofs.ConfigForm
import PoolKeeper.Proofs.CycleGuard
import PoolKeeper.Proofs.DeadEnds
import PoolKeeper.Proofs.Due
import PoolKeeper.Proofs.Ensures
import PoolKeeper.Proofs.Files
import PoolKeeper.Proofs.Footprint
import PoolKeeper.Proofs.HiddenCredentials
import PoolKeeper.Proofs.IdleSpool
import PoolKeeper.Proofs.InStep
import PoolKeeper.Proofs.Joined
import PoolKeeper.Proofs.Life
import PoolKeeper.Proofs.Lifetime
import PoolKeeper.Proofs.ListedSnapshots
import PoolKeeper.Proofs.LockAnswers
import PoolKeeper.Proofs.LockBesideState
import PoolKeeper.Proofs.LockFile
import PoolKeeper.Proofs.LockHolders
import PoolKeeper.Proofs.LockOwner
import PoolKeeper.Proofs.LockPath
import PoolKeeper.Proofs.MinimumInterval
import PoolKeeper.Proofs.Mirrored
import PoolKeeper.Proofs.NoRestore
import PoolKeeper.Proofs.Occurrence
import PoolKeeper.Proofs.OccurrenceNames
import PoolKeeper.Proofs.OncePerWindow
import PoolKeeper.Proofs.OneShotOrder
import PoolKeeper.Proofs.OrderFirst
import PoolKeeper.Proofs.Paths
import PoolKeeper.Proofs.PoolKept
import PoolKeeper.Proofs.Progress
import PoolKeeper.Proofs.Provenance
import PoolKeeper.Proofs.RecordFile
import PoolKeeper.Proofs.RecordText
import PoolKeeper.Proofs.Recovery
import PoolKeeper.Proofs.RefreshCommand
import PoolKeeper.Proofs.RelatedSteps
import PoolKeeper.Proofs.Renamed
import PoolKeeper.Proofs.Reopening
import PoolKeeper.Proofs.RequestText
import PoolKeeper.Proofs.RestoreCommand
import PoolKeeper.Proofs.RestoreOrder
import PoolKeeper.Proofs.RestoreOutcome
import PoolKeeper.Proofs.RestoreRequest
import PoolKeeper.Proofs.ReturningWindows
import PoolKeeper.Proofs.SameFiles
import PoolKeeper.Proofs.SameShape
import PoolKeeper.Proofs.SameWays
import PoolKeeper.Proofs.SaveLoad
import PoolKeeper.Proofs.SavedFile
import PoolKeeper.Proofs.SecretsUnseen
import PoolKeeper.Proofs.Session
import PoolKeeper.Proofs.SessionOpening
import PoolKeeper.Proofs.SharedDisk
import PoolKeeper.Proofs.SnapshotNames
import PoolKeeper.Proofs.SnapshotView
import PoolKeeper.Proofs.SpoolDrained
import PoolKeeper.Proofs.SpoolNames
import PoolKeeper.Proofs.SpoolQueue
import PoolKeeper.Proofs.SpoolTaken
import PoolKeeper.Proofs.SpooledRequests
import PoolKeeper.Proofs.Stacked
import PoolKeeper.Proofs.Staging
import PoolKeeper.Proofs.Stamp
import PoolKeeper.Proofs.StatusReport
import PoolKeeper.Proofs.StepByStep
import PoolKeeper.Proofs.TickOutcome
import PoolKeeper.Proofs.UnitsRestarted
import PoolKeeper.Proofs.UpdateOutcome
import PoolKeeper.Proofs.Walks
import PoolKeeper.Proofs.Yaml.Block
import PoolKeeper.Proofs.Yaml.Grammar
import PoolKeeper.Proofs.Yaml.Lines
import PoolKeeper.Proofs.Yaml.Plain
import PoolKeeper.Proofs.Yaml.Quoted
import PoolKeeper.Proofs.Yaml.Scanner
import PoolKeeper.Proofs.Yaml.Standing
import PoolKeeper.Proofs.Yaml.Values
import PoolKeeper.Record.Basic
import PoolKeeper.Record.File
import PoolKeeper.Record.Form
import PoolKeeper.Record.Report
import PoolKeeper.Rehearsal.Bench
import PoolKeeper.Rehearsal.Scene
import PoolKeeper.Rehearsal.Slot
import PoolKeeper.Rehearsal.Stage
import PoolKeeper.Rehearsal.Task
import PoolKeeper.Rehearsal.Workshop
import PoolKeeper.Request.Basic
import PoolKeeper.Request.Spool
import PoolKeeper.Schedule
import PoolKeeper.Service.Backup
import PoolKeeper.Service.Basic
import PoolKeeper.Service.Call
import PoolKeeper.Service.Connection
import PoolKeeper.Service.Control
import PoolKeeper.Service.PoolSnapshot
import PoolKeeper.Service.Restore
import PoolKeeper.Settings.Basic
import PoolKeeper.Settings.File
import PoolKeeper.Text.Blank
import PoolKeeper.Text.Decimal
import PoolKeeper.Text.Invisible
import PoolKeeper.Text.Lossy
import PoolKeeper.Text.Quoted
import PoolKeeper.Time.Calendar
import PoolKeeper.Time.Instant
import PoolKeeper.Time.Span
import PoolKeeper.Time.Stamp
import PoolKeeper.Tools.Command
import PoolKeeper.Tools.Engine
import PoolKeeper.Tools.Host
import PoolKeeper.Tools.Pool
import PoolKeeper.Window
import PoolKeeper.Word
import PoolKeeper.Yaml.Char
import PoolKeeper.Yaml.Node
import PoolKeeper.Yaml.Read
import PoolKeeper.Yaml.Render
import PoolKeeper.Yaml.Scalar
import PoolKeeper.Yaml.Schema
import PoolKeeper.Yaml.Token
import PoolKeeper.Yaml.Value
