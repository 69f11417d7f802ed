import ChainReplay.Address.Basic
import ChainReplay.Address.Parse
import ChainReplay.Bech32
import ChainReplay.Binary64
import ChainReplay.Binary64.Arithmetic
import ChainReplay.Bytes.Base64
import ChainReplay.Bytes.Basic
import ChainReplay.CommandLine.Arguments
import ChainReplay.CommandLine.Command
import ChainReplay.CommandLine.Run
import ChainReplay.CommandLine.Terminal
import ChainReplay.Console.Color
import ChainReplay.Console.Literal
import ChainReplay.Console.Markup
import ChainReplay.Console.Style
import ChainReplay.Disk
import ChainReplay.Engine.Catalog
import ChainReplay.Engine.Program
import ChainReplay.Engine.Script
import ChainReplay.Execution.Activation
import ChainReplay.Execution.Call
import ChainReplay.Execution.Frame
import ChainReplay.Execution.Host
import ChainReplay.Failure.Basic
import ChainReplay.Failure.Codec
import ChainReplay.Failure.Format
import ChainReplay.Failure.Setup
import ChainReplay.Feed.Cache
import ChainReplay.Feed.Record
import ChainReplay.Feed.Source
import ChainReplay.Feed.Stream
import ChainReplay.Json.Basic
import ChainReplay.Json.File
import ChainReplay.Json.Loose
import ChainReplay.Json.Printer
import ChainReplay.Json.Reader
import ChainReplay.Json.Scalar
import ChainReplay.Ledger.Basic
import ChainReplay.Ledger.Code
import ChainReplay.Ledger.Contract
import ChainReplay.Ledger.Journal
import ChainReplay.Ledger.Override
import ChainReplay.Ledger.Registry
import ChainReplay.Main
import ChainReplay.Path
import ChainReplay.Power
import ChainReplay.Proofs.Binary64
import ChainReplay.Proofs.Bytes.Base64
import ChainReplay.Proofs.Bytes.Number
import ChainReplay.Proofs.Disk
import ChainReplay.Proofs.Execution.Coherence
import ChainReplay.Proofs.Execution.FailedCall
import ChainReplay.Proofs.Execution.Fuel
import ChainReplay.Proofs.Execution.Lasting
import ChainReplay.Proofs.Execution.Likeness
import ChainReplay.Proofs.Execution.Nesting
import ChainReplay.Proofs.Execution.Outcome
import ChainReplay.Proofs.Execution.Rollback
import ChainReplay.Proofs.Execution.Sharing
import ChainReplay.Proofs.Execution.Simulation
import ChainReplay.Proofs.Execution.Termination
import ChainReplay.Proofs.Feed.CacheFiles
import ChainReplay.Proofs.Feed.Snapshot
import ChainReplay.Proofs.Feed.Transparency
import ChainReplay.Proofs.Json.Reading
import ChainReplay.Proofs.Json.RoundTrip
import ChainReplay.Proofs.Ledger.Overlay
import ChainReplay.Proofs.Ledger.Registry
import ChainReplay.Proofs.Ledger.Storage
import ChainReplay.Proofs.Replay.FinalState
import ChainReplay.Proofs.Replay.Loop
import ChainReplay.Proofs.Table
import ChainReplay.Proofs.Text.Decimal
import ChainReplay.Proofs.Text.Encoding
import ChainReplay.Proofs.Text.Numeral
import ChainReplay.Proofs.Text.Utf8
import ChainReplay.Proofs.Transaction.View
import ChainReplay.Proofs.Wire.Canonical
import ChainReplay.Proofs.Wire.Message
import ChainReplay.Proofs.Wire.Reading
import ChainReplay.Proofs.Wire.Writable
import ChainReplay.Replay.Block
import ChainReplay.Replay.Environment
import ChainReplay.Replay.Plan
import ChainReplay.Replay.Result
import ChainReplay.Replay.Run
import ChainReplay.Report
import ChainReplay.Selector
import ChainReplay.Session.Basic
import ChainReplay.Session.Contract
import ChainReplay.Session.Replay
import ChainReplay.Settings
import ChainReplay.Sha256
import ChainReplay.Storage
import ChainReplay.Table
import ChainReplay.Text.Basic
import ChainReplay.Text.Blank
import ChainReplay.Text.Cased
import ChainReplay.Text.DecimalDigit
import ChainReplay.Text.LowerCase
import ChainReplay.Text.Numeral
import ChainReplay.Text.Quoted
import ChainReplay.Text.Unprintable
import ChainReplay.Text.Utf8
import ChainReplay.Transaction.Basic
import ChainReplay.Transaction.Document
import ChainReplay.Transaction.Dump
import ChainReplay.Transaction.Revert
import ChainReplay.Transaction.Wire
import ChainReplay.Units
import ChainReplay.Wire.Emission
import ChainReplay.Wire.Format
import ChainReplay.Wire.Reader
import ChainReplay.Proofs.Transaction.Binary
import ChainReplay.Proofs.Execution.Records
import ChainReplay.Proofs.Execution.DeploymentRecords
import ChainReplay.Proofs.Execution.Counterpart
import ChainReplay.Proofs.Execution.Hosting
import ChainReplay.Proofs.Execution.Reenactment
import ChainReplay.Proofs.Ledger.Counterpart
import ChainReplay.Proofs.Replay.Reenactment
import ChainReplay.Proofs.Ledger.Inheritance
import ChainReplay.Proofs.Replay.Inheritance
import ChainReplay.Proofs.Replay.History
import ChainReplay.Proofs.Replay.Independence
import ChainReplay.Proofs.Json.Spellable
import ChainReplay.Proofs.Json.Scalar
import ChainReplay.Proofs.Json.Runs
import ChainReplay.Proofs.Decoding
import ChainReplay.Proofs.Transaction.Document
import ChainReplay.Proofs.Feed.Continuation
import ChainReplay.Proofs.Feed.Stream
import ChainReplay.Proofs.Replay.Accounting
import ChainReplay.Proofs.Transaction.Orderly
import ChainReplay.Proofs.Replay.Loading
import ChainReplay.Proofs.Leads
import ChainReplay.Proofs.Execution.Activity
import ChainReplay.Proofs.Execution.Conduct
import ChainReplay.Proofs.Execution.Tracking
import ChainReplay.Proofs.Execution.CallStack
import ChainReplay.Proofs.Execution.Reentrancy
import ChainReplay.Proofs.Replay.Registration
import ChainReplay.Proofs.Execution.Depth
import ChainReplay.Proofs.Execution.Sustained
import ChainReplay.Proofs.Execution.Transcript
import ChainReplay.Proofs.Execution.Identity
import ChainReplay.Proofs.Ledger.Enlistment
import ChainReplay.Proofs.Replay.Turns
import ChainReplay.Proofs.Custody.Turnover
import ChainReplay.Proofs.Custody.Run
import ChainReplay.Proofs.Custody.Ledger
import ChainReplay.Proofs.Custody.World
import ChainReplay.Proofs.Custody.Demand
import ChainReplay.Proofs.Custody.Sound
import ChainReplay.Proofs.Custody.Operations
import ChainReplay.Proofs.Replay.Staging
import ChainReplay.Proofs.Execution.Notices
import ChainReplay.Proofs.Replay.Renumbering
import ChainReplay.Proofs.Replay.Skipping
import ChainReplay.Proofs.Replay.Concatenation
import ChainReplay.Proofs.Ledger.Overriding
import ChainReplay.Proofs.Replay.Seeding
import ChainReplay.Proofs.Search
import ChainReplay.Proofs.Replay.Succession
import ChainReplay.Proofs.Report
import ChainReplay.Proofs.CommandLine.Options
import ChainReplay.Proofs.CommandLine.Verdict
import ChainReplay.Proofs.Execution.Ageing
import ChainReplay.Proofs.Execution.Revival
import ChainReplay.Proofs.Execution.Resumption
import ChainReplay.Proofs.Execution.Requests
import ChainReplay.Proofs.Ledger.Restoring
import ChainReplay.Proofs.Feed.Materialized
import ChainReplay.Proofs.Execution.RootCause
import ChainReplay.Proofs.Execution.Chronicle
import ChainReplay.Proofs.Execution.Retention
import ChainReplay.Proofs.Execution.Response
import ChainReplay.Proofs.Execution.Deposits
import ChainReplay.Proofs.Execution.ChronicleRecords
import ChainReplay.Proofs.Execution.FailedDeployment
import ChainReplay.Proofs.Text.Spelling
import ChainReplay.Proofs.Feed.Record
import ChainReplay.Proofs.Feed.CanonicalFile
import ChainReplay.Proofs.Feed.Acceptance
import ChainReplay.Proofs.Feed.Progress
import ChainReplay.Proofs.Execution.Replies
import ChainReplay.Proofs.Bytes.Hexadecimal
import ChainReplay.Proofs.Transaction.EngineView
import ChainReplay.Proofs.Bech32
import ChainReplay.Proofs.Address.Forms
import ChainReplay.Proofs.Feed.Forms
import ChainReplay.Proofs.Ledger.Derivation
import ChainReplay.Proofs.Execution.Ventures
import ChainReplay.Proofs.Ledger.Honesty
import ChainReplay.Proofs.Ledger.Deployments
