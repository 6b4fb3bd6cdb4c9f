import Transcript.Arithmetic
import Transcript.CommandLine.Arguments
import Transcript.CommandLine.FileName
import Transcript.CommandLine.Report
import Transcript.Config.Basic
import Transcript.Config.Json
import Transcript.Failure
import Transcript.Job.Basic
import Transcript.Job.Call
import Transcript.Json.Decode
import Transcript.Json.Number
import Transcript.Json.Printer
import Transcript.Json.Reader
import Transcript.Json.Value
import Transcript.Main
import Transcript.Message.Basic
import Transcript.Message.Json
import Transcript.Message.Merge
import Transcript.Message.Usage
import Transcript.Pipeline.Basic
import Transcript.Pipeline.Json
import Transcript.Pipeline.Pool
import Transcript.Pipeline.Timeline
import Transcript.Proofs.Bisection
import Transcript.Proofs.Tailoring.Costs
import Transcript.Proofs.Tailoring.Segments
import Transcript.Request
import Transcript.Service.Basic
import Transcript.Session.Branch
import Transcript.Session.Event
import Transcript.Session.Key
import Transcript.Session.Log
import Transcript.Store.File
import Transcript.Store.FileTree
import Transcript.Store.Memory
import Transcript.Summary.Basic
import Transcript.Summary.Prompt
import Transcript.Table
import Transcript.Tailoring.Basic
import Transcript.Tailoring.Json
import Transcript.Tailoring.Segments
import Transcript.Tailoring.Strategy
import Transcript.Text.Blank
import Transcript.Text.Pattern
import Transcript.Text.Percent
import Transcript.Time.Calendar
import Transcript.Time.Notation
import Transcript.Time.Span
import Transcript.Time.Timestamp
import Transcript.Tokens
import Transcript.Trigger.Checker
import Transcript.Trigger.Counters
import Transcript.Trigger.State
import Transcript.Trigger.Table
import Transcript.Proofs.Tailoring.Selection
import Transcript.Proofs.Tailoring.Checked
import Transcript.Proofs.Tailoring.Idempotence
import Transcript.Proofs.Session.Numbering
import Transcript.Proofs.Pipeline.Quiet
import Transcript.Proofs.Store.Lawful
import Transcript.Proofs.Pipeline.Chronicle
import Transcript.Proofs.Pipeline.Lineage
import Transcript.Proofs.Pipeline.Provenance
import Transcript.Proofs.Trigger.Counters
import Transcript.Proofs.Pipeline.Jobs
import Transcript.Proofs.Pipeline.Ledger
import Transcript.Proofs.Pipeline.Steps
import Transcript.Proofs.Pipeline.InFlight
import Transcript.Proofs.Pipeline.Conservation
import Transcript.Proofs.Pipeline.Turns
import Transcript.Proofs.Pipeline.Schedule
import Transcript.Proofs.Pipeline.Posting
import Transcript.Proofs.Service.Operations
import Transcript.Proofs.Service.History
import Transcript.Proofs.Service.Bookkeeping
import Transcript.Proofs.Service.Representation
import Transcript.Proofs.Service.InFlight
import Transcript.Proofs.Service.Conservation
import Transcript.Proofs.Tailoring.Guarantees
import Transcript.Proofs.Text.Percent
import Transcript.Proofs.Store.FileTree
import Transcript.Proofs.Store.File
import Transcript.Proofs.Pipeline.Aftermath
import Transcript.Proofs.Pipeline.Execution
import Transcript.Proofs.Pipeline.Outturn
import Transcript.Proofs.Service.Course
import Transcript.Proofs.Trigger.Account
import Transcript.Proofs.Service.Requests
import Transcript.Proofs.Service.Scheduling
import Transcript.Proofs.Service.LastFinisher
import Transcript.Proofs.Service.Recount
import Transcript.Proofs.Time.Order
import Transcript.Proofs.Trigger.Checker
import Transcript.Proofs.Service.Retry
import Transcript.Proofs.Service.Chain
import Transcript.Proofs.Pipeline.Handover
import Transcript.Proofs.Service.Handover
import Transcript.Proofs.Service.Disabled
import Transcript.Proofs.Service.Independence
import Transcript.Proofs.Json.Digits
import Transcript.Proofs.Json.RoundTrip
import Transcript.Proofs.Summary.RoundTrip
import Transcript.Proofs.Time.Notation
import Transcript.Proofs.Time.Calendar
import Transcript.Proofs.Store.Access
import Transcript.Proofs.Store.Calls
import Transcript.Proofs.Store.Keeping
import Transcript.Proofs.Store.Refinement
import Transcript.Proofs.Text.Pattern
import Transcript.Proofs.Summary.Prompt
import Transcript.Proofs.Session.Branch
import Transcript.Proofs.Session.Changes
import Transcript.Proofs.Service.Assembly
import Transcript.Proofs.Service.Admission
import Transcript.Proofs.Service.Reception
import Transcript.Proofs.Service.Timeout
import Transcript.Proofs.Pipeline.Moves
import Transcript.Proofs.Pipeline.Deadline
import Transcript.Proofs.Store.Names
import Transcript.Proofs.Store.Refusal
import Transcript.Proofs.Message.Merge
import Transcript.Proofs.Message.Estimate
import Transcript.Proofs.Tailoring.LastTurn
import Transcript.Proofs.Trigger.Sharding
import Transcript.Proofs.Json.Records
import Transcript.Proofs.Message.Forms
import Transcript.Proofs.Session.Forms
import Transcript.Proofs.Config.Partial
import Transcript.Proofs.Tailoring.Counting
import Transcript.Proofs.Bisection.Loop
import Transcript.Proofs.Tailoring.Search
