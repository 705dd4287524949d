import MailDispatch.Api.Error
import MailDispatch.Api.Handling
import MailDispatch.Api.Messages
import MailDispatch.Api.Probe
import MailDispatch.Api.Routes
import MailDispatch.Cleanup.Job
import MailDispatch.Cleanup.Schedule
import MailDispatch.CommandLine
import MailDispatch.Http.Address
import MailDispatch.Http.MediaType
import MailDispatch.Http.Message
import MailDispatch.Http.Target
import MailDispatch.Identifier
import MailDispatch.Json.Problem
import MailDispatch.Json.Record
import MailDispatch.Json.Skip
import MailDispatch.Json.Token
import MailDispatch.Json.Written
import MailDispatch.Log.Directive
import MailDispatch.Log.Event
import MailDispatch.Log.Filter
import MailDispatch.Log.Line
import MailDispatch.Log.Operation
import MailDispatch.Mailing.Draft
import MailDispatch.Mailing.Entry
import MailDispatch.Mailing.Records
import MailDispatch.Main
import MailDispatch.Number.Binary64
import MailDispatch.Number.Shortest
import MailDispatch.Program.Running
import MailDispatch.Program.Startup
import MailDispatch.Proofs.Api.Accounts
import MailDispatch.Proofs.Api.Answers
import MailDispatch.Proofs.Api.Deliveries
import MailDispatch.Proofs.Api.Inside
import MailDispatch.Proofs.Api.LogTrace
import MailDispatch.Proofs.Api.Noninterference
import MailDispatch.Proofs.Api.Removal
import MailDispatch.Proofs.Api.Repetition
import MailDispatch.Proofs.Api.Reports
import MailDispatch.Proofs.Api.SameInstant
import MailDispatch.Proofs.Api.Sending
import MailDispatch.Proofs.Api.Tidiness
import MailDispatch.Proofs.Api.Traffic
import MailDispatch.Proofs.Api.Turns
import MailDispatch.Proofs.Cleanup.Recovery
import MailDispatch.Proofs.Cleanup.Rota
import MailDispatch.Proofs.Cleanup.Sweeping
import MailDispatch.Proofs.Identifier
import MailDispatch.Proofs.Json.Contents
import MailDispatch.Proofs.Json.Listing
import MailDispatch.Proofs.Json.Members
import MailDispatch.Proofs.Json.Nesting
import MailDispatch.Proofs.Json.Numbers
import MailDispatch.Proofs.Json.Objects
import MailDispatch.Proofs.Json.Respelling
import MailDispatch.Proofs.Json.Sayings
import MailDispatch.Proofs.Json.Skipping
import MailDispatch.Proofs.Json.Spelling
import MailDispatch.Proofs.Json.Texts
import MailDispatch.Proofs.Mailing.Moments
import MailDispatch.Proofs.Mailing.Respelling
import MailDispatch.Proofs.Mailing.RoundTrip
import MailDispatch.Proofs.Mailing.Validation
import MailDispatch.Proofs.Number.Rounding
import MailDispatch.Proofs.Service.Clearing
import MailDispatch.Proofs.Service.Creating
import MailDispatch.Proofs.Service.Delivery
import MailDispatch.Proofs.Service.Entering
import MailDispatch.Proofs.Service.Indifference
import MailDispatch.Proofs.Service.Insertion
import MailDispatch.Proofs.Service.Piecemeal
import MailDispatch.Proofs.Service.Purging
import MailDispatch.Proofs.Service.Refusal
import MailDispatch.Proofs.Service.Staleness
import MailDispatch.Proofs.Service.Telling
import MailDispatch.Proofs.Service.Tidy
import MailDispatch.Proofs.Settings.Items
import MailDispatch.Proofs.Settings.Layering
import MailDispatch.Proofs.Settings.Merging
import MailDispatch.Proofs.Settings.Sayings
import MailDispatch.Proofs.Settings.Widths
import MailDispatch.Proofs.Shutdown.Looking
import MailDispatch.Proofs.Shutdown.Registration
import MailDispatch.Proofs.Shutdown.Steps
import MailDispatch.Proofs.Shutdown.Times
import MailDispatch.Proofs.Shutdown.Uninterrupted
import MailDispatch.Proofs.Store.Serial
import MailDispatch.Proofs.Store.Slots
import MailDispatch.Proofs.Store.Steps
import MailDispatch.Proofs.Store.Succession
import MailDispatch.Proofs.Text.Denotation
import MailDispatch.Proofs.Text.Digits
import MailDispatch.Proofs.Text.Octets
import MailDispatch.Proofs.Time.Acceptance
import MailDispatch.Proofs.Time.Counting
import MailDispatch.Proofs.Time.Cutoff
import MailDispatch.Proofs.Time.Days
import MailDispatch.Proofs.Time.Instants
import MailDispatch.Proofs.Time.ReadingBack
import MailDispatch.Proofs.Time.Spelling
import MailDispatch.Proofs.Timeline.Cancelling
import MailDispatch.Proofs.Timeline.Commands
import MailDispatch.Proofs.Timeline.Draining
import MailDispatch.Proofs.Timeline.Driving
import MailDispatch.Proofs.Timeline.Executions
import MailDispatch.Proofs.Timeline.JointWait
import MailDispatch.Proofs.Timeline.OnSchedule
import MailDispatch.Proofs.Timeline.Periods
import MailDispatch.Proofs.Timeline.Phases
import MailDispatch.Proofs.Timeline.Runner
import MailDispatch.Proofs.Timeline.Serving
import MailDispatch.Proofs.Timeline.Watch
import MailDispatch.Proofs.Work.Alike
import MailDispatch.Proofs.Work.Atomic
import MailDispatch.Proofs.Work.Calls
import MailDispatch.Proofs.Work.Calm
import MailDispatch.Proofs.Work.Carrying
import MailDispatch.Proofs.Work.Ensures
import MailDispatch.Proofs.Work.Faithful
import MailDispatch.Proofs.Work.Injected
import MailDispatch.Proofs.Work.Keeping
import MailDispatch.Proofs.Work.Observed
import MailDispatch.Proofs.Work.Telling
import MailDispatch.Proofs.Work.Traced
import MailDispatch.Proofs.Work.Upshot
import MailDispatch.Rehearsal.Basic
import MailDispatch.Rehearsal.Session
import MailDispatch.Service.Entries
import MailDispatch.Service.Purge
import MailDispatch.Service.Sending
import MailDispatch.Settings.Basic
import MailDispatch.Settings.Document
import MailDispatch.Settings.Layers
import MailDispatch.Settings.Path
import MailDispatch.Settings.Tree
import MailDispatch.Shutdown.Coordinator
import MailDispatch.Shutdown.Registration
import MailDispatch.Shutdown.Server
import MailDispatch.Shutdown.Waiting
import MailDispatch.Store.Backends
import MailDispatch.Store.Call
import MailDispatch.Store.History
import MailDispatch.Store.Locked
import MailDispatch.Store.Sound
import MailDispatch.Store.Tables
import MailDispatch.Text.Classes
import MailDispatch.Text.Numeral
import MailDispatch.Text.Octets
import MailDispatch.Text.Pieces
import MailDispatch.Text.Quoted
import MailDispatch.Time.Calendar
import MailDispatch.Time.Reader
import MailDispatch.Time.Span
import MailDispatch.Time.Timestamp
import MailDispatch.Time.Written
import MailDispatch.Timeline.Activity
import MailDispatch.Timeline.Basic
import MailDispatch.Timeline.Control
import MailDispatch.Work.Backend
import MailDispatch.Work.Basic
import MailDispatch.Work.Transaction
