import CollectionSync.Drive.Client
import CollectionSync.Main
import CollectionSync.Rehearsal.Bench
import CollectionSync.Rehearsal.Form
import CollectionSync.Rehearsal.Transcript
import CollectionSync.Retry.Timed
import CollectionSync.Store.Edit
import CollectionSync.Proofs.Time.Calendar
import CollectionSync.Proofs.Time.Digits
import CollectionSync.Proofs.Time.Microseconds
import CollectionSync.Proofs.Dict
import CollectionSync.Proofs.Json.RoundTrip
import CollectionSync.Proofs.Json.Members
import CollectionSync.Proofs.RunId
import CollectionSync.Proofs.Record.Failures
import CollectionSync.Proofs.Record.Rules
import CollectionSync.Proofs.Store.Columns
import CollectionSync.Proofs.Store.History
import CollectionSync.Proofs.Store.Mirror
import CollectionSync.Proofs.Store.Moves
import CollectionSync.Proofs.Store.Agreement
import CollectionSync.Proofs.Store.Fencing
import CollectionSync.Proofs.Store.Rows
import CollectionSync.Proofs.Store.Cancellation
import CollectionSync.Proofs.Store.Reading
import CollectionSync.Proofs.Store.Failing
import CollectionSync.Proofs.Store.Possession
import CollectionSync.Proofs.Store.Ending
import CollectionSync.Proofs.Store.Custody
import CollectionSync.Proofs.Store.WellFormed
import CollectionSync.Proofs.Store.Finality
import CollectionSync.Proofs.Store.Counters
import CollectionSync.Proofs.Remote.Replay
import CollectionSync.Proofs.Program
import CollectionSync.Proofs.Drive.Requests
import CollectionSync.Proofs.Drive.Paging
import CollectionSync.Proofs.Run.Interleaving
import CollectionSync.Proofs.Run.Marks
import CollectionSync.Proofs.Run.Actions
import CollectionSync.Proofs.Run.Tasks
import CollectionSync.Proofs.Run.ListCalls
import CollectionSync.Proofs.Run.Listings
import CollectionSync.Proofs.Run.Grounds
import CollectionSync.Proofs.Run.Dispatching
import CollectionSync.Proofs.Run.Work
import CollectionSync.Proofs.Run.Invariants
import CollectionSync.Proofs.Run.Faults
import CollectionSync.Proofs.Run.Settlement
import CollectionSync.Proofs.Run.Checkpoint
import CollectionSync.Proofs.Run.Observing
import CollectionSync.Proofs.Run.Verdict
import CollectionSync.Proofs.Run.Checks
import CollectionSync.Proofs.Run.Ensemble
import CollectionSync.Proofs.Run.Aftermath
import CollectionSync.Proofs.Run.Overlap
import CollectionSync.Proofs.Run.Announcements
import CollectionSync.Proofs.Run.Plans
import CollectionSync.Proofs.Run.Replanning
import CollectionSync.Proofs.Run.Latching
import CollectionSync.Proofs.Run.Extractions
import CollectionSync.Proofs.Run.Alone
import CollectionSync.Proofs.Run.Refusals
import CollectionSync.Proofs.Run.Withholding
import CollectionSync.Proofs.Run.Forfeiture
import CollectionSync.Proofs.Run.Snapshots
import CollectionSync.Proofs.Run.Completeness
import CollectionSync.Proofs.Run.Notes
import CollectionSync.Proofs.Run.Turns
import CollectionSync.Proofs.Run.Rescans
import CollectionSync.Proofs.Store.Frame
import CollectionSync.Proofs.Store.Recovery
import CollectionSync.Proofs.Command.Thresholds
import CollectionSync.Proofs.Retry
import CollectionSync.Proofs.Text.Utf8
import CollectionSync.Proofs.Url.Percent
import CollectionSync.Proofs.Url.Form
import CollectionSync.Proofs.Url.Segments
import CollectionSync.Proofs.Url.Reading
import CollectionSync.Proofs.Drive.Paths
import CollectionSync.Proofs.Drive.Tokens
import CollectionSync.Proofs.Drive.Folders
import CollectionSync.Proofs.Drive.Statuses
import CollectionSync.Proofs.Run.Slots
import CollectionSync.Proofs.Store.Claims
import CollectionSync.Proofs.Host.Admission
import CollectionSync.Proofs.Store.Legible
import CollectionSync.Proofs.Run.Chronicle
import CollectionSync.Proofs.Store.Separation
import CollectionSync.Proofs.Store.Timestamps
import CollectionSync.Proofs.Host.Active
import CollectionSync.Proofs.Store.Opening
import CollectionSync.Proofs.Time.Words
import CollectionSync.Proofs.Backoff
import CollectionSync.Proofs.Drive.Waits
import CollectionSync.Proofs.Drive.ItemPaths
