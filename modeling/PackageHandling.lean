import PackageHandling.Keyed
import PackageHandling.Decimal.Shortest
import PackageHandling.Json.Text
import PackageHandling.Decimal.Scaled
import PackageHandling.Json.Reader
import PackageHandling.Json.Decode
import PackageHandling.Accessor
import PackageHandling.Digest.Blake3
import PackageHandling.Version
import PackageHandling.Toml.Document
import PackageHandling.Config
import PackageHandling.Expectation
import PackageHandling.Failure
import PackageHandling.Answer
import PackageHandling.Calendar.Instant
import PackageHandling.Metadata
import PackageHandling.Operation
import PackageHandling.Handle
import PackageHandling.Worker
import PackageHandling.Fulfillment
import PackageHandling.Lookup
import PackageHandling.Reach
import PackageHandling.Readiness
import PackageHandling.CancelScope
import PackageHandling.Decimal.Fraction
import PackageHandling.Job
import PackageHandling.Rehearsal.Storage
import PackageHandling.Process
import PackageHandling.Timeline
import PackageHandling.Worksite
import PackageHandling.Dispatcher
import PackageHandling.Rehearsal.Handlers
import PackageHandling.Rehearsal.Lifecycle
import PackageHandling.Rehearsal.Trial
import PackageHandling.Rehearsal.Errand
import PackageHandling.Rehearsal.Document
import PackageHandling.Rehearsal.Document.Steps
import PackageHandling.Pipe
import PackageHandling.Rehearsal.Haul
import PackageHandling.Rehearsal.Folder
import PackageHandling.Proofs.Lookup.Answer
import PackageHandling.Proofs.Job.Outcome
import PackageHandling.Proofs.Job.Cancelling
import PackageHandling.Proofs.Job.Pacing
import PackageHandling.Proofs.Job.Simulation
import PackageHandling.Proofs.Job.Trials
import PackageHandling.Proofs.Job.SharedCleanup
import PackageHandling.Proofs.Job.Failing
import PackageHandling.Proofs.Job.LateReports
import PackageHandling.Proofs.Lookup.Trace
import PackageHandling.Proofs.Lookup.Rearranged
import PackageHandling.Proofs.Fulfillment.Removal
import PackageHandling.Proofs.Dispatcher.Budget
import PackageHandling.Proofs.Dispatcher.Routing
import PackageHandling.Proofs.Version.Construction
import PackageHandling.Proofs.Readiness.Versions
import PackageHandling.Proofs.Expectation.RoundTrip
import PackageHandling.Proofs.Version.Agreement
import PackageHandling.Proofs.Version.Copied
import PackageHandling.Proofs.CancelScope.Use
import PackageHandling.Proofs.Pipe.Copying
import PackageHandling.Proofs.Reach.Best
import PackageHandling.Proofs.Readiness.Stability
import PackageHandling.Proofs.Readiness.Source
import PackageHandling.Proofs.Readiness.Gate
import PackageHandling.Proofs.Fulfillment.Verdict
import PackageHandling.Proofs.Job.CleanupEnd
import PackageHandling.Proofs.Config.Layers
import PackageHandling.Proofs.Config.Acceptance
import PackageHandling.Proofs.Reach.Growth
import PackageHandling.Proofs.Readiness.Budget
