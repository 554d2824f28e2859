import PackageHandling.Answer
import PackageHandling.Config
import PackageHandling.Log
import PackageHandling.Plan
import PackageHandling.Decimal.Fraction

/-!
# Jobs

A job is work that runs on its own, reports progress and can be cancelled.  Its state changes
by the atomic steps below, in whatever order its body, its progress timer, its cleanup and its
callers take them.
-/

namespace PackageHandling

inductive JobEvent
  | progress (hash : Option String) (fraction : Fraction)
  | done (hash : Option String) (reason : Reason) (result : Option Json)
  | failed (reason : Reason)
  deriving Inhabited

def JobEvent.isTerminal : JobEvent → Bool
  | progress .. => false
  | _ => true

/-- How a job ended. -/
inductive JobOutcome
  | done (hash : Option String) (reason : Reason) (result : Option Json)
  | failed (reason : Reason)
  | cancelled
  deriving Inhabited

/-- The stages of the cleanup that the first cancel starts. -/
inductive CleanupStage
  | none | requested | running | ended
  deriving DecidableEq, Inhabited

/-- How a body came to its end. -/
inductive BodyEnd
  | returned | failed (full : String) | panicked (message : String)
  deriving DecidableEq, Inhabited

/-- How a cleanup callback came to its end; it may panic in the call itself, or later while it is
under way. -/
inductive CleanupEnd
  | succeeded | failed (f : Failure) | panicked (message : String) | callPanicked
  deriving DecidableEq, Inhabited

/-- The message of a panic that brings no text. -/
def BodyEnd.unknownPanic : String := "panic in work body"

def BodyEnd.ofResult : Except Failure Unit → BodyEnd
  | .ok () => returned
  | .error f => failed f.fullMessage

def CleanupEnd.ofResult : Except Failure Unit → CleanupEnd
  | .ok () => succeeded
  | .error f => .failed f

/-- What a body reports on its job. -/
inductive JobReport
  | progress (hash : Option String) (fraction : Fraction)
  | complete (hash : Option String) (reason : Reason) (result : Option Json)
  | error (reason : Reason)
  deriving Inhabited

structure Job where
  label : String
  progressInterval : Nat
  cancelTimeout : Nat
  started : Bool := false
  hash : Option String := none
  fraction : Fraction := .zero
  flushPending : Bool := false
  outcome : Option JobOutcome := none
  events : List JobEvent := []
  cancelled : Bool := false
  cleanup : CleanupStage := .none
  cancelError : Option Failure := none
  deriving Inhabited

namespace Job

def create (label : String) (config : Config) : Job :=
  { label, progressInterval := config.progressInterval, cancelTimeout := config.cancelTimeout }

def ended (j : Job) : Bool := j.outcome.isSome

/-- A step of a job: its new state and what it tells the log. -/
abbrev Step := Job → Job × List LogEvent

/-- Record the outcome and emit its event, unless there is an outcome already. -/
def finish (outcome : JobOutcome) (event : Option JobEvent) (j : Job) : Job :=
  if j.ended then j
  else { j with outcome := some outcome, events := j.events ++ event.toList }

/-- Only one body may ever be started. -/
def start (j : Job) : Except Failure (Job × List LogEvent) :=
  if j.started then .error (.alreadyStarted j.label)
  else .ok ({ j with started := true }, [.workStarting j.label])

/-- Take the latest values; the answer is whether a progress timer is to be armed. -/
def reportProgress (hash : Option String) (fraction : Fraction) (j : Job) : Job × Bool :=
  ({ j with hash, fraction := fraction.clamp, flushPending := true }, !j.flushPending)

/-- The progress timer fires: one event with the latest values, unless the job has ended. -/
def flush (j : Job) : Job :=
  let j := { j with flushPending := false }
  if j.ended then j else { j with events := j.events ++ [.progress j.hash j.fraction] }

/-- The values are taken even when the report is too late to count. -/
def reportComplete (hash : Option String) (reason : Reason) (result : Option Json) : Step :=
  fun j =>
  let log := .workDone j.label :: if j.ended then [.lateCompletion j.label] else []
  let latest := { j with hash, fraction := .one }
  (latest.finish (.done hash reason result) (some (.done hash reason result)), log)

def reportError (reason : Reason) : Step := fun j =>
  let log := .workFailed j.label reason.tech :: if j.ended then [.lateError j.label] else []
  (j.finish (.failed reason) (some (.failed reason)), log)

/-- A body that failed is the job's failure, unless the job was cancelled. -/
def endBody (e : BodyEnd) : Step := fun j =>
  let fail (reason : Reason) : Job × List LogEvent :=
    if j.cancelled then (j, [.bodyEndedAfterCancel j.label reason.tech]) else j.reportError reason
  match e with
  | .returned => (j, [])
  | .failed full => fail ⟨"Work failed", full⟩
  | .panicked message => fail ⟨"Work failed unexpectedly", message⟩

/-- The first cancel trips the token and asks for the cleanup; the answer is whether this was
the first. -/
def requestCancel (j : Job) : Job × Bool :=
  if j.cleanup = .none then ({ j with cancelled := true, cleanup := .requested }, true)
  else (j, false)

/-- The cleanup callback is called. -/
def beginCleanup : Step := fun j => ({ j with cleanup := .running }, [.cancelling j.label])

def failCleanup (f : Failure) : Step := fun j =>
  ({ j with cancelError := some f }.finish .cancelled none, [.cleanupFailed j.label f.message])

/-- The callback has come to its end, by itself or cut off.  A panic in the call itself takes the
whole cleanup with it, and the job keeps waiting for its outcome. -/
def settleCleanup : CleanupEnd → Step
  | .succeeded, j => (j.finish .cancelled none, [])
  | .failed f, j => failCleanup f j
  | .panicked message, j => failCleanup (.other ("cancel cleanup panicked: " ++ message) []) j
  | .callPanicked, j => (j, [])

/-- The callback, cut off at the cancel timeout. -/
def boundCleanup {β ν : Type} (j : Job) (callback : Plan β ν CleanupEnd) : Plan β ν CleanupEnd := do
  match ← callback.within j.cancelTimeout with
  | some e => return e
  | none => return .failed (.elapsed "cancel work" j.cancelTimeout)

/-- The cleanup is over, whatever became of it. -/
def endCleanup (j : Job) : Job := { j with cleanup := .ended }

/-- The error of the cleanup, for the caller that started it. -/
def takeCancelError (j : Job) : Job × Except Failure Unit :=
  match j.cancelError with
  | some f => ({ j with cancelError := none }, .error f)
  | none => (j, .ok ())

def properties (j : Job) : WorkProperties := ⟨j.label⟩

/-- How a job shows itself to a developer. -/
def inspect (id : String) (j : Job) : String :=
  Text.inspectRecord "WorkInProgress"
    [("id", Text.inspect id), ("properties", j.properties.inspect),
      ("cancelled", toString j.cancelled)]

end Job

/-- A consumer of a job's events that has seen some of them. -/
structure Subscriber where
  seen : Nat
  deriving DecidableEq, Inhabited

/-- What a consumer receives: events, or the number of those it has missed. -/
inductive Received
  | event (e : JobEvent) | missed (count : Nat)
  deriving Inhabited

namespace Subscriber

/-- How many of the latest events are kept for slow consumers. -/
def capacity : Nat := 256

/-- A new consumer sees what comes after it. -/
def join (j : Job) : Subscriber := ⟨j.events.length⟩

/-- Everything the consumer can receive now. -/
def receive (s : Subscriber) (j : Job) : List Received × Subscriber :=
  let total := j.events.length
  let kept := max s.seen (total - capacity)
  let missed := if s.seen < kept then [.missed (kept - s.seen)] else []
  (missed ++ (j.events.drop kept).map .event, ⟨total⟩)

end Subscriber
end PackageHandling
