import PackageHandling.Rehearsal.Handlers
import PackageHandling.Dispatcher
import PackageHandling.Worksite
import PackageHandling.Timeline

/-!
# Lifecycle rehearsals

A dispatcher is taken through a list of steps on scripted storage and on the virtual clock.
Jobs that are still under way go on during later steps.
-/

namespace PackageHandling
namespace Rehearsal

/-- So many turns suffice for any rehearsal. -/
def patience : Nat := 1000000000

inductive LifecycleStep
  | handlerType (e : Expectation) | workerId
  | support (e : Expectation) | cost (e : Expectation) | ready (e : Expectation)
  | fulfilled (e : Expectation) (was : Bool) | remove (e : Expectation) (reason : String)
  | work (e : Expectation) (limit : Nat) (cancelAfter : Option Nat)
  | configure (id : String) (script : AccessorScript) (record : Option Json)
  | sleep (ms : Nat) | records

/-- What became of a job while it was watched. -/
structure Watched where
  label : String
  /-- The answer of the cancel, if there was one. -/
  cancel : Option (Except Failure Unit)
  outcome : Option JobOutcome
  events : List Received

inductive LifecycleAnswer
  | nothing | type (t : ExpectationType) | workerId (id : String)
  | support (r : Except Failure Check) | cost (r : Except Failure (Option Nat))
  | ready (r : Except Failure Readiness) | fulfilled (r : Except Failure Fulfillment)
  | remove (r : Except Failure Removal) | work (r : Except Failure Watched)
  | records (r : Sorted Json)

/-- The answer of a step, the calls and remarks since the step before, and the time it took. -/
structure StepReport where
  answer : LifecycleAnswer
  calls : List String
  elapsed : Nat

structure Stage where
  storage : Storage
  jobs : List Job := []
  calls : List String := []
  log : List LogEvent := []
  reports : List StepReport := []

namespace Stage

def hear (n : Note) (s : Stage) : Stage :=
  { s with calls := s.calls ++ n.call?.toList, log := s.log ++ n.event?.toList }

/-- Close a step. -/
def report (answer : LifecycleAnswer) (elapsed : Nat) (s : Stage) : Stage :=
  { s with calls := [], reports := s.reports ++ [⟨answer, s.calls, elapsed⟩] }

/-- The place of the job with this number. -/
def site (i : Nat) : Worksite Stage where
  get s := s.jobs.getD i default
  put j s := { s with jobs := s.jobs.set i j }
  tell events s := { s with log := s.log ++ events }

/-- A new job, by its number. -/
def employ (j : Job) : Activity Stage Nat :=
  Process.step fun _ s => (s.jobs.length, { s with jobs := s.jobs ++ [j] })

def callPlace : Process.Setting Storage Stage Note where
  get := storage
  put storage s := { s with storage }
  hear n := .modify fun _ s => s.hear n

def bodyPlace (i : Nat) : Process.Setting Storage Stage JobNote where
  get := storage
  put storage s := { s with storage }
  hear
    | .observed n => .modify fun _ s => s.hear n
    | .reported r => (site i).report r

end Stage

namespace Lifecycle

variable (d : Dispatcher Storage)

/-- Start a job and watch it: perhaps cancel it after a while, then wait for its outcome. -/
def watch (a : Assignment Storage) (limit : Nat) (cancelAfter : Option Nat) :
    Activity Stage (Except Failure Watched) := fun next =>
  Stage.employ (d.job a) fun i =>
  let site := Stage.site i
  let body : Activity Stage BodyEnd := fun ended =>
    Process.perform (Stage.bodyPlace i) a.body fun r => ended (.ofResult r)
  site.start body fun
  | .error f => next (.error f)
  | .ok () => .look fun _ s =>
    let subscriber := Subscriber.join (site.get s)
    let see (cancel : Option (Except Failure Unit)) : Process Stage :=
      site.outcome (some limit) fun outcome =>
      .look fun _ s => next (.ok ⟨a.label, cancel, outcome, (subscriber.receive (site.get s)).1⟩)
    match cancelAfter with
    | none => see none
    | some ms => .wait ms (site.cancel Stage.callPlace (CleanupEnd.ofResult <$> a.cleanup) none see)

def act : LifecycleStep → Activity Stage LifecycleAnswer
  | .handlerType e, next => next (.type (d.handlerOf e).type)
  | .workerId, next => next (.workerId d.worker.id)
  | .support e, next => Process.perform Stage.callPlace (d.support e) fun r => next (.support r)
  | .cost e, next => Process.perform Stage.callPlace (d.cost e) fun r => next (.cost r)
  | .ready e, next => Process.perform Stage.callPlace (d.ready e) fun r => next (.ready r)
  | .fulfilled e was, next =>
    Process.perform Stage.callPlace (d.fulfilled e was) fun r => next (.fulfilled r)
  | .remove e reason, next =>
    Process.perform Stage.callPlace (d.remove e reason) fun r => next (.remove r)
  | .work e limit cancelAfter, next =>
    Process.perform Stage.callPlace (d.work e) fun
    | .error f => next (.work (.error f))
    | .ok a => watch d a limit cancelAfter fun r => next (.work r)
  | .configure id script record, next =>
    .modify (fun _ s => { s with storage := s.storage.configure id script record }) (next .nothing)
  | .sleep ms, next => .wait ms (next .nothing)
  | .records, next => .look fun _ s => next (.records s.storage.records)

/-- The steps one after the other, each with its report. -/
def script : List LifecycleStep → Process Stage
  | [] => .stop
  | step :: rest =>
    .look fun began _ => act d step fun answer =>
    .modify (fun now s => s.report answer (now - began)) (script rest)

/-- The stage after all steps. -/
def run (storage : Storage) (steps : List LifecycleStep) : Stage :=
  ((Timeline.start { storage } (script d steps)).run patience).state

end Lifecycle
end Rehearsal
end PackageHandling
