import PackageHandling.Rehearsal.Lifecycle

/-!
# Trials of a job

One job with a scripted body and a scripted cleanup, taken through a list of steps on the
virtual clock: several consumers, several callers that cancel, some of them dropped.
-/

namespace PackageHandling
namespace Rehearsal

inductive BodyStep
  | sleep (ms : Nat) | report (r : JobReport) | awaitCancel | note (text : String)
  | finish (e : BodyEnd)

structure CleanupScript where
  delay : Nat := 0
  ending : CleanupEnd := .succeeded

inductive TrialStep
  | subscribe | drain (subscriber : Nat) | start (body : List BodyStep) | sleep (ms : Nat)
  | cancel (limit : Option Nat) | spawnCancel | joinCancel (task : Nat) | state
  | wait (ms : Nat) | notes

/-- What body and cleanup put down, with the time. -/
inductive TrialNote
  | body (time : Nat) (text : String) (cancelled : Bool) (label : String)
  | cleanup (time : Nat) (text : String)

inductive TrialAnswer
  | nothing | received (events : List Received) | called (r : Except Failure Unit) | dropped
  | state (j : Job) | outcome (o : Option JobOutcome) | notes (notes : List TrialNote)

structure Trial where
  job : Job
  subscribers : List Subscriber := []
  /-- The answers of the callers that cancel on their own. -/
  cancels : List (Option (Except Failure Unit)) := []
  notes : List TrialNote := []
  log : List LogEvent := []
  reports : List (TrialAnswer × Nat) := []

namespace Trial

def site : Worksite Trial where
  get := job
  put job t := { t with job }
  tell events t := { t with log := t.log ++ events }

def cleanupPlace : Process.Setting Unit Trial String where
  get _ := ()
  put _ t := t
  hear text := .modify fun now t => { t with notes := t.notes ++ [.cleanup now text] }

/-- The callback puts down that it was called and, when it gets so far, that it is done. -/
def callback (s : CleanupScript) : Plan Unit String CleanupEnd := do
  .say "cleanup called"
  if s.ending = .callPanicked then return .callPanicked
  .delay s.delay
  .say "cleanup done"
  return s.ending

def body : List BodyStep → Activity Trial BodyEnd
  | [], next => next .returned
  | .sleep ms :: rest, next => .wait ms (body rest next)
  | .report r :: rest, next => site.report r (body rest next)
  | .awaitCancel :: rest, next => .await (·.job.cancelled) none (body rest next)
  | .note text :: rest, next =>
    .modify (fun now t =>
      { t with notes := t.notes ++ [.body now text t.job.cancelled t.job.label] }) (body rest next)
  | .finish e :: _, next => next e

/-- What a consumer receives now. -/
def drain (i : Nat) (t : Trial) : TrialAnswer × Trial :=
  let (events, subscriber) := (t.subscribers.getD i ⟨0⟩).receive t.job
  (.received events, { t with subscribers := t.subscribers.set i subscriber })

variable (s : CleanupScript)

def act : TrialStep → Activity Trial TrialAnswer
  | .subscribe, next =>
    .modify (fun _ t => { t with subscribers := t.subscribers ++ [.join t.job] }) (next .nothing)
  | .drain i, next => Process.step (fun _ t => t.drain i) next
  | .start steps, next => site.start (body steps) fun r => next (.called r)
  | .sleep ms, next => .wait ms (next .nothing)
  | .cancel limit, next => site.cancel cleanupPlace (callback s) limit fun
    | some r => next (.called r)
    | none => next .dropped
  | .spawnCancel, next =>
    Process.step (fun _ t => (t.cancels.length, { t with cancels := t.cancels ++ [none] })) fun i =>
    .spawn (site.cancel cleanupPlace (callback s) none fun r =>
      .modify (fun _ t => { t with cancels := t.cancels.set i r }) .stop) (next .nothing)
  | .joinCancel i, next => .await (fun t => (t.cancels.getD i none).isSome) none <|
    .look fun _ t => next (((t.cancels.getD i none).map .called).getD .nothing)
  | .state, next => .look fun _ t => next (.state t.job)
  | .wait ms, next => site.outcome (some ms) fun o => next (.outcome o)
  | .notes, next => Process.step (fun _ t => (.notes t.notes, { t with notes := [] })) next

/-- The steps one after the other, each answer with the time when it came. -/
def script : List TrialStep → Process Trial
  | [] => .stop
  | step :: rest => act s step fun answer =>
    .modify (fun now t => { t with reports := t.reports ++ [(answer, now)] }) (script rest)

/-- The trial after all steps. -/
def run (label : String) (config : Config) (steps : List TrialStep) : Trial :=
  ((Timeline.start { job := .create label config } (script s steps)).run patience).state

end Trial
end Rehearsal
end PackageHandling
