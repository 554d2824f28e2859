import PackageHandling.Job
import PackageHandling.Process

/-!
# Worksites

A worksite is the place of a job in a larger state.  Here the steps of a job are put on the
clock: its body runs once the caller has let go, a progress timer lies between a report and its
event, and the cleanup of a cancel runs by itself, whoever waits for it.
-/

namespace PackageHandling

structure Worksite (σ : Type) where
  get : σ → Job
  put : Job → σ → σ
  tell : List LogEvent → σ → σ

namespace Worksite

variable {σ β ν : Type}

/-- A step of the job, and what it tells the log. -/
def take (site : Worksite σ) (step : Job.Step) (next : Process σ) : Process σ :=
  .modify (fun _ s => site.tell (step (site.get s)).2 (site.put (step (site.get s)).1 s)) next

/-- The timer between a report and its event. -/
def progressTimer (site : Worksite σ) (interval : Nat) : Process σ :=
  .wait interval (site.take (fun j => (j.flush, [])) .stop)

def report (site : Worksite σ) (r : JobReport) (next : Process σ) : Process σ :=
  match r with
  | .progress hash fraction =>
    Process.step (fun _ s =>
      let (j, arm) := (site.get s).reportProgress hash fraction
      ((j.progressInterval, arm), site.put j s)) fun (interval, arm) =>
    if arm then .spawn (site.progressTimer interval) next else next
  | .complete hash reason result => site.take (Job.reportComplete hash reason result) next
  | .error reason => site.take (Job.reportError reason) next

/-- Start the body.  It waits for those that are ready before its first step. -/
def start (site : Worksite σ) (body : Activity σ BodyEnd) : Activity σ (Except Failure Unit) :=
  fun next => .look fun _ s =>
    match (site.get s).start with
    | .error f => next (.error f)
    | .ok (j, log) =>
      .set (site.tell log (site.put j s))
        (.spawn (.giveWay (body fun e => site.take (Job.endBody e) .stop)) (next (.ok ())))

/-- The cleanup, from the call of the callback to its end. -/
def cleanup (site : Worksite σ) (place : Process.Setting β σ ν) (callback : Plan β ν CleanupEnd) :
    Process σ :=
  site.take Job.beginCleanup <|
  .look fun _ s =>
  Process.perform place ((site.get s).boundCleanup callback) fun e =>
  site.take (Job.settleCleanup e) <|
  site.take (fun j => (j.endCleanup, [])) .stop

/-- Cancel the job and wait for the end of its cleanup; no answer when the caller is dropped at
its limit.  Only the caller that started the cleanup is told of its error. -/
def cancel (site : Worksite σ) (place : Process.Setting β σ ν) (callback : Plan β ν CleanupEnd)
    (limit : Option Nat) : Activity σ (Option (Except Failure Unit)) := fun next =>
  Process.step (fun _ s =>
    let (j, first) := (site.get s).requestCancel
    (first, site.put j s)) fun first =>
  let wait : Process σ :=
    Process.awaiting (fun s => (site.get s).cleanup = .ended) limit fun ended =>
    if !ended then next none
    else if !first then next (some (.ok ()))
    else
      Process.step (fun _ s =>
        let (j, result) := (site.get s).takeCancelError
        (result, site.put j s)) fun result => next (some result)
  if first then .spawn (site.cleanup place callback) wait else wait

/-- Wait for the outcome. -/
def outcome (site : Worksite σ) (limit : Option Nat) : Activity σ (Option JobOutcome) := fun next =>
  Process.awaiting (fun s => (site.get s).ended) limit fun _ =>
  .look fun _ s => next (site.get s).outcome

end Worksite
end PackageHandling
