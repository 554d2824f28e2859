/-!
# Log events

What the worker tells its log, each kind of event with its own fields.
-/

namespace PackageHandling

inductive LogLevel
  | debug | info | warn
  deriving DecidableEq, Inhabited

inductive LogEvent
  | accessorSelected (container accessor usage : String)
  | accessorRejected (container accessor : String) (known : Bool) (tech : String)
  | sourceIsOld (accessor : String)
  | staleTarget (accessor : String) | staleTargetStays (accessor error : String)
  | phaseTimedOut (expectation phase error : String)
  | workStarting (work : String) | workDone (work : String) | workFailed (work tech : String)
  | lateCompletion (work : String) | lateError (work : String)
  | bodyEndedAfterCancel (work tech : String)
  | cancelling (work : String) | cleanupFailed (work error : String)
  | transferCancelled (copied : Nat)
  | sendingMessage (worker manager type : String)
  deriving DecidableEq, Inhabited

namespace LogEvent

def level : LogEvent → LogLevel
  | accessorSelected .. | accessorRejected .. | sourceIsOld _ | bodyEndedAfterCancel ..
  | transferCancelled _ | sendingMessage .. => .debug
  | staleTarget _ | workStarting _ | workDone _ | cancelling _ => .info
  | staleTargetStays .. | phaseTimedOut .. | workFailed .. | lateCompletion _ | lateError _
  | cleanupFailed .. => .warn

def message : LogEvent → String
  | accessorSelected .. => "Accessor selected"
  | accessorRejected .. => "Accessor rejected"
  | sourceIsOld _ => "Source is old, skipping stability wait"
  | staleTarget _ => "Removing outdated target package"
  | staleTargetStays .. => "Failed to remove outdated target"
  | phaseTimedOut .. => "Phase timed out"
  | workStarting _ => "Work starting"
  | workDone _ => "Work done"
  | workFailed .. => "Work failed"
  | lateCompletion _ => "Completion reported after work ended"
  | lateError _ => "Error reported after work ended"
  | bodyEndedAfterCancel .. => "Work body ended after cancel"
  | cancelling _ => "Cancelling work"
  | cleanupFailed .. => "Cancel cleanup failed"
  | transferCancelled _ => "Package pipe cancelled"
  | sendingMessage .. => "Sending message to manager"

def fields : LogEvent → List (String × String)
  | accessorSelected container accessor usage =>
    [("container", container), ("accessor", accessor), ("usage", usage)]
  | accessorRejected container accessor known tech =>
    [("container", container), ("accessor", accessor), ("known", toString known), ("tech", tech)]
  | sourceIsOld accessor | staleTarget accessor => [("accessor", accessor)]
  | staleTargetStays accessor error => [("accessor", accessor), ("error", error)]
  | phaseTimedOut expectation phase error =>
    [("expectation", expectation), ("phase", phase), ("error", error)]
  | workStarting work | workDone work | lateCompletion work | lateError work | cancelling work =>
    [("work", work)]
  | workFailed work tech | bodyEndedAfterCancel work tech => [("work", work), ("tech", tech)]
  | cleanupFailed work error => [("work", work), ("error", error)]
  | transferCancelled copied => [("copied", toString copied)]
  | sendingMessage worker manager type =>
    [("worker", worker), ("manager", manager), ("message_type", type)]

end LogEvent
end PackageHandling
