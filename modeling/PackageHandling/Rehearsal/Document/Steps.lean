import PackageHandling.Rehearsal.Document
import PackageHandling.Rehearsal.Trial
import PackageHandling.Rehearsal.Errand
import PackageHandling.Rehearsal.Haul

/-!
# Steps as documents

The steps of the rehearsals, and the handlers of a dispatcher, as they are written down in JSON.
-/

namespace PackageHandling
namespace Rehearsal
namespace Document

/-- A number, or the name of one that has no digits. -/
def fractionOf : Json → Decoded Fraction
  | .num (.double bits) => return ⟨bits⟩
  | .num (.int n) => return .ofInt n
  | .str "nan" => return .nan
  | .str "inf" => return .infinity
  | .str "-inf" => return .negInfinity
  | v => v.mismatch "a number"

def bodyStep (v : Json) : Decoded BodyStep := do
  match ← text v "do" with
  | "sleep" => return .sleep (← natD v "ms" 0)
  | "progress" =>
    return .report (.progress (← textOption v "hash") (← fractionOf (field v "progress")))
  | "complete" =>
    let result ← (v.member? "result").mapM Json.asFree
    let hash ← textOption v "hash"
    return .report (.complete hash (.plain (← text v "reason")) result)
  | "error" => return .report (.error ⟨← text v "user", ← text v "tech"⟩)
  | "fail" => return .finish (.failed (← failureOf (field v "error")).fullMessage)
  | "failAny" =>
    let f : Failure := .other (← text v "message") (← (← list v "contexts").mapM Json.asText)
    return .finish (.failed f.fullMessage)
  | "panic" => return .finish (.panicked (← text v "message"))
  | "panicStr" => return .finish (.panicked "a static message")
  | "panicOther" => return .finish (.panicked BodyEnd.unknownPanic)
  | "awaitCancel" | "awaitToken" => return .awaitCancel
  | "note" => return .note (← text v "text")
  | "return" => return .finish .returned
  | other => throw (.variant other [])

def cleanupOf (v : Json) : Decoded CleanupScript := do
  let panicked ← textOption v "panic"
  let failed ← failureOption v "error"
  let ending := match ← boolD v "panicNow" false, panicked, failed with
    | true, _, _ => .callPanicked
    | _, some message, _ => .panicked message
    | _, _, some f => .failed f
    | _, _, none => .succeeded
  return ⟨← natD v "delayMs" 0, ending⟩

def trialStep (v : Json) : Decoded TrialStep := do
  match ← text v "do" with
  | "subscribe" => return .subscribe
  | "drain" => return .drain (← natD v "subscriber" 0)
  | "start" =>
    if ← boolD v "panicNow" false then
      return .start [.finish (.panicked "panicked before its future")]
    return .start (← (← list v "body").mapM bodyStep)
  | "sleep" => return .sleep (← natD v "ms" 0)
  | "cancel" => return .cancel none
  | "cancelDrop" => return .cancel (some (← natD v "ms" 0))
  | "spawnCancel" => return .spawnCancel
  | "joinCancel" => return .joinCancel (← natD v "task" 0)
  | "state" => return .state
  | "wait" => return .wait (← natD v "ms" 0)
  | "notes" => return .notes
  | other => throw (.variant other [])

/-- A phase of a scripted handler; an answer of the wrong shape is the failure of the phase. -/
def phaseScript {α : Type} (v : Json) (decode : Json → Decoded α) :
    Decoded (Timed (Except Failure α)) := do
  let answer := match ← failureOption v "error" with
    | some f => .error f
    | none => (decode (field v "answer")).mapError Failure.ofMismatch
  return ⟨← natD v "delayMs" 0, answer⟩

/-- Null is the positive answer. -/
def checkAnswer : Json → Decoded Check
  | .null => return .ok ()
  | v => .error <$> Rejection.ofJson v

def handlerScript (v : Json) : Decoded HandlerScript := do
  return {
    support := ← phaseScript (field v "support") checkAnswer
    cost := ← (v.member? "cost").mapM fun c => phaseScript c (Json.asOption Json.asNat32)
    ready := ← phaseScript (field v "ready") Readiness.ofJson
    fulfilled := ← phaseScript (field v "fulfilled") checkAnswer
    work := ← phaseScript (field v "work") Json.asText
    remove := ← phaseScript (field v "remove") checkAnswer }

/-- A handler for a place; without a script it copies. -/
def handlerOf (today : Int) (slot : ExpectationType) (v : Json) : Decoded (Handler Storage) := do
  let t ← match field v "type" with
    | .null => pure slot
    | t => ExpectationType.ofJson t
  match field v "script" with
  | .null => return copyHandler today t
  | s => return scriptedHandler t (← handlerScript s)

/-- A table of handlers; the places that are not written hold copy handlers. -/
def handlersOf (today : Int) (v : Json) : Decoded (ExpectationType → Handler Storage) := do
  (← entries (field v "handlers")).foldlM (fun table e => do
    let slot ← ExpectationType.ofJson (.str e.1)
    let handler ← handlerOf today slot e.2
    return fun t => if t = slot then handler else table t) (copyHandler today)

/-- A step names its expectation by its place in the list. -/
def lifecycleStep (expectations : List Expectation) (v : Json) : Decoded LifecycleStep := do
  let i ← natD v "expectation" 0
  let e : Decoded Expectation := match expectations[i]? with
    | some e => .ok e
    | none => .error (.missing "expectation")
  match ← text v "do" with
  | "handlerType" => return .handlerType (← e)
  | "workerId" => return .workerId
  | "support" => return .support (← e)
  | "cost" => return .cost (← e)
  | "ready" => return .ready (← e)
  | "fulfilled" => return .fulfilled (← e) (← boolD v "was" false)
  | "remove" => return .remove (← e) (← text v "reason")
  | "work" => return .work (← e) (← natD v "waitMs" 0) (← natOption v "cancelAfterMs")
  | "configure" =>
    let behavior := field v "behavior"
    let record ← (behavior.member? "metadata").mapM Json.asFree
    return .configure (← text v "id") (← scriptOf behavior) record
  | "sleep" => return .sleep (← natD v "ms" 0)
  | "metadata" => return .records
  | other => throw (.variant other [])

def errandWork (v : Json) : Decoded ErrandWork := do
  match ← text v "do" with
  | "sleep" => return .sleep (← natD v "ms" 0)
  | "awaitCancel" | "awaitToken" => return .awaitCancel
  | "fail" => return .settle (.error (← failureOf (field v "error")))
  | "return" => return .settle (.ok (← (field v "value").asFree))
  | other => throw (.variant other [])

def errandStep (v : Json) : Decoded ErrandStep := do
  match ← text v "do" with
  | "cancel" => return .cancel
  | "cancelTask" => return .cancelTask
  | "register" => return .register (← text v "name")
  | "spawn" => return .spawn
  | "sleep" => return .sleep (← natD v "ms" 0)
  | "isFinished" => return .isFinished
  | "await" => return .await (← natD v "ms" 0)
  | other => throw (.variant other [])

def sourceStep (v : Json) : Decoded SourceStep :=
  match field v "bytes", field v "delayMs" with
  | .null, .null => return .fail (← text v "error")
  | .null, n => return .wait (← n.asNat64)
  | n, _ => return .bytes (← n.asNat64)

def targetOf (v : Json) : Decoded TargetScript := do
  return {
    delay := ← natD v "delayMs" 0
    mostAtOnce := ← natOption v "maxChunk"
    quota := ← natOption v "failAfter"
    quotaMessage := (← textOption v "error").getD ""
    flushError := ← textOption v "flushError"
    closeError := ← textOption v "shutdownError" }

end Document
end Rehearsal
end PackageHandling
