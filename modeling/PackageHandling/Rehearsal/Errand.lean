import PackageHandling.CancelScope
import PackageHandling.Rehearsal.Lifecycle

/-!
# Errands

A computation with a cancel scope, taken through a list of steps on the virtual clock.  Its
owner can wait for it himself, and then it only goes on while he waits, or let it run by itself.
-/

namespace PackageHandling
namespace Rehearsal

inductive ErrandWork
  | sleep (ms : Nat) | awaitCancel | settle (r : Except Failure Json)

inductive ErrandStep
  | cancel | cancelTask | register (name : String) | spawn | sleep (ms : Nat) | isFinished
  | await (ms : Nat)

inductive ErrandAnswer
  | nothing | called (r : Except Failure Unit) | finished (b : Bool)
  | result (r : Except Failure Json) | pending

/-- Who has the errand: its owner, itself, or nobody any more. -/
inductive ErrandHolder
  | owner | itself | nobody
  deriving DecidableEq, Inhabited

structure ErrandReport where
  time : Nat
  answer : ErrandAnswer
  fired : List String
  /-- Whether the errand shows itself as cancelled to its owner. -/
  taskCancelled : Option Bool
  /-- Whether the scope does, if it was kept. -/
  scopeCancelled : Option Bool

structure Errand where
  /-- A handler without a name does nothing. -/
  scope : CancelScope (Option String) := {}
  scopeKept : Bool := true
  registered : List (Except Failure Unit) := []
  fired : List String := []
  rest : List ErrandWork := []
  /-- When the sleep under way ends. -/
  due : Option Nat := none
  holder : ErrandHolder := .owner
  result : Option (Except Failure Json) := none
  reports : List ErrandReport := []

namespace Errand

def register (handler : Option String) (e : Errand) : Except Failure Unit × Errand :=
  match e.scope.register handler with
  | .ok scope => (.ok (), { e with scope })
  | .error f => (.error f, e)

/-- An errand that registers its handlers at the outset, whatever becomes of that. -/
def create (handlers : List String) (work : List ErrandWork) : Errand :=
  handlers.foldl (fun e name =>
    let (r, e) := e.register (some name)
    { e with registered := e.registered ++ [r] }) { rest := work }

/-- An errand that is settled from the start; its handler does nothing. -/
def ready (r : Except Failure Json) : Errand :=
  ((({ rest := [.settle r], scopeKept := false } : Errand)).register none).2

def cancel (e : Errand) : Except Failure Unit × Errand :=
  match e.scope.cancel with
  | .ok (scope, handler) =>
    (.ok (), { e with scope, fired := e.fired ++ (handler.bind id).toList })
  | .error f => (.error f, e)

/-- What an errand comes to that is never settled. -/
def unsettled : Except Failure Json := .ok (.str "end of body")

/-- The errand running by itself. -/
def work : List ErrandWork → Process Errand
  | [] => .modify (fun _ e => { e with result := some unsettled }) .stop
  | .sleep ms :: rest => .wait ms (work rest)
  | .awaitCancel :: rest => .await (·.scope.tripped) none (work rest)
  | .settle r :: _ => .modify (fun _ e => { e with result := some r }) .stop

/-- The errand while its owner waits for it, up to a point in time; what is left is kept. -/
def attend (limit : Nat) : List ErrandWork → Activity Errand (Option (Except Failure Json))
  | [], next => next (some unsettled)
  | .sleep ms :: rest, next => .look fun now _ =>
    if now + ms ≤ limit then .wait ms (attend limit rest next)
    else
      .modify (fun now e => { e with rest, due := some (now + ms) })
        (.wait (limit - now) (next none))
  | .awaitCancel :: rest, next => .look fun now e =>
    if e.scope.tripped then attend limit rest next
    else
      .modify (fun _ e => { e with rest := .awaitCancel :: rest })
        (.wait (limit - now) (next none))
  | .settle r :: _, next => next (some r)

/-- What is left of the errand, from the end of the sleep under way. -/
def resume (limit : Nat) : Activity Errand (Option (Except Failure Json)) := fun next =>
  .look fun now e =>
    match e.due with
    | none => attend limit e.rest next
    | some due =>
      if due ≤ limit then
        .wait (due - now) (.modify (fun _ e => { e with due := none }) (attend limit e.rest next))
      else .wait (limit - now) (next none)

/-- The answer of a wait; an errand that has given its result is with nobody. -/
def answerOf (r : Option (Except Failure Json)) : Activity Errand ErrandAnswer := fun next =>
  match r with
  | some r => .modify (fun _ e => { e with holder := .nobody }) (next (.result r))
  | none => next .pending

def act : ErrandStep → Activity Errand ErrandAnswer
  | .cancel, next => Process.step (fun _ e => e.cancel) fun r => next (.called r)
  | .cancelTask, next => .look fun _ e =>
    if e.holder = .owner then Process.step (fun _ e => e.cancel) fun r => next (.called r)
    else next .nothing
  | .register name, next => .look fun _ e =>
    if e.scopeKept then Process.step (fun _ e => e.register (some name)) fun r => next (.called r)
    else next .nothing
  | .spawn, next => .look fun _ e =>
    if e.holder = .owner then
      .modify (fun _ e => { e with holder := .itself })
        (.spawn (.look fun now e => .wait (e.due.getD now - now) (work e.rest)) (next .nothing))
    else next .nothing
  | .sleep ms, next => .wait ms (next .nothing)
  | .isFinished, next => .look fun _ e =>
    next (if e.holder = .itself then .finished e.result.isSome else .nothing)
  | .await ms, next => .look fun now e =>
    match e.holder with
    | .owner => resume (now + ms) fun r => answerOf r next
    | .itself =>
      Process.awaiting (·.result.isSome) (some ms) fun _ => .look fun _ e => answerOf e.result next
    | .nobody => next .nothing

def report (time : Nat) (answer : ErrandAnswer) (e : Errand) : Errand :=
  let flag (visible : Bool) : Option Bool := if visible then some e.scope.tripped else none
  { e with reports := e.reports ++
      [⟨time, answer, e.fired, flag (e.holder = .owner), flag e.scopeKept⟩] }

/-- The steps one after the other, each with its report. -/
def script : List ErrandStep → Process Errand
  | [] => .stop
  | step :: rest => act step fun answer => .modify (fun now e => e.report now answer) (script rest)

/-- The errand after all steps. -/
def run (e : Errand) (steps : List ErrandStep) : Errand :=
  ((Timeline.start e (script steps)).run patience).state

end Errand
end Rehearsal
end PackageHandling
