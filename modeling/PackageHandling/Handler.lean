import PackageHandling.Job
import PackageHandling.Reach

/-!
# Task handlers

A handler knows how to do one type of work.  Its phases answer whether the work can be done,
what it costs, whether it can start and whether it is done already; they hand out the job, and
they take its result away again.
-/

namespace PackageHandling

/-- What the body of a job shows: what can be observed of its calls, and its reports. -/
inductive JobNote
  | observed (n : Note) | reported (r : JobReport)
  deriving Inhabited

/-- A job that is ready to be started. -/
structure Assignment (β : Type) where
  label : String
  body : Plan β JobNote (Except Failure Unit)
  cleanup : Plan β Note (Except Failure Unit)

/-- An attempt of a handler; a failure stands for a fault, not for a negative answer. -/
abbrev Phase (β α : Type) := Plan β Note (Except Failure α)

/-- The cost by the tables, behind the guard that the expectation is of the handler's type. -/
def Worker.guardedCost {β : Type} (w : Worker β) (t : ExpectationType) (e : Expectation) :
    Phase β (Option Nat) :=
  .done ((e.requireType t).map fun () => w.standardCost e)

structure Handler (β : Type) where
  type : ExpectationType
  support : Worker β → Expectation → Phase β Check
  cost : Worker β → Expectation → Phase β (Option Nat) := fun w e => w.guardedCost type e
  ready : Worker β → Expectation → Phase β Readiness
  fulfilled : Worker β → Expectation → Bool → Phase β Fulfillment
  work : Worker β → Expectation → Phase β (Assignment β)
  remove : Worker β → Expectation → String → Phase β Removal

end PackageHandling
