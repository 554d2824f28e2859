import PackageHandling.Rehearsal.Storage
import PackageHandling.Handler
import PackageHandling.Fulfillment

/-!
# Handlers to rehearse with

The copy handler brings a package from its source to its target and leaves a record of the
source version there; it does so on any storage.  The scripted handler says what it is told to.
-/

namespace PackageHandling
namespace Rehearsal

variable {β : Type}

namespace Copy

/-- Behind the guard that the expectation is of type `t`. -/
def guarded {α : Type} (t : ExpectationType) (e : Expectation) (p : Phase β α) : Phase β α :=
  match e.requireType t with
  | .error f => .done (.error f)
  | .ok () => p

def readableTarget : LookupChecks := { read := true, packageRead := true }

def writableTarget : LookupChecks := { write := true, containerWrite := true }

def fulfilled (w : Worker β) (e : Expectation) (was : Bool) :
    Plan β Note (Except Failure Fulfillment) := do
  match ← w.lookupSources e (sourceChecks e) with
  | .error r => return .ok (.error r)
  | .ok source =>
    match ← w.lookupTargets e readableTarget with
    | .error r => return .ok (.error r)
    | .ok target =>
      match ← source.handle.getVersion with
      | .error f => return .error f
      | .ok version => target.handle.checkFulfilled .versionMetadata version.table.hash was

/-- Record the version of the source at the target. -/
def body (source target : Handle β) : Plan β JobNote (Except Failure Unit) := do
  match ← source.getVersion.mapNotes .observed with
  | .error f => return .error f
  | .ok version =>
    let hash := version.table.hash
    .say (.reported (.progress (some hash) .half))
    let record := VersionMetadata.ofVersion version.table
    match ← (target.storeRecord record.toJson).mapNotes .observed with
    | .error f => return .error f
    | .ok () =>
      .say (.reported (.complete (some hash) (.plain "Copy completed") none))
      return .ok ()

def work (w : Worker β) (e : Expectation) : Plan β Note (Except Failure (Assignment β)) := do
  match ← w.lookupSources e (sourceChecks e) with
  | .error r => return .error (.other ("No source: " ++ r.message) [])
  | .ok source =>
    match ← w.lookupTargets e writableTarget with
    | .error r => return .error (.other ("No target: " ++ r.message) [])
    | .ok target =>
      return .ok {
        label := "Copying " ++ e.id
        body := body source.handle target.handle
        cleanup := target.handle.removePackage "Copy cancelled" }

def remove (w : Worker β) (e : Expectation) (reason : String) :
    Plan β Note (Except Failure Removal) := do
  match ← w.lookupTargets e { write := true } with
  | .error r => return .ok (.error r)
  | .ok target =>
    match ← target.handle.removePackage reason with
    | .error f => return .error f
    | .ok () => return (← target.handle.removeMetadata).map .ok

end Copy

/-- The copy handler for a type; `today` is the current time in milliseconds. -/
def copyHandler (today : Int) (t : ExpectationType) : Handler β where
  type := t
  support w e := Copy.guarded t e (.done (.ok (w.reaches (some e.sources) (some e.targets))))
  ready w e := Copy.guarded t e ((w.checkSource e today).bind fun r => .done (.ok r))
  fulfilled w e was := Copy.guarded t e (Copy.fulfilled w e was)
  work w e := Copy.guarded t e (Copy.work w e)
  remove w e reason := Copy.guarded t e (Copy.remove w e reason)

/-- What a scripted handler says; without a cost of its own it asks the tables. -/
structure HandlerScript where
  support : Timed (Except Failure Check)
  cost : Option (Timed (Except Failure (Option Nat)))
  ready : Timed (Except Failure Readiness)
  fulfilled : Timed (Except Failure Fulfillment)
  work : Timed (Except Failure String)
  remove : Timed (Except Failure Removal)

def Timed.plan {α : Type} (a : Timed α) : Plan β Note α := .wait a.delay (.done a.answer)

/-- A job that completes at once. -/
def instantJob (label : String) : Assignment β where
  label := label
  body := .note (.reported (.complete none (.plain "Scripted") none)) (.done (.ok ()))
  cleanup := .done (.ok ())

/-- A handler that does not look at its expectation. -/
def scriptedHandler (t : ExpectationType) (s : HandlerScript) : Handler β where
  type := t
  support _ _ := s.support.plan
  cost w e := match s.cost with
    | some cost => cost.plan
    | none => w.guardedCost t e
  ready _ _ := s.ready.plan
  fulfilled _ _ _ := s.fulfilled.plan
  work _ _ := s.work.plan.bind fun r => .done (r.map instantJob)
  remove _ _ _ := s.remove.plan

end Rehearsal
end PackageHandling
