import PackageHandling.Handle
import PackageHandling.Metadata
import PackageHandling.Answer

/-!
# Fulfillment

A target is as expected when the record beside it names the current version of the source.
-/

namespace PackageHandling

variable {β : Type}

/-- How a record compares with the hash of the source: none if they agree. -/
def staleness (kind : RecordKind) (accessorId sourceHash : String) :
    Option kind.Record → Option Rejection
  | none =>
    some (.ofKnown "Target package not found"
      ("No metadata found for accessor \"" ++ accessorId ++ "\""))
  | some record =>
    if kind.recordedHash record = some sourceHash then none
    else
      some (.ofKnown "Target version doesn't match source version"
        ("Target records source version " ++ (kind.recordedHash record).getD "(none)" ++
          ", source is at " ++ sourceHash))

/-- Take a stale package away; that this fails is only told to the log. -/
def Handle.dropStale (h : Handle β) : Plan β Note Unit := do
  .say (.logged (.staleTarget h.accessorId))
  match ← h.removePackage "Target no longer matches source" with
  | .ok () => return
  | .error f => .say (.logged (.staleTargetStays h.accessorId f.message))

/-- Compare the record beside a target with the source; a target that was fulfilled before and
no longer is gets removed. -/
def Handle.checkFulfilled (h : Handle β) (kind : RecordKind) (sourceHash : String)
    (wasFulfilled : Bool) : Plan β Note (Except Failure Fulfillment) := do
  match ← h.fetchRecord kind.decode with
  | .error f => return .error f
  | .ok record =>
    match staleness kind h.accessorId sourceHash record with
    | none => return .ok (.ok ())
    | some r =>
      if wasFulfilled then h.dropStale
      return .ok (.error r)

end PackageHandling
