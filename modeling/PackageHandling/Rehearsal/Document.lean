import PackageHandling.Rehearsal.Storage
import PackageHandling.Lookup

/-!
# Rehearsals as documents

Scripts, workers and failures as they are written down in JSON.  A member that is left out reads
as null, and null stands for the usual value.
-/

namespace PackageHandling
namespace Rehearsal
namespace Document

/-- A member, null if it is left out. -/
def field (v : Json) (key : String) : Json := (v.member? key).getD .null

def text (v : Json) (key : String) : Decoded String := (field v key).asText

def textOption (v : Json) (key : String) : Decoded (Option String) :=
  Json.asOption Json.asText (field v key)

def natD (v : Json) (key : String) (fallback : Nat) : Decoded Nat :=
  match field v key with
  | .null => .ok fallback
  | x => x.asNat64

def nat (v : Json) (key : String) : Decoded Nat := (field v key).asNat64

def natOption (v : Json) (key : String) : Decoded (Option Nat) :=
  Json.asOption Json.asNat64 (field v key)

def boolD (v : Json) (key : String) (fallback : Bool) : Decoded Bool :=
  match field v key with
  | .null => .ok fallback
  | x => x.asBool

def list (v : Json) (key : String) : Decoded (List Json) :=
  match field v key with
  | .null => .ok []
  | .arr items => .ok items
  | x => x.mismatch "a sequence"

/-- The members of an object, in written order. -/
def entries : Json → Decoded (List (String × Json))
  | .null => .ok []
  | .obj members => .ok members
  | v => v.mismatch "a map"

/-- A failure by its kind. -/
def failureOf (v : Json) : Decoded Failure := do
  let accessType (key : String) : Decoded AccessType := AccessType.ofJson (field v key)
  match ← text v "kind" with
  | "Timeout" => return .timeout (← text v "label") ((← nat v "afterMs") * 1000)
  | "TimeoutMicros" => return .timeout (← text v "label") (← nat v "afterMicros")
  | "CancelHandlerMissing" => return .cancelHandlerMissing
  | "CancelHandlerAlreadySet" => return .cancelHandlerAlreadySet
  | "Cancelled" => return .cancelled (← text v "label")
  | "AlreadyStarted" => return .alreadyStarted (← text v "label")
  | "AccessorNotRegistered" => return .accessorNotRegistered (← accessType "accessType")
  | "Unsupported" => return .unsupported (← accessType "accessType") (← text v "operation")
  | "UnexpectedAccessorType" =>
    return .unexpectedAccessorType (← accessType "expected") (← accessType "actual")
  | "WrongExpectationType" =>
    return .wrongExpectationType (← ExpectationType.ofJson (field v "expected"))
      (← ExpectationType.ofJson (field v "actual"))
  | "Backend" => return .backend (← text v "accessorId") (← text v "message")
  | "Manager" => return .manager (← text v "managerId") (← text v "message")
  | "Config" => return .config (← text v "message")
  | "Io" => return .io (← text v "message")
  | "Json" => return .json (← text v "message")
  | "Other" => return .other (← text v "message") (← (← list v "contexts").mapM Json.asText)
  | k => throw (.variant k [])

def failureOption (v : Json) (key : String) : Decoded (Option Failure) :=
  match field v key with
  | .null => return none
  | e => some <$> failureOf e

/-- A rejection; its reason is known unless it says otherwise. -/
def rejectionOf (v : Json) : Decoded Rejection := do
  return ⟨⟨← text v "user", ← text v "tech"⟩, ← boolD v "known" true⟩

def checkOf (v : Json) (key : String) : Decoded Check :=
  match field v key with
  | .null => return .ok ()
  | r => .error <$> rejectionOf r

def timedCheck (v : Json) : Decoded (Timed Check) := do
  return ⟨← natD v "delayMs" 0, ← checkOf v "reject"⟩

def timedCall (v : Json) : Decoded (Timed (Except Failure Unit)) := do
  let answer := match ← failureOption v "error" with
    | some f => .error f
    | none => .ok ()
  return ⟨← natD v "delayMs" 0, answer⟩

/-- A refusal that does not say whether the package exists tells nothing else either. -/
def probeOf (v : Json) : Decoded (Timed (Except ProbeFailure Unit)) := do
  let answer ← match field v "reject" with
    | .null => pure (.ok ())
    | r => do
      let rejection ← rejectionOf r
      match field r "packageExists" with
      | .null => pure (.error (.missing rejection))
      | found => pure (.error ⟨rejection, ← found.asBool, ← boolD r "placeholder" false⟩)
  return ⟨← natD v "delayMs" 0, answer⟩

def versionScript (v : Json) : Decoded (Timed (Except Failure PackageVersion)) := do
  let answer ← match ← failureOption v "error" with
    | some f => pure (.error f)
    | none => .ok <$> PackageVersion.ofJson (field v "version")
  return ⟨← natD v "delayMs" 0, answer⟩

def scriptOf (v : Json) : Decoded AccessorScript := do
  let creation := field v "createHandle"
  return {
    create := (← timedCall creation).answer
    claimedType := ← Json.asOption AccessType.ofJson (field creation "reportsType")
    basic := ← checkOf (field v "checkHandleBasic") "reject"
    read := ← checkOf (field v "checkHandleRead") "reject"
    write := ← checkOf (field v "checkHandleWrite") "reject"
    packageRead := ← timedCheck (field v "checkPackageReadAccess")
    probe := ← probeOf (field v "tryPackageRead")
    containerWrite := ← timedCheck (field v "checkPackageContainerWriteAccess")
    versions := ← (← list v "versions").mapM versionScript
    remove := ← timedCall (field v "removePackage")
    fetch := ← timedCall (field v "fetchMetadata")
    update := ← timedCall (field v "updateMetadata")
    forget := ← timedCall (field v "removeMetadata") }

/-- Set an accessor's script and, if one is written, its record. -/
def configureOf (s : Storage) (id : String) (v : Json) : Decoded Storage := do
  return s.configure id (← scriptOf v) (← (v.member? "metadata").mapM Json.asFree)

def storageOf (v : Json) : Decoded Storage := do
  (← entries (field v "behaviors")).foldlM (fun s e => configureOf s e.1 e.2) {}

/-- Settings over the constants; no environment counts here. -/
def settings (v : Json) : Decoded Config := Config.ofJson (fun _ => none) v

def configOf (v : Json) : Decoded Config := settings (field v "config")

/-- A worker on storage of the registered kinds, of which some may be unreachable. -/
def workerWith {β : Type} (registry : List AccessType → List AccessType → Registry β) (v : Json) :
    Decoded (Worker β) := do
  let w := field v "worker"
  let id ← match field w "id" with
    | .null => pure "worker0"
    | x => x.asText
  let location ← match field w "location" with
    | .null => pure ⟨some "pc-1", ["studio"]⟩
    | x => Location.ofJson x
  let registered ← match field w "registered" with
    | .null => pure AccessType.all
    | x => Json.asList AccessType.ofJson x
  let unreachable ← (← list w "unreachable").mapM AccessType.ofJson
  let config ← match field w "config" with
    | .null => settings (.obj [])
    | x => settings x
  return ⟨id, location, config, registry registered unreachable⟩

def workerOf (v : Json) : Decoded (Worker Storage) := workerWith Storage.registry v

/-- The key by which a custom check names a pair. -/
def pairKey (p : Pair) : String :=
  p.container.id ++ "/" ++ p.accessorId ++ "/" ++ p.accessor.accessType.name

/-- A custom check is written as the pairs that it rejects. -/
def customOf : Json → Decoded (Option (Pair → Check))
  | .null => return none
  | v => do
    let rejections ← (← entries v).mapM fun e => return (e.1, ← rejectionOf e.2)
    return some fun p => match rejections.lookup (pairKey p) with
      | some r => .error r
      | none => .ok ()

def checksOf (v : Json) : Decoded LookupChecks := do
  return {
    read := ← boolD v "read" false
    packageRead := ← boolD v "readPackage" false
    version := ← Json.asOption ExpectedVersion.ofJson (field v "packageVersion")
    write := ← boolD v "write" false
    containerWrite := ← boolD v "writePackageContainer" false
    custom := ← customOf (field v "custom") }

end Document
end Rehearsal
end PackageHandling
