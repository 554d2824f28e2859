import PackageHandling.Plan
import PackageHandling.Log

/-!
# Accessor handles

A handle is an accessor bound to one task, as its storage backend offers it: checks of its
configuration that answer at once, and operations on the storage that may take time.  A backend
is any state with such answers, so an answer may depend on all earlier calls.
-/

namespace PackageHandling

inductive Operation
  | create | checkBasic | checkRead | checkWrite | checkPackageRead | probe | checkContainerWrite
  | actualVersion | removePackage | fetchMetadata | updateMetadata | removeMetadata
  deriving DecidableEq, Inhabited

def Operation.name : Operation → String
  | create => "createHandle"
  | checkBasic => "checkHandleBasic"
  | checkRead => "checkHandleRead"
  | checkWrite => "checkHandleWrite"
  | checkPackageRead => "checkPackageReadAccess"
  | probe => "tryPackageRead"
  | checkContainerWrite => "checkPackageContainerWriteAccess"
  | actualVersion => "getPackageActualVersion"
  | removePackage => "removePackage"
  | fetchMetadata => "fetchMetadata"
  | updateMetadata => "updateMetadata"
  | removeMetadata => "removeMetadata"

/-- What a handle is made for. -/
structure Purpose where
  expectationId : Option String
  usage : String
  content : Json
  options : WorkOptions
  deriving Inhabited

/-- Everything that is bound into a handle. -/
structure Binding where
  workerId : String
  accessorId : String
  accessor : Accessor
  purpose : Purpose
  deriving Inhabited

/-- What can be observed of a worker: the handles it asks for, the operations it calls, its log,
and remarks of the backends. -/
inductive Note
  | bound (b : Binding) | called (accessorId : String) (operation : Operation)
  | logged (event : LogEvent) | remarked (text : String)
  deriving Inhabited

namespace Note

/-- A call or a remark, as one line. -/
def call? : Note → Option String
  | called id operation => some (id ++ ":" ++ operation.name)
  | remarked text => some text
  | _ => none

def event? : Note → Option LogEvent
  | logged e => some e
  | _ => none

def binding? : Note → Option Binding
  | bound b => some b
  | _ => none

end Note

/-- The part of a refused probe that the backend could still tell. -/
structure ProbeFailure where
  rejection : Rejection
  packageExists : Bool
  sourceIsPlaceholder : Bool
  deriving DecidableEq, Inhabited

def ProbeFailure.missing (r : Rejection) : ProbeFailure := ⟨r, false, false⟩

/-- An operation of a backend with state `β`; its notes are remarks. -/
abbrev Backend (β α : Type) := Plan β String α

structure Handle (β : Type) where
  accessType : AccessType
  accessorId : String
  basicCheck : β → Check × β
  readCheck : β → Check × β
  writeCheck : β → Check × β
  packageReadCheck : Backend β Check
  probe : Backend β (Except ProbeFailure Unit)
  containerWriteCheck : Backend β Check
  actualVersion : Backend β (Except Failure PackageVersion)
  remove : String → Backend β (Except Failure Unit)
  fetch : Backend β (Except Failure (Option Json))
  update : Json → Backend β (Except Failure Unit)
  forget : Backend β (Except Failure Unit)

namespace Handle

variable {β α : Type}

/-- Call an operation of the backend. -/
def call (h : Handle β) (operation : Operation) (p : Backend β α) : Plan β Note α :=
  .note (.called h.accessorId operation) (p.mapNotes .remarked)

def checkBasic (h : Handle β) : Plan β Note Check := h.call .checkBasic (.atomically h.basicCheck)

def checkRead (h : Handle β) : Plan β Note Check := h.call .checkRead (.atomically h.readCheck)

def checkWrite (h : Handle β) : Plan β Note Check := h.call .checkWrite (.atomically h.writeCheck)

def checkPackageRead (h : Handle β) : Plan β Note Check :=
  h.call .checkPackageRead h.packageReadCheck

def tryRead (h : Handle β) : Plan β Note (Except ProbeFailure Unit) := h.call .probe h.probe

def checkContainerWrite (h : Handle β) : Plan β Note Check :=
  h.call .checkContainerWrite h.containerWriteCheck

def getVersion (h : Handle β) : Plan β Note (Except Failure PackageVersion) :=
  h.call .actualVersion h.actualVersion

def removePackage (h : Handle β) (reason : String) : Plan β Note (Except Failure Unit) :=
  h.call .removePackage (h.remove reason)

/-- The record stored beside the package, if any. -/
def fetchMetadata (h : Handle β) : Plan β Note (Except Failure (Option Json)) :=
  h.call .fetchMetadata h.fetch

def updateMetadata (h : Handle β) (record : Json) : Plan β Note (Except Failure Unit) :=
  h.call .updateMetadata (h.update record)

def removeMetadata (h : Handle β) : Plan β Note (Except Failure Unit) :=
  h.call .removeMetadata h.forget

/-- The stored record, decoded. -/
def fetchRecord (h : Handle β) (decode : Json → Decoded α) :
    Plan β Note (Except Failure (Option α)) := do
  match ← h.fetchMetadata with
  | .error f => return .error f
  | .ok none => return .ok none
  | .ok (some stored) =>
    match decode stored with
    | .error m => return .error (.ofMismatch m)
    | .ok record => return .ok (some record)

/-- Store a record in the form in which values are kept. -/
def storeRecord (h : Handle β) (record : Json) : Plan β Note (Except Failure Unit) :=
  h.updateMetadata (record.free?.getD .null)

/-- How a handle shows itself to a developer. -/
def inspect (h : Handle β) : String :=
  Text.inspectRecord "AccessorHandle"
    [("type", h.accessType.inspect), ("accessor_id", Text.inspect h.accessorId)]

end Handle

/-- What makes handles for one kind of storage. -/
structure Factory (β : Type) where
  /-- Whether a worker at this location can reach the accessor at all. -/
  supports : Location → Accessor → Bool := fun location a => a.reachableFrom location
  create : Binding → β → Except Failure (Handle β) × β

end PackageHandling
