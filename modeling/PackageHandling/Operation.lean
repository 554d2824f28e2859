import PackageHandling.Failure
import PackageHandling.Calendar.Instant

/-!
# Bulk operations

Records that a backend hands out when a package is moved by other means than a stream.
-/

namespace PackageHandling

/-- A backend's own description of a package to be read. -/
structure PackageReadInfo where
  type : AccessType
  info : Json
  deriving Inhabited

namespace PackageReadInfo

def toJson (i : PackageReadInfo) : Json := .obj [("access_type", i.type.toJson), ("info", i.info)]

def ofJson (v : Json) : Decoded PackageReadInfo :=
  v.record ["access_type", "info"] "package read info" fun m => do
    return ⟨← m.get "access_type" AccessType.ofJson, ← m.get "info" Json.asFree⟩

end PackageReadInfo

/-- An operation that was prepared and has to be finalized; the state is the backend's own. -/
structure PackageOperation where
  id : String
  label : String
  startedAt : Calendar.Instant
  state : Json := .null
  deriving Inhabited

namespace PackageOperation

/-- A fresh operation has no state yet. -/
def prepare (id label : String) (startedAt : Calendar.Instant) : PackageOperation :=
  { id, label, startedAt }

def withState (o : PackageOperation) (state : Json) : PackageOperation := { o with state }

def toJson (o : PackageOperation) : Json :=
  .obj [("id", .str o.id), ("label", .str o.label), ("started_at", .str o.startedAt.text),
    ("state", o.state)]

def instantOfJson (v : Json) : Decoded Calendar.Instant := do
  let s ← v.asText
  match Calendar.Instant.read? s with
  | some i => return i
  | none => throw (.type ("string " ++ Text.inspect s) "a point in time")

def ofJson (v : Json) : Decoded PackageOperation :=
  v.record ["id", "label", "started_at", "state"] "a package operation" fun m => do
    return ⟨← m.get "id" Json.asText, ← m.get "label" Json.asText,
      ← m.get "started_at" instantOfJson, ← m.getD "state" .null Json.asFree⟩

end PackageOperation

/-- What every accessor handle can do that does not support a transfer of its own. -/
inductive Transfer
  | readStream | writeStream | readInfo | writeInfo
  deriving DecidableEq, Inhabited

def Transfer.name : Transfer → String
  | readStream => "getPackageReadStream"
  | writeStream => "putPackageStream"
  | readInfo => "getPackageReadInfo"
  | writeInfo => "putPackageInfo"

/-- A kind of storage without a transfer refuses it by name. -/
def AccessType.refuse (t : AccessType) (transfer : Transfer) : Failure :=
  .unsupported t transfer.name

end PackageHandling
