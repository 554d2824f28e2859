import PackageHandling.Reason
import PackageHandling.Digest.Blake3

/-!
# Package versions

Backends report versions in records of their own kinds.  For comparison a record is brought
into one form, a table of named properties, and the hash of a version is the hash of that
table's JSON text.
-/

namespace PackageHandling

inductive VersionValue
  | flag (value : Bool) | int (value : Int) | text (value : String)
  deriving DecidableEq, Inhabited

namespace VersionValue

/-- Counts beyond the signed 64-bit range are capped. -/
def ofNat (n : Nat) : VersionValue := .int (min n 0x7FFFFFFFFFFFFFFF)

def message : VersionValue → String
  | flag b => toString b
  | int i => toString i
  | text s => "\"" ++ s ++ "\""

def toJson : VersionValue → Json
  | flag b => .bool b
  | int i => .int i
  | text s => .str s

def ofJson (v : Json) : Decoded VersionValue :=
  match v with
  | .bool b => .ok (.flag b)
  | .str s => .ok (.text s)
  | v =>
    match v.asInt64 with
    | .ok i => .ok (.int i)
    | .error _ => .error (.choices "VersionValue")

end VersionValue

/-- One property; an omitted one takes no part in comparisons. -/
structure VersionProperty where
  name : String
  value : Option VersionValue
  omitted : Bool := false
  deriving DecidableEq, Inhabited

namespace VersionProperty

def toJson (p : VersionProperty) : Json :=
  .obj ([("name", .str p.name), ("value", Json.ofOption VersionValue.toJson p.value)] ++
    if p.omitted then [("omit", .bool true)] else [])

def ofJson (v : Json) : Decoded VersionProperty :=
  v.record ["name", "value", "omit"] "struct VersionProperty" fun m => do
    m.early "name" Json.asText
    m.early "omit" Json.asBool
    m.early "value" (Json.asOption VersionValue.ofJson)
    return ⟨← m.get "name" Json.asText, ← m.strictOption "value" VersionValue.ofJson,
      ← m.getD "omit" false Json.asBool⟩

end VersionProperty

/-- Properties by key. -/
abbrev VersionTable := Sorted VersionProperty

namespace VersionTable

def set (t : VersionTable) (key name : String) (value : Option VersionValue) : VersionTable :=
  t.insert key ⟨name, value, false⟩

/-- An expectation that is not set is omitted from comparisons. -/
def expect (t : VersionTable) (key name : String) (value : Option VersionValue) : VersionTable :=
  t.insert key ⟨name, value, value.isNone⟩

def toJson (t : VersionTable) : Json := .obj (t.entries.map fun e => (e.1, e.2.toJson))

def ofJson : Json → Decoded VersionTable
  | .obj found => do
    return Sorted.ofList (← found.mapM fun e => do return (e.1, ← VersionProperty.ofJson e.2))
  | v => v.mismatch "a map"

/-- Equal tables have equal hashes, and the text tells unequal ones apart. -/
def hash (t : VersionTable) : String := Digest.blake3Hex t.toJson.text

/-- A differing property. -/
structure Difference where
  name : String
  left : Option VersionValue
  right : Option VersionValue
  deriving DecidableEq, Inhabited

/-- The property of a key on both sides, if it differs: neither side omits it, and the values
are not equal, a missing property counting as unset. -/
def difference? (a b : VersionTable) (key : String) : Option Difference :=
  let l := a.get? key
  let r := b.get? key
  if l.any (·.omitted) || r.any (·.omitted) then none
  else
    let left := l.bind (·.value)
    let right := r.bind (·.value)
    if left = right then none
    else some ⟨((l.or r).map (·.name)).getD key, left, right⟩

/-- The keys of both tables, those of the first one first. -/
def jointKeys (a b : VersionTable) : List String :=
  a.keys ++ b.keys.filter fun k => !a.contains k

def differences (a b : VersionTable) : List Difference :=
  (jointKeys a b).filterMap (difference? a b)

def valueText (v : Option VersionValue) : String := (v.map (·.message)).getD "(none)"

/-- The check that finds no difference; `describe` words one. -/
def compareBy (user : String) (describe : Difference → String) (a b : VersionTable) : Check :=
  let found := differences a b
  if found.isEmpty then .ok ()
  else .error (.ofKnown user ("Mismatch on properties: " ++ ", ".intercalate (found.map describe)))

def compare (a b : VersionTable) : Check :=
  compareBy "Package version differs"
    (fun d => d.name ++ ": " ++ valueText d.left ++ " vs " ++ valueText d.right) a b

end VersionTable

/-- The version of an existing package, as its backend reports it. -/
inductive PackageVersion
  | file (fileSize : Nat) (modifiedDate : Int)
  | http (contentType : Option String) (contentLength : Option Nat) (modifiedDate : Option Int)
      (etags : List String)
  | quantel (cloneId : Option Nat) (guid title : Option String) (frames : Option Nat)
  | json (payloadSize : Nat)
  deriving DecidableEq, Inhabited

namespace PackageVersion

def modifiedDate? : PackageVersion → Option Int
  | file _ date => some date
  | http _ _ date _ => date
  | quantel .. | json _ => none

/-- The modification time in milliseconds, if it lies within the calendar. -/
def modifiedAt? (v : PackageVersion) : Option Int :=
  v.modifiedDate?.filter fun t => -8334601228800000 ≤ t ∧ t ≤ 8210266876799999

def table : PackageVersion → VersionTable
  | file size date =>
    VersionTable.set Sorted.empty "fileSize" "File size" (some (.ofNat size))
      |>.set "modifiedDate" "Modified date" (some (.int date))
  | http type length date etags =>
    VersionTable.set Sorted.empty "contentType" "Content type" (type.map .text)
      |>.set "contentLength" "Content length" (length.map .ofNat)
      |>.set "modifiedDate" "Modified date" (date.map .int)
      |>.set "etags" "ETags" (if etags.isEmpty then none else some (.text (",".intercalate etags)))
  | quantel clone guid title frames =>
    VersionTable.set Sorted.empty "cloneId" "Clone id" (clone.map .ofNat)
      |>.set "guid" "GUID" (guid.map .text)
      |>.set "title" "Title" (title.map .text)
      |>.set "frames" "Frames" (frames.map .ofNat)
  | json size => VersionTable.set Sorted.empty "payloadSize" "Payload size" (some (.ofNat size))

def toJson : PackageVersion → Json
  | file size date =>
    .obj [("type", .str "FILE"), ("fileSize", .nat size), ("modifiedDate", .int date)]
  | http type length date etags =>
    .obj [("type", .str "HTTP"), ("contentType", Json.ofOption .str type),
      ("contentLength", Json.ofOption .nat length), ("modifiedDate", Json.ofOption .int date),
      ("etags", .arr (etags.map .str))]
  | quantel clone guid title frames =>
    .obj [("type", .str "QUANTEL"), ("cloneId", Json.ofOption .nat clone),
      ("guid", Json.ofOption .str guid), ("title", Json.ofOption .str title),
      ("frames", Json.ofOption .nat frames)]
  | json size => .obj [("type", .str "JSON"), ("payloadSize", .nat size)]

def ofJson (v : Json) : Decoded PackageVersion := do
  let (tag, rest) ← v.tagged "type" "a version"
  match tag with
  | "FILE" =>
    rest.record ["fileSize", "modifiedDate"] "a version" fun m => do
      return .file (← m.get "fileSize" Json.asNat64) (← m.get "modifiedDate" Json.asInt64)
  | "HTTP" =>
    rest.record ["contentType", "contentLength", "modifiedDate", "etags"] "a version" fun m => do
      return .http (← m.option "contentType" Json.asText) (← m.option "contentLength" Json.asNat64)
        (← m.option "modifiedDate" Json.asInt64) (← m.getD "etags" [] (Json.asList Json.asText))
  | "QUANTEL" =>
    rest.record ["cloneId", "guid", "title", "frames"] "a version" fun m => do
      return .quantel (← m.option "cloneId" Json.asNat64) (← m.option "guid" Json.asText)
        (← m.option "title" Json.asText) (← m.option "frames" Json.asNat64)
  | "JSON" =>
    rest.record ["payloadSize"] "a version" fun m => do
      return .json (← m.get "payloadSize" Json.asNat64)
  | other => throw (.variant other ["FILE", "HTTP", "QUANTEL", "JSON"])

end PackageVersion

/-- What a version is expected to be; fields that are not set are not compared. -/
inductive ExpectedVersion
  | file (fileSize : Option Nat) (modifiedDate : Option Int)
  | http (contentType : Option String) (contentLength : Option Nat) (modifiedDate : Option Int)
      (etags : Option (List String))
  | quantel (cloneId : Option Nat) (guid title : Option String) (frames : Option Nat)
  | json (payloadSize : Option Nat)
  deriving DecidableEq, Inhabited

namespace ExpectedVersion

def table : ExpectedVersion → VersionTable
  | file size date =>
    VersionTable.expect Sorted.empty "fileSize" "File size" (size.map .ofNat)
      |>.expect "modifiedDate" "Modified date" (date.map .int)
  | http type length date etags =>
    VersionTable.expect Sorted.empty "contentType" "Content type" (type.map .text)
      |>.expect "contentLength" "Content length" (length.map .ofNat)
      |>.expect "modifiedDate" "Modified date" (date.map .int)
      |>.expect "etags" "ETags" (etags.map fun tags => .text (",".intercalate tags))
  | quantel clone guid title frames =>
    VersionTable.expect Sorted.empty "cloneId" "Clone id" (clone.map .ofNat)
      |>.expect "guid" "GUID" (guid.map .text)
      |>.expect "title" "Title" (title.map .text)
      |>.expect "frames" "Frames" (frames.map .ofNat)
  | json size => VersionTable.expect Sorted.empty "payloadSize" "Payload size" (size.map .ofNat)

/-- Whether a version is as expected. -/
def accepts (expected : ExpectedVersion) (actual : PackageVersion) : Check :=
  VersionTable.compareBy "Actual version doesn't match expected version"
    (fun d => d.name ++ ": actual " ++ VersionTable.valueText d.left ++
      ", expected " ++ VersionTable.valueText d.right)
    actual.table expected.table

def toJson : ExpectedVersion → Json
  | file size date =>
    .obj [("type", .str "FILE"), ("fileSize", Json.ofOption .nat size),
      ("modifiedDate", Json.ofOption .int date)]
  | http type length date etags =>
    .obj [("type", .str "HTTP"), ("contentType", Json.ofOption .str type),
      ("contentLength", Json.ofOption .nat length), ("modifiedDate", Json.ofOption .int date),
      ("etags", Json.ofOption (fun tags => .arr (tags.map .str)) etags)]
  | quantel clone guid title frames =>
    .obj [("type", .str "QUANTEL"), ("cloneId", Json.ofOption .nat clone),
      ("guid", Json.ofOption .str guid), ("title", Json.ofOption .str title),
      ("frames", Json.ofOption .nat frames)]
  | json size => .obj [("type", .str "JSON"), ("payloadSize", Json.ofOption .nat size)]

def ofJson (v : Json) : Decoded ExpectedVersion := do
  let (tag, rest) ← v.tagged "type" "an expected version"
  match tag with
  | "FILE" =>
    rest.record ["fileSize", "modifiedDate"] "an expected version" fun m => do
      return .file (← m.option "fileSize" Json.asNat64) (← m.option "modifiedDate" Json.asInt64)
  | "HTTP" =>
    rest.record ["contentType", "contentLength", "modifiedDate", "etags"] "an expected version"
      fun m => do
        return .http (← m.option "contentType" Json.asText)
          (← m.option "contentLength" Json.asNat64) (← m.option "modifiedDate" Json.asInt64)
          (← m.option "etags" (Json.asList Json.asText))
  | "QUANTEL" =>
    rest.record ["cloneId", "guid", "title", "frames"] "an expected version" fun m => do
      return .quantel (← m.option "cloneId" Json.asNat64) (← m.option "guid" Json.asText)
        (← m.option "title" Json.asText) (← m.option "frames" Json.asNat64)
  | "JSON" =>
    rest.record ["payloadSize"] "an expected version" fun m => do
      return .json (← m.option "payloadSize" Json.asNat64)
  | other => throw (.variant other ["FILE", "HTTP", "QUANTEL", "JSON"])

def inspect : ExpectedVersion → String
  | file size date =>
    Text.inspectRecord "File" [("file_size", Text.inspectOption toString size),
      ("modified_date", Text.inspectOption toString date)]
  | http type length date etags =>
    Text.inspectRecord "Http" [("content_type", Text.inspectOption Text.inspect type),
      ("content_length", Text.inspectOption toString length),
      ("modified_date", Text.inspectOption toString date),
      ("etags", Text.inspectOption (Text.inspectList Text.inspect) etags)]
  | quantel clone guid title frames =>
    Text.inspectRecord "Quantel" [("clone_id", Text.inspectOption toString clone),
      ("guid", Text.inspectOption Text.inspect guid),
      ("title", Text.inspectOption Text.inspect title),
      ("frames", Text.inspectOption toString frames)]
  | json size => Text.inspectRecord "Json" [("payload_size", Text.inspectOption toString size)]

end ExpectedVersion
end PackageHandling
