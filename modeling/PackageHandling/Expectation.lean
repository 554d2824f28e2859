import PackageHandling.Accessor
import PackageHandling.Version

/-!
# Expectations

An expectation asks for a package to be somewhere, in some version, made from some source.
-/

namespace PackageHandling

/-- What kind of work fulfils an expectation, in the fixed order of kinds. -/
inductive ExpectationType
  | fileCopy | fileVerify | mediaFileScan | mediaFileDeepScan | mediaFileThumbnail
  | mediaFilePreview | quantelClipCopy | quantelClipThumbnail | quantelClipPreview | jsonDataCopy
  | renderHtml
  deriving DecidableEq, Inhabited

namespace ExpectationType

def all : List ExpectationType :=
  [.fileCopy, .fileVerify, .mediaFileScan, .mediaFileDeepScan, .mediaFileThumbnail,
    .mediaFilePreview, .quantelClipCopy, .quantelClipThumbnail, .quantelClipPreview, .jsonDataCopy,
    .renderHtml]

theorem mem_all (t : ExpectationType) : t ∈ all := by cases t <;> decide

def name : ExpectationType → String
  | fileCopy => "FILE_COPY"
  | fileVerify => "FILE_VERIFY"
  | mediaFileScan => "MEDIA_FILE_SCAN"
  | mediaFileDeepScan => "MEDIA_FILE_DEEP_SCAN"
  | mediaFileThumbnail => "MEDIA_FILE_THUMBNAIL"
  | mediaFilePreview => "MEDIA_FILE_PREVIEW"
  | quantelClipCopy => "QUANTEL_CLIP_COPY"
  | quantelClipThumbnail => "QUANTEL_CLIP_THUMBNAIL"
  | quantelClipPreview => "QUANTEL_CLIP_PREVIEW"
  | jsonDataCopy => "JSON_DATA_COPY"
  | renderHtml => "RENDER_HTML"

def names : List (String × ExpectationType) := all.map fun t => (t.name, t)

def toJson (t : ExpectationType) : Json := .str t.name

def ofJson : Json → Decoded ExpectationType := Json.asName names

end ExpectationType

/-- Where the package comes from, and in which version. -/
structure StartRequirement where
  sources : List PackageContainer := []
  version : Option ExpectedVersion := none
  deriving Inhabited

namespace StartRequirement

def toJson (r : StartRequirement) : Json :=
  .obj [("sources", .arr (r.sources.map (·.toJson))),
    ("version", Json.ofOption ExpectedVersion.toJson r.version)]

def ofJson (v : Json) : Decoded StartRequirement :=
  v.record ["sources", "version"] "a start requirement" fun m => do
    return ⟨← m.getD "sources" [] (Json.asList PackageContainer.ofJson),
      ← m.option "version" ExpectedVersion.ofJson⟩

end StartRequirement

/-- Where the package is to end up, and in what form. -/
structure EndRequirement where
  targets : List PackageContainer := []
  content : Json := .null
  version : Option ExpectedVersion := none
  deriving Inhabited

namespace EndRequirement

def toJson (r : EndRequirement) : Json :=
  .obj [("targets", .arr (r.targets.map (·.toJson))), ("content", r.content),
    ("version", Json.ofOption ExpectedVersion.toJson r.version)]

def ofJson (v : Json) : Decoded EndRequirement :=
  v.record ["targets", "content", "version"] "an end requirement" fun m => do
    return ⟨← m.getD "targets" [] (Json.asList PackageContainer.ofJson),
      ← m.getD "content" .null Json.asFree, ← m.option "version" ExpectedVersion.ofJson⟩

end EndRequirement

/-- The options that are known, and all others by key. -/
structure WorkOptions where
  removeDelay : Option Nat := none
  useTemporaryFilePath : Bool := false
  extra : Sorted Json := Sorted.empty
  deriving Inhabited

namespace WorkOptions

def ownFields : List String := ["removeDelay", "useTemporaryFilePath"]

def toJson (o : WorkOptions) : Json :=
  .obj ([("removeDelay", Json.ofOption .nat o.removeDelay),
    ("useTemporaryFilePath", .bool o.useTemporaryFilePath)] ++ o.extra.entries)

/-- An object only; members that are not known pass through. -/
def ofJson : Json → Decoded WorkOptions
  | .obj found => do
    let m ← Json.Members.ofObject ownFields found
    let removeDelay ← m.option "removeDelay" Json.asNat64
    let useTemporaryFilePath ← m.getD "useTemporaryFilePath" false Json.asBool
    let extra ← (found.filter (·.1 ∉ ownFields)).mapM fun e => do return (e.1, ← e.2.asFree)
    return { removeDelay, useTemporaryFilePath, extra := Sorted.ofList extra }
  | v => v.mismatch "work options"

end WorkOptions

structure Expectation where
  id : String
  type : ExpectationType
  label : String := ""
  managerId : String
  start : StartRequirement := {}
  goal : EndRequirement := {}
  options : WorkOptions := {}
  deriving Inhabited

namespace Expectation

def sources (e : Expectation) : List PackageContainer := e.start.sources

def targets (e : Expectation) : List PackageContainer := e.goal.targets

def toJson (e : Expectation) : Json :=
  .obj [("id", .str e.id), ("type", e.type.toJson), ("label", .str e.label),
    ("managerId", .str e.managerId), ("startRequirement", e.start.toJson),
    ("endRequirement", e.goal.toJson), ("workOptions", e.options.toJson)]

def fields : List String :=
  ["id", "type", "label", "managerId", "startRequirement", "endRequirement", "workOptions"]

def ofJson (v : Json) : Decoded Expectation :=
  v.record fields "an expectation" fun m => do
    return {
      id := ← m.get "id" Json.asText
      type := ← m.get "type" ExpectationType.ofJson
      label := ← m.getD "label" "" Json.asText
      managerId := ← m.get "managerId" Json.asText
      start := ← m.getD "startRequirement" {} StartRequirement.ofJson
      goal := ← m.getD "endRequirement" {} EndRequirement.ofJson
      options := ← m.getD "workOptions" {} WorkOptions.ofJson }

end Expectation
end PackageHandling
