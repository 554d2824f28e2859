import PackageHandling.Version

/-!
# Metadata records

The record that is stored beside a target and says from which source version it was made.
-/

namespace PackageHandling

structure VersionMetadata where
  sourceVersionHash : String
  sourceVersion : Option VersionTable
  deriving DecidableEq, Inhabited

namespace VersionMetadata

def ofVersion (version : VersionTable) : VersionMetadata := ⟨version.hash, some version⟩

def toJson (m : VersionMetadata) : Json :=
  .obj [("sourceVersionHash", .str m.sourceVersionHash),
    ("sourceVersion", Json.ofOption VersionTable.toJson m.sourceVersion)]

def ofJson (v : Json) : Decoded VersionMetadata :=
  v.record ["sourceVersionHash", "sourceVersion"] "struct VersionMetadata" fun m => do
    m.early "sourceVersion" (Json.asOption VersionTable.ofJson)
    return ⟨← m.get "sourceVersionHash" Json.asText, ← m.option "sourceVersion" VersionTable.ofJson⟩

end VersionMetadata

/-- What a stored record must tell: how it is read, and the source hash it records. -/
structure RecordKind where
  Record : Type
  decode : Json → Decoded Record
  recordedHash : Record → Option String

namespace RecordKind

def versionMetadata : RecordKind where
  Record := VersionMetadata
  decode := VersionMetadata.ofJson
  recordedHash m := some m.sourceVersionHash

/-- A record whose hash may be null, or left out of an object. -/
def optionalMetadata : RecordKind where
  Record := Option String
  decode v := v.record ["sourceVersionHash"] "struct OptionalMetadata" fun m =>
    m.strictOption "sourceVersionHash" Json.asText
  recordedHash := id

end RecordKind
end PackageHandling
