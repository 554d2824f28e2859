import PackageHandling.Failure

/-!
# Answers of the lifecycle phases
-/

namespace PackageHandling

/-- Whether work can start. -/
inductive Readiness
  | ready (sourceExists : Option Bool)
  | notReady (rejection : Rejection) (sourceExists : Option Bool) (sourceIsPlaceholder : Bool)
  deriving DecidableEq, Inhabited

namespace Readiness

/-- Not ready, and nothing known about the source. -/
def refused (r : Rejection) : Readiness := .notReady r none false

def isReady : Readiness → Bool
  | ready _ => true
  | notReady .. => false

def rejection? : Readiness → Option Rejection
  | ready _ => none
  | notReady r _ _ => some r

def toJson : Readiness → Json
  | ready found => .obj [("status", .str "ready"), ("sourceExists", Json.ofOption .bool found)]
  | notReady r found placeholder =>
    .obj [("status", .str "notReady"), ("rejection", r.toJson),
      ("sourceExists", Json.ofOption .bool found), ("sourceIsPlaceholder", .bool placeholder)]

def ofJson (v : Json) : Decoded Readiness := do
  let (tag, rest) ← v.tagged "status" "internally tagged enum Readiness"
  match tag with
  | "ready" =>
    rest.record ["sourceExists"] "struct variant Readiness::Ready" fun m => do
      return .ready (← m.strictOption "sourceExists" Json.asBool)
  | "notReady" =>
    rest.record ["rejection", "sourceExists", "sourceIsPlaceholder"]
      "struct variant Readiness::NotReady" fun m => do
        return .notReady (← m.get "rejection" Rejection.ofJson)
          (← m.strictOption "sourceExists" Json.asBool) (← m.get "sourceIsPlaceholder" Json.asBool)
  | other => throw (.variant other ["ready", "notReady"])

end Readiness

/-- An answer that is positive, or a rejection; `yes` and `no` are its two names. -/
def checkToJson (yes no : String) : Check → Json
  | .ok () => .obj [("status", .str yes)]
  | .error r => .obj [("status", .str no), ("rejection", r.toJson)]

/-- A positive answer may carry null where a negative one has its rejection.  A rejection that
stands before its status is kept until the status is known, so all of it must be readable. -/
def checkOfJson (yes no : String) (v : Json) : Decoded Check := do
  let judge (negative : Bool) (content : Option Json) : Decoded Check :=
    match negative, content with
    | false, none => .ok (.ok ())
    | false, some .null => .ok (.ok ())
    | false, some v => v.mismatch "no rejection"
    | true, none => .error (.missing "rejection")
    | true, some v => do return .error (← Rejection.ofJson v)
  let names := [(yes, false), (no, true)]
  match v with
  | .obj found =>
    let m ← Json.Members.ofObject ["status", "rejection"] found
    match m.found with
    | ("rejection", kept) :: _ => kept.readable
    | _ => pure ()
    judge (← m.get "status" (Json.asName names)) (m.found.lookup "rejection")
  | .arr [status, content] => judge (← Json.named names (← status.asText)) (some content)
  | .arr items => throw (.length items.length "two elements")
  | v => v.mismatch "a status"

/-- Whether the package is where it should be. -/
abbrev Fulfillment := Check

/-- Whether the package was taken away. -/
abbrev Removal := Check

def Fulfillment.toJson : Fulfillment → Json := checkToJson "fulfilled" "notFulfilled"

def Fulfillment.ofJson : Json → Decoded Fulfillment := checkOfJson "fulfilled" "notFulfilled"

def Removal.toJson : Removal → Json := checkToJson "removed" "notRemoved"

def Removal.ofJson : Json → Decoded Removal := checkOfJson "removed" "notRemoved"

/-- A call to an expectation manager. -/
structure ManagerMessage where
  type : String
  arguments : List Json
  deriving Inhabited

namespace ManagerMessage

def toJson (m : ManagerMessage) : Json :=
  .obj [("type", .str m.type), ("arguments", .arr m.arguments)]

def ofJson (v : Json) : Decoded ManagerMessage :=
  v.record ["type", "arguments"] "a message" fun m => do
    return ⟨← m.get "type" Json.asText, ← m.get "arguments" (Json.asList Json.asFree)⟩

end ManagerMessage

/-- What a job tells about itself. -/
structure WorkProperties where
  label : String
  deriving DecidableEq, Inhabited

namespace WorkProperties

def toJson (p : WorkProperties) : Json := .obj [("workLabel", .str p.label)]

def ofJson (v : Json) : Decoded WorkProperties :=
  v.record ["workLabel"] "work properties" fun m => do
    return ⟨← m.get "workLabel" Json.asText⟩

def inspect (p : WorkProperties) : String :=
  Text.inspectRecord "WorkProperties" [("work_label", Text.inspect p.label)]

end WorkProperties
end PackageHandling
