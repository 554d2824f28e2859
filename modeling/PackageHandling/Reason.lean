import PackageHandling.Json.Decode

/-!
# Reasons and rejections

A reason speaks to two readers.  A rejection is the answer "not now"; it is known when an
operator can act on it, and unknown when it reports a fault.
-/

namespace PackageHandling

structure Reason where
  user : String
  tech : String
  deriving DecidableEq, Inhabited

namespace Reason

/-- The same text for both readers. -/
def plain (message : String) : Reason := ⟨message, message⟩

def prepend (r : Reason) (user tech : String) : Reason := ⟨user ++ r.user, tech ++ r.tech⟩

def message (r : Reason) : String := r.user ++ " (" ++ r.tech ++ ")"

def toJson (r : Reason) : Json := .obj [("user", .str r.user), ("tech", .str r.tech)]

def ofJson (v : Json) : Decoded Reason :=
  v.record ["user", "tech"] "struct Reason" fun m => do
    m.early "tech" Json.asText
    return ⟨← m.get "user" Json.asText, ← m.get "tech" Json.asText⟩

def inspect (r : Reason) : String :=
  Text.inspectRecord "Reason" [("user", Text.inspect r.user), ("tech", Text.inspect r.tech)]

end Reason

structure Rejection where
  reason : Reason
  known : Bool
  deriving DecidableEq, Inhabited

namespace Rejection

def ofKnown (user tech : String) : Rejection := ⟨⟨user, tech⟩, true⟩

def ofUnknown (user tech : String) : Rejection := ⟨⟨user, tech⟩, false⟩

def prepend (r : Rejection) (user tech : String) : Rejection :=
  { r with reason := r.reason.prepend user tech }

def message (r : Rejection) : String :=
  if r.known then r.reason.message else "unexpected: " ++ r.reason.message

def toJson (r : Rejection) : Json :=
  .obj [("reason", r.reason.toJson), ("known_reason", .bool r.known)]

def ofJson (v : Json) : Decoded Rejection :=
  v.record ["reason", "known_reason"] "struct Rejection" fun m => do
    m.early "known_reason" Json.asBool
    return ⟨← m.get "reason" Reason.ofJson, ← m.get "known_reason" Json.asBool⟩

def inspect (r : Rejection) : String :=
  Text.inspectRecord "Rejection" [("reason", r.reason.inspect), ("known_reason", toString r.known)]

end Rejection

/-- The answer of a capability check. -/
abbrev Check := Except Rejection Unit

end PackageHandling
