import PackageHandling.Json.Decode
import PackageHandling.Text.Blank
import PackageHandling.Toml.Document

/-!
# Configuration

The time budgets of a worker.  Each key comes from the document if it is there, else from the
environment if that holds a number, else from a constant.
-/

namespace PackageHandling

/-- All budgets are in milliseconds, the bypass age is in seconds. -/
structure Config where
  innerActionTimeout : Nat
  remoteCheckTimeout : Nat
  stabilityThreshold : Nat
  stabilityBypassAge : Nat
  progressInterval : Nat
  cancelTimeout : Nat
  deriving DecidableEq, Inhabited

/-- Why a configuration is refused. -/
inductive ConfigError
  | malformed | zero (key : String) | unreadable (path cause : String)
  | invalid (path : String) (cause : ConfigError)
  deriving DecidableEq, Inhabited

def ConfigError.message : ConfigError → String
  | .malformed => "Failed to parse worker config TOML"
  | .zero key => key ++ " must be greater than zero"
  | .unreadable path cause => "Failed to read worker config " ++ path ++ ": " ++ cause
  | .invalid path cause => "Invalid worker config " ++ path ++ ": " ++ cause.message

namespace Config

/-- The values of environment variables. -/
abbrev Environment := String → Option String

/-- Decimal digits of a value below 2^64, a plus sign before them perhaps. -/
def number? (s : List Char) : Option Nat :=
  let digits := match s with
    | '+' :: rest => rest
    | _ => s
  if digits.isEmpty || !digits.all Char.isDigit then none
  else
    let n := Json.digitsValue digits
    if n ≤ 0xFFFFFFFFFFFFFFFF then some n else none

/-- The number that a variable holds, between blanks perhaps. -/
def fromEnvironment (env : Environment) (name : String) (fallback : Nat) : Nat :=
  ((env name).bind fun v => number? (Text.trim v.toList)).getD fallback

/-- The configuration without a document. -/
def default (env : Environment) : Config :=
  let inner := fromEnvironment env "PACKAGE_WORKER_INNER_ACTION_TIMEOUT_MS" 30000
  { innerActionTimeout := inner
    remoteCheckTimeout := fromEnvironment env "PACKAGE_WORKER_REMOTE_CHECK_TIMEOUT_MS" 10000
    stabilityThreshold := fromEnvironment env "PACKAGE_WORKER_SOURCE_STABILITY_THRESHOLD_MS" 4000
    stabilityBypassAge := 6 * 60 * 60
    progressInterval := 500
    cancelTimeout := fromEnvironment env "PACKAGE_WORKER_CANCEL_TIMEOUT_MS" inner }

def keys : List String :=
  ["inner_action_timeout_ms", "remote_check_timeout_ms", "source_package_stability_threshold_ms",
    "stability_bypass_age_secs", "progress_interval_ms", "cancel_timeout_ms"]

/-- The values in the order of the keys. -/
def values (c : Config) : List Nat :=
  [c.innerActionTimeout, c.remoteCheckTimeout, c.stabilityThreshold, c.stabilityBypassAge,
    c.progressInterval, c.cancelTimeout]

/-- The values of a document over those of a configuration; a value that is there must be a
whole number that is not negative. -/
def overlay (base : Config) (value? : String → Except ConfigError (Option Nat)) :
    Except ConfigError Config := do
  let pick (key : String) (n : Nat) : Except ConfigError Nat := do return (← value? key).getD n
  return {
    innerActionTimeout := ← pick "inner_action_timeout_ms" base.innerActionTimeout
    remoteCheckTimeout := ← pick "remote_check_timeout_ms" base.remoteCheckTimeout
    stabilityThreshold := ← pick "source_package_stability_threshold_ms" base.stabilityThreshold
    stabilityBypassAge := ← pick "stability_bypass_age_secs" base.stabilityBypassAge
    progressInterval := ← pick "progress_interval_ms" base.progressInterval
    cancelTimeout := ← pick "cancel_timeout_ms" base.cancelTimeout }

def tableValue? (t : Toml.Table) (key : String) : Except ConfigError (Option Nat) :=
  match t.lookup key with
  | none => .ok none
  | some (.scalar (.int n)) => if 0 ≤ n then .ok (some n.toNat) else .error .malformed
  | some _ => .error .malformed

/-- The budgets that must not be zero, by key. -/
def positive (c : Config) : List (String × Nat) :=
  [("inner_action_timeout_ms", c.innerActionTimeout),
    ("remote_check_timeout_ms", c.remoteCheckTimeout),
    ("progress_interval_ms", c.progressInterval)]

/-- The first budget that is zero is reported. -/
def validate (c : Config) : Except ConfigError Config :=
  match c.positive.find? (·.2 = 0) with
  | some (key, _) => .error (.zero key)
  | none => .ok c

def ofTable (env : Environment) (t : Toml.Table) : Except ConfigError Config := do
  validate (← overlay (default env) (tableValue? t))

def ofToml (env : Environment) (source : String) : Except ConfigError Config :=
  match Toml.read? source with
  | none => .error .malformed
  | some t => ofTable env t

/-- The configuration of a file, whose text is there unless reading it failed. -/
def ofFile (env : Environment) (path : String) (source : Except String String) :
    Except ConfigError Config :=
  match source with
  | .error cause => .error (.unreadable path cause)
  | .ok text =>
    match ofToml env text with
    | .error cause => .error (.invalid path cause)
    | .ok c => .ok c

def toJson (c : Config) : Json := .obj (keys.zip (c.values.map Json.nat))

/-- Any part of a configuration over the defaults, without validation. -/
def ofJson (env : Environment) (v : Json) : Decoded Config :=
  v.record keys "a configuration" fun m => do
    let nat (key : String) (fallback : Nat) : Decoded Nat := m.getD key fallback Json.asNat64
    let base := default env
    return {
      innerActionTimeout := ← nat "inner_action_timeout_ms" base.innerActionTimeout
      remoteCheckTimeout := ← nat "remote_check_timeout_ms" base.remoteCheckTimeout
      stabilityThreshold := ← nat "source_package_stability_threshold_ms" base.stabilityThreshold
      stabilityBypassAge := ← nat "stability_bypass_age_secs" base.stabilityBypassAge
      progressInterval := ← nat "progress_interval_ms" base.progressInterval
      cancelTimeout := ← nat "cancel_timeout_ms" base.cancelTimeout }

/-- All budgets in milliseconds, the bypass age among them. -/
def milliseconds (c : Config) : List Nat :=
  [c.innerActionTimeout, c.remoteCheckTimeout, c.stabilityThreshold, c.stabilityBypassAge * 1000,
    c.progressInterval, c.cancelTimeout]

def inspect (c : Config) : String :=
  Text.inspectRecord "WorkerConfig" (keys.zip (c.values.map toString))

end Config
end PackageHandling
