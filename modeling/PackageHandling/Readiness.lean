import PackageHandling.Lookup

/-!
# Readiness

A source is ready when it can be found in the version that is asked for, opened, and no longer
changes.
-/

namespace PackageHandling

variable {β : Type}

/-- The version of a package, read under the budget of a remote check. -/
def Handle.readVersion (h : Handle β) (c : Config) :
    Plan β Note (Except Rejection PackageVersion) := do
  match ← h.getVersion.attempt c.remoteCheckTimeout "getPackageActualVersion" with
  | .ok v => return .ok v
  | .error f => return .error f.rejection

/-- Whether a version's modification is past the bypass age; `today` is the current time in
milliseconds. -/
def PackageVersion.isOld (v : PackageVersion) (c : Config) (today : Int) : Bool :=
  v.modifiedAt?.any fun t => today - t > c.stabilityBypassAge * 1000

def unstable (c : Config) (r : Rejection) : Rejection :=
  .ofKnown "Waiting for source file to stop growing"
    (s!"Source is not stable after {c.stabilityThreshold}ms: " ++ r.reason.tech)

/-- The version is read twice, the threshold apart, and must not differ; an old source is read
once, and a threshold of zero asks for nothing. -/
def Handle.checkStability (h : Handle β) (c : Config) (today : Int) : Plan β Note Check := do
  if c.stabilityThreshold = 0 then return .ok ()
  match ← h.readVersion c with
  | .error r => return .error r
  | .ok first =>
    if first.isOld c today then
      .say (.logged (.sourceIsOld h.accessorId))
      return .ok ()
    .delay c.stabilityThreshold
    match ← h.readVersion c with
    | .error r => return .error r
    | .ok second => return (first.table.compare second.table).mapError (unstable c)

/-- The steps that find a source to be read. -/
def sourceChecks (e : Expectation) : LookupChecks :=
  { read := true, packageRead := true, version := e.start.version }

/-- Find the source, open it, and see that it is stable. -/
def Worker.checkSource (w : Worker β) (e : Expectation) (today : Int) : Plan β Note Readiness := do
  match ← w.lookupSources e (sourceChecks e) with
  | .error r => return .refused r
  | .ok source =>
    match ← source.handle.tryRead.limited w.config.remoteCheckTimeout "tryPackageRead" with
    | .error f => return .refused f.rejection
    | .ok (.error failure) =>
      return .notReady failure.rejection (some failure.packageExists) failure.sourceIsPlaceholder
    | .ok (.ok ()) =>
      match ← source.handle.checkStability w.config today with
      | .error r => return .notReady r (some true) false
      | .ok () => return .ready (some true)

end PackageHandling
