import PackageHandling.Worker

/-!
# Accessor lookup

Which pair of container and accessor a task is to use: the pairs are visited in order of
priority, each runs the requested steps up to its first failure, and the first pair that passes
all of them is taken.  When none does, the last rejection is the answer.
-/

namespace PackageHandling

structure Pair where
  container : PackageContainer
  accessorId : String
  accessor : Accessor
  deriving Inhabited

namespace Pair

/-- The pairs in container order and configured order. -/
def ofContainers (containers : List PackageContainer) : List Pair :=
  containers.flatMap fun c => c.accessors.entries.map fun e => ⟨c, e.1, e.2⟩

/-- Lower priorities first, equal ones in their order before. -/
def prioritized (containers : List PackageContainer) : List Pair :=
  (ofContainers containers).mergeSort fun a b =>
    decide (a.accessor.effectivePriority ≤ b.accessor.effectivePriority)

/-- What stands before the technical text of a rejection of the pair. -/
def mark (p : Pair) : String :=
  p.container.label ++ ": Accessor \"" ++ p.accessor.displayLabel p.accessorId ++ "\": "

def reject (p : Pair) (r : Rejection) : Rejection := r.prepend "" p.mark

end Pair

/-- The steps a lookup is to run on each pair, beside the basic one. -/
structure LookupChecks where
  read : Bool := false
  packageRead : Bool := false
  version : Option ExpectedVersion := none
  write : Bool := false
  containerWrite : Bool := false
  custom : Option (Pair → Check) := none

inductive LookupStep
  | basic | read | packageRead | version (expected : ExpectedVersion) | write | containerWrite
  | custom (check : Pair → Check)

namespace LookupChecks

/-- The requested steps in their fixed order. -/
def steps (c : LookupChecks) : List LookupStep :=
  [.basic] ++ (if c.read then [.read] else []) ++ (if c.packageRead then [.packageRead] else []) ++
    (c.version.map LookupStep.version).toList ++ (if c.write then [.write] else []) ++
    (if c.containerWrite then [.containerWrite] else []) ++ (c.custom.map LookupStep.custom).toList

def inspect (c : LookupChecks) : String :=
  Text.inspectRecord "LookupChecks"
    [("read", toString c.read), ("read_package", toString c.packageRead),
      ("package_version", Text.inspectOption ExpectedVersion.inspect c.version),
      ("write", toString c.write), ("write_package_container", toString c.containerWrite),
      ("custom_check", toString c.custom.isSome)]

end LookupChecks

/-- The pair that was taken, with its handle. -/
structure Selection (β : Type) where
  pair : Pair
  handle : Handle β

abbrev LookupResult (β : Type) := Except Rejection (Selection β)

def LookupResult.inspect {β : Type} : LookupResult β → String
  | .ok s =>
    "Ready(" ++ Text.inspectRecord "LookupReady"
      [("container", Text.inspect s.pair.container.id),
        ("accessor_id", Text.inspect s.pair.accessorId), ("handle", s.handle.inspect)] ++ ")"
  | .error r => "NotReady(" ++ r.inspect ++ ")"

namespace Worker

variable {β : Type}

/-- One step on the handle of a pair. -/
def runStep (w : Worker β) (p : Pair) (h : Handle β) : LookupStep → Plan β Note Check
  | .basic => h.checkBasic
  | .read => h.checkRead
  | .packageRead => h.checkPackageRead.check w.config.remoteCheckTimeout "checkPackageReadAccess"
  | .version expected => do
    match ← h.getVersion.attempt w.config.remoteCheckTimeout "getPackageActualVersion" with
    | .error f => return .error f.rejection
    | .ok actual => return expected.accepts actual
  | .write => h.checkWrite
  | .containerWrite =>
    h.checkContainerWrite.check w.config.remoteCheckTimeout "checkPackageContainerWriteAccess"
  | .custom check => return check p

/-- Steps up to the first failure. -/
def runSteps (w : Worker β) (p : Pair) (h : Handle β) : List LookupStep → Plan β Note Check
  | [] => return .ok ()
  | step :: rest => do
    match ← w.runStep p h step with
    | .error r => return .error r
    | .ok () => w.runSteps p h rest

def bindingOf (w : Worker β) (purpose : Purpose) (p : Pair) : Binding :=
  ⟨w.id, p.accessorId, p.accessor, purpose⟩

/-- A pair's handle, if it passes all steps. -/
def tryPair (w : Worker β) (checks : LookupChecks) (purpose : Purpose) (p : Pair) :
    Plan β Note (Except Rejection (Handle β)) := do
  match ← w.registry.createHandle (w.bindingOf purpose p) with
  | .error f => return .error (p.reject f.rejection)
  | .ok h =>
    match ← w.runSteps p h checks.steps with
    | .error r => return .error (p.reject r)
    | .ok () => return .ok h

/-- Visit the pairs in order; `last` is the rejection so far. -/
def visit (w : Worker β) (checks : LookupChecks) (purpose : Purpose) (last : Rejection) :
    List Pair → Plan β Note (LookupResult β)
  | [] => return .error last
  | p :: rest => do
    match ← w.tryPair checks purpose p with
    | .ok h => do
      .say (.logged (.accessorSelected p.container.label p.accessorId purpose.usage))
      return .ok ⟨p, h⟩
    | .error r => do
      .say (.logged (.accessorRejected p.container.label p.accessorId r.known r.reason.tech))
      w.visit checks purpose r rest

/-- The rejection of a lookup without pairs. -/
def noAccessors (containers : List PackageContainer) : Rejection :=
  .ofKnown "No accessors configured"
    ("No accessors found in package containers [" ++ PackageContainer.labels containers ++ "]")

/-- The lookup without its own budget. -/
def visitAll (w : Worker β) (containers : List PackageContainer) (checks : LookupChecks)
    (purpose : Purpose) : Plan β Note (LookupResult β) :=
  w.visit checks purpose (noAccessors containers) (Pair.prioritized containers)

/-- The whole lookup has one budget; running out of it is an unknown rejection. -/
def lookup (w : Worker β) (containers : List PackageContainer) (checks : LookupChecks)
    (purpose : Purpose) : Plan β Note (LookupResult β) := do
  let budget := w.config.innerActionTimeout
  match ← (w.visitAll containers checks purpose).within budget with
  | some result => return result
  | none =>
    return .error (.ofUnknown "Timeout when looking up accessors"
      (Failure.elapsed "lookupAccessorHandles" budget).message)

def purposeOf (e : Expectation) (usage : String) : Purpose :=
  ⟨some e.id, usage, e.goal.content, e.options⟩

def lookupSources (w : Worker β) (e : Expectation) (checks : LookupChecks) :
    Plan β Note (LookupResult β) :=
  w.lookup e.sources checks (purposeOf e "source")

def lookupTargets (w : Worker β) (e : Expectation) (checks : LookupChecks) :
    Plan β Note (LookupResult β) :=
  w.lookup e.targets checks (purposeOf e "target")

end Worker
end PackageHandling
