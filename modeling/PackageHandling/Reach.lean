import PackageHandling.Worker

/-!
# Reach and cost

What a worker can reach by its tables alone, without a call to any backend, and what a job
costs it.
-/

namespace PackageHandling

inductive AccessMode
  | read | write
  deriving DecidableEq, Inhabited

def AccessMode.allows : AccessMode → Accessor → Bool
  | read, a => a.allowRead
  | write, a => a.allowWrite

/-- An accessor that the worker could use. -/
structure Candidate where
  containerId : String
  accessorId : String
  accessType : AccessType
  cost : Nat
  deriving DecidableEq, Inhabited

namespace Worker

variable {β : Type}

/-- An accessor as a candidate: it allows the mode, its kind is registered, and the kind's
factory supports it. -/
def candidate? (w : Worker β) (mode : AccessMode) (containerId accessorId : String)
    (a : Accessor) : Option Candidate :=
  if !mode.allows a then none
  else
    match w.registry.registration? a.accessType with
    | none => none
    | some entry =>
      if entry.factory.supports w.location a then
        some ⟨containerId, accessorId, entry.accessType, entry.cost⟩
      else none

/-- All candidates, in container order and configured order. -/
def candidates (w : Worker β) (mode : AccessMode) (containers : List PackageContainer) :
    List Candidate :=
  containers.flatMap fun c => c.accessors.entries.filterMap fun e => w.candidate? mode c.id e.1 e.2

end Worker

/-- The first of the cheapest. -/
def Candidate.cheapest : List Candidate → Option Candidate
  | [] => none
  | c :: rest =>
    match cheapest rest with
    | none => some c
    | some d => some (if d.cost < c.cost then d else c)

namespace Worker

variable {β : Type}

def best (w : Worker β) (mode : AccessMode) (containers : List PackageContainer) :
    Option Candidate :=
  Candidate.cheapest (w.candidates mode containers)

def reachSide (w : Worker β) (mode : AccessMode) (plural singular : String)
    (containers : List PackageContainer) : Check :=
  if (w.best mode containers).isSome then .ok ()
  else
    .error (.ofKnown ("There are no accessible " ++ plural)
      ("No " ++ singular ++ " (" ++ PackageContainer.labels containers ++ ") is accessible"))

/-- Whether each side that is asked for has a candidate; the sources are judged first. -/
def reaches (w : Worker β) (sources targets : Option (List PackageContainer)) : Check := do
  if let some containers := sources then w.reachSide .read "sources" "source" containers
  if let some containers := targets then w.reachSide .write "targets" "target" containers

/-- What one unit of accessor cost weighs in the cost of a job. -/
def costFactor : Nat := 30

/-- The cost of a job by its cheapest source and target; none if the worker cannot do it.  No
source costs nothing. -/
def standardCost (w : Worker β) (e : Expectation) : Option Nat := do
  let source ←
    if e.sources.isEmpty then some 0 else (w.best .read e.sources).map (·.accessType.cost)
  let target ← (w.best .write e.targets).map (·.accessType.cost)
  return costFactor * (source + target)

end Worker
end PackageHandling
