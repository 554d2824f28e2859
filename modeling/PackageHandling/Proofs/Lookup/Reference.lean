import PackageHandling.Lookup

/-!
# What a lookup is to answer

The pairs are tried one after the other, each from the state in which the one before left the
backend: its handle is made, then the requested stages are run in their fixed order up to the
first failure.  The first pair that passes is the answer, else the rejection of the last one; a
budget lies over the whole.  No plan is built or cut here: each operation is looked at as a whole,
for its answer and for the time it takes.
-/

namespace PackageHandling
namespace Plan

variable {σ ν α : Type}

/-- The state in which a plan leaves things when it is abandoned after so many milliseconds. -/
def abandonedAt : Nat → Plan σ ν α → σ → σ
  | _, done _, s => s
  | ms, look k, s => abandonedAt ms (k s) s
  | ms, set s p, _ => abandonedAt ms p s
  | ms, note _ p, s => abandonedAt ms p s
  | ms, wait d p, s => if d ≤ ms then abandonedAt (ms - d) p s else s

end Plan

namespace Reference

variable {β α : Type}

/-- What becomes of a stage, when it is over and how it leaves the backend. -/
structure Verdict (β : Type) where
  failure : Option Rejection
  elapsed : Nat
  state : β

inductive Stage
  | basic | read | packageRead | version | write | containerWrite | custom

namespace Stage

def all : List Stage := [.basic, .read, .packageRead, .version, .write, .containerWrite, .custom]

def requested (c : LookupChecks) : Stage → Bool
  | basic => true
  | read => c.read
  | packageRead => c.packageRead
  | version => c.version.isSome
  | write => c.write
  | containerWrite => c.containerWrite
  | custom => c.custom.isSome

end Stage

def failureOf : Check → Option Rejection
  | .ok () => none
  | .error r => some r

def instant (check : β → Check × β) (s : β) : Verdict β := ⟨failureOf (check s).1, 0, (check s).2⟩

/-- A remote operation that takes no longer than its budget is judged by its answer; any other has
failed when the budget is over. -/
def remote (budget : Nat) (late : Rejection) (operation : Backend β α)
    (judge : α → Option Rejection) (s : β) : Verdict β :=
  let c := operation.run s
  if c.elapsed ≤ budget then ⟨judge c.answer, c.elapsed, c.state⟩
  else ⟨some late, budget, operation.abandonedAt budget s⟩

def timeoutText (budget : Nat) (label : String) : String :=
  "Timeout after " ++ toString budget ++ "ms: " ++ label

def lateCheck (budget : Nat) (label : String) : Rejection :=
  ⟨⟨"Timeout when running " ++ label, timeoutText budget label⟩, false⟩

def lateReading (budget : Nat) : Rejection :=
  ⟨⟨"Operation timed out", timeoutText budget "getPackageActualVersion"⟩, false⟩

/-- A reading that fails is a fault, not a known reason; one that succeeds is compared with the
version that is asked for. -/
def judgeVersion (expected : Option ExpectedVersion) :
    Except Failure PackageVersion → Option Rejection
  | .error f => some ⟨⟨f.summary, f.message⟩, false⟩
  | .ok actual => expected.bind fun e => failureOf (e.accepts actual)

def stage (w : Worker β) (checks : LookupChecks) (p : Pair) (h : Handle β) : Stage → β → Verdict β
  | .basic => instant h.basicCheck
  | .read => instant h.readCheck
  | .packageRead =>
    remote w.config.remoteCheckTimeout
      (lateCheck w.config.remoteCheckTimeout "checkPackageReadAccess") h.packageReadCheck failureOf
  | .version =>
    remote w.config.remoteCheckTimeout (lateReading w.config.remoteCheckTimeout) h.actualVersion
      (judgeVersion checks.version)
  | .write => instant h.writeCheck
  | .containerWrite =>
    remote w.config.remoteCheckTimeout
      (lateCheck w.config.remoteCheckTimeout "checkPackageContainerWriteAccess")
      h.containerWriteCheck failureOf
  | .custom => fun s => ⟨checks.custom.bind fun check => failureOf (check p), 0, s⟩

def stages (w : Worker β) (checks : LookupChecks) (p : Pair) (h : Handle β) :
    List Stage → β → Verdict β
  | [], s => ⟨none, 0, s⟩
  | st :: rest, s =>
    let v := stage w checks p h st s
    if v.failure.isSome then v
    else
      let v' := stages w checks p h rest v.state
      { v' with elapsed := v.elapsed + v'.elapsed }

/-- A handle comes from the factory of the accessor's kind and must be of that kind itself. -/
def create (w : Worker β) (purpose : Purpose) (p : Pair) (s : β) : Except Failure (Handle β) × β :=
  let kind := p.accessor.accessType
  match w.registry.registration? kind with
  | none => (.error (.accessorNotRegistered kind), s)
  | some entry =>
    match entry.factory.create ⟨w.id, p.accessorId, p.accessor, purpose⟩ s with
    | (.error f, t) => (.error f, t)
    | (.ok h, t) =>
      if h.accessType = kind then (.ok h, t)
      else (.error (.unexpectedAccessorType kind h.accessType), t)

def labelled (p : Pair) (r : Rejection) : Rejection :=
  let name := if p.accessor.label = "" then p.accessorId else p.accessor.label
  ⟨⟨r.reason.user,
    p.container.label ++ ": Accessor \"" ++ name ++ "\": " ++ r.reason.tech⟩, r.known⟩

/-- One pair that was tried. -/
structure Trial (β : Type) where
  pair : Pair
  result : Except Rejection (Handle β)
  elapsed : Nat
  state : β

namespace Trial

def passed (t : Trial β) : Bool := t.result.toBool

def selection? (t : Trial β) : Option (Selection β) := t.result.toOption.map (⟨t.pair, ·⟩)

def rejection? (t : Trial β) : Option Rejection :=
  match t.result with
  | .ok _ => none
  | .error r => some r

end Trial

def tryOne (w : Worker β) (checks : LookupChecks) (purpose : Purpose) (p : Pair) (s : β) :
    Trial β :=
  match create w purpose p s with
  | (.error f, t) => ⟨p, .error (labelled p ⟨⟨f.summary, f.message⟩, false⟩), 0, t⟩
  | (.ok h, t) =>
    let v := stages w checks p h (Stage.all.filter (Stage.requested checks)) t
    match v.failure with
    | none => ⟨p, .ok h, v.elapsed, v.state⟩
    | some r => ⟨p, .error (labelled p r), v.elapsed, v.state⟩

/-- All pairs tried, each from where the one before left off. -/
def trials (w : Worker β) (checks : LookupChecks) (purpose : Purpose) :
    List Pair → β → List (Trial β)
  | [], _ => []
  | p :: rest, s =>
    let t := tryOne w checks purpose p s
    t :: trials w checks purpose rest t.state

/-- The first trial that passed, else the rejection of the last trial, else the one given. -/
def answerOr (none? : Rejection) (ts : List (Trial β)) : LookupResult β :=
  match ts.findSome? Trial.selection? with
  | some selected => .ok selected
  | none => .error ((ts.getLast?.bind Trial.rejection?).getD none?)

def nothingToTry (containers : List PackageContainer) : Rejection :=
  ⟨⟨"No accessors configured", "No accessors found in package containers [" ++
    ", ".intercalate (containers.map (·.label)) ++ "]"⟩, true⟩

/-- The time until the answer: that of all trials up to the first that passed. -/
def duration : List (Trial β) → Nat
  | [] => 0
  | t :: ts => t.elapsed + if t.passed then 0 else duration ts

/-- A lookup that takes longer than its budget is answered when the budget is over. -/
def late (budget : Nat) : Rejection :=
  ⟨⟨"Timeout when looking up accessors", timeoutText budget "lookupAccessorHandles"⟩, false⟩

end Reference
end PackageHandling
