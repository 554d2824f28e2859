import PackageHandling.Handle
import PackageHandling.Config
import PackageHandling.Answer

/-!
# Workers

A worker knows where it runs, its budgets, and which kinds of storage it can handle.
-/

namespace PackageHandling

/-- A registered kind of storage. -/
structure Registration (β : Type) where
  accessType : AccessType
  factory : Factory β
  cost : Nat

/-- The kinds of storage a worker can handle, at most one registration of each. -/
structure Registry (β : Type) where
  registration? : AccessType → Option (Registration β)

namespace Registry

variable {β : Type}

def empty : Registry β := ⟨fun _ => none⟩

/-- A later registration replaces an earlier one of the same kind. -/
def register (r : Registry β) (t : AccessType) (factory : Factory β) : Registry β :=
  ⟨fun t' => if t' = t then some ⟨t, factory, t.cost⟩ else r.registration? t'⟩

theorem registration?_register (r : Registry β) (t t' : AccessType) (factory : Factory β) :
    (r.register t factory).registration? t' =
      if t' = t then some ⟨t, factory, t.cost⟩ else r.registration? t' := rfl

def isRegistered (r : Registry β) (t : AccessType) : Bool := (r.registration? t).isSome

/-- In the fixed order of kinds. -/
def registered (r : Registry β) : List AccessType := AccessType.all.filter r.isRegistered

def find (r : Registry β) (t : AccessType) : Except Failure (Registration β) :=
  match r.registration? t with
  | some entry => .ok entry
  | none => .error (.accessorNotRegistered t)

/-- A handle that is of the accessor's own kind. -/
def createHandle (r : Registry β) (b : Binding) : Plan β Note (Except Failure (Handle β)) :=
  match r.find b.accessor.accessType with
  | .error f => .done (.error f)
  | .ok entry => do
    .say (.bound b)
    .say (.called b.accessorId .create)
    match ← Plan.atomically (entry.factory.create b) with
    | .error f => return .error f
    | .ok h =>
      if h.accessType = b.accessor.accessType then return .ok h
      else return .error (.unexpectedAccessorType b.accessor.accessType h.accessType)

end Registry

structure Worker (β : Type) where
  id : String
  location : Location
  config : Config
  registry : Registry β

/-- How a worker shows itself to a developer; what it can handle is left out. -/
def Worker.inspect {β : Type} (w : Worker β) : String :=
  Text.inspectPart "WorkerContext"
    [("worker_id", Text.inspect w.id), ("location", w.location.inspect),
      ("config", w.config.inspect)]

/-- The way to the expectation managers. -/
structure ManagerLink (β : Type) where
  send : String → ManagerMessage → Backend β (Except Failure Json)

/-- Forward a call to a manager. -/
def Worker.sendToManager {β : Type} (w : Worker β) (link : ManagerLink β) (managerId : String)
    (m : ManagerMessage) : Plan β Note (Except Failure Json) :=
  .note (.logged (.sendingMessage w.id managerId m.type))
    ((link.send managerId m).mapNotes .remarked)

end PackageHandling
