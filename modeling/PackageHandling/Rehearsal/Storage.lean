import PackageHandling.Worker
import PackageHandling.Readiness

/-!
# Scripted storage

Storage that plays a script instead of holding packages, to rehearse a worker on: the script
says per accessor what each operation answers and how long it takes.
-/

namespace PackageHandling
namespace Rehearsal

/-- An answer and the time it takes. -/
structure Timed (α : Type) where
  delay : Nat := 0
  answer : α

structure AccessorScript where
  create : Except Failure Unit := .ok ()
  /-- The access type that handles claim to be of, where it is not their own. -/
  claimedType : Option AccessType := none
  basic : Check := .ok ()
  read : Check := .ok ()
  write : Check := .ok ()
  packageRead : Timed Check := ⟨0, .ok ()⟩
  probe : Timed (Except ProbeFailure Unit) := ⟨0, .ok ()⟩
  containerWrite : Timed Check := ⟨0, .ok ()⟩
  /-- Each reading moves on to the next of these; the last one stays. -/
  versions : List (Timed (Except Failure PackageVersion)) := []
  remove : Timed (Except Failure Unit) := ⟨0, .ok ()⟩
  fetch : Timed (Except Failure Unit) := ⟨0, .ok ()⟩
  update : Timed (Except Failure Unit) := ⟨0, .ok ()⟩
  forget : Timed (Except Failure Unit) := ⟨0, .ok ()⟩

instance : Inhabited AccessorScript := ⟨{}⟩

/-- The scripts, how often each version was read, and the records beside the packages. -/
structure Storage where
  script : String → AccessorScript := fun _ => {}
  readings : String → Nat := fun _ => 0
  records : Sorted Json := .empty

instance : Inhabited Storage := ⟨{}⟩

namespace Storage

/-- A new script starts over and may bring a record. -/
def configure (s : Storage) (id : String) (script : AccessorScript) (record : Option Json) :
    Storage where
  script i := if i = id then script else s.script i
  readings i := if i = id then 0 else s.readings i
  records := match record with
    | some r => s.records.insert id r
    | none => s.records

/-- Answer from the script as it is now, after its delay. -/
def answering {α : Type} (id : String) (part : AccessorScript → Timed α) : Backend Storage α :=
  .look fun s => .wait (part (s.script id)).delay (.done (part (s.script id)).answer)

/-- An answer that has an effect on the storage when it is positive. -/
def acting {α : Type} (id : String) (part : AccessorScript → Timed (Except Failure Unit))
    (effect : Storage → α × Storage) : Backend Storage (Except Failure α) := do
  match ← answering id part with
  | .error f => return .error f
  | .ok () => .ok <$> Plan.atomically effect

def readVersion (id : String) : Backend Storage (Except Failure PackageVersion) :=
  .look fun s =>
    let versions := (s.script id).versions
    match versions[s.readings id]?.or versions.getLast? with
    | none => .done (.error (.backend id "package not found"))
    | some v =>
      .set { s with readings := fun i => if i = id then s.readings id + 1 else s.readings i }
        (.wait v.delay (.done v.answer))

def handle (t : AccessType) (id : String) : Handle Storage where
  accessType := t
  accessorId := id
  basicCheck s := ((s.script id).basic, s)
  readCheck s := ((s.script id).read, s)
  writeCheck s := ((s.script id).write, s)
  packageReadCheck := answering id (·.packageRead)
  probe := answering id (·.probe)
  containerWriteCheck := answering id (·.containerWrite)
  actualVersion := readVersion id
  remove reason := .look fun s =>
    let script := (s.script id).remove
    .wait script.delay (.note (id ++ ":removed(" ++ reason ++ ")") (.done script.answer))
  fetch := acting id (·.fetch) fun s => (s.records.get? id, s)
  update record := acting id (·.update) fun s =>
    ((), { s with records := s.records.insert id record })
  forget := acting id (·.forget) fun s => ((), { s with records := s.records.erase id })

def create (t : AccessType) (b : Binding) (s : Storage) :
    Except Failure (Handle Storage) × Storage :=
  let script := s.script b.accessorId
  (script.create.map fun () => handle (script.claimedType.getD t) b.accessorId, s)

/-- Storage of one kind; an unreachable one supports no accessor. -/
def factory (unreachable : List AccessType) (t : AccessType) : Factory Storage :=
  if t ∈ unreachable then { supports := fun _ _ => false, create := create t }
  else { create := create t }

def registry (registered unreachable : List AccessType) : Registry Storage :=
  registered.foldl (fun r t => r.register t (factory unreachable t)) .empty

end Storage

/-- Managers that give fixed replies, and the messages they got. -/
structure Managers where
  reply : String → Except Failure Json
  received : List (String × ManagerMessage) := []

/-- The link to such managers. -/
def Managers.link : ManagerLink Managers where
  send id m := .atomically fun s =>
    (s.reply id, { s with received := s.received ++ [(id, m)] })

end Rehearsal
end PackageHandling
