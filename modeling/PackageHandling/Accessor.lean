import PackageHandling.Reason

/-!
# Accessors and package containers

An accessor is one configured way into a storage location; a package container is the location
with all its accessors, in configured order.
-/

namespace PackageHandling

/-- Kinds of storage, in their fixed order. -/
inductive AccessType
  | localFolder | fileShare | http | httpProxy | quantel | corePackageInfo | atemMediaStore
  deriving DecidableEq, Inhabited

namespace AccessType

def all : List AccessType :=
  [.localFolder, .fileShare, .http, .httpProxy, .quantel, .corePackageInfo, .atemMediaStore]

def name : AccessType → String
  | localFolder => "LOCAL_FOLDER"
  | fileShare => "FILE_SHARE"
  | http => "HTTP"
  | httpProxy => "HTTP_PROXY"
  | quantel => "QUANTEL"
  | corePackageInfo => "CORE_PACKAGE_INFO"
  | atemMediaStore => "ATEM_MEDIA_STORE"

def inspect : AccessType → String
  | localFolder => "LocalFolder"
  | fileShare => "FileShare"
  | http => "Http"
  | httpProxy => "HttpProxy"
  | quantel => "Quantel"
  | corePackageInfo => "CorePackageInfo"
  | atemMediaStore => "AtemMediaStore"

/-- Place in the fixed order. -/
def rank : AccessType → Nat
  | localFolder => 0
  | fileShare => 1
  | http => 2
  | httpProxy => 3
  | quantel => 4
  | corePackageInfo => 5
  | atemMediaStore => 6

/-- What moving data through this kind of storage costs, compared with the others. -/
def cost : AccessType → Nat
  | localFolder | quantel | atemMediaStore => 1
  | corePackageInfo | fileShare => 2
  | http | httpProxy => 3

/-- The cost of a kind that is not known. -/
def unknownCost : Nat := 999

theorem cost_pos (t : AccessType) : 0 < t.cost := by cases t <;> decide

def names : List (String × AccessType) := all.map fun t => (t.name, t)

def toJson (t : AccessType) : Json := .str t.name

def ofJson : Json → Decoded AccessType := Json.asName names

end AccessType

/-- Where a worker runs. -/
structure Location where
  computer : Option String
  networks : List String
  deriving DecidableEq, Inhabited

namespace Location

def toJson (l : Location) : Json :=
  .obj [("localComputerId", Json.ofOption .str l.computer),
    ("localNetworkIds", .arr (l.networks.map .str))]

def ofJson (v : Json) : Decoded Location :=
  v.record ["localComputerId", "localNetworkIds"] "a location" fun m => do
    return ⟨← m.option "localComputerId" Json.asText,
      ← m.getD "localNetworkIds" [] (Json.asList Json.asText)⟩

def inspect (l : Location) : String :=
  Text.inspectRecord "WorkerLocation"
    [("local_computer_id", Text.inspectOption Text.inspect l.computer),
      ("local_network_ids", Text.inspectList Text.inspect l.networks)]

end Location

/-- What is needed to connect to a storage, by its kind. -/
inductive Connection
  | localFolder (folderPath filePath resourceId : Option String)
  | fileShare (folderPath filePath userName password networkId : Option String)
  | http (baseUrl url : Option String) (isImmutable : Bool) (networkId : Option String)
  | httpProxy (baseUrl url networkId : Option String)
  | quantel (gatewayUrl isaCodes zoneId : Option String) (serverId : Option Nat)
      (guid title fileFlowBaseUrl networkId : Option String)
  | corePackageInfo
  | atemMediaStore (host mediaType : Option String) (bankIndex : Option Nat)
      (networkId : Option String)
  deriving DecidableEq, Inhabited

namespace Connection

def accessType : Connection → AccessType
  | localFolder .. => .localFolder
  | fileShare .. => .fileShare
  | http .. => .http
  | httpProxy .. => .httpProxy
  | quantel .. => .quantel
  | corePackageInfo => .corePackageInfo
  | atemMediaStore .. => .atemMediaStore

/-- The network that leads to the storage, for the kinds that are bound to one. -/
def network : Connection → Option String
  | fileShare _ _ _ _ n | http _ _ _ n | httpProxy _ _ n | quantel _ _ _ _ _ _ _ n
  | atemMediaStore _ _ _ n => n
  | localFolder .. | corePackageInfo => none

/-- A local folder must be on this computer, a network storage on one of its networks; an id
that is not set does not bind. -/
def reachableFrom (location : Location) : Connection → Bool
  | localFolder _ _ resource => resource.all fun id => location.computer == some id
  | c => c.network.all fun id => location.networks.contains id

def fields : Connection → List (String × Json)
  | localFolder folder file resource =>
    [("folderPath", Json.ofOption .str folder), ("filePath", Json.ofOption .str file),
      ("resourceId", Json.ofOption .str resource)]
  | fileShare folder file user password network =>
    [("folderPath", Json.ofOption .str folder), ("filePath", Json.ofOption .str file),
      ("userName", Json.ofOption .str user), ("password", Json.ofOption .str password),
      ("networkId", Json.ofOption .str network)]
  | http baseUrl url isImmutable network =>
    [("baseUrl", Json.ofOption .str baseUrl), ("url", Json.ofOption .str url),
      ("isImmutable", .bool isImmutable), ("networkId", Json.ofOption .str network)]
  | httpProxy baseUrl url network =>
    [("baseUrl", Json.ofOption .str baseUrl), ("url", Json.ofOption .str url),
      ("networkId", Json.ofOption .str network)]
  | quantel gateway codes zone server guid title fileFlow network =>
    [("quantelGatewayUrl", Json.ofOption .str gateway), ("iscodes", Json.ofOption .str codes),
      ("zoneId", Json.ofOption .str zone), ("serverId", Json.ofOption .nat server),
      ("guid", Json.ofOption .str guid), ("title", Json.ofOption .str title),
      ("fileFlowBaseUrl", Json.ofOption .str fileFlow), ("networkId", Json.ofOption .str network)]
  | corePackageInfo => []
  | atemMediaStore host media bank network =>
    [("atemHost", Json.ofOption .str host), ("mediaType", Json.ofOption .str media),
      ("bankIndex", Json.ofOption .nat bank), ("networkId", Json.ofOption .str network)]

/-- The members of a connection, the kind first. -/
def tagged (c : Connection) : List (String × Json) := ("type", c.accessType.toJson) :: c.fields

def toJson (c : Connection) : Json := .obj c.tagged

def fieldNames : AccessType → List String
  | .localFolder => ["folderPath", "filePath", "resourceId"]
  | .fileShare => ["folderPath", "filePath", "userName", "password", "networkId"]
  | .http => ["baseUrl", "url", "isImmutable", "networkId"]
  | .httpProxy => ["baseUrl", "url", "networkId"]
  | .quantel =>
    ["quantelGatewayUrl", "iscodes", "zoneId", "serverId", "guid", "title", "fileFlowBaseUrl",
      "networkId"]
  | .corePackageInfo => []
  | .atemMediaStore => ["atemHost", "mediaType", "bankIndex", "networkId"]

/-- The fields that belong to a kind, in any of the forms of a record. -/
def ofFields (t : AccessType) (v : Json) : Decoded Connection :=
  v.record (fieldNames t) "a connection" fun m => do
    let text (field : String) : Decoded (Option String) := m.option field Json.asText
    match t with
    | .localFolder =>
      return .localFolder (← text "folderPath") (← text "filePath") (← text "resourceId")
    | .fileShare =>
      return .fileShare (← text "folderPath") (← text "filePath") (← text "userName")
        (← text "password") (← text "networkId")
    | .http =>
      return .http (← text "baseUrl") (← text "url") (← m.getD "isImmutable" false Json.asBool)
        (← text "networkId")
    | .httpProxy => return .httpProxy (← text "baseUrl") (← text "url") (← text "networkId")
    | .quantel =>
      return .quantel (← text "quantelGatewayUrl") (← text "iscodes") (← text "zoneId")
        (← m.option "serverId" Json.asNat32) (← text "guid") (← text "title")
        (← text "fileFlowBaseUrl") (← text "networkId")
    | .corePackageInfo => return .corePackageInfo
    | .atemMediaStore =>
      return .atemMediaStore (← text "atemHost") (← text "mediaType")
        (← m.option "bankIndex" Json.asNat32) (← text "networkId")

def ofJson (v : Json) : Decoded Connection := do
  let (tag, rest) ← v.tagged "type" "a connection"
  ofFields (← AccessType.ofJson (.str tag)) rest

end Connection

structure Accessor where
  label : String := ""
  allowRead : Bool := false
  allowWrite : Bool := false
  priority : Option Int := none
  connection : Connection
  deriving DecidableEq, Inhabited

namespace Accessor

def accessType (a : Accessor) : AccessType := a.connection.accessType

/-- The priority of an accessor that does not set one. -/
def defaultPriority : Int := 0

/-- Lower goes first. -/
def effectivePriority (a : Accessor) : Int := a.priority.getD defaultPriority

/-- The label for messages; an accessor without one goes by its id. -/
def displayLabel (a : Accessor) (id : String) : String := if a.label = "" then id else a.label

def reachableFrom (location : Location) (a : Accessor) : Bool :=
  a.connection.reachableFrom location

def toJson (a : Accessor) : Json :=
  .obj ([("label", .str a.label), ("allowRead", .bool a.allowRead),
    ("allowWrite", .bool a.allowWrite), ("priority", Json.ofOption .int a.priority)] ++
    a.connection.tagged)

def ownFields : List String := ["label", "allowRead", "allowWrite", "priority"]

/-- The kind of a connection that is spread among other members; a kind may also be given by
its rank. -/
def spreadType : Json → Decoded AccessType
  | .num (.int n) =>
    match AccessType.all.find? fun t => (t.rank : Int) = n with
    | some t => .ok t
    | none => .error (.variant (toString n) (AccessType.all.map (·.name)))
  | .str s => AccessType.ofJson (.str s)
  | v => v.mismatch "an access type"

/-- An object only; the members that are not the accessor's own are its connection's. -/
def ofJson : Json → Decoded Accessor
  | .obj found => do
    let m ← Json.Members.ofObject ownFields found
    let label ← m.getD "label" "" Json.asText
    let allowRead ← m.getD "allowRead" false Json.asBool
    let allowWrite ← m.getD "allowWrite" false Json.asBool
    let priority ← m.option "priority" Json.asInt32
    let spread := found.filter (·.1 ∉ ownFields)
    (Json.obj spread).readable
    let t ← (← Json.Members.ofObject ["type"] spread).get "type" spreadType
    let connection ← Connection.ofFields t (.obj (spread.filter (·.1 ≠ "type")))
    return { label, allowRead, allowWrite, priority, connection }
  | v => v.mismatch "an accessor"

end Accessor

/-- A storage location with its accessors by id. -/
structure PackageContainer where
  id : String
  label : String
  accessors : Ordered Accessor := Ordered.empty
  deriving DecidableEq, Inhabited

namespace PackageContainer

def toJson (c : PackageContainer) : Json :=
  .obj [("containerId", .str c.id), ("label", .str c.label),
    ("accessors", .obj (c.accessors.entries.map fun e => (e.1, e.2.toJson)))]

def accessorsOfJson : Json → Decoded (Ordered Accessor)
  | .obj found => do
    return Ordered.ofList (← found.mapM fun e => do return (e.1, ← Accessor.ofJson e.2))
  | v => v.mismatch "a map"

def ofJson (v : Json) : Decoded PackageContainer :=
  v.record ["containerId", "label", "accessors"] "a package container" fun m => do
    return ⟨← m.get "containerId" Json.asText, ← m.get "label" Json.asText,
      ← m.getD "accessors" Ordered.empty accessorsOfJson⟩

/-- The labels, as messages list them. -/
def labels (containers : List PackageContainer) : String :=
  ", ".intercalate (containers.map (·.label))

end PackageContainer
end PackageHandling
