import HostRoster.Host.Json

/-!
# Documents of the database service

The service speaks JSON: pages of hosts, requests that create, update or delete
hosts, and operations that go on after the request that started them.
-/
namespace HostRoster

/-- The part a host plays in its cluster. -/
inductive HostRole where
  | master
  | replica
  | unknown
deriving DecidableEq, Repr

namespace HostRole

def label : HostRole → String
  | master => "master"
  | replica => "replica"
  | unknown => "unknown"

def wireName : HostRole → String
  | master => "MASTER"
  | replica => "REPLICA"
  | unknown => "UNKNOWN"

/-- A role by its name; any other name is an unknown role. -/
def ofJson? (v : Json) : Option HostRole :=
  (Json.choice? v).map fun n =>
    if n = "MASTER" then master else if n = "REPLICA" then replica else unknown

end HostRole

inductive HostHealth where
  | alive
  | dead
  | degraded
  | unknown
deriving DecidableEq, Repr

namespace HostHealth

def label : HostHealth → String
  | alive => "alive"
  | dead => "dead"
  | degraded => "degraded"
  | unknown => "unknown"

def wireName : HostHealth → String
  | alive => "ALIVE"
  | dead => "DEAD"
  | degraded => "DEGRADED"
  | unknown => "UNKNOWN"

/-- A health by its name; any other name is an unknown health. -/
def ofJson? (v : Json) : Option HostHealth :=
  (Json.choice? v).map fun n =>
    if n = "ALIVE" then alive else if n = "DEAD" then dead
    else if n = "DEGRADED" then degraded else unknown

end HostHealth

/-- A host as the service lists it. -/
structure ListedHost where
  name : String
  clusterId : String
  zoneId : String
  subnetId : Option String
  assignPublicIp : Bool
  replicationSource : Option String
  role : HostRole
  health : HostHealth
deriving DecidableEq, Repr

namespace ListedHost

/-- The record of a listed host; an empty subnet or source counts as unset. -/
def toRecord (h : ListedHost) : HostRecord where
  zone := h.zoneId
  subnetId := h.subnetId.filter (· ≠ "")
  assignPublicIp := h.assignPublicIp
  replicationSource := h.replicationSource.filter (· ≠ "")
  assignedName := some h.name

def toJson (h : ListedHost) : Json :=
  .obj ([("name", .str h.name), ("clusterId", .str h.clusterId), ("zoneId", .str h.zoneId)] ++
    Json.fieldOfOption "subnetId" h.subnetId ++ [("assignPublicIp", .bool h.assignPublicIp)] ++
    Json.fieldOfOption "replicationSource" h.replicationSource ++
    [("role", .str h.role.wireName), ("health", .str h.health.wireName)])

def fieldNames : List String :=
  ["name", "clusterId", "zoneId", "subnetId", "assignPublicIp", "replicationSource", "role",
    "health"]

def ofJson? (v : Json) : Option ListedHost := do
  let fields ← Json.fields? fieldNames v
  return {
    name := ← Json.required fields "name" Json.text?
    clusterId := ← Json.orElse fields "clusterId" "" Json.text?
    zoneId := ← Json.required fields "zoneId" Json.text?
    subnetId := ← Json.orElse fields "subnetId" none (Json.nullable? Json.text?)
    assignPublicIp := ← Json.orElse fields "assignPublicIp" false Json.bool?
    replicationSource := ← Json.orElse fields "replicationSource" none
      (Json.nullable? Json.text?)
    role := ← Json.orElse fields "role" .unknown HostRole.ofJson?
    health := ← Json.orElse fields "health" .unknown HostHealth.ofJson? }

end ListedHost

/-- One page of a listing; without a token, or with an empty one, it is the last. -/
structure HostPage where
  hosts : List ListedHost
  nextPageToken : Option String
deriving DecidableEq, Repr

namespace HostPage

def ofJson? (v : Json) : Option HostPage := do
  let fields ← Json.fields? ["hosts", "nextPageToken"] v
  return {
    hosts := ← Json.orElse fields "hosts" [] (Json.list? ListedHost.ofJson?)
    nextPageToken := ← Json.orElse fields "nextPageToken" none (Json.nullable? Json.text?) }

def next (p : HostPage) : Option String := p.nextPageToken.filter (· ≠ "")

end HostPage

/-- A spec as a create request carries it. -/
def HostSpec.createJson (s : HostSpec) : Json :=
  .obj ([("zoneId", .str s.zone)] ++ Json.fieldOfOption "subnetId" s.subnetId ++
    [("assignPublicIp", .bool s.assignPublicIp)] ++
    Json.fieldOfOption "replicationSource" s.replicationSource)

/-- An update as an update request carries it. -/
def HostUpdate.updateJson (u : HostUpdate) : Json :=
  .obj ([("hostName", .str u.name), ("assignPublicIp", .bool u.assignPublicIp)] ++
    Json.fieldOfOption "replicationSource" u.replicationSource ++
    [("updateMask", .str u.mask)])

def createBody (specs : List HostSpec) : Json :=
  .obj [("hostSpecs", .arr (specs.map HostSpec.createJson))]

def updateBody (u : HostUpdate) : Json := .obj [("updateHostSpecs", .arr [u.updateJson])]

def deleteBody (name : String) : Json := .obj [("hostNames", .ofStrings [name])]

/-- The names given to the hosts of a create call. -/
def assignedNames? (v : Json) : Option (List String) := do
  Json.required (← Json.fields? ["assigned_names"] v) "assigned_names" (Json.list? Json.text?)

structure OperationError where
  code : Int
  message : String
deriving DecidableEq, Repr

def OperationError.ofJson? (v : Json) : Option OperationError := do
  let fields ← Json.fields? ["code", "message"] v
  return {
    code := ← Json.orElse fields "code" 0 Json.int32?
    message := ← Json.orElse fields "message" "" Json.text? }

structure OperationMetadata where
  clusterId : Option String
  hostNames : List String
deriving DecidableEq, Repr

def OperationMetadata.ofJson? (v : Json) : Option OperationMetadata := do
  let fields ← Json.fields? ["clusterId", "hostNames"] v
  return {
    clusterId := ← Json.orElse fields "clusterId" none (Json.nullable? Json.text?)
    hostNames := ← Json.orElse fields "hostNames" [] (Json.list? Json.text?) }

/-- Work that goes on at the service after the request that started it. -/
structure Operation where
  id : String
  done : Bool
  error : Option OperationError
  metadata : Option OperationMetadata
deriving DecidableEq, Repr

namespace Operation

def ofJson? (v : Json) : Option Operation := do
  let fields ← Json.fields? ["id", "done", "error", "metadata"] v
  return {
    id := ← Json.required fields "id" Json.text?
    done := ← Json.orElse fields "done" false Json.bool?
    error := ← Json.orElse fields "error" none (Json.nullable? OperationError.ofJson?)
    metadata := ← Json.orElse fields "metadata" none
      (Json.nullable? OperationMetadata.ofJson?) }

def hostNames (o : Operation) : List String := o.metadata.elim [] OperationMetadata.hostNames

end Operation

end HostRoster
