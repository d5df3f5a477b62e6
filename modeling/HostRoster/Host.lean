import HostRoster.KeyMap

/-!
# Hosts

A host is declared under a key of the user's choice. The remote service gives it
a name once it exists, and from then on the name is its identity. Hosts of one
class differ in nothing the service lets a caller choose, so right after a bulk
create they can stand for one another.
-/
namespace HostRoster

/-- Placement and role of a host, without identity. -/
structure HostSpec where
  zone : String
  subnetId : Option String := none
  assignPublicIp : Bool := false
  replicationSource : Option String := none
deriving DecidableEq, Repr, Inhabited

/-- A host together with the name the remote service gave it. -/
structure HostRecord extends HostSpec where
  assignedName : Option String := none
deriving DecidableEq, Repr, Inhabited

/-- Hosts by the user's keys. -/
abbrev HostMap := KeyMap String HostRecord

/-- Declared hosts by the user's keys. -/
abbrev Declaration := KeyMap String HostSpec

/-- The name of a host; an empty name counts as none. -/
def HostRecord.name (r : HostRecord) : Option String :=
  r.assignedName.filter (· ≠ "")

def HostSpec.named (s : HostSpec) (name : Option String) : HostRecord :=
  { s with assignedName := name }

@[simp] theorem HostSpec.toHostSpec_named (s : HostSpec) (name : Option String) :
    (s.named name).toHostSpec = s := rfl

/-- What the remote service cannot tell apart among the hosts of one create call. -/
structure HostClass where
  zone : String
  subnetId : Option String
  assignPublicIp : Bool
deriving DecidableEq, Repr

namespace HostClass

/-- Classes are ordered by zone, then subnet with the unset one first, then flag. -/
instance : Ord HostClass :=
  ⟨compareLex (compareOn zone) (compareLex (compareOn subnetId) (compareOn assignPublicIp))⟩

instance : Std.TransOrd HostClass := inferInstanceAs (Std.TransCmp (compareLex _ _))

/-- The same class with the subnet left to the remote service. -/
def withoutSubnet (c : HostClass) : HostClass := { c with subnetId := none }

def label (c : HostClass) : String :=
  c.zone ++ "/" ++ c.subnetId.getD "*" ++ "/" ++ if c.assignPublicIp then "public" else "private"

end HostClass

def HostSpec.hostClass (s : HostSpec) : HostClass :=
  ⟨s.zone, s.subnetId, s.assignPublicIp⟩

inductive HostField where
  | zone
  | subnetId
  | assignPublicIp
  | replicationSource
deriving DecidableEq, Repr

namespace HostField

def label : HostField → String
  | zone => "zone"
  | subnetId => "subnet_id"
  | assignPublicIp => "assign_public_ip"
  | replicationSource => "replication_source"

def maskName : HostField → String
  | zone => "zoneId"
  | subnetId => "subnetId"
  | assignPublicIp => "assignPublicIp"
  | replicationSource => "replicationSource"

def all : List HostField := [zone, subnetId, assignPublicIp, replicationSource]

def ofLabel? (text : String) : Option HostField := all.find? fun f => f.label == text

end HostField

/-- New values for the fields of a host that can change in place. -/
structure HostUpdate where
  key : String
  name : String
  assignPublicIp : Bool
  replicationSource : Option String
  /-- The fields whose values differ from the actual host. -/
  changed : List HostField
deriving DecidableEq, Repr

namespace HostUpdate

/-- The changed fields as the remote service wants them named. -/
def mask (u : HostUpdate) : String := ",".intercalate (u.changed.map HostField.maskName)

def summary (u : HostUpdate) : String :=
  u.key ++ " (" ++ u.name ++ "): " ++ ", ".intercalate (u.changed.map HostField.label)

end HostUpdate

/-- Overwrites the fields that can change in place. -/
def HostRecord.applyUpdate (r : HostRecord) (u : HostUpdate) : HostRecord :=
  { r with assignPublicIp := u.assignPublicIp, replicationSource := u.replicationSource }

end HostRoster
