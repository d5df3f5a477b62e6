import HostRoster.Host
import HostRoster.Json.Lenient

/-!
# Hosts in JSON

Specs and records are written with their unset fields left out; an update always
shows its replication source.
-/
namespace HostRoster

def HostSpec.toFields (s : HostSpec) : List (String × Json) :=
  [("zone", .str s.zone)] ++ Json.fieldOfOption "subnet_id" s.subnetId ++
    [("assign_public_ip", .bool s.assignPublicIp)] ++
    Json.fieldOfOption "replication_source" s.replicationSource

def HostSpec.toJson (s : HostSpec) : Json := .obj s.toFields

def HostRecord.toFields (r : HostRecord) : List (String × Json) :=
  r.toHostSpec.toFields ++ Json.fieldOfOption "assigned_name" r.assignedName

def HostRecord.toJson (r : HostRecord) : Json := .obj r.toFields

def HostUpdate.toFields (u : HostUpdate) : List (String × Json) :=
  [("key", .str u.key), ("name", .str u.name), ("assign_public_ip", .bool u.assignPublicIp),
    ("replication_source", .ofOption u.replicationSource),
    ("changed", .ofStrings (u.changed.map HostField.label))]

def HostUpdate.toJson (u : HostUpdate) : Json := .obj u.toFields

def HostSpec.ofFields? (fields : List (String × Json)) : Option HostSpec := do
  return {
    zone := ← Json.required fields "zone" Json.text?
    subnetId := ← Json.orElse fields "subnet_id" none (Json.nullable? Json.text?)
    assignPublicIp := ← Json.orElse fields "assign_public_ip" false Json.bool?
    replicationSource := ← Json.orElse fields "replication_source" none
      (Json.nullable? Json.text?) }

def HostSpec.fieldNames : List String :=
  ["zone", "subnet_id", "assign_public_ip", "replication_source"]

def HostSpec.ofJson? (v : Json) : Option HostSpec :=
  Json.fields? fieldNames v >>= ofFields?

def HostRecord.fieldNames : List String := HostSpec.fieldNames ++ ["assigned_name"]

def HostRecord.ofFields? (fields : List (String × Json)) : Option HostRecord := do
  let spec ← HostSpec.ofFields? fields
  return spec.named (← Json.orElse fields "assigned_name" none (Json.nullable? Json.text?))

def HostRecord.ofJson? (v : Json) : Option HostRecord :=
  Json.fields? fieldNames v >>= ofFields?

def HostField.ofJson? (v : Json) : Option HostField := Json.choice? v >>= ofLabel?

/-- An update of which any part may be left out. -/
def HostUpdate.ofPartial? (v : Json) : Option HostUpdate := do
  return {
    key := ← Json.textField v "key"
    name := ← Json.textField v "name"
    assignPublicIp := ← Json.boolField v "assign_public_ip" false
    replicationSource := ← Json.textField? v "replication_source"
    changed := ← Json.listField v "changed" HostField.ofJson? }

def HostClass.toJson (c : HostClass) : Json :=
  .obj [("zone", .str c.zone), ("subnet_id", .ofOption c.subnetId),
    ("assign_public_ip", .bool c.assignPublicIp), ("display", .str c.label)]

/-- Hosts by key as an array of pairs. -/
def HostMap.toPairs (hosts : HostMap) : Json := .ofPairs HostRecord.toJson hosts

def HostMap.ofJson? (v : Json) : Option HostMap := Json.keyMap? HostRecord.ofJson? v

end HostRoster
