import HostRoster.Cluster
import HostRoster.Error.Json

/-!
# Clusters in JSON

A cluster in memory is described by its hosts, the way it lists them, and the
effects that wait for its calls.
-/
namespace HostRoster

def ListingOrder.ofLabel? : String → Option ListingOrder
  | "" => some .newestFirst
  | "forward" => some .oldestFirst
  | "name" => some .byName
  | _ => none

def Effect.ofJson? (v : Json) : Option Effect := do
  return {
    delayMs := ← Json.natField v "delay_ms"
    error := ← Json.optional? v "error" SyncError.ofJson?
    errorAfter := ← Json.boolField v "after" false
    skip := ← Json.boolField v "skip" false
    hosts := ← Json.optional? v "hosts" (Json.list? HostRecord.ofJson?)
    names := ← Json.optional? v "names" (Json.list? Json.text?) }

namespace Cluster

def ofJson? (v : Json) : Option Cluster := do
  let faults := Json.field v "faults"
  return {
    hosts := ← Json.listField v "hosts" HostRecord.ofJson?
    nextId := ← Json.natField v "next_id"
    order := ← ListingOrder.ofLabel? (← Json.textField v "order")
    subnets := ← Json.mapField v "subnets" Json.text?
    listEffects := ← Json.listField faults "list" Effect.ofJson?
    createEffects := ← Json.listField faults "create" Effect.ofJson?
    updateEffects := ← Json.listField faults "update" Effect.ofJson?
    deleteEffects := ← Json.listField faults "delete" Effect.ofJson? }

def queue (c : Cluster) (call : RemoteOperation) (e : Effect) : Cluster :=
  match call with
  | .list => { c with listEffects := c.listEffects ++ [e] }
  | .create => { c with createEffects := c.createEffects ++ [e] }
  | .update => { c with updateEffects := c.updateEffects ++ [e] }
  | .delete => { c with deleteEffects := c.deleteEffects ++ [e] }

end Cluster

/-- An update with what it changes and its text. -/
def HostUpdate.shown (u : HostUpdate) : Json :=
  .obj (u.toFields ++ [("mask", .str u.mask), ("display", .str u.summary)])

def Call.toJson : Call → Json
  | list cluster => .ofStrings ["list", cluster]
  | create cluster specs => .arr [.str "create", .str cluster, .arr (specs.map HostSpec.toJson)]
  | update cluster u => .arr [.str "update", .str cluster, u.shown]
  | delete cluster name => .ofStrings ["delete", cluster, name]

end HostRoster
