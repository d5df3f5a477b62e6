import HostRoster.Reconciliation
import HostRoster.Host.Json

/-!
# Reports of a run

Outcomes and drift reports as JSON and as text.
-/
namespace HostRoster

def hostMapJson (hosts : HostMap) : Json := .obj (hosts.entries.map fun e => (e.1, e.2.toJson))

def Phase.ofJson? (v : Json) : Option Phase := Json.choice? v >>= ofLabel?

namespace Outcome

def toJson (o : Outcome) : Json :=
  .obj [("cluster_id", .str o.clusterId), ("phase", .str o.phase.label),
    ("hosts", hostMapJson o.hosts),
    ("created", .ofNat o.created), ("updated", .ofNat o.updated), ("deleted", .ofNat o.deleted),
    ("unchanged", .ofNat o.unchanged), ("adopted", .ofStrings o.adopted)]

/-- The counts of an outcome, each on a line with the given indentation. -/
def countLines (o : Outcome) (indent : String) : String :=
  indent ++ "Created: " ++ toString o.created ++ "\n" ++
  indent ++ "Updated: " ++ toString o.updated ++ "\n" ++
  indent ++ "Deleted: " ++ toString o.deleted ++ "\n" ++
  indent ++ "Unchanged: " ++ toString o.unchanged ++ "\n" ++
  if o.adopted.isEmpty then "" else indent ++ "Adopted: " ++ ", ".intercalate o.adopted ++ "\n"

def text (o : Outcome) : String :=
  "Cluster " ++ o.clusterId ++ " is " ++ o.phase.label ++ ":\n" ++ o.countLines "  "

/-- An outcome of which any part but its phase may be left out. -/
def ofPartial? (v : Json) : Option Outcome := do
  return {
    clusterId := ← Json.textField v "cluster_id"
    phase := ← Phase.ofJson? (Json.field v "phase")
    hosts := ← Json.mapField v "hosts" HostRecord.ofJson?
    created := ← Json.natField v "created"
    updated := ← Json.natField v "updated"
    deleted := ← Json.natField v "deleted"
    unchanged := ← Json.natField v "unchanged"
    adopted := ← Json.listField v "adopted" Json.text? }

end Outcome

namespace DriftReport

def toJson (d : DriftReport) : Json :=
  .obj [("cluster_id", .str d.clusterId), ("has_drift", .bool d.hasDrift),
    ("missing", .ofStrings d.missing), ("changed", .ofStrings d.changed),
    ("unmanaged", .ofStrings d.unmanaged), ("declared_count", .ofNat d.declaredCount),
    ("observed_count", .ofNat d.observedCount)]

def isConverged (d : DriftReport) : Bool := !d.hasDrift

def text (d : DriftReport) : String :=
  if d.isConverged then "No drift detected, cluster " ++ d.clusterId ++ " is converged"
  else
    "Drift detected in cluster " ++ d.clusterId ++ ":\n" ++
    String.join (d.missing.map fun key => "  + " ++ key ++ " (missing)\n") ++
    String.join (d.changed.map fun change => "  ~ " ++ change ++ "\n") ++
    String.join (d.unmanaged.map fun name => "  - " ++ name ++ " (not declared)\n")

/-- A report of which any part may be left out. -/
def ofPartial? (v : Json) : Option DriftReport := do
  return {
    clusterId := ← Json.textField v "cluster_id"
    hasDrift := ← Json.boolField v "has_drift" false
    missing := ← Json.listField v "missing" Json.text?
    changed := ← Json.listField v "changed" Json.text?
    unmanaged := ← Json.listField v "unmanaged" Json.text?
    declaredCount := ← Json.natField v "declared_count"
    observedCount := ← Json.natField v "observed_count" }

end DriftReport

end HostRoster
