import HostRoster.Cluster.Json
import HostRoster.Correlation
import HostRoster.Diff

/-!
# Correlations and differences in JSON
-/
namespace HostRoster

def Correlation.toJson (c : Correlation) : Json :=
  .obj [("hosts", .arr (c.hosts.map fun
      | .matched key r => .obj [("key", .str key), ("record", r.toJson)]
      | .orphaned r => .obj [("orphan", r.toJson)])),
    ("pending", .ofStrings c.pending), ("adopted", .ofStrings c.adopted),
    ("matched", c.matched.toPairs), ("matched_count", .ofNat c.matchedCount),
    ("orphans", .arr (c.orphans.map fun r => .ofOption r.name)),
    ("keys", .arr (c.hosts.map fun h => .ofOption h.key?))]

def HostDiff.toJson (d : HostDiff) : Json :=
  .obj [("to_create", .ofPairs HostSpec.toJson d.toCreate),
    ("to_update", .arr (d.toUpdate.map HostUpdate.shown)),
    ("to_delete", .ofStrings d.toDelete), ("unchanged", .ofStrings d.unchanged),
    ("display", .str d.summary), ("has_changes", .bool d.hasChanges),
    ("total_changes", .ofNat d.totalChanges)]

/-- A difference of which any part may be left out. -/
def HostDiff.ofPartial? (v : Json) : Option HostDiff := do
  return {
    toCreate := ← Json.mapField v "to_create" HostSpec.ofJson?
    toUpdate := ← Json.listField v "to_update" HostUpdate.ofPartial?
    toDelete := ← Json.listField v "to_delete" Json.text?
    unchanged := ← Json.listField v "unchanged" Json.text? }

end HostRoster
