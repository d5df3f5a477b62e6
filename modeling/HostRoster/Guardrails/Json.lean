import HostRoster.Guardrails
import HostRoster.Json.Lenient

/-!
# Guardrails in JSON

Every limit is written, with null for one that is not set.
-/
namespace HostRoster.Guardrails

def toJson (g : Guardrails) : Json :=
  .obj [("max_hosts", .ofNat? g.maxHosts), ("min_hosts", .ofNat? g.minHosts),
    ("deletion_protection", .bool g.deletionProtection)]

def ofJson? (v : Json) : Option Guardrails := do
  let fields ← Json.fields? ["max_hosts", "min_hosts", "deletion_protection"] v
  return {
    maxHosts := ← Json.orElse fields "max_hosts" none (Json.nullable? Json.nat32?)
    minHosts := ← Json.orElse fields "min_hosts" none (Json.nullable? Json.nat32?)
    deletionProtection := ← Json.orElse fields "deletion_protection" false Json.bool? }

/-- Guardrails of which any part may be left out. -/
def ofPartial? (v : Json) : Option Guardrails := do
  return {
    maxHosts := ← Json.optional? v "max_hosts" Json.nat32?
    minHosts := ← Json.optional? v "min_hosts" Json.nat32?
    deletionProtection := ← Json.boolField v "deletion_protection" false }

end HostRoster.Guardrails
