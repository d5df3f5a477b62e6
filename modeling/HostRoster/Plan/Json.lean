import HostRoster.Plan
import HostRoster.Instant
import HostRoster.Host.Json

/-!
# Plans in JSON

Every action shows the same fields, with null for what its kind does not have.
-/
namespace HostRoster

namespace Action

def hostName : Action → Option String
  | create .. => none
  | update u => some u.name
  | delete name => some name

def key? : Action → Option String
  | create key _ => some key
  | update u => some u.key
  | delete _ => none

def toJson (a : Action) : Json :=
  .obj [("action_type", .str (a.word ++ "_host")),
    ("key", .ofOption a.key?),
    ("host_name", .ofOption a.hostName),
    ("spec", a.creates?.elim .null fun c => c.2.toJson),
    ("update", a.updates?.elim .null HostUpdate.toJson),
    ("reason", .str a.reason)]

end Action

def HostPlan.toJson (p : HostPlan) (createdAt : Instant) : Json :=
  .obj [("created_at", .str createdAt.stored),
    ("config_hash", .str p.configHash),
    ("actions", .arr (p.actions.map Action.toJson)),
    ("current_hosts", .ofNat p.currentHosts),
    ("unchanged", .ofNat p.unchanged),
    ("passes_guardrails", .bool p.passesGuardrails),
    ("guardrail_violations", .ofStrings p.violations)]

end HostRoster
