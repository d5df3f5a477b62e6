import HostRoster.Config
import HostRoster.Guardrails.Json
import HostRoster.Host.Json

/-!
# Configurations in JSON

Every setting is shown, with null for one that is not set.
-/
namespace HostRoster

def ClusterIdentity.toJson (c : ClusterIdentity) : Json :=
  .obj [("id", .str c.id), ("name", .str c.name), ("environment", .str c.environment)]

def ApiSettings.toJson (a : ApiSettings) : Json :=
  .obj [("endpoint", .str a.endpoint), ("operation_endpoint", .ofOption a.operationEndpoint),
    ("service", .str a.service), ("timeout_secs", .ofNat a.timeout),
    ("poll_interval_secs", .ofNat a.pollInterval),
    ("operation_timeout_secs", .ofNat a.operationTimeout), ("page_size", .ofNat a.pageSize)]

def StateSettings.toJson (s : StateSettings) : Json :=
  .obj [("backend", .str s.backend.label), ("bucket", .ofOption s.bucket),
    ("prefix", .ofOption s.keyPrefix), ("region", .ofOption s.region), ("path", .ofOption s.path)]

def Config.toJson (c : Config) : Json :=
  .obj [("cluster", c.cluster.toJson), ("api", c.api.toJson), ("state", c.state.toJson),
    ("hosts", .ofPairs HostSpec.toJson c.hosts),
    ("guardrails", c.guardrails.elim .null Guardrails.toJson),
    ("reconcile_timeout_secs", .ofNat? c.reconcileTimeout)]

end HostRoster
