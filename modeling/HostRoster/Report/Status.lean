import HostRoster.Report.Message
import HostRoster.Report.Table
import HostRoster.Service.Status

/-!
# Showing the status of a cluster
-/
namespace HostRoster.Report

def observedJson (h : ObservedHost) : Json :=
  .obj [("name", .str h.host.name), ("key", .ofOption h.key), ("zone", .str h.host.zoneId),
    ("role", .str h.host.role.label), ("health", .str h.host.health.label)]

def statusJson (s : ClusterStatus) : Json :=
  .obj [("cluster_id", .str s.clusterId), ("total_hosts", .ofNat s.totalHosts),
    ("alive", .ofNat (s.count .alive)), ("degraded", .ofNat (s.count .degraded)),
    ("dead", .ofNat (s.count .dead)), ("unknown", .ofNat (s.count .unknown)),
    ("missing_keys", .ofStrings s.missingKeys), ("hosts", .arr (s.hosts.map observedJson))]

def statusRow (h : ObservedHost) : List String :=
  [h.key.getD "-", h.host.name, h.host.zoneId, h.host.role.label, h.host.health.label]

/-- A word for the state of the whole cluster. -/
def verdict (s : ClusterStatus) : String :=
  if s.isHealthy then "healthy" else if 0 < s.count .dead then "unhealthy" else "partial"

def healthCounts (s : ClusterStatus) : String :=
  ", ".intercalate ([HostHealth.alive, .degraded, .dead, .unknown].map fun health =>
    toString (s.count health) ++ " " ++ health.label)

def statusText (s : ClusterStatus) : String :=
  let unmanaged := s.hosts.countP fun h => !h.isManaged
  lines ["", "Cluster: " ++ s.clusterId, ""] ++
  (if s.hosts.isEmpty then "   No hosts found.\n"
    else Table.render (["Key", "Name", "Zone", "Role", "Health"] :: s.hosts.map statusRow) ++
      "\n") ++
  lines ["", "Status: " ++ verdict s ++ " (" ++ healthCounts s ++ ")"] ++
  s.master.elim "" (fun h => lines ["Master: " ++ h.host.name]) ++
  (if unmanaged = 0 then "" else lines ["Unmanaged hosts: " ++ toString unmanaged]) ++
  if s.missingKeys.isEmpty then ""
  else lines [Level.warning.mark ++ " Recorded but not found: " ++ ", ".intercalate s.missingKeys]

def status (format : Format) (s : ClusterStatus) : String :=
  match format with
  | .text => statusText s
  | .json => Json.indented (statusJson s)

end HostRoster.Report
