import HostRoster.Reconciliation.Report
import HostRoster.Report.Message

/-!
# Showing a run

What a run did to a cluster, and how a cluster differs from its declaration.
-/
namespace HostRoster.Report

def outcome (format : Format) (o : Outcome) : String :=
  match format with
  | .text =>
    lines [Level.success.mark ++ " Cluster " ++ o.clusterId ++ " is " ++ o.phase.label, ""] ++
      o.countLines "   "
  | .json => Json.indented o.toJson

/-- The differences of a drift report, one a line, and the counts. -/
def driftText (d : DriftReport) : String :=
  if d.isConverged then Level.success.mark ++ " No drift detected, hosts are converged.\n"
  else
    lines [Level.warning.mark ++ " Drift detected:", ""] ++
    lines (d.missing.map fun key => "   + " ++ key ++ " (missing)") ++
    lines (d.changed.map fun change => "   ~ " ++ change) ++
    lines (d.unmanaged.map fun name => "   - " ++ name ++ " (unmanaged)") ++
    lines ["", toString d.declaredCount ++ " declared, " ++ toString d.observedCount ++
      " observed."]

def drift (format : Format) (d : DriftReport) : String :=
  match format with
  | .text => driftText d
  | .json => Json.indented d.toJson

end HostRoster.Report
