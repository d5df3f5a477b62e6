import HostRoster.Config.Fingerprint
import HostRoster.Report.Message
import HostRoster.Report.Table
import HostRoster.State.Json

/-!
# Showing the recorded state
-/
namespace HostRoster.Report

def shownHistory : Nat := 5

def stateRow (key : String) (h : HostState) : List String :=
  [key, h.record.name.getD "-", h.record.zone, h.updatedAt.shortText]

/-- A run of the history, with a mark for how it ended. -/
def historyLine (e : HistoryEntry) : String :=
  "     " ++ (if e.success then Level.success else Level.error).mark ++ " " ++
    e.timestamp.shortText ++ " - " ++ e.operation.label ++ " (" ++ ", ".intercalate e.hosts ++ ")"

def stateText (s : ClusterState) : String :=
  lines ["", "State: " ++ s.clusterId ++ " (" ++ s.clusterName ++ "/" ++ s.environment ++ ")", "",
    "   Version: " ++ s.version,
    "   Config hash: " ++ Fingerprint.short s.configHash,
    "   Phase: " ++ s.phase.label,
    "   Last updated: " ++ s.lastUpdated.display] ++
  (if s.hosts.isEmpty then ""
    else lines ["", Table.render (["Key", "Name", "Zone", "Updated"] ::
      s.hosts.entries.map fun e => stateRow e.1 e.2)]) ++
  if s.history.isEmpty then ""
  else lines (["", "   Recent history (" ++ toString s.history.length ++ "):"] ++
    (s.history.reverse.take shownHistory).map historyLine)

def state (format : Format) (s : ClusterState) : String :=
  match format with
  | .text => stateText s
  | .json => s.document

end HostRoster.Report
