import HostRoster.Error
import HostRoster.Instant
import HostRoster.Reconciliation

/-!
# Recorded state

The record of a cluster is the only link between keys and the names that hosts were
given, so every run starts from it. It also keeps how far the cluster has come and
the latest runs, whether they succeeded or not.
-/
namespace HostRoster

structure HostState where
  record : HostRecord
  /-- When the key began to be recorded without a break. -/
  createdAt : Instant
  /-- When the record last changed. -/
  updatedAt : Instant
deriving DecidableEq, Repr

inductive RunKind where
  | create
  | reconcile
  | destroy
deriving DecidableEq, Repr

namespace RunKind

def label : RunKind → String
  | create => "create"
  | reconcile => "reconcile"
  | destroy => "destroy"

def ofLabel? (text : String) : Option RunKind :=
  [create, reconcile, destroy].find? fun k => k.label == text

end RunKind

/-- A run as the history keeps it. -/
structure HistoryEntry where
  timestamp : Instant
  operation : RunKind
  configHash : String
  /-- The keys the run was about. -/
  hosts : List String
  success : Bool
  error : Option String
deriving DecidableEq, Repr

namespace HistoryEntry

def succeeded (now : Instant) (operation : RunKind) (hash : String) (hosts : List String) :
    HistoryEntry :=
  ⟨now, operation, hash, hosts, true, none⟩

def failed (now : Instant) (operation : RunKind) (hash : String) (hosts : List String)
    (error : String) : HistoryEntry :=
  ⟨now, operation, hash, hosts, false, some error⟩

end HistoryEntry

structure ClusterState where
  version : String
  clusterId : String
  clusterName : String
  environment : String
  /-- Hash of the declaration that was applied last. -/
  configHash : String
  phase : Phase
  hosts : KeyMap String HostState
  lastUpdated : Instant
  /-- The latest runs, oldest first. -/
  history : List HistoryEntry
deriving DecidableEq

namespace ClusterState

def currentVersion : String := "1.0"

/-- How many runs the history keeps. -/
def historyLimit : Nat := 100

/-- The record of a cluster about which nothing is known yet. -/
def new (now : Instant) (clusterId clusterName environment : String) : ClusterState where
  version := currentVersion
  clusterId := clusterId
  clusterName := clusterName
  environment := environment
  configHash := ""
  phase := .planned
  hosts := ∅
  lastUpdated := now
  history := []

/-- The recorded hosts without their times. -/
def hostMap (s : ClusterState) : HostMap := s.hosts.map fun _ h => h.record

/-- The state of a host that is recorded now: a key that was recorded before keeps the time
it was created, and with an equal record also the time of its last change. -/
def updateHost (now : Instant) (old : Option HostState) (record : HostRecord) : HostState :=
  match old with
  | none => ⟨record, now, now⟩
  | some h => if h.record = record then h else { h with record, updatedAt := now }

/-- Records the hosts of a map, and no others. -/
def setHosts (s : ClusterState) (now : Instant) (hosts : HostMap) : ClusterState :=
  { s with
    hosts := hosts.map fun key record => updateHost now (s.hosts.get? key) record
    lastUpdated := now }

def setPhase (s : ClusterState) (now : Instant) (phase : Phase) : ClusterState :=
  { s with phase, lastUpdated := now }

/-- Adds a run to the history; when it is full the oldest run is dropped. -/
def addHistory (s : ClusterState) (entry : HistoryEntry) : ClusterState :=
  let kept := if s.history.length < historyLimit then s.history else s.history.tail
  { s with history := kept ++ [entry] }

/-- Refuses a record of another cluster. -/
def ensureCluster (s : ClusterState) (clusterId : String) : Except StateError Unit :=
  if s.clusterId = clusterId then .ok () else .error (.clusterMismatch clusterId s.clusterId)

end ClusterState

end HostRoster
