import HostRoster.Store

/-!
# Errands

An errand is a run on a cluster together with its record: under the lock, the record
is loaded, the cluster is changed, and what came of it is saved. Who stores the
record and who changes the cluster is left open.
-/
namespace HostRoster

inductive ErrandCall where
  | store (call : StoreCall)
  /-- Brings the cluster to its declaration, given the recorded hosts. -/
  | reconcile (prior : HostMap)
  /-- Deletes all hosts of the cluster, given the recorded hosts. -/
  | destroy (prior : HostMap)
  | now

def ErrandCall.Answer : ErrandCall → Type
  | store call => Except StateError call.Answer
  | reconcile _ => Except SyncError Outcome
  | destroy _ => Except SyncError Outcome
  | now => Instant

def Errands : Interface where
  Request := ErrandCall
  Reply := ErrandCall.Answer

/-- What an errand is about. -/
structure Target where
  cluster : String
  name : String
  environment : String
  /-- Hash of the declaration. -/
  configHash : String
  declaredKeys : List String
deriving DecidableEq, Repr

namespace Errand

def ask (call : ErrandCall) : Program Errands call.Answer := Program.request (I := Errands) call

def perform (call : StoreCall) : Program Errands (Except StateError call.Answer) :=
  ask (.store call)

/-- The kind of a run that brings a cluster to its declaration. -/
def kindOf (prior : HostMap) : RunKind := if prior.isEmpty then .create else .reconcile

/-- A state once a run has succeeded. -/
def succeeded (target : Target) (state : ClusterState) (now : Instant) (kind : RunKind)
    (outcome : Outcome) : ClusterState :=
  let state := (state.setHosts now outcome.hosts).setPhase now outcome.phase
  { state with configHash := target.configHash }.addHistory
    (.succeeded now kind target.configHash outcome.hosts.keys)

/-- A state once a run has failed: it only remembers that it did. -/
def failed (target : Target) (state : ClusterState) (now : Instant) (kind : RunKind)
    (error : SyncError) : ClusterState :=
  state.addHistory (.failed now kind target.configHash target.declaredKeys error.message)

/-- The recorded state of the cluster, or a new one if nothing is recorded. -/
def loadState (target : Target) : Program Errands (Except SyncError ClusterState) := do
  match ← perform .load with
  | .error e => return .error (.state e)
  | .ok (some state) =>
    let state : ClusterState := state
    return ((state.ensureCluster target.cluster).map fun _ => state).mapError .state
  | .ok none =>
    return .ok (.new (← ask .now) target.cluster target.name target.environment)

/-- Saves what came of a run. A success that cannot be saved is an error; a failure is what the
errand gives, saved or not. -/
def record (target : Target) (state : ClusterState) (kind : RunKind)
    (outcome : Except SyncError Outcome) : Program Errands (Except SyncError Outcome) := do
  let now : Instant ← ask .now
  match outcome with
  | .ok result =>
    match ← perform (.save (succeeded target state now kind result)) with
    | .ok _ => return .ok result
    | .error e => return .error (.state e)
  | .error e =>
    let _ ← perform (.save (failed target state now kind e))
    return .error e

/-- Loads the record, makes a run from the recorded hosts, and saves what came of it. -/
def recorded (target : Target) (kind : HostMap → RunKind)
    (run : HostMap → Program Errands (Except SyncError Outcome)) :
    Program Errands (Except SyncError Outcome) := do
  match ← loadState target with
  | .error e => return .error e
  | .ok state =>
    let prior := state.hostMap
    record target state (kind prior) (← run prior)

def apply (target : Target) (holder : String) : Program Errands (Except SyncError Outcome) :=
  withLock perform holder (recorded target kindOf fun prior => ask (.reconcile prior))

def destroy (target : Target) (holder : String) : Program Errands (Except SyncError Outcome) :=
  withLock perform holder (recorded target (fun _ => .destroy) fun prior => ask (.destroy prior))

end Errand

end HostRoster
