import HostRoster.Execution
import HostRoster.Program.Limit

/-!
# Reconciliation

A run brings the hosts of a cluster to their declaration. Names recorded by the
previous run are carried over to the keys that are still declared. The cluster is
listed anew each time, since what it lists is what there is.
-/
namespace HostRoster

/-- How far the hosts of a cluster have come. -/
inductive Phase where
  | planned
  | creating
  | correlating
  | stable
  | updating
  | deleting
  | gone
deriving DecidableEq, Repr

namespace Phase

def label : Phase → String
  | planned => "planned"
  | creating => "creating"
  | correlating => "correlating"
  | stable => "stable"
  | updating => "updating"
  | deleting => "deleting"
  | gone => "gone"

def all : List Phase := [planned, creating, correlating, stable, updating, deleting, gone]

def ofLabel? (text : String) : Option Phase := all.find? fun p => p.label == text

end Phase

/-- What a successful run reports. -/
structure Outcome where
  clusterId : String
  phase : Phase
  /-- The hosts by key, as listed after the run. -/
  hosts : HostMap
  created : Nat := 0
  updated : Nat := 0
  deleted : Nat := 0
  unchanged : Nat := 0
  /-- The keys that took over a host no key accounted for. -/
  adopted : List String := []
deriving DecidableEq

/-- How a cluster differs from its declaration. -/
structure DriftReport where
  clusterId : String
  hasDrift : Bool
  /-- Declared keys without a host. -/
  missing : List String
  /-- Hosts that differ in fields that can change in place. -/
  changed : List String
  /-- Names of hosts that no declared key accounts for. -/
  unmanaged : List String
  declaredCount : Nat
  observedCount : Nat
deriving DecidableEq, Repr

/-- What every plan of a run is checked against and marked with, and how long a run may take. -/
structure Reconciler where
  guardrails : Option Guardrails := none
  /-- In milliseconds. -/
  timeout : Option Nat := none
  configHash : String := ""

/-- The declared hosts with the names recorded for their keys. -/
def mergePriorNames (desired : Declaration) (prior : HostMap) : HostMap :=
  desired.map fun key spec => spec.named ((prior.get? key).bind HostRecord.name)

/-- The recorded names of keys that are no longer declared. -/
def retiredNames (desired : Declaration) (prior : HostMap) : List String :=
  (prior.entries.filter fun e => !desired.contains e.1).filterMap fun e => e.2.name

/-- Everything that is known before a run changes anything. -/
structure Prepared where
  correlation : Correlation
  diff : HostDiff
  plan : HostPlan
deriving DecidableEq

namespace Reconciler

/-- Correlates a listing with a declaration, compares them and plans the difference. -/
def prepare (r : Reconciler) (desired : Declaration) (prior : HostMap)
    (listed : List HostRecord) : Except ReconcileError Prepared := do
  let wanted := mergePriorNames desired prior
  let correlation := (correlateByName wanted listed).adoptOrphans wanted
    (retiredNames desired prior)
  let diff ← diffCorrelation wanted correlation
  return ⟨correlation, diff, .ofDiff diff listed.length r.guardrails r.configHash⟩

def prepareSession (r : Reconciler) (desired : Declaration) (prior : HostMap)
    (listed : List HostRecord) : Session Prepared :=
  match r.prepare desired prior listed with
  | .ok prepared => return prepared
  | .error e => throw (.reconcile e)

/-- Lists the cluster again and finds every mapped host in it by name. -/
def refresh (cluster : String) (hosts : HostMap) : Session HostMap := do
  let correlation := correlateByName hosts (← listHosts cluster)
  if correlation.pending.isEmpty then return correlation.matched
  else throw (.reconcile (.missingAfterApply correlation.pending))

/-- Creates every declared host on a cluster that has none. -/
def createAll (r : Reconciler) (cluster : String) (desired : Declaration) : Session Outcome := do
  let plan := HostPlan.ofDiff { toCreate := desired } 0 r.guardrails r.configHash
  match plan.ensureGuardrails with
  | .error e => throw (.plan e)
  | .ok _ =>
    let hosts ← if desired.isEmpty then pure ∅ else createHosts cluster desired
    return { clusterId := cluster, phase := .stable, hosts, created := hosts.size }

/-- Brings the hosts of a cluster to their declaration. -/
def reconcile (r : Reconciler) (cluster : String) (desired : Declaration) (prior : HostMap) :
    Session Outcome := do
  let listed ← listHosts cluster
  if prior.isEmpty && listed.isEmpty then r.createAll cluster desired
  else
    let ⟨correlation, diff, plan⟩ ← r.prepareSession desired prior listed
    let hosts := correlation.matched
    if plan.isEmpty then
      return { clusterId := cluster, phase := .stable, hosts, unchanged := hosts.size,
               adopted := correlation.adopted }
    else
      let execution ← ExceptT.lift (plan.execute cluster hosts)
      match execution.failure with
      | some e => throw e
      | none =>
        let hosts ← refresh cluster execution.hosts
        return { clusterId := cluster, phase := .stable, hosts, created := execution.created,
                 updated := execution.updated, deleted := execution.deleted,
                 unchanged := diff.unchanged.length, adopted := correlation.adopted }

/-- Creates every declared host, and refuses a cluster that lists any. -/
def create (r : Reconciler) (cluster : String) (desired : Declaration) : Session Outcome := do
  let listed ← listHosts cluster
  if listed.isEmpty then r.createAll cluster desired
  else throw (.reconcile (.aborted ("cluster " ++ cluster ++ " already has " ++
    toString listed.length ++ " host(s), reconcile it instead")))

/-- The plan for a declaration, without carrying it out. -/
def plan (r : Reconciler) (cluster : String) (desired : Declaration) (prior : HostMap) :
    Session HostPlan := do
  let listed ← listHosts cluster
  return (← r.prepareSession desired prior listed).plan

def checkDrift (r : Reconciler) (cluster : String) (desired : Declaration) (prior : HostMap) :
    Session DriftReport := do
  let listed ← listHosts cluster
  let prepared ← r.prepareSession desired prior listed
  return {
    clusterId := cluster
    hasDrift := prepared.diff.hasChanges
    missing := prepared.diff.toCreate.keys
    changed := prepared.diff.toUpdate.map HostUpdate.summary
    unmanaged := prepared.correlation.orphanNames
    declaredCount := desired.size
    observedCount := listed.length }

/-- Deletes every host the cluster lists. -/
def destroy (r : Reconciler) (cluster : String) (prior : HostMap) : Session Outcome := do
  let listed ← listHosts cluster
  let names := listed.filterMap HostRecord.name
  if r.guardrails.any (·.deletionProtection) && !names.isEmpty then
    throw (.plan (.deletionProtected names.length))
  else
    let hosts := (correlateByName prior listed).matched
    let plan := HostPlan.ofDiff { toDelete := names } hosts.size none r.configHash
    let execution ← ExceptT.lift (plan.execute cluster hosts)
    match execution.failure with
    | some e => throw e
    | none =>
      return { clusterId := cluster, phase := .gone, hosts := execution.hosts,
               deleted := execution.deleted }

end Reconciler

/-- The most milliseconds that an error can tell of. -/
def maxMilliseconds : Nat := 0xffffffffffffffff

/-- The result of a session that a deadline may have cut off. -/
def withinDeadline {α : Type} (limit : Option Nat) (value : Option (Except SyncError α)) :
    Except SyncError α :=
  value.getD (.error (.reconcile (.deadlineExceeded (min (limit.getD 0) maxMilliseconds))))

/-- What a reconciler can be asked to do. -/
inductive Undertaking where
  | reconcile (desired : Declaration) (prior : HostMap)
  | create (desired : Declaration)
  | plan (desired : Declaration) (prior : HostMap)
  | checkDrift (desired : Declaration) (prior : HostMap)
  | destroy (prior : HostMap)

namespace Undertaking

/-- What is reported if it succeeds. -/
def Report : Undertaking → Type
  | reconcile _ _ => Outcome
  | create _ => Outcome
  | plan _ _ => HostPlan
  | checkDrift _ _ => DriftReport
  | destroy _ => Outcome

def session (r : Reconciler) (cluster : String) : (u : Undertaking) → Session u.Report
  | reconcile desired prior => r.reconcile cluster desired prior
  | create desired => r.create cluster desired
  | plan desired prior => r.plan cluster desired prior
  | checkDrift desired prior => r.checkDrift cluster desired prior
  | destroy prior => r.destroy cluster prior

end Undertaking

/-- Carries out an undertaking for as long as the reconciler may take. The calls on the cluster are
made by way of an interface. -/
def Reconciler.carryOut {I : Interface} (r : Reconciler) (cluster : String) (u : Undertaking)
    (api : (call : Call) → Program I (Except SyncError call.Answer)) :
    Program I.limited (Except SyncError u.Report) := do
  return withinDeadline r.timeout
    (← ((u.session r cluster).run.interpret api).within r.timeout)

end HostRoster
