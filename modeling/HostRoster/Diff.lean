import HostRoster.Correlation

/-!
# Differences between desired and actual hosts

A desired key without a host is to be created. A host of a desired key may differ
from it in the public-IP flag and the replication source, which change in place;
another zone, or another subnet than a declared one, cannot be repaired in place
and is an error. A host without a desired key is to be deleted.
-/
namespace HostRoster

/-- What it takes to bring the actual hosts to the desired ones. -/
structure HostDiff where
  toCreate : Declaration := ∅
  toUpdate : List HostUpdate := []
  /-- Names of the hosts to delete. -/
  toDelete : List String := []
  unchanged : List String := []
deriving DecidableEq

namespace HostDiff

def hasChanges (d : HostDiff) : Bool :=
  !d.toCreate.isEmpty || !d.toUpdate.isEmpty || !d.toDelete.isEmpty

def totalChanges (d : HostDiff) : Nat :=
  d.toCreate.size + d.toUpdate.length + d.toDelete.length

def summary (d : HostDiff) : String :=
  toString d.toCreate.size ++ " to create, " ++ toString d.toUpdate.length ++ " to update, " ++
    toString d.toDelete.length ++ " to delete, " ++ toString d.unchanged.length ++ " unchanged"

end HostDiff

/-- The fields that differ and can change in place. -/
def changedFields (wanted current : HostSpec) : List HostField :=
  (if wanted.assignPublicIp ≠ current.assignPublicIp then [.assignPublicIp] else []) ++
    (if wanted.replicationSource ≠ current.replicationSource then [.replicationSource] else [])

/-- The first difference in placement: the zone, then a declared subnet. -/
def placementChange (wanted current : HostSpec) : Option (HostField × String × String) :=
  if wanted.zone ≠ current.zone then some (.zone, wanted.zone, current.zone)
  else
    match wanted.subnetId with
    | none => none
    | some subnet =>
      if current.subnetId = some subnet then none
      else some (.subnetId, subnet, current.subnetId.getD "<none>")

/-- What a desired host asks of the actual host under its key. -/
inductive Verdict where
  | create
  | update (u : HostUpdate)
  | keep

/-- Compares a desired host with the actual host under its key, if there is one. -/
def judge (key : String) (wanted : HostRecord) (current : Option HostRecord) :
    Except ReconcileError Verdict :=
  match current with
  | none => .ok .create
  | some current =>
    match current.name with
    | none => .error (.missingName key)
    | some name =>
      match placementChange wanted.toHostSpec current.toHostSpec with
      | some (field, desired, actual) =>
        .error (.placementChanged key name field desired actual)
      | none =>
        let changed := changedFields wanted.toHostSpec current.toHostSpec
        if changed.isEmpty then .ok .keep
        else .ok (.update
          ⟨key, name, wanted.assignPublicIp, wanted.replicationSource, changed⟩)

/-- Compares the desired hosts, in key order, with the actual ones. -/
def judgeAll (actual : HostMap) : List (String × HostRecord) → Except ReconcileError HostDiff
  | [] => .ok {}
  | (key, wanted) :: rest => do
    let verdict ← judge key wanted (actual.get? key)
    let d ← judgeAll actual rest
    match verdict with
    | .create => return { d with toCreate := d.toCreate.insert key wanted.toHostSpec }
    | .update u => return { d with toUpdate := u :: d.toUpdate }
    | .keep => return { d with unchanged := key :: d.unchanged }

/-- The names of the actual hosts under keys that are not desired, in key order. -/
def surplusNames (desired : HostMap) : List (String × HostRecord) →
    Except ReconcileError (List String)
  | [] => .ok []
  | (key, current) :: rest =>
    if desired.contains key then surplusNames desired rest
    else
      match current.name with
      | none => .error (.missingName key)
      | some name => (surplusNames desired rest).map (name :: ·)

def computeDiff (desired actual : HostMap) : Except ReconcileError HostDiff := do
  let d ← judgeAll actual desired.entries
  return { d with toDelete := ← surplusNames desired actual.entries }

/-- The difference against a correlation: matched hosts are compared, orphans deleted. -/
def diffCorrelation (desired : HostMap) (c : Correlation) : Except ReconcileError HostDiff := do
  let d ← computeDiff desired c.matched
  return { d with toDelete := d.toDelete ++ c.orphanNames }

end HostRoster
