import HostRoster.Plan
import HostRoster.Remote

/-!
# Carrying out a plan

Calls are made one at a time: the bulk create and the listing that shows its
hosts, then each update, then each delete. The first failure ends the run. Nothing
is undone, and the host map takes in every call that was completed before.
-/
namespace HostRoster

/-- An action that was carried out. -/
inductive Completed where
  | created (key : String) (record : HostRecord)
  | updated (change : HostUpdate)
  /-- The key is the one the host was mapped under, if it was. -/
  | deleted (name : String) (key : Option String)
deriving DecidableEq, Repr

namespace Completed

def word : Completed → String
  | created .. => "create"
  | updated _ => "update"
  | deleted .. => "delete"

def key? : Completed → Option String
  | created key _ => some key
  | updated u => some u.key
  | deleted _ key => key

def hostName : Completed → Option String
  | created _ record => record.assignedName
  | updated u => some u.name
  | deleted name _ => some name

def isCreated : Completed → Bool
  | created .. => true
  | _ => false

def isUpdated : Completed → Bool
  | updated _ => true
  | _ => false

def isDeleted : Completed → Bool
  | deleted .. => true
  | _ => false

end Completed

/-- How far the execution of a plan has come. -/
structure Execution where
  hosts : HostMap
  completed : List Completed := []
  /-- What ended the execution early. -/
  failure : Option SyncError := none
deriving DecidableEq

namespace Execution

def created (e : Execution) : Nat := e.completed.countP Completed.isCreated
def updated (e : Execution) : Nat := e.completed.countP Completed.isUpdated
def deleted (e : Execution) : Nat := e.completed.countP Completed.isDeleted

def summary (e : Execution) : String :=
  "Execution complete: " ++ toString e.created ++ " created, " ++ toString e.updated ++
    " updated, " ++ toString e.deleted ++ " deleted"

def recordCreated (e : Execution) (mapped : HostMap) : Execution :=
  { e with
    hosts := mapped.entries.foldl (fun hosts h => hosts.insert h.1 h.2) e.hosts
    completed := e.completed ++ mapped.entries.map fun h => .created h.1 h.2 }

/-- Takes in an update; a key that is not mapped stays so. -/
def recordUpdated (e : Execution) (u : HostUpdate) : Execution :=
  { e with
    hosts := e.hosts.map fun key r => if key = u.key then r.applyUpdate u else r
    completed := e.completed ++ [.updated u] }

/-- Takes in a delete: the first key that carries the name is dropped. -/
def recordDeleted (e : Execution) (name : String) : Execution :=
  let key := (e.hosts.entries.find? fun h => h.2.name == some name).map (·.1)
  { e with
    hosts := key.elim e.hosts e.hosts.erase
    completed := e.completed ++ [.deleted name key] }

end Execution

/-- Asks for all hosts of a declaration in one call and gives the names they got. -/
def submitCreates (cluster : String) (creates : Declaration) : Session (List String) :=
  ExceptT.mk do
    match ← Program.request (I := Remote) (.create cluster creates.values) with
    | .error e => return .error (.remote .create (", ".intercalate creates.keys) e)
    | .ok names =>
      let names : List String := names
      if names.length = creates.size then return .ok names
      else return .error (.reconcile (.countMismatch creates.size names.length))

/-- Lists the cluster and ties the hosts of given names to the keys they were created for. -/
def correlateSubmitted (cluster : String) (creates : Declaration) (names : List String) :
    Session HostMap := do
  let listed ← listHosts cluster
  let fresh := listed.filter fun r => r.name.any names.contains
  match correlateCreated (.ofDeclaration creates) fresh with
  | .ok mapped => return mapped
  | .error e => throw (.reconcile e)

/-- Creates the hosts of a declaration and ties them to their keys. -/
def createHosts (cluster : String) (creates : Declaration) : Session HostMap :=
  submitCreates cluster creates >>= correlateSubmitted cluster creates

def runUpdates (cluster : String) : List HostUpdate → Execution → Program Remote Execution
  | [], e => return e
  | u :: rest, e => do
    match ← Program.request (I := Remote) (.update cluster u) with
    | .error err => return { e with failure := some (.remote .update u.name err) }
    | .ok _ => runUpdates cluster rest (e.recordUpdated u)

def runDeletes (cluster : String) : List String → Execution → Program Remote Execution
  | [], e => return e
  | name :: rest, e => do
    match ← Program.request (I := Remote) (.delete cluster name) with
    | .error err => return { e with failure := some (.remote .delete name err) }
    | .ok _ => runDeletes cluster rest (e.recordDeleted name)

def runCreates (cluster : String) (creates : Declaration) (e : Execution) :
    Program Remote Execution :=
  if creates.isEmpty then return e
  else do
    match ← (createHosts cluster creates).run with
    | .error err => return { e with failure := some err }
    | .ok mapped => return e.recordCreated mapped

/-- Goes on unless a failure has ended the execution. -/
def Execution.andThen (e : Execution) (next : Execution → Program Remote Execution) :
    Program Remote Execution :=
  if e.failure.isSome then return e else next e

/-- Carries out a plan on a host map. A plan that breaks a guardrail makes no call. -/
def HostPlan.execute (p : HostPlan) (cluster : String) (hosts : HostMap) :
    Program Remote Execution :=
  match p.ensureGuardrails with
  | .error e => return { hosts, failure := some (.plan e) }
  | .ok _ => do
    let e ← runCreates cluster (.ofList p.creates) { hosts }
    e.andThen fun e => do
      let e ← runUpdates cluster p.updates e
      e.andThen (runDeletes cluster p.deletes)

end HostRoster
