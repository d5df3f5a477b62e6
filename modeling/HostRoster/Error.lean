import HostRoster.Host

/-!
# Errors

One type for everything that can go wrong, by area. The wording of an error is
given by `message`; whether a later attempt may succeed, and how long to wait
before it, are read off the error itself.
-/
namespace HostRoster

inductive ConfigError where
  | notFound (path : String)
  | malformed (message : String) (location : Option String)
  | invalid (message : String) (field : Option String)
  | missingVariable (name : String)
deriving DecidableEq, Repr

inductive StateError where
  | corrupted (message : String)
  | lockFailed (message : String)
  | lockedByOther (holder since : String)
  | fileStore (message : String)
  | objectStore (message : String)
  | serialization (message : String)
  | clusterMismatch (expected found : String)
deriving DecidableEq, Repr

inductive ApiError where
  | unauthenticated (message : String)
  | refused (status : Nat) (message : String)
  | rateLimited (retryAfterSecs : Nat)
  | clusterNotFound (clusterId : String)
  | network (message : String)
  | invalidResponse (message : String)
  | operationFailed (operationId : String) (code : Int) (message : String)
  | operationTimeout (operationId : String) (waitedSecs : Nat)
deriving DecidableEq, Repr

/-- A plan that may not be carried out. -/
inductive PlanError where
  | guardrails (violations : List String)
  | deletionProtected (hosts : Nat)
deriving DecidableEq, Repr

/-- A run whose outcome cannot be tied back to the declaration. -/
inductive ReconcileError where
  | countMismatch (requested returned : Nat)
  | unmappable (name : String) (hostClass : HostClass)
  | placementChanged (key name : String) (field : HostField) (desired actual : String)
  | missingName (key : String)
  | missingAfterApply (keys : List String)
  | deadlineExceeded (timeoutMs : Nat)
  | aborted (reason : String)
deriving DecidableEq, Repr

inductive RemoteOperation where
  | list
  | create
  | update
  | delete
deriving DecidableEq, Repr

inductive SyncError where
  | config (error : ConfigError)
  | state (error : StateError)
  | api (error : ApiError)
  | plan (error : PlanError)
  | reconcile (error : ReconcileError)
  /-- A call on the cluster failed; the target names the hosts or the cluster. -/
  | remote (operation : RemoteOperation) (target : String) (source : SyncError)
  | io (message : String)
  | internal (message : String)
deriving DecidableEq, Repr

def ConfigError.message : ConfigError → String
  | notFound path => "Configuration file not found: " ++ path
  | malformed message _ => "Failed to parse configuration: " ++ message
  | invalid message _ => "Configuration validation failed: " ++ message
  | missingVariable name => "Missing environment variable: " ++ name

def StateError.message : StateError → String
  | corrupted message => "State is corrupted: " ++ message
  | lockFailed message => "Failed to acquire state lock: " ++ message
  | lockedByOther holder since =>
    "State is locked by another process (lock holder: " ++ holder ++ ", since: " ++ since ++ ")"
  | fileStore message => "Local state backend error: " ++ message
  | objectStore message => "S3 state backend error: " ++ message
  | serialization message => "State serialization error: " ++ message
  | clusterMismatch expected found =>
    "State belongs to cluster " ++ found ++ ", configuration targets " ++ expected

def ApiError.message : ApiError → String
  | unauthenticated message => "API authentication failed: " ++ message
  | refused status message => "API request failed: " ++ toString status ++ " - " ++ message
  | rateLimited secs => "API rate limited, retry after " ++ toString secs ++ " seconds"
  | clusterNotFound id => "Cluster not found: " ++ id
  | network message => "Network error communicating with the API: " ++ message
  | invalidResponse message => "Invalid response from API: " ++ message
  | operationFailed id code message =>
    "Operation " ++ id ++ " failed with code " ++ toString code ++ ": " ++ message
  | operationTimeout id secs =>
    "Timeout waiting for operation " ++ id ++ " after " ++ toString secs ++ " seconds"

def PlanError.message : PlanError → String
  | guardrails violations => "Plan violates guardrails: " ++ "; ".intercalate violations
  | deletionProtected hosts =>
    "Deletion protection is enabled, refusing to delete " ++ toString hosts ++ " host(s)"

def ReconcileError.message : ReconcileError → String
  | countMismatch requested returned =>
    "Host count mismatch: requested " ++ toString requested ++ " host(s), remote returned " ++
      toString returned
  | unmappable name c =>
    "Unmappable host " ++ name ++ ": no desired host left for zone=" ++ c.zone ++ ", subnet=" ++
      c.subnetId.getD "<any>" ++ ", assign_public_ip=" ++ toString c.assignPublicIp
  | placementChanged key name field desired actual =>
    "Host '" ++ key ++ "' (" ++ name ++ ") requires replacement: " ++ field.label ++
      " changed from '" ++ actual ++ "' to '" ++ desired ++ "'"
  | missingName key =>
    "Host '" ++ key ++ "' has no assigned name but was expected to exist remotely"
  | missingAfterApply keys => "Hosts missing after apply: " ++ ", ".intercalate keys
  | deadlineExceeded ms => "Reconciliation exceeded its deadline of " ++ toString ms ++ " ms"
  | aborted reason => "Reconciliation aborted: " ++ reason

namespace RemoteOperation

def label : RemoteOperation → String
  | list => "list"
  | create => "create"
  | update => "update"
  | delete => "delete"

def ofLabel? (text : String) : Option RemoteOperation :=
  [list, create, update, delete].find? fun o => o.label == text

end RemoteOperation

namespace SyncError

def message : SyncError → String
  | config e => "Configuration error: " ++ e.message
  | state e => "State error: " ++ e.message
  | api e => "Database API error: " ++ e.message
  | plan e => "Planning error: " ++ e.message
  | reconcile e => "Reconciliation error: " ++ e.message
  | remote operation target source =>
    "Reconciliation error: " ++ operation.label ++ " failed for " ++ target ++ ": " ++
      source.message
  | io message => "IO error: " ++ message
  | internal message => "Internal error: " ++ message

/-- How many seconds to wait before trying again, if trying again can help. -/
def retryDelaySecs : SyncError → Option Nat
  | api (.rateLimited secs) => some secs
  | api (.network _) => some 5
  | state (.lockFailed _) => some 2
  | _ => none

/-- Whether the same request may succeed later. -/
def isRetryable (e : SyncError) : Bool := e.retryDelaySecs.isSome

end SyncError

end HostRoster
