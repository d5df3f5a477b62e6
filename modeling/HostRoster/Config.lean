import HostRoster.Guardrails
import HostRoster.Host

/-!
# Configuration

What a user declares: the cluster, how its service is reached, where the state is
kept, the hosts by key, and the limits that every plan has to keep.
-/
namespace HostRoster

structure ClusterIdentity where
  id : String
  name : String
  environment : String := "dev"
deriving DecidableEq, Repr

/-- How the database service is reached. Times are in seconds. -/
structure ApiSettings where
  endpoint : String := "https://mdb.api.cloud.yandex.net"
  /-- The endpoint of the operation service, if it is another one. -/
  operationEndpoint : Option String := none
  service : String := "managed-postgresql"
  timeout : Nat := 30
  pollInterval : Nat := 2
  operationTimeout : Nat := 1800
  pageSize : Nat := 100
deriving DecidableEq, Repr

inductive StateBackend where
  | files
  | s3
deriving DecidableEq, Repr

namespace StateBackend

def label : StateBackend → String
  | files => "local"
  | s3 => "s3"

def ofLabel? (text : String) : Option StateBackend :=
  [files, s3].find? fun b => b.label == text

end StateBackend

/-- Where the state is kept. -/
structure StateSettings where
  backend : StateBackend := .files
  bucket : Option String := none
  keyPrefix : Option String := none
  region : Option String := none
  path : Option String := none
deriving DecidableEq, Repr

structure Config where
  cluster : ClusterIdentity
  api : ApiSettings := {}
  state : StateSettings := {}
  hosts : Declaration := ∅
  guardrails : Option Guardrails := none
  /-- Seconds that one run may take. -/
  reconcileTimeout : Option Nat := none
deriving DecidableEq

namespace Config

/-- The name of the cluster together with its environment. -/
def qualifiedName (c : Config) : String := c.cluster.name ++ "-" ++ c.cluster.environment

def guardrailsOrNone (c : Config) : Guardrails := c.guardrails.getD {}

/-- The variables whose values count more than those of the file. -/
def overrideNames : List String :=
  ["HOSTSYNC_CLUSTER_ID", "HOSTSYNC_API_ENDPOINT", "HOSTSYNC_STATE_BUCKET",
    "HOSTSYNC_STATE_PREFIX"]

/-- Puts values of the environment in place of those of the file. -/
def applyOverrides (c : Config) (lookup : String → Option String) : Config where
  cluster := { c.cluster with
    id := (lookup "HOSTSYNC_CLUSTER_ID").getD c.cluster.id }
  api := { c.api with
    endpoint := (lookup "HOSTSYNC_API_ENDPOINT").getD c.api.endpoint }
  state := { c.state with
    bucket := (lookup "HOSTSYNC_STATE_BUCKET").or c.state.bucket
    keyPrefix := (lookup "HOSTSYNC_STATE_PREFIX").or c.state.keyPrefix }
  hosts := c.hosts
  guardrails := c.guardrails
  reconcileTimeout := c.reconcileTimeout

end Config

end HostRoster
