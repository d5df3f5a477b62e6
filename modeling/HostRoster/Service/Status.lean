import HostRoster.Service.Wire

/-!
# Status of a cluster

What the service reports about the hosts of a cluster, tied to the keys under
which the hosts are recorded.
-/
namespace HostRoster

/-- A listed host with the key it is recorded under, if any. -/
structure ObservedHost where
  host : ListedHost
  key : Option String
deriving DecidableEq, Repr

def ObservedHost.isManaged (h : ObservedHost) : Bool := h.key.isSome

/-- The hosts of a cluster and the recorded keys that no listed host carries. -/
structure ClusterStatus where
  clusterId : String
  hosts : List ObservedHost
  missingKeys : List String
deriving DecidableEq, Repr

/-- The key a name is recorded under; of two the later in key order. -/
def keyOfName (known : HostMap) (name : String) : Option String :=
  (known.entries.reverse.find? fun e => e.2.name == some name).map (·.1)

/-- Sums up a listing against the recorded hosts. -/
def summarize (clusterId : String) (listed : List ListedHost) (known : HostMap) :
    ClusterStatus where
  clusterId := clusterId
  hosts := listed.map fun h => ⟨h, keyOfName known h.name⟩
  missingKeys := (known.entries.filter fun e =>
    !(e.2.name.any fun n => listed.any (·.name == n))).map (·.1)

namespace ClusterStatus

def totalHosts (s : ClusterStatus) : Nat := s.hosts.length

def count (s : ClusterStatus) (health : HostHealth) : Nat :=
  s.hosts.countP fun h => h.host.health == health

/-- Every listed host is alive, there is one, and every recorded key has its host. -/
def isHealthy (s : ClusterStatus) : Bool :=
  s.totalHosts > 0 && s.count .alive == s.totalHosts && s.missingKeys.isEmpty

/-- The first host reported as the master. -/
def master (s : ClusterStatus) : Option ObservedHost :=
  s.hosts.find? fun h => h.host.role == .master

end ClusterStatus

end HostRoster
