import HostRoster.Bucket
import HostRoster.Error

/-!
# Tying keys to hosts

Right after a bulk create the only link between a key and a host is the class
they share, so hosts take keys from the buckets of their class. Once names are
recorded, a key and a host belong together when their names agree. A listed host
that no key names is an orphan; an orphan may still be adopted by a key that has
never had a name.
-/
namespace HostRoster

/-- Gives every host of a list a key of its class, and keeps the hosts under their keys. -/
def assignKeys (b : Buckets) (mapped : HostMap) : List HostRecord → Except ReconcileError HostMap
  | [] => .ok mapped
  | r :: rest =>
    match b.take r.hostClass with
    | none => .error (.unmappable (r.name.getD "<unnamed>") r.hostClass)
    | some (key, b) =>
      match r.name with
      | none => .error (.missingName key)
      | some _ => assignKeys b (mapped.insert key r) rest

/-- Ties the hosts of a create call to the keys they were asked for. -/
def correlateCreated (b : Buckets) (actual : List HostRecord) : Except ReconcileError HostMap :=
  if actual.length = b.size then assignKeys b ∅ actual
  else .error (.countMismatch b.size actual.length)

/-- A listed host, with its key if it has one. -/
inductive CorrelatedHost where
  | matched (key : String) (record : HostRecord)
  | orphaned (record : HostRecord)
deriving DecidableEq, Repr

namespace CorrelatedHost

def key? : CorrelatedHost → Option String
  | matched key _ => some key
  | orphaned _ => none

def orphan? : CorrelatedHost → Option HostRecord
  | matched _ _ => none
  | orphaned record => some record

def match? : CorrelatedHost → Option (String × HostRecord)
  | matched key record => some (key, record)
  | orphaned _ => none

end CorrelatedHost

/-- How the keys of a map and the hosts of a listing belong together. -/
structure Correlation where
  /-- Every named host of the listing, once. -/
  hosts : List CorrelatedHost
  /-- The keys with no host, in key order. -/
  pending : List String
  /-- The keys that took over an orphan, in the order they did. -/
  adopted : List String
deriving DecidableEq, Repr

namespace Correlation

def matched (c : Correlation) : HostMap := .ofList (c.hosts.filterMap CorrelatedHost.match?)

def matchedCount (c : Correlation) : Nat := (c.hosts.filterMap CorrelatedHost.key?).length

def orphans (c : Correlation) : List HostRecord := c.hosts.filterMap CorrelatedHost.orphan?

def orphanNames (c : Correlation) : List String := c.orphans.filterMap HostRecord.name

end Correlation

/-- The named hosts of a listing by name; of two with one name the later counts. -/
def byName (listed : List HostRecord) : KeyMap String HostRecord :=
  .ofList (listed.filterMap fun r => r.name.map (·, r))

/-- Walks the keys of a map in order: each takes the host of its name, or stays pending.
What is left of the hosts are the orphans, in name order. -/
def matchNames (named : KeyMap String HostRecord) :
    List (String × HostRecord) → List CorrelatedHost × List String
  | [] => (named.values.map .orphaned, [])
  | (key, wanted) :: rest =>
    match wanted.name.bind fun n => (named.get? n).map (n, ·) with
    | some (n, record) =>
      let (hosts, pending) := matchNames (named.erase n) rest
      (.matched key record :: hosts, pending)
    | none =>
      let (hosts, pending) := matchNames named rest
      (hosts, key :: pending)

/-- Ties keys to listed hosts by their names. -/
def correlateByName (desired : HostMap) (listed : List HostRecord) : Correlation :=
  let (hosts, pending) := matchNames (byName listed) desired.entries
  ⟨hosts, pending, []⟩

/-- The buckets of the pending keys that have no name. -/
def unnamedBuckets (pending : List String) (desired : HostMap) : Buckets :=
  pending.foldl (fun b key =>
    match desired.get? key with
    | some wanted => if wanted.name.isNone then b.push wanted.hostClass key else b
    | none => b) .empty

/-- Walks orphans in order: each takes a key of its class unless its name is retired.
Gives the hosts as they then stand and the keys taken. -/
def adoptEach (retired : List String) :
    Buckets → List HostRecord → List CorrelatedHost × List String
  | _, [] => ([], [])
  | b, r :: rest =>
    let slot := if r.name.any retired.contains then none else b.take r.hostClass
    match slot with
    | some (key, b) =>
      let (hosts, keys) := adoptEach retired b rest
      (.matched key r :: hosts, key :: keys)
    | none =>
      let (hosts, keys) := adoptEach retired b rest
      (.orphaned r :: hosts, keys)

/-- Gives orphans to pending keys of their class. Keys that have had a name and hosts
whose names are retired take no part. -/
def Correlation.adoptOrphans (c : Correlation) (desired : HostMap) (retired : List String) :
    Correlation :=
  let buckets := unnamedBuckets c.pending desired
  if buckets.isEmpty then c
  else
    let orphans := c.orphans.mergeSort fun a b => (compare a.name b.name).isLE
    let (hosts, keys) := adoptEach retired buckets orphans
    { hosts := c.hosts.filter (·.key?.isSome) ++ hosts
      pending := c.pending.filter (!keys.contains ·)
      adopted := c.adopted ++ keys }

end HostRoster
