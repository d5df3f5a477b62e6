import HostRoster.Remote
import HostRoster.Program.Server

/-!
# A cluster in memory

A cluster that carries out calls on a list of hosts. It names new hosts by zone and
number, and may fill in a subnet by zone. For each kind of call a queue of effects
says how the next calls go wrong; a call with no effect queued goes well.
-/
namespace HostRoster

/-- The order in which a cluster lists its hosts. -/
inductive ListingOrder where
  | newestFirst
  | oldestFirst
  | byName
deriving DecidableEq, Repr

/-- How a call departs from its regular course. -/
structure Effect where
  delayMs : Nat := 0
  error : Option SyncError := none
  /-- Whether the error comes after the call has been carried out. -/
  errorAfter : Bool := false
  /-- Whether the cluster leaves out the call's work. -/
  skip : Bool := false
  /-- A listing to give in place of the true one. -/
  hosts : Option (List HostRecord) := none
  /-- Names to give in place of the true ones. -/
  names : Option (List String) := none

/-- A cluster and the effects queued for its next calls. -/
structure Cluster where
  hosts : List HostRecord := []
  nextId : Nat := 0
  order : ListingOrder := .newestFirst
  subnets : KeyMap String String := ∅
  listEffects : List Effect := []
  createEffects : List Effect := []
  updateEffects : List Effect := []
  deleteEffects : List Effect := []

namespace Cluster

/-- The hosts in listing order. -/
def listing (c : Cluster) : List HostRecord :=
  match c.order with
  | .newestFirst => c.hosts.reverse
  | .oldestFirst => c.hosts
  | .byName => c.hosts.mergeSort fun a b => (compare a.name b.name).isLE

/-- Adds a host of a spec under a fresh name. -/
def addHost (c : Cluster) (spec : HostSpec) : Cluster × String :=
  let n := c.nextId + 1
  let name := spec.zone ++ "-" ++ toString n ++ ".db.internal"
  let record : HostRecord :=
    { spec with subnetId := spec.subnetId.or (c.subnets.get? spec.zone), assignedName := some name }
  ({ c with hosts := c.hosts ++ [record], nextId := n }, name)

/-- Adds hosts one after the other; the names come latest first. -/
def addHosts (c : Cluster) : List HostSpec → List String → Cluster × List String
  | [], names => (c, names)
  | spec :: rest, names =>
    let (c, name) := c.addHost spec
    c.addHosts rest (name :: names)

def missingHost (name : String) : SyncError := .api (.refused 404 ("no host " ++ name))

/-- Applies an update to the first host of its name. -/
def updateFirst (u : HostUpdate) : List HostRecord → Option (List HostRecord)
  | [] => none
  | r :: rest =>
    if r.assignedName = some u.name then some (r.applyUpdate u :: rest)
    else (updateFirst u rest).map (r :: ·)

/-- The regular work of a call under an effect. -/
def perform (c : Cluster) (effect : Effect) :
    (call : Call) → Except SyncError call.Answer × Cluster
  | .list _ => (.ok (effect.hosts.getD c.listing), c)
  | .create _ specs =>
    let (c, names) := if effect.skip then (c, []) else c.addHosts specs []
    (.ok (effect.names.getD names), c)
  | .update _ u =>
    match updateFirst u c.hosts with
    | some hosts => (.ok (), { c with hosts })
    | none => (if effect.skip then .ok () else .error (missingHost u.name), c)
  | .delete _ name =>
    let rest := c.hosts.filter fun r => r.assignedName ≠ some name
    if effect.skip then (.ok (), c)
    else if rest.length = c.hosts.length then (.error (missingHost name), c)
    else (.ok (), { c with hosts := rest })

/-- A call under an effect: an early error leaves the work undone, a late one hides its answer. -/
def carryOut (c : Cluster) (effect : Effect) (call : Call) :
    Except SyncError call.Answer × Cluster :=
  match effect.error with
  | none => c.perform effect call
  | some e =>
    if effect.errorAfter then
      match c.perform effect call with
      | (.ok _, c) => (.error e, c)
      | (.error first, c) => (.error first, c)
    else (.error e, c)

/-- Takes the next effect of a queue. -/
def nextEffect (queue : List Effect) : Effect × List Effect :=
  (queue.head?.getD {}, queue.tail)

def takeEffect (c : Cluster) : Call → Effect × Cluster
  | .list _ =>
    let (e, rest) := nextEffect c.listEffects
    (e, { c with listEffects := rest })
  | .create _ _ =>
    let (e, rest) := nextEffect c.createEffects
    (e, { c with createEffects := rest })
  | .update _ _ =>
    let (e, rest) := nextEffect c.updateEffects
    (e, { c with updateEffects := rest })
  | .delete _ _ =>
    let (e, rest) := nextEffect c.deleteEffects
    (e, { c with deleteEffects := rest })

def server : Server Remote Cluster where
  accept call c :=
    let (effect, c) := c.takeEffect call
    ⟨c, effect.delayMs, fun c => c.carryOut effect call⟩

end Cluster

end HostRoster
