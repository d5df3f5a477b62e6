import HostRoster.Proofs.Creation
import HostRoster.Proofs.Exchange
import Mathlib.Data.Multiset.UnionInter

/-!
# Faithful clusters

A faithful cluster holds a bag of named hosts and does what it is asked: a listing
shows every host once in some order, a bulk create adds one host for each spec under
a new name, an update and a delete act on the host of their name. Nothing is said of
the order of a listing or of the names returned, nor of the subnet chosen for a host
that left it open.
-/
namespace HostRoster

/-- A host as a create call may bring it about. -/
structure Realizes (s : HostSpec) (r : HostRecord) : Prop where
  zone : r.zone = s.zone
  subnet : s.subnetId = none ∨ r.subnetId = s.subnetId
  assignPublicIp : r.assignPublicIp = s.assignPublicIp
  replicationSource : r.replicationSource = s.replicationSource

theorem Realizes.suits {s : HostSpec} {r : HostRecord} (h : Realizes s r) : r.Suits s :=
  HostSpec.fits_iff.2 ⟨h.zone, h.assignPublicIp, h.subnet⟩

/-- The host after an update that is addressed by name. -/
def HostRecord.updatedBy (u : HostUpdate) (r : HostRecord) : HostRecord :=
  if r.name = some u.name then r.applyUpdate u else r

@[simp] theorem HostRecord.name_updatedBy (r : HostRecord) (u : HostUpdate) :
    (r.updatedBy u).name = r.name := by
  rw [updatedBy]
  split <;> rfl

/-- The cluster a call is addressed to. -/
def Call.addressee : Call → String
  | .list cluster => cluster
  | .create cluster _ => cluster
  | .update cluster _ => cluster
  | .delete cluster _ => cluster

/-- Whether a host of a name is there. -/
def Present (hosts : Multiset HostRecord) (n : String) : Prop := ∃ r ∈ hosts, r.name = some n

/-- How a faithful cluster of the given identifier answers a call, and what hosts it holds
afterwards. A call that names no host of the cluster changes nothing, whatever its answer;
of calls on other clusters nothing is said. -/
inductive Serves (cluster : String) :
    Multiset HostRecord → Exchange Remote → Multiset HostRecord → Prop
  | list {hosts : Multiset HostRecord} {listed : List HostRecord}
      (all : (listed : Multiset HostRecord) = hosts) :
      Serves cluster hosts ⟨.list cluster, Except.ok listed⟩ hosts
  | create {hosts : Multiset HostRecord} {specs : List HostSpec} {fresh : List HostRecord}
      {names : List String} (realized : List.Forall₂ Realizes specs fresh)
      (named : (names.map some).Perm (fresh.map HostRecord.name))
      (distinct : WellNamed (hosts + ↑fresh)) :
      Serves cluster hosts ⟨.create cluster specs, Except.ok names⟩ (hosts + ↑fresh)
  | update {hosts : Multiset HostRecord} {u : HostUpdate} (present : Present hosts u.name) :
      Serves cluster hosts ⟨.update cluster u, Except.ok ()⟩ (hosts.map (·.updatedBy u))
  | delete {hosts : Multiset HostRecord} {name : String} (present : Present hosts name) :
      Serves cluster hosts ⟨.delete cluster name, Except.ok ()⟩
        (hosts.filter fun r => r.name ≠ some name)
  | updateAbsent {hosts : Multiset HostRecord} {u : HostUpdate} (absent : ¬ Present hosts u.name)
      (reply : Except SyncError Unit) : Serves cluster hosts ⟨.update cluster u, reply⟩ hosts
  | deleteAbsent {hosts : Multiset HostRecord} {name : String} (absent : ¬ Present hosts name)
      (reply : Except SyncError Unit) : Serves cluster hosts ⟨.delete cluster name, reply⟩ hosts
  | elsewhere {hosts hosts' : Multiset HostRecord} (e : Exchange Remote)
      (other : Call.addressee e.request ≠ cluster) : Serves cluster hosts e hosts'

/-- A server that is faithful on a cluster as long as its state is valid. -/
structure FaithfulOn {σ : Type} (cluster : String) (server : Server Remote σ)
    (hosts : σ → Multiset HostRecord) (valid : σ → Prop) : Prop where
  wellNamed : ∀ s, valid s → WellNamed (hosts s)
  kept : ∀ s call, valid s → valid (server.serve call s).2
  serves : ∀ s call, valid s →
    Serves cluster (hosts s) ⟨call, (server.serve call s).1⟩ (hosts (server.serve call s).2)

namespace Serves

variable {cluster : String} {hosts hosts' : Multiset HostRecord}

theorem of_list {reply : Except SyncError (List HostRecord)}
    (h : Serves cluster hosts ⟨.list cluster, reply⟩ hosts') :
    ∃ listed : List HostRecord, reply = .ok listed ∧ ↑listed = hosts ∧ hosts' = hosts := by
  cases h with
  | list all => exact ⟨_, rfl, all, rfl⟩
  | elsewhere _ other => exact absurd rfl other

theorem of_create {specs : List HostSpec} {reply : Except SyncError (List String)}
    (h : Serves cluster hosts ⟨.create cluster specs, reply⟩ hosts') :
    ∃ (fresh : List HostRecord) (names : List String), reply = .ok names ∧
      List.Forall₂ Realizes specs fresh ∧ (names.map some).Perm (fresh.map HostRecord.name) ∧
      hosts' = hosts + ↑fresh ∧ WellNamed (hosts + ↑fresh) := by
  cases h with
  | create realized named distinct => exact ⟨_, _, rfl, realized, named, rfl, distinct⟩
  | elsewhere _ other => exact absurd rfl other

theorem of_update {u : HostUpdate} {reply : Except SyncError Unit}
    (present : Present hosts u.name)
    (h : Serves cluster hosts ⟨.update cluster u, reply⟩ hosts') :
    reply = .ok () ∧ hosts' = hosts.map (·.updatedBy u) := by
  cases h with
  | update _ => exact ⟨rfl, rfl⟩
  | updateAbsent absent => exact absurd present absent
  | elsewhere _ other => exact absurd rfl other

theorem of_delete {name : String} {reply : Except SyncError Unit} (present : Present hosts name)
    (h : Serves cluster hosts ⟨.delete cluster name, reply⟩ hosts') :
    reply = .ok () ∧ hosts' = hosts.filter fun r => r.name ≠ some name := by
  cases h with
  | delete _ => exact ⟨rfl, rfl⟩
  | deleteAbsent absent => exact absurd present absent
  | elsewhere _ other => exact absurd rfl other

end Serves

namespace WellNamed

variable {hosts : Multiset HostRecord}

/-- Only the names count. -/
theorem of_names {others : Multiset HostRecord} (h : WellNamed hosts)
    (same : others.map HostRecord.name = hosts.map HostRecord.name) : WellNamed others := by
  refine ⟨fun r hr => ?_, same ▸ h.distinct⟩
  have name : r.name ∈ hosts.map HostRecord.name := same ▸ Multiset.mem_map_of_mem _ hr
  obtain ⟨r', hr', eq⟩ := Multiset.mem_map.1 name
  exact eq ▸ h.named r' hr'

theorem map_updatedBy (h : WellNamed hosts) (u : HostUpdate) :
    WellNamed (hosts.map (·.updatedBy u)) := by
  refine h.of_names ?_
  simp [Multiset.map_map]

/-- The two parts of a bag of distinctly named hosts have no name in common. -/
theorem apart {some others : Multiset HostRecord} (h : WellNamed (some + others))
    {a b : HostRecord} (ha : a ∈ some) (hb : b ∈ others) : a.name ≠ b.name := by
  have distinct := h.distinct
  rw [Multiset.map_add] at distinct
  exact fun same => Multiset.disjoint_left.1 (Multiset.disjoint_of_nodup_add distinct)
    (Multiset.mem_map_of_mem _ ha) (same ▸ Multiset.mem_map_of_mem _ hb)

end WellNamed

end HostRoster
