import HostRoster.Proofs.Naming
import HostRoster.Proofs.Transactions
import HostRoster.Proofs.Vetoes

/-!
# What a destruction leaves

A destruction lists the cluster once and then makes a delete for every entry of the listing that
has a name, until one is refused. On a cluster that does what it is asked only a name that has
been deleted already can be refused. So it all comes down to the listing: if this shows every host
once the cluster is emptied with one delete for each, and if it shows one twice there is a delete
too many.
-/
namespace HostRoster

/-- How a cluster answers that does what it is asked but may list a host more than once. -/
inductive ServesLoosely (cluster : String) :
    Multiset HostRecord → Exchange Remote → Multiset HostRecord → Prop
  | list {hosts : Multiset HostRecord} {listed : List HostRecord}
      (all : ∀ host, host ∈ listed ↔ host ∈ hosts) :
      ServesLoosely cluster hosts ⟨.list cluster, Except.ok listed⟩ hosts
  | serves {hosts hosts' : Multiset HostRecord} {e : Exchange Remote}
      (faithful : Serves cluster hosts e hosts') : ServesLoosely cluster hosts e hosts'

/-- A server that answers so on a cluster as long as its state is valid. -/
structure LooselyFaithfulOn {σ : Type} (cluster : String) (server : Server Remote σ)
    (hosts : σ → Multiset HostRecord) (valid : σ → Prop) : Prop where
  wellNamed : ∀ s, valid s → WellNamed (hosts s)
  kept : ∀ s call, valid s → valid (server.serve call s).2
  serves : ∀ s call, valid s →
    ServesLoosely cluster (hosts s) ⟨call, (server.serve call s).1⟩ (hosts (server.serve call s).2)

theorem FaithfulOn.loosely {σ : Type} {cluster : String} {server : Server Remote σ}
    {hosts : σ → Multiset HostRecord} {valid : σ → Prop}
    (h : FaithfulOn cluster server hosts valid) : LooselyFaithfulOn cluster server hosts valid :=
  ⟨h.wellNamed, h.kept, fun s call start => .serves (h.serves s call start)⟩

/-- The hosts that bear none of some names. -/
def without (names : List String) (hosts : Multiset HostRecord) : Multiset HostRecord :=
  hosts.filter fun host => ∀ n ∈ names, host.name ≠ some n

section Hosts

variable {hosts hosts' : Multiset HostRecord} {names : List String} {host : HostRecord} {n : String}

@[simp] theorem without_nil (hosts : Multiset HostRecord) : without [] hosts = hosts :=
  Multiset.filter_eq_self.2 (by simp)

theorem without_cons (n : String) (names : List String) (hosts : Multiset HostRecord) :
    without (n :: names) hosts = without names (hosts.filter fun host => host.name ≠ some n) := by
  unfold without
  rw [Multiset.filter_filter]
  exact Multiset.filter_congr fun host _ => by rw [List.forall_mem_cons, and_comm]

theorem mem_without :
    host ∈ without names hosts ↔ host ∈ hosts ∧ ∀ n ∈ names, host.name ≠ some n :=
  Multiset.mem_filter

theorem filter_of_not_present (absent : ¬ Present hosts n) :
    hosts.filter (fun host => host.name ≠ some n) = hosts :=
  Multiset.filter_eq_self.2 fun host there name => absent ⟨host, there, name⟩

/-- Of the hosts that are listed by names none is left when all these names have been deleted. -/
theorem without_names_eq_zero {listed : List HostRecord} (named : WellNamed hosts)
    (all : ∀ host ∈ hosts, host ∈ listed) :
    without (listed.filterMap HostRecord.name) hosts = 0 := by
  refine Multiset.eq_zero_of_forall_notMem fun host left => ?_
  obtain ⟨there, spared⟩ := mem_without.1 left
  obtain ⟨n, name⟩ := Option.isSome_iff_exists.1 (named.named host there)
  exact spared n (List.mem_filterMap.2 ⟨host, all host there, name⟩) name

namespace ServesLoosely

variable {cluster : String}

theorem of_list {reply : Except SyncError (List HostRecord)}
    (h : ServesLoosely cluster hosts ⟨.list cluster, reply⟩ hosts') :
    ∃ listed : List HostRecord, reply = .ok listed ∧ (∀ host, host ∈ listed ↔ host ∈ hosts) ∧
      hosts' = hosts := by
  cases h with
  | list all => exact ⟨_, rfl, all, rfl⟩
  | serves faithful =>
    obtain ⟨listed, answer, rfl, same⟩ := faithful.of_list
    exact ⟨listed, answer, fun _ => Iff.rfl, same⟩

/-- After a delete no host of the name is there, and if there was one it has not been refused. -/
theorem of_delete {reply : Except SyncError Unit}
    (h : ServesLoosely cluster hosts ⟨.delete cluster n, reply⟩ hosts') :
    hosts' = hosts.filter (fun host => host.name ≠ some n) ∧
      (Present hosts n → reply = .ok ()) := by
  cases h with
  | serves faithful =>
    by_cases present : Present hosts n
    · obtain ⟨answer, left⟩ := faithful.of_delete present
      exact ⟨left, fun _ => answer⟩
    · refine ⟨?_, fun there => absurd there present⟩
      rw [filter_of_not_present present]
      cases faithful with
      | delete there => exact absurd there present
      | deleteAbsent => rfl
      | elsewhere _ other => exact absurd rfl other

end ServesLoosely

end Hosts

section Deletes

variable {cluster : String} {hosts left : Multiset HostRecord} {names : List String}
  {e e' : Execution} {exchanges : List (Exchange Remote)}

/-- How deletes of some names end: the calls made, what has been recorded of them and the hosts
that are left. -/
inductive Deletes (cluster : String) (names : List String) (e : Execution)
    (hosts : Multiset HostRecord) : List Call → Execution → Multiset HostRecord → Prop
  | all : Deletes cluster names e hosts (names.map (.delete cluster))
      (names.foldl Execution.recordDeleted e) (without names hosts)
  | stopped {made after : List String} {n : String} {e' : Execution} {err : SyncError}
      (split : names = made ++ n :: after) (absent : ¬ Present (without made hosts) n)
      (failure : e'.failure = some (.remote .delete n err)) :
      Deletes cluster names e hosts ((made ++ [n]).map (.delete cluster)) e' (without made hosts)

/-- One more delete before the others. -/
theorem Deletes.cons {n : String} {calls : List Call}
    (h : Deletes cluster names (e.recordDeleted n) (hosts.filter fun host => host.name ≠ some n)
      calls e' left) :
    Deletes cluster (n :: names) e hosts (.delete cluster n :: calls) e' left := by
  cases h with
  | all =>
    rw [← without_cons]
    exact .all
  | stopped split absent failure =>
    rw [← without_cons] at absent ⊢
    exact .stopped (congrArg (n :: ·) split) absent failure

theorem deletes_of_follows (run : (runDeletes cluster names e).Follows exchanges (.done e'))
    (history : History (ServesLoosely cluster) hosts exchanges left) :
    Deletes cluster names e hosts (exchanges.map Exchange.call) e' left := by
  induction names generalizing e hosts exchanges with
  | nil =>
    obtain ⟨rfl, same⟩ := Program.follows_done run
    obtain rfl := Program.done.inj same
    obtain rfl := history.eq_of_nil
    have ended : Deletes cluster [] e' left [] e' (without [] left) := .all
    rwa [without_nil] at ended
  | cons n rest ih =>
    obtain ⟨(reply : Except SyncError Unit), others, rfl, onward⟩ := Program.follows_ask run
    cases history with
    | move first later =>
      obtain ⟨rfl, answered⟩ := first.of_delete
      cases reply with
      | ok _ => exact .cons (ih onward later)
      | error err =>
        obtain ⟨rfl, same⟩ := Program.follows_done onward
        obtain rfl := Program.done.inj same
        have absent : ¬ Present hosts n := fun present => nomatch answered present
        rw [later.eq_of_nil, filter_of_not_present absent]
        have split : n :: rest = [] ++ n :: rest := rfl
        have ended : Deletes cluster (n :: rest) e hosts [.delete cluster n]
            { e with failure := some (.remote .delete n err) } (without [] hosts) :=
          .stopped split (by rwa [without_nil]) rfl
        rwa [without_nil] at ended

namespace Execution

/-- Of a map with distinct names a delete takes out the entry of the deleted name. -/
theorem mem_recordDeleted (named : WellNamed (e.hosts.values : Multiset HostRecord)) {n : String}
    {entry : String × HostRecord} : entry ∈ (e.recordDeleted n).hosts.entries ↔
      entry ∈ e.hosts.entries ∧ entry.2.name ≠ some n := by
  rw [recordDeleted]
  cases found : e.hosts.entries.find? fun h => h.2.name == some n with
  | none =>
    have none_bears := List.find?_eq_none.1 found
    exact ⟨fun there => ⟨there, by simpa using none_bears entry there⟩, And.left⟩
  | some dropped =>
    have bears : dropped.2.name = some n := by simpa using List.find?_some found
    have there := List.mem_of_find?_eq_some found
    change entry ∈ (e.hosts.erase dropped.1).entries ↔ _
    rw [KeyMap.mem_erase]
    refine and_congr_right fun here => not_congr ⟨fun same => ?_, fun name => ?_⟩
    · have dropped_here : (dropped.1, entry.2) ∈ e.hosts.entries := same ▸ here
      rw [KeyMap.eq_of_mem dropped_here there, bears]
    · rw [named.eq_of_entries here there (name.trans bears.symm)]

theorem wellNamed_recordDeleted (named : WellNamed (e.hosts.values : Multiset HostRecord))
    (n : String) : WellNamed ((e.recordDeleted n).hosts.values : Multiset HostRecord) :=
  named.of_le (Multiset.coe_le.2 ((e.sublist_recordDeleted n).map Prod.snd).subperm)

theorem mem_foldl_recordDeleted (named : WellNamed (e.hosts.values : Multiset HostRecord))
    {entry : String × HostRecord} : entry ∈ (names.foldl recordDeleted e).hosts.entries ↔
      entry ∈ e.hosts.entries ∧ ∀ n ∈ names, entry.2.name ≠ some n := by
  induction names generalizing e with
  | nil => simp
  | cons n rest ih =>
    rw [List.foldl_cons, ih (wellNamed_recordDeleted named n), mem_recordDeleted named,
      List.forall_mem_cons, and_assoc]

@[simp] theorem deleted_recordDeleted (e : Execution) (n : String) :
    (e.recordDeleted n).deleted = e.deleted + 1 := by
  simp [recordDeleted, deleted, Completed.isDeleted]

theorem deleted_foldl_recordDeleted (e : Execution) (names : List String) :
    (names.foldl recordDeleted e).deleted = e.deleted + names.length := by
  induction names generalizing e with
  | nil => rfl
  | cons n rest ih =>
    rw [List.foldl_cons, ih, deleted_recordDeleted, List.length_cons]
    omega

theorem failure_foldl_recordDeleted (e : Execution) (names : List String) :
    (names.foldl recordDeleted e).failure = e.failure := by
  induction names generalizing e with
  | nil => rfl
  | cons n rest ih => exact ih (e.recordDeleted n)

/-- A map whose hosts are all listed is empty when all the listed names have been deleted. -/
theorem hosts_foldl_recordDeleted {listed : List HostRecord}
    (named : WellNamed (e.hosts.values : Multiset HostRecord))
    (all : ∀ host ∈ e.hosts.values, host ∈ listed) :
    ((listed.filterMap HostRecord.name).foldl recordDeleted e).hosts = ∅ := by
  refine KeyMap.ext (List.eq_nil_iff_forall_not_mem.2 fun entry left => ?_)
  obtain ⟨there, spared⟩ := (mem_foldl_recordDeleted named).1 left
  have value := KeyMap.mem_values_of_mem there
  obtain ⟨n, name⟩ := Option.isSome_iff_exists.1 (named.named entry.2 value)
  exact spared n (List.mem_filterMap.2 ⟨entry.2, all _ value, name⟩) name

end Execution

end Deletes

section Destructions

variable {r : Reconciler} {cluster : String} {prior : HostMap} {hosts left : Multiset HostRecord}
  {listed : List HostRecord} {result : Except SyncError Outcome} {asked : List Call}

/-- How a destruction ends that has listed some hosts: what it reports, what it has asked and the
hosts that are left. -/
inductive Destruction (cluster : String) (hosts : Multiset HostRecord) (listed : List HostRecord) :
    Except SyncError Outcome → List Call → Multiset HostRecord → Prop
  /-- There has been a delete for every entry, and nothing is left. -/
  | complete : Destruction cluster hosts listed
      (.ok { clusterId := cluster, phase := .gone, hosts := ∅, deleted := listed.length })
      (.list cluster :: (listed.filterMap HostRecord.name).map (.delete cluster)) 0
  /-- A name has been refused that had been deleted before. The hosts that come behind it are
  still there. -/
  | stopped {made after : List String} {n : String} {err : SyncError}
      (split : listed.filterMap HostRecord.name = made ++ n :: after) (again : n ∈ made) :
      Destruction cluster hosts listed (.error (.remote .delete n err))
        (.list cluster :: (made ++ [n]).map (.delete cluster)) (without made hosts)

/-- A destruction has deleted every host, each with one call. -/
structure RemovesAll (cluster : String) (hosts : Multiset HostRecord) (o : Outcome)
    (asked : List Call) (left : Multiset HostRecord) : Prop where
  phase : o.phase = .gone
  unmapped : o.hosts = ∅
  deleted : o.deleted = Multiset.card hosts
  /-- The calls that can change the cluster are one delete for each host. -/
  once : ((asked.filter Call.isMutation : List Call) : Multiset Call) =
    (hosts.filterMap HostRecord.name).map (.delete cluster)
  emptied : left = 0

/-- What a destruction does when it has listed some hosts. -/
def clearListed (cluster : String) (prior : HostMap) (listed : List HostRecord) :
    Program Remote (Except SyncError Outcome) :=
  runDeletes cluster (listed.filterMap HostRecord.name)
      { hosts := (correlateByName prior listed).matched } >>= fun e =>
    .done (e.failure.elim
      (.ok { clusterId := cluster, phase := .gone, hosts := e.hosts, deleted := e.deleted }) .error)

theorem run_destroy (permitted : r.protects = false) (cluster : String) (prior : HostMap) :
    (r.destroy cluster prior).run =
      .ask (.list cluster) fun (reply : Except SyncError (List HostRecord)) =>
        match reply with
        | .ok listed => clearListed cluster prior listed
        | .error e => .done (.error (.remote .list cluster e)) := by
  unfold Reconciler.destroy
  rw [run_listHosts_bind]
  refine congrArg (Program.ask _) (funext fun reply => ?_)
  cases reply with
  | error e => rfl
  | ok listed =>
    have allowed : r.guardrails.any (·.deletionProtection) = false := permitted
    dsimp only
    rw [allowed, Bool.false_and, if_neg Bool.false_ne_true, run_lift_bind, execute_deletes]
    refine congrArg _ (funext fun e => ?_)
    cases e.failure with
    | none => rfl
    | some err => rfl

/-- The hosts that recorded keys are found to have are listed. -/
theorem listed_of_matched {host : HostRecord}
    (matched : host ∈ (correlateByName prior listed).matched.values) : host ∈ listed := by
  have accounts := correlateByName_accounts prior listed
  obtain ⟨entry, there, rfl⟩ := List.mem_map.1 matched
  have pair := List.mem_map_of_mem (f := Prod.snd) (accounts.mem_matched.1 there)
  exact accounts.mem_listed (List.mem_append_left _ pair)

/-- If a listed name is not there any more when some names have been deleted, it is one of them. -/
theorem mem_of_not_present {made : List String} {n : String} (all : ∀ host ∈ listed, host ∈ hosts)
    (known : n ∈ listed.filterMap HostRecord.name) (absent : ¬ Present (without made hosts) n) :
    n ∈ made := by
  obtain ⟨host, there, name⟩ := List.mem_filterMap.1 known
  by_contra new
  refine absent ⟨host, mem_without.2 ⟨all host there, fun m deleted same => ?_⟩, name⟩
  obtain rfl := Option.some.inj (same.symm.trans name)
  exact new deleted

theorem destruction_of_follows {exchanges : List (Exchange Remote)} (named : WellNamed hosts)
    (all : ∀ host, host ∈ listed ↔ host ∈ hosts)
    (run : (clearListed cluster prior listed).Follows exchanges (.done result))
    (history : History (ServesLoosely cluster) hosts exchanges left) :
    Destruction cluster hosts listed result (.list cluster :: exchanges.map Exchange.call)
      left := by
  obtain ⟨deletes, rest, e, rfl, deleting, ending⟩ := Program.follows_bind.1 run
  obtain ⟨rfl, same⟩ := Program.follows_done ending
  obtain rfl := Program.done.inj same
  rw [List.append_nil] at history ⊢
  have deleted := deletes_of_follows deleting history
  generalize deletes.map Exchange.call = calls at deleted ⊢
  cases deleted with
  | all =>
    have mapNamed := (correlateByName_accounts prior listed).wellNamed_matched
    have count : (listed.filterMap HostRecord.name).length = listed.length :=
      List.filterMap_length_eq_length.2 fun host there => named.named host ((all host).1 there)
    rw [without_names_eq_zero named fun host => (all host).2,
      Execution.failure_foldl_recordDeleted, Execution.deleted_foldl_recordDeleted,
      Execution.hosts_foldl_recordDeleted mapNamed fun host => listed_of_matched, count]
    simpa [Execution.deleted] using Destruction.complete
  | stopped split absent failure =>
    rw [failure]
    refine .stopped split (mem_of_not_present (fun host => (all host).1) ?_ absent)
    simp [split]

/-- All goes well exactly if no host is listed twice. -/
theorem Destruction.removesAll_iff (h : Destruction cluster hosts listed result asked left)
    (named : WellNamed hosts) (all : ∀ host, host ∈ listed ↔ host ∈ hosts) :
    (∃ o, result = .ok o ∧ RemovesAll cluster hosts o asked left) ↔ listed.Nodup := by
  have distinct : hosts.Nodup := named.distinct.of_map
  constructor
  · rintro ⟨o, succeeded, removes⟩
    cases h with
    | complete =>
      obtain rfl := Except.ok.inj succeeded
      have fits : hosts ≤ (listed : Multiset HostRecord) :=
        (Multiset.le_iff_subset distinct).2 fun host => (all host).2
      have same := Multiset.eq_of_le_of_card_le fits (removes.deleted.le)
      exact Multiset.coe_nodup.1 (same ▸ distinct)
    | stopped => exact nomatch succeeded
  · intro once
    have listing : (listed : Multiset HostRecord) = hosts :=
      (Multiset.Nodup.ext (Multiset.coe_nodup.2 once) distinct).2 all
    subst listing
    cases h with
    | complete =>
      refine ⟨_, rfl, rfl, rfl, rfl, ?_, rfl⟩
      simp [Call.isMutation, List.filter_map, Function.comp_def]
    | stopped split again =>
      have apart := named.nodup_names
      rw [split, List.nodup_append] at apart
      exact absurd rfl (apart.2.2 _ again _ (List.mem_cons_self ..))

/-- Against a server that does what it is asked but may list a host more than once, a destruction
that is permitted ends in one of two ways, whatever the host map. It removes every host with one
call each exactly if no host has been listed twice. -/
theorem destroy_removes_all_iff {σ : Type} {server : Server Remote σ} {cluster : String}
    {hosts : σ → Multiset HostRecord} {valid : σ → Prop}
    (faithful : LooselyFaithfulOn cluster server hosts valid) {s : σ} (start : valid s)
    {r : Reconciler} (permitted : r.protects = false) (prior : HostMap) (elapsed : Nat) :
    let run := server.run none (r.destroy cluster prior).run elapsed s
    ∃ (listed : List HostRecord) (result : Except SyncError Outcome),
      (server.serve (.list cluster) s).1 = Except.ok listed ∧
      (∀ host, host ∈ listed ↔ host ∈ hosts s) ∧ run.value = some result ∧
      Destruction cluster (hosts s) listed result run.asked (hosts run.state) ∧
      ((∃ o, result = .ok o ∧ RemovesAll cluster (hosts s) o run.asked (hosts run.state)) ↔
        listed.Nodup) := by
  have named := faithful.wellNamed s start
  obtain ⟨listed, answer, all, kept⟩ := (faithful.serves s (.list cluster) start).of_list
  let onward := server.run none (clearListed cluster prior listed)
    (elapsed + (server.accept (.list cluster) s).delay) (server.serve (.list cluster) s).2
  have begins : server.run none (r.destroy cluster prior).run elapsed s =
      { onward with asked := .list cluster :: onward.asked } := by
    rw [run_destroy permitted]
    refine (Server.run_ask server _ _ elapsed s).trans ?_
    rw [answer]
  obtain ⟨result, exchanges, value, asked, follows, history, -⟩ := Server.run_follows
    (fun s call h => ⟨faithful.kept s call h, faithful.serves s call h⟩)
    (clearListed cluster prior listed) (elapsed + (server.accept (.list cluster) s).delay)
    (faithful.kept s (.list cluster) start)
  rw [kept] at history
  have destruction : Destruction cluster (hosts s) listed result (.list cluster :: onward.asked)
      (hosts onward.state) := asked ▸ destruction_of_follows named all follows history
  rw [begins]
  exact ⟨listed, result, answer, all, value, destruction, destruction.removesAll_iff named all⟩

end Destructions

/-- Of two hosts in memory each is deleted once, the one that is recorded and the other. -/
theorem destroy_removes_all_iff_in_memory :
    let start := (Cluster.addHosts {} [{ zone := "z" }, { zone := "y" }] []).1
    let prior : HostMap := .ofList [("a", { zone := "z", assignedName := some "z-1.db.internal" })]
    let run := Cluster.server.run none (({} : Reconciler).destroy "c" prior).run 0 start
    start.Sound ∧ ({} : Reconciler).protects = false ∧
      ∃ o, run.value = some (.ok o) ∧ RemovesAll "c" ↑start.hosts o run.asked ↑run.state.hosts := by
  intro start prior run
  have sound : start.Sound := by
    obtain ⟨-, -, -, -, -, -, sound⟩ :=
      (Cluster.sound_new .newestFirst ∅).addHosts [{ zone := "z" }, { zone := "y" }] []
    exact sound
  have once : start.listing.Nodup := by decide +kernel
  obtain ⟨listed, result, answer, -, value, -, removes⟩ :=
    destroy_removes_all_iff (Cluster.faithfulOn_server "c").loosely sound
      (r := {}) rfl prior 0
  obtain rfl : start.listing = listed := Except.ok.inj answer
  obtain ⟨o, rfl, all⟩ := removes.2 once
  exact ⟨sound, rfl, o, value, all⟩

namespace Cluster

/-- The cluster in memory with listings that show its hosts in a way of their own. -/
def serverShowing (shown : List HostRecord → List HostRecord) : Server Remote Cluster where
  accept call c := ⟨c, 0, fun c => c.perform { hosts := some (shown c.listing) } call⟩

variable {shown : List HostRecord → List HostRecord}

theorem Sound.serves_showing {c : Cluster} (h : c.Sound)
    (same : ∀ hosts host, host ∈ shown hosts ↔ host ∈ hosts) (cluster : String) (call : Call) :
    ((serverShowing shown).serve call c).2.Sound ∧
      ServesLoosely cluster ↑c.hosts ⟨call, ((serverShowing shown).serve call c).1⟩
        ↑((serverShowing shown).serve call c).2.hosts := by
  -- only a listing differs from the plain cluster
  cases call with
  | list id =>
    refine ⟨h, ?_⟩
    by_cases here : id = cluster
    · subst here
      exact .list fun host => (same c.listing host).trans c.perm_listing.mem_iff
    · exact .serves (.elsewhere _ here)
  | create id specs =>
    exact ⟨(h.answers (.create id specs)).1, .serves (h.serves cluster (.create id specs))⟩
  | update id u => exact ⟨(h.answers (.update id u)).1, .serves (h.serves cluster (.update id u))⟩
  | delete id name =>
    exact ⟨(h.answers (.delete id name)).1, .serves (h.serves cluster (.delete id name))⟩

theorem looselyFaithfulOn_serverShowing (same : ∀ hosts host, host ∈ shown hosts ↔ host ∈ hosts)
    (cluster : String) :
    LooselyFaithfulOn cluster (serverShowing shown) (fun c => ↑c.hosts) Sound where
  wellNamed := fun _ h => h.wellNamed
  kept := fun _ call h => (h.serves_showing same cluster call).1
  serves := fun _ call h => (h.serves_showing same cluster call).2

/-- Every host is listed twice. -/
def doubling : Server Remote Cluster := serverShowing fun hosts => hosts ++ hosts

theorem looselyFaithfulOn_doubling (cluster : String) :
    LooselyFaithfulOn cluster doubling (fun c => ↑c.hosts) Sound :=
  looselyFaithfulOn_serverShowing (fun hosts host => by simp) cluster

end Cluster

/-- A host that is listed twice is deleted and then asked to be deleted again, which fails. -/
theorem not_destroy_always_removes_all :
    ¬ ∀ {σ : Type} (server : Server Remote σ) (cluster : String) (hosts : σ → Multiset HostRecord)
      (valid : σ → Prop), LooselyFaithfulOn cluster server hosts valid →
      ∀ (s : σ) (r : Reconciler) (prior : HostMap) (elapsed : Nat), valid s → r.protects = false →
        let run := server.run none (r.destroy cluster prior).run elapsed s
        ∃ o, run.value = some (.ok o) ∧
          RemovesAll cluster (hosts s) o run.asked (hosts run.state) := by
  intro claim
  let start := (Cluster.addHost {} { zone := "z" }).1
  have sound : start.Sound := by
    obtain ⟨-, -, -, -, -, -, sound⟩ := (Cluster.sound_new .newestFirst ∅).addHost { zone := "z" }
    exact sound
  obtain ⟨o, value, -⟩ := claim Cluster.doubling "c" (fun c => ↑c.hosts) Cluster.Sound
    (Cluster.looselyFaithfulOn_doubling "c") start {} ∅ 0 sound rfl
  have failed : (Cluster.doubling.run none (({} : Reconciler).destroy "c" ∅).run 0 start).value.map
      Except.isOk = some false := by decide +kernel
  rw [value] at failed
  simp [Except.isOk, Except.toBool] at failed

end HostRoster
