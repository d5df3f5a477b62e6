import HostRoster.Proofs.Calls
import HostRoster.Proofs.Convergence

/-!
# Running again

After a successful run the recorded hosts agree with the listed ones, so that a run with
the same declaration finds every host under its key. What it may still find amiss is the
replication source of hosts that were just created: a bulk create hands hosts to keys by
their class, and the source is no part of the class.
-/
namespace HostRoster

/-- The declared keys whose hosts replicate from another source than declared. -/
def straySources (desired : Declaration) (hosts : HostMap) : List String :=
  desired.entries.filterMap fun e =>
    if (hosts.get? e.1).any fun host => host.replicationSource ≠ e.2.replicationSource then some e.1
    else none

theorem mem_straySources {desired : Declaration} {hosts : HostMap} {key : String} :
    key ∈ straySources desired hosts ↔ ∃ s host, (key, s) ∈ desired.entries ∧
      (key, host) ∈ hosts.entries ∧ host.replicationSource ≠ s.replicationSource := by
  simp only [straySources, List.mem_filterMap, Option.ite_none_right_eq_some, Option.any_eq_true,
    decide_eq_true_eq, KeyMap.get?_eq_some, Option.some.injEq]
  constructor
  · rintro ⟨⟨key, s⟩, hs, ⟨host, hh, other⟩, rfl⟩
    exact ⟨s, host, hs, hh, other⟩
  · rintro ⟨s, host, hs, hh, other⟩
    exact ⟨(key, s), hs, ⟨host, hh, other⟩, rfl⟩

/-- The recorded hosts of a declaration that has been reached, up to replication sources. -/
structure Reached (desired : Declaration) (hosts : HostMap) : Prop where
  keys : hosts.keys = desired.keys
  wellNamed : WellNamed (hosts.values : Multiset HostRecord)
  placed : ∀ key s host, (key, s) ∈ desired.entries → (key, host) ∈ hosts.entries →
    host.zone = s.zone ∧ host.assignPublicIp = s.assignPublicIp ∧
      (s.subnetId = none ∨ host.subnetId = s.subnetId)

namespace Reached

variable {desired : Declaration} {hosts : HostMap} {listed : List HostRecord}

theorem names_agree (h : Reached desired hosts) (key : String) :
    ((mergePriorNames desired hosts).get? key).map HostRecord.name =
      (hosts.get? key).map HostRecord.name := by
  cases found : hosts.get? key with
  | none =>
    have absent : key ∉ (mergePriorNames desired hosts).keys := by
      rw [keys_mergePriorNames, ← h.keys]
      exact KeyMap.get?_eq_none.1 found
    rw [KeyMap.get?_eq_none.2 absent]
  | some host =>
    obtain ⟨s, hs⟩ := KeyMap.mem_keys.1 (h.keys ▸ KeyMap.mem_keys_of_mem (KeyMap.get?_eq_some.1 found))
    rw [KeyMap.get?_eq_some.2 (mem_mergePriorNames.2 ⟨s, hs, rfl⟩), Option.map_some,
      HostSpec.name_named, recordedName, found]
    rfl

/-- The listed hosts are found under their keys, and nothing is left over. -/
theorem correlate_eq (h : Reached desired hosts)
    (all : (listed : Multiset HostRecord) = ↑hosts.values) :
    (Reconciler.correlate desired hosts listed).matched = hosts ∧
      (Reconciler.correlate desired hosts listed).pending = [] ∧
      (Reconciler.correlate desired hosts listed).orphans = [] := by
  obtain ⟨pending, matched, orphans⟩ := correlateByName_eq all h.wellNamed h.names_agree
  have same : Reconciler.correlate desired hosts listed =
      correlateByName (mergePriorNames desired hosts) listed := by
    rw [Reconciler.correlate, Correlation.adoptOrphans, pending]
    rfl
  rw [same]
  exact ⟨matched, pending, orphans⟩

/-- What is prepared then changes nothing but stray replication sources. -/
theorem prepare_eq (h : Reached desired hosts)
    (all : (listed : Multiset HostRecord) = ↑hosts.values) (r : Reconciler) :
    ∃ p, r.prepare desired hosts listed = .ok p ∧ p.correlation.matched = hosts ∧
      p.correlation.orphans = [] ∧ p.diff.toCreate = ∅ ∧ p.diff.toDelete = [] ∧
      p.diff.toUpdate.map HostUpdate.key = straySources desired hosts ∧
      ∀ u ∈ p.diff.toUpdate, u.changed = [.replicationSource] := by
  obtain ⟨matched, pending, orphans⟩ := h.correlate_eq all
  obtain ⟨p, prepared⟩ := Reconciler.prepare_of_placed r desired hosts listed fun key s host hs hh => by
      obtain ⟨zone, -, subnet⟩ := h.placed key s host hs (matched ▸ hh)
      exact ⟨zone.symm, subnet⟩
  have preps := Reconciler.prepare_ok prepared
  refine ⟨p, prepared, preps.correlation ▸ matched, preps.correlation ▸ orphans, ?_, ?_, ?_, ?_⟩
  · have keys := preps.perm_creates
    rw [pending] at keys
    exact KeyMap.ext (List.map_eq_nil_iff.1 keys.eq_nil)
  · rw [preps.deletes, Correlation.orphanNames, orphans]
    rfl
  · have sources : ∀ e ∈ desired.entries,
        ((hosts.get? e.1).bind (updateFor e.1 (e.2.named (recordedName hosts e.1)))).map
          HostUpdate.key = if (hosts.get? e.1).any fun host =>
            host.replicationSource ≠ e.2.replicationSource then some e.1 else none := by
      intro e he
      cases found : hosts.get? e.1 with
      | none => rfl
      | some host =>
        obtain ⟨-, flag, -⟩ := h.placed e.1 e.2 host he (KeyMap.get?_eq_some.1 found)
        rw [Option.bind_some, updateFor_of_flag flag.symm, Option.any_some]
        by_cases same : e.2.replicationSource = host.replicationSource
        · simp [HostSpec.named, same]
        · simp [HostSpec.named, same, Ne.symm same]
    rw [preps.judged.updates, matched, mergePriorNames_eq, KeyMap.entries_map, List.filterMap_map,
      List.map_filterMap]
    exact List.filterMap_congr sources
  · intro u hu
    obtain ⟨s, host, hs, hh, change⟩ := preps.mem_updates.1 hu
    obtain ⟨-, flag, -⟩ := h.placed u.key s host hs (matched ▸ hh)
    rw [updateFor_of_flag flag.symm] at change
    split at change
    · simp at change
    · exact Option.some.inj change ▸ rfl

end Reached

theorem Outcome.Reaches.reached {o : Outcome} {desired : Declaration}
    {before after : Multiset HostRecord} (h : o.Reaches desired before after)
    (wellNamed : WellNamed after) : Reached desired o.hosts :=
  ⟨h.keys, h.hosts ▸ wellNamed, h.placed⟩

/-- The guardrails ask for at least one host. -/
def Reconciler.Demands (r : Reconciler) : Prop :=
  ∃ g ∈ r.guardrails, ∃ bound ∈ g.minHosts, 0 < bound

theorem Guardrails.violations_eq_nil {g : Guardrails} {resulting deleted : Nat} :
    g.violations resulting deleted = [] ↔ (∀ bound ∈ g.maxHosts, resulting ≤ bound) ∧
      (∀ bound ∈ g.minHosts, bound ≤ resulting) ∧ (g.deletionProtection = true → deleted = 0) := by
  simp only [Guardrails.violations, List.append_eq_nil_iff, and_assoc]
  refine and_congr ?_ (and_congr ?_ ?_)
  · cases g.maxHosts <;> simp
  · cases g.minHosts <;> simp
  · simp

/-- An empty declaration meets the guardrails on an empty cluster unless a host is asked for. -/
theorem Reconciler.demands_of_refused {r : Reconciler} {e : PlanError}
    (h : (HostPlan.ofDiff { toCreate := ∅ } 0 r.guardrails r.configHash).ensureGuardrails =
      .error e) : r.Demands := by
  by_contra modest
  have passes : (HostPlan.ofDiff { toCreate := ∅ } 0 r.guardrails r.configHash).violations = [] := by
    cases guardrails : r.guardrails with
    | none => rfl
    | some g =>
      refine Guardrails.violations_eq_nil.2 ⟨fun bound _ => Nat.zero_le bound, ?_, fun _ => rfl⟩
      intro bound hb
      have none_asked : ¬ 0 < bound := fun positive => modest ⟨g, guardrails, bound, hb, positive⟩
      exact Nat.not_lt.1 none_asked
  simp [HostPlan.ensureGuardrails, HostPlan.passesGuardrails, passes] at h

/-- A call that does no more than set the replication source of the host of a given key. -/
def Call.SetsSource (cluster : String) (keys : List String) : Call → Prop
  | .list id => id = cluster
  | .update id u => id = cluster ∧ u.changed = [.replicationSource] ∧ u.key ∈ keys
  | .create _ _ => False
  | .delete _ _ => False

/-- Setting sources leaves the names as they are. -/
theorem Serves.names_of_setsSource {cluster : String} {keys : List String} {e : Exchange Remote}
    {hosts hosts' : Multiset HostRecord} (served : Serves cluster hosts e hosts')
    (ok : Call.SetsSource cluster keys e.request) :
    hosts'.map HostRecord.name = hosts.map HostRecord.name := by
  cases served with
  | list => rfl
  | create => exact ok.elim
  | update => simp [Multiset.map_map]
  | delete => exact ok.elim
  | updateAbsent => rfl
  | deleteAbsent => rfl
  | elsewhere e other =>
    obtain ⟨call, reply⟩ := e
    cases call with
    | list id => exact absurd ok other
    | create id specs => exact ok.elim
    | update id u => exact absurd ok.1 other
    | delete id name => exact ok.elim

section Again

variable {r : Reconciler} {cluster : String} {desired : Declaration} {hosts : HostMap}
  {listed : List HostRecord}

/-- With no stray source, a run ends as soon as it has listed the cluster. -/
theorem Reached.respond_eq (h : Reached desired hosts) (r : Reconciler) (cluster : String)
    (all : (listed : Multiset HostRecord) = ↑hosts.values)
    (none_stray : straySources desired hosts = []) :
    ∃ result, (r.respond cluster desired hosts listed).run = .done result ∧
      ((∃ o, result = .ok o ∧ o.hosts = hosts) ∨ desired.isEmpty = true ∧ r.Demands) := by
  rw [Reconciler.respond]
  split
  next bare =>
    obtain ⟨noHosts, -⟩ := Bool.and_eq_true_iff.1 bare
    obtain rfl := KeyMap.isEmpty_iff.1 noHosts
    obtain rfl : desired = ∅ := KeyMap.ext (List.map_eq_nil_iff.1 h.keys.symm)
    rw [Reconciler.createAll]
    dsimp only
    split
    next e refused => exact ⟨_, rfl, .inr ⟨rfl, Reconciler.demands_of_refused refused⟩⟩
    next => exact ⟨_, rfl, .inl ⟨_, rfl, rfl⟩⟩
  next =>
    obtain ⟨p, prepared, matched, -, creates, deletes, updates, -⟩ := h.prepare_eq all r
    have preps := Reconciler.prepare_ok prepared
    have nothing : p.plan.isEmpty = true := by
      rw [preps.plan, HostPlan.isEmpty_ofDiff]
      exact ⟨creates, List.map_eq_nil_iff.1 (updates.trans none_stray), deletes⟩
    simp only [prepared, Reconciler.carryThrough, nothing, if_true]
    exact ⟨_, rfl, .inl ⟨_, rfl, matched⟩⟩

/-- A run again sets stray sources and does nothing else. -/
theorem Reached.asksOnly_respond (h : Reached desired hosts) (r : Reconciler) (cluster : String)
    (all : (listed : Multiset HostRecord) = ↑hosts.values) :
    (r.respond cluster desired hosts listed).run.AsksOnly
      (Call.SetsSource cluster (straySources desired hosts)) := by
  obtain ⟨p, prepared, -, -, creates, deletes, updates, sources⟩ := h.prepare_eq all r
  have settling : ∀ call, p.diff.Settling cluster call →
      Call.SetsSource cluster (straySources desired hosts) call := by
    intro call ok
    cases call with
    | list id => exact ok
    | create id specs => exact ok
    | update id u =>
      exact ⟨ok.1, sources u ok.2, updates ▸ List.mem_map_of_mem (f := HostUpdate.key) ok.2⟩
    | delete id name => simp [HostDiff.Settling, deletes] at ok
  rcases conducts_respond r cluster desired hosts listed with ⟨result, eq⟩ | ⟨p', prepared', conducts⟩
  · rw [eq]
    trivial
  · obtain rfl := Except.ok.inj (prepared.symm.trans prepared')
    exact (conducts.asksOnly creates).mono settling

/-- The plan for a reached declaration sets stray sources and does nothing else. -/
theorem Reached.ensures_plan (h : Reached desired hosts) :
    (r.plan cluster desired hosts).run.Ensures (Serves cluster) ↑hosts.values fun result _ =>
      ∃ p, result = .ok p ∧ p.creates = [] ∧ p.deletes = [] ∧
        p.updates.map HostUpdate.key = straySources desired hosts ∧
        (∀ u ∈ p.updates, u.changed = [.replicationSource]) ∧
        (p.isEmpty = true ↔ straySources desired hosts = []) := by
  rw [Reconciler.plan, ensures_session_bind, ensures_listHosts]
  intro reply after served
  obtain ⟨listed, rfl, all, rfl⟩ := served.of_list
  obtain ⟨p, prepared, -, -, creates, deletes, updates, sources⟩ := h.prepare_eq all r
  have preps := Reconciler.prepare_ok prepared
  simp only [Except.mapError, Reconciler.prepareSession, prepared]
  refine ⟨p.plan, rfl, ?_⟩
  rw [preps.plan, HostPlan.creates_ofDiff, HostPlan.updates_ofDiff, HostPlan.deletes_ofDiff,
    HostPlan.isEmpty_ofDiff, ← updates]
  exact ⟨creates ▸ rfl, deletes, rfl, sources, by simp [creates, deletes]⟩

/-- A reached declaration has drifted only if a source has gone astray. -/
theorem Reached.ensures_checkDrift (h : Reached desired hosts) :
    (r.checkDrift cluster desired hosts).run.Ensures (Serves cluster) ↑hosts.values fun result _ =>
      ∃ d, result = .ok d ∧ d.missing = [] ∧ d.unmanaged = [] ∧
        d.changed.length = (straySources desired hosts).length ∧
        (d.hasDrift = true ↔ straySources desired hosts ≠ []) := by
  rw [Reconciler.checkDrift, ensures_session_bind, ensures_listHosts]
  intro reply after served
  obtain ⟨listed, rfl, all, rfl⟩ := served.of_list
  obtain ⟨p, prepared, -, orphans, creates, deletes, updates, -⟩ := h.prepare_eq all r
  simp only [Except.mapError, Reconciler.prepareSession, prepared]
  refine ⟨_, rfl, ?_, ?_, ?_, ?_⟩
  · rw [creates]
    rfl
  · rw [Correlation.orphanNames, orphans]
    rfl
  · rw [← updates, List.length_map, List.length_map]
  · simp [HostDiff.hasChanges, creates, deletes, ← updates, KeyMap.isEmpty]

end Again

section Runs

variable {σ : Type} {server : Server Remote σ} {cluster : String} {hosts : σ → Multiset HostRecord}
  {valid : σ → Prop}

/-- What every run on a faithful server ensures. -/
theorem FaithfulOn.run {α : Type} (faithful : FaithfulOn cluster server hosts valid) {s : σ}
    (start : valid s) (p : Program Remote α) (elapsed : Nat) :
    ∃ value exchanges, (server.run none p elapsed s).value = some value ∧
      (server.run none p elapsed s).asked = exchanges.map Exchange.request ∧
      p.Follows exchanges (.done value) ∧
      History (Serves cluster) (hosts s) exchanges (hosts (server.run none p elapsed s).state) ∧
      valid (server.run none p elapsed s).state :=
  Server.run_follows (fun s call h => ⟨faithful.kept s call h, faithful.serves s call h⟩)
    p elapsed start

/-- A run on a faithful server lists its hosts and then responds to them. -/
theorem FaithfulOn.run_reconcile (faithful : FaithfulOn cluster server hosts valid) {s : σ}
    (start : valid s) (r : Reconciler) (desired : Declaration) (prior : HostMap) (elapsed : Nat) :
    let run := server.run none (r.reconcile cluster desired prior).run elapsed s
    ∃ (result : Except SyncError Outcome) (listed : List HostRecord)
      (rest : List (Exchange Remote)), run.value = some result ∧
      run.asked = .list cluster :: rest.map Exchange.request ∧
      (listed : Multiset HostRecord) = hosts s ∧
      (r.respond cluster desired prior listed).run.Follows rest (.done result) ∧
      History (Serves cluster) (hosts s) rest (hosts run.state) ∧
      Settled desired (hosts s) result (hosts run.state) := by
  obtain ⟨result, exchanges, value, asked, follows, history, -⟩ :=
    faithful.run start (r.reconcile cluster desired prior).run elapsed
  have settled := (ensures_reconcile (faithful.wellNamed s start)).of_follows follows history
  obtain ⟨reply, rest, rfl, responded⟩ := reconcile_follows follows
  cases history with
  | move first others =>
    obtain ⟨listed, rfl, all, same⟩ := Serves.of_list first
    exact ⟨result, listed, rest, value, asked, all, responded, same ▸ others, settled⟩

/-- What is found with the recorded hosts of a run that succeeded, as long as nobody else
touches the cluster. -/
structure Idle (server : Server Remote σ) (cluster : String) (r : Reconciler)
    (desired : Declaration) (recorded : HostMap) (s : σ) : Prop where
  plan : ∀ elapsed, ∃ p,
    (server.run none (r.plan cluster desired recorded).run elapsed s).value = some (.ok p) ∧
      p.creates = [] ∧ p.deletes = [] ∧
      p.updates.map HostUpdate.key = straySources desired recorded ∧
      (∀ u ∈ p.updates, u.changed = [.replicationSource]) ∧
      (p.isEmpty = true ↔ straySources desired recorded = [])
  drift : ∀ elapsed, ∃ d,
    (server.run none (r.checkDrift cluster desired recorded).run elapsed s).value = some (.ok d) ∧
      d.missing = [] ∧ d.unmanaged = [] ∧
      d.changed.length = (straySources desired recorded).length ∧
      (d.hasDrift = true ↔ straySources desired recorded ≠ [])
  calls : ∀ elapsed,
    ∀ call ∈ (server.run none (r.reconcile cluster desired recorded).run elapsed s).asked,
      Call.SetsSource cluster (straySources desired recorded) call
  again : straySources desired recorded = [] → ∀ elapsed,
    let run := server.run none (r.reconcile cluster desired recorded).run elapsed s
    run.asked = [.list cluster] ∧ ((∃ o, run.value = some (.ok o) ∧ o.hosts = recorded) ∨
      desired.isEmpty = true ∧ r.Demands)
  last : ∀ elapsed o,
    (server.run none (r.reconcile cluster desired recorded).run elapsed s).value = some (.ok o) →
      straySources desired o.hosts = []

theorem Reached.idle {desired : Declaration} {recorded : HostMap} {s : σ}
    (faithful : FaithfulOn cluster server hosts valid) (start : valid s)
    (reached : Reached desired recorded) (all : hosts s = ↑recorded.values) (r : Reconciler) :
    Idle server cluster r desired recorded s := by
  constructor
  · intro elapsed
    obtain ⟨result, exchanges, value, -, follows, history, -⟩ :=
      faithful.run start (r.plan cluster desired recorded).run elapsed
    obtain ⟨p, rfl, found⟩ := reached.ensures_plan.of_follows follows (all ▸ history)
    exact ⟨p, value, found⟩
  · intro elapsed
    obtain ⟨result, exchanges, value, -, follows, history, -⟩ :=
      faithful.run start (r.checkDrift cluster desired recorded).run elapsed
    obtain ⟨d, rfl, found⟩ := reached.ensures_checkDrift.of_follows follows (all ▸ history)
    exact ⟨d, value, found⟩
  · intro elapsed call hc
    obtain ⟨result, listed, rest, -, asked, listing, follows, -, -⟩ :=
      faithful.run_reconcile start r desired recorded elapsed
    rw [asked] at hc
    rcases List.mem_cons.1 hc with rfl | hc
    · rfl
    · obtain ⟨e, he, rfl⟩ := List.mem_map.1 hc
      exact (reached.asksOnly_respond r cluster (listing.trans all)).of_follows follows e he
  · intro none_stray elapsed
    obtain ⟨result, listed, rest, value, asked, listing, follows, -, -⟩ :=
      faithful.run_reconcile start r desired recorded elapsed
    obtain ⟨result', eq, ends⟩ := reached.respond_eq r cluster (listing.trans all) none_stray
    rw [eq] at follows
    obtain ⟨rfl, done⟩ := Program.follows_done follows
    obtain rfl := Program.done.inj done
    refine ⟨asked, ends.imp_left ?_⟩
    rintro ⟨o, rfl, same⟩
    exact ⟨o, value, same⟩
  · intro elapsed o succeeded
    obtain ⟨result, listed, rest, value, -, listing, follows, history, settled⟩ :=
      faithful.run_reconcile start r desired recorded elapsed
    obtain rfl := Option.some.inj (value.symm.trans succeeded)
    have asked := (reached.asksOnly_respond r cluster (listing.trans all)).of_follows follows
    have names := history.invariant
      (fun now => ∀ n ∈ now.map HostRecord.name, n ∈ (hosts s).map HostRecord.name)
      (fun now e next ok served known => served.names_of_setsSource ok ▸ known) asked
      fun n hn => hn
    refine List.eq_nil_iff_forall_not_mem.2 fun key hk => ?_
    obtain ⟨wanted, host, hw, hh, stray⟩ := mem_straySources.1 hk
    refine stray (settled.2.settled key wanted host hw hh (names _ ?_))
    rw [settled.2.hosts]
    exact Multiset.mem_map_of_mem _ (Multiset.mem_coe.2 (KeyMap.mem_values_of_mem hh))

/-- After a run that succeeded, nothing is left to do but to set the sources of keys whose
hosts that run created for others of their class, and one more run sets them. -/
theorem reconcile_then_idle (faithful : FaithfulOn cluster server hosts valid) {s : σ}
    (start : valid s) (r again : Reconciler) (desired : Declaration) (prior : HostMap)
    (elapsed : Nat) {o : Outcome} :
    let run := server.run none (r.reconcile cluster desired prior).run elapsed s
    run.value = some (.ok o) →
      Idle server cluster again desired o.hosts run.state ∧
      ∀ key ∈ straySources desired o.hosts, ∃ wanted host, (key, wanted) ∈ desired.entries ∧
        (key, host) ∈ o.hosts.entries ∧ host.name ∉ (hosts s).map HostRecord.name ∧
        0 < o.created ∧ ∃ other ∈ desired.values, Realizes other host ∧ other.zone = wanted.zone ∧
          other.assignPublicIp = wanted.assignPublicIp ∧
          other.replicationSource ≠ wanted.replicationSource := by
  intro run succeeded
  obtain ⟨result, exchanges, value, -, follows, history, valid'⟩ :=
    faithful.run start (r.reconcile cluster desired prior).run elapsed
  obtain rfl := Option.some.inj (value.symm.trans succeeded)
  obtain ⟨wellNamed, reaches⟩ :=
    (ensures_reconcile (faithful.wellNamed s start)).of_follows follows history
  refine ⟨(reaches.reached wellNamed).idle faithful valid' reaches.hosts again, fun key hk => ?_⟩
  obtain ⟨wanted, host, hw, hh, stray⟩ := mem_straySources.1 hk
  have isNew : host.name ∉ (hosts s).map HostRecord.name := fun old =>
    stray (reaches.settled key wanted host hw hh old)
  have created : 0 < o.created := by
    rw [← reaches.fresh, List.countP_pos_iff]
    exact ⟨host, KeyMap.mem_values_of_mem hh, decide_eq_true isNew⟩
  obtain ⟨other, ho, realizes⟩ := reaches.realized host (KeyMap.mem_values_of_mem hh) isNew
  obtain ⟨zone, flag, -⟩ := reaches.placed key wanted host hw hh
  exact ⟨wanted, host, hw, hh, isNew, created, other, ho, realizes,
    realizes.zone.symm.trans zone, realizes.assignPublicIp.symm.trans flag,
    realizes.replicationSource ▸ stray⟩

end Runs

/-- A primary and its replica, of one class. -/
def primaryAndReplica : Declaration :=
  .ofList [
    ("primary", { zone := "z" }),
    ("replica", { zone := "z", replicationSource := some "primary" })]

/-- The hosts of a primary and its replica under each other's key. -/
def crossedHosts : HostMap :=
  .ofList [
    ("primary", { zone := "z", replicationSource := some "primary",
                  assignedName := some "z-2.db.internal" }),
    ("replica", { zone := "z", assignedName := some "z-1.db.internal" })]

/-- A primary and its replica are crossed when the cluster lists the oldest host first. -/
theorem reconcile_then_idle_in_memory :
    let run := Cluster.server.run none
      (({} : Reconciler).reconcile "c" primaryAndReplica ∅).run 0 { order := .oldestFirst }
    run.value = some (.ok
      { clusterId := "c", phase := .stable, hosts := crossedHosts, created := 2 }) ∧
      Idle Cluster.server "c" {} primaryAndReplica crossedHosts run.state ∧
      straySources primaryAndReplica crossedHosts = ["primary", "replica"] := by
  intro run
  have succeeded : run.value = some (.ok
      { clusterId := "c", phase := .stable, hosts := crossedHosts, created := 2 }) := by
    decide +kernel
  refine ⟨succeeded, ?_, by decide +kernel⟩
  exact (reconcile_then_idle (Cluster.faithfulOn_server "c") (Cluster.sound_new .oldestFirst ∅) {} {}
    primaryAndReplica ∅ 0 succeeded).1

/-- One run does not always leave nothing to do. -/
theorem not_idle_after_one_run :
    ¬ ∀ (c : Cluster) (r : Reconciler) (desired : Declaration) (prior : HostMap) (o : Outcome),
      let run := Cluster.server.run none (r.reconcile "c" desired prior).run 0 c
      let plan := Cluster.server.run none (r.plan "c" desired o.hosts).run 0 run.state
      let drift := Cluster.server.run none (r.checkDrift "c" desired o.hosts).run 0 run.state
      let again := Cluster.server.run none (r.reconcile "c" desired o.hosts).run 0 run.state
      c.Sound → run.value = some (.ok o) →
        (∃ p, plan.value = some (.ok p) ∧ p.isEmpty = true) ∧
        (∃ d, drift.value = some (.ok d) ∧ d.hasDrift = false) ∧
        (∀ call ∈ again.asked, Call.isMutation call = false) ∧
        ∃ o', again.value = some (.ok o') ∧ o'.hosts = o.hosts := by
  intro claim
  let start : Cluster := { order := .oldestFirst }
  let o : Outcome := { clusterId := "c", phase := .stable, hosts := crossedHosts, created := 2 }
  obtain ⟨⟨p, planned, nothing⟩, -⟩ := claim start {} primaryAndReplica ∅ o
    (Cluster.sound_new .oldestFirst ∅) (by decide +kernel)
  have two : (Cluster.server.run none (({} : Reconciler).plan "c" primaryAndReplica o.hosts).run 0
      (Cluster.server.run none (({} : Reconciler).reconcile "c" primaryAndReplica ∅).run 0
        start).state).value.map (fun result => result.toOption.map HostPlan.isEmpty) =
        some (some false) := by
    decide +kernel
  rw [planned] at two
  simp [Except.toOption, nothing] at two

end HostRoster
